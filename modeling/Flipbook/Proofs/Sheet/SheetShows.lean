import Flipbook.Sheet.Svg
import Flipbook.Proofs.Markup.Setting
import Flipbook.Proofs.Markup.Tokens
import Flipbook.Proofs.Number.IntegerText
import Flipbook.Proofs.Sheet.Tiles
import Flipbook.Proofs.Text.Base64
import Flipbook.Proofs.Text.Utf8

namespace Flipbook.Markup

open Text

theorem tags_render_append {tag : Tag} (legible : tag.Legible) (rest : Text) : tags (tag.render ++ rest) = tag :: tags rest := by
  rw [tags, Pattern.scan_of_some token_faithful (token_complete (.tag legible) trivial rest) rfl]
  rfl

end Flipbook.Markup

namespace Flipbook.Sheet

open Text Markup

def printedAttribute (entry : String × Text) : Attribute :=
  ⟨[' '], entry.1.toList, some entry.2, entry.1.toList ++ ('=' :: ('"' :: entry.2 ++ ['"']))⟩

def printedTag (name : String) (attributes : List (String × Text)) (tail : Text) (selfClosing : Bool) : Tag where
  name := name.toList
  attributes := attributes.map printedAttribute
  tail
  selfClosing

section Printed

variable {name : String} {attributes : List (String × Text)} {tail : Text} {selfClosing : Bool}

theorem render_printedTag :
    (printedTag name attributes tail selfClosing).render = openTag name attributes ++ (tail ++ endingText selfClosing) := by
  have each : (attributes.map printedAttribute).flatMap (fun a => a.gap ++ a.text) =
      attributes.flatMap fun entry => attributeText entry.1 entry.2 := by
    rw [List.flatMap_map]
    refine List.flatMap_congr fun entry _ => ?_
    simp [printedAttribute, attributeText]
  rw [Tag.render, printedTag, each]
  simp [openTag, Tag.ending, endingText]

theorem legible_printedTag (starts : ∃ c rest, name.toList = c :: rest ∧ isAsciiLetter c ∧ ∀ d ∈ rest, isTagNameChar d)
    (names : ∀ entry ∈ attributes, WritableName entry.1.toList) (values : ∀ entry ∈ attributes, '"' ∉ entry.2)
    (blank : ∀ c ∈ tail, isBlank c) (apart : selfClosing → tail ≠ []) :
    (printedTag name attributes tail selfClosing).Legible where
  name := starts
  attributes := by
    intro a member
    obtain ⟨entry, inside, rfl⟩ := List.mem_map.mp member
    exact Attribute.legible_quoted (List.cons_ne_nil _ _) (List.forall_mem_singleton.mpr (by decide)) (names entry inside)
      (values entry inside)
  added := rfl
  tail := blank
  apart := fun none closes => absurd none (apart closes)

theorem get?_printedTag {key : String} {value : Text} (distinct : (attributes.map (·.1)).Nodup)
    (member : (key, value) ∈ attributes) :
    (printedTag name attributes tail selfClosing).attributeMap.get? key.toList = some value := by
  have entries : (attributes.map printedAttribute ++ []).filterMap
      (fun (a : Attribute) => a.value.map fun value => (a.name, value)) =
      attributes.map fun entry => (entry.1.toList, entry.2) := by
    rw [List.append_nil, List.filterMap_map]
    exact congrFun List.filterMap_eq_map attributes
  have names : (Table.names (attributes.map fun entry => (entry.1.toList, entry.2))).Nodup := by
    have same : Table.names (attributes.map fun entry => (entry.1.toList, entry.2)) =
        (attributes.map (·.1)).map String.toList := by
      rw [Table.names, List.map_map, List.map_map]
      rfl
    rw [same]
    exact distinct.map fun _ _ same => String.toList_injective same
  rw [Tag.attributeMap, printedTag, entries, Table.get?_ofList]
  refine Table.get?_of_mem ?_ (List.mem_reverse.mpr (List.mem_map.mpr ⟨(key, value), member, rfl⟩))
  rw [Table.names, List.map_reverse]
  exact List.nodup_reverse.mpr names

end Printed

/-- The frame that the address of a picture holds. -/
def embedded? (address : Text) : Option Text :=
  (after? "data:image/svg+xml;base64,".toList address).bind fun code => (ofBase64? code).bind decode?

theorem embedded?_dataAddress (frame : Text) : embedded? (dataAddress frame) = some frame := by
  have address : after? "data:image/svg+xml;base64,".toList (dataAddress frame) = some (base64 (encode frame)) :=
    after?_append _ _
  rw [embedded?, address, Option.bind_some, ofBase64?_base64, Option.bind_some, decode_encode]

def Says (tag : Tag) (name : String) (n : Int) : Prop :=
  ∃ value, tag.attributeMap.get? name.toList = some value ∧ IntegerText n value

structure Puts (tag : Tag) (picture : Picture) : Prop where
  x : Says tag "x" picture.tile.x
  y : Says tag "y" picture.tile.y
  width : Says tag "width" picture.tile.width
  height : Says tag "height" picture.tile.height
  address : tag.attributeMap.get? "xlink:href".toList = some picture.address

/-- The document has that size, and its images are these pictures, in this order. -/
structure SheetShows (sheet : Text) (width height : Int) (placed : List Picture) : Prop where
  root : ∃ tag ∈ (tags sheet).head?, tag.name = "svg".toList ∧ Says tag "width" width ∧ Says tag "height" height
  images : List.Forall₂ Puts ((tags sheet).filter (·.name = "image".toList)) placed

def isPlain (c : Char) : Bool := c ≠ '"' && c ≠ '&' && c ≠ '<' && c ≠ '>'

def Picture.Plain (picture : Picture) : Prop := ∀ c ∈ picture.id ++ picture.address, isPlain c

/-- A writer that writes the sizes and places it is given, and keeps the order of the pictures. -/
class Writer.Faithful [Writer] : Prop where
  shows {width height : Int} {placed : List Picture} {sheet : Text} :
    (∀ picture ∈ placed, picture.Plain) → Writer.write width height placed = some sheet →
      SheetShows sheet width height placed

theorem plain_ofInt {n : Int} {c : Char} (member : c ∈ ofInt n) : isPlain c := by
  by_contra marked
  have special : c = '"' ∨ c = '&' ∨ c = '<' ∨ c = '>' := by simpa [isPlain, or_iff_not_imp_left] using marked
  have digits := (integerText_ofInt n).char c member
  rcases special with rfl | rfl | rfl | rfl <;> exact absurd digits (by decide)

theorem plain_dataAddress {frame : Text} {c : Char} (member : c ∈ dataAddress frame) : isPlain c := by
  rcases List.mem_append.mp member with lead | code
  · exact List.all_eq_true.mp (by decide : "data:image/svg+xml;base64,".toList.all isPlain) c lead
  · rcases mem_base64 code with letter | rfl
    · exact List.all_eq_true.mp (by decide : base64Alphabet.all isPlain) c letter
    · rfl

theorem plain_pictures (grid : Grid) (frames : List Text) : ∀ picture ∈ pictures grid frames, picture.Plain := by
  intro picture member
  obtain ⟨⟨frame, index⟩, -, rfl⟩ := List.mem_map.mp member
  intro c inside
  rcases List.mem_append.mp inside with id | address
  · rcases List.mem_append.mp id with lead | index
    · exact List.all_eq_true.mp (by decide : "frame_".toList.all isPlain) c lead
    · exact plain_ofInt (n := .ofNat _) index
  · exact plain_dataAddress address

theorem nodup_rootAttributes (width height : Int) : ((rootAttributes width height).map (·.1)).Nodup := by
  have names : (rootAttributes width height).map (·.1) =
      ["baseProfile", "height", "version", "width", "xmlns", "xmlns:ev", "xmlns:xlink"] := rfl
  rw [names]
  decide

theorem nodup_attributes (picture : Picture) : (picture.attributes.map (·.1)).Nodup := by
  have names : picture.attributes.map (·.1) = ["height", "id", "width", "x", "xlink:href", "y"] := rfl
  rw [names]
  decide

def rootTag (width height : Int) : Tag := printedTag "svg" (rootAttributes width height) [] false

def defsTag : Tag := printedTag "defs" [] [' '] true

def imageTag (picture : Picture) : Tag := printedTag "image" picture.attributes [' '] true

theorem quote_not_mem_ofInt (n : Int) : '"' ∉ ofInt n :=
  fun member => absurd (plain_ofInt member) (by decide)

theorem legible_rootTag (width height : Int) : (rootTag width height).Legible := by
  refine legible_printedTag ⟨'s', ['v', 'g'], rfl, by decide, List.all_eq_true.mp (by decide)⟩ ?_ ?_
    (List.forall_mem_nil _) (fun closes => by cases closes)
  · simp only [rootAttributes, List.forall_mem_cons]
    decide
  · simp only [rootAttributes, List.forall_mem_cons, quote_not_mem_ofInt]
    decide

theorem legible_defsTag : defsTag.Legible :=
  legible_printedTag ⟨'d', ['e', 'f', 's'], rfl, by decide, List.all_eq_true.mp (by decide)⟩ (List.forall_mem_nil _)
    (List.forall_mem_nil _) (List.forall_mem_singleton.mpr (by decide)) fun _ => List.cons_ne_nil _ _

theorem legible_imageTag {picture : Picture} (plain : picture.Plain) : (imageTag picture).Legible := by
  have unquoted : '"' ∉ picture.id ++ picture.address := fun member => absurd (plain _ member) (by decide)
  rw [List.mem_append, not_or] at unquoted
  refine legible_printedTag ⟨'i', ['m', 'a', 'g', 'e'], rfl, by decide, List.all_eq_true.mp (by decide)⟩ ?_ ?_
    (List.forall_mem_singleton.mpr (by decide)) fun _ => List.cons_ne_nil _ _
  · simp only [Picture.attributes, List.forall_mem_cons]
    decide
  · simp only [Picture.attributes, List.forall_mem_cons, quote_not_mem_ofInt, unquoted]
    decide

theorem text_picture (picture : Picture) : picture.text = (imageTag picture).render := by
  rw [imageTag, render_printedTag]
  rfl

theorem sheetText_eq (width height : Int) (placed : List Picture) :
    sheetText width height placed =
      (rootTag width height).render ++ (defsTag.render ++ (placed.flatMap Picture.text ++ "</svg>".toList)) := by
  rw [rootTag, defsTag, render_printedTag, render_printedTag, sheetText]
  simp [endingText, openTag]

theorem tags_pictures {placed : List Picture} (plain : ∀ picture ∈ placed, picture.Plain) :
    tags (placed.flatMap Picture.text ++ "</svg>".toList) = placed.map imageTag := by
  induction placed with
  | nil => decide
  | cons picture placed ih =>
    obtain ⟨here, later⟩ := List.forall_mem_cons.mp plain
    rw [List.flatMap_cons, text_picture, List.append_assoc, tags_render_append (legible_imageTag here), ih later,
      List.map_cons]

theorem tags_sheetText {placed : List Picture} (plain : ∀ picture ∈ placed, picture.Plain) (width height : Int) :
    tags (sheetText width height placed) = rootTag width height :: defsTag :: placed.map imageTag := by
  rw [sheetText_eq, tags_render_append (legible_rootTag width height), tags_render_append legible_defsTag,
    tags_pictures plain]

theorem says_printedTag {name : String} {attributes : List (String × Text)} {tail : Text} {selfClosing : Bool}
    (distinct : (attributes.map (·.1)).Nodup) {key : String} {n : Int} (member : (key, ofInt n) ∈ attributes) :
    Says (printedTag name attributes tail selfClosing) key n :=
  ⟨_, get?_printedTag distinct member, integerText_ofInt n⟩

theorem puts_imageTag (picture : Picture) : Puts (imageTag picture) picture := by
  have distinct := nodup_attributes picture
  exact {
    x := says_printedTag distinct (by simp [Picture.attributes])
    y := says_printedTag distinct (by simp [Picture.attributes])
    width := says_printedTag distinct (by simp [Picture.attributes])
    height := says_printedTag distinct (by simp [Picture.attributes])
    address := get?_printedTag distinct (by simp [Picture.attributes]) }

theorem sheetShows_sheetText {placed : List Picture} (plain : ∀ picture ∈ placed, picture.Plain) (width height : Int) :
    SheetShows (sheetText width height placed) width height placed where
  root := by
    have distinct := nodup_rootAttributes width height
    rw [tags_sheetText plain]
    exact ⟨rootTag width height, rfl, rfl, says_printedTag distinct (by simp [rootAttributes]),
      says_printedTag distinct (by simp [rootAttributes])⟩
  images := by
    have root : (rootTag width height).name ≠ "image".toList := by
      rw [show (rootTag width height).name = "svg".toList from rfl]
      decide
    have defs : defsTag.name ≠ "image".toList := by decide
    have others : (placed.map imageTag).filter (·.name = "image".toList) = placed.map imageTag :=
      List.filter_eq_self.mpr (List.forall_mem_map.mpr fun _ _ => rfl)
    rw [tags_sheetText plain, List.filter_cons_of_neg (by simpa using root), List.filter_cons_of_neg (by simpa using defs),
      others, List.forall₂_map_left_iff, List.forall₂_same]
    exact fun picture _ => puts_imageTag picture

instance : Writer.Faithful where
  shows plain written := by
    cases written
    exact sheetShows_sheetText plain _ _

/-- Tiles row by row from the left, apart from each other, on the least sheet that holds them. -/
structure FillSheet (columns frameWidth frameHeight : Int) (tiles : List Tile) (width height : Int) : Prop where
  placed : ∀ (index : Nat) tile, tiles[index]? = some tile →
    tile = ⟨index % columns * frameWidth, index / columns * frameHeight, frameWidth, frameHeight⟩
  ordered : tiles.Pairwise Tile.Before
  disjoint : tiles.Pairwise Tile.Disjoint
  inside : ∀ tile ∈ tiles, tile.Inside width height
  least : ∀ width' height', (∀ tile ∈ tiles, tile.Inside width' height') → width ≤ width' ∧ height ≤ height'

theorem tiles_pictures (grid : Grid) (frames : List Text) :
    (pictures grid frames).map (·.tile) = (List.range frames.length).map grid.tile := by
  rw [pictures, List.map_map, List.range_eq_range', ← List.zipIdx_map_snd, List.map_map]
  rfl

theorem embedded?_pictures (grid : Grid) (frames : List Text) :
    ((pictures grid frames).map fun picture => embedded? picture.address) = frames.map some := by
  calc
    _ = frames.zipIdx.map (some ∘ Prod.fst) := by
      rw [pictures, List.map_map]
      exact List.map_congr_left fun entry _ => embedded?_dataAddress entry.1
    _ = frames.map some := by rw [← List.map_map, List.zipIdx_map_fst]

theorem Grid.Valid.fillSheet {grid : Grid} (valid : grid.Valid) : FillSheet grid.columns grid.frameWidth grid.frameHeight
    ((List.range grid.frames).map grid.tile) grid.width grid.height where
  placed := by
    intro index tile found
    rw [List.getElem?_map] at found
    obtain ⟨place, inside, rfl⟩ := Option.map_eq_some_iff.mp found
    obtain ⟨less, rfl⟩ := List.getElem?_eq_some_iff.mp inside
    rw [List.getElem_range, Grid.tile_eq valid]
    rfl
  ordered := List.pairwise_map.mpr (List.pairwise_lt_range.imp (Grid.tile_before valid))
  disjoint := List.pairwise_map.mpr (List.pairwise_lt_range.imp (Grid.tile_disjoint valid))
  inside := List.forall_mem_map.mpr fun _ member => Grid.tile_inside valid (List.mem_range.mp member)
  least := by
    intro width' height' inside
    have each : ∀ i < grid.frames, (grid.tile i).Inside width' height' := fun i less =>
      inside _ (List.mem_map_of_mem (List.mem_range.mpr less))
    exact ⟨Grid.width_le valid fun i less => (each i less).right, Grid.height_le valid fun i less => (each i less).bottom⟩

theorem layout_of_sizes {frames : List Text} (nonempty : frames ≠ []) {columns : Option Int}
    (given : ∀ n ∈ columns, 1 ≤ n) (frameWidth frameHeight : Int) :
    layout ⟨columns, frameWidth, some frameHeight⟩ frames =
      .ok ⟨frames.length, columns.getD frames.length, frameWidth, frameHeight⟩ := by
  obtain ⟨first, others, rfl⟩ := List.exists_cons_of_ne_nil nonempty
  cases columns with
  | none => rfl
  | some n =>
    have positive := given n rfl
    unfold layout
    split
    · rename_i same
      cases same
    · rename_i same
      cases same
      simp only
      split
      · rename_i same
        cases same
      · rename_i zero
        have none : n = 0 := Option.some.inj zero
        omega
      · rename_i same
        cases same
        rfl

theorem write_of_build [Writer] {options : Options} {frames : List Text} {grid : Grid} {sheet : Text}
    (laid : layout options frames = .ok grid) (built : build options frames = .ok sheet) :
    Writer.write grid.width grid.height (pictures grid frames) = some sheet := by
  rw [build_of_layout laid] at built
  split at built
  · split at built
    · rename_i written
      cases built
      exact written
    · cases built
  · cases built

/-- A sheet shows all frames in their order and nothing else: row by row, apart from each other, and on no more space
    than they need. It is built unless its numbers cannot be written or the writer does not take it. -/
theorem build_fills_sheet [Writer] [Writer.Faithful] {frames : List Text} (nonempty : frames ≠ []) {columns : Option Int}
    (given : ∀ n ∈ columns, 1 ≤ n) {frameWidth frameHeight : Int} (wide : 1 ≤ frameWidth) (high : 1 ≤ frameHeight) :
    ∃ width height placed,
      (placed.map fun picture => embedded? picture.address) = frames.map some ∧
      FillSheet (columns.getD frames.length) frameWidth frameHeight (placed.map (·.tile)) width height ∧
      (build ⟨columns, frameWidth, some frameHeight⟩ frames =
        if [columns.getD frames.length, width, height].all isWritable then
          match Writer.write width height placed with
          | some sheet => .ok sheet
          | none => .error .refused
        else .error .unwritable) ∧
      ∀ sheet, build ⟨columns, frameWidth, some frameHeight⟩ frames = .ok sheet →
        SheetShows sheet width height placed := by
  let grid : Grid := ⟨frames.length, columns.getD frames.length, frameWidth, frameHeight⟩
  have count : 1 ≤ frames.length := List.length_pos_iff.mpr nonempty
  have valid : grid.Valid := by
    refine ⟨count, ?_, wide, high⟩
    cases columns with
    | none => exact Int.ofNat_le.mpr count
    | some n => exact given n rfl
  have laid : layout ⟨columns, frameWidth, some frameHeight⟩ frames = .ok grid := layout_of_sizes nonempty given _ _
  refine ⟨grid.width, grid.height, pictures grid frames, embedded?_pictures grid frames, ?_, ?_, fun sheet built => ?_⟩
  · exact tiles_pictures grid frames ▸ valid.fillSheet
  · exact build_of_layout laid
  · exact Writer.Faithful.shows (plain_pictures grid frames) (write_of_build laid built)

theorem build_fills_sheet_twoColumns :
    ∃ sheet width height placed, build ⟨some 2, 10, some 5⟩ ["<svg/>".toList, "<g/>".toList, []] = .ok sheet ∧
      SheetShows sheet width height placed ∧
      (placed.map fun picture => embedded? picture.address) = [some "<svg/>".toList, some "<g/>".toList, some []] ∧
      FillSheet 2 10 5 (placed.map (·.tile)) width height := by
  have nonempty : ["<svg/>".toList, "<g/>".toList, []] ≠ [] := List.cons_ne_nil _ _
  have given : ∀ n ∈ some (2 : Int), 1 ≤ n := fun n same => by
    cases same
    decide
  have wide : (1 : Int) ≤ 10 := by decide
  have high : (1 : Int) ≤ 5 := by decide
  obtain ⟨width, height, placed, embedded, fill, -, shows⟩ := build_fills_sheet nonempty given wide high
  have laid : layout ⟨some 2, 10, some 5⟩ ["<svg/>".toList, "<g/>".toList, []] = .ok ⟨3, 2, 10, 5⟩ := rfl
  have writable : ([2, 20, 10] : List Int).all isWritable = true := by decide +kernel
  have built := (build_of_layout laid).trans (if_pos writable)
  exact ⟨_, width, height, placed, built, shows _ built, embedded, fill⟩

end Flipbook.Sheet
