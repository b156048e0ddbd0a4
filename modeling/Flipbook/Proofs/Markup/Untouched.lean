import Flipbook.Proofs.Markup.Steps
import Mathlib.Data.List.Forall2

namespace Flipbook.Markup

open Text

def findElements (document : Text) (selector : Selector) : List Tag :=
  (tags document).filter selector.matchesTag

/-- An attribute that was not written is as it was; else its blanks and its name are. -/
def Attribute.Kept (values : List (Text × Text)) (a b : Attribute) : Prop :=
  b = a ∨ ∃ value, (a.name, value) ∈ values ∧
    b = { a with value := some value, text := Tag.written a.name value }

/-- Between two forms of a tag nothing differs but what the values say. -/
structure Tag.Kept (values : List (Text × Text)) (source target : Tag) : Prop where
  name : target.name = source.name
  attributes : List.Forall₂ (Attribute.Kept values) source.attributes target.attributes
  noneAdded : source.added = []
  added : ∀ a ∈ target.added, ∃ entry ∈ values, a = ⟨[' '], entry.1, some entry.2, Tag.written entry.1 entry.2⟩
  tail : target.tail = source.tail
  selfClosing : target.selfClosing = source.selfClosing

theorem Attribute.Kept.write {values : List (Text × Text)} {a b : Attribute} (kept : a.Kept values b)
    {name value : Text} (member : (name, value) ∈ values) (same : b.name = name) :
    a.Kept values { b with value := some value, text := Tag.written name value } := by
  rcases kept with rfl | ⟨old, _, rfl⟩
  · exact .inr ⟨value, same ▸ member, by rw [same]⟩
  · exact .inr ⟨value, same ▸ member, by rw [← same]⟩

theorem setFirst?_kept {values : List (Text × Text)} {sources targets changed : List Attribute}
    (kept : List.Forall₂ (Attribute.Kept values) sources targets) {name value : Text}
    (member : (name, value) ∈ values) (set : Tag.setFirst? name value targets = some changed) :
    List.Forall₂ (Attribute.Kept values) sources changed := by
  induction kept generalizing changed with
  | nil => cases set
  | @cons a b sources targets first others ih =>
    rw [setFirst?_cons] at set
    split at set
    · rename_i same
      cases set
      exact .cons (first.write member same) others
    · obtain ⟨rest, found, whole⟩ := Option.map_eq_some_iff.mp set
      cases whole
      exact .cons first (ih found)

theorem mem_setFirst? {name value : Text} {attributes changed : List Attribute}
    (set : Tag.setFirst? name value attributes = some changed) {a : Attribute} (member : a ∈ changed) :
    a ∈ attributes ∨ ∃ b ∈ attributes, b.name = name ∧
      a = { b with value := some value, text := Tag.written name value } := by
  induction attributes generalizing changed with
  | nil => cases set
  | cons b attributes ih =>
    rw [setFirst?_cons] at set
    split at set
    · rename_i same
      cases set
      rcases List.mem_cons.mp member with rfl | member
      · exact .inr ⟨b, by simp, same, rfl⟩
      · exact .inl (List.mem_cons_of_mem _ member)
    · obtain ⟨rest, found, whole⟩ := Option.map_eq_some_iff.mp set
      cases whole
      rcases List.mem_cons.mp member with rfl | member
      · exact .inl (by simp)
      · rcases ih found member with old | ⟨d, inside, same, shape⟩
        · exact .inl (List.mem_cons_of_mem _ old)
        · exact .inr ⟨d, List.mem_cons_of_mem _ inside, same, shape⟩

theorem Tag.Kept.refl {tag : Tag} (noneAdded : tag.added = []) (values : List (Text × Text)) :
    tag.Kept values tag where
  name := rfl
  attributes := List.forall₂_same.mpr fun _ _ => .inl rfl
  noneAdded := noneAdded
  added := by simp [noneAdded]
  tail := rfl
  selfClosing := rfl

theorem Tag.Kept.set {values : List (Text × Text)} {source target : Tag} (kept : source.Kept values target)
    {name value : Text} (member : (name, value) ∈ values) : source.Kept values (target.set name value) := by
  unfold Tag.set
  split
  · rename_i attributes found
    exact { kept with attributes := setFirst?_kept kept.attributes member found }
  · split
    · rename_i added found
      refine { kept with added := fun a inside => ?_ }
      rcases mem_setFirst? found inside with old | ⟨b, old, same, shape⟩
      · exact kept.added a old
      · obtain ⟨entry, _, whole⟩ := kept.added b old
        refine ⟨(name, value), member, ?_⟩
        rw [shape, ← same, whole]
    · refine { kept with added := fun a inside => ?_ }
      rcases List.mem_append.mp inside with old | new
      · exact kept.added a old
      · exact ⟨(name, value), member, List.mem_singleton.mp new⟩

theorem Tag.Kept.setAll {values : List (Text × Text)} {source target : Tag}
    (kept : source.Kept values target) {entries : List (Text × Text)} (inside : entries ⊆ values) :
    source.Kept values (target.setAll entries) := by
  induction entries generalizing target with
  | nil => exact kept
  | cons entry entries ih =>
    have first := inside (List.mem_cons_self)
    exact ih (kept.set first) fun other member => inside (List.mem_cons_of_mem _ member)

/-- A tag before and after a rewriting, with the text between it and the tag rewritten before it. -/
structure Segment where
  before : Text
  source : Tag
  target : Tag

namespace Segment

def sourceText (segments : List Segment) : Text :=
  segments.flatMap fun segment => segment.before ++ segment.source.render

def targetText (segments : List Segment) : Text :=
  segments.flatMap fun segment => segment.before ++ segment.target.render

def places (start : Nat) : List Segment → List (Nat × Nat × Tag)
  | [] => []
  | segment :: rest =>
    let first := start + segment.before.length
    let stop := first + segment.source.render.length
    (first, stop, segment.source) :: places stop rest

theorem sourceText_cons (segment : Segment) (rest : List Segment) :
    sourceText (segment :: rest) = segment.before ++ segment.source.render ++ sourceText rest := rfl

theorem targetText_cons (segment : Segment) (rest : List Segment) :
    targetText (segment :: rest) = segment.before ++ segment.target.render ++ targetText rest := rfl

theorem places_map_source (start : Nat) (segments : List Segment) :
    (places start segments).map (·.2.2) = segments.map (·.source) := by
  induction segments generalizing start with
  | nil => rfl
  | cons segment rest ih => rw [places, List.map_cons, List.map_cons, ih]

end Segment

theorem placedTagsFrom_map_tag (start : Nat) (pieces : List (Piece Token)) :
    (placedTagsFrom start pieces).map (·.2.2) = pieces.filterMap tag? := by
  induction pieces generalizing start with
  | nil => rfl
  | cons piece rest ih =>
    cases found : tag? piece with
    | none => rw [placedTagsFrom, found, List.filterMap_cons_none found, ih]
    | some tag => rw [placedTagsFrom, found, List.filterMap_cons_some found, List.map_cons, ih]

theorem eq_of_tag?_eq_some {piece : Piece Token} {tag : Tag} (isTag : tag? piece = some tag) :
    ∃ lexeme, piece = .found (.tag tag) lexeme := by
  cases piece with
  | plain c => cases isTag
  | found tok lexeme =>
    cases tok with
    | tag _ =>
      cases isTag
      exact ⟨lexeme, rfl⟩
    | _ => cases isTag

theorem render_of_mem_placedTags {document : Text} {start stop : Nat} {tag : Tag}
    (member : (start, stop, tag) ∈ placedTags document) :
    (document.drop start).take (stop - start) = tag.render := by
  suffices ∀ (before : Text) (pieces : List (Piece Token)), (∀ piece ∈ pieces, piece ∈ token.scan document) →
      (start, stop, tag) ∈ placedTagsFrom before.length pieces →
      ((before ++ Piece.joined pieces).drop start).take (stop - start) = tag.render by
    have whole := this [] (token.scan document) (fun _ inside => inside) member
    rwa [List.nil_append, Pattern.joined_scan token_faithful] at whole
  clear member
  intro before pieces inside member
  induction pieces generalizing before with
  | nil => cases member
  | cons piece rest ih =>
    have later (found : (start, stop, tag) ∈ placedTagsFrom (before.length + piece.lexeme.length) rest) :
        ((before ++ Piece.joined (piece :: rest)).drop start).take (stop - start) = tag.render := by
      rw [← List.length_append] at found
      rw [Pattern.joined_cons, ← List.append_assoc]
      exact ih (before ++ piece.lexeme) (fun other member => inside other (by simp [member])) found
    rw [placedTagsFrom] at member
    split at member
    · rename_i isTag
      rcases List.mem_cons.mp member with same | found
      · cases same
        obtain ⟨lexeme, rfl⟩ := eq_of_tag?_eq_some isTag
        have text : lexeme = tag.render := (tag_of_mem_scan (inside _ (by simp))).2
        rw [Pattern.joined_cons, Piece.lexeme, List.drop_left, Nat.add_sub_cancel_left, List.take_left, text]
      · exact later found
    · exact later member

theorem segments_of_pieces (edit : Tag → Option Tag) {pieces : List (Piece Token)}
    (faithful : ∀ tag lexeme, .found (.tag tag) lexeme ∈ pieces → lexeme = tag.render) (before : Text)
    (start : Nat) :
    ∃ (segments : List Segment) (last : Text),
      before ++ Piece.joined pieces = Segment.sourceText segments ++ last ∧
      (before ++ pieces.flatMap fun piece =>
        match (tag? piece).bind edit with
        | some tag => tag.render
        | none => piece.lexeme) = Segment.targetText segments ++ last ∧
      Segment.places start segments =
        (placedTagsFrom (start + before.length) pieces).filter (fun (_, _, tag) => (edit tag).isSome) ∧
      ∀ segment ∈ segments, edit segment.source = some segment.target := by
  induction pieces generalizing before start with
  | nil => exact ⟨[], before, by simp [Segment.sourceText, Piece.joined], by simp [Segment.targetText], rfl, by simp⟩
  | cons piece rest ih =>
    have faithfulRest : ∀ tag lexeme, .found (.tag tag) lexeme ∈ rest → lexeme = tag.render :=
      fun tag lexeme member => faithful tag lexeme (List.mem_cons_of_mem _ member)
    cases edited : (tag? piece).bind edit with
    | none =>
      -- the piece goes to the text in front of the next segment, which `before` gathers
      obtain ⟨segments, last, source, target, places, edits⟩ :=
        ih faithfulRest (before ++ piece.lexeme) start
      refine ⟨segments, last, ?_, ?_, ?_, edits⟩
      · rw [← source, Pattern.joined_cons, List.append_assoc]
      · rw [← target, List.flatMap_cons, edited, List.append_assoc]
      · rw [places, placedTagsFrom, List.length_append, ← Nat.add_assoc]
        cases isTag : tag? piece with
        | none => rfl
        | some tag =>
          rw [isTag] at edited
          have passed : edit tag = none := edited
          simp [passed]
    | some result =>
      obtain ⟨tag, isTag, here⟩ := Option.bind_eq_some_iff.mp edited
      obtain ⟨lexeme, rfl⟩ := eq_of_tag?_eq_some isTag
      have text : lexeme = tag.render := faithful tag lexeme (by simp)
      obtain ⟨segments, last, source, target, places, edits⟩ :=
        ih faithfulRest [] (start + before.length + tag.render.length)
      refine ⟨⟨before, tag, result⟩ :: segments, last, ?_, ?_, ?_, ?_⟩
      · rw [Pattern.joined_cons, Segment.sourceText_cons, Piece.lexeme, text, List.append_assoc, List.append_assoc,
          ← source, List.nil_append]
      · rw [List.flatMap_cons, edited, Segment.targetText_cons, List.append_assoc, List.append_assoc, ← target,
          List.nil_append]
      · rw [Segment.places, places, placedTagsFrom]
        simp [tag?, here, Piece.lexeme, text]
      · intro segment member
        rcases List.mem_cons.mp member with rfl | member
        · exact here
        · exact edits segment member

/-- The elements that a step is about. -/
def Step.elements (step : Step) (document : Text) : List Tag :=
  match Selector.ofText? step.selector with
  | none => []
  | some selector => if step.properties.isEmpty then [] else findElements document selector

theorem Step.filter_rewrites (step : Step) (document : Text) :
    (tags document).filter step.rewrites = step.elements document := by
  unfold Step.elements Step.rewrites Step.selects
  split
  · rename_i unknown
    simp [unknown]
  · rename_i selector understood
    cases empty : step.properties.isEmpty with
    | true => simp
    | false => simp [understood, findElements]

/-- The result is the document with the values set in the tags of a step, and nothing else changed. -/
def RewritesOnly (step : Step) (values : List (Text × Text)) (document result : Text) : Prop :=
  ∃ (segments : List Segment) (last : Text),
    document = Segment.sourceText segments ++ last ∧
    result = Segment.targetText segments ++ last ∧
    segments.map (·.source) = step.elements document ∧
    Segment.places 0 segments = (placedTags document).filter (fun (_, _, tag) => step.rewrites tag) ∧
    ∀ segment ∈ segments, segment.target = segment.source.setAll values ∧ segment.source.Kept values segment.target

theorem rewritesOnly_mapTags {step : Step} {values : List (Text × Text)} {edit : Tag → Option Tag}
    (edits : ∀ tag, edit tag = if step.rewrites tag then some (tag.setAll values) else none)
    (document : Text) : RewritesOnly step values document (mapTags edit document) := by
  have faithful : ∀ tag lexeme, .found (.tag tag) lexeme ∈ token.scan document → lexeme = tag.render :=
    fun tag lexeme member => (tag_of_mem_scan member).2
  obtain ⟨segments, last, source, target, places, changed⟩ :=
    segments_of_pieces edit faithful [] 0
  have selected : (fun place : Nat × Nat × Tag => (edit place.2.2).isSome) = fun place => step.rewrites place.2.2 := by
    funext place
    rw [edits]
    cases step.rewrites place.2.2 <;> rfl
  have places : Segment.places 0 segments =
      (placedTags document).filter (fun (_, _, tag) => step.rewrites tag) := by
    rw [places]
    exact congrArg (fun p => (placedTags document).filter p) selected
  refine ⟨segments, last, ?_, target, ?_, places, ?_⟩
  · rw [← source, List.nil_append, Pattern.joined_scan token_faithful]
  · calc
      segments.map (·.source) = (Segment.places 0 segments).map (·.2.2) :=
        (Segment.places_map_source 0 segments).symm
      _ = ((placedTags document).map (·.2.2)).filter step.rewrites := by
        rw [places, List.filter_map]
        rfl
      _ = step.elements document := by
        rw [placedTags, placedTagsFrom_map_tag]
        exact step.filter_rewrites document
  · intro segment member
    have rewritten := changed segment member
    have place : segment.source ∈ tags document := by
      have inside : segment.source ∈ segments.map (·.source) := List.mem_map_of_mem member
      rw [← Segment.places_map_source 0, places] at inside
      obtain ⟨place, found, same⟩ := List.mem_map.mp inside
      rw [← same, tags, ← placedTagsFrom_map_tag 0]
      exact List.mem_map_of_mem (List.mem_of_mem_filter found)
    have kept := Tag.Kept.refl (legible_of_mem_tags place).added values
    rw [edits] at rewritten
    split at rewritten
    · rw [← Option.some.inj rewritten]
      exact ⟨rfl, kept.setAll (List.Subset.refl values)⟩
    · cases rewritten

/-- Where a rewriting gives a result, that is the document but for what was set in the elements that the
    selector finds; and a tag in which nothing was set is written as it stands. -/
theorem present_rewrites_only {canvas : Amount} {document result : Text} (step : Step)
    (presented : present canvas document step.selector step.properties = .ok result) :
    (∃ values, step.values canvas = .ok values ∧ RewritesOnly step values document result) ∧
      ∀ start stop tag, (start, stop, tag) ∈ placedTags document →
        (document.drop start).take (stop - start) = tag.render := by
  refine ⟨?_, fun start stop tag => render_of_mem_placedTags⟩
  rw [present_eq] at presented
  cases computed : step.values canvas with
  | error e =>
    rw [computed] at presented
    cases presented
  | ok values =>
    rw [computed] at presented
    cases presented
    exact ⟨values, rfl, rewritesOnly_mapTags (fun _ => rfl) document⟩

def oddTag : Text := "<a><g 'odd x = y/ fill='0' /></a>".toList

def fade : Step := ⟨"g".toList, [("fill".toList, "\"&".toList), ("strokeOpacity".toList, "1".toList)]⟩

theorem present_rewrites_only_oddTag :
    present (.whole 512) oddTag fade.selector fade.properties =
        .ok "<a><g 'odd x = y/ fill=\"&quot;&amp;\" stroke-opacity=\"1\" /></a>".toList ∧
      (∃ values, fade.values (.whole 512) = .ok values ∧ RewritesOnly fade values oddTag
        "<a><g 'odd x = y/ fill=\"&quot;&amp;\" stroke-opacity=\"1\" /></a>".toList) ∧
      ∀ start stop tag, (start, stop, tag) ∈ placedTags oddTag →
        (oddTag.drop start).take (stop - start) = tag.render := by
  have presented : present (.whole 512) oddTag fade.selector fade.properties =
      .ok "<a><g 'odd x = y/ fill=\"&quot;&amp;\" stroke-opacity=\"1\" /></a>".toList := by
    decide +kernel
  exact ⟨presented, present_rewrites_only fade presented⟩

end Flipbook.Markup
