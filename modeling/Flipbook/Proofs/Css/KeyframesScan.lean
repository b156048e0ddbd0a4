import Flipbook.Proofs.Css.KeyframesRule
import Flipbook.Proofs.Css.Marks

namespace Flipbook.Css

open Text

def Balanced (t : Text) : Prop :=
  ∀ depth rest, closeBrace? depth (t ++ rest) =
    (closeBrace? depth rest).map fun (inside, after) => (t ++ inside, after)

theorem balanced_nil : Balanced [] := by
  intro depth rest
  cases closed : closeBrace? depth rest <;> simp [closed]

theorem Balanced.append {t u : Text} (first : Balanced t) (second : Balanced u) : Balanced (t ++ u) := by
  intro depth rest
  rw [List.append_assoc, first, second, Option.map_map]
  congr 1
  funext ⟨inside, after⟩
  simp

theorem balanced_of_flat {t : Text} (flat : ∀ c ∈ t, c ≠ '{' ∧ c ≠ '}') : Balanced t := by
  induction t with
  | nil => exact balanced_nil
  | cons c t ih =>
    intro depth rest
    obtain ⟨noOpen, noClose⟩ := flat c (by simp)
    have others := ih (fun d member => flat d (List.mem_cons_of_mem _ member)) depth rest
    rw [List.cons_append, closeBrace?_cons noClose, if_neg noOpen, others, Option.map_map]
    rfl

theorem Balanced.braces {t : Text} (inner : Balanced t) : Balanced ('{' :: t ++ ['}']) := by
  intro depth rest
  have shape : '{' :: t ++ ['}'] ++ rest = '{' :: (t ++ '}' :: rest) := by simp
  rw [shape, closeBrace?_cons (by decide), if_pos rfl, inner, closeBrace?_close, Option.map_map, Option.map_map]
  congr 1
  funext ⟨inside, after⟩
  simp

theorem Balanced.closed {t : Text} (balanced : Balanced t) (rest : Text) :
    closeBrace? 0 (t ++ '}' :: rest) = some (t, rest) := by
  have close : closeBrace? 0 ('}' :: rest) = some ([], rest) := rfl
  rw [balanced, close]
  simp

theorem scan_plain {t : Text} (noAt : ∀ c ∈ t, c ≠ '@') (rest : Text) :
    keyframesRule.scan (t ++ rest) = t.map .plain ++ keyframesRule.scan rest := by
  induction t with
  | nil => rfl
  | cons c t ih =>
    have others := ih fun d member => noAt d (List.mem_cons_of_mem _ member)
    rw [List.cons_append, Pattern.scan_of_none (keyframesRule_of_ne (noAt c (by simp)) (t ++ rest)), others]
    rfl

section Printed

variable {gap : Text}

theorem headerText_printed {name : Text} (blank : ∀ c ∈ gap, isBlank c) (nonempty : name ≠ [])
    (inside : ∀ c ∈ name, isNameChar c) : HeaderText name ("@keyframes ".toList ++ name ++ gap ++ ['{']) := by
  have space : ∀ c ∈ [' '], isBlank c := List.forall_mem_singleton.mpr (by decide)
  exact @HeaderText.mk name [] [' '] gap List.mem_cons_self (by decide) space nonempty inside blank

theorem ne_of_mem_declarationsText (blank : ∀ c ∈ gap, isBlank c) {ds : List Declaration}
    (valid : ∀ d ∈ ds, d.Valid) : ∀ c ∈ declarationsText gap ds, c ≠ '{' ∧ c ≠ '}' ∧ c ≠ '@' := by
  have inGap : ∀ c ∈ gap, c ≠ '{' ∧ c ≠ '}' ∧ c ≠ '@' := fun c member =>
    ⟨ne_of_isBlank (blank c member) (by decide), ne_of_isBlank (blank c member) (by decide),
      ne_of_isBlank (blank c member) (by decide)⟩
  intro c member
  rcases List.mem_append.mp member with member | member
  · exact inGap c member
  · obtain ⟨d, isDeclaration, stands⟩ := List.mem_flatMap.mp member
    have first := valid d isDeclaration
    simp only [Declaration.text, List.mem_append, List.mem_cons] at stands
    rcases stands with ((stands | rfl | stands) | stands) | rfl | stands
    · exact first.name_component.braces c stands
    · decide
    · exact inGap c stands
    · exact first.value_component.braces c stands
    · decide
    · exact inGap c stands

theorem flat_of_isBlank (blank : ∀ c ∈ gap, isBlank c) : ∀ c ∈ gap, c ≠ '{' ∧ c ≠ '}' :=
  fun c member => ⟨ne_of_isBlank (blank c member) (by decide), ne_of_isBlank (blank c member) (by decide)⟩

theorem flat_declarationsText (blank : ∀ c ∈ gap, isBlank c) {ds : List Declaration} (valid : ∀ d ∈ ds, d.Valid) :
    ∀ c ∈ declarationsText gap ds, c ≠ '{' ∧ c ≠ '}' :=
  fun c member => ⟨(ne_of_mem_declarationsText blank valid c member).1,
    (ne_of_mem_declarationsText blank valid c member).2.1⟩

theorem flat_offsetsText (blank : ∀ c ∈ gap, isBlank c) {offsets : List OffsetWord}
    (valid : ∀ offset ∈ offsets, offset.Valid) : ∀ c ∈ offsetsText gap offsets, c ≠ '{' ∧ c ≠ '}' :=
  fun _ member => ⟨ne_of_mem_offsetsText blank valid member (by decide) (by decide) (by decide),
    ne_of_mem_offsetsText blank valid member (by decide) (by decide) (by decide)⟩

theorem Balanced.blockText (blank : ∀ c ∈ gap, isBlank c) {head body : Text} (flatHead : Balanced head)
    (inner : Balanced body) : Balanced (blockText gap head body) := by
  have flatGap := balanced_of_flat (flat_of_isBlank blank)
  have whole := ((flatHead.append flatGap).append inner.braces).append flatGap
  rw [Css.blockText]
  simpa using whole

theorem balanced_stopsText (blank : ∀ c ∈ gap, isBlank c) {stops : List StopText}
    (valid : ∀ stop ∈ stops, stop.Valid) : Balanced (stopsText gap stops) := by
  refine (balanced_of_flat (flat_of_isBlank blank)).append ?_
  induction stops with
  | nil => exact balanced_nil
  | cons stop stops ih =>
    obtain ⟨first, later⟩ := List.forall_mem_cons.mp valid
    have head := balanced_of_flat (flat_offsetsText blank first.offsets)
    have body := balanced_of_flat (flat_declarationsText blank first.declarations)
    rw [List.flatMap_cons]
    exact (head.blockText blank body).append (ih later)

def Item.pieces (gap : Text) : Item → List (Piece KeyframesRule)
  | .keyframes name stops =>
    .found ⟨name, stopsText gap stops⟩
        ("@keyframes ".toList ++ name ++ gap ++ '{' :: stopsText gap stops ++ ['}']) :: gap.map .plain
  | .rule selector ds => (blockText gap selector (declarationsText gap ds)).map .plain

theorem Item.Valid.scan_append (blank : ∀ c ∈ gap, isBlank c) {item : Item} (valid : item.Valid) (rest : Text) :
    keyframesRule.scan (item.text gap ++ rest) = item.pieces gap ++ keyframesRule.scan rest := by
  have noAtGap : ∀ c ∈ gap, c ≠ '@' := fun c member => ne_of_isBlank (blank c member) (by decide)
  cases item with
  | keyframes name stops =>
    obtain ⟨nonempty, inside, valid⟩ := valid
    have closed := (balanced_stopsText blank valid).closed (gap ++ rest)
    obtain ⟨-, block⟩ := closeBrace?_eq_some_iff.mp closed
    have text : Item.text gap (.keyframes name stops) ++ rest =
        "@keyframes ".toList ++ name ++ gap ++ ['{'] ++ (stopsText gap stops ++ '}' :: (gap ++ rest)) := by
      simp [Item.text, blockText]
    have found : keyframesRule (Item.text gap (.keyframes name stops) ++ rest) =
        some (⟨name, stopsText gap stops⟩,
          "@keyframes ".toList ++ name ++ gap ++ '{' :: stopsText gap stops ++ ['}']) :=
      keyframesRule_eq_some.mpr (.closed (headerText_printed blank nonempty inside) text block (by simp))
    have cut : Item.text gap (.keyframes name stops) ++ rest =
        ("@keyframes ".toList ++ name ++ gap ++ '{' :: stopsText gap stops ++ ['}']) ++ (gap ++ rest) := by
      rw [text]
      simp
    rw [Pattern.scan_of_some keyframesRule_faithful found cut, scan_plain noAtGap]
    rfl
  | rule selector ds =>
    obtain ⟨component, _, valid⟩ := valid
    refine scan_plain (fun c member => ?_) rest
    simp only [Item.text, blockText, List.mem_append, List.mem_cons] at member
    rcases member with ((inside | inside) | rfl | inside) | rfl | inside
    · exact (component.braces c inside).2.2
    · exact noAtGap c inside
    · decide
    · exact (ne_of_mem_declarationsText blank valid c inside).2.2
    · decide
    · exact noAtGap c inside

theorem scan_sheetText (blank : ∀ c ∈ gap, isBlank c) {items : List Item} (valid : ∀ item ∈ items, item.Valid) :
    keyframesRule.scan (sheetText gap items) = items.flatMap (Item.pieces gap) := by
  induction items with
  | nil => rfl
  | cons item items ih =>
    obtain ⟨first, later⟩ := List.forall_mem_cons.mp valid
    rw [sheetText, List.flatMap_cons, ← sheetText, first.scan_append blank, ih later, List.flatMap_cons]

def Item.keyframes? : Item → Option (Text × List StopText)
  | .keyframes name stops => some (name, stops)
  | .rule .. => none

def Item.rest (gap : Text) : Item → Text
  | .keyframes .. => gap
  | .rule selector ds => blockText gap selector (declarationsText gap ds)

theorem findAll_sheetText (blank : ∀ c ∈ gap, isBlank c) {items : List Item}
    (valid : ∀ item ∈ items, item.Valid) :
    keyframesRule.findAll (sheetText gap items) =
      (items.filterMap Item.keyframes?).map fun (name, stops) => ⟨name, stopsText gap stops⟩ := by
  rw [Pattern.findAll, scan_sheetText blank valid]
  have noneFound (t : Text) : (t.map Piece.plain).filterMap (Piece.value? : Piece KeyframesRule → _) = [] := by
    simp [Piece.value?]
  clear valid
  induction items with
  | nil => rfl
  | cons item items ih =>
    rw [List.flatMap_cons, List.filterMap_append, ih]
    cases item with
    | keyframes name stops =>
      simp [Item.pieces, Item.keyframes?, Piece.value?]
    | rule selector ds =>
      rw [Item.pieces, noneFound]
      rfl

theorem removeKeyframes_sheetText (blank : ∀ c ∈ gap, isBlank c) {items : List Item}
    (valid : ∀ item ∈ items, item.Valid) :
    removeKeyframes (sheetText gap items) = items.flatMap (Item.rest gap) := by
  rw [removeKeyframes, Pattern.erase, scan_sheetText blank valid]
  clear valid
  induction items with
  | nil => rfl
  | cons item items ih =>
    rw [List.flatMap_cons, List.filterMap_append, ih, List.flatMap_cons]
    cases item with
    | keyframes name stops =>
      simp [Item.pieces, Item.rest, List.filterMap_cons, Piece.plain?, List.filterMap_map, Function.comp_def]
    | rule selector ds =>
      simp [Item.pieces, Item.rest, Piece.plain?, List.filterMap_map, Function.comp_def]

end Printed

end Flipbook.Css
