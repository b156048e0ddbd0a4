import Flipbook.Css.Comment
import Flipbook.Proofs.Css.Printed

namespace Flipbook

theorem Pattern.erase_of_none {α : Type} {p : Pattern α} {t : Text} (none : ∀ rest, rest <:+ t → p rest = none) :
    p.erase t = t := by
  induction t with
  | nil => rfl
  | cons c t ih =>
    have others := ih fun rest last => none rest (last.trans (List.suffix_cons c t))
    unfold Pattern.erase at others ⊢
    rw [Pattern.scan_of_none (none (c :: t) (List.suffix_refl _)), List.filterMap_cons, others]
    rfl

namespace Css

open Text

theorem comment_eq_none {t : Text} (absent : ¬ "/*".toList <+: t) : comment t = none := by
  have opened : after? ['/', '*'] t = none := after?_eq_none.mpr absent
  unfold comment
  rw [opened]
  rfl

theorem dataMark_eq_none {t : Text} (noStart : ¬ "<![CDATA[".toList <+: t) (noEnd : ¬ "]]>".toList <+: t) :
    dataMark t = none := by
  unfold dataMark
  rw [after?_eq_none.mpr noStart, after?_eq_none.mpr noEnd]
  rfl

theorem stripComments_of_unmarked {t : Text} (unmarked : Unmarked t) : stripComments t = t := by
  have absent (mark : Text) (member : mark ∈ marks) (rest : Text) (last : rest <:+ t) : ¬ mark <+: rest :=
    fun stands => unmarked mark member (stands.isInfix.trans last.isInfix)
  have data : dataMark.erase t = t := Pattern.erase_of_none fun rest last =>
    dataMark_eq_none (absent _ (by decide) rest last) (absent _ (by decide) rest last)
  unfold stripComments
  rw [data]
  exact Pattern.erase_of_none fun rest last => comment_eq_none (absent _ (by decide) rest last)

instance (t : Text) : Decidable (Unmarked t) := inferInstanceAs (Decidable (∀ mark ∈ marks, ¬ mark <:+: t))

theorem unmarked_of_plain {t : Text} (plain : ∀ c ∈ t, c ≠ '/' ∧ c ≠ '<' ∧ c ≠ ']') : Unmarked t := by
  intro mark member stands
  obtain ⟨first, inside, begins⟩ : ∃ c ∈ mark, c = '/' ∨ c = '<' ∨ c = ']' := by
    simp only [marks, List.mem_cons, List.not_mem_nil, or_false] at member
    rcases member with rfl | rfl | rfl
    · exact ⟨'/', by decide, .inl rfl⟩
    · exact ⟨'<', by decide, .inr (.inl rfl)⟩
    · exact ⟨']', by decide, .inr (.inr rfl)⟩
  have apart := plain first (stands.subset inside)
  rcases begins with rfl | rfl | rfl
  · exact apart.1 rfl
  · exact apart.2.1 rfl
  · exact apart.2.2 rfl

theorem Unmarked.cut {t rest : Text} (before : Unmarked t) (after : Unmarked rest) {c : Char}
    (parts : ∀ mark ∈ marks, c ∉ mark) : Unmarked (t ++ c :: rest) := by
  intro mark member stands
  rcases List.infix_append_iff.mp stands with inside | inside | ⟨front, back, whole, _, begins⟩
  · exact before mark member inside
  · rcases List.infix_cons_iff.mp inside with begins | inside
    · cases mark with
      | nil => exact after [] member (List.nil_infix)
      | cons d tail =>
        obtain ⟨same, _⟩ := List.cons_prefix_cons.mp begins
        exact parts _ member (same ▸ List.mem_cons_self)
    · exact after mark member inside
  · cases back with
    | nil =>
      rename_i last
      rw [List.append_nil] at whole
      exact before mark member (whole ▸ last.isInfix)
    | cons d tail =>
      obtain ⟨same, _⟩ := List.cons_prefix_cons.mp begins
      refine parts mark member ?_
      rw [whole, same]
      simp

theorem unmarked_nil : Unmarked [] := unmarked_of_plain (List.forall_mem_nil _)

section Gaps

variable {gap : Text}

theorem parts_of_isBlank {c : Char} (blank : isBlank c) : ∀ mark ∈ marks, c ∉ mark := by
  intro mark member stands
  have solid : ∀ mark ∈ marks, mark.all fun d => !isBlank d := by decide
  have notBlank := List.all_eq_true.mp (solid mark member) c stands
  rw [blank] at notBlank
  cases notBlank

theorem Unmarked.after_gap (blank : ∀ c ∈ gap, isBlank c) {rest : Text} (after : Unmarked rest) :
    Unmarked (gap ++ rest) := by
  induction gap with
  | nil => exact after
  | cons c gap ih =>
    have tail := ih fun d member => blank d (List.mem_cons_of_mem _ member)
    exact unmarked_nil.cut tail (parts_of_isBlank (blank c (by simp)))

theorem Unmarked.spaced {t rest : Text} (before : Unmarked t) (blank : ∀ c ∈ gap, isBlank c) {c : Char}
    (parts : ∀ mark ∈ marks, c ∉ mark) (after : Unmarked rest) : Unmarked (t ++ (gap ++ c :: rest)) := by
  cases gap with
  | nil => exact before.cut after parts
  | cons d gap =>
    have inner : Unmarked (gap ++ c :: rest) :=
      (unmarked_nil.cut after parts).after_gap fun e member => blank e (List.mem_cons_of_mem _ member)
    exact before.cut inner (parts_of_isBlank (blank d (by simp)))

theorem unmarked_declarationsText (blank : ∀ c ∈ gap, isBlank c) {ds : List Declaration}
    (valid : ∀ d ∈ ds, d.Valid) {rest : Text} (after : Unmarked rest) :
    Unmarked (declarationsText gap ds ++ rest) := by
  rw [declarationsText, List.append_assoc]
  refine Unmarked.after_gap blank ?_
  induction ds with
  | nil => exact after
  | cons d ds ih =>
    obtain ⟨first, later⟩ := List.forall_mem_cons.mp valid
    have others := ih later
    have ended : Unmarked (d.value ++ ';' :: (gap ++ (ds.flatMap (Declaration.text gap) ++ rest))) :=
      first.value_component.unmarked.cut (others.after_gap blank) (by decide)
    have whole : Unmarked (d.name ++ ':' :: (gap ++
        (d.value ++ ';' :: (gap ++ (ds.flatMap (Declaration.text gap) ++ rest))))) :=
      first.name_component.unmarked.cut (ended.after_gap blank) (by decide)
    rw [List.flatMap_cons, Declaration.text]
    simpa using whole

theorem unmarked_blockText (blank : ∀ c ∈ gap, isBlank c) {head body rest : Text} (unmarked : Unmarked head)
    (inside : Unmarked (body ++ '}' :: (gap ++ rest))) : Unmarked (blockText gap head body ++ rest) := by
  have whole : Unmarked (head ++ (gap ++ '{' :: (body ++ '}' :: (gap ++ rest)))) :=
    unmarked.spaced blank (by decide) inside
  rw [blockText]
  simpa using whole

theorem unmarked_offsetsText (blank : ∀ c ∈ gap, isBlank c) {offsets : List OffsetWord}
    (valid : ∀ offset ∈ offsets, offset.Valid) : Unmarked (offsetsText gap offsets) := by
  exact unmarked_of_plain fun c member =>
    ⟨ne_of_mem_offsetsText blank valid member (by decide) (by decide) (by decide),
      ne_of_mem_offsetsText blank valid member (by decide) (by decide) (by decide),
      ne_of_mem_offsetsText blank valid member (by decide) (by decide) (by decide)⟩

theorem unmarked_stopsText (blank : ∀ c ∈ gap, isBlank c) {stops : List StopText}
    (valid : ∀ stop ∈ stops, stop.Valid) {rest : Text} (after : Unmarked rest) :
    Unmarked (stopsText gap stops ++ rest) := by
  rw [stopsText, List.append_assoc]
  refine Unmarked.after_gap blank ?_
  induction stops with
  | nil => exact after
  | cons stop stops ih =>
    obtain ⟨first, later⟩ := List.forall_mem_cons.mp valid
    have others := ih later
    rw [List.flatMap_cons, StopText.text, List.append_assoc]
    refine unmarked_blockText blank (unmarked_offsetsText blank first.offsets) ?_
    refine unmarked_declarationsText blank first.declarations ?_
    exact unmarked_nil.cut (others.after_gap blank) (by decide)

theorem unmarked_name {name : Text} (inside : ∀ c ∈ name, isNameChar c) :
    Unmarked ("@keyframes ".toList ++ name) := by
  refine unmarked_of_plain fun c member => ?_
  have apart {other : Char} (noName : isNameChar other = false) (inName : c ∈ name) : c ≠ other := by
    rintro rfl
    rw [inside c inName] at noName
    cases noName
  rcases List.mem_append.mp member with known | inName
  · change c ∈ ['@', 'k', 'e', 'y', 'f', 'r', 'a', 'm', 'e', 's', ' '] at known
    simp only [List.mem_cons, List.not_mem_nil, or_false] at known
    rcases known with rfl | rfl | rfl | rfl | rfl | rfl | rfl | rfl | rfl | rfl | rfl <;> decide
  · exact ⟨apart (by decide) inName, apart (by decide) inName, apart (by decide) inName⟩

theorem unmarked_sheetText (blank : ∀ c ∈ gap, isBlank c) {items : List Item}
    (valid : ∀ item ∈ items, item.Valid) : Unmarked (sheetText gap items) := by
  induction items with
  | nil => exact unmarked_nil
  | cons item items ih =>
    obtain ⟨first, later⟩ := List.forall_mem_cons.mp valid
    have others := ih later
    have ended : Unmarked ('}' :: (gap ++ sheetText gap items)) := unmarked_nil.cut (others.after_gap blank) (by decide)
    rw [sheetText, List.flatMap_cons]
    cases item with
    | keyframes name stops =>
      obtain ⟨_, inside, valid⟩ := first
      exact unmarked_blockText blank (unmarked_name inside) (unmarked_stopsText blank valid ended)
    | rule selector ds =>
      obtain ⟨component, _, valid⟩ := first
      exact unmarked_blockText blank component.unmarked (unmarked_declarationsText blank valid ended)

theorem stripComments_sheetText (blank : ∀ c ∈ gap, isBlank c) {items : List Item}
    (valid : ∀ item ∈ items, item.Valid) : stripComments (sheetText gap items) = sheetText gap items :=
  stripComments_of_unmarked (unmarked_sheetText blank valid)

end Gaps

end Css
end Flipbook
