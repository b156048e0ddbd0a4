import Flipbook.Proofs.Css.KeyframesAppend
import Flipbook.Proofs.Css.SelectorRules

namespace Flipbook.Css

open Text

/-- An at-rule, which ends with a semicolon or has a block. -/
structure AtRule where
  name : Text
  prelude : Text
  block : Option Text

namespace AtRule

def head (r : AtRule) : Text := '@' :: (r.name ++ r.prelude)

def text (r : AtRule) : Text :=
  match r.block with
  | none => r.head ++ [';']
  | some inner => r.head ++ '{' :: (inner ++ ['}'])

def inner (r : AtRule) : Text := r.block.getD []

theorem text_cases (r : AtRule) :
    r.text = r.head ++ [';'] ∧ r.inner = [] ∨ r.text = r.head ++ '{' :: (r.inner ++ ['}']) := by
  obtain ⟨name, prelude, block⟩ := r
  cases block with
  | none => exact .inl ⟨rfl, rfl⟩
  | some inner => exact .inr rfl

structure Valid (r : AtRule) : Prop where
  isName : ∀ c ∈ r.name, isNameChar c
  other : r.name ∉ vendors.map (· ++ "keyframes".toList)
  ends : Halts isNameChar r.prelude
  flat : ∀ c ∈ r.prelude, c ≠ '{' ∧ c ≠ '}'
  closes : Closes 0 r.inner
  unmarked : Unmarked r.text

end AtRule

/-- Nothing in the text is stripped, and no brace is left open. -/
structure Sheet (css : Text) : Prop where
  unmarked : Unmarked css
  closes : Closes 0 css

/-- Beside keyframes, what stands behind the last brace. -/
def pending (css : Text) : Text := (removeKeyframes css).rtakeWhile (inHead fun _ => true)

def Ended (t : Text) : Prop := ∀ c ∈ t.getLast?, c = '}' ∨ c = ';'

structure Complete (css : Text) : Prop extends Sheet css where
  ended : Ended css
  headless : Headless (pending css)

theorem Unmarked.of_infix {t part : Text} (unmarked : Unmarked t) (isPart : part <:+: t) : Unmarked part :=
  fun mark member stands => unmarked mark member (stands.trans isPart)

theorem Ended.parted {t : Text} (ended : Ended t) (u : Text) : ∀ rest, rest <:+ t → rest ≠ [] → Parted rest u := by
  rintro rest ⟨front, rfl⟩ nonempty
  rw [Ended, List.getLast?_append_of_ne_nil _ nonempty] at ended
  cases last : rest.getLast? with
  | none => exact absurd (List.getLast?_eq_none_iff.mp last) nonempty
  | some c => exact .inl ⟨c, last, ended c last⟩

theorem Ended.unmarked_append {t u : Text} (ended : Ended t) (unmarked : Unmarked t) (unmarked' : Unmarked u) :
    Unmarked (t ++ u) := by
  induction t using List.reverseRecOn with
  | nil => exact unmarked'
  | append_singleton t c =>
    have front : Unmarked t := unmarked.of_infix (List.prefix_append t [c]).isInfix
    rw [List.append_assoc]
    rcases ended c (by simp) with rfl | rfl
    · exact front.cut unmarked' (by decide)
    · exact front.cut unmarked' (by decide)

theorem after_removeKeyframes {css : Text} (closes : Closes 0 css) :
    Reading.start.after (fun _ => true) (removeKeyframes css) = ⟨pending css, none⟩ := by
  have head := @Reading.head_after (fun _ => true) (removeKeyframes css)
  have inside : (Reading.start.after (fun _ => true) (removeKeyframes css)).inside = none := by
    refine Option.eq_none_iff_forall_ne_some.mpr fun block opened => ?_
    obtain ⟨before, shape, -, -, flat⟩ := Reading.inside_after.mp opened
    have left := closes_removeKeyframes closes
    have early := left.covered before ⟨_, shape.symm⟩
    have total := left.total
    have noOpen : block.body.count '{' = 0 := List.count_eq_zero.mpr fun member => (flat '{' member).1 rfl
    have noClose : block.body.count '}' = 0 := List.count_eq_zero.mpr fun member => (flat '}' member).2 rfl
    rw [shape, List.count_append, List.count_append, (count_open _).1, (count_open _).2, noOpen, noClose] at total
    omega
  rw [pending, ← head, ← inside]

theorem selectorRules_of_unmarked {css : Text} (unmarked : Unmarked css) :
    selectorRules css = Reading.start.rules (removeKeyframes css) := by
  rw [selectorRules, rules, stripComments_of_unmarked unmarked]
  rfl

theorem selectorRules_append {css t : Text} (sheet : Sheet css) (unmarked : Unmarked (css ++ t))
    (parted : ∀ rest, rest <:+ css → rest ≠ [] → Parted rest t) :
    selectorRules (css ++ t) = selectorRules css ++ (Reading.mk (pending css) none).rules (removeKeyframes t) := by
  rw [selectorRules_of_unmarked unmarked, selectorRules_of_unmarked sheet.unmarked,
    removeKeyframes_append sheet.closes parted, Reading.rules_append, after_removeKeyframes sheet.closes]

theorem keyframesRule_of_flat {t : Text} (noOpen : '{' ∉ t) : keyframesRule t = none := by
  rw [keyframesRule_eq_none]
  cases read : keyframesHeader? t with
  | none => rfl
  | some found =>
    obtain ⟨name, header, rest⟩ := found
    obtain ⟨rfl, text⟩ := keyframesHeader?_eq_some.mp read
    obtain ⟨lead, rfl, -⟩ := text.shape
    exact absurd (by simp) noOpen

theorem removeKeyframes_of_flat {t : Text} (noOpen : '{' ∉ t) : removeKeyframes t = t :=
  Pattern.erase_of_none fun _ isSuffix => keyframesRule_of_flat fun member => noOpen (isSuffix.subset member)

theorem HeaderText.of_append {name header rest head tail : Text} (text : HeaderText name header)
    (shape : head ++ '{' :: tail = header ++ rest) (flat : ∀ c ∈ head, c ≠ '{' ∧ c ≠ '}') :
    header = head ++ ['{'] ∧ rest = tail := by
  obtain ⟨lead, rfl, inner⟩ := text.shape
  have cut : cutAt? '{' (head ++ '{' :: tail) = some (head, tail) :=
    cutAt?_eq_some.mpr ⟨rfl, fun member => (flat '{' member).1 rfl⟩
  have cut' : cutAt? '{' (head ++ '{' :: tail) = some ('@' :: lead, rest) := by
    refine cutAt?_eq_some.mpr ⟨by rw [shape]; simp, fun member => ?_⟩
    rcases List.mem_cons.mp member with same | inside
    · revert same
      decide
    · exact (inner '{' inside).2.1 rfl
  rw [cut] at cut'
  cases cut'
  exact ⟨rfl, rfl⟩

theorem removeKeyframes_cons {c : Char} {t : Text} (none : keyframesRule (c :: t) = none) :
    removeKeyframes (c :: t) = c :: removeKeyframes t := by
  unfold removeKeyframes Pattern.erase
  rw [Pattern.scan_of_none none]
  rfl

theorem removeKeyframes_block {head inner : Text} (flat : ∀ c ∈ head, c ≠ '{' ∧ c ≠ '}') (closes : Closes 0 inner) :
    removeKeyframes (head ++ '{' :: (inner ++ ['}'])) = head ++ '{' :: (removeKeyframes inner ++ ['}']) ∨
      ∃ front back name, head = front ++ back ∧ HeaderText name (back ++ ['{']) ∧
        removeKeyframes (head ++ '{' :: (inner ++ ['}'])) = front := by
  induction head with
  | nil =>
    have brace : removeKeyframes ['}'] = ['}'] := removeKeyframes_of_flat (by decide)
    refine .inl ?_
    rw [List.nil_append, removeKeyframes_cons (keyframesRule_of_ne (by decide) _),
      removeKeyframes_append closes fun rest _ _ => parted_brace rest, brace]
    rfl
  | cons c head ih =>
    rw [List.cons_append]
    cases read : keyframesHeader? (c :: (head ++ '{' :: (inner ++ ['}']))) with
    | none =>
      rw [removeKeyframes_cons (keyframesRule_eq_none.mpr read)]
      rcases ih (List.forall_mem_cons.mp flat).2 with whole | ⟨front, back, name, rfl, text, rest⟩
      · exact .inl (congrArg (c :: ·) whole)
      · exact .inr ⟨c :: front, back, name, rfl, text, congrArg (c :: ·) rest⟩
    | some found =>
      obtain ⟨name, header, rest⟩ := found
      obtain ⟨shape, text⟩ := keyframesHeader?_eq_some.mp read
      obtain ⟨rfl, rfl⟩ := text.of_append shape flat
      have read : keyframesRule (c :: (head ++ '{' :: (inner ++ ['}']))) =
          some (⟨name, inner⟩, c :: head ++ ['{'] ++ inner ++ ['}']) :=
        keyframesRule_eq_some.mpr (.closed text shape (closedBlock_iff.mpr closes) rfl)
      refine .inr ⟨[], c :: head, name, rfl, text, ?_⟩
      have cut : c :: (head ++ '{' :: (inner ++ ['}'])) = c :: head ++ ['{'] ++ inner ++ ['}'] ++ [] := by simp
      unfold removeKeyframes Pattern.erase
      rw [Pattern.scan_of_some keyframesRule_faithful read cut]
      rfl

theorem HeaderText.takeWhile_tail {name header : Text} (text : HeaderText name header) :
    header.tail.takeWhile isNameChar ∈ vendors.map (· ++ "keyframes".toList) := by
  obtain ⟨isVendor, apart, blankGap, -, -, -⟩ := text
  rename_i vendor gap space
  obtain ⟨d, gap, rfl⟩ := List.exists_cons_of_ne_nil apart
  have known : vendors.all fun vendor => (vendor ++ "keyframes".toList).all isNameChar := by decide
  have isName := List.all_eq_true.mp (List.all_eq_true.mp known vendor isVendor)
  have ends : Halts isNameChar (d :: (gap ++ name ++ space ++ ['{'])) :=
    halts_cons.mpr (isNameChar_of_isBlank (blankGap d List.mem_cons_self))
  have run := takeWhile_run isName ends
  refine List.mem_map.mpr ⟨vendor, isVendor, run.symm.trans ?_⟩
  simp

namespace AtRule

variable {r : AtRule}

theorem Valid.not_header (valid : r.Valid) (name : Text) : ¬HeaderText name (r.head ++ ['{']) := by
  intro text
  have ends : Halts isNameChar (r.prelude ++ ['{']) := by
    cases shape : r.prelude with
    | nil => exact halts_cons.mpr (by decide)
    | cons d rest =>
      have own := valid.ends
      rw [shape] at own
      exact own
  have run : (r.head ++ ['{']).tail.takeWhile isNameChar = r.name := by
    rw [← takeWhile_run valid.isName ends]
    simp [head]
  have known := text.takeWhile_tail
  rw [run] at known
  exact valid.other known

theorem Valid.flat_head (valid : r.Valid) : ∀ c ∈ r.head, c ≠ '{' ∧ c ≠ '}' := by
  refine List.forall_mem_cons.mpr ⟨by decide, List.forall_mem_append.mpr ⟨fun c member => ?_, valid.flat⟩⟩
  have isName := valid.isName c member
  constructor <;> (rintro rfl; revert isName; decide)

theorem Valid.removeKeyframes_text (valid : r.Valid) :
    (∃ own, removeKeyframes r.text = '@' :: own ∧ ∀ c ∈ '@' :: own, c ≠ '{' ∧ c ≠ '}') ∨
      removeKeyframes r.text = r.head ++ '{' :: (removeKeyframes r.inner ++ ['}']) := by
  rcases r.text_cases with ⟨whole, -⟩ | whole
  · have flat : ∀ c ∈ r.head ++ [';'], c ≠ '{' ∧ c ≠ '}' :=
      List.forall_mem_append.mpr ⟨valid.flat_head, List.forall_mem_singleton.mpr (by decide)⟩
    rw [whole]
    exact .inl ⟨_, removeKeyframes_of_flat fun member => (flat '{' member).1 rfl, flat⟩
  · rw [whole]
    rcases removeKeyframes_block valid.flat_head valid.closes with whole | ⟨front, back, name, shape, text, rest⟩
    · exact .inr whole
    · cases front with
      | nil =>
        rw [List.nil_append] at shape
        rw [← shape] at text
        exact absurd text (valid.not_header name)
      | cons c front =>
        obtain ⟨rfl, -⟩ := List.cons.inj shape
        have flat := valid.flat_head
        rw [shape] at flat
        exact .inl ⟨front, rest, (List.forall_mem_append.mp flat).1⟩

theorem ended_text (r : AtRule) : Ended r.text := by
  intro c last
  rcases r.text_cases with ⟨whole, -⟩ | whole
  · rw [whole, List.getLast?_concat] at last
    exact .inr (Option.some.inj last).symm
  · rw [whole, ← List.cons_append, ← List.append_assoc, List.getLast?_concat] at last
    exact .inl (Option.some.inj last).symm

theorem Valid.closes_text (valid : r.Valid) : Closes 0 r.text := by
  have head (tail : Text) := (closes_of_flat valid.flat_head).append_iff (u := tail) 0
  rcases r.text_cases with ⟨whole, -⟩ | whole
  · rw [whole]
    exact (head _).mpr (closes_of_flat (List.forall_mem_singleton.mpr (by decide)))
  · have brace : Closes 1 ['}'] := closes_close.mpr (closes_nil.mpr rfl)
    rw [whole]
    exact (head _).mpr (closes_open.mpr ((valid.closes.append_iff 1).mpr brace))

theorem Valid.unmarked_inner (valid : r.Valid) : Unmarked r.inner := by
  have unmarked := valid.unmarked
  rcases r.text_cases with ⟨-, inner⟩ | whole
  · rw [inner]
    exact unmarked_nil
  · rw [whole] at unmarked
    exact unmarked.of_infix ⟨r.head ++ ['{'], ['}'], by simp⟩

end AtRule

theorem find?_append_of_headless {t : Text} (headless : Headless t) (own : Text) :
    (t ++ '@' :: own).find? (!isBlank ·) = some '@' := by
  rw [List.find?_append]
  cases first : t.find? (!isBlank ·) with
  | none => rfl
  | some c => rw [headless c first, Option.some_or]

theorem rules_of_headless {t : Text} (headless : Headless t) (u : Text) : (Reading.mk t none).rules u =
    if t.all isBlank then Reading.start.rules u else (Reading.mk ['@'] none).rules u := by
  cases first : t.find? (!isBlank ·) with
  | none =>
    have blank : ∀ c ∈ t, isBlank c := by simpa using List.find?_eq_none.mp first
    rw [if_pos (List.all_eq_true.mpr blank), Reading.rules_of_blank blank]
  | some c =>
    have solid := List.find?_some first
    have same := headless c first
    subst same
    have notBlank : ¬t.all isBlank := by
      intro blank
      rw [List.all_eq_true.mp blank _ (List.mem_of_find?_eq_some first)] at solid
      cases solid
    rw [if_neg notBlank, Reading.rules_of_atRule first]

theorem AtRule.Valid.rules_text {r : AtRule} (valid : r.Valid) {t : Text} (headless : Headless t) (u : Text) :
    (Reading.mk t none).rules (removeKeyframes r.text ++ u) =
      if '{' ∈ removeKeyframes r.text then selectorRules r.inner ++ Reading.start.rules u
      else (Reading.mk ['@'] none).rules u := by
  rcases valid.removeKeyframes_text with ⟨own, left, flat⟩ | left
  · have noOpen : '{' ∉ '@' :: own := fun member => (flat '{' member).1 rfl
    rw [left, if_neg noOpen, Reading.rules_flat_append flat,
      Reading.rules_of_atRule (find?_append_of_headless headless own)]
  · have shape : removeKeyframes r.text ++ u = r.head ++ '{' :: (removeKeyframes r.inner ++ '}' :: u) := by
      rw [left]
      simp
    have isOpen : '{' ∈ removeKeyframes r.text := by
      rw [left]
      simp
    have atRule : (t ++ r.head).find? (!isBlank ·) = some '@' := find?_append_of_headless headless _
    rw [if_pos isOpen, shape, Reading.rules_flat_append valid.flat_head,
      Reading.rules_inside_atRule atRule, Reading.rules_append,
      after_removeKeyframes valid.closes, ← selectorRules_of_unmarked valid.unmarked_inner]
    rfl

/-- A statement between two sheets hides the rule at the beginning of the second one, if nothing does so already; a
    block that keyframes in its own prelude take from it counts as one. Any other block adds the rules inside it, and
    the rule behind it is there in any case. -/
theorem animations_atRule {before after : Text} {r : AtRule} (complete : Complete before) (valid : r.Valid)
    (sheet : Sheet after) : ∃ first later,
      (∀ rule, first = some rule ↔
        ∃ block, Leads block (removeKeyframes after) ∧ block.selectorRule? = some rule) ∧
      selectorRules after = first.toList ++ later ∧
      animations (before ++ after) =
        bindings (selectorRules before ++ (if (pending before).all isBlank then first.toList else []) ++ later) ∧
      animations (before ++ r.text ++ after) =
        bindings (selectorRules before ++
          (if '{' ∈ removeKeyframes r.text then selectorRules r.inner ++ first.toList else []) ++ later) := by
  obtain ⟨first, later, isFirst, all, hidden⟩ := Reading.rules_leading (removeKeyframes after)
  refine ⟨first, later, isFirst, (selectorRules_of_unmarked sheet.unmarked).trans all, ?_, ?_⟩
  · have unmarked := complete.ended.unmarked_append complete.unmarked sheet.unmarked
    rw [animations_eq_bindings, selectorRules_append complete.toSheet unmarked (complete.ended.parted after),
      rules_of_headless complete.headless, all, hidden, List.append_assoc]
    split <;> rfl
  · have behind := r.ended_text.unmarked_append valid.unmarked sheet.unmarked
    have unmarked := complete.ended.unmarked_append complete.unmarked behind
    rw [animations_eq_bindings, List.append_assoc,
      selectorRules_append complete.toSheet unmarked (complete.ended.parted _),
      removeKeyframes_append valid.closes_text (r.ended_text.parted after), valid.rules_text complete.headless, all,
      hidden, List.append_assoc]
    split
    · rw [List.append_assoc]
    · rfl

theorem animations_atRule_charset :
    Complete [] ∧ AtRule.Valid ⟨"charset".toList, " \"utf-8\"".toList, none⟩ ∧
      Sheet ".a{animation:k 1s}".toList ∧ (animations ".a{animation:k 1s}".toList).map List.length = .ok 1 ∧
        animations "@charset \"utf-8\";.a{animation:k 1s}".toList = .ok [] := by
  have isName : "charset".toList.all isNameChar := by decide
  have flat : " \"utf-8\"".toList.all fun c => c ≠ '{' ∧ c ≠ '}' := by decide
  have complete : Complete [] := ⟨⟨unmarked_nil, closes_nil.mpr rfl⟩, by rintro c ⟨⟩, by rintro c ⟨⟩⟩
  have valid : AtRule.Valid ⟨"charset".toList, " \"utf-8\"".toList, none⟩ :=
    ⟨List.all_eq_true.mp isName, by decide, halts_cons.mpr (by decide),
      fun c member => of_decide_eq_true (List.all_eq_true.mp flat c member), closes_nil.mpr rfl, by decide +kernel⟩
  have closed : closeBrace? 0 ".a{animation:k 1s}\x7d".toList = some (".a{animation:k 1s}".toList, []) := by
    decide +kernel
  have sheet : Sheet ".a{animation:k 1s}".toList := ⟨by decide +kernel, (closeBrace?_eq_some.mp closed).2⟩
  refine ⟨complete, valid, sheet, by decide +kernel, ?_⟩
  obtain ⟨first, later, isFirst, all, -, hidden⟩ := animations_atRule complete valid sheet
  have flatHead : ".a".toList.all fun c => c ≠ '{' ∧ c ≠ '}' := by decide
  have flatBody : "animation:k 1s".toList.all fun c => c ≠ '{' ∧ c ≠ '}' := by decide
  have leads : Leads ⟨".a".toList, "animation:k 1s".toList⟩ (removeKeyframes ".a{animation:k 1s}".toList) :=
    ⟨by decide +kernel, fun c member => of_decide_eq_true (List.all_eq_true.mp flatHead c member),
      fun c member => of_decide_eq_true (List.all_eq_true.mp flatBody c member)⟩
  have found : first = some ⟨".a".toList, "animation:k 1s".toList⟩ :=
    (isFirst _).mpr ⟨_, leads, by decide +kernel⟩
  have rules : selectorRules ".a{animation:k 1s}".toList = [⟨".a".toList, "animation:k 1s".toList⟩] := by
    decide +kernel
  rw [rules, found] at all
  have none : later = [] := (List.cons.inj all).2.symm
  rw [if_neg (by decide +kernel), none] at hidden
  exact hidden

end Flipbook.Css
