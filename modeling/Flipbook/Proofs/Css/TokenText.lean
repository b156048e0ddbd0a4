import Flipbook.Css.Nesting
import Flipbook.Proofs.Css.Totality
import Flipbook.Proofs.Text.Joined
import Flipbook.Proofs.Text.Parentheses

namespace Flipbook.Css

open Text

def depthAfter (depth : Nat) (t : Text) : Nat := t.foldl deepen depth

theorem depthAfter_append (depth : Nat) (t u : Text) : depthAfter depth (t ++ u) = depthAfter (depthAfter depth t) u :=
  List.foldl_append

theorem ne_parentheses {c : Char} (separates : isBlank c ∨ c = ',') : c ≠ '(' ∧ c ≠ ')' := by
  constructor
  · rintro rfl
    exact absurd separates (by decide)
  · rintro rfl
    exact absurd separates (by decide)

theorem deepen_of_separates {c : Char} (separates : isBlank c ∨ c = ',') (depth : Nat) : deepen depth c = depth := by
  obtain ⟨noOpening, noClosing⟩ := ne_parentheses separates
  rw [deepen, if_neg noOpening, if_neg noClosing]

theorem depthAfter_concat {c : Char} (separates : isBlank c ∨ c = ',') (depth : Nat) (t : Text) :
    depthAfter depth (t ++ [c]) = depthAfter depth t := by
  rw [depthAfter_append]
  exact deepen_of_separates separates _

theorem depthAfter_of_blank {t : Text} (blank : ∀ c ∈ t, isBlank c) (depth : Nat) : depthAfter depth t = depth := by
  induction t with
  | nil => rfl
  | cons c rest ih =>
    obtain ⟨first, later⟩ := List.forall_mem_cons.mp blank
    change depthAfter (deepen depth c) rest = depth
    rw [deepen_of_separates (.inl first), ih later]

theorem depthAfter_add_count {t : Text} {depth : Nat}
    (covered : ∀ head, head <+: t → head.count ')' ≤ depth + head.count '(') :
    depthAfter depth t + t.count ')' = depth + t.count '(' := by
  induction t generalizing depth with
  | nil => rfl
  | cons c rest ih =>
    have first : [c].count ')' ≤ depth + [c].count '(' := covered [c] ⟨rest, rfl⟩
    have step : deepen depth c + [c].count ')' = depth + [c].count '(' := by
      unfold deepen
      by_cases opening : c = '('
      · subst opening
        rfl
      · by_cases closing : c = ')'
        · subst closing
          have some : 1 ≤ depth := first
          exact Nat.sub_add_cancel some
        · rw [if_neg opening, if_neg closing, List.count_singleton, List.count_singleton]
          simp [opening, closing]
    have covered' : ∀ head, head <+: rest → head.count ')' ≤ deepen depth c + head.count '(' := by
      intro head isPrefix
      have here := covered (c :: head) (List.cons_prefix_cons.mpr ⟨rfl, isPrefix⟩)
      rw [← List.singleton_append, List.count_append, List.count_append] at here
      omega
    have later := ih covered'
    rw [← List.singleton_append, List.count_append, List.count_append, depthAfter_append]
    change depthAfter (deepen depth c) rest + _ = _
    omega

theorem depthAfter_of_paired {t : Text} (paired : Paired t) : depthAfter 0 t = 0 := by
  have counted := depthAfter_add_count fun head isPrefix => by
    rw [Nat.zero_add]
    exact paired.covered head isPrefix
  have total := paired.total
  omega

/-- No separator stands outside parentheses, where the text begins at `depth`. -/
def Unbroken (sep : Char → Bool) : Nat → Text → Prop
  | _, [] => True
  | depth, c :: rest => (deepen depth c = 0 → sep c = false) ∧ Unbroken sep (deepen depth c) rest

theorem unbroken_iff {sep : Char → Bool} {t : Text} {depth : Nat} : Unbroken sep depth t ↔
    ∀ before c after, t = before ++ c :: after → sep c → 0 < depthAfter depth (before ++ [c]) := by
  induction t generalizing depth with
  | nil => simp [Unbroken]
  | cons c rest ih =>
    constructor
    · rintro ⟨first, later⟩ before d after shape isSep
      cases before with
      | nil =>
        obtain ⟨rfl, rfl⟩ := List.cons.inj shape
        refine Nat.pos_of_ne_zero fun outside => ?_
        rw [first outside] at isSep
        cases isSep
      | cons e before =>
        obtain ⟨rfl, rfl⟩ := List.cons.inj shape
        exact ih.mp later before d after rfl isSep
    · intro inside
      refine ⟨fun outside => ?_, ih.mpr fun before d after shape isSep => ?_⟩
      · by_contra isSep
        exact absurd outside (inside [] c rest rfl (by simpa using isSep)).ne'
      · exact inside (c :: before) d after (by rw [shape, List.cons_append]) isSep

theorem unbroken_append {sep : Char → Bool} {t u : Text} {depth : Nat} :
    Unbroken sep depth (t ++ u) ↔ Unbroken sep depth t ∧ Unbroken sep (depthAfter depth t) u := by
  induction t generalizing depth with
  | nil => exact ⟨fun rest => ⟨trivial, rest⟩, And.right⟩
  | cons c rest ih => exact (and_congr_right fun _ => ih).trans and_assoc.symm

theorem Unbroken.splitOutside_eq {sep : Char → Bool} {t : Text} {depth : Nat} (unbroken : Unbroken sep depth t) :
    splitOutside sep depth t = [t] := by
  induction t generalizing depth with
  | nil => rfl
  | cons c rest ih =>
    obtain ⟨piece, pieces, tail, whole⟩ := splitOutside_cons sep depth c rest
    obtain ⟨first, later⟩ := unbroken
    rw [ih later] at tail
    cases tail
    have joined : (sep c && decide (deepen depth c = 0)) = false := by
      by_cases outside : deepen depth c = 0
      · rw [first outside, Bool.false_and]
      · rw [decide_eq_false outside, Bool.and_false]
    rw [whole, joined]
    rfl

theorem splitOutside_append_cons {sep : Char → Bool} {depth : Nat} {t : Text} {c : Char} (isSep : sep c)
    (outside : depthAfter depth (t ++ [c]) = 0) (rest : Text) :
    splitOutside sep depth (t ++ c :: rest) = splitOutside sep depth t ++ splitOutside sep 0 rest := by
  induction t generalizing depth with
  | nil =>
    obtain ⟨piece, pieces, tail, whole⟩ := splitOutside_cons sep depth c rest
    have level : deepen depth c = 0 := outside
    rw [level] at tail
    rw [List.nil_append, whole, tail, if_pos (by rw [isSep, level]; rfl)]
    rfl
  | cons d t ih =>
    obtain ⟨piece, pieces, tail, whole⟩ := splitOutside_cons sep depth d t
    obtain ⟨piece', pieces', tail', whole'⟩ := splitOutside_cons sep depth d (t ++ c :: rest)
    rw [ih outside, tail] at tail'
    cases tail'
    rw [List.cons_append, whole', whole]
    split <;> rfl

theorem splitOutside_cut {sep : Char → Bool} {first : Text} {c : Char} (unbroken : Unbroken sep 0 first) (isSep : sep c)
    (outside : depthAfter 0 (first ++ [c]) = 0) (rest : Text) :
    splitOutside sep 0 (first ++ c :: rest) = first :: splitOutside sep 0 rest := by
  rw [splitOutside_append_cons isSep outside, unbroken.splitOutside_eq]
  rfl

/-- Pieces that stay apart with a separator between them: in none of them one stands outside parentheses, and only the
    last may leave a parenthesis open. -/
def Apart (sep : Char → Bool) : List Text → Prop
  | [] => True
  | t :: ts => Unbroken sep 0 t ∧ (ts ≠ [] → depthAfter 0 t = 0) ∧ Apart sep ts

theorem Apart.splitOutside_joinWith {sep : Char → Bool} {c : Char} (isSep : sep c) (separates : isBlank c ∨ c = ',')
    {t : Text} {ts : List Text} (apart : Apart sep (t :: ts)) : splitOutside sep 0 (joinWith [c] (t :: ts)) = t :: ts := by
  induction ts generalizing t with
  | nil => exact apart.1.splitOutside_eq
  | cons second ts ih =>
    obtain ⟨unbroken, closed, later⟩ := apart
    have outside : depthAfter 0 (t ++ [c]) = 0 := by
      rw [depthAfter_concat separates, closed (List.cons_ne_nil second ts)]
    rw [joinWith_char, splitOutside_cut unbroken isSep outside, ih later]

theorem Apart.tokens_joinWith {ts : List Text} (apart : Apart isBlank ts) (filled : ∀ t ∈ ts, t ≠ []) :
    tokens (joinWith [' '] ts) = ts := by
  unfold tokens
  cases ts with
  | nil => rfl
  | cons t ts =>
    rw [apart.splitOutside_joinWith (by decide) (by decide)]
    exact List.filter_eq_self.mpr fun u member => by simpa using filled u member

theorem Apart.layers_joinWith {ts : List Text} (apart : Apart (· = ',') ts) (filled : ∀ t ∈ ts, t ≠ [])
    (trimmed : ∀ t ∈ ts, Trimmed t) : layers (joinWith [','] ts) = ts := by
  unfold layers
  cases ts with
  | nil => rfl
  | cons t ts =>
    have same : (t :: ts).map trim = t :: ts :=
      (List.map_congr_left fun u member => (trimmed u member).trim_eq).trans (List.map_id _)
    rw [apart.splitOutside_joinWith (by decide) (by decide), same]
    exact List.filter_eq_self.mpr fun u member => by simpa using filled u member

/-- Some text whose parentheses are in pairs, with neither a blank nor a comma outside them. -/
structure IsToken (t : Text) : Prop where
  ne_nil : t ≠ []
  paired : Paired t
  solid : ∀ before c after, t = before ++ c :: after → before.count '(' = before.count ')' → isBlank c = false ∧ c ≠ ','

instance (t : Text) : Decidable (IsToken t) :=
  decidable_of_iff (t ≠ [] ∧ Paired t ∧ ∀ place (inside : place < t.length),
      (t.take place).count '(' = (t.take place).count ')' → isBlank t[place] = false ∧ t[place] ≠ ',') <| by
    constructor
    · rintro ⟨nonempty, paired, solid⟩
      refine ⟨nonempty, paired, ?_⟩
      rintro before c after rfl outside
      simpa using solid before.length (by simp) (by simpa using outside)
    · rintro ⟨nonempty, paired, solid⟩
      refine ⟨nonempty, paired, fun place inside outside => solid _ _ (t.drop (place + 1)) ?_ outside⟩
      rw [List.cons_getElem_drop_succ, List.take_append_drop]

namespace IsToken

variable {t : Text}

theorem unbroken (isToken : IsToken t) {sep : Char → Bool} (separates : ∀ c, sep c → isBlank c ∨ c = ',') :
    Unbroken sep 0 t := by
  refine unbroken_iff.mpr fun before c after shape isSep => Nat.pos_of_ne_zero fun outside => ?_
  have separator : isBlank c ∨ c = ',' := separates c isSep
  rw [depthAfter_concat separator] at outside
  have counted : depthAfter 0 before + before.count ')' = 0 + before.count '(' := by
    refine depthAfter_add_count fun head isPrefix => ?_
    rw [Nat.zero_add]
    exact isToken.paired.covered head (isPrefix.trans ⟨c :: after, shape.symm⟩)
  have solid := isToken.solid before c after shape (by omega)
  rcases separator with blank | comma
  · exact absurd (solid.1.symm.trans blank) Bool.false_ne_true
  · exact solid.2 comma

theorem trimmed (isToken : IsToken t) : Trimmed t := by
  constructor
  · intro c first
    obtain ⟨rest, shape⟩ := List.head?_eq_some_iff.mp first
    exact (isToken.solid [] c rest shape rfl).1
  · intro c last
    obtain ⟨before, shape⟩ := List.getLast?_eq_some_iff.mp last
    by_contra blank
    have noParenthesis := ne_parentheses (.inl (by simpa using blank))
    have total := isToken.paired.total
    rw [shape, List.count_append, List.count_append, List.count_singleton, List.count_singleton] at total
    simp only [beq_iff_eq, noParenthesis.1, noParenthesis.2, if_false, Nat.add_zero] at total
    exact blank (isToken.solid before c [] shape total).1

end IsToken

theorem unbroken_joinWith {ts : List Text} (isToken : ∀ t ∈ ts, IsToken t) :
    Unbroken (· = ',') 0 (joinWith [' '] ts) := by
  induction ts with
  | nil => trivial
  | cons t ts ih =>
    obtain ⟨first, later⟩ := List.forall_mem_cons.mp isToken
    have here : Unbroken (· = ',') 0 t := first.unbroken fun c comma => .inr (of_decide_eq_true comma)
    cases ts with
    | nil => exact here
    | cons second ts =>
      rw [joinWith_char]
      refine unbroken_append.mpr ⟨here, ?_⟩
      rw [depthAfter_of_paired first.paired]
      exact ⟨fun _ => rfl, ih later⟩

theorem layers_joinWith {ts : List Text} (isToken : ∀ t ∈ ts, IsToken t) (some : ts ≠ []) :
    layers (joinWith [' '] ts) = [joinWith [' '] ts] := by
  have filled : ∀ t ∈ ts, t ≠ [] := fun t member => (isToken t member).ne_nil
  have trimmed : Trimmed (joinWith [' '] ts) := trimmed_joinWith filled fun t member => (isToken t member).trimmed
  have alone : Apart (· = ',') [joinWith [' '] ts] := ⟨unbroken_joinWith isToken, fun more => absurd rfl more, trivial⟩
  exact alone.layers_joinWith (List.forall_mem_singleton.mpr (joinWith_ne_nil some filled))
    (List.forall_mem_singleton.mpr trimmed)

theorem apart_of_isToken {ts : List Text} (isToken : ∀ t ∈ ts, IsToken t) : Apart isBlank ts := by
  induction ts with
  | nil => trivial
  | cons t ts ih =>
    obtain ⟨first, later⟩ := List.forall_mem_cons.mp isToken
    exact ⟨first.unbroken fun _ => .inl, fun _ => depthAfter_of_paired first.paired, ih later⟩

theorem tokens_joinWith {ts : List Text} (isToken : ∀ t ∈ ts, IsToken t) : tokens (joinWith [' '] ts) = ts :=
  (apart_of_isToken isToken).tokens_joinWith fun t member => (isToken t member).ne_nil

end Flipbook.Css
