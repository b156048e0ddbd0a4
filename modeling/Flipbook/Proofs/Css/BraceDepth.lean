import Mathlib.Data.List.Infix
import Flipbook.Css.Keyframes

namespace Flipbook.Css

/-- Nowhere are more braces closed than `depth` and those that were opened before. -/
def Covered (depth : Nat) (t : Text) : Prop := ∀ head, head <+: t → head.count '}' ≤ depth + head.count '{'

/-- The text closes its own braces and `depth` others. -/
structure Closes (depth : Nat) (t : Text) : Prop where
  covered : Covered depth t
  total : t.count '}' = depth + t.count '{'

section Depth

variable {depth : Nat} {c : Char} {t : Text}

theorem covered_nil (depth : Nat) : Covered depth [] := by
  intro head isPrefix
  rw [List.prefix_nil.mp isPrefix]
  exact Nat.zero_le _

theorem covered_cons :
    Covered depth (c :: t) ↔ ∀ head, head <+: t → (c :: head).count '}' ≤ depth + (c :: head).count '{' := by
  constructor
  · intro covered head isPrefix
    exact covered (c :: head) ((List.prefix_cons_inj c).mpr isPrefix)
  · intro covered head isPrefix
    rcases List.prefix_cons_iff.mp isPrefix with rfl | ⟨tail, rfl, isTail⟩
    · exact Nat.zero_le _
    · exact covered tail isTail

theorem count_close (t : Text) : ('}' :: t).count '}' = t.count '}' + 1 ∧ ('}' :: t).count '{' = t.count '{' :=
  ⟨List.count_cons_self, List.count_cons_of_ne (by decide)⟩

theorem count_open (t : Text) : ('{' :: t).count '}' = t.count '}' ∧ ('{' :: t).count '{' = t.count '{' + 1 :=
  ⟨List.count_cons_of_ne (by decide), List.count_cons_self⟩

theorem count_plain (noOpen : c ≠ '{') (noClose : c ≠ '}') (t : Text) :
    (c :: t).count '}' = t.count '}' ∧ (c :: t).count '{' = t.count '{' :=
  ⟨List.count_cons_of_ne noClose, List.count_cons_of_ne noOpen⟩

theorem covered_open : Covered depth ('{' :: t) ↔ Covered (depth + 1) t := by
  rw [covered_cons]
  refine forall₂_congr fun head _ => ?_
  rw [(count_open head).1, (count_open head).2]
  omega

theorem covered_close : Covered (depth + 1) ('}' :: t) ↔ Covered depth t := by
  rw [covered_cons]
  refine forall₂_congr fun head _ => ?_
  rw [(count_close head).1, (count_close head).2]
  omega

theorem not_covered_close : ¬Covered 0 ('}' :: t) := by
  intro covered
  have first := covered ['}'] ⟨t, rfl⟩
  revert first
  decide

theorem covered_plain (noOpen : c ≠ '{') (noClose : c ≠ '}') : Covered depth (c :: t) ↔ Covered depth t := by
  rw [covered_cons]
  refine forall₂_congr fun head _ => ?_
  rw [(count_plain noOpen noClose head).1, (count_plain noOpen noClose head).2]

theorem closes_iff : Closes depth t ↔ Covered depth t ∧ t.count '}' = depth + t.count '{' :=
  ⟨fun closes => ⟨closes.covered, closes.total⟩, fun both => ⟨both.1, both.2⟩⟩

theorem closes_nil : Closes depth [] ↔ depth = 0 := by
  rw [closes_iff, and_iff_right (covered_nil depth), List.count_nil, List.count_nil]
  omega

theorem closes_open : Closes depth ('{' :: t) ↔ Closes (depth + 1) t := by
  rw [closes_iff, closes_iff, covered_open, (count_open t).1, (count_open t).2]
  refine and_congr_right fun _ => ?_
  omega

theorem closes_close : Closes (depth + 1) ('}' :: t) ↔ Closes depth t := by
  rw [closes_iff, closes_iff, covered_close, (count_close t).1, (count_close t).2]
  refine and_congr_right fun _ => ?_
  omega

theorem closes_plain (noOpen : c ≠ '{') (noClose : c ≠ '}') : Closes depth (c :: t) ↔ Closes depth t := by
  rw [closes_iff, closes_iff, covered_plain noOpen noClose, (count_plain noOpen noClose t).1,
    (count_plain noOpen noClose t).2]

theorem Closes.append_iff {own : Nat} {u : Text} (closes : Closes own t) (depth : Nat) :
    Closes (depth + own) (t ++ u) ↔ Closes depth u := by
  induction t generalizing own with
  | nil =>
    rw [closes_nil.mp closes]
    rfl
  | cons c t ih =>
    rw [List.cons_append]
    by_cases isClose : c = '}'
    · subst isClose
      cases own with
      | zero => exact absurd closes.covered not_covered_close
      | succ own => exact closes_close.trans (ih (closes_close.mp closes))
    · by_cases isOpen : c = '{'
      · subst isOpen
        exact closes_open.trans (ih (closes_open.mp closes))
      · exact (closes_plain isOpen isClose).trans (ih ((closes_plain isOpen isClose).mp closes))

theorem closes_of_flat (flat : ∀ c ∈ t, c ≠ '{' ∧ c ≠ '}') : Closes 0 t := by
  induction t with
  | nil => exact closes_nil.mpr rfl
  | cons c t ih =>
    obtain ⟨⟨noOpen, noClose⟩, others⟩ := List.forall_mem_cons.mp flat
    exact (closes_plain noOpen noClose).mpr (ih others)

end Depth

theorem closeBrace?_cons {c : Char} (open_ : c ≠ '}') (depth : Nat) (rest : Text) :
    closeBrace? depth (c :: rest) = (closeBrace? (if c = '{' then depth + 1 else depth) rest).map
      fun (inside, after) => (c :: inside, after) := by
  rw [closeBrace?]
  exact open_

theorem closeBrace?_close (depth : Nat) (rest : Text) :
    closeBrace? (depth + 1) ('}' :: rest) =
      (closeBrace? depth rest).map fun (inside, after) => ('}' :: inside, after) := rfl

theorem map_cons_eq_some {c : Char} {found : Option (Text × Text)} {inside after : Text} :
    found.map (fun (inside, after) => (c :: inside, after)) = some (inside, after) ↔
      ∃ tail, inside = c :: tail ∧ found = some (tail, after) := by
  rw [Option.map_eq_some_iff]
  constructor
  · rintro ⟨⟨tail, after⟩, closed, same⟩
    cases same
    exact ⟨tail, rfl, closed⟩
  · rintro ⟨tail, rfl, closed⟩
    exact ⟨(tail, after), closed, rfl⟩

theorem closeBrace?_eq_some {depth : Nat} {t inside after : Text} :
    closeBrace? depth t = some (inside, after) ↔ t = inside ++ '}' :: after ∧ Closes depth inside := by
  induction t generalizing depth inside with
  | nil => simp [closeBrace?]
  | cons c t ih =>
    -- a character that does not end the block belongs to it
    have step {deeper : Nat} (moves : ∀ tail, Closes depth (c :: tail) ↔ Closes deeper tail)
        (goesOn : c = '}' → ¬Closes depth []) :
        (∃ tail, inside = c :: tail ∧ closeBrace? deeper t = some (tail, after)) ↔
          c :: t = inside ++ '}' :: after ∧ Closes depth inside := by
      constructor
      · rintro ⟨tail, rfl, closed⟩
        obtain ⟨cut, closes⟩ := ih.mp closed
        exact ⟨by rw [cut]; rfl, (moves tail).mpr closes⟩
      · rintro ⟨cut, closes⟩
        cases inside with
        | nil => exact absurd closes (goesOn (List.cons.inj cut).1)
        | cons d tail =>
          obtain ⟨rfl, rest⟩ := List.cons.inj cut
          exact ⟨tail, rfl, ih.mpr ⟨rest, (moves tail).mp closes⟩⟩
    by_cases isClose : c = '}'
    · subst isClose
      cases depth with
      | zero =>
        constructor
        · intro closed
          cases closed
          exact ⟨rfl, closes_nil.mpr rfl⟩
        · rintro ⟨cut, closes⟩
          cases inside with
          | nil =>
            cases cut
            rfl
          | cons d tail =>
            obtain ⟨rfl, -⟩ := List.cons.inj cut
            exact absurd closes.covered not_covered_close
      | succ depth =>
        rw [closeBrace?_close, map_cons_eq_some]
        exact step (fun _ => closes_close) fun _ closes => absurd (closes_nil.mp closes) (Nat.succ_ne_zero depth)
    · rw [closeBrace?_cons isClose, map_cons_eq_some]
      by_cases isOpen : c = '{'
      · subst isOpen
        rw [if_pos rfl]
        exact step (fun _ => closes_open) fun same => absurd same isClose
      · rw [if_neg isOpen]
        exact step (fun _ => closes_plain isOpen isClose) fun same => absurd same isClose

theorem closeBrace?_eq_none {depth : Nat} {t : Text} : closeBrace? depth t = none ↔ Covered depth t := by
  induction t generalizing depth with
  | nil => exact iff_of_true rfl (covered_nil depth)
  | cons c t ih =>
    by_cases isClose : c = '}'
    · subst isClose
      cases depth with
      | zero => exact iff_of_false (Option.some_ne_none _) not_covered_close
      | succ depth => rw [closeBrace?_close, Option.map_eq_none_iff, ih, covered_close]
    · rw [closeBrace?_cons isClose, Option.map_eq_none_iff, ih]
      by_cases isOpen : c = '{'
      · subst isOpen
        rw [if_pos rfl, covered_open]
      · rw [if_neg isOpen, covered_plain isOpen isClose]

/-- Nowhere behind its beginning are as many braces closed as were opened. -/
def NeverEven (t : Text) : Prop := ∀ head, head <+: t → head ≠ [] → head.count '{' ≠ head.count '}'

/-- A block ends at the first place where as many braces are closed as were opened. -/
structure ClosedBlock (block : Text) : Prop where
  total : block.count '{' = block.count '}'
  first : ∀ head, head <+: block → head ≠ [] → head.count '{' = head.count '}' → head = block

theorem covered_iff_neverEven {t : Text} : Covered 0 t ↔ NeverEven ('{' :: t) := by
  constructor
  · intro covered head isPrefix nonempty
    rcases List.prefix_cons_iff.mp isPrefix with rfl | ⟨tail, rfl, isTail⟩
    · exact absurd rfl nonempty
    · have fewer := covered tail isTail
      rw [(count_open tail).1, (count_open tail).2]
      omega
  · intro never head
    induction head using List.reverseRecOn with
    | nil => exact fun _ => Nat.zero_le _
    | append_singleton head c ih =>
      intro isPrefix
      have before := ih ((List.prefix_append head [c]).trans isPrefix)
      have here := never ('{' :: (head ++ [c])) ((List.prefix_cons_inj '{').mpr isPrefix) (List.cons_ne_nil _ _)
      have single : [c].count '}' ≤ 1 := List.count_le_length
      rw [(count_open _).1, (count_open _).2, List.count_append, List.count_append] at here
      rw [List.count_append, List.count_append]
      omega

theorem closedBlock_iff {body : Text} : ClosedBlock ('{' :: body ++ ['}']) ↔ Closes 0 body := by
  have total : ('{' :: body ++ ['}']).count '{' = ('{' :: body ++ ['}']).count '}' ↔
      body.count '}' = 0 + body.count '{' := by
    rw [List.cons_append, (count_open _).1, (count_open _).2, List.count_append, List.count_append, (count_close []).1,
      (count_close []).2, List.count_nil, List.count_nil]
    omega
  rw [closes_iff, covered_iff_neverEven, ← total]
  constructor
  · intro closed
    refine ⟨fun head isPrefix nonempty same => ?_, closed.total⟩
    have whole := closed.first head (isPrefix.trans (List.prefix_append _ _)) nonempty same
    have longer := isPrefix.length_le
    rw [whole, List.length_append, List.length_singleton] at longer
    omega
  · rintro ⟨never, counts⟩
    refine ⟨counts, fun head isPrefix nonempty same => ?_⟩
    rcases List.prefix_concat_iff.mp isPrefix with whole | inside
    · exact whole
    · exact absurd same (never head inside nonempty)

theorem closeBrace?_eq_some_iff {rest body after : Text} :
    closeBrace? 0 rest = some (body, after) ↔ rest = body ++ '}' :: after ∧ ClosedBlock ('{' :: body ++ ['}']) := by
  rw [closeBrace?_eq_some, closedBlock_iff]

theorem closeBrace?_eq_none_iff {rest : Text} : closeBrace? 0 rest = none ↔ NeverEven ('{' :: rest) := by
  rw [closeBrace?_eq_none, covered_iff_neverEven]

end Flipbook.Css
