import Flipbook.Proofs.Text.Runs
import Flipbook.Text.Call

namespace Flipbook.Call

open Text

variable {isName : Char → Bool}

structure Legible (isName : Char → Bool) (call : Call) : Prop where
  name_ne_nil : call.name ≠ []
  name_inside : ∀ c ∈ call.name, isName c
  unclosed : ')' ∉ call.arguments

theorem findFrom_name {run : Text} (inside : ∀ c ∈ run, isName c) (name rest : Text) :
    findFrom isName name none (run ++ rest) = findFrom isName (name ++ run) none rest := by
  induction run generalizing name with
  | nil => rw [List.append_nil, List.nil_append]
  | cons c run ih =>
    have step : findFrom isName name none (c :: (run ++ rest)) = findFrom isName (name ++ [c]) none (run ++ rest) :=
      if_pos (inside c List.mem_cons_self)
    rw [List.cons_append, step, ih fun d member => inside d (List.mem_cons_of_mem _ member)]
    simp

theorem findFrom_arguments {arguments : Text} (unclosed : ')' ∉ arguments) (name : Text) (call : Call) (rest : Text) :
    findFrom isName name (some call) (arguments ++ ')' :: rest) =
      { call with arguments := call.arguments ++ arguments } :: findFrom isName [] none rest := by
  induction arguments generalizing name call with
  | nil => simp [findFrom]
  | cons c arguments ih =>
    rw [List.mem_cons, not_or] at unclosed
    have step : findFrom isName name (some call) (c :: (arguments ++ ')' :: rest)) =
        findFrom isName [] (some { call with arguments := call.arguments ++ [c] }) (arguments ++ ')' :: rest) :=
      if_neg (Ne.symm unclosed.1)
    rw [List.cons_append, step, ih unclosed.2]
    simp

theorem findFrom_call {call : Call} (legible : call.Legible isName) (noName : isName '(' = false) (rest : Text) :
    findFrom isName [] none (call.name ++ '(' :: call.arguments ++ ')' :: rest) =
      call :: findFrom isName [] none rest := by
  have opening : findFrom isName call.name none ('(' :: (call.arguments ++ ')' :: rest)) =
      findFrom isName [] (some ⟨call.name, []⟩) (call.arguments ++ ')' :: rest) := by
    simp [findFrom, noName, legible.name_ne_nil]
  rw [List.append_assoc, findFrom_name legible.name_inside, List.nil_append, List.cons_append, opening,
    findFrom_arguments legible.unclosed]
  rfl

theorem legible_of_mem_findFrom {name t : Text} {inside : Option Call} (nameInside : ∀ c ∈ name, isName c)
    (legible : ∀ call ∈ inside, call.Legible isName) :
    ∀ call ∈ findFrom isName name inside t, call.Legible isName := by
  have none : ∀ c ∈ ([] : Text), isName c := by simp
  induction t generalizing name inside with
  | nil =>
    intro call member
    cases member
  | cons c rest ih =>
    unfold findFrom
    cases inside with
    | some call =>
      have opened := legible call rfl
      dsimp only
      split
      · intro found member
        rcases List.mem_cons.mp member with rfl | member
        · exact opened
        · exact ih none (by simp) found member
      · rename_i noClosing
        refine ih none ?_
        rintro _ ⟨⟩
        refine ⟨opened.name_ne_nil, opened.name_inside, ?_⟩
        simpa using ⟨opened.unclosed, Ne.symm noClosing⟩
    | none =>
      dsimp only
      split
      · rename_i isName
        refine ih ?_ (by simp)
        intro d member
        rcases List.mem_append.mp member with member | member
        · exact nameInside d member
        · rwa [List.mem_singleton.mp member]
      · refine ih none ?_
        intro call opened
        split at opened
        · rename_i opening
          cases opened
          exact ⟨opening.2, nameInside, by simp⟩
        · cases opened

theorem legible_of_mem_findAll {t : Text} : ∀ call ∈ findAll isName t, call.Legible isName :=
  legible_of_mem_findFrom (by simp) (by simp)

theorem findFrom_eq_nil {t : Text} (unopened : '(' ∉ t) (name : Text) : findFrom isName name none t = [] := by
  induction t generalizing name with
  | nil => rfl
  | cons c rest ih =>
    rw [List.mem_cons, not_or] at unopened
    have noOpening : ¬ (c = '(' ∧ name ≠ []) := fun opening => unopened.1 opening.1.symm
    unfold findFrom
    dsimp only
    rw [if_neg noOpening, ih unopened.2, ih unopened.2, ite_self]

end Flipbook.Call
