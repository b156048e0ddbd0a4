
namespace Flipbook

abbrev Text := List Char

namespace Text

def within : List Nat → Nat → Bool
  | first :: last :: rest, n => first ≤ n && (n ≤ last || within rest n)
  | _, _ => false

def isOneOf (words : List String) (t : Text) : Bool := words.any (·.toList = t)

def splitBy (sep : Char → Bool) : Text → List Text
  | [] => [[]]
  | c :: rest =>
    match splitBy sep rest with
    | [] => [[c]]
    | piece :: pieces => if sep c then [] :: piece :: pieces else (c :: piece) :: pieces

def wordsBy (sep : Char → Bool) (t : Text) : List Text :=
  (splitBy sep t).filter (!·.isEmpty)

def joinWith (sep : Text) : List Text → Text
  | [] => []
  | [t] => t
  | t :: rest => t ++ sep ++ joinWith sep rest

def cutAt? (c : Char) : Text → Option (Text × Text)
  | [] => none
  | d :: rest =>
    if d = c then some ([], rest) else (cutAt? c rest).map fun (before, after) => (d :: before, after)

def after? : Text → Text → Option Text
  | [], t => some t
  | _ :: _, [] => none
  | c :: lead, d :: t => if c = d then after? lead t else none

def cutAtText? (mark : Text) : Text → Option (Text × Text)
  | [] => if mark.isEmpty then some ([], []) else none
  | c :: rest =>
    match after? mark (c :: rest) with
    | some after => some ([], after)
    | none => (cutAtText? mark rest).map fun (before, after) => (c :: before, after)

def trimEndBy (p : Char → Bool) : Text → Text
  | [] => []
  | c :: rest =>
    match trimEndBy p rest with
    | [] => if p c then [] else [c]
    | kept => c :: kept

def padLeft (fill : Char) (width : Nat) (t : Text) : Text :=
  List.replicate (width - t.length) fill ++ t

theorem after?_eq_some {lead t rest : Text} : after? lead t = some rest ↔ t = lead ++ rest := by
  induction lead generalizing t with
  | nil => simp [after?, eq_comm]
  | cons c lead ih =>
    cases t with
    | nil => simp [after?]
    | cons d t =>
      by_cases h : c = d
      · subst h; simp [after?, ih]
      · simp [after?, h, Ne.symm h]

theorem splitBy_ne_nil (sep : Char → Bool) (t : Text) : splitBy sep t ≠ [] := by
  cases t with
  | nil => simp [splitBy]
  | cons c rest => simp only [splitBy]; split <;> (try split) <;> simp

theorem splitBy_cons (sep : Char → Bool) (c : Char) (rest : Text) :
    ∃ piece pieces, splitBy sep rest = piece :: pieces ∧
      splitBy sep (c :: rest) = if sep c then [] :: piece :: pieces else (c :: piece) :: pieces := by
  cases h : splitBy sep rest with
  | nil => exact absurd h (splitBy_ne_nil sep rest)
  | cons piece pieces => exact ⟨piece, pieces, rfl, by simp [splitBy, h]⟩

theorem splitBy_flatten (sep : Char → Bool) (t : Text) :
    (splitBy sep t).flatten = t.filter (!sep ·) := by
  induction t with
  | nil => rfl
  | cons c rest ih =>
    obtain ⟨piece, pieces, tail, whole⟩ := splitBy_cons sep c rest
    rw [tail] at ih
    rw [whole]
    cases h : sep c <;> simp_all

theorem not_sep_of_mem_splitBy {sep : Char → Bool} {t piece : Text} {c : Char}
    (member : piece ∈ splitBy sep t) (inside : c ∈ piece) : sep c = false := by
  induction t generalizing piece with
  | nil => simp [splitBy] at member; subst member; simp at inside
  | cons d rest ih =>
    obtain ⟨first, others, tail, whole⟩ := splitBy_cons sep d rest
    rw [tail] at ih
    rw [whole] at member
    cases h : sep d <;> simp [h] at member
    · rcases member with rfl | member
      · rcases List.mem_cons.mp inside with rfl | inside
        · exact h
        · exact ih (by simp) inside
      · exact ih (by simp [member]) inside
    · rcases member with rfl | rfl | member
      · simp at inside
      · exact ih (by simp) inside
      · exact ih (by simp [member]) inside

end Text
end Flipbook
