import Flipbook.Text.Basic

namespace Flipbook

inductive Piece (α : Type)
  | found (value : α) (lexeme : Text)
  | plain (c : Char)
  deriving DecidableEq, Repr

abbrev Pattern (α : Type) := Text → Option (α × Text)

def Pattern.Faithful {α : Type} (p : Pattern α) : Prop :=
  ∀ t value lexeme, p t = some (value, lexeme) → lexeme ≠ [] ∧ ∃ rest, t = lexeme ++ rest

namespace Piece

variable {α : Type}

def lexeme : Piece α → Text
  | found _ lexeme => lexeme
  | plain c => [c]

def joined (pieces : List (Piece α)) : Text := pieces.flatMap lexeme

def value? : Piece α → Option α
  | found value _ => some value
  | plain _ => none

def plain? : Piece α → Option Char
  | found .. => none
  | plain c => some c

end Piece

namespace Pattern

variable {α : Type}

def scanAfter (p : Pattern α) : Nat → Text → List (Piece α)
  | _, [] => []
  | skip + 1, _ :: rest => p.scanAfter skip rest
  | 0, c :: rest =>
    match p (c :: rest) with
    | some (value, lexeme) => .found value lexeme :: p.scanAfter (lexeme.length - 1) rest
    | none => .plain c :: p.scanAfter 0 rest

def scan (p : Pattern α) (t : Text) : List (Piece α) := p.scanAfter 0 t

def findAll (p : Pattern α) (t : Text) : List α := (p.scan t).filterMap Piece.value?

def find? (p : Pattern α) (t : Text) : Option α := (p.scan t).findSome? Piece.value?

def erase (p : Pattern α) (t : Text) : Text := (p.scan t).filterMap Piece.plain?

theorem scanAfter_eq_scan_drop (p : Pattern α) (skip : Nat) (t : Text) :
    p.scanAfter skip t = p.scan (t.drop skip) := by
  induction skip generalizing t with
  | zero => rfl
  | succ n ih =>
    cases t with
    | nil => rfl
    | cons c rest => simpa [scanAfter] using ih rest

theorem scan_of_none {p : Pattern α} {c : Char} {rest : Text} (h : p (c :: rest) = none) :
    p.scan (c :: rest) = .plain c :: p.scan rest := by
  simp [scan, scanAfter, h]

theorem scan_of_some {p : Pattern α} (faithful : p.Faithful) {t lexeme rest : Text} {value : α}
    (h : p t = some (value, lexeme)) (cut : t = lexeme ++ rest) :
    p.scan t = .found value lexeme :: p.scan rest := by
  obtain ⟨nonempty, -⟩ := faithful t value lexeme h
  cases lexeme with
  | nil => exact absurd rfl nonempty
  | cons c tail =>
    subst cut
    have h' : p (c :: (tail ++ rest)) = some (value, c :: tail) := h
    simp [scan, scanAfter, h', scanAfter_eq_scan_drop p tail.length]

theorem joined_cons (piece : Piece α) (rest : List (Piece α)) :
    Piece.joined (piece :: rest) = piece.lexeme ++ Piece.joined rest := rfl

theorem joined_scan {p : Pattern α} (faithful : p.Faithful) (t : Text) :
    Piece.joined (p.scan t) = t := by
  induction size : t.length using Nat.strongRecOn generalizing t with
  | ind n ih =>
    subst size
    cases t with
    | nil => rfl
    | cons c rest =>
      cases h : p (c :: rest) with
      | none =>
        rw [scan_of_none h, joined_cons, ih rest.length (Nat.lt_succ_self _) rest rfl]
        rfl
      | some found =>
        obtain ⟨value, lexeme⟩ := found
        obtain ⟨nonempty, tail, cut⟩ := faithful _ _ _ h
        have shorter : tail.length < (c :: rest).length := by
          have := List.length_pos_iff.mpr nonempty
          rw [cut, List.length_append]
          omega
        rw [scan_of_some faithful h cut, joined_cons, ih _ shorter tail rfl, cut]
        rfl

end Pattern
end Flipbook
