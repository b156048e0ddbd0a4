import Flipbook.Text.Scan
import Mathlib.Data.List.Basic

namespace Flipbook.Pattern

variable {α : Type} {p : Pattern α}

theorem joined_append (pieces others : List (Piece α)) :
    Piece.joined (pieces ++ others) = Piece.joined pieces ++ Piece.joined others := List.flatMap_append

theorem scan_of_append (faithful : p.Faithful) {t : Text} {before after : List (Piece α)}
    (cut : p.scan t = before ++ after) : ∃ rest, t = Piece.joined before ++ rest ∧ p.scan rest = after := by
  induction before generalizing t with
  | nil => exact ⟨t, rfl, cut⟩
  | cons piece before ih =>
    cases t with
    | nil => cases cut
    | cons c tail =>
      cases read : p (c :: tail) with
      | none =>
        rw [scan_of_none read] at cut
        obtain ⟨rfl, later⟩ := List.cons.inj cut
        obtain ⟨rest, rfl, scanned⟩ := ih later
        exact ⟨rest, rfl, scanned⟩
      | some found =>
        obtain ⟨value, lexeme⟩ := found
        obtain ⟨-, others, whole⟩ := faithful _ _ _ read
        rw [scan_of_some faithful read whole] at cut
        obtain ⟨rfl, later⟩ := List.cons.inj cut
        obtain ⟨rest, rfl, scanned⟩ := ih later
        refine ⟨rest, ?_, scanned⟩
        rw [whole, joined_cons, List.append_assoc]
        rfl

theorem read_of_scan_found (faithful : p.Faithful) {t lexeme : Text} {value : α} {after : List (Piece α)}
    (scanned : p.scan t = .found value lexeme :: after) : p t = some (value, lexeme) := by
  cases t with
  | nil => cases scanned
  | cons c tail =>
    cases read : p (c :: tail) with
    | none =>
      rw [scan_of_none read] at scanned
      cases (List.cons.inj scanned).1
    | some found =>
      obtain ⟨value', lexeme'⟩ := found
      obtain ⟨-, others, whole⟩ := faithful _ _ _ read
      rw [scan_of_some faithful read whole] at scanned
      cases (List.cons.inj scanned).1
      rfl

theorem none_of_scan_plain (faithful : p.Faithful) {t : Text} {c : Char} {after : List (Piece α)}
    (scanned : p.scan t = .plain c :: after) : p t = none := by
  cases t with
  | nil => cases scanned
  | cons d tail =>
    cases read : p (d :: tail) with
    | none => rfl
    | some found =>
      obtain ⟨value, lexeme⟩ := found
      obtain ⟨-, others, whole⟩ := faithful _ _ _ read
      rw [scan_of_some faithful read whole] at scanned
      cases (List.cons.inj scanned).1

/-- A match with the place of its first character. -/
structure Placed (α : Type) where
  start : Nat
  value : α
  lexeme : Text
  deriving DecidableEq

def Placed.stop (m : Placed α) : Nat := m.start + m.lexeme.length

def Placed.covers (m : Placed α) (place : Nat) : Bool := m.start ≤ place && place < m.stop

def placedFrom (start : Nat) : List (Piece α) → List (Placed α)
  | [] => []
  | .found value lexeme :: rest => ⟨start, value, lexeme⟩ :: placedFrom (start + lexeme.length) rest
  | .plain _ :: rest => placedFrom (start + 1) rest

def places (p : Pattern α) (t : Text) : List (Placed α) := placedFrom 0 (p.scan t)

theorem mem_placedFrom {m : Placed α} {start : Nat} {pieces : List (Piece α)} :
    m ∈ placedFrom start pieces ↔ ∃ before after, pieces = before ++ .found m.value m.lexeme :: after ∧
      m.start = start + (Piece.joined before).length := by
  induction pieces generalizing start with
  | nil => simp [placedFrom]
  | cons piece rest ih =>
    have later (length : Nat) (same : length = piece.lexeme.length) : m ∈ placedFrom (start + length) rest ↔
        ∃ before after, rest = before ++ .found m.value m.lexeme :: after ∧
          m.start = start + (Piece.joined (piece :: before)).length := by
      rw [ih]
      simp only [joined_cons, List.length_append, same, Nat.add_assoc]
    constructor
    · intro member
      have inRest (found : ∃ before after, rest = before ++ .found m.value m.lexeme :: after ∧
          m.start = start + (Piece.joined (piece :: before)).length) :
          ∃ before after, piece :: rest = before ++ .found m.value m.lexeme :: after ∧
            m.start = start + (Piece.joined before).length := by
        obtain ⟨before, after, rfl, place⟩ := found
        exact ⟨piece :: before, after, rfl, place⟩
      cases piece with
      | found value lexeme =>
        rcases List.mem_cons.mp member with rfl | member
        · exact ⟨[], rest, rfl, rfl⟩
        · exact inRest ((later lexeme.length rfl).mp member)
      | plain c => exact inRest ((later 1 rfl).mp member)
    · rintro ⟨before, after, cut, place⟩
      cases before with
      | nil =>
        obtain ⟨rfl, rfl⟩ := List.cons.inj cut
        have here : m = ⟨start, m.value, m.lexeme⟩ := by
          cases m
          exact congrArg (Placed.mk · _ _) place
        rw [here]
        exact List.mem_cons_self
      | cons first before =>
        obtain ⟨rfl, rfl⟩ := List.cons.inj cut
        cases piece with
        | found value lexeme => exact List.mem_cons_of_mem _ ((later lexeme.length rfl).mpr ⟨before, after, rfl, place⟩)
        | plain c => exact (later 1 rfl).mpr ⟨before, after, rfl, place⟩

theorem mem_places {m : Placed α} {t : Text} :
    m ∈ p.places t ↔ ∃ before after, p.scan t = before ++ .found m.value m.lexeme :: after ∧
      m.start = (Piece.joined before).length := by
  unfold places
  rw [mem_placedFrom]
  simp only [Nat.zero_add]

theorem read_of_mem_places (faithful : p.Faithful) {m : Placed α} {t : Text} (member : m ∈ p.places t) :
    p (t.drop m.start) = some (m.value, m.lexeme) := by
  obtain ⟨before, after, cut, place⟩ := mem_places.mp member
  obtain ⟨rest, rfl, scanned⟩ := scan_of_append faithful cut
  rw [place, List.drop_left]
  exact read_of_scan_found faithful scanned

theorem covered_or_plain (start : Nat) {pieces : List (Piece α)} {place : Nat}
    (inside : place < (Piece.joined pieces).length) :
    (∃ m ∈ placedFrom start pieces, m.covers (start + place)) ∨
      ∃ before c after, pieces = before ++ .plain c :: after ∧ (Piece.joined before).length = place := by
  induction pieces generalizing start place with
  | nil => cases inside
  | cons piece rest ih =>
    rw [joined_cons, List.length_append] at inside
    by_cases here : place < piece.lexeme.length
    · cases piece with
      | found value lexeme =>
        refine .inl ⟨⟨start, value, lexeme⟩, List.mem_cons_self, ?_⟩
        have short : place < lexeme.length := here
        simpa [Placed.covers, Placed.stop] using short
      | plain c =>
        have first : place = 0 := Nat.lt_one_iff.mp here
        exact .inr ⟨[], c, rest, rfl, first.symm⟩
    · have later : place - piece.lexeme.length < (Piece.joined rest).length := by omega
      rcases ih (start + piece.lexeme.length) later with ⟨m, member, covers⟩ | ⟨before, c, after, rfl, length⟩
      · have same : start + piece.lexeme.length + (place - piece.lexeme.length) = start + place := by omega
        rw [same] at covers
        cases piece with
        | found value lexeme => exact .inl ⟨m, List.mem_cons_of_mem _ member, covers⟩
        | plain c => exact .inl ⟨m, member, covers⟩
      · refine .inr ⟨piece :: before, c, after, rfl, ?_⟩
        rw [joined_cons, List.length_append]
        omega

theorem read_nil (faithful : p.Faithful) : p [] = none := by
  cases read : p [] with
  | none => rfl
  | some found =>
    obtain ⟨nonempty, rest, whole⟩ := faithful _ _ _ read
    exact absurd (List.append_eq_nil_iff.mp whole.symm).1 nonempty

theorem covered_or_none (faithful : p.Faithful) (t : Text) (place : Nat) :
    (∃ m ∈ p.places t, m.covers place) ∨ p (t.drop place) = none := by
  by_cases inside : place < t.length
  · rw [← joined_scan faithful t] at inside
    rcases covered_or_plain 0 inside with ⟨m, member, covers⟩ | ⟨before, c, after, cut, length⟩
    · rw [Nat.zero_add] at covers
      exact .inl ⟨m, member, covers⟩
    · right
      obtain ⟨rest, rfl, scanned⟩ := scan_of_append faithful cut
      rw [← length, List.drop_left]
      exact none_of_scan_plain faithful scanned
  · right
    rw [List.drop_eq_nil_of_le (Nat.not_lt.mp inside)]
    exact read_nil faithful

theorem place_of_find? {t : Text} {value : α} (first : p.find? t = some value) :
    ∃ m ∈ p.places t, m.value = value := by
  obtain ⟨before, piece, after, cut, found, -⟩ := List.findSome?_eq_some_iff.mp first
  cases piece with
  | plain c => cases found
  | found _ lexeme =>
    cases found
    exact ⟨⟨_, value, lexeme⟩, mem_places.mpr ⟨before, after, cut, rfl⟩, rfl⟩

theorem isSome_find?_of_read (faithful : p.Faithful) {before rest : Text} (read : (p rest).isSome) :
    (p.find? (before ++ rest)).isSome := by
  rcases covered_or_none faithful (before ++ rest) before.length with ⟨m, member, -⟩ | none
  · obtain ⟨early, late, cut, -⟩ := mem_places.mp member
    unfold find?
    rw [cut, List.findSome?_append, List.findSome?_cons]
    cases early.findSome? Piece.value? <;> rfl
  · rw [List.drop_left] at none
    rw [none] at read
    cases read

theorem le_of_mem_placedFrom {m : Placed α} {start : Nat} {pieces : List (Piece α)}
    (member : m ∈ placedFrom start pieces) : start ≤ m.start := by
  obtain ⟨before, after, -, place⟩ := mem_placedFrom.mp member
  omega

def outside (found : List (Placed α)) (start : Nat) (t : Text) : Text :=
  ((t.zipIdx start).filter fun c => found.all fun m => !m.covers c.2).map Prod.fst

theorem outside_append (found : List (Placed α)) (start : Nat) (t t' : Text) :
    outside found start (t ++ t') = outside found start t ++ outside found (start + t.length) t' := by
  unfold outside
  rw [List.zipIdx_append, List.filter_append, List.map_append]

theorem outside_placedFrom (start : Nat) (pieces : List (Piece α)) :
    outside (placedFrom start pieces) start (Piece.joined pieces) = pieces.filterMap Piece.plain? := by
  induction pieces generalizing start with
  | nil => rfl
  | cons piece rest ih =>
    rw [joined_cons, outside_append]
    cases piece with
    | found value lexeme =>
      rw [List.filterMap_cons_none rfl, ← ih (start + lexeme.length)]
      -- The match covers its own characters and none after them.
      have covered : outside (placedFrom start (.found value lexeme :: rest)) start lexeme = [] := by
        unfold outside
        rw [List.map_eq_nil_iff, List.filter_eq_nil_iff]
        rintro ⟨c, place⟩ member
        obtain ⟨low, high, -⟩ := List.mem_zipIdx member
        simp [placedFrom, Placed.covers, Placed.stop, low, high]
      have beyond :
          outside (placedFrom start (.found value lexeme :: rest)) (start + lexeme.length) (Piece.joined rest) =
            outside (placedFrom (start + lexeme.length) rest) (start + lexeme.length) (Piece.joined rest) := by
        unfold outside
        congr 1
        refine List.filter_congr ?_
        rintro ⟨c, place⟩ member
        obtain ⟨low, -⟩ := List.mem_zipIdx member
        have noStop : ¬ place < start + lexeme.length := Nat.not_lt.mpr low
        have apart : Placed.covers ⟨start, value, lexeme⟩ place = false := by
          simp [Placed.covers, Placed.stop, noStop]
        simp [placedFrom, apart]
      show outside _ start lexeme ++ outside _ (start + lexeme.length) _ = _
      rw [covered, beyond, List.nil_append]
    | plain c =>
      have kept : outside (placedFrom start (.plain c :: rest)) start [c] = [c] := by
        have free : ((placedFrom start (.plain c :: rest)).all fun m => !m.covers start) = true := by
          rw [List.all_eq_true]
          intro m member
          have later : start + 1 ≤ m.start := le_of_mem_placedFrom member
          simp [Placed.covers, Nat.not_le.mpr later]
        simp [outside, free]
      have later : outside (placedFrom start (.plain c :: rest)) (start + 1) (Piece.joined rest) =
          rest.filterMap Piece.plain? := ih (start + 1)
      show outside _ start [c] ++ outside _ (start + 1) _ = c :: rest.filterMap Piece.plain?
      rw [kept, later]
      rfl

theorem erase_eq (faithful : p.Faithful) (t : Text) : p.erase t = outside (p.places t) 0 t := by
  have pieces := outside_placedFrom 0 (p.scan t)
  rw [joined_scan faithful] at pieces
  exact pieces.symm

end Flipbook.Pattern
