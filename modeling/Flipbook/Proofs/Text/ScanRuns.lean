import Flipbook.Proofs.Text.ScanPlaces

namespace Flipbook.Pattern

variable {α : Type} {p : Pattern α}

/-- The matches that are found from a place on, where each search begins at the end of the last match. -/
inductive Run (p : Pattern α) (t : Text) : Nat → List (Placed α) → Prop
  | finished {place : Nat} (none : ∀ n, place ≤ n → p (t.drop n) = none) : Run p t place []
  | next {place : Nat} {m : Placed α} {later : List (Placed α)} (reached : place ≤ m.start)
      (passed : ∀ n, place ≤ n → n < m.start → p (t.drop n) = none)
      (read : p (t.drop m.start) = some (m.value, m.lexeme)) (rest : Run p t m.stop later) :
      Run p t place (m :: later)

theorem Run.earlier {t : Text} {place : Nat} {found : List (Placed α)} (run : Run p t (place + 1) found)
    (none : p (t.drop place) = none) : Run p t place found := by
  have here {n : Nat} (reached : place ≤ n) (apart : ¬place + 1 ≤ n) : p (t.drop n) = .none := by
    have same : n = place := by omega
    rwa [same]
  cases run with
  | finished rest =>
    refine .finished fun n reached => ?_
    by_cases later : place + 1 ≤ n
    · exact rest n later
    · exact here reached later
  | next reached passed read rest =>
    refine .next (Nat.le_of_succ_le reached) (fun n low high => ?_) read rest
    by_cases later : place + 1 ≤ n
    · exact passed n later high
    · exact here low later

theorem scan_of_cons (faithful : p.Faithful) {t : Text} {piece : Piece α} {after : List (Piece α)}
    (cut : p.scan t = piece :: after) : ∃ rest, t = piece.lexeme ++ rest ∧ p.scan rest = after := by
  obtain ⟨rest, shape, scanned⟩ := @scan_of_append _ _ faithful t [piece] after cut
  have single : Piece.joined [piece] = piece.lexeme := List.append_nil piece.lexeme
  rw [single] at shape
  exact ⟨rest, shape, scanned⟩

theorem run_placedFrom (faithful : p.Faithful) {t : Text} {start : Nat} {pieces : List (Piece α)}
    (scanned : p.scan (t.drop start) = pieces) : Run p t start (placedFrom start pieces) := by
  induction pieces generalizing start with
  | nil =>
    have ended : t.drop start = [] := by
      have joined := joined_scan faithful (t.drop start)
      rw [scanned] at joined
      exact joined.symm
    refine .finished fun n reached => ?_
    have length := List.drop_eq_nil_iff.mp ended
    rw [List.drop_eq_nil_of_le (Nat.le_trans length reached)]
    exact read_nil faithful
  | cons piece rest ih =>
    obtain ⟨remaining, cut, later⟩ := scan_of_cons faithful scanned
    have dropped : t.drop (start + piece.lexeme.length) = remaining := by
      rw [← List.drop_drop, cut, List.drop_left]
    have run := @ih (start + piece.lexeme.length) (by rw [dropped, later])
    cases piece with
    | plain c => exact run.earlier (none_of_scan_plain faithful scanned)
    | found value lexeme =>
      refine .next (Nat.le_refl _) (fun n low high => absurd high (Nat.not_lt.mpr low)) ?_ run
      exact read_of_scan_found faithful scanned

/-- The run comes to an end, with the places of the scan. -/
theorem run_places (faithful : p.Faithful) (t : Text) : Run p t 0 (p.places t) :=
  run_placedFrom faithful rfl

theorem Run.unique {t : Text} {place : Nat} {found found' : List (Placed α)} (run : Run p t place found)
    (run' : Run p t place found') : found = found' := by
  induction run generalizing found' with
  | finished none =>
    cases run' with
    | finished => rfl
    | next reached passed read rest =>
      rw [none _ reached] at read
      cases read
  | next reached passed read rest ih =>
    rename_i m later
    cases run' with
    | finished none =>
      rw [none _ reached] at read
      cases read
    | next reached' passed' read' rest' =>
      rename_i m' later'
      have start : m.start = m'.start := by
        rcases Nat.lt_trichotomy m.start m'.start with before | same | after
        · rw [passed' _ reached before] at read
          cases read
        · exact same
        · rw [passed _ reached' after] at read'
          cases read'
      have same : m = m' := by
        rw [← start, read] at read'
        cases m
        cases m'
        cases read'
        exact congrArg (Placed.mk · _ _) start
      subst same
      rw [ih rest']

theorem Run.le_start {t : Text} {place : Nat} {found : List (Placed α)} (run : Run p t place found) :
    ∀ m ∈ found, place ≤ m.start := by
  induction run with
  | finished => exact List.forall_mem_nil _
  | next reached _ _ _ ih =>
    refine List.forall_mem_cons.mpr ⟨reached, fun m member => ?_⟩
    have later := ih m member
    unfold Placed.stop at later
    omega

theorem Run.ordered {t : Text} {place : Nat} {found : List (Placed α)} (run : Run p t place found) :
    found.Pairwise fun m m' => m.stop ≤ m'.start := by
  induction run with
  | finished => exact .nil
  | next _ _ _ rest ih => exact List.pairwise_cons.mpr ⟨rest.le_start, ih⟩

theorem Run.none_outside {t : Text} {place n : Nat} {found : List (Placed α)} (run : Run p t place found)
    (reached : place ≤ n) (outside : ∀ m ∈ found, m.start ≤ n → m.stop ≤ n) : p (t.drop n) = none := by
  induction run with
  | finished none => exact none n reached
  | @next place m later first passed read rest ih =>
    obtain ⟨here, further⟩ := List.forall_mem_cons.mp outside
    by_cases before : n < m.start
    · exact passed n reached before
    · exact ih (here (Nat.not_lt.mp before)) further

/-- What is read of a text stays, whatever is written behind it, if its matches need no more than their own characters
    and nothing begins in it that ends behind it. -/
theorem scan_append (faithful : p.Faithful) {t u : Text} {before after : List (Piece α)}
    (cut : p.scan t = before ++ after)
    (closed : ∀ value lexeme, .found value lexeme ∈ before → ∀ tail, p (lexeme ++ tail) = some (value, lexeme))
    (apart : ∀ rest, rest <:+ t → p rest = none → rest ≠ [] → p (rest ++ u) = none) :
    ∃ rest, t = Piece.joined before ++ rest ∧ p.scan rest = after ∧
      p.scan (t ++ u) = before ++ p.scan (rest ++ u) := by
  induction before generalizing t with
  | nil => exact ⟨t, rfl, cut, rfl⟩
  | cons piece before ih =>
    obtain ⟨tail, rfl, scanned⟩ := scan_of_cons faithful cut
    obtain ⟨rest, rfl, ended, whole⟩ := ih scanned
      (fun value lexeme member => closed value lexeme (List.mem_cons_of_mem _ member))
      (fun rest isSuffix => apart rest (isSuffix.trans (List.suffix_append _ _)))
    refine ⟨rest, by rw [joined_cons, List.append_assoc], ended, ?_⟩
    rw [List.append_assoc, List.cons_append, ← whole]
    cases piece with
    | found value lexeme =>
      exact scan_of_some faithful (closed value lexeme List.mem_cons_self _) rfl
    | plain c =>
      have none := none_of_scan_plain faithful cut
      exact scan_of_none (apart _ (List.suffix_refl _) none (List.cons_ne_nil c _))

end Flipbook.Pattern
