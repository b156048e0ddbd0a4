import Flipbook.Proofs.Css.KeyframesSpans

namespace Flipbook.Css

open Text Pattern

/-- The rule is read from these characters, whatever follows them. -/
def Closed (rule : KeyframesRule) (lexeme : Text) : Prop :=
  ∀ tail, keyframesRule (lexeme ++ tail) = some (rule, lexeme)

/-- No header can begin in the one text and end in the other: a character that no header holds, or holds only as the
    first one, stands where they meet. -/
def Parted (t u : Text) : Prop := (∃ c ∈ t.getLast?, c = '}' ∨ c = ';') ∨ ∀ c ∈ u.head?, c = '}' ∨ c = '@'

theorem parted_brace (t : Text) : Parted t ['}'] := .inr (by simp)

theorem keyframesRule_of_closed {lexeme header : Text} {rule : KeyframesRule} (isHeader : HeaderText rule.name header)
    (block : ClosedBlock ('{' :: rule.body ++ ['}'])) (whole : lexeme = header ++ rule.body ++ ['}']) :
    Closed rule lexeme := by
  intro tail
  have text : lexeme ++ tail = header ++ (rule.body ++ '}' :: tail) := by
    rw [whole]
    simp
  exact keyframesRule_eq_some.mpr (.closed isHeader text block whole)

theorem closed_of_scan {t : Text} {before after : List (Piece KeyframesRule)}
    (cut : keyframesRule.scan t = before ++ after) (more : after ≠ []) {rule : KeyframesRule} {lexeme : Text}
    (member : .found rule lexeme ∈ before) : Closed rule lexeme := by
  obtain ⟨early, late, rfl⟩ := List.append_of_mem member
  rw [List.append_assoc, List.cons_append] at cut
  obtain ⟨rest, -, scanned⟩ := scan_of_append keyframesRule_faithful cut
  have read := read_of_scan_found keyframesRule_faithful scanned
  cases keyframesRule_eq_some.mp read with
  | closed isHeader shape block whole => exact keyframesRule_of_closed isHeader block whole
  | unclosed isHeader shape never body whole =>
    subst whole
    rw [scan_of_some keyframesRule_faithful read (List.append_nil _).symm] at scanned
    have none : late ++ after = [] := (List.cons.inj scanned).2.symm
    exact absurd (List.append_eq_nil_iff.mp none).2 more

theorem HeaderText.not_parted {name front back : Text} (text : HeaderText name (front ++ back)) (begins : front ≠ [])
    (goesOn : back ≠ []) (rest : Text) : ¬Parted front (back ++ rest) := by
  obtain ⟨lead, shape, inner⟩ := text.shape
  obtain ⟨c, front, rfl⟩ := List.exists_cons_of_ne_nil begins
  obtain ⟨d, back, rfl⟩ := List.exists_cons_of_ne_nil goesOn
  obtain ⟨rfl, tail⟩ := List.cons.inj shape
  change front ++ d :: back = lead ++ ['{'] at tail
  have known : ∀ e ∈ front ++ d :: back, e ≠ '@' ∧ e ≠ '}' ∧ e ≠ ';' := by
    rw [tail]
    refine List.forall_mem_append.mpr ⟨fun e member => ?_, by simp⟩
    exact ⟨(inner e member).1, (inner e member).2.2⟩
  rintro (⟨e, last, isEnd⟩ | first)
  · rcases List.mem_cons.mp (List.mem_of_getLast? last) with rfl | member
    · revert isEnd
      decide
    · exact isEnd.elim (known e (List.mem_append_left _ member)).2.1 (known e (List.mem_append_left _ member)).2.2
  · have own := known d (List.mem_append_right _ List.mem_cons_self)
    exact (first d rfl).elim own.2.1 own.1

theorem keyframesRule_append_eq_none {t u : Text} (none : keyframesRule t = none) (nonempty : t ≠ [])
    (parted : Parted t u) : keyframesRule (t ++ u) = .none := by
  rw [keyframesRule_eq_none] at none ⊢
  cases read : keyframesHeader? (t ++ u) with
  | none => rfl
  | some found =>
    obtain ⟨name, header, rest⟩ := found
    obtain ⟨shape, text⟩ := keyframesHeader?_eq_some.mp read
    rcases List.append_eq_append_iff.mp shape with ⟨back, rfl, rfl⟩ | ⟨tail, rfl, -⟩
    · by_cases ended : back = []
      · subst ended
        rw [List.append_nil] at text
        have own : keyframesHeader? t = some (name, t, []) := keyframesHeader?_eq_some.mpr ⟨(List.append_nil t).symm, text⟩
        rw [own] at none
        cases none
      · exact absurd parted (text.not_parted nonempty ended rest)
    · rw [keyframesHeader?_eq_some.mpr ⟨rfl, text⟩] at none
      cases none

theorem HeaderText.count_braces {name header : Text} (text : HeaderText name header) :
    header.count '}' = 0 ∧ header.count '{' = 1 := by
  obtain ⟨lead, rfl, inner⟩ := text.shape
  have noClose : lead.count '}' = 0 := List.count_eq_zero.mpr fun member => (inner '}' member).2.2.1 rfl
  have noOpen : lead.count '{' = 0 := List.count_eq_zero.mpr fun member => (inner '{' member).2.1 rfl
  simp [noClose, noOpen]

theorem HeaderText.closes_iff {name header : Text} (text : HeaderText name header) (depth : Nat) (t : Text) :
    Closes depth (header ++ t) ↔ Closes (depth + 1) t := by
  obtain ⟨lead, rfl, inner⟩ := text.shape
  have flat : ∀ c ∈ '@' :: lead, c ≠ '{' ∧ c ≠ '}' :=
    List.forall_mem_cons.mpr ⟨by decide, fun c member => ⟨(inner c member).2.1, (inner c member).2.2.1⟩⟩
  rw [List.append_assoc]
  exact ((closes_of_flat flat).append_iff depth).trans closes_open

theorem closed_of_closes {t : Text} (closes : Closes 0 t) {rule : KeyframesRule} {lexeme : Text}
    (member : .found rule lexeme ∈ keyframesRule.scan t) : Closed rule lexeme ∧ Closes 0 lexeme := by
  obtain ⟨before, after, cut⟩ := List.append_of_mem member
  obtain ⟨rest, rfl, scanned⟩ := scan_of_append keyframesRule_faithful cut
  cases keyframesRule_eq_some.mp (read_of_scan_found keyframesRule_faithful scanned) with
  | closed isHeader shape block whole =>
    refine ⟨keyframesRule_of_closed isHeader block whole, ?_⟩
    rw [whole, List.append_assoc, isHeader.closes_iff, ← Nat.zero_add 1]
    have body := (closedBlock_iff.mp block).append_iff (u := ['}']) 1
    exact body.mpr (closes_close.mpr (closes_nil.mpr rfl))
  | @unclosed header inside isHeader shape never body whole =>
    -- the header's brace is still open at the end
    have total := closes.total
    have early := closes.covered (Piece.joined before) ⟨rest, rfl⟩
    have late := covered_iff_neverEven.mpr never inside (List.prefix_refl inside)
    obtain ⟨noClose, oneOpen⟩ := isHeader.count_braces
    rw [shape] at total
    simp only [List.count_append] at total
    omega

theorem scan_append_of_closed {t u : Text} {before after : List (Piece KeyframesRule)}
    (cut : keyframesRule.scan t = before ++ after)
    (closed : ∀ rule lexeme, .found rule lexeme ∈ before → Closed rule lexeme)
    (parted : ∀ rest, rest <:+ t → rest ≠ [] → Parted rest u) :
    ∃ rest, t = Piece.joined before ++ rest ∧ keyframesRule.scan rest = after ∧
      keyframesRule.scan (t ++ u) = before ++ keyframesRule.scan (rest ++ u) :=
  scan_append keyframesRule_faithful cut closed fun rest isSuffix none nonempty =>
    keyframesRule_append_eq_none none nonempty (parted rest isSuffix nonempty)

theorem scan_append_of_closes {t u : Text} (closes : Closes 0 t)
    (parted : ∀ rest, rest <:+ t → rest ≠ [] → Parted rest u) :
    keyframesRule.scan (t ++ u) = keyframesRule.scan t ++ keyframesRule.scan u := by
  obtain ⟨rest, shape, -, whole⟩ := scan_append_of_closed (List.append_nil (keyframesRule.scan t)).symm
    (fun _ _ member => (closed_of_closes closes member).1) parted
  rw [joined_scan keyframesRule_faithful, List.self_eq_append_right] at shape
  rw [whole, shape, List.nil_append]

theorem removeKeyframes_append {t u : Text} (closes : Closes 0 t)
    (parted : ∀ rest, rest <:+ t → rest ≠ [] → Parted rest u) :
    removeKeyframes (t ++ u) = removeKeyframes t ++ removeKeyframes u := by
  unfold removeKeyframes erase
  rw [scan_append_of_closes closes parted, List.filterMap_append]

theorem closes_plain_pieces {pieces : List (Piece KeyframesRule)}
    (closes : ∀ rule lexeme, .found rule lexeme ∈ pieces → Closes 0 lexeme) (depth : Nat) :
    Closes depth (Piece.joined pieces) ↔ Closes depth (pieces.filterMap Piece.plain?) := by
  induction pieces generalizing depth with
  | nil => rfl
  | cons piece pieces ih =>
    have others := ih fun rule lexeme member => closes rule lexeme (List.mem_cons_of_mem _ member)
    rw [joined_cons]
    cases piece with
    | found rule lexeme =>
      exact ((closes rule lexeme List.mem_cons_self).append_iff depth).trans (others depth)
    | plain c =>
      change Closes depth (c :: Piece.joined pieces) ↔ Closes depth (c :: pieces.filterMap Piece.plain?)
      by_cases isClose : c = '}'
      · subst isClose
        cases depth with
        | zero =>
          exact iff_of_false (fun whole => not_covered_close whole.covered) fun left => not_covered_close left.covered
        | succ depth => rw [closes_close, closes_close, others]
      · by_cases isOpen : c = '{'
        · subst isOpen
          rw [closes_open, closes_open, others]
        · rw [closes_plain isOpen isClose, closes_plain isOpen isClose, others]

theorem closes_removeKeyframes {t : Text} (closes : Closes 0 t) : Closes 0 (removeKeyframes t) := by
  have pieces := closes_plain_pieces (fun _ _ member => (closed_of_closes closes member).2) 0
  rw [joined_scan keyframesRule_faithful] at pieces
  exact pieces.mp closes

end Flipbook.Css
