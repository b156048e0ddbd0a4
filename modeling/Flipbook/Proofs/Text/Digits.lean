import Flipbook.Text.Digit
import Flipbook.Text.LowerCase
import Flipbook.Text.Word

namespace Flipbook.Text

theorem digitFrom_cons {n start : Nat} {rest : List Nat} (digit : (digitFrom n (start :: rest)).isSome) :
    start ≤ n ∧ (n < start + 10 ∨ (digitFrom n rest).isSome) := by
  unfold digitFrom at digit
  split at digit
  · cases digit
  · split at digit
    · exact ⟨by omega, .inl (by omega)⟩
    · exact ⟨by omega, .inr digit⟩

theorem exists_of_digitFrom {n : Nat} {zeros : List Nat} (digit : (digitFrom n zeros).isSome) :
    ∃ start ∈ zeros, start ≤ n ∧ n < start + 10 := by
  induction zeros with
  | nil => cases digit
  | cons start rest ih =>
    obtain ⟨low, first | later⟩ := digitFrom_cons digit
    · exact ⟨start, by simp, low, first⟩
    · obtain ⟨other, member, bounds⟩ := ih later
      exact ⟨other, List.mem_cons_of_mem _ member, bounds⟩

def wideZeros : List Nat := digitZeros.tail

theorem isDigit_cases {c : Char} (digit : isDigit c) :
    c.toNat ∈ List.range' 0x30 10 ∨ 128 ≤ c.toNat ∧ (digitFrom c.toNat wideZeros).isSome := by
  obtain ⟨low, ascii | wide⟩ := digitFrom_cons digit
  · exact .inl (List.mem_range'_1.mpr ⟨low, ascii⟩)
  · have first := (digitFrom_cons wide).1
    exact .inr ⟨by omega, wide⟩

theorem of_ascii {p : Char → Bool} (holds : ∀ n ∈ List.range' 0x30 10, p (Char.ofNat n)) {c : Char}
    (ascii : c.toNat ∈ List.range' 0x30 10) : p c := by
  have same : Char.ofNat c.toNat = c := Char.ofNat_toNat c
  rw [← same]
  exact holds _ ascii

theorem not_ascii_of_wide {c : Char} (wide : 128 ≤ c.toNat) : ¬ c.val < 128 :=
  fun low => absurd (UInt32.lt_iff_toNat_lt.mp low) (Nat.not_lt.mpr wide)

def covered : List Nat → List Nat → Bool
  | first :: last :: rest, zeros =>
    zeros.head?.all (first ≤ ·) && covered rest (zeros.dropWhile fun start => start + 9 ≤ last)
  | _, zeros => zeros.isEmpty

theorem digitFrom_dropWhile {n last : Nat} {zeros : List Nat} (digit : (digitFrom n zeros).isSome) :
    n ≤ last ∨ (digitFrom n (zeros.dropWhile fun start => start + 9 ≤ last)).isSome := by
  induction zeros with
  | nil => cases digit
  | cons start rest ih =>
    rw [List.dropWhile_cons]
    split
    · rename_i below
      rw [decide_eq_true_eq] at below
      obtain ⟨_, here | later⟩ := digitFrom_cons digit
      · exact .inl (by omega)
      · exact ih later
    · exact .inr digit

theorem within_of_covered {bounds zeros : List Nat} {n : Nat} (covers : covered bounds zeros)
    (digit : (digitFrom n zeros).isSome) : within bounds n := by
  fun_induction covered bounds zeros with
  | case1 first last rest zeros ih =>
    rw [Bool.and_eq_true] at covers
    have low : first ≤ n := by
      cases zeros with
      | nil => cases digit
      | cons start others =>
        have bound : first ≤ start := by simpa using covers.1
        exact Nat.le_trans bound (digitFrom_cons digit).1
    rw [within]
    rcases @digitFrom_dropWhile n last zeros digit with high | later
    · simp [low, high]
    · simp [low, ih covers.2 later]
  | case2 bounds zeros =>
    rw [List.isEmpty_iff.mp covers] at digit
    cases digit

theorem isWord_of_isDigit {c : Char} (digit : isDigit c) : isWord c := by
  rcases isDigit_cases digit with ascii | ⟨wide, digit⟩
  · exact of_ascii (by decide) ascii
  · unfold isWord
    rw [if_neg (not_ascii_of_wide wide)]
    exact within_of_covered (by decide +kernel) digit

theorem lower?_of_digitFrom {n : Nat} (digit : (digitFrom n wideZeros).isSome) :
    caseRuns.findSome? (·.lower? n) = none := by
  have apart : (caseRuns.all fun run => wideZeros.all fun start =>
      Nat.blt (start + 9) run.first || Nat.blt run.last start) = true := by decide +kernel
  obtain ⟨start, member, low, high⟩ := exists_of_digitFrom digit
  refine List.findSome?_eq_none_iff.mpr fun run inside => ?_
  have separate := List.all_eq_true.mp (List.all_eq_true.mp apart run inside) start member
  rw [Bool.or_eq_true, Nat.blt_eq, Nat.blt_eq] at separate
  unfold CaseRun.lower?
  rw [if_neg]
  intro within
  simp only [Bool.and_eq_true, decide_eq_true_eq] at within
  omega

theorem lowerChar_of_isDigit {c : Char} (digit : isDigit c) : lowerChar c = c := by
  rcases isDigit_cases digit with ascii | ⟨wide, digit⟩
  · exact of_decide_eq_true (of_ascii (p := fun c => lowerChar c = c) (by decide) ascii)
  · unfold lowerChar
    rw [if_neg (not_ascii_of_wide wide), lower?_of_digitFrom digit]
    rfl

theorem lowerAfter_of_fixed {t : Text} (fixed : ∀ c ∈ t, c ≠ 'İ' ∧ c ≠ 'Σ' ∧ lowerChar c = c) (before : Text) :
    lowerAfter before t = t := by
  induction t generalizing before with
  | nil => rfl
  | cons c rest ih =>
    obtain ⟨noDot, noSigma, same⟩ := fixed c (by simp)
    have others := ih (fun d member => fixed d (List.mem_cons_of_mem _ member)) (c :: before)
    rw [lowerAfter, if_neg noDot, if_neg noSigma, same, others]
    rfl

end Flipbook.Text
