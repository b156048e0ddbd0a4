import Mathlib.Algebra.Order.Field.Power
import Mathlib.Algebra.Order.Floor.Ring
import Mathlib.Data.Int.Log
import Mathlib.Data.Rat.Floor
import Mathlib.Tactic.Linarith
import Mathlib.Tactic.NormNum
import Mathlib.Tactic.Ring

namespace Flipbook.Binary64

theorem two_zpow_pos (exponent : Int) : (0 : ℚ) < 2 ^ exponent := zpow_pos two_pos exponent

theorem two_zpow_split {exponent unit : Int} (less : unit ≤ exponent) :
    (2 : ℚ) ^ exponent = 2 ^ (exponent - unit).toNat * 2 ^ unit := by
  rw [← zpow_natCast, ← zpow_add₀ two_ne_zero]
  congr 1
  omega

def nearestEven (w : ℚ) : Int :=
  if Int.fract w < 1 / 2 then ⌊w⌋ else if 1 / 2 < Int.fract w then ⌊w⌋ + 1 else ⌊w⌋ + ⌊w⌋ % 2

theorem nearestEven_cases (w : ℚ) :
    Int.fract w < 1 / 2 ∧ nearestEven w = ⌊w⌋ ∨ 1 / 2 < Int.fract w ∧ nearestEven w = ⌊w⌋ + 1 ∨
      Int.fract w = 1 / 2 ∧ nearestEven w = ⌊w⌋ + ⌊w⌋ % 2 := by
  unfold nearestEven
  rcases lt_trichotomy (Int.fract w) (1 / 2) with below | tie | above
  · exact .inl ⟨below, if_pos below⟩
  · rw [if_neg tie.not_lt, if_neg tie.symm.not_lt]
    exact .inr (.inr ⟨tie, rfl⟩)
  · rw [if_neg above.not_gt, if_pos above]
    exact .inr (.inl ⟨above, rfl⟩)

theorem le_nearestEven_iff {n : Int} {w : ℚ} : n ≤ nearestEven w ↔ n - 1 / 2 < w ∨ w = n - 1 / 2 ∧ Even n := by
  have whole := Int.floor_add_fract w
  have above := Int.fract_nonneg w
  have below := Int.fract_lt_one w
  rcases nearestEven_cases w with ⟨less, nearest⟩ | ⟨more, nearest⟩ | ⟨tie, nearest⟩
  · rw [nearest]
    constructor
    · intro atMost
      have atMost' : (n : ℚ) ≤ ⌊w⌋ := Int.cast_le.mpr atMost
      exact .inl (by linarith)
    · intro reached
      have short : (n : ℚ) < (⌊w⌋ + 1 : Int) := by
        push_cast
        rcases reached with near | ⟨half, -⟩ <;> linarith
      exact Int.lt_add_one_iff.mp (Int.cast_lt.mp short)
  · rw [nearest]
    constructor
    · intro atMost
      have atMost' : (n : ℚ) ≤ (⌊w⌋ + 1 : Int) := Int.cast_le.mpr atMost
      push_cast at atMost'
      exact .inl (by linarith)
    · intro reached
      have short : (n : ℚ) < (⌊w⌋ + 2 : Int) := by
        push_cast
        rcases reached with near | ⟨half, -⟩ <;> linarith
      have short' := Int.cast_lt.mp short
      omega
  · -- in the middle it is the parity that tells which of the two neighbours is taken
    rw [nearest]
    constructor
    · intro atMost
      rcases le_or_gt n ⌊w⌋ with low | high
      · have low' : (n : ℚ) ≤ ⌊w⌋ := Int.cast_le.mpr low
        exact .inl (by linarith)
      · have next : n = ⌊w⌋ + 1 := by omega
        have next' : (n : ℚ) = ⌊w⌋ + 1 := by exact_mod_cast next
        exact .inr ⟨by linarith, Int.even_iff.mpr (by omega)⟩
    · intro reached
      rcases reached with near | ⟨half, even⟩
      · have short : (n : ℚ) < (⌊w⌋ + 1 : Int) := by
          push_cast
          linarith
        have short' := Int.cast_lt.mp short
        omega
      · have next : (n : ℚ) = (⌊w⌋ + 1 : Int) := by
          push_cast
          linarith
        have next' := Int.cast_inj.mp next
        have even' := Int.even_iff.mp even
        omega

theorem nearestEven_le_iff {n : Int} {w : ℚ} : nearestEven w ≤ n ↔ w < n + 1 / 2 ∨ w = n + 1 / 2 ∧ Even n := by
  have missed : nearestEven w ≤ n ↔ ¬n + 1 ≤ nearestEven w := by omega
  have middle : ((n + 1 : Int) : ℚ) - 1 / 2 = n + 1 / 2 := by
    push_cast
    ring
  rw [missed, le_nearestEven_iff, middle, Int.even_add_one]
  generalize (n : ℚ) + 1 / 2 = middle
  rcases lt_trichotomy w middle with below | tie | above
  · simp [below, below.not_gt, below.ne]
  · simp [tie]
  · simp [above, above.not_gt, above.ne']

theorem nearestEven_neg (w : ℚ) : nearestEven (-w) = -nearestEven w := by
  refine eq_of_forall_le_iff fun n => ?_
  rw [le_neg, le_nearestEven_iff, nearestEven_le_iff, even_neg]
  push_cast
  constructor
  · intro reached
    rcases reached with near | ⟨half, even⟩
    · exact .inl (by linarith)
    · exact .inr ⟨by linarith, even⟩
  · intro reached
    rcases reached with near | ⟨half, even⟩
    · exact .inl (by linarith)
    · exact .inr ⟨by linarith, even⟩

theorem le_nearestEven {n : Int} {w : ℚ} (less : n ≤ w) : n ≤ nearestEven w := by
  rw [le_nearestEven_iff]
  exact .inl (by linarith)

theorem nearestEven_le {n : Int} {w : ℚ} (less : w ≤ n) : nearestEven w ≤ n := by
  rw [nearestEven_le_iff]
  exact .inl (by linarith)

theorem nearestEven_intCast (n : Int) : nearestEven n = n :=
  le_antisymm (nearestEven_le le_rfl) (le_nearestEven le_rfl)

theorem nearestEven_add {n : Int} {d : ℚ} (near : |d| < 1 / 2) : nearestEven (n + d) = n := by
  obtain ⟨low, high⟩ := abs_lt.mp near
  apply le_antisymm
  · rw [nearestEven_le_iff]
    exact .inl (by linarith)
  · rw [le_nearestEven_iff]
    exact .inl (by linarith)

theorem nearestEven_add_half (n : Int) : nearestEven (n + 1 / 2) = n + n % 2 := by
  rcases Int.emod_two_eq_zero_or_one n with even | odd
  · rw [even, add_zero]
    apply le_antisymm
    · rw [nearestEven_le_iff]
      exact .inr ⟨rfl, Int.even_iff.mpr even⟩
    · exact le_nearestEven (by norm_num)
  · rw [odd]
    apply le_antisymm
    · exact nearestEven_le (by push_cast; linarith)
    · rw [le_nearestEven_iff]
      refine .inr ⟨by push_cast; ring, ?_⟩
      exact Int.even_add_one.mpr (Int.not_even_iff.mpr odd)

theorem nearestEven_sub_half (n : Int) : nearestEven (n - 1 / 2) = n - n % 2 := by
  have mirrored := nearestEven_add_half (-n)
  rw [show ((-n : Int) : ℚ) + 1 / 2 = -(n - 1 / 2) by push_cast; ring, nearestEven_neg] at mirrored
  omega

theorem abs_nearestEven_sub_le (w : ℚ) : |nearestEven w - w| ≤ 1 / 2 := by
  have low : nearestEven w ≤ nearestEven w := le_rfl
  have high := low
  rw [nearestEven_le_iff] at low
  rw [le_nearestEven_iff] at high
  rw [abs_le]
  constructor
  · rcases low with near | ⟨half, -⟩ <;> linarith
  · rcases high with near | ⟨half, -⟩ <;> linarith

/-- The exponent of the last place of a double about as great as `v`, whatever its size. -/
def lastPlace (v : ℚ) : Int := max (-1074) (Int.log 2 |v| - 52)

theorem lastPlace_neg (v : ℚ) : lastPlace (-v) = lastPlace v := by
  unfold lastPlace
  rw [abs_neg]

theorem low_lastPlace (v : ℚ) : -1074 ≤ lastPlace v := le_max_left ..

theorem abs_lt_of_lastPlace (v : ℚ) : |v| < 2 ^ (lastPlace v + 53) := by
  refine (Int.lt_zpow_succ_log_self (b := 2) (by decide) |v|).trans_le ?_
  push_cast
  refine zpow_le_zpow_right₀ (by norm_num) ?_
  unfold lastPlace
  omega

theorem lastPlace_eq_or_le {v : ℚ} (nonzero : v ≠ 0) : lastPlace v = -1074 ∨ 2 ^ (lastPlace v + 52) ≤ |v| := by
  have log := Int.zpow_log_le_self (b := 2) (by decide) (abs_pos.mpr nonzero)
  push_cast at log
  rcases le_total (Int.log 2 |v| - 52) (-1074) with low | high
  · exact .inl (max_eq_left low)
  · refine .inr ?_
    unfold lastPlace
    rwa [max_eq_right high, sub_add_cancel]

theorem le_lastPlace {v : ℚ} {k : Int} (positive : 0 < v) (reached : 2 ^ k ≤ v) : max (k - 52) (-1074) ≤ lastPlace v := by
  have log := (Int.zpow_le_iff_le_log (b := 2) (by decide) positive).mp (by push_cast; exact reached)
  unfold lastPlace
  rw [abs_of_pos positive]
  omega

theorem lastPlace_le {v : ℚ} {k : Int} (nonzero : v ≠ 0) (low : -1074 ≤ k) (short : |v| < 2 ^ (k + 53)) :
    lastPlace v ≤ k := by
  have log : Int.log 2 |v| < k + 53 :=
    (Int.lt_zpow_iff_log_lt (by decide) (abs_pos.mpr nonzero)).mp (by exact_mod_cast short)
  unfold lastPlace
  omega

theorem lastPlace_eq {v : ℚ} {k : Int} (nonzero : v ≠ 0) (low : -1074 ≤ k) (short : |v| < 2 ^ (k + 53))
    (full : k = -1074 ∨ 2 ^ (k + 52) ≤ |v|) : lastPlace v = k := by
  apply le_antisymm (lastPlace_le nonzero low short)
  rcases full with rfl | full
  · exact low_lastPlace v
  · have log : k + 52 ≤ Int.log 2 |v| :=
      (Int.zpow_le_iff_le_log (by decide) (abs_pos.mpr nonzero)).mp (by exact_mod_cast full)
    unfold lastPlace
    omega

theorem lastPlace_eq_of_pos {v : ℚ} {k : Int} (positive : 0 < v) (low : -1074 ≤ k) (short : v < 2 ^ (k + 53))
    (full : k = -1074 ∨ 2 ^ (k + 52) ≤ v) : lastPlace v = k := by
  rw [← abs_of_pos positive] at short full
  exact lastPlace_eq positive.ne' low short full

def IsDouble (v : ℚ) : Prop := ∃ mantissa exponent : Int, |mantissa| < 2 ^ 53 ∧ -1074 ≤ exponent ∧
  v = mantissa * 2 ^ exponent

theorem isDouble_zero : IsDouble 0 := ⟨0, 0, by decide, by decide, by norm_num⟩

theorem isDouble_one : IsDouble 1 := ⟨1, 0, by decide, by decide, by norm_num⟩

/-- The number that `v` is rounded to, whatever its size. -/
def rounding (v : ℚ) : ℚ := nearestEven (v / 2 ^ lastPlace v) * 2 ^ lastPlace v

theorem rounding_zero : rounding 0 = 0 := by
  have none : nearestEven 0 = 0 := by decide +kernel
  unfold rounding
  rw [zero_div, none, Int.cast_zero, zero_mul]

theorem rounding_neg (v : ℚ) : rounding (-v) = -rounding v := by
  unfold rounding
  rw [lastPlace_neg, neg_div, nearestEven_neg, Int.cast_neg, neg_mul]

theorem le_rounding_of_multiple {v : ℚ} {n : Int} (less : n * 2 ^ lastPlace v ≤ v) :
    n * 2 ^ lastPlace v ≤ rounding v := by
  have unit := two_zpow_pos (lastPlace v)
  have reached : n ≤ nearestEven (v / 2 ^ lastPlace v) := le_nearestEven ((le_div_iff₀ unit).mpr less)
  exact mul_le_mul_of_nonneg_right (Int.cast_le.mpr reached) unit.le

theorem IsDouble.neg {y : ℚ} (double : IsDouble y) : IsDouble (-y) := by
  obtain ⟨mantissa, exponent, short, low, rfl⟩ := double
  exact ⟨-mantissa, exponent, by rwa [abs_neg], low, by rw [Int.cast_neg, neg_mul]⟩

theorem IsDouble.abs {y : ℚ} (double : IsDouble y) : IsDouble |y| := by
  rcases abs_choice y with same | opposite
  · rwa [same]
  · rw [opposite]
    exact double.neg

/-- A double that `v` is not below is not passed. -/
theorem le_rounding {y v : ℚ} (double : IsDouble y) (less : y ≤ v) : y ≤ rounding v := by
  obtain ⟨mantissa, exponent, short, low, rfl⟩ := double
  rcases eq_or_ne v 0 with rfl | nonzero
  · rwa [rounding_zero]
  rcases le_or_gt (lastPlace v) exponent with fine | coarse
  · -- the double is a multiple of the last place
    have multiple : (mantissa : ℚ) * 2 ^ exponent =
        (mantissa * 2 ^ (exponent - lastPlace v).toNat : Int) * 2 ^ lastPlace v := by
      rw [two_zpow_split fine]
      push_cast
      ring
    rw [multiple] at less ⊢
    exact le_rounding_of_multiple less
  · -- the double has a lesser magnitude than the power of two below `v`
    have power : (2 : ℚ) ^ (lastPlace v + 52) = (2 ^ 52 : Int) * 2 ^ lastPlace v := by
      rw [zpow_add₀ two_ne_zero, mul_comm]
      norm_num
    have size : (2 : ℚ) ^ (lastPlace v + 52) ≤ |v| := (lastPlace_eq_or_le nonzero).resolve_left (by omega)
    have small : |(mantissa : ℚ) * 2 ^ exponent| < 2 ^ (lastPlace v + 52) := by
      have short' : |(mantissa : ℚ)| < 2 ^ 53 := by exact_mod_cast short
      rw [abs_mul, abs_of_pos (two_zpow_pos exponent)]
      calc
        |(mantissa : ℚ)| * 2 ^ exponent < 2 ^ 53 * 2 ^ exponent :=
          mul_lt_mul_of_pos_right short' (two_zpow_pos exponent)
        _ = 2 ^ (exponent + 53) := by rw [zpow_add₀ two_ne_zero, mul_comm]; norm_num
        _ ≤ 2 ^ (lastPlace v + 52) := zpow_le_zpow_right₀ (by norm_num) (by omega)
    rcases lt_or_gt_of_ne nonzero with negative | positive
    · rw [abs_of_neg negative] at size
      have contained := abs_lt.mp small
      linarith
    · rw [abs_of_pos positive] at size
      refine (le_abs_self _).trans (small.le.trans ?_)
      rw [power] at size ⊢
      exact le_rounding_of_multiple size

theorem rounding_le {y v : ℚ} (double : IsDouble y) (less : v ≤ y) : rounding v ≤ y := by
  have mirrored := le_rounding double.neg (neg_le_neg less)
  rw [rounding_neg] at mirrored
  exact neg_le_neg_iff.mp mirrored

theorem rounding_of_isDouble {v : ℚ} (double : IsDouble v) : rounding v = v :=
  le_antisymm (rounding_le double le_rfl) (le_rounding double le_rfl)

theorem abs_rounding_sub_le (v : ℚ) : |rounding v - v| ≤ 2 ^ lastPlace v / 2 := by
  have unit := two_zpow_pos (lastPlace v)
  have scaled : rounding v - v = (nearestEven (v / 2 ^ lastPlace v) - v / 2 ^ lastPlace v) * 2 ^ lastPlace v := by
    unfold rounding
    rw [sub_mul, div_mul_cancel₀ _ unit.ne']
  rw [scaled, abs_mul, abs_of_pos unit]
  calc
    |nearestEven (v / 2 ^ lastPlace v) - v / 2 ^ lastPlace v| * 2 ^ lastPlace v ≤ 1 / 2 * 2 ^ lastPlace v :=
      mul_le_mul_of_nonneg_right (abs_nearestEven_sub_le _) unit.le
    _ = 2 ^ lastPlace v / 2 := by ring

end Flipbook.Binary64
