import Flipbook.Proofs.Number.RoundedRatio

namespace Flipbook.Binary64

/-- The next integer after `v` is so near that `v` is rounded to it. -/
def ReachesNext (v : ℚ) : Prop := ⌊v⌋₊ + 1 - v < 2 ^ ⌊v⌋₊.log2 / 2 ^ 53

instance (v : ℚ) : Decidable (ReachesNext v) := inferInstanceAs (Decidable (_ < _))

theorem isDouble_of_le {n : Nat} (short : n ≤ 2 ^ 53) : IsDouble n := by
  rcases short.lt_or_eq with fits | rfl
  · exact ⟨n, 0, by rw [Nat.abs_cast]; exact_mod_cast fits, by decide, by simp⟩
  · exact ⟨2 ^ 52, 1, by decide, by decide, by norm_num⟩

theorem odd_le_mantissa {m n c : Nat} {a b : Int} (positive : 0 < m) (odd : Odd c)
    (same : (m : ℚ) * 2 ^ a = c * n * 2 ^ b) : c ≤ m := by
  have whole : m * 2 ^ (a - min a b).toNat = c * (n * 2 ^ (b - min a b).toNat) := by
    rw [two_zpow_split (min_le_left a b), two_zpow_split (min_le_right a b), ← mul_assoc, ← mul_assoc] at same
    have cancelled := mul_right_cancel₀ (two_zpow_pos (min a b)).ne' same
    rw [mul_assoc (c : ℚ)] at cancelled
    exact_mod_cast cancelled
  have coprime : Nat.Coprime c (2 ^ (a - min a b).toNat) := (Nat.coprime_two_right.mpr odd).pow_right _
  exact Nat.le_of_dvd positive (coprime.dvd_of_dvd_mul_right ⟨_, whole⟩)

theorem div_ne_midpoint {x y : Float} (unsigned : Unsigned x) (unsigned' : Unsigned y) (nonzero : value y ≠ 0)
    {c : Nat} (odd : Odd c) (long : 2 ^ 53 ≤ c) (exponent : Int) : value x / value y ≠ c * 2 ^ exponent := by
  obtain ⟨m, e, shape, short, -⟩ := parts_of_unsigned unsigned
  obtain ⟨n, f, shape', -⟩ := parts_of_unsigned unsigned'
  have number : value x = m * 2 ^ e := value_of_parts shape
  have number' : value y = n * 2 ^ f := value_of_parts shape'
  intro same
  have some : (0 : ℚ) < c * 2 ^ exponent := mul_pos (Nat.cast_pos.mpr (by omega)) (two_zpow_pos exponent)
  have product : (m : ℚ) * 2 ^ e = c * n * 2 ^ (f + exponent) := by
    rw [div_eq_iff nonzero, number, number'] at same
    rw [same, zpow_add₀ two_ne_zero]
    ring
  have positive : 0 < m := by
    apply Nat.pos_of_ne_zero
    rintro rfl
    rw [number, Nat.cast_zero, zero_mul, zero_div] at same
    exact some.ne same
  have long' := odd_le_mantissa positive odd product
  omega

theorem div_two_pow_le_sub {x y : Float} (unsigned : Unsigned x) (unsigned' : Unsigned y) (less : value x < value y) :
    value y / 2 ^ 53 ≤ value y - value x := by
  obtain ⟨m, e, shape, short, -⟩ := parts_of_unsigned unsigned
  obtain ⟨n, f, shape', short', -⟩ := parts_of_unsigned unsigned'
  have left := value_in_units shape (min_le_left e f)
  have right := value_in_units shape' (min_le_right e f)
  have fits : m * pow2 (e - min e f).toNat < 2 ^ 53 ∨ n * pow2 (f - min e f).toNat < 2 ^ 53 := by
    rcases le_total e f with low | high
    · have own : (e - min e f).toNat = 0 := by omega
      rw [own, show m * pow2 0 = m from mul_one m]
      exact .inl short
    · have own : (f - min e f).toNat = 0 := by omega
      rw [own, show n * pow2 0 = n from mul_one n]
      exact .inr short'
  have power := two_zpow_pos (min e f)
  generalize m * pow2 (e - min e f).toNat = M at left fits
  generalize n * pow2 (f - min e f).toNat = N at right fits
  rw [left, right] at less ⊢
  have order : M < N := by exact_mod_cast (mul_lt_mul_iff_left₀ power).mp less
  have share : N ≤ (N - M) * 2 ^ 53 := by omega
  rw [← sub_mul, div_le_iff₀ (by norm_num), mul_right_comm]
  refine mul_le_mul_of_nonneg_right ?_ power.le
  rw [← Nat.cast_sub order.le]
  exact_mod_cast share

variable {x y : Float}

theorem value_nonneg (unsigned : Unsigned x) : 0 ≤ value x := by
  obtain ⟨m, e, shape, -⟩ := parts_of_unsigned unsigned
  rw [value_of_parts shape]
  exact mul_nonneg (Nat.cast_nonneg m) (two_zpow_pos e).le

theorem floor_rounding_mem {v : ℚ} (above : 0 ≤ v) (small : ⌊v⌋₊ < 2 ^ 53) :
    (⌊v⌋₊ : Int) ≤ ⌊rounding v⌋ ∧ ⌊rounding v⌋ ≤ ⌊v⌋₊ + 1 := by
  have low : (⌊v⌋₊ : ℚ) ≤ rounding v := le_rounding (isDouble_of_le small.le) (Nat.floor_le above)
  have high : rounding v ≤ (⌊v⌋₊ + 1 : Nat) := by
    apply rounding_le (isDouble_of_le small)
    exact_mod_cast (Nat.lt_floor_add_one v).le
  refine ⟨Int.le_floor.mpr (by exact_mod_cast low), ?_⟩
  have floored := Int.floor_le_floor high
  rw [Int.floor_natCast] at floored
  exact_mod_cast floored

theorem lastPlace_of_floor {v : ℚ} (above : 0 ≤ v) (some : 0 < ⌊v⌋₊) : lastPlace v = (⌊v⌋₊.log2 : Int) - 52 := by
  have low : (2 : ℚ) ^ ⌊v⌋₊.log2 ≤ v :=
    le_trans (by exact_mod_cast Nat.log2_self_le some.ne') (Nat.floor_le above)
  have high : v < 2 ^ (⌊v⌋₊.log2 + 1) :=
    (Nat.lt_floor_add_one v).trans_le (by exact_mod_cast Nat.lt_log2_self)
  have positive : 0 < v := lt_of_lt_of_le (by positivity) low
  apply lastPlace_eq_of_pos positive (by omega)
  · refine high.trans_le ?_
    rw [← zpow_natCast]
    exact zpow_le_zpow_right₀ (by norm_num) (by omega)
  · rw [sub_add_cancel, zpow_natCast]
    exact .inr low

theorem next_le_rounding_iff (unsigned : Unsigned x) (unsigned' : Unsigned y) (positive : 0 < value y)
    (some : 0 < ⌊value x / value y⌋₊) (small : ⌊value x / value y⌋₊ < 2 ^ 53) :
    (⌊value x / value y⌋₊ + 1 : ℚ) ≤ rounding (value x / value y) ↔ ReachesNext (value x / value y) := by
  have above : 0 ≤ value x / value y := div_nonneg (value_nonneg unsigned) positive.le
  have placed := lastPlace_of_floor above some
  have midpoint (c : Nat) := @div_ne_midpoint x y unsigned unsigned' positive.ne' c
  unfold ReachesNext rounding
  generalize value x / value y = v at *
  have size := log2_lt_of_lt small (by decide)
  have reached := Nat.log2_self_le some.ne'
  generalize ⌊v⌋₊ = q at *
  generalize lastPlace v = last at placed ⊢
  have unit : (2 : ℚ) ^ (52 - q.log2) * 2 ^ last = 1 := by
    rw [placed, ← zpow_natCast, ← zpow_add₀ two_ne_zero]
    have none : ((52 - q.log2 : Nat) : Int) + (q.log2 - 52) = 0 := by omega
    rw [none, zpow_zero]
  have half : (2 : ℚ) ^ last / 2 = 2 ^ q.log2 / 2 ^ 53 := by
    rw [placed, zpow_sub₀ two_ne_zero, zpow_natCast]
    norm_num [div_div]
  have power := two_zpow_pos (last)
  -- the next integer in units of the last place
  have next : (q + 1 : ℚ) = ((q + 1) * 2 ^ (52 - q.log2) : Nat) * 2 ^ last := by
    push_cast
    rw [mul_assoc, unit, mul_one]
  have long : 2 ^ 53 ≤ 2 * ((q + 1) * 2 ^ (52 - q.log2)) - 1 := by
    have grown : 2 ^ q.log2 * 2 ^ (52 - q.log2) ≤ q * 2 ^ (52 - q.log2) := Nat.mul_le_mul_right _ reached
    rw [← Nat.pow_add, show q.log2 + (52 - q.log2) = 52 by omega] at grown
    have one := Nat.two_pow_pos (52 - q.log2)
    rw [Nat.add_mul]
    omega
  generalize (q + 1) * 2 ^ (52 - q.log2) = n at next long
  have scaled : (n : ℚ) * 2 ^ last ≤ nearestEven (v / 2 ^ last) * 2 ^ last ↔
      (n : Int) ≤ nearestEven (v / 2 ^ last) := by
    rw [mul_le_mul_iff_left₀ power]
    exact_mod_cast Iff.rfl
  rw [next, scaled, le_nearestEven_iff, ← half]
  constructor
  · intro near
    rcases near with below | ⟨tie, -⟩
    · rw [lt_div_iff₀ power] at below
      push_cast at below
      linarith
    · exfalso
      have odd : Odd (2 * n - 1) := ⟨n - 1, by omega⟩
      apply midpoint (2 * n - 1) odd long (last - 1)
      rw [div_eq_iff power.ne'] at tie
      rw [tie, zpow_sub_one₀ two_ne_zero, Nat.cast_sub (by omega)]
      push_cast
      ring
  · intro near
    refine .inl ?_
    rw [lt_div_iff₀ power]
    push_cast
    linarith

theorem below_one (unsigned : Unsigned x) (unsigned' : Unsigned y) (positive : 0 < value y)
    (none : ⌊value x / value y⌋₊ = 0) :
    rounding (value x / value y) < 1 ∧ ¬ReachesNext (value x / value y) := by
  have less : value x < value y := by
    rw [Nat.floor_eq_zero, div_lt_one positive] at none
    exact none
  have apart := div_two_pow_le_sub unsigned unsigned' less
  have share : value x / value y ≤ ((2 ^ 53 - 1 : Int) : ℚ) * 2 ^ (-53 : Int) := by
    rw [div_le_iff₀ positive]
    norm_num at apart ⊢
    linarith
  constructor
  · refine (rounding_le ⟨2 ^ 53 - 1, -53, by decide, by decide, rfl⟩ share).trans_lt ?_
    norm_num
  · unfold ReachesNext
    rw [none]
    norm_num at share ⊢
    linarith

/-- The whole part of a rounded quotient is that of the exact one, or the next integer if that is reached. -/
theorem floor_rounding_div (unsigned : Unsigned x) (unsigned' : Unsigned y) (positive : 0 < value y)
    (small : ⌊value x / value y⌋₊ < 2 ^ 53) : ⌊rounding (value x / value y)⌋ =
      (⌊value x / value y⌋₊ : Int) + if ReachesNext (value x / value y) then 1 else 0 := by
  obtain ⟨low, high⟩ := floor_rounding_mem (div_nonneg (value_nonneg unsigned) positive.le) small
  have next : (⌊value x / value y⌋₊ : Int) + 1 ≤ ⌊rounding (value x / value y)⌋ ↔ ReachesNext (value x / value y) := by
    rw [Int.le_floor]
    push_cast
    rcases Nat.eq_zero_or_pos ⌊value x / value y⌋₊ with none | some
    · obtain ⟨below, apart⟩ := below_one unsigned unsigned' positive none
      rw [none, Nat.cast_zero, zero_add]
      exact iff_of_false below.not_ge apart
    · exact next_le_rounding_iff unsigned unsigned' positive some small
  split
  · rename_i reached
    exact le_antisymm high (next.mpr reached)
  · rename_i missed
    have short := mt next.mp missed
    omega

theorem even_floor_rounding {v : ℚ} (great : 2 ^ 53 ≤ ⌊v⌋₊) : Even ⌊rounding v⌋ := by
  have above : 0 ≤ v := Nat.pos_of_floor_pos (lt_of_lt_of_le (by decide) great) |>.le
  have reached : (2 : ℚ) ^ (53 : Int) ≤ v := by
    refine le_trans ?_ (Nat.floor_le above)
    exact_mod_cast great
  have last := le_lastPlace (lt_of_lt_of_le (by norm_num) reached) reached
  obtain ⟨n, placed⟩ : ∃ n : Nat, lastPlace v = ((n + 1 : Nat) : Int) := ⟨(lastPlace v - 1).toNat, by omega⟩
  have whole : rounding v = (nearestEven (v / 2 ^ lastPlace v) * 2 ^ n + nearestEven (v / 2 ^ lastPlace v) * 2 ^ n : Int) := by
    unfold rounding
    generalize nearestEven _ = k
    rw [placed, zpow_natCast, pow_succ]
    push_cast
    ring
  rw [whole, Int.floor_intCast]
  exact ⟨_, rfl⟩

theorem isDouble_two_zpow {k : Int} (low : -1022 ≤ k) : IsDouble (2 ^ k) := by
  refine ⟨2 ^ 52, k - 52, by decide, by omega, ?_⟩
  rw [zpow_sub₀ two_ne_zero]
  exact (mul_div_cancel₀ _ (by norm_num)).symm

theorem rounding_lt_zpow_iff {v : ℚ} {k : Int} (low : -1074 ≤ k) :
    rounding v < 2 ^ (k + 53) ↔ v < 2 ^ (k + 53) - 2 ^ (k - 1) := by
  have unit := two_zpow_pos (k - 1)
  have place : (2 : ℚ) ^ k = 2 * 2 ^ (k - 1) := by rw [zpow_sub_one₀ two_ne_zero]; ring
  have lesser : (2 : ℚ) ^ (k + 52) = 2 ^ 53 * 2 ^ (k - 1) := by
    rw [zpow_add₀ two_ne_zero, place]
    norm_num
    ring
  have limit : (2 : ℚ) ^ (k + 53) = 2 ^ 54 * 2 ^ (k - 1) := by
    rw [zpow_add₀ two_ne_zero, place]
    norm_num
    ring
  rcases lt_or_ge v (2 ^ (k + 52)) with below | high
  · have small := rounding_le (isDouble_two_zpow (by omega)) below.le
    rw [limit]
    rw [lesser] at small below
    exact iff_of_true (by linarith) (by linarith)
  rcases le_or_gt (2 ^ (k + 53)) v with beyond | within
  · have great := le_rounding (isDouble_two_zpow (by omega)) beyond
    exact iff_of_false great.not_gt (by linarith)
  have positive : 0 < v := (two_zpow_pos _).trans_le high
  have placed : lastPlace v = k := lastPlace_eq_of_pos positive low within (.inr high)
  have carry : rounding v < 2 ^ (k + 53) ↔ nearestEven (v / 2 ^ k) < 2 ^ 53 := by
    rw [rounding, placed, ← lt_div_iff₀ (two_zpow_pos k), ← zpow_sub₀ two_ne_zero, add_sub_cancel_left]
    exact_mod_cast Iff.rfl
  have even : Even (2 ^ 53 : Int) := by decide
  rw [carry, ← not_le, le_nearestEven_iff, lt_div_iff₀ (two_zpow_pos k), div_eq_iff (two_zpow_pos k).ne', limit, place]
  rw [and_iff_left even]
  push_cast
  constructor
  · intro far
    rw [not_or, not_lt] at far
    have strict := lt_of_le_of_ne far.1 far.2
    linarith
  · intro less
    rw [not_or, not_lt]
    exact ⟨by linarith, by linarith⟩

theorem rounding_lt_iff {v : ℚ} : rounding v < 2 ^ 1024 ↔ v < 2 ^ 1024 - 2 ^ 970 :=
  rounding_lt_zpow_iff (show -1074 ≤ 971 by decide)

end Flipbook.Binary64
