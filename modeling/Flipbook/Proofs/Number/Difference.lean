import Flipbook.Proofs.Number.HalfUp

namespace Flipbook.Binary64

open Float.Model (UnpackedFloat Format totalExponent)
open Float.Model.UnpackedFloat

theorem mantissa_le_roundedMantissa (em : ExtendedMantissa) : em.mantissa ≤ em.roundedMantissa := by
  obtain ⟨mantissa, roundBit, stickyBit⟩ := em
  cases roundBit <;> cases stickyBit <;>
    simp only [ExtendedMantissa.roundedMantissa, ExtendedMantissa.accuracy, Accuracy.roundToNearestEven] <;> omega

theorem shiftToTarget_pos {mantissa : Nat} {exponent : Int} (positive : 0 < mantissa) (low : -1074 ≤ exponent) :
    ∃ em exponent', shiftToTargetExponent .binary64 mantissa exponent .exact = (em, exponent') ∧
      0 < em.mantissa ∧ em.mantissa < 2 ^ 53 ∧ -1074 ≤ exponent' := by
  obtain ⟨em, n, shifted, halved, short, least⟩ := shiftToTarget_spec mantissa exponent
  have whole : em.mantissa = mantissa / 2 ^ n := by
    have bit := Bool.toNat_lt em.roundBit
    have half : 2 * mantissa / 2 ^ n / 2 = mantissa / 2 ^ n := by
      rw [Nat.div_div_eq_div_mul, Nat.mul_comm (2 ^ n), Nat.mul_div_mul_left _ _ (by decide)]
    rw [← half, ← halved]
    unfold halves
    omega
  refine ⟨em, exponent + n, shifted, ?_, ?_, by omega⟩
  · rw [whole]
    apply Nat.div_pos _ (Nat.two_pow_pos n)
    apply (Nat.le_log2 positive.ne').mp
    omega
  · rw [whole, Nat.div_lt_iff_lt_mul (Nat.two_pow_pos n), ← Nat.pow_add]
    exact Nat.lt_log2_self.trans_le (Nat.pow_le_pow_right (by decide) (by omega))

theorem round_pos {mantissa : Nat} {exponent : Int} (positive : 0 < mantissa) (low : -1074 ≤ exponent) :
    ∃ rounded exponent' positive', round .binary64 .positive mantissa exponent =
      .finite .positive rounded exponent' positive' ∧ rounded < 2 ^ 53 ∧ -1074 ≤ exponent' := by
  have target (total : Int) : -1074 ≤ Format.binary64.targetExponent total := Int.le_max_right _ _
  unfold UnpackedFloat.round decreaseExponent
  simp only
  have least := target (totalExponent mantissa exponent)
  generalize Format.binary64.targetExponent _ = goal at least
  have decreased : -1074 ≤ exponent - (exponent - goal).toNat := by omega
  have widened : 0 < mantissa <<< (exponent - goal).toNat := by
    rw [Nat.shiftLeft_eq]
    exact Nat.mul_pos positive (Nat.two_pow_pos _)
  obtain ⟨em, exponent', first, above, -, low'⟩ := shiftToTarget_pos widened decreased
  obtain ⟨em', exponent'', second, above', short, low''⟩ :=
    shiftToTarget_pos (above.trans_le (mantissa_le_roundedMantissa em)) low'
  unfold roundWithAccuracy
  simp only [first, second]
  rw [dif_neg above'.ne']
  exact ⟨_, _, above', rfl, short, low''⟩

theorem toNat_pack_pos {mantissa : Nat} {exponent : Int} (positive : 0 < mantissa) (short : mantissa < 2 ^ 53)
    (low : -1074 ≤ exponent) :
    0 < (pack .binary64 (.finite .positive mantissa exponent positive)).toNat ∧
      (pack .binary64 (.finite .positive mantissa exponent positive)).toNat ≤ infinityBits := by
  rw [pack_finite]
  unfold infinityBits greatestExponent
  split
  · rw [toNat_packComponents, BitVec.toNat_ofNat]
    split
    · rw [BitVec.toNat_ofNat]
      omega
    · have size : mantissa.log2 < 53 := log2_lt_of_lt short (by decide)
      have below : mantissa < 2 ^ 52 := (Nat.log2_lt positive.ne').mp (by omega)
      change 0 < 0 * 2 ^ 52 + mantissa % 2 ^ 52 ∧ 0 * 2 ^ 52 + mantissa % 2 ^ 52 ≤ _
      omega
  · decide

theorem pos_of_bits {x : Float} (nonzero : 0 < bits x) (atMost : bits x ≤ infinityBits) : 0.0 < x := by
  rw [lt_iff_compare, unpack_zero]
  rcases atMost.lt_or_eq with unsigned | infinite
  · have compared := Reads.zero.compare (reads_bits unsigned)
    rw [compared, compare_lt_iff_lt.mpr nonzero]
    rfl
  · have written : x.toModel.toBits.toBitVec = .ofNat 64 infinityBits := BitVec.eq_of_toNat_eq infinite
    change (UnpackedFloat.compare _ (unpack .binary64 x.toModel.toBits.toBitVec) == some .lt) = true
    rw [written]
    rfl

theorem shiftLeft_lt {sign sign' : Sign} {mantissa mantissa' : Nat} {exponent exponent' : Int}
    {positive : 0 < mantissa} {positive' : 0 < mantissa'}
    (left : Canonical (.finite sign mantissa exponent positive))
    (right : Canonical (.finite sign' mantissa' exponent' positive'))
    (less : (exponent + 1074).toNat * 2 ^ 52 + mantissa < (exponent' + 1074).toNat * 2 ^ 52 + mantissa') :
    mantissa <<< (exponent - min exponent exponent').toNat <
      mantissa' <<< (exponent' - min exponent exponent').toNat := by
  obtain ⟨short, low, -, full⟩ := left
  obtain ⟨short', low', -, full'⟩ := right
  have ordered : exponent ≤ exponent' := by omega
  rw [min_eq_left ordered, sub_self, Nat.shiftLeft_eq, Nat.shiftLeft_eq]
  change mantissa * 1 < _
  rcases ordered.lt_or_eq with below | rfl
  · have doubled : mantissa' * 2 ^ 1 ≤ mantissa' * 2 ^ (exponent' - exponent).toNat :=
      Nat.mul_le_mul_left _ (Nat.pow_le_pow_right (by decide) (by omega))
    omega
  · rw [sub_self]
    change mantissa * 1 < mantissa' * 1
    omega

theorem bits_sub (x y : Float) :
    bits (x - y) = (pack .binary64 (sub .binary64 x.toModel.unpack y.toModel.unpack)).toNat := rfl

theorem toNat_pack_normalize_pos {mantissa exponent : Int} (positive : 0 < mantissa) (low : -1074 ≤ exponent)
    (sign : Sign) :
    0 < (pack .binary64 (normalize .binary64 mantissa exponent sign)).toNat ∧
      (pack .binary64 (normalize .binary64 mantissa exponent sign)).toNat ≤ infinityBits := by
  obtain ⟨rounded, exponent', positive', result, short, low'⟩ :=
    round_pos (show 0 < mantissa.toNat by omega) low
  unfold UnpackedFloat.normalize
  rw [compare_gt_iff_gt.mpr positive]
  simp only [result]
  exact toNat_pack_pos positive' short low'

theorem apply_sub_pos {sign sign' : Sign} {mantissa mantissa' : Nat} {exponent exponent' : Int}
    {positive : 0 < mantissa} {positive' : 0 < mantissa'}
    (left : Canonical (.finite sign mantissa exponent positive))
    (right : Canonical (.finite sign' mantissa' exponent' positive'))
    (less : place (.finite sign mantissa exponent positive) < place (.finite sign' mantissa' exponent' positive')) :
    0 < sign'.apply (mantissa' <<< (exponent' - min exponent' exponent).toNat : Nat) -
      sign.apply (mantissa <<< (exponent - min exponent' exponent).toNat : Nat) := by
  have widened (m n : Nat) (above : 0 < m) : 0 < m <<< n := by
    rw [Nat.shiftLeft_eq]
    exact Nat.mul_pos above (Nat.two_pow_pos n)
  have wide := widened mantissa (exponent - min exponent' exponent).toNat positive
  have wide' := widened mantissa' (exponent' - min exponent' exponent).toNat positive'
  cases sign with
  | negative =>
    cases sign' with
    | negative =>
      have magnitudes := shiftLeft_lt right left (by simp only [place, Sign.apply] at less; omega)
      simp only [Sign.apply]
      omega
    | positive =>
      simp only [Sign.apply]
      omega
  | positive =>
    cases sign' with
    | negative =>
      simp only [place, Sign.apply] at less
      omega
    | positive =>
      have magnitudes := shiftLeft_lt left right (by simp only [place, Sign.apply] at less; omega)
      rw [min_comm] at magnitudes
      simp only [Sign.apply]
      omega

theorem place_bounds {x : UnpackedFloat} (canonical : Canonical x) :
    -(infinityBits : Int) ≤ place x ∧ place x ≤ infinityBits := by
  have infinite : 0 < infinityBits := by decide
  cases x with
  | zero | notANumber =>
    simp only [place]
    omega
  | infinity sign => cases sign <;> simp only [place, Sign.apply] <;> omega
  | finite sign =>
    obtain ⟨n, above, below, placed⟩ := place_finite sign canonical
    rw [placed]
    cases sign <;> simp only [Sign.apply] <;> omega

theorem toNat_pack_sub_pos {x y : UnpackedFloat} (left : Canonical x) (right : Canonical y)
    (number : x ≠ .notANumber) (number' : y ≠ .notANumber) (less : place x < place y) :
    0 < (pack .binary64 (sub .binary64 y x)).toNat ∧ (pack .binary64 (sub .binary64 y x)).toNat ≤ infinityBits := by
  have infinite : 0 < (pack .binary64 (.infinity .positive)).toNat ∧
      (pack .binary64 (.infinity .positive)).toNat ≤ infinityBits := by decide
  cases y with
  | notANumber => exact absurd rfl number'
  | infinity sign' =>
    cases sign' with
    | negative => exact absurd less (place_bounds left).1.not_gt
    | positive =>
      cases x with
      | notANumber => exact absurd rfl number
      | zero | finite => exact infinite
      | infinity sign =>
        cases sign with
        | negative => exact infinite
        | positive => exact absurd less (lt_irrefl _)
  | zero =>
    cases x with
    | notANumber => exact absurd rfl number
    | infinity sign =>
      cases sign with
      | negative => exact infinite
      | positive => exact absurd less (show ¬(infinityBits : Int) < 0 by decide)
    | zero => exact absurd less (lt_irrefl _)
    | finite sign mantissa exponent positive =>
      obtain ⟨short, low, -⟩ := left
      cases sign with
      | negative => exact toNat_pack_pos positive short low
      | positive =>
        simp only [place, Sign.apply] at less
        omega
  | finite sign' mantissa' exponent' positive' =>
    -- only of two finite doubles the difference has to be rounded, and that does not bring it down to zero
    have low' := right.2.1
    cases x with
    | notANumber => exact absurd rfl number
    | infinity sign =>
      cases sign with
      | negative => exact infinite
      | positive => exact absurd less (place_bounds right).2.not_gt
    | zero =>
      cases sign' with
      | negative =>
        simp only [place, Sign.apply] at less
        omega
      | positive => exact toNat_pack_pos positive' right.1 low'
    | finite sign mantissa exponent positive =>
      have low := left.2.1
      exact toNat_pack_normalize_pos (apply_sub_pos left right less) (by omega) _

theorem sub_pos {x y : Float} (less : x < y) : 0.0 < y - x := by
  obtain ⟨number, number', ordered⟩ := lt_iff_rank.mp less
  obtain ⟨nonzero, atMost⟩ := toNat_pack_sub_pos (canonical x) (canonical y) number number' ordered
  rw [← bits_sub] at nonzero atMost
  exact pos_of_bits nonzero atMost

theorem eq_or_zero_of_compare {x y : UnpackedFloat} (same : x.compare y = some .eq) :
    x = y ∨ ∃ sign sign', x = .zero sign ∧ y = .zero sign' := by
  have magnitudes {exponent exponent' : Int} {mantissa mantissa' : Nat}
      (same : (compare exponent exponent').then (compare mantissa mantissa') = .eq) :
      exponent = exponent' ∧ mantissa = mantissa' := by
    obtain ⟨first, second⟩ := Ordering.then_eq_eq.mp same
    exact ⟨compare_eq_iff_eq.mp first, compare_eq_iff_eq.mp second⟩
  cases x with
  | notANumber => cases same
  | infinity sign =>
    cases y with
    | infinity sign' => cases sign <;> cases sign' <;> first | exact .inl rfl | cases same
    | notANumber | zero | finite => cases sign <;> cases same
  | zero sign =>
    cases y with
    | zero sign' => exact .inr ⟨sign, sign', rfl, rfl⟩
    | notANumber => cases same
    | infinity sign' | finite sign' => cases sign' <;> cases same
  | finite sign mantissa exponent positive =>
    cases y with
    | notANumber => cases sign <;> cases same
    | zero => cases sign <;> cases same
    | infinity sign' => cases sign <;> cases sign' <;> cases same
    | finite sign' mantissa' exponent' positive' =>
      cases sign with
      | negative =>
        cases sign' with
        | negative =>
          obtain ⟨rfl, rfl⟩ := magnitudes (Ordering.swap_eq_eq.mp (Option.some.inj same))
          exact .inl rfl
        | positive => cases same
      | positive =>
        cases sign' with
        | negative => cases same
        | positive =>
          obtain ⟨rfl, rfl⟩ := magnitudes (Option.some.inj same)
          exact .inl rfl

theorem sub_congr_of_beq {x y z : Float} (same : x == y) (less : z < y) : x - z = y - z := by
  apply Float.toBits_inj.mp
  apply UInt64.toNat_inj.mp
  show bits (x - z) = bits (y - z)
  rw [bits_sub, bits_sub]
  have compared : x.toModel.unpack.compare y.toModel.unpack = some .eq := beq_iff_eq.mp same
  rcases eq_or_zero_of_compare compared with equal | ⟨sign, sign', zero, zero'⟩
  · rw [equal]
  · rw [lt_iff_compare, zero'] at less
    rw [zero, zero']
    cases unpacked : z.toModel.unpack with
    | finite | infinity => rfl
    | zero | notANumber =>
      rw [unpacked] at less
      cases less

theorem fault?_sub (x y : Float) :
    fault? (x - y) = packedFault? (sub .binary64 x.toModel.unpack y.toModel.unpack) := by
  rw [fault?_eq, ← unpackedFault?_pack]
  rfl

theorem unpack_of_nonneg {x : Float} (finite : isFinite x) (above : 0.0 ≤ x) :
    (∃ sign, x.toModel.unpack = .zero sign) ∨
      ∃ mantissa exponent positive, x.toModel.unpack = .finite .positive mantissa exponent positive := by
  rw [← fault?_eq_none, fault?_eq] at finite
  rw [le_iff_compare, unpack_zero] at above
  cases unpacked : x.toModel.unpack with
  | zero sign => exact .inl ⟨sign, rfl⟩
  | infinity | notANumber =>
    rw [unpacked] at finite
    cases finite
  | finite sign mantissa exponent positive =>
    cases sign with
    | positive => exact .inr ⟨mantissa, exponent, positive, rfl⟩
    | negative =>
      rw [unpacked] at above
      cases above

theorem isFinite_of_mem_unit {x : Float} (above : 0.0 ≤ x) (below : x ≤ 1.0) : isFinite x := by
  obtain ⟨number, -, ordered⟩ := le_iff_rank.mp below
  have one : rank 1.0 = 1023 * 2 ^ 52 := by
    have written : (1.0 : Float).toBits = .ofNat (1023 * 2 ^ 52) := by decide +kernel
    change place (unpack .binary64 (1.0 : Float).toBits.toBitVec) = _
    rw [written]
    rfl
  rw [one] at ordered
  rw [← fault?_eq_none, fault?_eq]
  rw [le_iff_compare, unpack_zero] at above
  cases unpacked : x.toModel.unpack with
  | zero | finite => rfl
  | notANumber => exact absurd unpacked number
  | infinity sign =>
    unfold rank at ordered
    rw [unpacked] at above ordered
    cases sign with
    | negative => cases above
    | positive => exact absurd ordered (by decide)

theorem isFinite_sub {x y : Float} (finite : isFinite x) (finite' : isFinite y) (above : 0.0 ≤ x) (above' : 0.0 ≤ y) :
    isFinite (x - y) := by
  have bounds := canonical x
  have bounds' := canonical y
  rw [← fault?_eq_none, fault?_sub]
  rcases unpack_of_nonneg finite above with ⟨sign, unpacked⟩ | ⟨mantissa, exponent, positive, unpacked⟩
  · rcases unpack_of_nonneg finite' above' with ⟨sign', unpacked'⟩ | ⟨mantissa', exponent', positive', unpacked'⟩
    · rw [unpacked, unpacked']
      cases sign <;> cases sign' <;> rfl
    · rw [unpacked'] at bounds'
      rw [unpacked, unpacked']
      exact if_pos bounds'.2.2.1
  · rw [unpacked] at bounds
    rcases unpack_of_nonneg finite' above' with ⟨sign', unpacked'⟩ | ⟨mantissa', exponent', positive', unpacked'⟩
    · rw [unpacked, unpacked']
      exact if_pos bounds.2.2.1
    · rw [unpacked'] at bounds'
      obtain ⟨short, low, high, -⟩ := bounds
      obtain ⟨short', low', high', -⟩ := bounds'
      rw [unpacked, unpacked']
      apply packedFault?_normalize
      · omega
      · simp only [Nat.shiftLeft_eq, Sign.apply]
        have scaled {m : Nat} {e : Int} (short : m < 2 ^ 53) (high : e ≤ greatestExponent) :
            m * 2 ^ (e - min exponent exponent').toNat ≤
              (2 ^ 53 - 1) * 2 ^ (greatestExponent - min exponent exponent').toNat :=
          Nat.mul_le_mul (by omega) (Nat.pow_le_pow_right (by decide) (by omega))
        have left := scaled short high
        have right := scaled short' high'
        have unit := Nat.two_pow_pos (greatestExponent - min exponent exponent').toNat
        omega

theorem pack_round_one :
    pack .binary64 (roundWithAccuracy .binary64 .positive (2 ^ 53) (-53) .exact) = .ofNat 64 (1023 * 2 ^ 52) := by
  decide +kernel

theorem div_self {x : Float} (finite : isFinite x) (positive : 0.0 < x) : x / x = 1.0 := by
  obtain ⟨mantissa, exponent, nonzero, unpacked⟩ := unpack_of_pos finite positive
  have bits_div : bits (x / x) = (pack .binary64 (div .binary64 x.toModel.unpack x.toModel.unpack)).toNat := rfl
  have core : divCore .binary64 mantissa exponent mantissa exponent = (2 ^ 53, -53, .exact) := by
    unfold divCore
    rw [sub_self, sub_self]
    have goal : min (0 : Int) (Format.binary64.targetExponent 0) = -53 := by decide
    simp only [goal, Nat.shiftLeft_eq, Nat.mul_mod_right, Nat.mul_div_cancel_left _ nonzero]
    rfl
  have signs : Sign.positive / Sign.positive = .positive := rfl
  refine Float.toBits_inj.mp (UInt64.toNat_inj.mp (?_ : bits (x / x) = bits 1.0))
  rw [bits_div, unpacked, bits_one]
  unfold div
  simp only [core, signs, pack_round_one]
  rfl

end Flipbook.Binary64
