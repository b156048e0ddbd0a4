import Flipbook.Proofs.Number.NearestEven
import Flipbook.Proofs.Number.Value

namespace Flipbook.Binary64

open Float.Model (UnpackedFloat Format totalExponent)
open Float.Model.UnpackedFloat

/-- The mantissa and its round bit are `w` in halves, and the sticky bit says whether something is left over. -/
def StandsFor (em : ExtendedMantissa) (w : ℚ) : Prop :=
  if em.stickyBit then (halves em : ℚ) < 2 * w ∧ 2 * w < halves em + 1 else 2 * w = halves em

namespace StandsFor

variable {em : ExtendedMantissa} {w : ℚ}

theorem shiftRightOne (stands : StandsFor em w) : StandsFor em.shiftRightOne (w / 2) := by
  have halved : halves em.shiftRightOne = em.mantissa := by
    rw [halves_shiftRightOne]
    have bit := Bool.toNat_lt em.roundBit
    unfold halves
    omega
  have doubled : 2 * (w / 2) = w := by ring
  obtain ⟨mantissa, roundBit, stickyBit⟩ := em
  unfold StandsFor at stands ⊢
  rw [halved, doubled]
  cases roundBit <;> cases stickyBit <;>
    simp [halves, ExtendedMantissa.shiftRightOne] at stands ⊢ <;>
    first | exact ⟨by linarith, by linarith⟩ | linarith

theorem shiftRight (stands : StandsFor em w) (n : Nat) : StandsFor (em >>> n) (w / 2 ^ n) := by
  change StandsFor (n.repeat ExtendedMantissa.shiftRightOne em) _
  induction n with
  | zero => rwa [pow_zero, div_one]
  | succ n ih =>
    rw [pow_succ, ← div_div]
    exact ih.shiftRightOne

theorem exact (mantissa : Nat) : StandsFor (.ofMantissaAndAccuracy mantissa .exact) mantissa := by
  change 2 * (mantissa : ℚ) = (2 * mantissa + 0 : Nat)
  push_cast
  ring

theorem whole_add {whole rest den : Nat} (below : rest < den) :
    StandsFor (.ofMantissaAndAccuracy whole (accuracyOfFraction rest den)) (whole + rest / den : ℚ) := by
  have positive : (0 : ℚ) < den := Nat.cast_pos.mpr (by omega)
  have fraction : (rest : ℚ) / den < 1 := (div_lt_one positive).mpr (Nat.cast_lt.mpr below)
  have doubled : 2 * ((rest : ℚ) / den) = (2 * rest : Nat) / den := by
    push_cast
    ring
  unfold accuracyOfFraction
  split
  · rename_i none
    rw [none, Nat.cast_zero, zero_div, add_zero]
    exact StandsFor.exact whole
  · rename_i some
    have above : 0 < (rest : ℚ) / den := div_pos (Nat.cast_pos.mpr (Nat.pos_of_ne_zero some)) positive
    rcases lt_trichotomy (2 * rest) den with less | same | more
    · have half : ((2 * rest : Nat) : ℚ) / den < 1 := (div_lt_one positive).mpr (Nat.cast_lt.mpr less)
      rw [← doubled] at half
      rw [compare_lt_iff_lt.mpr less]
      show ((2 * whole + 0 : Nat) : ℚ) < _ ∧ _ < ((2 * whole + 0 : Nat) : ℚ) + 1
      push_cast
      constructor <;> linarith
    · have half : ((2 * rest : Nat) : ℚ) / den = 1 := by rw [same, (div_eq_one_iff_eq positive.ne').mpr rfl]
      rw [← doubled] at half
      rw [compare_eq_iff_eq.mpr same]
      show _ = ((2 * whole + 1 : Nat) : ℚ)
      push_cast
      linarith
    · have half : 1 < ((2 * rest : Nat) : ℚ) / den := (one_lt_div positive).mpr (Nat.cast_lt.mpr more)
      rw [← doubled] at half
      rw [compare_gt_iff_gt.mpr more]
      show ((2 * whole + 1 : Nat) : ℚ) < _ ∧ _ < ((2 * whole + 1 : Nat) : ℚ) + 1
      push_cast
      constructor <;> linarith

theorem quotient (num : Nat) {den : Nat} (positive : 0 < den) :
    StandsFor (.ofMantissaAndAccuracy (num / den) (accuracyOfFraction (num % den) den)) (num / den : ℚ) := by
  have parts : (den : ℚ) * (num / den : Nat) + (num % den : Nat) = num := by exact_mod_cast Nat.div_add_mod num den
  have value : (num / den : ℚ) = (num / den : Nat) + (num % den : Nat) / (den : ℚ) := by
    rw [← parts, add_div, mul_div_cancel_left₀ _ (Nat.cast_ne_zero.mpr positive.ne')]
  rw [value]
  exact whole_add (Nat.mod_lt num positive)

theorem floor_eq (stands : StandsFor em w) : ⌊w⌋ = em.mantissa := by
  obtain ⟨mantissa, roundBit, stickyBit⟩ := em
  apply Int.floor_eq_iff.mpr
  cases roundBit <;> cases stickyBit <;> simp [StandsFor, halves] at stands ⊢ <;> constructor <;> linarith

theorem roundedMantissa (stands : StandsFor em w) : (em.roundedMantissa : Int) = nearestEven w := by
  have whole := stands.floor_eq
  have split := Int.floor_add_fract w
  unfold nearestEven
  rw [whole] at split ⊢
  obtain ⟨mantissa, roundBit, stickyBit⟩ := em
  cases roundBit with
  | false =>
    have below : Int.fract w < 1 / 2 := by
      cases stickyBit <;> simp [StandsFor, halves] at stands split <;> linarith
    rw [if_pos below]
    cases stickyBit <;> rfl
  | true =>
    cases stickyBit with
    | false =>
      have tie : Int.fract w = 1 / 2 := by
        simp [StandsFor, halves] at stands split
        linarith
      rw [tie, if_neg (lt_irrefl _), if_neg (lt_irrefl _)]
      rfl
    | true =>
      have above : 1 / 2 < Int.fract w := by
        simp [StandsFor, halves] at stands split
        linarith
      rw [if_neg above.not_gt, if_pos above]
      rfl

end StandsFor

def IsRounded : UnpackedFloat → ℚ → Prop
  | .zero _, v => rounding v = 0
  | .finite sign mantissa exponent _, v => rounding v = sign.apply mantissa * 2 ^ exponent ∧ mantissa < 2 ^ 53 ∧
    -1074 ≤ exponent ∧ (exponent = -1074 ∨ 2 ^ 52 ≤ mantissa)
  | .infinity _, _ => False
  | .notANumber, _ => False

theorem nearestEven_le_two_pow (v : ℚ) : nearestEven (v / 2 ^ lastPlace v) ≤ 2 ^ 53 := by
  apply nearestEven_le
  rw [div_le_iff₀ (two_zpow_pos _)]
  have below := (le_abs_self v).trans (abs_lt_of_lastPlace v).le
  rw [zpow_add₀ two_ne_zero, mul_comm] at below
  exact_mod_cast below

theorem two_pow_le_nearestEven {v : ℚ} (positive : 0 < v) :
    lastPlace v = -1074 ∨ 2 ^ 52 ≤ nearestEven (v / 2 ^ lastPlace v) := by
  refine (lastPlace_eq_or_le positive.ne').imp_right fun full => le_nearestEven ?_
  rw [le_div_iff₀ (two_zpow_pos _)]
  rw [abs_of_pos positive, zpow_add₀ two_ne_zero, mul_comm] at full
  exact_mod_cast full

theorem target_eq (mantissa : Nat) (exponent : Int) :
    Format.binary64.targetExponent (totalExponent mantissa exponent) = max (mantissa.log2 + exponent - 52) (-1074) := by
  change max (mantissa.log2 + 1 + exponent - 53) (-1074) = _
  congr 1
  omega

theorem lastPlace_mul_zpow {mantissa : Nat} {exponent : Int} {w : ℚ} (positive : 0 < w) (whole : ⌊w⌋ = mantissa)
    (fine : exponent ≤ lastPlace (w * 2 ^ exponent)) :
    lastPlace (w * 2 ^ exponent) = max (Format.binary64.targetExponent (totalExponent mantissa exponent)) exponent := by
  have power := two_zpow_pos exponent
  have nonzero : w * 2 ^ exponent ≠ 0 := (mul_pos positive power).ne'
  have size : |w * 2 ^ exponent| = w * 2 ^ exponent := abs_of_pos (mul_pos positive power)
  obtain ⟨atMost, below⟩ := Int.floor_eq_iff.mp whole
  rw [target_eq]
  rcases Nat.eq_zero_or_pos mantissa with rfl | some
  · have small : w * 2 ^ exponent < 2 ^ exponent := by
      have less := mul_lt_mul_of_pos_right below power
      simpa using less
    have least : lastPlace (w * 2 ^ exponent) = -1074 := by
      refine (lastPlace_eq_or_le nonzero).resolve_right fun full => ?_
      rw [size] at full
      have order := (zpow_lt_zpow_iff_right₀ (by norm_num)).mp (full.trans_lt small)
      omega
    rw [Nat.log2_zero]
    omega
  · have low := Nat.log2_self_le some.ne'
    have high := Nat.lt_log2_self (n := mantissa)
    have last : lastPlace (w * 2 ^ exponent) = max (mantissa.log2 + exponent - 52) (-1074) := by
      apply lastPlace_eq_of_pos (mul_pos positive power) (le_max_right ..)
      · have above : w < 2 ^ (mantissa.log2 + 1) := below.trans_le (by exact_mod_cast high)
        calc
          w * 2 ^ exponent < 2 ^ (mantissa.log2 + 1) * 2 ^ exponent := mul_lt_mul_of_pos_right above power
          _ = 2 ^ ((mantissa.log2 : Int) + 1 + exponent) := by rw [zpow_add₀ two_ne_zero]; norm_cast
          _ ≤ _ := zpow_le_zpow_right₀ (by norm_num) (by omega)
      · refine (le_total (mantissa.log2 + exponent - 52) (-1074)).imp max_eq_right fun full => ?_
        have beneath : 2 ^ mantissa.log2 ≤ w := le_trans (by exact_mod_cast low) atMost
        calc
          (2 : ℚ) ^ (max (mantissa.log2 + exponent - 52) (-1074) + 52) = 2 ^ ((mantissa.log2 : Int) + exponent) := by
            rw [max_eq_left full, sub_add_cancel]
          _ = 2 ^ mantissa.log2 * 2 ^ exponent := by rw [zpow_add₀ two_ne_zero, zpow_natCast]
          _ ≤ w * 2 ^ exponent := mul_le_mul_of_nonneg_right beneath power.le
    omega

theorem shiftToTarget_lastPlace {mantissa : Nat} {exponent : Int} {accuracy : Accuracy} {w : ℚ} (positive : 0 < w)
    (stands : StandsFor (.ofMantissaAndAccuracy mantissa accuracy) w)
    (fine : exponent ≤ lastPlace (w * 2 ^ exponent)) :
    ∃ em, shiftToTargetExponent .binary64 mantissa exponent accuracy = (em, lastPlace (w * 2 ^ exponent)) ∧
      StandsFor em (w * 2 ^ exponent / 2 ^ lastPlace (w * 2 ^ exponent)) := by
  have whole : ⌊w⌋ = mantissa := by
    rw [stands.floor_eq]
    cases accuracy with
    | exact => rfl
    | inexact side => cases side <;> rfl
  have placed := lastPlace_mul_zpow positive whole fine
  generalize lastPlace (w * 2 ^ exponent) = last at placed fine ⊢
  generalize located : Format.binary64.targetExponent (totalExponent mantissa exponent) = target at placed
  have moved : last = exponent + ((target - exponent).toNat : Nat) := by omega
  have shifted := stands.shiftRight (target - exponent).toNat
  have rescaled : w * 2 ^ exponent / 2 ^ last = w / 2 ^ (target - exponent).toNat := by
    rw [moved, zpow_add₀ two_ne_zero, zpow_natCast, mul_comm w, mul_div_mul_left _ _ (two_zpow_pos exponent).ne']
  refine ⟨ExtendedMantissa.ofMantissaAndAccuracy mantissa accuracy >>> (target - exponent).toNat, ?_, by rwa [rescaled]⟩
  rw [moved, ← located]
  rfl

theorem shiftToTarget_carry {mantissa : Nat} {exponent : Int} (short : mantissa ≤ 2 ^ 53) (low : -1074 ≤ exponent)
    (full : exponent = -1074 ∨ 2 ^ 52 ≤ mantissa) :
    ∃ em exponent', shiftToTargetExponent .binary64 mantissa exponent .exact = (em, exponent') ∧
      (em.mantissa : ℚ) * 2 ^ exponent' = mantissa * 2 ^ exponent ∧ em.mantissa < 2 ^ 53 ∧ -1074 ≤ exponent' ∧
      (exponent' = -1074 ∨ 2 ^ 52 ≤ em.mantissa) := by
  obtain ⟨em, n, shifted, halved, length, least⟩ := shiftToTarget_spec mantissa exponent
  have bit := Bool.toNat_lt em.roundBit
  unfold halves at halved
  refine ⟨em, exponent + n, shifted, ?_⟩
  rcases short.lt_or_eq with below | rfl
  · have size := log2_lt_of_lt below (by decide)
    have none : n = 0 := by omega
    rw [none] at halved
    have same : em.mantissa = mantissa := by omega
    rw [none, same, Nat.cast_zero, add_zero]
    exact ⟨rfl, below, low, full⟩
  · have size : (2 ^ 53).log2 = 53 := Nat.log2_two_pow
    have one : n = 1 := by omega
    rw [one] at halved
    have half : em.mantissa = 2 ^ 52 := by omega
    rw [one, half, Nat.cast_one, zpow_add_one₀ two_ne_zero]
    refine ⟨by push_cast; ring, by decide, by omega, .inr le_rfl⟩

theorem isRounded_roundWithAccuracy {mantissa : Nat} {exponent : Int} {accuracy : Accuracy} {w : ℚ} (sign : Sign)
    (positive : 0 < w) (stands : StandsFor (.ofMantissaAndAccuracy mantissa accuracy) w)
    (fine : exponent ≤ lastPlace (w * 2 ^ exponent)) :
    IsRounded (roundWithAccuracy .binary64 sign mantissa exponent accuracy) (sign.apply 1 * (w * 2 ^ exponent)) := by
  have positive' : 0 < w * 2 ^ exponent := mul_pos positive (two_zpow_pos exponent)
  obtain ⟨em, first, stands'⟩ := shiftToTarget_lastPlace positive stands fine
  generalize w * 2 ^ exponent = v at first stands' positive'
  have nearest := stands'.roundedMantissa
  have short := nearestEven_le_two_pow v
  have full := two_pow_le_nearestEven positive'
  rw [← nearest] at short full
  obtain ⟨em', exponent', second, same, short', low', full'⟩ :=
    shiftToTarget_carry (by exact_mod_cast short) (low_lastPlace v) (by exact_mod_cast full)
  have rounded : rounding v = em'.mantissa * 2 ^ exponent' := by
    unfold rounding
    rw [← nearest, same, Int.cast_natCast]
  have signed : rounding (sign.apply 1 * v) = sign.apply em'.mantissa * 2 ^ exponent' := by
    cases sign <;> simp [Sign.apply, rounding_neg, rounded]
  unfold roundWithAccuracy
  simp only [first, second]
  split
  · rename_i none
    rw [none] at signed
    cases sign <;> simpa [IsRounded, Sign.apply] using signed
  · exact ⟨signed, short', low', full'⟩

/-- The double that is nearest to `v`, or infinite if that one is beyond all doubles. -/
def Rounds (x : Float) (v : ℚ) : Prop :=
  if |rounding v| < 2 ^ 1024 then isFinite x ∧ value x = rounding v else fault? x = some .tooLarge

theorem Rounds.value_eq {x : Float} {v : ℚ} (rounds : Rounds x v) (finite : isFinite x) :
    value x = rounding v ∧ |rounding v| < 2 ^ 1024 := by
  unfold Rounds at rounds
  split at rounds
  · rename_i within
    exact ⟨rounds.2, within⟩
  · rw [fault?_eq_none.mpr finite] at rounds
    cases rounds

theorem unpackSign_packComponents (sign : Sign) (exponent : BitVec 11) (mantissa : BitVec 52) :
    @unpackSign .binary64 (packComponents .binary64 sign exponent mantissa) = sign.toBitVec := by
  have small := mantissa.isLt
  have small' := exponent.isLt
  have bit := sign.toBitVec.isLt
  apply BitVec.eq_of_toNat_eq
  rw [toNat_unpackSign]
  unfold packComponents
  rw [BitVec.toNat_append, BitVec.toNat_append]
  rw [← Nat.shiftLeft_add_eq_or_of_lt small, ← Nat.shiftLeft_add_eq_or_of_lt small', Nat.shiftLeft_eq, Nat.shiftLeft_eq]
  omega

theorem ofBitVec_toBitVec (sign : Sign) : Sign.ofBitVec sign.toBitVec = sign := by
  cases sign <;> rfl

theorem unpack_normal (sign : Sign) {mantissa biased : Nat} (positive : 0 < mantissa) (long : 2 ^ 52 ≤ mantissa)
    (short : mantissa < 2 ^ 53) (some : 0 < biased) (finite : biased < 2047) :
    unpack .binary64 (packComponents .binary64 sign (BitVec.ofNat 11 biased) (BitVec.ofNat 52 mantissa)) =
      .finite sign mantissa (biased - 1075) positive := by
  have field : (BitVec.ofNat 11 biased).toNat = biased := Nat.mod_eq_of_lt (by omega)
  have noInfinity : BitVec.ofNat 11 biased ≠ -1#_ := by
    intro all
    have value := congrArg BitVec.toNat all
    rw [field] at value
    change _ = 2047 at value
    omega
  have someExponent : BitVec.ofNat 11 biased ≠ 0#_ := by
    intro none
    have value := congrArg BitVec.toNat none
    rw [field] at value
    exact some.ne' value
  have whole : (1#1 ++ BitVec.ofNat 52 mantissa).toNat = mantissa := by
    rw [toNat_implicit, BitVec.toNat_ofNat]
    omega
  have bias : ((Format.binary64.exponentBias : Nat) : Int) + (Format.binary64.mantissaBitsWithoutImplicit : Nat) =
    1075 := rfl
  unfold unpack
  simp only [unpackMantissa_packComponents, unpackExponent_packComponents, unpackSign_packComponents,
    ofBitVec_toBitVec, bias]
  rw [if_neg noInfinity, if_neg someExponent]
  apply UnpackedFloat.finite.injEq .. |>.mpr
  refine ⟨rfl, whole, ?_⟩
  omega

theorem unpack_subnormal (sign : Sign) {mantissa : Nat} (positive : 0 < mantissa) (short : mantissa < 2 ^ 52) :
    unpack .binary64 (packComponents .binary64 sign 0#11 (BitVec.ofNat 52 mantissa)) =
      .finite sign mantissa (-1074) positive := by
  have whole : (BitVec.ofNat 52 mantissa).toNat = mantissa := Nat.mod_eq_of_lt short
  have some : BitVec.ofNat 52 mantissa ≠ 0#_ := by
    intro none
    have value := congrArg BitVec.toNat none
    rw [whole] at value
    exact positive.ne' value
  have noInfinity : (0#11 : BitVec 11) ≠ -1#_ := by decide
  unfold unpack
  simp only [unpackMantissa_packComponents, unpackExponent_packComponents, unpackSign_packComponents,
    ofBitVec_toBitVec]
  rw [if_neg noInfinity, if_pos trivial, dif_neg some]
  apply UnpackedFloat.finite.injEq .. |>.mpr
  exact ⟨rfl, whole, rfl⟩

theorem unpack_pack {sign : Sign} {mantissa : Nat} {exponent : Int} {positive : 0 < mantissa}
    (canonical : Canonical (.finite sign mantissa exponent positive)) :
    unpack .binary64 (pack .binary64 (.finite sign mantissa exponent positive)) =
      .finite sign mantissa exponent positive := by
  obtain ⟨short, low, high, full⟩ := canonical
  rw [pack_finite, if_pos high]
  unfold greatestExponent at high
  have size : mantissa.log2 < 53 := log2_lt_of_lt short (by decide)
  split
  · have long : 2 ^ 52 ≤ mantissa := (Nat.le_log2 positive.ne').mp (by omega)
    have same : ((exponent + 1075).toNat : Int) - 1075 = exponent := by omega
    have read := @unpack_normal sign mantissa (exponent + 1075).toNat positive long short (by omega) (by omega)
    rwa [same] at read
  · have below : mantissa < 2 ^ 52 := (Nat.log2_lt positive.ne').mp (by omega)
    have least : exponent = -1074 := full.resolve_right (by omega)
    subst least
    exact unpack_subnormal sign positive below

theorem within_iff {v : ℚ} {sign : Sign} {mantissa : Nat} {exponent : Int}
    (rounded : rounding v = sign.apply mantissa * 2 ^ exponent) (short : mantissa < 2 ^ 53)
    (full : exponent = -1074 ∨ 2 ^ 52 ≤ mantissa) : |rounding v| < 2 ^ 1024 ↔ exponent ≤ greatestExponent := by
  have power := two_zpow_pos exponent
  have size : |rounding v| = mantissa * 2 ^ exponent := by
    rw [rounded, abs_mul, abs_of_pos power]
    cases sign <;> simp [Sign.apply]
  unfold greatestExponent
  rw [size, ← zpow_natCast]
  constructor
  · intro below
    by_contra beyond
    have full' : (2 : ℚ) ^ 52 ≤ mantissa := by exact_mod_cast full.resolve_left (by omega)
    have reached : (2 : ℚ) ^ ((1024 : Nat) : Int) ≤ mantissa * 2 ^ exponent := by
      calc
        (2 : ℚ) ^ ((1024 : Nat) : Int) ≤ 2 ^ (52 + exponent) := zpow_le_zpow_right₀ (by norm_num) (by omega)
        _ = 2 ^ 52 * 2 ^ exponent := zpow_add₀ two_ne_zero 52 exponent
        _ ≤ mantissa * 2 ^ exponent := mul_le_mul_of_nonneg_right full' power.le
    exact below.not_ge reached
  · intro within
    have short' : (mantissa : ℚ) < 2 ^ 53 := by exact_mod_cast short
    calc
      (mantissa : ℚ) * 2 ^ exponent < 2 ^ 53 * 2 ^ exponent := mul_lt_mul_of_pos_right short' power
      _ = 2 ^ (53 + exponent) := (zpow_add₀ two_ne_zero 53 exponent).symm
      _ ≤ _ := zpow_le_zpow_right₀ (by norm_num) (by omega)

theorem rounds_of_isRounded {x : Float} {u : UnpackedFloat} {v : ℚ}
    (packed : x.toModel.unpack = unpack .binary64 (pack .binary64 u)) (rounded : IsRounded u v) : Rounds x v := by
  have fault : fault? x = packedFault? u := by rw [fault?_eq, packed, unpackedFault?_pack]
  unfold Rounds
  cases u with
  | infinity | notANumber => exact rounded.elim
  | zero sign =>
    have none : rounding v = 0 := rounded
    have small : |rounding v| < 2 ^ 1024 := by rw [none]; norm_num
    have number : value x = 0 := by
      unfold value
      rw [packed]
      cases sign <;> rfl
    rw [if_pos small, none]
    exact ⟨fault?_eq_none.mp fault, number⟩
  | finite sign mantissa exponent positive =>
    obtain ⟨number, short, low, full⟩ := rounded
    have within := within_iff number short full
    change _ = if exponent ≤ greatestExponent then none else some NumberError.tooLarge at fault
    by_cases high : exponent ≤ greatestExponent
    · rw [if_pos high] at fault
      rw [if_pos (within.mpr high)]
      refine ⟨fault?_eq_none.mp fault, ?_⟩
      unfold value
      rw [packed, unpack_pack ⟨short, low, high, full⟩, number]
      rfl
    · rw [if_neg high] at fault
      rwa [if_neg (mt within.mp high)]

theorem value_of_zero {x : Float} {sign : Sign} (unpacked : x.toModel.unpack = .zero sign) : value x = 0 := by
  unfold value
  rw [unpacked]
  rfl

theorem value_of_finite {x : Float} {sign : Sign} {mantissa : Nat} {exponent : Int} {positive : 0 < mantissa}
    (unpacked : x.toModel.unpack = .finite sign mantissa exponent positive) :
    value x = sign.apply 1 * (mantissa * 2 ^ exponent) := by
  unfold value
  rw [unpacked]
  cases sign <;> simp [unpackedValue, Sign.apply]

theorem unpack_of_isFinite {x : Float} (finite : isFinite x) :
    (∃ sign, x.toModel.unpack = .zero sign) ∨
      ∃ sign mantissa exponent positive, x.toModel.unpack = .finite sign mantissa exponent positive := by
  rw [← fault?_eq_none, fault?_eq] at finite
  cases unpacked : x.toModel.unpack with
  | zero sign => exact .inl ⟨sign, rfl⟩
  | finite => exact .inr ⟨_, _, _, _, rfl⟩
  | infinity | notANumber =>
    rw [unpacked] at finite
    cases finite

theorem isRounded_zero (sign : Sign) : IsRounded (.zero sign) 0 := rounding_zero

theorem divCore_fine {mantissa mantissa' : Nat} (exponent exponent' : Int) (positive : 0 < mantissa)
    (positive' : 0 < mantissa') :
    Format.binary64.targetExponent (totalExponent mantissa exponent - totalExponent mantissa' exponent') ≤
      lastPlace (mantissa / mantissa' * 2 ^ (exponent - exponent')) := by
  have above : (0 : ℚ) < mantissa / mantissa' * 2 ^ (exponent - exponent') := by positivity
  have low : (2 : ℚ) ^ mantissa.log2 ≤ mantissa := by exact_mod_cast Nat.log2_self_le positive.ne'
  have high : (mantissa' : ℚ) ≤ 2 ^ (mantissa'.log2 + 1) := by exact_mod_cast Nat.lt_log2_self.le
  have reached : (2 : ℚ) ^ ((mantissa.log2 : Int) - (mantissa'.log2 + 1) + (exponent - exponent')) ≤
      mantissa / mantissa' * 2 ^ (exponent - exponent') := by
    rw [zpow_add₀ two_ne_zero, zpow_sub₀ two_ne_zero]
    refine mul_le_mul_of_nonneg_right ?_ (two_zpow_pos _).le
    exact div_le_div₀ (by positivity) (by exact_mod_cast low) (by positivity) (by exact_mod_cast high)
  refine le_trans ?_ (le_lastPlace above reached)
  change max (totalExponent mantissa exponent - totalExponent mantissa' exponent' - 53) (-1074) ≤ _
  unfold totalExponent
  omega

theorem isRounded_div (sign sign' : Sign) {mantissa mantissa' : Nat} (exponent exponent' : Int)
    (positive : 0 < mantissa) (positive' : 0 < mantissa') :
    IsRounded (div .binary64 (.finite sign mantissa exponent positive) (.finite sign' mantissa' exponent' positive'))
      ((sign / sign').apply 1 * (mantissa / mantissa' * 2 ^ (exponent - exponent'))) := by
  have fine := divCore_fine exponent exponent' positive positive'
  unfold div divCore
  simp only
  generalize placed : min (exponent - exponent') (Format.binary64.targetExponent
    (totalExponent mantissa exponent - totalExponent mantissa' exponent')) = place
  have scaled : (mantissa / mantissa' * 2 ^ (exponent - exponent') : ℚ) =
      ((mantissa <<< (exponent - exponent' - place).toNat : Nat) / mantissa' : ℚ) * 2 ^ place := by
    rw [Nat.shiftLeft_eq, two_zpow_split (show place ≤ exponent - exponent' by omega)]
    push_cast
    ring
  rw [scaled] at fine ⊢
  apply isRounded_roundWithAccuracy
  · rw [Nat.shiftLeft_eq]
    positivity
  · exact .quotient _ positive'
  · omega

theorem rounds_div {x y : Float} (finite : isFinite x) (finite' : isFinite y) (nonzero : value y ≠ 0) :
    Rounds (x / y) (value x / value y) := by
  refine rounds_of_isRounded (u := div .binary64 x.toModel.unpack y.toModel.unpack) rfl ?_
  rcases unpack_of_isFinite finite' with ⟨sign', unpacked'⟩ | ⟨sign', mantissa', exponent', positive', unpacked'⟩
  · exact absurd (value_of_zero unpacked') nonzero
  rcases unpack_of_isFinite finite with ⟨sign, unpacked⟩ | ⟨sign, mantissa, exponent, positive, unpacked⟩
  · rw [value_of_zero unpacked, zero_div, unpacked, unpacked']
    exact isRounded_zero _
  · have exact_ : value x / value y =
        (sign / sign').apply 1 * (mantissa / mantissa' * 2 ^ (exponent - exponent')) := by
      have signs : (sign / sign').apply 1 = sign.apply 1 * sign'.apply 1 := by cases sign <;> cases sign' <;> rfl
      have unit : (sign'.apply 1 : ℚ) * sign'.apply 1 = 1 := by cases sign' <;> norm_num [Sign.apply]
      have some : (sign'.apply 1 : ℚ) ≠ 0 := left_ne_zero_of_mul (unit.trans_ne one_ne_zero)
      rw [value_of_finite unpacked, value_of_finite unpacked', zpow_sub₀ two_ne_zero, signs, Int.cast_mul]
      have swapped : (sign'.apply 1 : ℚ)⁻¹ = sign'.apply 1 := inv_eq_of_mul_eq_one_left unit
      rw [mul_div_mul_comm, mul_div_mul_comm, div_eq_mul_inv, swapped]
    rw [exact_, unpacked, unpacked']
    exact isRounded_div sign sign' exponent exponent' positive positive'

theorem mul_fine {sign sign' : Sign} {mantissa mantissa' : Nat} {exponent exponent' : Int} {positive : 0 < mantissa}
    {positive' : 0 < mantissa'} (canonical : Canonical (.finite sign mantissa exponent positive))
    (canonical' : Canonical (.finite sign' mantissa' exponent' positive')) :
    exponent + exponent' ≤ lastPlace ((mantissa * mantissa' : Nat) * 2 ^ (exponent + exponent')) := by
  obtain ⟨-, low, -, full⟩ := canonical
  obtain ⟨-, low', -, full'⟩ := canonical'
  have product : 0 < mantissa * mantissa' := Nat.mul_pos positive positive'
  rcases Nat.lt_or_ge (mantissa * mantissa') (2 ^ 52) with short | long
  · have least : exponent = -1074 := full.resolve_right fun above =>
      short.not_ge (above.trans (Nat.le_mul_of_pos_right _ positive'))
    have least' : exponent' = -1074 := full'.resolve_right fun above =>
      short.not_ge (above.trans (Nat.le_mul_of_pos_left _ positive))
    have lowest := low_lastPlace ((mantissa * mantissa' : Nat) * 2 ^ (exponent + exponent'))
    omega
  · have long' : (2 : ℚ) ^ (52 : Int) ≤ (mantissa * mantissa' : Nat) := by exact_mod_cast long
    have some : (0 : ℚ) < (mantissa * mantissa' : Nat) := Nat.cast_pos.mpr product
    have reached : (2 : ℚ) ^ (52 + (exponent + exponent')) ≤ (mantissa * mantissa' : Nat) * 2 ^ (exponent + exponent') := by
      rw [zpow_add₀ two_ne_zero]
      exact mul_le_mul_of_nonneg_right long' (two_zpow_pos _).le
    have last := le_lastPlace (mul_pos some (two_zpow_pos _)) reached
    omega

theorem rounds_mul {x y : Float} (finite : isFinite x) (finite' : isFinite y) :
    Rounds (x * y) (value x * value y) := by
  refine rounds_of_isRounded (u := mul .binary64 x.toModel.unpack y.toModel.unpack) rfl ?_
  have bounds := canonical x
  have bounds' := canonical y
  rcases unpack_of_isFinite finite with ⟨sign, unpacked⟩ | ⟨sign, mantissa, exponent, positive, unpacked⟩
  · rw [value_of_zero unpacked, zero_mul, unpacked]
    rcases unpack_of_isFinite finite' with ⟨sign', unpacked'⟩ | ⟨sign', mantissa', exponent', positive', unpacked'⟩ <;>
      rw [unpacked'] <;> exact isRounded_zero _
  rcases unpack_of_isFinite finite' with ⟨sign', unpacked'⟩ | ⟨sign', mantissa', exponent', positive', unpacked'⟩
  · rw [value_of_zero unpacked', mul_zero, unpacked, unpacked']
    exact isRounded_zero _
  rw [unpacked] at bounds
  rw [unpacked'] at bounds'
  have exact_ : value x * value y =
      (sign * sign').apply 1 * ((mantissa * mantissa' : Nat) * 2 ^ (exponent + exponent')) := by
    have signs : (sign * sign').apply 1 = sign.apply 1 * sign'.apply 1 := by cases sign <;> cases sign' <;> rfl
    rw [value_of_finite unpacked, value_of_finite unpacked', zpow_add₀ two_ne_zero, signs]
    push_cast
    ring
  rw [exact_, unpacked, unpacked']
  apply isRounded_roundWithAccuracy
  · exact Nat.cast_pos.mpr (Nat.mul_pos positive positive')
  · exact .exact _
  · exact mul_fine bounds bounds'

theorem unpack_neg {x : Float} (finite : isFinite x) : (-x).toModel.unpack = x.toModel.unpack.neg := by
  have packed : (-x).toModel.unpack = unpack .binary64 (pack .binary64 x.toModel.unpack.neg) := rfl
  have bounds := canonical x
  rcases unpack_of_isFinite finite with ⟨sign, unpacked⟩ | ⟨sign, mantissa, exponent, positive, unpacked⟩
  · rw [packed, unpacked]
    cases sign <;> rfl
  · rw [unpacked] at bounds
    rw [packed, unpacked]
    exact unpack_pack bounds

theorem isFinite_neg {x : Float} (finite : isFinite x) : isFinite (-x) := by
  have opposite := unpack_neg finite
  rw [← fault?_eq_none, fault?_eq] at finite ⊢
  rw [opposite]
  cases unpacked : x.toModel.unpack with
  | zero | finite => rfl
  | infinity | notANumber =>
    rw [unpacked] at finite
    cases finite

theorem value_neg {x : Float} (finite : isFinite x) : value (-x) = -value x := by
  unfold value
  rw [unpack_neg finite]
  rcases unpack_of_isFinite finite with ⟨sign, unpacked⟩ | ⟨sign, mantissa, exponent, positive, unpacked⟩
  · rw [unpacked]
    exact neg_zero.symm
  · rw [unpacked]
    have turned : (-sign).apply mantissa = -sign.apply mantissa := by cases sign <;> simp [Sign.apply]
    change (((-sign).apply mantissa : Int) : ℚ) * 2 ^ exponent = -(sign.apply mantissa * 2 ^ exponent)
    rw [turned, Int.cast_neg, neg_mul]

theorem isRounded_round {mantissa : Nat} (sign : Sign) (exponent : Int) (positive : 0 < mantissa) :
    IsRounded (round .binary64 sign mantissa exponent) (sign.apply 1 * (mantissa * 2 ^ exponent)) := by
  have reached : (2 : ℚ) ^ (mantissa.log2 + exponent) ≤ mantissa * 2 ^ exponent := by
    rw [zpow_add₀ two_ne_zero, zpow_natCast]
    exact mul_le_mul_of_nonneg_right (by exact_mod_cast Nat.log2_self_le positive.ne') (two_zpow_pos exponent).le
  have fine := le_lastPlace (by positivity) reached
  rw [← target_eq] at fine
  unfold UnpackedFloat.round decreaseExponent
  simp only
  generalize Format.binary64.targetExponent (totalExponent mantissa exponent) = target at fine
  have scaled : (mantissa : ℚ) * 2 ^ exponent =
      (mantissa <<< (exponent - target).toNat : Nat) * 2 ^ (exponent - ((exponent - target).toNat : Nat)) := by
    rw [Nat.shiftLeft_eq, zpow_sub₀ two_ne_zero, zpow_natCast]
    push_cast
    field_simp
  rw [scaled] at fine ⊢
  apply isRounded_roundWithAccuracy
  · rw [Nat.shiftLeft_eq]
    positivity
  · exact .exact _
  · omega

theorem isRounded_normalize (mantissa exponent : Int) (sign : Sign) :
    IsRounded (normalize .binary64 mantissa exponent sign) (mantissa * 2 ^ exponent) := by
  unfold UnpackedFloat.normalize
  rcases lt_trichotomy mantissa 0 with negative | rfl | positive
  · rw [compare_lt_iff_lt.mpr negative]
    obtain ⟨n, rfl⟩ := Int.exists_eq_neg_ofNat negative.le
    have rounded := isRounded_round .negative exponent (show 0 < n by omega)
    simpa [Sign.apply] using rounded
  · rw [compare_eq_iff_eq.mpr rfl, Int.cast_zero, zero_mul]
    exact isRounded_zero sign
  · rw [compare_gt_iff_gt.mpr positive]
    obtain ⟨n, rfl⟩ := Int.eq_ofNat_of_zero_le positive.le
    have rounded := isRounded_round .positive exponent (show 0 < n by omega)
    simpa [Sign.apply] using rounded

theorem isDouble_of_canonical {sign : Sign} {mantissa : Nat} {exponent : Int} {positive : 0 < mantissa}
    (canonical : Canonical (.finite sign mantissa exponent positive)) :
    IsDouble (sign.apply mantissa * 2 ^ exponent) := by
  obtain ⟨short, low, -, -⟩ := canonical
  refine ⟨sign.apply mantissa, exponent, ?_, low, rfl⟩
  rw [Int.abs_eq_natAbs, natAbs_apply]
  exact_mod_cast short

theorem isDouble_value {x : Float} (finite : isFinite x) : IsDouble (value x) := by
  have bounds := canonical x
  rcases unpack_of_isFinite finite with ⟨sign, unpacked⟩ | ⟨sign, mantissa, exponent, positive, unpacked⟩
  · rw [value_of_zero unpacked]
    exact isDouble_zero
  · rw [unpacked] at bounds
    unfold value
    rw [unpacked]
    exact isDouble_of_canonical bounds

theorem isRounded_of_canonical {sign : Sign} {mantissa : Nat} {exponent : Int} {positive : 0 < mantissa}
    (canonical : Canonical (.finite sign mantissa exponent positive)) :
    IsRounded (.finite sign mantissa exponent positive) (sign.apply mantissa * 2 ^ exponent) := by
  have double := isDouble_of_canonical canonical
  obtain ⟨short, low, -, full⟩ := canonical
  exact ⟨rounding_of_isDouble double, short, low, full⟩

theorem decreased_value (sign : Sign) (mantissa : Nat) {exponent target : Int} (less : target ≤ exponent) :
    (sign.apply (mantissa <<< (exponent - target).toNat : Nat) : ℚ) * 2 ^ target =
      sign.apply mantissa * 2 ^ exponent := by
  rw [Nat.shiftLeft_eq, two_zpow_split less]
  cases sign <;> simp only [Sign.apply] <;> push_cast <;> ring

theorem isRounded_add {u u' : UnpackedFloat} (canonical : Canonical u) (canonical' : Canonical u')
    (finite : unpackedFault? u = none) (finite' : unpackedFault? u' = none) :
    IsRounded (add .binary64 u u') (unpackedValue u + unpackedValue u') := by
  cases u with
  | infinity | notANumber => cases finite
  | zero sign =>
    cases u' with
    | infinity | notANumber => cases finite'
    | zero sign' =>
      rw [show unpackedValue (.zero sign) + unpackedValue (.zero sign') = 0 from add_zero 0]
      cases sign <;> cases sign' <;> exact isRounded_zero _
    | finite sign' =>
      rw [show unpackedValue (.zero sign) = 0 from rfl, zero_add]
      exact isRounded_of_canonical canonical'
  | finite sign mantissa exponent positive =>
    cases u' with
    | infinity | notANumber => cases finite'
    | zero sign' =>
      rw [show unpackedValue (.zero sign') = 0 from rfl, add_zero]
      exact isRounded_of_canonical canonical
    | finite sign' mantissa' exponent' positive' =>
      have rounded := isRounded_normalize (sign.apply (mantissa <<< (exponent - min exponent exponent').toNat : Nat) +
        sign'.apply (mantissa' <<< (exponent' - min exponent exponent').toNat : Nat)) (min exponent exponent') .positive
      rw [Int.cast_add, add_mul, decreased_value sign mantissa (min_le_left ..),
        decreased_value sign' mantissa' (min_le_right ..)] at rounded
      exact rounded

theorem rounds_add {x y : Float} (finite : isFinite x) (finite' : isFinite y) :
    Rounds (x + y) (value x + value y) := by
  rw [← fault?_eq_none, fault?_eq] at finite finite'
  exact rounds_of_isRounded (u := add .binary64 x.toModel.unpack y.toModel.unpack) rfl
    (isRounded_add (canonical x) (canonical y) finite finite')

end Flipbook.Binary64
