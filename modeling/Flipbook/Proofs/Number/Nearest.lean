import Flipbook.Proofs.Number.BitOrder

namespace Flipbook.Binary64

open Float.Model.UnpackedFloat

theorem le_rescaled {x y a b c d : Nat} (less : x * 2 ^ a ≤ y * 2 ^ b) (scale : b + c ≤ a + d) :
    x * 2 ^ c ≤ y * 2 ^ d := by
  refine Nat.le_of_mul_le_mul_right ?_ (Nat.two_pow_pos a)
  calc x * 2 ^ c * 2 ^ a = x * 2 ^ a * 2 ^ c := Nat.mul_right_comm ..
    _ ≤ y * 2 ^ b * 2 ^ c := Nat.mul_le_mul_right _ less
    _ = y * 2 ^ (b + c) := by rw [Nat.mul_assoc, ← Nat.pow_add]
    _ ≤ y * 2 ^ (a + d) := Nat.mul_le_mul_left _ (Nat.pow_le_pow_right (by decide) scale)
    _ = y * 2 ^ d * 2 ^ a := by rw [Nat.mul_assoc, ← Nat.pow_add, Nat.add_comm d]

theorem divNearest_le {num den bound : Nat} (positive : 0 < den) (less : num ≤ bound * den) :
    divNearest num den ≤ bound := by
  have whole : num / den ≤ bound := Nat.div_le_of_le_mul (by rwa [Nat.mul_comm])
  have parts := Nat.div_add_mod num den
  unfold divNearest
  simp only
  rcases whole.lt_or_eq with below | rfl
  · split
    · omega
    · split <;> omega
  · -- no remainder is left when the quotient meets the bound
    have exact_ : num % den = 0 := by
      rw [Nat.mul_comm] at less
      omega
    rw [exact_, Nat.mul_zero, if_pos positive]

theorem magnitude_spec {num den : Nat} (positive : 0 < num) (positive' : 0 < den) :
    den * 2 ^ (magnitude num den).toNat ≤ num * 2 ^ (-magnitude num den).toNat ∧
      num * 2 ^ (-magnitude num den - 1).toNat ≤ den * 2 ^ (magnitude num den + 1).toNat := by
  have lower : den * 2 ^ num.log2 ≤ num * 2 ^ (den.log2 + 1) := by
    rw [Nat.mul_comm num]
    exact Nat.mul_le_mul Nat.lt_log2_self.le (Nat.log2_self_le positive.ne')
  have upper : num * 2 ^ den.log2 ≤ den * 2 ^ (num.log2 + 1) := by
    rw [Nat.mul_comm den]
    exact Nat.mul_le_mul Nat.lt_log2_self.le (Nat.log2_self_le positive'.ne')
  unfold magnitude
  simp only
  split
  · rename_i reached
    exact ⟨reached, le_rescaled upper (by omega)⟩
  · rename_i missed
    exact ⟨le_rescaled lower (by omega), le_rescaled (Nat.le_of_not_le missed) (by omega)⟩

theorem nearestBits_le {num den mantissa : Nat} {exponent : Int} (positive : 0 < den) (low : -1074 ≤ exponent)
    (short : mantissa < 2 ^ 53) (full : exponent = -1074 ∨ 2 ^ 52 ≤ mantissa)
    (less : num * 2 ^ (-exponent).toNat ≤ mantissa * den * 2 ^ exponent.toNat) :
    nearestBits num den ≤ (exponent + 1074).toNat * 2 ^ 52 + mantissa := by
  unfold nearestBits
  split
  · exact Nat.zero_le _
  · rename_i nonzero
    obtain ⟨lower, upper⟩ := magnitude_spec (Nat.pos_of_ne_zero nonzero) positive
    have scale : magnitude num den - 52 ≤ exponent := by
      have bound : mantissa * den * 2 ^ exponent.toNat < den * 2 ^ (53 + exponent.toNat) := by
        rw [Nat.mul_comm mantissa, Nat.mul_assoc, Nat.pow_add]
        exact Nat.mul_lt_mul_of_pos_left (Nat.mul_lt_mul_of_pos_right short (Nat.two_pow_pos _)) positive
      by_contra above
      have reached : den * 2 ^ (53 + exponent.toNat) ≤ num * 2 ^ (-exponent).toNat :=
        le_rescaled lower (by omega)
      omega
    refine (Nat.min_le_right ..).trans ?_
    generalize placed : max (-1074) (magnitude num den - 52) = place
    change (place + 1074).toNat * 2 ^ 52 + _ ≤ _
    rcases lt_or_eq_of_le (show place ≤ exponent by omega) with below | rfl
    · -- a smaller exponent leaves room for a mantissa that is rounded up
      have rounded : divNearest (num * pow2 (-place).toNat) (den * pow2 place.toNat) ≤ 2 ^ 53 := by
        refine divNearest_le (Nat.mul_pos positive (Nat.two_pow_pos _)) ?_
        calc num * 2 ^ (-place).toNat ≤ den * 2 ^ (53 + place.toNat) := le_rescaled upper (by omega)
          _ = 2 ^ 53 * (den * 2 ^ place.toNat) := by rw [Nat.pow_add, Nat.mul_left_comm]
      omega
    · have rounded : divNearest (num * pow2 (-place).toNat) (den * pow2 place.toNat) ≤ mantissa :=
        divNearest_le (Nat.mul_pos positive (Nat.two_pow_pos _)) (by rwa [← Nat.mul_assoc])
      omega

theorem nearest_le {x : Float} {num den mantissa : Nat} {exponent : Int} {positive : 0 < mantissa}
    (unsigned : Unsigned x) (reads : Reads (bits x) (.finite .positive mantissa exponent positive)) (ratio : 0 < den)
    (less : num * 2 ^ (-exponent).toNat ≤ mantissa * den * 2 ^ exponent.toNat) :
    Unsigned (nearest false num den) ∧ nearest false num den ≤ x := by
  have bound : nearestBits num den ≤ bits x := by
    generalize bits x = n at reads
    cases reads with
    | finite _ low short full sum => exact (nearestBits_le ratio low short full less).trans_eq sum
  have finite : nearestBits num den < infinityBits := bound.trans_lt unsigned
  have written : bits (nearest false num den) = nearestBits num den := by
    unfold nearest
    rw [if_neg Bool.false_ne_true, Nat.zero_add, bits_ofBits finite]
  have unsigned' : Unsigned (nearest false num den) := written.trans_lt finite
  exact ⟨unsigned', (le_iff_bits unsigned' unsigned).mpr (written.trans_le bound)⟩

end Flipbook.Binary64
