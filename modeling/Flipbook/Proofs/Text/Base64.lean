import Flipbook.Text.Base64

namespace Flipbook.Text

def bits? (c : Char) : Option Nat := base64Alphabet.idxOf? c

def ofBase64? : Text → Option Bytes
  | [] => some []
  | a :: b :: c :: d :: rest =>
    match bits? a, bits? b, bits? c, bits? d with
    | some i, some j, some k, some l =>
      (ofBase64? rest).map ([.ofNat (4 * i + j / 16), .ofNat (16 * j + k / 4), .ofNat (64 * k + l)] ++ ·)
    | some i, some j, some k, none =>
      if d = '=' ∧ rest = [] then some [.ofNat (4 * i + j / 16), .ofNat (16 * j + k / 4)] else none
    | some i, some j, none, none =>
      if c = '=' ∧ d = '=' ∧ rest = [] then some [.ofNat (4 * i + j / 16)] else none
    | _, _, _, _ => none
  | _ => none

theorem sextet_mod (n : Nat) : sextet (n % 64) = sextet n := by rw [sextet, sextet, Nat.mod_mod]

theorem bits?_sextet (n : Nat) : bits? (sextet n) = some (n % 64) := by
  have all : ∀ m < 64, bits? (sextet m) = some m := by decide +kernel
  rw [← sextet_mod]
  exact all (n % 64) (Nat.mod_lt n (by decide))

theorem sextet_mem (n : Nat) : sextet n ∈ base64Alphabet := by
  have all : ∀ m < 64, sextet m ∈ base64Alphabet := by decide +kernel
  rw [← sextet_mod]
  exact all (n % 64) (Nat.mod_lt n (by decide))

theorem bits?_equals : bits? '=' = none := by decide +kernel

theorem ofNat_eq_of_mod {n : Nat} {b : UInt8} (same : n % 256 = b.toNat) : UInt8.ofNat n = b := by
  rw [← UInt8.toNat_inj, UInt8.toNat_ofNat']
  exact same

theorem ofBase64?_base64 (bytes : Bytes) : ofBase64? (base64 bytes) = some bytes := by
  fun_induction base64 bytes with
  | case1 => rfl
  | case2 a =>
    have bound := a.toNat_lt
    have first : UInt8.ofNat (4 * (a.toNat / 4 % 64) + a.toNat * 16 % 64 / 16) = a := ofNat_eq_of_mod (by omega)
    simp only [ofBase64?, bits?_sextet, bits?_equals, and_self, ↓reduceIte, first]
  | case3 a b =>
    have bound := a.toNat_lt
    have bound' := b.toNat_lt
    have first : UInt8.ofNat (4 * (a.toNat / 4 % 64) + (a.toNat * 16 + b.toNat / 16) % 64 / 16) = a :=
      ofNat_eq_of_mod (by omega)
    have second : UInt8.ofNat (16 * ((a.toNat * 16 + b.toNat / 16) % 64) + b.toNat * 4 % 64 / 4) = b :=
      ofNat_eq_of_mod (by omega)
    simp only [ofBase64?, bits?_sextet, bits?_equals, and_self, ↓reduceIte, first, second]
  | case4 a b c rest ih =>
    have bound := a.toNat_lt
    have bound' := b.toNat_lt
    have bound'' := c.toNat_lt
    have first : UInt8.ofNat (4 * (a.toNat / 4 % 64) + (a.toNat * 16 + b.toNat / 16) % 64 / 16) = a :=
      ofNat_eq_of_mod (by omega)
    have second : UInt8.ofNat (16 * ((a.toNat * 16 + b.toNat / 16) % 64) + (b.toNat * 4 + c.toNat / 64) % 64 / 4) = b :=
      ofNat_eq_of_mod (by omega)
    have third : UInt8.ofNat (64 * ((b.toNat * 4 + c.toNat / 64) % 64) + c.toNat % 64) = c := ofNat_eq_of_mod (by omega)
    simp only [ofBase64?, bits?_sextet, ih, Option.map_some, first, second, third]
    rfl

theorem mem_base64 {bytes : Bytes} {c : Char} (member : c ∈ base64 bytes) : c ∈ base64Alphabet ∨ c = '=' := by
  fun_induction base64 bytes with
  | case1 => cases member
  | case2 a =>
    simp only [List.mem_cons, List.not_mem_nil, or_false, or_self] at member
    rcases member with rfl | rfl | equals
    · exact .inl (sextet_mem _)
    · exact .inl (sextet_mem _)
    · exact .inr equals
  | case3 a b =>
    simp only [List.mem_cons, List.not_mem_nil, or_false] at member
    rcases member with rfl | rfl | rfl | equals
    · exact .inl (sextet_mem _)
    · exact .inl (sextet_mem _)
    · exact .inl (sextet_mem _)
    · exact .inr equals
  | case4 a b c rest ih =>
    simp only [List.mem_cons] at member
    rcases member with rfl | rfl | rfl | rfl | later
    · exact .inl (sextet_mem _)
    · exact .inl (sextet_mem _)
    · exact .inl (sextet_mem _)
    · exact .inl (sextet_mem _)
    · exact ih later

end Flipbook.Text
