import Flipbook.Text.Utf8

namespace Flipbook.Text

/-- The number of a character and its bytes. Forms that are longer than needed, surrogates and numbers past the
    last character are left out. -/
inductive Shortest : Nat → Bytes → Prop
  | one {a : UInt8} (lead : a.toNat < 128) : Shortest a.toNat [a]
  | two {a b : UInt8} (lead : 194 ≤ a.toNat ∧ a.toNat < 224) (tail : isTail b) :
      Shortest (64 * (a.toNat % 32) + tailBits b) [a, b]
  | three {a b c : UInt8} (lead : 224 ≤ a.toNat ∧ a.toNat < 240) (tail : isTail b) (tail' : isTail c)
      (long : a.toNat = 224 → 160 ≤ b.toNat) (apart : a.toNat = 237 → b.toNat < 160) :
      Shortest (4096 * (a.toNat % 16) + 64 * tailBits b + tailBits c) [a, b, c]
  | four {a b c d : UInt8} (lead : 240 ≤ a.toNat ∧ a.toNat < 245) (tail : isTail b) (tail' : isTail c)
      (tail'' : isTail d) (long : a.toNat = 240 → 144 ≤ b.toNat) (within : a.toNat = 244 → b.toNat < 144) :
      Shortest (262144 * (a.toNat % 8) + 4096 * tailBits b + 64 * tailBits c + tailBits d) [a, b, c, d]

theorem isTail_iff (b : UInt8) : isTail b = true ↔ 128 ≤ b.toNat ∧ b.toNat < 192 := by
  unfold isTail
  rw [Bool.and_eq_true, decide_eq_true_iff, decide_eq_true_iff, UInt8.le_iff_toNat_le, UInt8.lt_iff_toNat_lt]
  rfl

theorem two_iff (a b : UInt8) :
    (0xc2 ≤ a && a < 0xe0 && isTail b) = true ↔ (194 ≤ a.toNat ∧ a.toNat < 224) ∧ isTail b = true := by
  simp only [Bool.and_eq_true, decide_eq_true_iff, UInt8.le_iff_toNat_le, UInt8.lt_iff_toNat_lt]
  rfl

theorem three_iff (a b c : UInt8) :
    (0xe0 ≤ a && a < 0xf0 && isTail b && isTail c && !(a = 0xe0 && b < 0xa0) && !(a = 0xed && 0xa0 ≤ b)) = true ↔
      (224 ≤ a.toNat ∧ a.toNat < 240) ∧ isTail b = true ∧ isTail c = true ∧
        (a.toNat = 224 → 160 ≤ b.toNat) ∧ (a.toNat = 237 → b.toNat < 160) := by
  simp only [Bool.and_eq_true, Bool.not_eq_true', Bool.and_eq_false_imp, decide_eq_true_iff, decide_eq_false_iff_not,
    UInt8.le_iff_toNat_le, UInt8.lt_iff_toNat_lt, ← UInt8.toNat_inj, Nat.not_lt, Nat.not_le, and_assoc]
  rfl

theorem four_iff (a b c d : UInt8) :
    (0xf0 ≤ a && a < 0xf5 && isTail b && isTail c && isTail d && !(a = 0xf0 && b < 0x90)
        && !(a = 0xf4 && 0x90 ≤ b)) = true ↔
      (240 ≤ a.toNat ∧ a.toNat < 245) ∧ isTail b = true ∧ isTail c = true ∧ isTail d = true ∧
        (a.toNat = 240 → 144 ≤ b.toNat) ∧ (a.toNat = 244 → b.toNat < 144) := by
  simp only [Bool.and_eq_true, Bool.not_eq_true', Bool.and_eq_false_imp, decide_eq_true_iff, decide_eq_false_iff_not,
    UInt8.le_iff_toNat_le, UInt8.lt_iff_toNat_lt, ← UInt8.toNat_inj, Nat.not_lt, Nat.not_le, and_assoc]
  rfl

theorem Shortest.decode? {n : Nat} {bytes : Bytes} (form : Shortest n bytes) (rest : Bytes) :
    Text.decode? (bytes ++ rest) = (Text.decode? rest).map (Char.ofNat n :: ·) := by
  have lead_iff (a : UInt8) : a < 0x80 ↔ a.toNat < 128 := UInt8.lt_iff_toNat_lt
  cases form with
  | one lead =>
    rw [List.singleton_append, Text.decode?.eq_def]
    exact if_pos ((lead_iff _).mpr lead)
  | two lead tail =>
    rw [List.cons_append, Text.decode?.eq_def]
    simp only [List.cons_append, List.nil_append]
    rw [if_neg (by rw [lead_iff]; omega), if_pos ((two_iff _ _).mpr ⟨lead, tail⟩)]
  | three lead tail tail' long apart =>
    rw [List.cons_append, Text.decode?.eq_def]
    simp only [List.cons_append, List.nil_append]
    rw [if_neg (by rw [lead_iff]; omega), if_neg (by rw [two_iff]; omega),
      if_pos ((three_iff _ _ _).mpr ⟨lead, tail, tail', long, apart⟩)]
  | four lead tail tail' tail'' long within =>
    rw [List.cons_append, Text.decode?.eq_def]
    simp only [List.cons_append, List.nil_append]
    rw [if_neg (by rw [lead_iff]; omega), if_neg (by rw [two_iff]; omega), if_neg (by rw [three_iff]; omega),
      if_pos ((four_iff _ _ _ _).mpr ⟨lead, tail, tail', tail'', long, within⟩)]

theorem toNat_ofNat {n : Nat} (valid : n.isValidChar) : (Char.ofNat n).toNat = n := by
  unfold Char.ofNat
  rw [dif_pos valid]
  rfl

theorem tail_split {b : UInt8} (tail : isTail b) : b.toNat = 128 + tailBits b ∧ tailBits b < 64 := by
  obtain ⟨least, most⟩ := (isTail_iff b).mp tail
  unfold tailBits
  omega

theorem ofNat_eq {n : Nat} {a : UInt8} (same : n = a.toNat) : UInt8.ofNat n = a := by
  rw [same, UInt8.ofNat_toNat]

theorem Shortest.valid {n : Nat} {bytes : Bytes} (form : Shortest n bytes) : n.isValidChar := by
  unfold Nat.isValidChar
  cases form with
  | one lead => omega
  | two lead tail =>
    have bits := tail_split tail
    omega
  | three lead tail tail' long apart =>
    have bits := tail_split tail
    have bits' := tail_split tail'
    omega
  | four lead tail tail' tail'' long within =>
    have bits := tail_split tail
    have bits' := tail_split tail'
    have bits'' := tail_split tail''
    omega

theorem Shortest.encode {n : Nat} {bytes : Bytes} (form : Shortest n bytes) :
    String.utf8EncodeChar (Char.ofNat n) = bytes := by
  have number : (Char.ofNat n).val.toNat = n := toNat_ofNat form.valid
  unfold String.utf8EncodeChar
  simp only [number]
  cases form with
  | one lead =>
    rw [if_pos (by omega), ofNat_eq rfl]
  | two lead tail =>
    have bits := tail_split tail
    rw [if_neg (by omega), if_pos (by omega)]
    simp only [List.cons.injEq, and_true]
    exact ⟨ofNat_eq (by omega), ofNat_eq (by omega)⟩
  | three lead tail tail' long apart =>
    have bits := tail_split tail
    have bits' := tail_split tail'
    rw [if_neg (by omega), if_neg (by omega), if_pos (by omega)]
    simp only [List.cons.injEq, and_true]
    exact ⟨ofNat_eq (by omega), ofNat_eq (by omega), ofNat_eq (by omega)⟩
  | four lead tail tail' tail'' long within =>
    have bits := tail_split tail
    have bits' := tail_split tail'
    have bits'' := tail_split tail''
    rw [if_neg (by omega), if_neg (by omega), if_neg (by omega)]
    simp only [List.cons.injEq, and_true]
    exact ⟨ofNat_eq (by omega), ofNat_eq (by omega), ofNat_eq (by omega), ofNat_eq (by omega)⟩

theorem shortest_encode (c : Char) : Shortest c.toNat (String.utf8EncodeChar c) := by
  have valid : c.toNat < 0xd800 ∨ 0xdfff < c.toNat ∧ c.toNat < 0x110000 := c.valid
  have byte {n : Nat} (small : n < 256) : (UInt8.ofNat n).toNat = n := UInt8.toNat_ofNat_of_lt' small
  have tail (n : Nat) : isTail (.ofNat (n % 64 + 128)) ∧ tailBits (.ofNat (n % 64 + 128)) = n % 64 := by
    rw [isTail_iff]
    unfold tailBits
    rw [byte (by omega)]
    omega
  unfold String.utf8EncodeChar
  simp only [Char.toNat_val]
  generalize c.toNat = n at valid
  have second := tail n
  have third := tail (n / 64)
  have fourth := tail (n / 4096)
  split
  · have form := Shortest.one (a := .ofNat n) (by rw [byte (by omega)]; omega)
    rwa [byte (by omega)] at form
  · split
    · have lead : (UInt8.ofNat (n / 64 % 32 + 192)).toNat = n / 64 % 32 + 192 := byte (by omega)
      have form := Shortest.two (a := .ofNat (n / 64 % 32 + 192)) (by omega) second.1
      have number : 64 * ((n / 64 % 32 + 192) % 32) + n % 64 = n := by omega
      rwa [lead, second.2, number] at form
    · split
      · have lead : (UInt8.ofNat (n / 4096 % 16 + 224)).toNat = n / 4096 % 16 + 224 := byte (by omega)
        have after : (UInt8.ofNat (n / 64 % 64 + 128)).toNat = n / 64 % 64 + 128 := byte (by omega)
        have form := Shortest.three (a := .ofNat (n / 4096 % 16 + 224)) (by omega) third.1 second.1 (by omega) (by omega)
        have number : 4096 * ((n / 4096 % 16 + 224) % 16) + 64 * (n / 64 % 64) + n % 64 = n := by omega
        rwa [lead, third.2, second.2, number] at form
      · have lead : (UInt8.ofNat (n / 262144 % 8 + 240)).toNat = n / 262144 % 8 + 240 := byte (by omega)
        have after : (UInt8.ofNat (n / 4096 % 64 + 128)).toNat = n / 4096 % 64 + 128 := byte (by omega)
        have form := Shortest.four (a := .ofNat (n / 262144 % 8 + 240)) (by omega) fourth.1 third.1 second.1 (by omega)
          (by omega)
        have number : 262144 * ((n / 262144 % 8 + 240) % 8) + 4096 * (n / 4096 % 64) + 64 * (n / 64 % 64) + n % 64 =
            n := by omega
        rwa [lead, fourth.2, third.2, second.2, number] at form

theorem shortest_of_decode? {bytes : Bytes} {t : Text} (read : decode? bytes = some t) :
    bytes = [] ∧ t = [] ∨ ∃ n form rest others, Shortest n form ∧ bytes = form ++ rest ∧
      decode? rest = some others ∧ t = Char.ofNat n :: others := by
  have begins {n : Nat} {form rest : Bytes} (shortest : Shortest n form)
      (read : (decode? rest).map (Char.ofNat n :: ·) = some t) :
      ∃ n' form' rest' others, Shortest n' form' ∧ form ++ rest = form' ++ rest' ∧ decode? rest' = some others ∧
        t = Char.ofNat n' :: others := by
    obtain ⟨others, later, same⟩ := Option.map_eq_some_iff.mp read
    exact ⟨n, form, rest, others, shortest, rfl, later, same.symm⟩
  rw [decode?.eq_def] at read
  split at read
  · cases read
    exact .inl ⟨rfl, rfl⟩
  · rename_i a rest
    right
    split at read
    · rename_i lead
      exact begins (.one (UInt8.lt_iff_toNat_lt.mp lead)) read
    · split at read
      · cases read
      · rename_i b rest
        split at read
        · rename_i two
          obtain ⟨lead, tail⟩ := (two_iff a b).mp two
          exact begins (.two lead tail) read
        · split at read
          · cases read
          · rename_i c rest
            split at read
            · rename_i three
              obtain ⟨lead, tail, tail', long, apart⟩ := (three_iff a b c).mp three
              exact begins (.three lead tail tail' long apart) read
            · split at read
              · cases read
              · rename_i d rest
                split at read
                · rename_i four
                  obtain ⟨lead, tail, tail', tail'', long, within⟩ := (four_iff a b c d).mp four
                  exact begins (.four lead tail tail' tail'' long within) read
                · cases read

theorem encode_cons (c : Char) (t : Text) : encode (c :: t) = String.utf8EncodeChar c ++ encode t := List.flatMap_cons ..

theorem decode_encode (t : Text) : decode? (encode t) = some t := by
  induction t with
  | nil => rfl
  | cons c t ih =>
    rw [encode_cons, (shortest_encode c).decode?, ih, Char.ofNat_toNat]
    rfl

theorem encode_of_decode? {bytes : Bytes} {t : Text} (read : decode? bytes = some t) : encode t = bytes := by
  induction t generalizing bytes with
  | nil =>
    rcases shortest_of_decode? read with ⟨rfl, -⟩ | ⟨n, form, rest, others, -, -, -, impossible⟩
    · rfl
    · cases impossible
  | cons c t ih =>
    rcases shortest_of_decode? read with ⟨-, impossible⟩ | ⟨n, form, rest, others, shortest, rfl, later, same⟩
    · cases impossible
    · cases same
      rw [encode_cons, shortest.encode, ih later]

theorem not_mem_normalizeLines (t : Text) : '\r' ∉ normalizeLines t := by
  fun_induction normalizeLines t with
  | case1 rest ih => simp [ih]
  | case2 rest _ ih => simp [ih]
  | case3 c rest _ other ih =>
    rw [List.mem_cons, not_or]
    exact ⟨fun same => other same.symm, ih⟩
  | case4 => exact List.not_mem_nil

theorem normalizeLines_of_free {t : Text} (free : '\r' ∉ t) : normalizeLines t = t := by
  fun_induction normalizeLines t with
  | case1 rest ih => simp at free
  | case2 rest _ ih => simp at free
  | case3 c rest _ _ ih => rw [ih fun inside => free (List.mem_cons_of_mem c inside)]
  | case4 => rfl

theorem encode_normalizeLines_iff {bytes : Bytes} {t : Text} (read : decode? bytes = some t) :
    encode (normalizeLines t) = bytes ↔ '\r' ∉ t := by
  constructor
  · intro same
    rw [← same, decode_encode] at read
    rw [← Option.some.inj read]
    exact not_mem_normalizeLines t
  · intro free
    rw [normalizeLines_of_free free]
    exact encode_of_decode? read

end Flipbook.Text
