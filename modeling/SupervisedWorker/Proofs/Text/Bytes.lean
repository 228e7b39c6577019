import SupervisedWorker.Proofs.Text.Lines

/-!
# A text can be read from its bytes

The bytes of a character tell how many they are and which character they stand for, so that what is
shown of the bytes of a text is the text.

Results:
1. `firstChar_encode`: a character is read from its bytes, whatever follows them.
2. `readable_utf8`, `exactly?_eq_some`: a text is read from its bytes, and from no others.
-/

namespace SupervisedWorker.Text

/-! ## 1. One character -/

theorem toNat_byte {n : Nat} (h : n < 256) : (UInt8.ofNat n).toNat = n := by
  rw [UInt8.toNat_ofNat']
  exact Nat.mod_eq_of_lt h

theorem isContinuation_byte {n : Nat} (h : 128 ≤ n ∧ n < 192) :
    isContinuation (UInt8.ofNat n) = true := by
  have hn := toNat_byte (n := n) (by omega)
  simp only [isContinuation, Bool.and_eq_true, decide_eq_true_eq, UInt8.le_iff_toNat_le, hn]
  exact ⟨h.1, Nat.le_of_lt_succ h.2⟩

theorem firstChar_one {lead : UInt8} (h : lead.toNat < 128) (rest : List UInt8) :
    firstChar lead rest = (some (Char.ofNat lead.toNat), 0) := by
  have hlead : lead < 0x80 := UInt8.lt_iff_toNat_lt.mpr h
  unfold firstChar
  exact if_pos hlead

theorem firstChar_two {lead b : UInt8} (h : 194 ≤ lead.toNat ∧ lead.toNat < 224)
    (hb : isContinuation b = true) (rest : List UInt8) :
    firstChar lead (b :: rest) = (some (charOfBits lead 32 [b]), 1) := by
  have hone : ¬lead < 0x80 := by
    rw [UInt8.lt_iff_toNat_lt]
    exact Nat.not_lt.mpr (by simp; omega)
  have htwo : (0xC2 ≤ lead && lead ≤ 0xDF) = true := by
    simp [UInt8.le_iff_toNat_le]
    omega
  unfold firstChar
  rw [if_neg hone, if_pos htwo]
  simp [hb]

theorem firstChar_three {lead b c : UInt8} (h : 224 ≤ lead.toNat ∧ lead.toNat < 240)
    (hb : secondByte lead b = true) (hc : isContinuation c = true) (rest : List UInt8) :
    firstChar lead (b :: c :: rest) = (some (charOfBits lead 16 [b, c]), 2) := by
  have hone : ¬lead < 0x80 := by
    rw [UInt8.lt_iff_toNat_lt]
    exact Nat.not_lt.mpr (by simp; omega)
  have htwo : ¬(0xC2 ≤ lead && lead ≤ 0xDF) = true := by
    simp [UInt8.le_iff_toNat_le]
    omega
  have hthree : (0xE0 ≤ lead && lead ≤ 0xEF) = true := by
    simp [UInt8.le_iff_toNat_le]
    omega
  unfold firstChar
  rw [if_neg hone, if_neg htwo, if_pos hthree]
  simp [hb, hc]

theorem firstChar_four {lead b c e : UInt8} (h : 240 ≤ lead.toNat ∧ lead.toNat < 245)
    (hb : secondByte lead b = true) (hc : isContinuation c = true) (he : isContinuation e = true)
    (rest : List UInt8) :
    firstChar lead (b :: c :: e :: rest) = (some (charOfBits lead 8 [b, c, e]), 3) := by
  have hone : ¬lead < 0x80 := by
    rw [UInt8.lt_iff_toNat_lt]
    exact Nat.not_lt.mpr (by simp; omega)
  have htwo : ¬(0xC2 ≤ lead && lead ≤ 0xDF) = true := by
    simp [UInt8.le_iff_toNat_le]
    omega
  have hthree : ¬(0xE0 ≤ lead && lead ≤ 0xEF) = true := by
    simp [UInt8.le_iff_toNat_le]
    omega
  have hfour : (0xF0 ≤ lead && lead ≤ 0xF4) = true := by
    simp [UInt8.le_iff_toNat_le]
    omega
  unfold firstChar
  rw [if_neg hone, if_neg htwo, if_neg hthree, if_pos hfour]
  simp [hb, hc, he]

/-- The second byte of a longer character, by the numbers of the first two bytes. -/
theorem secondByte_byte {m n : Nat} (hm : m < 256) (hn : 128 ≤ n ∧ n < 192)
    (hE0 : m = 0xE0 → 0xA0 ≤ n) (hED : m = 0xED → n < 0xA0) (hF0 : m = 0xF0 → 0x90 ≤ n)
    (hF4 : m = 0xF4 → n < 0x90) : secondByte (UInt8.ofNat m) (UInt8.ofNat n) = true := by
  have hm' := toNat_byte hm
  have hn' := toNat_byte (n := n) (by omega)
  simp only [secondByte, isContinuation, beq_iff_eq, ← UInt8.toNat_inj, UInt8.le_iff_toNat_le, hm',
    hn']
  split_ifs <;> simp only [Bool.and_eq_true, decide_eq_true_eq] <;> simp at * <;> omega

theorem charOfBits_eq (lead : UInt8) (bound : Nat) (tail : List UInt8) :
    charOfBits lead bound tail =
      Char.ofNat (tail.foldl (fun n b => n * 64 + (b.toNat - 128)) (lead.toNat % bound)) := rfl

/-- A character is read from its bytes. The cases are those of the encoding: one byte to four. -/
theorem firstChar_encode (c : Char) (rest : List UInt8) : ∃ lead tail,
    String.utf8EncodeChar c = lead :: tail ∧
      firstChar lead (tail ++ rest) = (some c, tail.length) := by
  have hvalid : c.val.toNat < 0xD800 ∨ 0xDFFF < c.val.toNat ∧ c.val.toNat < 0x110000 := c.valid
  have hchar : Char.ofNat c.val.toNat = c := Char.ofNat_toNat c
  unfold String.utf8EncodeChar
  dsimp only
  generalize c.val.toNat = v at hvalid hchar
  split
  · refine ⟨_, _, rfl, ?_⟩
    have hlead := toNat_byte (n := v) (by omega)
    rw [firstChar_one (by omega), hlead, hchar]
    rfl
  split
  · refine ⟨_, _, rfl, ?_⟩
    have hlead := toNat_byte (n := v / 64 % 32 + 192) (by omega)
    have hb := toNat_byte (n := v % 64 + 128) (by omega)
    rw [List.singleton_append, firstChar_two (by omega) (isContinuation_byte (by omega)),
      charOfBits_eq]
    have hbits : (v / 64 % 32 + 192) % 32 * 64 + (v % 64 + 128 - 128) = v := by omega
    simp only [List.foldl_cons, List.foldl_nil, hlead, hb, hbits, hchar, List.length_singleton]
  split
  · refine ⟨_, _, rfl, ?_⟩
    have hlead := toNat_byte (n := v / 4096 % 16 + 224) (by omega)
    have hb := toNat_byte (n := v / 64 % 64 + 128) (by omega)
    have hc := toNat_byte (n := v % 64 + 128) (by omega)
    have hsecond := secondByte_byte (m := v / 4096 % 16 + 224) (n := v / 64 % 64 + 128)
      (by omega) (by omega) (by omega) (by omega) (by omega) (by omega)
    rw [List.cons_append, List.singleton_append,
      firstChar_three (by omega) hsecond (isContinuation_byte (by omega)), charOfBits_eq]
    have hbits : ((v / 4096 % 16 + 224) % 16 * 64 + (v / 64 % 64 + 128 - 128)) * 64 +
        (v % 64 + 128 - 128) = v := by omega
    simp only [List.foldl_cons, List.foldl_nil, hlead, hb, hc, hbits, hchar, List.length_cons,
      List.length_nil]
  · refine ⟨_, _, rfl, ?_⟩
    have hlead := toNat_byte (n := v / 262144 % 8 + 240) (by omega)
    have hb := toNat_byte (n := v / 4096 % 64 + 128) (by omega)
    have hc := toNat_byte (n := v / 64 % 64 + 128) (by omega)
    have he := toNat_byte (n := v % 64 + 128) (by omega)
    have hsecond := secondByte_byte (m := v / 262144 % 8 + 240) (n := v / 4096 % 64 + 128)
      (by omega) (by omega) (by omega) (by omega) (by omega) (by omega)
    rw [List.cons_append, List.cons_append, List.singleton_append,
      firstChar_four (by omega) hsecond (isContinuation_byte (by omega))
        (isContinuation_byte (by omega)), charOfBits_eq]
    have hbits : (((v / 262144 % 8 + 240) % 8 * 64 + (v / 4096 % 64 + 128 - 128)) * 64 +
        (v / 64 % 64 + 128 - 128)) * 64 + (v % 64 + 128 - 128) = v := by omega
    simp only [List.foldl_cons, List.foldl_nil, hlead, hb, hc, he, hbits, hchar, List.length_cons,
      List.length_nil]

/-! ## 2. Whole texts -/

theorem readableChars_encode (l : List Char) : readableChars (encode l) = l := by
  induction l with
  | nil => rw [encode, List.flatMap_nil, readableChars]
  | cons c l ih =>
    obtain ⟨lead, tail, hc, hfirst⟩ := firstChar_encode c (encode l)
    have hencode : encode (c :: l) = lead :: (tail ++ encode l) := by
      rw [encode, List.flatMap_cons, hc]
      rfl
    rw [hencode, readableChars, hfirst]
    simp only [Option.getD_some, List.drop_left, ih]

theorem readable_utf8 (s : String) : readable (utf8 s) = s := by
  have hutf8 : utf8 s = encode s.toList := rfl
  rw [readable, hutf8, readableChars_encode, String.ofList_toList]

theorem exactly?_eq_some {bytes : List UInt8} {s : String} :
    exactly? bytes = some s ↔ bytes = utf8 s := by
  constructor
  · intro h
    rw [exactly?] at h
    split at h
    · rename_i heq
      cases h
      exact (eq_of_beq heq).symm
    · cases h
  · rintro rfl
    simp [exactly?, readable_utf8]

end SupervisedWorker.Text
