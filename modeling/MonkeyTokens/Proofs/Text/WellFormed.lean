import MonkeyTokens.Proofs.Text.Utf8

/-!
# Well-formed UTF-8

`WellFormed` says of bytes that they are UTF-8 without an encoder: they are sequences of one to
four bytes, each in its range, and behind four of the first bytes the range of the second one is
narrower, so that there are no overlong forms, no surrogates and no code points out of range
(`IsSequence`). These sequences are the encodings of the characters (`isSequence_iff`), and the
well-formed bytes are those of some characters (`wellFormed_iff`).
-/

namespace MonkeyTokens.Text.Utf8

/-- The byte can come behind the first one in a sequence. -/
def Continues (b : UInt8) : Prop := 0x80 ≤ b ∧ b ≤ 0xBF

/-- The bytes are one well-formed sequence. -/
inductive IsSequence : List UInt8 → Prop where
  | one {a : UInt8} (ha : a ≤ 0x7F) : IsSequence [a]
  | two {a b : UInt8} (ha : 0xC2 ≤ a ∧ a ≤ 0xDF) (hb : Continues b) : IsSequence [a, b]
  | three {a b c : UInt8} (ha : 0xE0 ≤ a ∧ a ≤ 0xEF) (hb : Continues b) (hc : Continues c)
      (short : a = 0xE0 → 0xA0 ≤ b) (scalar : a = 0xED → b ≤ 0x9F) : IsSequence [a, b, c]
  | four {a b c d : UInt8} (ha : 0xF0 ≤ a ∧ a ≤ 0xF4) (hb : Continues b) (hc : Continues c)
      (hd : Continues d) (short : a = 0xF0 → 0x90 ≤ b) (scalar : a = 0xF4 → b ≤ 0x8F) :
      IsSequence [a, b, c, d]

/-- The bytes are well-formed sequences, one after the other. -/
inductive WellFormed : List UInt8 → Prop where
  | nil : WellFormed []
  | append {bytes more : List UInt8} (h : IsSequence bytes) (t : WellFormed more) :
      WellFormed (bytes ++ more)

/-- The bytes of a character are a sequence. -/
theorem isSequence_encode (c : Char) : IsSequence (encode c) := by
  have hvalid := c.valid
  simp only [UInt32.isValidChar, Nat.isValidChar] at hvalid
  unfold encode
  fun_cases String.utf8EncodeChar c with
  | case1 v hv =>
    apply IsSequence.one
    simp only [UInt8.le_iff_toNat_le, UInt8.toNat_ofNat', UInt8.toNat_ofNat]
    omega
  | case2 v hv hw =>
    apply IsSequence.two
    all_goals
      simp only [Continues, UInt8.le_iff_toNat_le, UInt8.toNat_ofNat', UInt8.toNat_ofNat]
      omega
  | case3 v hv hw hx =>
    apply IsSequence.three
    all_goals
      simp only [Continues, UInt8.le_iff_toNat_le, ← UInt8.toNat_inj, UInt8.toNat_ofNat',
        UInt8.toNat_ofNat]
      omega
  | case4 v hv hw hx =>
    apply IsSequence.four
    all_goals
      simp only [Continues, UInt8.le_iff_toNat_le, ← UInt8.toNat_inj, UInt8.toNat_ofNat',
        UInt8.toNat_ofNat]
      omega

private theorem val_ofNat {n : Nat} (h : n.isValidChar) : (Char.ofNat n).val.toNat = n := by
  rw [Char.ofNat, dif_pos h]
  rfl

private theorem isValidChar_payload {bytes : List UInt8} (h : IsSequence bytes) :
    (payload bytes).isValidChar := by
  unfold Nat.isValidChar
  cases h with
  | one | two | three | four =>
    simp only [Continues, UInt8.le_iff_toNat_le, ← UInt8.toNat_inj, UInt8.toNat_ofNat, payload]
      at *
    omega

private theorem encode_payload {bytes : List UInt8} (h : IsSequence bytes) :
    encode (Char.ofNat (payload bytes)) = bytes := by
  have hv := val_ofNat (isValidChar_payload h)
  rw [encode, String.utf8EncodeChar]
  simp only [hv]
  cases h with
  | one ha =>
    simp only [UInt8.le_iff_toNat_le, UInt8.toNat_ofNat] at ha
    rw [payload, if_pos ha, UInt8.ofNat_toNat]
  | two ha hb =>
    simp only [Continues, UInt8.le_iff_toNat_le, UInt8.toNat_ofNat] at ha hb
    rw [if_neg, if_pos]
    all_goals
      simp only [payload, List.cons.injEq, and_true, ← UInt8.toNat_inj, UInt8.toNat_ofNat']
      omega
  | three ha hb hc short scalar =>
    simp only [Continues, UInt8.le_iff_toNat_le, ← UInt8.toNat_inj, UInt8.toNat_ofNat]
      at ha hb hc short scalar
    rw [if_neg, if_neg, if_pos]
    all_goals
      simp only [payload, List.cons.injEq, and_true, ← UInt8.toNat_inj, UInt8.toNat_ofNat']
      omega
  | four ha hb hc hd short scalar =>
    simp only [Continues, UInt8.le_iff_toNat_le, ← UInt8.toNat_inj, UInt8.toNat_ofNat]
      at ha hb hc hd short scalar
    rw [if_neg, if_neg, if_neg]
    all_goals
      simp only [payload, List.cons.injEq, and_true, ← UInt8.toNat_inj, UInt8.toNat_ofNat']
      omega

/-- A sequence starts with a byte that continues none. -/
theorem IsSequence.not_continues_head {a : UInt8} {bytes : List UInt8}
    (h : IsSequence (a :: bytes)) : ¬ Continues a := by
  cases h with
  | one ha | two ha | three ha | four ha =>
    simp only [Continues, UInt8.le_iff_toNat_le, UInt8.toNat_ofNat] at ha ⊢
    omega

/-- All other bytes of a sequence continue it. -/
theorem IsSequence.continues_of_mem {a : UInt8} {bytes : List UInt8}
    (h : IsSequence (a :: bytes)) : ∀ b ∈ bytes, Continues b := by
  cases h with
  | one => simp
  | two _ hb => simpa using hb
  | three _ hb hc => simpa using ⟨hb, hc⟩
  | four _ hb hc hd => simpa using ⟨hb, hc, hd⟩

/-- The sequences are the encodings of characters. -/
theorem isSequence_iff {bytes : List UInt8} : IsSequence bytes ↔ ∃ c, encode c = bytes := by
  constructor
  · intro h
    exact ⟨_, encode_payload h⟩
  · rintro ⟨c, rfl⟩
    exact isSequence_encode c

/-- Bytes are well-formed exactly if they are those of some characters. -/
theorem wellFormed_iff {bytes : List UInt8} : WellFormed bytes ↔ ∃ cs, encodeAll cs = bytes := by
  constructor
  · intro h
    induction h with
    | nil => exact ⟨[], rfl⟩
    | append h _ ih =>
      obtain ⟨c, rfl⟩ := isSequence_iff.mp h
      obtain ⟨cs, rfl⟩ := ih
      exact ⟨c :: cs, encodeAll_cons c cs⟩
  · rintro ⟨cs, rfl⟩
    induction cs with
    | nil => exact .nil
    | cons c cs ih =>
      rw [encodeAll_cons]
      exact .append (isSequence_encode c) ih

end MonkeyTokens.Text.Utf8
