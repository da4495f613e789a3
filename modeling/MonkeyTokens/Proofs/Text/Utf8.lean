import MonkeyTokens.Text.Utf8

/-!
# UTF-8, read backwards

The first byte of a character tells how many bytes it has (`announced_of_encode`), and its bytes
tell the character (`decode?_encode`). So whether a sequence of bytes starts with a character can
be seen from as many bytes as its first one announces (`decode?_take_iff`), and these are no other
text than this character (`decodeText?_take`). The byte of a line feed is in no other character
(`feed_mem_encode_iff`), so that a text can be cut into lines before it is decoded.
-/

namespace MonkeyTokens.Text.Utf8

private theorem toNat_lt (c : Char) : c.toNat < 1114112 := by
  have h := c.valid
  simp only [UInt32.isValidChar, Nat.isValidChar] at h
  rw [Char.toNat]
  omega

/-- Every character has a byte. -/
theorem encode_ne_nil (c : Char) : encode c ≠ [] := String.utf8EncodeChar_ne_nil

private theorem payload_encode (c : Char) : payload (encode c) = c.toNat := by
  have h := toNat_lt c
  rw [Char.toNat] at h ⊢
  unfold encode
  fun_cases String.utf8EncodeChar c with
  | case1 v hv | case2 v hv hw | case3 v hv hw hx | case4 v hv hw hx =>
    simp only [payload, UInt8.toNat_ofNat']
    omega

/-- The bytes of a character are decoded to it. -/
theorem decode?_encode (c : Char) : decode? (encode c) = some c := by
  rw [decode?, payload_encode, Char.ofNat_toNat]
  exact if_pos rfl

private theorem announced_eq (lead : UInt8) :
    announced lead =
      if 194 ≤ lead.toNat ∧ lead.toNat ≤ 223 then 2
      else if 224 ≤ lead.toNat ∧ lead.toNat ≤ 239 then 3
      else if 240 ≤ lead.toNat ∧ lead.toNat ≤ 244 then 4
      else 1 := by
  simp only [announced, UInt8.le_iff_toNat_le]
  rfl

/-- The first byte of a character announces how many it has. -/
theorem announced_of_encode (c : Char) :
    ∀ lead ∈ (encode c).head?, announced lead = (encode c).length := by
  have h := toNat_lt c
  rw [Char.toNat] at h
  unfold encode
  fun_cases String.utf8EncodeChar c with
  | case1 v hv =>
    rintro lead ⟨⟩
    simp only [announced_eq, UInt8.toNat_ofNat', List.length_cons, List.length_nil]
    rw [if_neg (by omega), if_neg (by omega), if_neg (by omega)]
  | case2 v hv hw =>
    rintro lead ⟨⟩
    simp only [announced_eq, UInt8.toNat_ofNat', List.length_cons, List.length_nil]
    rw [if_pos (by omega)]
  | case3 v hv hw hx =>
    rintro lead ⟨⟩
    simp only [announced_eq, UInt8.toNat_ofNat', List.length_cons, List.length_nil]
    rw [if_neg (by omega), if_pos (by omega)]
  | case4 v hv hw hx =>
    rintro lead ⟨⟩
    simp only [announced_eq, UInt8.toNat_ofNat', List.length_cons, List.length_nil]
    rw [if_neg (by omega), if_neg (by omega), if_pos (by omega)]

/-- Four bytes are the most that are announced. -/
theorem announced_le (lead : UInt8) : announced lead ≤ 4 := by
  unfold announced
  repeat' split
  all_goals decide

/-- As many bytes as the first one announces are a character exactly if the bytes start with
that character. -/
theorem decode?_take_iff {lead : UInt8} {rest : List UInt8} {c : Char} :
    decode? ((lead :: rest).take (announced lead)) = some c ↔ encode c <+: lead :: rest := by
  constructor
  · intro h
    rw [encode_of_decode? h]
    exact List.take_prefix _ _
  · intro h
    obtain ⟨more, hm⟩ := h
    have hh : (encode c).head? = some lead := by
      obtain ⟨b, bs, hb⟩ := List.exists_cons_of_ne_nil (encode_ne_nil c)
      rw [hb] at hm ⊢
      rw [(List.cons.inj hm).1, List.head?_cons]
    rw [announced_of_encode c lead hh, ← hm, List.take_left, decode?_encode]

/-- Bytes start with at most one character. -/
theorem encode_prefix_unique {c d : Char} {bytes : List UInt8} (hc : encode c <+: bytes)
    (hd : encode d <+: bytes) : c = d := by
  cases bytes with
  | nil => exact absurd (List.prefix_nil.mp hc) (encode_ne_nil c)
  | cons lead rest =>
    exact Option.some.inj ((decode?_take_iff.mpr hc).symm.trans (decode?_take_iff.mpr hd))

/-- Only a line feed has the byte of a line feed in it. -/
theorem feed_mem_encode_iff {c : Char} : 10 ∈ encode c ↔ c = '\n' := by
  constructor
  · intro h
    have hc := toNat_lt c
    rw [Char.toNat] at hc
    have hn : c.val.toNat = 10 := by
      unfold encode at h
      revert h
      fun_cases String.utf8EncodeChar c with
      | case1 v hv | case2 v hv hw | case3 v hv hw hx | case4 v hv hw hx =>
        intro h
        simp only [List.mem_cons, List.not_mem_nil, or_false, ← UInt8.toNat_inj,
          UInt8.toNat_ofNat', UInt8.toNat_ofNat] at h
        omega
    rw [← Char.ofNat_toNat c, Char.toNat, hn]
  · rintro rfl
    decide

/-- The bytes of characters, one after the other. -/
def encodeAll (cs : List Char) : List UInt8 := cs.flatMap encode

/-- The bytes of a character come before those of the others. -/
@[simp] theorem encodeAll_cons (c : Char) (cs : List Char) :
    encodeAll (c :: cs) = encode c ++ encodeAll cs := List.flatMap_cons

/-- The bytes of the first characters come before those of the others. -/
theorem encodeAll_append (cs ds : List Char) :
    encodeAll (cs ++ ds) = encodeAll cs ++ encodeAll ds := List.flatMap_append

private theorem encodeAll_singleton (c : Char) :
    encodeAll [c] = encode c := List.flatMap_singleton _ _

private theorem encodeAll_eq_nil_iff {cs : List Char} : encodeAll cs = [] ↔ cs = [] := by
  cases cs with
  | nil => exact iff_of_true rfl rfl
  | cons c cs => simp [encode_ne_nil c]

/-- The byte of a line feed is among those of characters only if a line feed is one of them. -/
theorem feed_mem_encodeAll_iff {cs : List Char} : 10 ∈ encodeAll cs ↔ '\n' ∈ cs := by
  rw [encodeAll, List.mem_flatMap]
  constructor
  · rintro ⟨c, hc, hb⟩
    rwa [feed_mem_encode_iff.mp hb] at hc
  · intro h
    exact ⟨'\n', h, feed_mem_encode_iff.mpr rfl⟩

/-- The bytes of a text are those of its characters. -/
theorem toUTF8_eq_encodeAll (text : String) : text.toUTF8.data.toList = encodeAll text.toList := by
  rw [String.toUTF8_eq_toByteArray, ← String.utf8Encode_toList, List.utf8Encode,
    List.data_toByteArray]
  rfl

/-- Bytes of characters are decoded to these. -/
theorem decodeText?_encodeAll (cs : List Char) :
    decodeText? (encodeAll cs) = some (String.ofList cs) := by
  have hb : (encodeAll cs).toByteArray = cs.utf8Encode := rfl
  rw [decodeText?, hb, String.fromUTF8?, dif_pos ByteArray.isValidUTF8_utf8Encode]
  apply congrArg some
  rw [← String.toByteArray_inj, String.toByteArray_ofList]
  rfl

/-- Bytes are decoded to a text exactly if they are its bytes. -/
theorem decodeText?_eq_some_iff {bytes : List UInt8} {text : String} :
    decodeText? bytes = some text ↔ text.toUTF8.data.toList = bytes := by
  constructor
  · intro h
    rw [decodeText?, String.fromUTF8?] at h
    split at h
    · cases h
      change bytes.toByteArray.data.toList = bytes
      rw [List.data_toByteArray]
    · cases h
  · rintro rfl
    rw [toUTF8_eq_encodeAll, decodeText?_encodeAll, String.ofList_toList]

/-- As many bytes as the first one announces are no other text than a single character. -/
theorem decodeText?_take (lead : UInt8) (rest : List UInt8) :
    decodeText? ((lead :: rest).take (announced lead)) =
      (decode? ((lead :: rest).take (announced lead))).map String.singleton := by
  cases htext : decodeText? ((lead :: rest).take (announced lead)) with
  | none =>
    cases hc : decode? ((lead :: rest).take (announced lead)) with
    | none => rfl
    | some c =>
      -- the bytes of one character would be a text
      have hone := decodeText?_encodeAll [c]
      rw [encodeAll_singleton, encode_of_decode? hc, htext] at hone
      cases hone
  | some text =>
    have hbytes := decodeText?_eq_some_iff.mp htext
    rw [toUTF8_eq_encodeAll] at hbytes
    cases hcs : text.toList with
    | nil =>
      have hpos := announced_pos lead
      rw [hcs] at hbytes
      simp [encodeAll, List.take_eq_nil_iff, Nat.pos_iff_ne_zero.mp hpos] at hbytes
    | cons c cs =>
      rw [hcs, encodeAll_cons] at hbytes
      have hfront : encode c <+: (lead :: rest).take (announced lead) := ⟨_, hbytes⟩
      have hc := decode?_take_iff.mpr (hfront.trans (List.take_prefix _ _))
      -- the first character takes up all that was announced
      rw [← encode_of_decode? hc, List.append_right_eq_self, encodeAll_eq_nil_iff] at hbytes
      rw [hc, Option.map_some, ← String.ofList_toList (s := text), hcs, hbytes]
      rfl

/-- Where as many bytes as the first one announces are a text, there are that many, and the text is
the one character that they encode. -/
theorem exists_char_of_decodeText?_take {lead : UInt8} {rest : List UInt8} {text : String}
    (h : decodeText? ((lead :: rest).take (announced lead)) = some text) :
    announced lead ≤ (lead :: rest).length ∧
      ∃ c, text = String.singleton c ∧ encode c = (lead :: rest).take (announced lead) ∧
        (encode c).length = announced lead := by
  rw [decodeText?_take, Option.map_eq_some_iff] at h
  obtain ⟨c, hc, rfl⟩ := h
  have hcut := encode_of_decode? hc
  have hpos := announced_pos lead
  have hlen : (encode c).length = announced lead := by
    refine (announced_of_encode c lead ?_).symm
    rw [hcut, List.head?_take, if_neg (by omega)]
    rfl
  refine ⟨?_, c, rfl, hcut, hlen⟩
  rw [← hlen, hcut]
  exact List.length_take_le' _ _

end MonkeyTokens.Text.Utf8
