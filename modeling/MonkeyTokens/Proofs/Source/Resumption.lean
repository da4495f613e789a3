import MonkeyTokens.Proofs.Source.RoundTrip

/-!
# Decoding behind damaged bytes

A byte that continues no sequence is never taken for a part of what comes before it: bytes that
start with one stand for the same characters behind whatever bytes (`Decodes.append`). So damage
ends at the next byte of this sort at the latest, and a text behind it is decoded as if there were
none (`Decoder.drain_of_append`).
-/

namespace MonkeyTokens

open Text

private theorem Text.Utf8.encode_prefix_of_append {c : Char} {b : UInt8} {bytes back : List UInt8}
    (starts : ∀ a ∈ back.head?, ¬ Continues a) (h : encode c <+: b :: bytes ++ back) :
    encode c <+: b :: bytes := by
  obtain ⟨rest, hrest⟩ := h
  rcases List.append_eq_append_iff.mp hrest with ⟨more, hmore, -⟩ | ⟨more, hmore, hback⟩
  · exact ⟨more, hmore.symm⟩
  · cases more with
    | nil => exact ⟨[], by rw [hmore, List.append_nil, List.append_nil]⟩
    | cons a more =>
      -- the first byte behind the boundary would be one of the character's other bytes
      have hseq := isSequence_encode c
      rw [hmore, List.cons_append] at hseq
      have ha : Continues a := hseq.continues_of_mem a (by simp)
      exact absurd ha (starts a (by simp [hback]))

/-- Bytes that start with one that continues no sequence stand for the same characters behind
whatever bytes come before them. -/
theorem Decodes.append {front back : List UInt8} {cs ds : List Char} (h : Decodes front cs)
    (k : Decodes back ds) (starts : ∀ a ∈ back.head?, ¬ Utf8.Continues a) :
    Decodes (front ++ back) (cs ++ ds) := by
  induction h with
  | nil => exact k
  | char t ih =>
    rw [List.append_assoc]
    exact .char ih
  | bad h t ih =>
    exact .bad (fun c hc ↦ h c (Utf8.encode_prefix_of_append starts hc)) ih

private theorem Text.Utf8.not_continues_head_encodeAll (cs : List Char) :
    ∀ a ∈ (encodeAll cs).head?, ¬ Continues a := by
  cases cs with
  | nil => simp [encodeAll]
  | cons c cs =>
    have hseq := isSequence_encode c
    obtain ⟨a, bytes, hc⟩ := List.exists_cons_of_ne_nil (encode_ne_nil c)
    rw [hc] at hseq
    rw [encodeAll_cons, hc]
    rintro b ⟨⟩
    exact hseq.not_continues_head

namespace Decoder

/-- Where a reader delivers the bytes of one reader and then those of another one that starts with
no continuing byte, its decoder gives what the decoder of the first one gives and then what that of
the second one gives, however the three readers cut their bytes. So the bytes of a text are decoded
to this text behind whatever bytes. -/
theorem drain_of_append {q r s : Reader}
    (bytes_eq : s.delivery.bytes = q.delivery.bytes ++ r.delivery.bytes) :
    ((∀ a ∈ r.delivery.bytes.head?, ¬ Utf8.Continues a) →
      ({ reader := s } : Decoder).drain.1 =
        ({ reader := q } : Decoder).drain.1 ++ ({ reader := r } : Decoder).drain.1) ∧
    ∀ text : String, r.delivery.bytes = text.toUTF8.data.toList →
      ({ reader := s } : Decoder).drain.1 = ({ reader := q } : Decoder).drain.1 ++ text.toList := by
  obtain ⟨cs, hcs⟩ := Decodes.exists q.delivery.bytes
  have happend {ds : List Char} (hds : Decodes r.delivery.bytes ds)
      (starts : ∀ a ∈ r.delivery.bytes.head?, ¬ Utf8.Continues a) :
      ({ reader := s } : Decoder).drain.1 = ({ reader := q } : Decoder).drain.1 ++ ds := by
    rw [drain_of_decodes hcs]
    apply drain_of_decodes
    rw [bytes_eq]
    exact hcs.append hds starts
  constructor
  · intro starts
    obtain ⟨ds, hds⟩ := Decodes.exists r.delivery.bytes
    rw [drain_of_decodes hds]
    exact happend hds starts
  · intro text htext
    rw [Utf8.toUTF8_eq_encodeAll] at htext
    apply happend
    · rw [htext]
      exact .encodeAll _
    · rw [htext]
      exact Utf8.not_continues_head_encodeAll _

/-- Behind the first two of three bytes comes a letter of two bytes, read in other portions. -/
theorem drain_of_append_truncated :
    let q : Reader := ⟨[.chunk [0x61, 0xE2], .chunk [0x82]]⟩
    let r : Reader := ⟨[.chunk [0xC3, 0xA9]]⟩
    let s : Reader := ⟨[.chunk [0x61], .chunk [0xE2, 0x82, 0xC3], .chunk [0xA9]]⟩
    s.delivery.bytes = q.delivery.bytes ++ r.delivery.bytes ∧
      (∀ a ∈ r.delivery.bytes.head?, ¬ Utf8.Continues a) ∧
      ({ reader := s } : Decoder).drain.1 =
        ({ reader := q } : Decoder).drain.1 ++ ({ reader := r } : Decoder).drain.1 ∧
      r.delivery.bytes = "é".toUTF8.data.toList ∧
      ({ reader := s } : Decoder).drain.1 =
        ({ reader := q } : Decoder).drain.1 ++ "é".toList := by
  intro q r s
  have hbytes : s.delivery.bytes = q.delivery.bytes ++ r.delivery.bytes := by decide
  have hstarts : ∀ a ∈ r.delivery.bytes.head?, ¬ Utf8.Continues a := by
    rintro a ⟨⟩
    unfold Utf8.Continues
    decide
  have htext : r.delivery.bytes = "é".toUTF8.data.toList := by decide
  obtain ⟨happend, hbehind⟩ := drain_of_append hbytes
  exact ⟨hbytes, hstarts, happend hstarts, htext, hbehind "é" htext⟩

end Decoder
end MonkeyTokens
