import MonkeyTokens.Proofs.Source.Decoding
import MonkeyTokens.Proofs.Text.WellFormed

/-!
# There and back through bytes

A decoder undoes the encoding of a text, however its bytes are cut into reads, and encoding what it
gives makes the bytes again that it was given exactly if these are well-formed
(`Decoder.drain_roundTrip`). So no ill-formed bytes pass for the text they are decoded to.
-/

namespace MonkeyTokens.Decoder

open Text

private theorem supplies_drain (d : Decoder) : CharSource.Supplies d d.drain.1 := by
  fun_induction drain d with
  | case1 d p h => exact .done h
  | case2 d p c h cs events last hrest ih =>
    rw [hrest] at ih
    exact .more h ih

/-- All of a reader is decoded to the characters that its bytes stand for. -/
theorem drain_of_decodes {r : Reader} {cs : List Char} (h : Decodes r.delivery.bytes cs) :
    ({ reader := r } : Decoder).drain.1 = cs :=
  (supplies_drain _).unique (supplies_of_decodes rfl h)

/-- From the bytes of a text, cut into reads and interrupted in whatever way, a decoder gives just
the characters of the text. From whatever bytes, what it gives has these bytes again exactly if
they are well-formed UTF-8. -/
theorem drain_roundTrip (r : Reader) :
    (∀ text : String, r.delivery.bytes = text.toUTF8.data.toList →
      ({ reader := r } : Decoder).drain.1 = text.toList) ∧
    ((String.ofList ({ reader := r } : Decoder).drain.1).toUTF8.data.toList = r.delivery.bytes ↔
      Utf8.WellFormed r.delivery.bytes) := by
  have hdecoded {cs : List Char} (h : Utf8.encodeAll cs = r.delivery.bytes) :
      ({ reader := r } : Decoder).drain.1 = cs := by
    apply drain_of_decodes
    rw [← h]
    exact .encodeAll cs
  constructor
  · intro text h
    apply hdecoded
    rw [h, Utf8.toUTF8_eq_encodeAll]
  · rw [Utf8.toUTF8_eq_encodeAll, String.toList_ofList, Utf8.wellFormed_iff]
    constructor
    · intro h
      exact ⟨_, h⟩
    · rintro ⟨cs, h⟩
      rw [hdecoded h, h]

end MonkeyTokens.Decoder
