/-!
# UTF-8

A character is encoded in one to four bytes, and the first of them announces how many. Decoding
is checked against encoding: bytes stand for a character exactly if they are its encoding
(`encode_of_decode?`), so overlong forms, surrogates and code points out of range are refused.
-/

namespace MonkeyTokens.Text.Utf8

/-- The bytes of a character. -/
def encode (c : Char) : List UInt8 := String.utf8EncodeChar c

/-- The length of the sequence that a byte can start; one for a byte that starts none. -/
def announced (lead : UInt8) : Nat :=
  if 0xC2 ≤ lead ∧ lead ≤ 0xDF then 2
  else if 0xE0 ≤ lead ∧ lead ≤ 0xEF then 3
  else if 0xF0 ≤ lead ∧ lead ≤ 0xF4 then 4
  else 1

/-- Every byte announces at least itself. -/
theorem announced_pos (lead : UInt8) : 0 < announced lead := by
  unfold announced
  repeat' split
  all_goals decide

/-- The number that the payload bits of a sequence make. -/
def payload : List UInt8 → Nat
  | [a] => a.toNat
  | [a, b] => a.toNat % 32 * 64 + b.toNat % 64
  | [a, b, c] => (a.toNat % 16 * 64 + b.toNat % 64) * 64 + c.toNat % 64
  | [a, b, c, d] => ((a.toNat % 8 * 64 + b.toNat % 64) * 64 + c.toNat % 64) * 64 + d.toNat % 64
  | _ => 0

/-- The character whose encoding is exactly these bytes. -/
def decode? (bytes : List UInt8) : Option Char :=
  let c := Char.ofNat (payload bytes)
  if encode c = bytes then some c else none

/-- A text whose encoding is exactly these bytes. -/
def decodeText? (bytes : List UInt8) : Option String := String.fromUTF8? bytes.toByteArray

/-- Decoded bytes are the encoding of the character. -/
theorem encode_of_decode? {bytes : List UInt8} {c : Char} (h : decode? bytes = some c) :
    encode c = bytes := by
  simp only [decode?] at h
  split at h
  · next he => exact Option.some.inj h ▸ he
  · cases h

end MonkeyTokens.Text.Utf8
