import MonkeyTokens.Reader.Basic
import MonkeyTokens.Source.Basic
import MonkeyTokens.Text.Utf8

/-!
# Readers as sources

A decoder reads just as many bytes as the next character needs. Bytes that stand for no
character give `replacement` for the first of them, and the others are decoded anew. The first
stop of the reader ends the input for good: the reader is not asked again, and the bytes at hand
are decoded to the last. If that stop was a fault, the decoder keeps it.
-/

namespace MonkeyTokens

/-- A reader whose bytes are decoded one character at a time. -/
structure Decoder where
  reader : Reader
  /-- Bytes that were read and not decoded yet. -/
  pending : List UInt8 := []
  /-- Whether the reader has stopped. -/
  ended : Bool := false
  /-- The failure that ended the input, until it is taken. -/
  failure? : Option SourceFailure := none
  deriving DecidableEq, Repr

namespace Decoder

open Text

/-- Stands for a byte that is no part of a character. -/
def replacement : Char := '\uFFFD'

/-- Read until this many bytes are pending or the reader stops; the fault it met, if any. -/
def fill (n : Nat) (d : Decoder) : Option Fault × Decoder :=
  if d.ended then (none, d)
  else
    let got := d.reader.readUpTo (n - d.pending.length)
    let read := { d with reader := got.rest, pending := d.pending ++ got.bytes }
    match got.stop? with
    | none => (none, read)
    | some .endOfInput => (none, { read with ended := true })
    | some (.failed f) => (some f, { read with ended := true, failure? := some (.reading f) })

/-- Take a character from the pending bytes, of which there are as many as its first byte
announces or all there will be. -/
def takePending (width : Nat) (d : Decoder) : Char × Decoder :=
  match Utf8.decode? (d.pending.take width) with
  | some c => (c, { d with pending := d.pending.drop width })
  | none => (replacement, { d with pending := d.pending.drop 1 })

/-- Decode one character. -/
def next (d : Decoder) : Pull Decoder :=
  let (fault?, first) := d.fill 1
  match first.pending with
  | [] => ⟨none, fault?, first⟩
  | lead :: _ =>
    let width := Utf8.announced lead
    let (fault?, full) := first.fill width
    let (c, rest) := full.takePending width
    ⟨some c, fault?, rest⟩

instance : CharSource Decoder where
  pull := next

/-- The failure that ended the input, which the decoder then forgets. -/
def takeFailure (d : Decoder) : Option SourceFailure × Decoder :=
  (d.failure?, { d with failure? := none })

/-- The number of bytes that are still to be decoded. -/
def size (d : Decoder) : Nat := d.pending.length + d.reader.size

/-- Filling up moves bytes from the reader to the pending ones and loses none. -/
theorem size_fill (n : Nat) (d : Decoder) : (d.fill n).2.size = d.size := by
  have h := d.reader.size_readUpTo (n - d.pending.length)
  unfold fill
  split
  · rfl
  · simp only
    split <;> simp only [size, List.length_append] <;> omega

/-- Filling up keeps what was pending in front. -/
theorem pending_fill (n : Nat) (d : Decoder) :
    ∃ more, (d.fill n).2.pending = d.pending ++ more := by
  unfold fill
  split
  · exact ⟨[], by simp⟩
  · simp only
    split <;> exact ⟨_, rfl⟩

/-- A character taken from pending bytes uses at least one of them up. -/
theorem size_takePending_lt {width : Nat} {d : Decoder} (hw : 0 < width)
    (hp : 0 < d.pending.length) : (d.takePending width).2.size < d.size := by
  unfold takePending
  split <;> simp only [size, List.length_drop] <;> omega

/-- Every character leaves fewer bytes to be decoded. -/
theorem size_next_lt {d : Decoder} {c : Char} (h : d.next.char? = some c) :
    d.next.source.size < d.size := by
  unfold next at h ⊢
  simp only at h ⊢
  split
  · simp_all
  · next lead rest hl =>
    obtain ⟨more, hm⟩ := pending_fill (Utf8.announced lead) (d.fill 1).2
    calc _ < ((d.fill 1).2.fill (Utf8.announced lead)).2.size :=
          size_takePending_lt (Utf8.announced_pos lead) (by simp [hm, hl])
      _ = d.size := by rw [size_fill, size_fill]

instance : FiniteSource Decoder := .of_measure size fun _ _ h ↦ size_next_lt h

/-- All characters that are left, the events on the way, and the decoder behind them. -/
def drain (d : Decoder) : List Char × List Event × Decoder :=
  let p := d.next
  match _h : p.char? with
  | none => ([], p.events, p.source)
  | some c =>
    let (cs, events, last) := p.source.drain
    (c :: cs, p.events ++ events, last)
termination_by d.size
decreasing_by exact size_next_lt _h

end Decoder
end MonkeyTokens
