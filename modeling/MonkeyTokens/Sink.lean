import MonkeyTokens.Fault

/-!
# Sinks of bytes

A sink stores what is written to it and remembers how much it held at each flush. It may have
room for a limited number of bytes: a write that does not fit stores the part that does and
fails. It may also fail at one of its flushes.
-/

namespace MonkeyTokens

/-- What was written so far, and when the sink will fail. -/
structure Sink where
  /-- The number of bytes there is room for, if it is limited. -/
  limit? : Option Nat := none
  /-- The flush that fails, counted from one, if any does. -/
  failingFlush? : Option Nat := none
  /-- The fault to fail with, in place of the usual ones. -/
  fault? : Option Fault := none
  stored : ByteArray := .empty
  /-- The number of bytes stored at each flush that went well. -/
  flushed : Array Nat := #[]

namespace Sink

/-- The sink with these bytes behind the stored ones. -/
def store (s : Sink) (bytes : ByteArray) : Sink := { s with stored := s.stored ++ bytes }

/-- The number of bytes that still fit, of so many. -/
def room (s : Sink) (wanted : Nat) : Nat :=
  match s.limit? with
  | none => wanted
  | some limit => min wanted (limit - s.stored.size)

/-- Write bytes; the fault if not all of them fit. -/
def write (s : Sink) (bytes : ByteArray) : Option Fault × Sink :=
  let room := s.room bytes.size
  if room = bytes.size then (none, s.store bytes)
  else (some (s.fault?.getD .nothingWritten), s.store (bytes.extract 0 room))

/-- Flush; the fault if this is the flush that fails. -/
def flush (s : Sink) : Option Fault × Sink :=
  if s.failingFlush? = some (s.flushed.size + 1) then (some (s.fault?.getD .flushFailed), s)
  else (none, { s with flushed := s.flushed.push s.stored.size })

/-- No more bytes fit than are wanted. -/
theorem room_le (s : Sink) (wanted : Nat) : s.room wanted ≤ wanted := by
  unfold room
  split
  · exact Nat.le_refl _
  · exact Nat.min_le_left _ _

/-- A sink stores all bytes that it has room for. -/
theorem write_of_room {s : Sink} {bytes : ByteArray}
    (h : ∀ limit ∈ s.limit?, s.stored.size + bytes.size ≤ limit) :
    s.write bytes = (none, s.store bytes) := by
  have hroom : s.room bytes.size = bytes.size := by
    unfold room
    split
    · rfl
    · next limit hl =>
      have := h limit hl
      omega
  rw [write, if_pos hroom]

/-- A sink fails where bytes do not fit, and stores as many of them as do. -/
theorem write_of_overflow {s : Sink} {bytes : ByteArray} {limit : Nat}
    (hl : s.limit? = some limit) (hs : s.stored.size ≤ limit)
    (h : limit < s.stored.size + bytes.size) :
    s.write bytes = (some (s.fault?.getD .nothingWritten),
      s.store (bytes.extract 0 (limit - s.stored.size))) := by
  have hroom : s.room bytes.size = limit - s.stored.size := by
    simp only [room, hl]
    omega
  have hfit : s.room bytes.size ≠ bytes.size := by omega
  rw [write, if_neg hfit, hroom]

end Sink
end MonkeyTokens
