import MonkeyTokens.Proofs.Reader.Delivery
import MonkeyTokens.Source.Decoder

/-!
# How the input of a decoder ends

A decoder keeps the fault that ends its input, and the delivery of its reader tells which one that
will be. Decoding changes nothing of it (`outcome?_next`), and where a decoder first gives no
character its input has ended (`ended_of_next`).
-/

namespace MonkeyTokens.Decoder

/-- The failure that ended the input, or the one that will end it. -/
def outcome? (d : Decoder) : Option SourceFailure :=
  if d.ended then d.failure? else (d.reader.delivery.fault?.map .reading).or d.failure?

/-- At first it is up to the reader how the input will end. -/
theorem outcome?_ofReader (r : Reader) :
    ({ reader := r } : Decoder).outcome? = r.delivery.fault?.map .reading :=
  Option.or_none

/-- Behind the end the failure is the one that ended the input. -/
theorem failure?_of_ended {d : Decoder} (h : d.ended = true) : d.failure? = d.outcome? := by
  rw [outcome?, if_pos h]

private theorem outcome?_fill (n : Nat) (d : Decoder) : (d.fill n).2.outcome? = d.outcome? := by
  unfold fill
  by_cases he : d.ended = true
  · rw [if_pos he]
  · have hstop := (d.reader.delivery_readUpTo (n - d.pending.length)).2
    have hd : d.outcome? = (d.reader.delivery.fault?.map .reading).or d.failure? := if_neg he
    rw [if_neg he, hd]
    simp only
    split
    · next hs =>
      rw [hs] at hstop
      simp [outcome?, he, hstop.2]
    · next hs =>
      rw [hs] at hstop
      simp [outcome?, ← hstop.2, Stop.fault?]
    · next f hs =>
      rw [hs] at hstop
      simp [outcome?, ← hstop.2, Stop.fault?]

private theorem outcome?_takePending (width : Nat) (d : Decoder) :
    (d.takePending width).2.outcome? = d.outcome? := by
  unfold takePending
  split <;> rfl

/-- Decoding a character does not change how the input ends. -/
theorem outcome?_next (d : Decoder) : d.next.source.outcome? = d.outcome? := by
  unfold next
  simp only
  split
  · exact outcome?_fill 1 d
  · rw [outcome?_takePending, outcome?_fill, outcome?_fill]

private theorem ended_fill {n : Nat} {d : Decoder} (h : (d.fill n).2.pending.length < n) :
    (d.fill n).2.ended = true := by
  unfold fill at h ⊢
  by_cases he : d.ended = true
  · rwa [if_pos he]
  · have hread := d.reader.delivery_readUpTo (n - d.pending.length)
    rw [if_neg he] at h ⊢
    simp only at h ⊢
    split at h
    · next hs =>
      have hlen := hread.2
      rw [hs] at hlen
      simp only [hread.1, List.length_append, List.length_take] at h
      omega
    · rfl
    · rfl

/-- Where no character is given, the input has ended. -/
theorem ended_of_next {d : Decoder} (h : d.next.char? = none) : d.next.source.ended = true := by
  unfold next at h ⊢
  simp only at h ⊢
  split
  · next hp =>
    apply ended_fill
    rw [hp]
    exact Nat.zero_lt_one
  · next hp => simp [hp] at h

private theorem outcome?_of_fault_fill {n : Nat} {d : Decoder} {f : Fault}
    (h : (d.fill n).1 = some f) : d.outcome? = some (.reading f) := by
  unfold fill at h
  by_cases he : d.ended = true
  · simp [he] at h
  · have hstop := (d.reader.delivery_readUpTo (n - d.pending.length)).2
    rw [if_neg he] at h
    simp only at h
    split at h
    · cases h
    · cases h
    · next g hs =>
      cases h
      rw [hs] at hstop
      rw [outcome?, if_neg he, ← hstop.2]
      rfl

/-- A fault that is met on the way to a character is how the input ends. -/
theorem outcome?_of_fault_next {d : Decoder} {f : Fault} (h : d.next.fault? = some f) :
    d.outcome? = some (.reading f) := by
  unfold next at h
  simp only at h
  split at h
  · exact outcome?_of_fault_fill h
  · rw [← outcome?_fill 1 d]
    exact outcome?_of_fault_fill h

end MonkeyTokens.Decoder
