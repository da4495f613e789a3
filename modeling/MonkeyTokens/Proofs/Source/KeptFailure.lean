import MonkeyTokens.Proofs.Source.Placement

/-!
# The failure that a decoder keeps

A decoder can be asked for the next character, for its failure, and for the failure to be taken. All
replies can be told from the calls before them (`replyTo`): the characters come in order, whatever
else is asked, and the failure is there from the first call on that reaches for a byte behind the
last one, until it is taken. Behind that call nothing is read any more (`Decoder.callAll_ofReader`).
-/

namespace MonkeyTokens

/-- What a decoder can be asked for. -/
inductive DecoderCall where
  | next
  | failure
  | takeFailure
  deriving DecidableEq, Repr

/-- What is answered to a call. -/
inductive DecoderReply where
  | char (c? : Option Char)
  | failure (failure? : Option SourceFailure)
  deriving DecidableEq, Repr

namespace Decoder

/-- Answer a call. -/
def call : DecoderCall → Decoder → DecoderReply × Decoder
  | .next, d => (.char d.next.char?, d.next.source)
  | .failure, d => (.failure d.failure?, d)
  | .takeFailure, d => (.failure d.takeFailure.1, d.takeFailure.2)

/-- Answer one call after the other. -/
def callAll : List DecoderCall → Decoder → List DecoderReply × Decoder
  | [], d => ([], d)
  | c :: calls, d =>
    let (reply, e) := d.call c
    let (replies, last) := callAll calls e
    (reply :: replies, last)

end Decoder

/-! ### Replies told from earlier calls -/

/-- The calls behind the one that asks for the character of this number, if it was asked for. -/
def callsBehind : Nat → List DecoderCall → Option (List DecoderCall)
  | _, [] => none
  | 0, .next :: calls => some calls
  | n + 1, .next :: calls => callsBehind n calls
  | n, .failure :: calls | n, .takeFailure :: calls => callsBehind n calls

/-- The failure that is there behind some calls, if the call that asks for the character of number
`due` meets it: from that call on, until it is taken. -/
def kept? (failure? : Option SourceFailure) (due : Nat) (earlier : List DecoderCall) :
    Option SourceFailure :=
  match callsBehind due earlier with
  | none => none
  | some since => if .takeFailure ∈ since then none else failure?

/-- What is answered to a call, told by those before it. -/
def replyTo (cs : List Char) (failure? : Option SourceFailure) (due : Nat)
    (earlier : List DecoderCall) : DecoderCall → DecoderReply
  | .next => .char cs[earlier.count .next]?
  | .failure | .takeFailure => .failure (kept? failure? due earlier)

private theorem callsBehind_eq_none {n : Nat} {calls : List DecoderCall}
    (h : calls.count .next ≤ n) : callsBehind n calls = none := by
  fun_induction callsBehind n calls with
  | case1 => rfl
  | case2 calls => simp at h
  | case3 n calls ih => exact ih (by simpa using h)
  | case4 n calls ih | case5 n calls ih => exact ih (by simpa using h)

private theorem callsBehind_concat (n : Nat) (calls : List DecoderCall) (c : DecoderCall) :
    callsBehind n (calls ++ [c]) = match callsBehind n calls with
      | some since => some (since ++ [c])
      | none => if c = .next ∧ calls.count .next = n then some [] else none := by
  fun_induction callsBehind n calls with
  | case1 n => cases c <;> cases n <;> simp [callsBehind]
  | case2 calls => rfl
  | case3 n calls ih => simpa [callsBehind] using ih
  | case4 n calls ih | case5 n calls ih => simpa [callsBehind] using ih

variable {failure? : Option SourceFailure} {due : Nat} {earlier : List DecoderCall}

private theorem kept?_none : kept? none due earlier = none := by
  unfold kept?
  split
  · rfl
  · exact ite_self none

private theorem kept?_next : kept? failure? due (earlier ++ [.next]) =
    if earlier.count .next = due then failure? else kept? failure? due earlier := by
  rw [kept?, callsBehind_concat, kept?]
  by_cases h : earlier.count .next = due
  · rw [callsBehind_eq_none (Nat.le_of_eq h), if_pos h, if_pos ⟨rfl, h⟩]
    exact if_neg List.not_mem_nil
  · rw [if_neg h]
    cases callsBehind due earlier with
    | none => simp [h]
    | some since => simp

private theorem kept?_failure : kept? failure? due (earlier ++ [.failure]) =
    kept? failure? due earlier := by
  rw [kept?, callsBehind_concat, kept?]
  cases callsBehind due earlier with
  | none => simp
  | some since => simp

private theorem kept?_takeFailure : kept? failure? due (earlier ++ [.takeFailure]) = none := by
  rw [kept?, callsBehind_concat]
  cases callsBehind due earlier with
  | none => simp
  | some since => simp

/-! ### Replies of a decoder -/

namespace Decoder

/-- Behind some calls a decoder on a reader has progressed by those for a character, and its failure
is the one that is kept. -/
structure Follows (r : Reader) (placed : List (Nat × Char)) (earlier : List DecoderCall)
    (d : Decoder) : Prop where
  progressed : Progressed r placed (earlier.count .next) d
  failure?_eq : d.failure? =
    kept? (r.delivery.fault?.map .reading) (firstOverreach r.delivery.bytes placed) earlier

namespace Follows

variable {r : Reader} {placed : List (Nat × Char)} {earlier : List DecoderCall} {d : Decoder}

private theorem call (h : Follows r placed earlier d) (c : DecoderCall) :
    (d.call c).1 = replyTo (placed.map Prod.snd) (r.delivery.fault?.map .reading)
        (firstOverreach r.delivery.bytes placed) earlier c ∧
      Follows r placed (earlier ++ [c]) (d.call c).2 := by
  cases c with
  | next =>
    obtain ⟨hprogressed, hfault, hfailure⟩ := h.progressed.next
    refine ⟨congrArg DecoderReply.char h.progressed.rest_next.1, ?_, ?_⟩
    · rw [List.count_append]
      exact hprogressed
    · rw [kept?_next]
      refine hfailure.trans ?_
      rw [hfault, h.failure?_eq]
      split
      · next hdue =>
        rw [kept?, callsBehind_eq_none (Nat.le_of_eq hdue)]
        exact Option.or_none
      · rfl
  | failure =>
    refine ⟨congrArg DecoderReply.failure h.failure?_eq, ?_, ?_⟩
    · rw [List.count_append]
      exact h.progressed
    · rw [kept?_failure]
      exact h.failure?_eq
  | takeFailure =>
    refine ⟨congrArg DecoderReply.failure h.failure?_eq, ?_, ?_⟩
    · rw [List.count_append]
      obtain ⟨rest, ended_iff, fault_eq, behind_eq, reader_eq⟩ := h.progressed
      exact ⟨rest, ended_iff, fault_eq, behind_eq, reader_eq⟩
    · rw [kept?_takeFailure]
      rfl

private theorem callAll (h : Follows r placed earlier d) (calls : List DecoderCall) :
    Follows r placed (earlier ++ calls) (d.callAll calls).2 ∧
      ∀ k, (d.callAll calls).1[k]? = calls[k]?.map fun c ↦
        replyTo (placed.map Prod.snd) (r.delivery.fault?.map .reading)
          (firstOverreach r.delivery.bytes placed) (earlier ++ calls.take k) c := by
  induction calls generalizing earlier d with
  | nil =>
    rw [List.append_nil]
    exact ⟨h, by simp [Decoder.callAll]⟩
  | cons c calls ih =>
    obtain ⟨hreply, hnext⟩ := h.call c
    obtain ⟨hlast, hreplies⟩ := ih hnext
    rw [List.append_assoc] at hlast
    refine ⟨hlast, ?_⟩
    intro k
    cases k with
    | zero =>
      rw [List.take_zero, List.append_nil]
      exact congrArg some hreply
    | succ k =>
      have hk := hreplies k
      rw [List.append_assoc] at hk
      exact hk

end Follows

/-- The characters of a delivery have one place each, and however a decoder is called, characters
and failure mixed, the replies are those told by the earlier calls. The characters come in order,
and then none for good. If the delivery ends with a fault, this is the failure of the decoder from
the first call on for a character that reaches for a byte behind the last one, until it is taken,
and from that call on the reads behind the fault are left as they are. Otherwise there is no
failure. -/
theorem callAll_ofReader (r : Reader) :
    ∃ placed, (∀ others, DecodesFrom r.delivery.bytes 0 others ↔ others = placed) ∧
      let due := firstOverreach r.delivery.bytes placed
      (∀ calls k, (({ reader := r } : Decoder).callAll calls).1[k]? =
        calls[k]?.map (replyTo (placed.map Prod.snd) (r.delivery.fault?.map .reading) due
          (calls.take k))) ∧
      match r.delivery.fault? with
      | none => ∀ calls f, .failure (some f) ∉ (({ reader := r } : Decoder).callAll calls).1
      | some f => ∃ front behind, r.reads = front ++ .fault f :: behind ∧
          (∀ x ∈ front, x.stop? = none) ∧
          ∀ calls, due < calls.count .next →
            (({ reader := r } : Decoder).callAll calls).2.reader = ⟨behind⟩ := by
  obtain ⟨placed, hplaced⟩ := DecodesFrom.exists_unique r.delivery.bytes
  have hstart : Follows r placed [] { reader := r } :=
    ⟨.ofReader ((hplaced placed).mpr rfl), by simp [kept?, callsBehind]⟩
  have hreplies (calls : List DecoderCall) := (hstart.callAll calls).2
  refine ⟨placed, hplaced, hreplies, ?_⟩
  split
  · next hnone =>
    intro calls f hf
    obtain ⟨k, hk⟩ := List.mem_iff_getElem?.mp hf
    rw [hreplies calls k, hnone] at hk
    obtain ⟨c, -, hc⟩ := Option.map_eq_some_iff.mp hk
    cases c <;> simp [replyTo, kept?_none] at hc
  · next f hsome =>
    obtain ⟨front, hfront, hgoes⟩ := r.exists_stop hsome
    refine ⟨front, r.behindStop.reads, hfront, hgoes, ?_⟩
    intro calls hdue
    have hprogressed := (hstart.callAll calls).1.progressed
    exact hprogressed.reader_eq (hprogressed.ended_iff.mpr hdue)

/-- The first two of three bytes and then a fault: the failure is there while one of the two is
still to be decoded. -/
example :
    let gone : Fault := ⟨.brokenPipe, none⟩
    let r : Reader := ⟨[.chunk [0xE2, 0x82], .fault gone, .chunk [0x61]]⟩
    (({ reader := r } : Decoder).callAll
      [.takeFailure, .next, .failure, .next, .takeFailure, .takeFailure, .next]).1 =
      [.failure none, .char (some replacement), .failure (some (.reading gone)),
        .char (some replacement), .failure (some (.reading gone)), .failure none, .char none] := by
  decide

end Decoder
end MonkeyTokens
