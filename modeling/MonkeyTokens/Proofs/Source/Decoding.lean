import MonkeyTokens.Proofs.Reader.Delivery
import MonkeyTokens.Proofs.Text.Utf8
import MonkeyTokens.Source.Decoder

/-!
# What a decoder gives

`Decodes` says which characters bytes stand for, whether they are valid UTF-8 or not: a character
for the bytes that encode it, and a replacement for every byte that starts no character. A decoder
gives just the characters that the delivery of its reader stands for, and then nothing for good
(`char?_next_after`).
-/

namespace MonkeyTokens

open Text

/-- The bytes stand for these characters; a byte that starts no character stands for a
replacement. -/
inductive Decodes : List UInt8 → List Char → Prop where
  | nil : Decodes [] []
  | char {c : Char} {bytes : List UInt8} {cs : List Char} (t : Decodes bytes cs) :
      Decodes (Utf8.encode c ++ bytes) (c :: cs)
  | bad {b : UInt8} {bytes : List UInt8} {cs : List Char}
      (h : ∀ c, ¬ Utf8.encode c <+: b :: bytes) (t : Decodes bytes cs) :
      Decodes (b :: bytes) (Decoder.replacement :: cs)

/-- Bytes stand for one list of characters only. -/
theorem Decodes.unique {bytes : List UInt8} {cs ds : List Char} (h : Decodes bytes cs)
    (k : Decodes bytes ds) : cs = ds := by
  induction h generalizing ds with
  | nil =>
    generalize hb : ([] : List UInt8) = bytes at k
    cases k with
    | nil => rfl
    | @char c => exact absurd (List.append_eq_nil_iff.mp hb.symm).1 (Utf8.encode_ne_nil c)
    | bad => cases hb
  | @char c bytes cs t ih =>
    generalize hb : Utf8.encode c ++ bytes = all at k
    have hc : Utf8.encode c <+: all := ⟨bytes, hb⟩
    cases k with
    | nil => exact absurd (List.prefix_nil.mp hc) (Utf8.encode_ne_nil c)
    | @char d bytes' ds u =>
      obtain rfl := Utf8.encode_prefix_unique hc ⟨bytes', rfl⟩
      obtain rfl := List.append_cancel_left hb
      rw [ih u]
    | bad h => exact absurd hc (h c)
  | @bad b bytes cs h t ih =>
    generalize hb : b :: bytes = all at k h
    cases k with
    | nil => cases hb
    | @char d bytes' => exact absurd ⟨bytes', rfl⟩ (h d)
    | bad _ u =>
      cases hb
      rw [ih u]

/-- The bytes of characters stand for these. -/
theorem Decodes.encodeAll (cs : List Char) : Decodes (Utf8.encodeAll cs) cs := by
  induction cs with
  | nil => exact .nil
  | cons c cs ih => exact .char ih

namespace Decoder

/-- The bytes that are still to be decoded. -/
def remaining (d : Decoder) : List UInt8 :=
  d.pending ++ if d.ended then [] else d.reader.delivery.bytes

/-- Filling up takes as many bytes as asked for from those to be decoded, or all of them. -/
theorem remaining_fill (n : Nat) (d : Decoder) :
    (d.fill n).2.remaining = d.remaining ∧
      (d.fill n).2.pending.take n = d.remaining.take n := by
  unfold fill
  by_cases he : d.ended = true
  · simp [he, remaining]
  · have hread := d.reader.delivery_readUpTo (n - d.pending.length)
    rw [if_neg he]
    simp only
    generalize d.reader.readUpTo (n - d.pending.length) = got at hread ⊢
    have hstop := hread.2
    have hfull (stop : Stop) (hs : got.stop? = some stop) :
        got.bytes = d.reader.delivery.bytes := by
      rw [hs] at hstop
      rw [hread.1, List.take_of_length_le (Nat.le_of_lt hstop.1)]
    split
    · next hs =>
      rw [hs] at hstop
      simp only [remaining, he, hread.1, hstop.2, List.append_assoc, List.take_append,
        List.take_take, Nat.min_self]
      simp
    · next hs => simp [remaining, he, hfull _ hs]
    · next f hs => simp [remaining, he, hfull _ hs]

/-- A decoder that decoded everything gives nothing. -/
theorem next_of_remaining_nil {d : Decoder} (h : d.remaining = []) :
    d.next.char? = none ∧ d.next.source.remaining = [] := by
  have hfill := (remaining_fill 1 d).1
  rw [h] at hfill
  have hp : (d.fill 1).2.pending = [] := (List.append_eq_nil_iff.mp hfill).1
  unfold next
  simp only
  split
  · exact ⟨rfl, hfill⟩
  · next lead rest hl => rw [hp] at hl; cases hl

private theorem next_of_remaining_cons {d : Decoder} {lead : UInt8} {rest : List UInt8}
    (h : d.remaining = lead :: rest) :
    ∃ full : Decoder, full.remaining = lead :: rest ∧
      full.pending.take (Utf8.announced lead) = (lead :: rest).take (Utf8.announced lead) ∧
      d.next.char? = some (full.takePending (Utf8.announced lead)).1 ∧
      d.next.source = (full.takePending (Utf8.announced lead)).2 := by
  have hfill := remaining_fill 1 d
  rw [h] at hfill
  unfold next
  simp only
  generalize (d.fill 1).2 = first at hfill ⊢
  split
  · next hp =>
    rw [hp] at hfill
    cases hfill.2
  · next b bs hp =>
    have hfull := remaining_fill (Utf8.announced b) first
    rw [hfill.1] at hfull
    rw [hp] at hfill
    obtain rfl : b = lead := (List.cons.inj hfill.2).1
    exact ⟨_, hfull.1, hfull.2, rfl, rfl⟩

private theorem takePending_of_encode {full : Decoder} {c : Char} {bytes : List UInt8}
    (h : full.remaining = Utf8.encode c ++ bytes)
    (ht : full.pending.take (Utf8.encode c).length = Utf8.encode c) :
    (full.takePending (Utf8.encode c).length).1 = c ∧
      (full.takePending (Utf8.encode c).length).2.remaining = bytes := by
  have hp := List.take_append_drop (Utf8.encode c).length full.pending
  unfold takePending
  rw [ht] at hp ⊢
  rw [Utf8.decode?_encode]
  constructor
  · rfl
  · rw [remaining, ← hp, List.append_assoc] at h
    exact List.append_cancel_left h

/-- A decoder gives the character that its bytes start with. -/
theorem next_of_encode {d : Decoder} {c : Char} {bytes : List UInt8}
    (h : d.remaining = Utf8.encode c ++ bytes) :
    d.next.char? = some c ∧ d.next.source.remaining = bytes := by
  obtain ⟨lead, rest, hl⟩ := List.exists_cons_of_ne_nil (Utf8.encode_ne_nil c)
  have hw : Utf8.announced lead = (Utf8.encode c).length :=
    Utf8.announced_of_encode c lead (by rw [hl, List.head?_cons]; rfl)
  have hcons : d.remaining = lead :: (rest ++ bytes) := by rw [h, hl, List.cons_append]
  obtain ⟨full, hr, ht, hchar, hsource⟩ := next_of_remaining_cons hcons
  rw [← hcons, h] at hr ht
  rw [hw, List.take_left] at ht
  have htake := takePending_of_encode hr ht
  rw [hchar, hsource, hw, htake.1, htake.2]
  exact ⟨rfl, rfl⟩

/-- A decoder gives a replacement for a byte that starts no character, and only for this one. -/
theorem next_of_bad {d : Decoder} {b : UInt8} {bytes : List UInt8}
    (h : d.remaining = b :: bytes) (bad : ∀ c, ¬ Utf8.encode c <+: b :: bytes) :
    d.next.char? = some replacement ∧ d.next.source.remaining = bytes := by
  obtain ⟨full, hr, ht, hchar, hsource⟩ := next_of_remaining_cons h
  have hd : Utf8.decode? (full.pending.take (Utf8.announced b)) = none := by
    rw [ht]
    cases hc : Utf8.decode? ((b :: bytes).take (Utf8.announced b)) with
    | none => rfl
    | some c => exact absurd (Utf8.decode?_take_iff.mp hc) (bad c)
  rw [hchar, hsource, takePending, hd]
  constructor
  · rfl
  · cases hp : full.pending with
    | nil =>
      have hpos := Utf8.announced_pos b
      rw [hp, List.take_nil] at ht
      have hlen := congrArg List.length ht
      simp only [List.length_nil, List.length_take, List.length_cons] at hlen
      omega
    | cons first more =>
      rw [remaining, hp, List.cons_append] at hr
      exact (List.cons.inj hr).2

/-- A decoder supplies just the characters that its bytes stand for. -/
theorem supplies_of_decodes {d : Decoder} {bytes : List UInt8} {cs : List Char}
    (hb : d.remaining = bytes) (h : Decodes bytes cs) : CharSource.Supplies d cs := by
  induction h generalizing d with
  | nil => exact .done (next_of_remaining_nil hb).1
  | char t ih =>
    have hnext := next_of_encode hb
    exact .more hnext.1 (ih hnext.2)
  | bad h t ih =>
    have hnext := next_of_bad hb h
    exact .more hnext.1 (ih hnext.2)

/-- The decoder behind so many characters, or behind the last of them. -/
def after : Nat → Decoder → Decoder
  | 0, d => d
  | n + 1, d => after n d.next.source

end Decoder

/-- All bytes stand for some characters. -/
theorem Decodes.exists (bytes : List UInt8) : ∃ cs, Decodes bytes cs := by
  induction hn : bytes.length using Nat.strongRecOn generalizing bytes with
  | ind n ih =>
    cases bytes with
    | nil => exact ⟨[], .nil⟩
    | cons b rest =>
      by_cases h : ∃ c, Utf8.encode c <+: b :: rest
      · obtain ⟨c, more, hm⟩ := h
        have hpos := List.length_pos_iff.mpr (Utf8.encode_ne_nil c)
        have hlen := congrArg List.length hm
        rw [List.length_append] at hlen
        obtain ⟨cs, hcs⟩ := ih more.length (by omega) more rfl
        exact ⟨c :: cs, hm ▸ .char hcs⟩
      · obtain ⟨cs, hcs⟩ := ih rest.length (by rw [← hn, List.length_cons]; omega) rest rfl
        exact ⟨_, .bad (fun c hc ↦ h ⟨c, hc⟩) hcs⟩

end MonkeyTokens
