import MonkeyTokens.Proofs.Source.Placement
import MonkeyTokens.Proofs.Text.WellFormed

/-!
# Pending bytes

Between two calls at most three bytes are pending, and within one at most four. No byte is lost and
none is made up: those taken from the reader are those that the given characters account for, with
the pending ones behind them (`Accounts`). Pending bytes are taken off without looking at how many
there are, as many as the first one announces. There are always that many, since a character is
decoded only from all of its bytes, and so decoding with checked accesses never fails and gives the
same (`Decoder.nextChecked_eq`).
-/

namespace MonkeyTokens

open Text

/-! ### Bytes that a reader holds -/

namespace Reader

/-- All bytes that the reader holds, behind its stops too. -/
def bytes (r : Reader) : List UInt8 := r.reads.flatMap Read.bytes

private theorem bytes_askReads (reads : List Read) :
    bytes ⟨reads⟩ = (askReads reads).1.toOption.toList ++ (askReads reads).2.bytes := by
  fun_induction askReads reads with
  | case1 => rfl
  | case2 | case3 | case4 => simp [bytes, Read.bytes, Except.toOption]
  | case5 f rest h ih => simpa [bytes, Read.bytes] using ih
  | case6 => simp [bytes, Read.bytes, Except.toOption]

private theorem bytes_readUpTo (n : Nat) (r : Reader) :
    r.bytes = (r.readUpTo n).bytes ++ (r.readUpTo n).rest.bytes := by
  fun_induction readUpTo n r with
  | case1 => rfl
  | case2 n r stop rest h =>
    have hask := bytes_askReads r.reads
    rw [show askReads r.reads = (.error stop, rest) from h] at hask
    exact hask
  | case3 n r b rest h ih =>
    have hask := bytes_askReads r.reads
    rw [show askReads r.reads = (.ok b, rest) from h] at hask
    rw [show r.bytes = b :: rest.bytes from hask, ih]
    rfl

end Reader

/-! ### Widths -/

namespace Text.Utf8

/-- The length of the sequence that a byte can start; zero for a byte that starts none. -/
def width (lead : UInt8) : Nat :=
  if lead ≤ 0x7F then 1
  else if 0xC2 ≤ lead ∧ lead ≤ 0xDF then 2
  else if 0xE0 ≤ lead ∧ lead ≤ 0xEF then 3
  else if 0xF0 ≤ lead ∧ lead ≤ 0xF4 then 4
  else 0

private theorem announced_eq_max_width (lead : UInt8) : announced lead = max 1 (width lead) := by
  simp only [announced, width, UInt8.le_iff_toNat_le, UInt8.toNat_ofNat]
  repeat' split
  all_goals omega

private theorem announced_of_width_eq_zero {lead : UInt8} (h : width lead = 0) :
    announced lead = 1 := by
  rw [announced_eq_max_width, h]
  rfl

private theorem decode?_of_width_eq_zero {lead : UInt8} (h : width lead = 0) :
    decode? [lead] = none := by
  cases hc : decode? [lead] with
  | none => rfl
  | some c =>
    have hseq := isSequence_encode c
    rw [encode_of_decode? hc] at hseq
    cases hseq with
    | one ha =>
      rw [width, if_pos ha] at h
      cases h

end Text.Utf8

/-! ### What characters are given for -/

/-- The bytes start with those that these characters are given for, and some bytes are left. A
character is given for its encoding, and a replacement for a byte that starts no character. -/
inductive Accounts : List UInt8 → List (Char × List UInt8) → List UInt8 → Prop where
  | nil {bytes : List UInt8} : Accounts bytes [] bytes
  | char {c : Char} {bytes rest : List UInt8} {pieces : List (Char × List UInt8)}
      (t : Accounts bytes pieces rest) :
      Accounts (Utf8.encode c ++ bytes) ((c, Utf8.encode c) :: pieces) rest
  | bad {b : UInt8} {bytes rest : List UInt8} {pieces : List (Char × List UInt8)}
      (h : ∀ c, ¬ Utf8.encode c <+: b :: bytes) (t : Accounts bytes pieces rest) :
      Accounts (b :: bytes) ((Decoder.replacement, [b]) :: pieces) rest

private theorem Accounts.trans {bytes rest last : List UInt8}
    {pieces more : List (Char × List UInt8)}
    (h : Accounts bytes pieces rest) (k : Accounts rest more last) :
    Accounts bytes (pieces ++ more) last := by
  induction h with
  | nil => exact k
  | char _ ih => exact .char (ih k)
  | bad h _ ih => exact .bad h (ih k)

namespace Decoder

/-- The characters that a decoder gives when it is asked so many times. -/
def given : Nat → Decoder → List Char
  | 0, _ => []
  | n + 1, d => d.next.char?.toList ++ given n d.next.source

/-- All bytes that are pending or held by the reader. -/
def held (d : Decoder) : List UInt8 := d.pending ++ d.reader.bytes

private theorem held_fill (n : Nat) (d : Decoder) :
    (d.fill n).2.held = d.held ∧ (d.fill n).2.pending.length ≤ max n d.pending.length := by
  have hbytes := d.reader.bytes_readUpTo (n - d.pending.length)
  have htake := (d.reader.delivery_readUpTo (n - d.pending.length)).1
  have hlen : (d.reader.readUpTo (n - d.pending.length)).bytes.length ≤ n - d.pending.length := by
    rw [htake]
    exact List.length_take_le _ _
  unfold fill
  split
  · exact ⟨rfl, Nat.le_max_right _ _⟩
  · simp only
    split
    all_goals
      simp only [held, hbytes, List.append_assoc, List.length_append, true_and]
      omega

/-- The decoder in the middle of a call, when it has read all bytes that it reads in this call. -/
def filled (d : Decoder) : Decoder :=
  match (d.fill 1).2.pending with
  | [] => (d.fill 1).2
  | lead :: _ => ((d.fill 1).2.fill (Utf8.announced lead)).2

private theorem filled_spec (d : Decoder) :
    d.filled.remaining = d.remaining ∧ d.filled.held = d.held ∧
      (d.pending.length ≤ 4 → d.filled.pending.length ≤ 4) := by
  have hremaining := (remaining_fill 1 d).1
  obtain ⟨hheld, hlen⟩ := held_fill 1 d
  unfold filled
  generalize (d.fill 1).2 = first at hremaining hheld hlen ⊢
  split
  · exact ⟨hremaining, hheld, by omega⟩
  · next lead rest hl =>
    obtain ⟨hheld', hlen'⟩ := held_fill (Utf8.announced lead) first
    have hle := Utf8.announced_le lead
    exact ⟨(remaining_fill _ first).1.trans hremaining, hheld'.trans hheld, by omega⟩

private theorem next_of_filled (d : Decoder) :
    (d.filled.pending = [] ∧ d.next.source = d.filled) ∨
      ∃ lead rest, d.filled.pending = lead :: rest ∧
        d.next.source = (d.filled.takePending (Utf8.announced lead)).2 := by
  unfold filled next
  simp only
  generalize (d.fill 1).2 = first
  cases hp : first.pending with
  | nil => exact .inl ⟨hp, rfl⟩
  | cons lead rest =>
    obtain ⟨more, hmore⟩ := pending_fill (Utf8.announced lead) first
    rw [hp, List.cons_append] at hmore
    exact .inr ⟨lead, _, hmore, rfl⟩

private theorem length_pending_next_le {d : Decoder} (h : d.pending.length ≤ 3) :
    d.next.source.pending.length ≤ 3 := by
  have hle := d.filled_spec.2.2 (by omega)
  obtain ⟨hnil, hsource⟩ | ⟨lead, rest, hl, hsource⟩ := d.next_of_filled
  · rw [hsource, hnil]
    exact Nat.zero_le 3
  · have hpos := Utf8.announced_pos lead
    rw [hsource, takePending]
    split
    all_goals
      simp only [List.length_drop]
      omega

private theorem length_pending_after_le {d : Decoder} (h : d.pending.length ≤ 3) (n : Nat) :
    (after n d).pending.length ≤ 3 := by
  induction n generalizing d with
  | zero => exact h
  | succ n ih => exact ih (length_pending_next_le h)

private theorem exists_piece_takePending (width : Nat) (d : Decoder) :
    ∃ piece, d.remaining = piece ++ (d.takePending width).2.remaining ∧
      d.held = piece ++ (d.takePending width).2.held := by
  have hsplit (k : Nat) (more : List UInt8) :
      d.pending ++ more = d.pending.take k ++ (d.pending.drop k ++ more) := by
    rw [← List.append_assoc, List.take_append_drop]
  unfold takePending
  split
  · exact ⟨_, hsplit width _, hsplit width _⟩
  · exact ⟨_, hsplit 1 _, hsplit 1 _⟩

private theorem held_next {d : Decoder} {piece : List UInt8}
    (h : d.remaining = piece ++ d.next.source.remaining) :
    d.held = piece ++ d.next.source.held := by
  have hpiece : ∃ piece, d.remaining = piece ++ d.next.source.remaining ∧
      d.held = piece ++ d.next.source.held := by
    obtain ⟨hremaining, hheld, -⟩ := d.filled_spec
    rw [← hremaining, ← hheld]
    obtain ⟨-, hsource⟩ | ⟨lead, rest, -, hsource⟩ := d.next_of_filled
    · rw [hsource]
      exact ⟨[], rfl, rfl⟩
    · rw [hsource]
      exact exists_piece_takePending _ _
  obtain ⟨piece', hremaining, hheld⟩ := hpiece
  rw [h] at hremaining
  rw [List.append_cancel_right hremaining]
  exact hheld

private theorem accounts_next (d : Decoder) :
    ∃ pieces, pieces.map Prod.fst = d.next.char?.toList ∧
      Accounts d.remaining pieces d.next.source.remaining ∧
      d.held = pieces.flatMap Prod.snd ++ d.next.source.held := by
  cases hr : d.remaining with
  | nil =>
    obtain ⟨hchar, hsource⟩ := next_of_remaining_nil hr
    have hheld : d.held = [] ++ d.next.source.held := held_next (by rw [hr, hsource]; rfl)
    rw [hchar, hsource]
    exact ⟨[], rfl, .nil, hheld⟩
  | cons b bytes =>
    by_cases h : ∃ c, Utf8.encode c <+: b :: bytes
    · obtain ⟨c, rest, hrest⟩ := h
      rw [← hrest] at hr ⊢
      obtain ⟨hchar, hsource⟩ := next_of_encode hr
      have hheld : d.held = Utf8.encode c ++ d.next.source.held := held_next (by rw [hr, hsource])
      rw [hchar, hsource, hheld]
      exact ⟨[(c, Utf8.encode c)], rfl, .char .nil, by rw [List.flatMap_singleton]⟩
    · have bad (c : Char) : ¬ Utf8.encode c <+: b :: bytes := fun hc ↦ h ⟨c, hc⟩
      obtain ⟨hchar, hsource⟩ := next_of_bad hr bad
      have hheld : d.held = [b] ++ d.next.source.held := held_next (by rw [hr, hsource]; rfl)
      rw [hchar, hsource, hheld]
      exact ⟨[(replacement, [b])], rfl, .bad bad .nil, rfl⟩

private theorem accounts_after (n : Nat) (d : Decoder) :
    ∃ pieces, pieces.map Prod.fst = given n d ∧
      Accounts d.remaining pieces (after n d).remaining ∧
      d.held = pieces.flatMap Prod.snd ++ (after n d).held := by
  induction n generalizing d with
  | zero => exact ⟨[], rfl, .nil, rfl⟩
  | succ n ih =>
    obtain ⟨pieces, hgiven, haccounts, hheld⟩ := d.accounts_next
    obtain ⟨more, hmore, haccounts', hheld'⟩ := ih d.next.source
    refine ⟨pieces ++ more, ?_, haccounts.trans haccounts', ?_⟩
    · rw [List.map_append, hgiven, hmore, given]
    · rw [hheld, hheld', List.flatMap_append, List.append_assoc, after]

/-! ### Accesses -/

/-- Without the first pending byte. -/
def skip (d : Decoder) : Decoder := { d with pending := d.pending.drop 1 }

/-- Without so many pending bytes, if there are that many. -/
def drop? (n : Nat) (d : Decoder) : Option Decoder :=
  if n ≤ d.pending.length then some { d with pending := d.pending.drop n } else none

/-- Take a character from the pending bytes with checked accesses: no more than four are looked at,
the character is the first one of whatever text they are, and as many as are taken off have to be
there. -/
def takeChecked (width : Nat) (d : Decoder) : Option (Char × Decoder) :=
  let available := min width d.pending.length
  if available ≤ 4 then
    match (Utf8.decodeText? (d.pending.take available)).bind fun text ↦ text.toList.head? with
    | some c => (d.drop? width).map fun rest ↦ (c, rest)
    | none => some (replacement, d.skip)
  else none

/-- Decode one character with checked accesses. -/
def nextChecked (d : Decoder) : Option (Pull Decoder) :=
  let (met?, first) := d.fill 1
  if first.pending.length < 1 then some ⟨none, met?, first⟩
  else first.pending[0]?.bind fun lead ↦
    let width := Utf8.width lead
    if width = 0 then some ⟨some replacement, met?, first.skip⟩
    else
      let (fault?, full) := first.fill width
      (full.takeChecked width).map fun (c, rest) ↦ ⟨some c, met?.or fault?, rest⟩

private theorem takeChecked_eq {d : Decoder} {lead : UInt8} {rest : List UInt8}
    (h : d.pending = lead :: rest) :
    d.takeChecked (Utf8.announced lead) = some (d.takePending (Utf8.announced lead)) := by
  have hle := Utf8.announced_le lead
  unfold takeChecked takePending
  simp only
  rw [if_pos (by omega), ← List.take_eq_take_min, h, Utf8.decodeText?_take]
  cases hc : Utf8.decode? ((lead :: rest).take (Utf8.announced lead)) with
  | none => simp [skip, h]
  | some c =>
    have hfull := (Utf8.exists_char_of_decodeText?_take (by rw [Utf8.decodeText?_take, hc]; rfl)).1
    simpa [drop?, h] using hfull

private theorem fill_of_le {n : Nat} {d : Decoder} (h : n ≤ d.pending.length) :
    d.fill n = (none, d) := by
  unfold fill
  split
  · rfl
  · rw [Nat.sub_eq_zero_of_le h]
    simp [Reader.readUpTo]

private theorem fault?_fill_one {d : Decoder} (h : (d.fill 1).2.pending ≠ []) :
    (d.fill 1).1 = none := by
  have hpending := (remaining_fill 1 d).2
  cases asked_fill 1 d with
  | closed _ met | enough _ _ met => exact met
  | short _ lt =>
    have hnil : d.remaining = [] := List.eq_nil_of_length_eq_zero (by omega)
    rw [hnil, List.take_nil, List.take_eq_nil_iff] at hpending
    simp [h] at hpending

private theorem takePending_of_width_eq_zero {d : Decoder} {lead : UInt8} {rest : List UInt8}
    (h : d.pending = lead :: rest) (hw : Utf8.width lead = 0) :
    d.takePending (Utf8.announced lead) = (replacement, d.skip) := by
  unfold takePending
  rw [Utf8.announced_of_width_eq_zero hw, h, List.take_succ_cons, List.take_zero,
    Utf8.decode?_of_width_eq_zero hw, skip, h]

/-- Checked accesses do not fail, and nothing depends on their being checked. -/
theorem nextChecked_eq (d : Decoder) : d.nextChecked = some d.next := by
  have hmet := d.fault?_fill_one
  unfold nextChecked next
  simp only
  generalize d.fill 1 = got at hmet ⊢
  obtain ⟨met?, first⟩ := got
  cases hp : first.pending with
  | nil => rfl
  | cons lead rest =>
    obtain rfl : met? = none := hmet (by simp [hp])
    simp only [List.length_cons, Nat.lt_one_iff, Nat.succ_ne_zero, if_false,
      List.getElem?_cons_zero, Option.bind_some, Option.none_or]
    split
    · next hw =>
      have hle : Utf8.announced lead ≤ first.pending.length := by
        simp [Utf8.announced_of_width_eq_zero hw, hp]
      rw [fill_of_le hle, takePending_of_width_eq_zero hp hw]
    · next hw =>
      have hwidth : Utf8.width lead = Utf8.announced lead := by
        rw [Utf8.announced_eq_max_width]
        omega
      obtain ⟨more, hmore⟩ := pending_fill (Utf8.announced lead) first
      rw [hp, List.cons_append] at hmore
      rw [hwidth, takeChecked_eq hmore]
      rfl

/-! ### Any number of calls -/

/-- The next call of a decoder stays within bounds. -/
structure Bounded (d : Decoder) : Prop where
  /-- Before the call at most three bytes are pending. -/
  between : d.pending.length ≤ 3
  /-- At most four are when the first byte has been read. -/
  first : (d.fill 1).2.pending.length ≤ 4
  /-- At most four are when all bytes have been read. -/
  within : d.filled.pending.length ≤ 4
  /-- No access goes beyond the pending bytes. -/
  checked : d.nextChecked = some d.next
  /-- Where a text is made of as many pending bytes as the first one announces, or of all that there
  are, there are that many, and the text is the one character that they encode. -/
  whole : ∀ lead ∈ d.filled.pending.head?, ∀ text : String,
    Utf8.decodeText? (d.filled.pending.take (Utf8.announced lead)) = some text →
      Utf8.announced lead ≤ d.filled.pending.length ∧
        ∃ c, text = String.singleton c ∧
          Utf8.encode c = d.filled.pending.take (Utf8.announced lead) ∧
          (Utf8.encode c).length = Utf8.announced lead

private theorem bounded_of_length_le {d : Decoder} (h : d.pending.length ≤ 3) : Bounded d where
  between := h
  first := by
    have hlen := (held_fill 1 d).2
    omega
  within := d.filled_spec.2.2 (by omega)
  checked := d.nextChecked_eq
  whole lead hlead text htext := by
    obtain ⟨rest, hrest⟩ := List.head?_eq_some_iff.mp hlead
    rw [hrest] at htext ⊢
    exact Utf8.exists_char_of_decodeText?_take htext

/-- However often a decoder on a reader was asked, the characters that it gave account for the first
bytes of the delivery, each for its encoding, or for one byte that starts no character. These bytes
and the pending ones behind them are just those that were taken from the reader, and the next call
stays within bounds. -/
theorem buffer_after (r : Reader) (n : Nat) :
    let d := after n { reader := r }
    (∃ pieces, pieces.map Prod.fst = given n { reader := r } ∧
      Accounts r.delivery.bytes pieces d.remaining ∧
      r.bytes = pieces.flatMap Prod.snd ++ d.pending ++ d.reader.bytes) ∧
    Bounded d := by
  intro d
  constructor
  · obtain ⟨pieces, hgiven, haccounts, hheld⟩ := accounts_after n { reader := r }
    refine ⟨pieces, hgiven, haccounts, ?_⟩
    rw [List.append_assoc]
    exact hheld
  · have hnone : ({ reader := r } : Decoder).pending.length ≤ 3 := Nat.zero_le 3
    exact bounded_of_length_le (length_pending_after_le hnone n)

/-- The first three of four bytes and then a letter: three bytes are left over. -/
example :
    let r : Reader := .ofBytes [0xF0, 0x9F, 0x98, 0x41]
    (filled { reader := r }).pending = [0xF0, 0x9F, 0x98, 0x41] ∧
      (after 1 { reader := r }).pending = [0x9F, 0x98, 0x41] := by
  decide

end Decoder
end MonkeyTokens
