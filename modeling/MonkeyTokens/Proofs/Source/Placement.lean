import MonkeyTokens.Proofs.Source.Decoding
import MonkeyTokens.Proofs.Source.Outcome

/-!
# Where characters start, and where bytes run out

`DecodesFrom` says where in a delivery each of its characters starts. A character wants as many
bytes as its first one announces, and one where there is none, so that it can be told from the
bytes alone which character is the first to reach for a byte behind the last one
(`firstOverreach`). There, and nowhere before, the input of a decoder ends: `Asked` is all that
decoding a character can do to the end of the input (`asked_next`).
-/

namespace MonkeyTokens

open Text

/-! ### Where characters start -/

/-- From an index on, the bytes stand for these characters, each with the index of its first byte.
A byte that starts no character stands for a replacement. -/
inductive DecodesFrom (bytes : List UInt8) : Nat → List (Nat × Char) → Prop where
  | done {i : Nat} (past : bytes.length ≤ i) : DecodesFrom bytes i []
  | char {i : Nat} {c : Char} {placed : List (Nat × Char)}
      (here : Utf8.encode c <+: bytes.drop i)
      (behind : DecodesFrom bytes (i + (Utf8.encode c).length) placed) :
      DecodesFrom bytes i ((i, c) :: placed)
  | bad {i : Nat} {placed : List (Nat × Char)} (inside : i < bytes.length)
      (here : ∀ c, ¬ Utf8.encode c <+: bytes.drop i)
      (behind : DecodesFrom bytes (i + 1) placed) :
      DecodesFrom bytes i ((i, Decoder.replacement) :: placed)

namespace DecodesFrom

variable {bytes : List UInt8} {i : Nat} {placed : List (Nat × Char)}

/-- The characters are those that the bytes from the index on stand for. -/
theorem decodes (h : DecodesFrom bytes i placed) :
    Decodes (bytes.drop i) (placed.map Prod.snd) := by
  induction h with
  | done past =>
    rw [List.drop_of_length_le past]
    exact .nil
  | @char i c placed here behind ih =>
    obtain ⟨rest, hrest⟩ := here
    have hdrop : bytes.drop (i + (Utf8.encode c).length) = rest := by
      rw [← List.drop_drop, ← hrest, List.drop_left]
    rw [← hrest]
    rw [hdrop] at ih
    exact .char ih
  | bad inside here behind ih =>
    rw [List.drop_eq_getElem_cons inside] at here ⊢
    exact .bad here ih

/-- Characters start in one place only. -/
theorem unique {others : List (Nat × Char)} (h : DecodesFrom bytes i placed)
    (k : DecodesFrom bytes i others) : placed = others := by
  induction h generalizing others with
  | done past =>
    cases k with
    | done => rfl
    | char here =>
      rw [List.drop_of_length_le past] at here
      exact absurd (List.prefix_nil.mp here) (Utf8.encode_ne_nil _)
    | bad inside => omega
  | char here behind ih =>
    cases k with
    | done past =>
      rw [List.drop_of_length_le past] at here
      exact absurd (List.prefix_nil.mp here) (Utf8.encode_ne_nil _)
    | char here' behind' =>
      obtain rfl := Utf8.encode_prefix_unique here here'
      rw [ih behind']
    | bad _ here' => exact absurd here (here' _)
  | bad inside here behind ih =>
    cases k with
    | done past => omega
    | char here' => exact absurd here' (here _)
    | bad _ _ behind' => rw [ih behind']

end DecodesFrom

private theorem Decodes.exists_decodesFrom {bytes : List UInt8} {cs : List Char}
    (h : Decodes bytes cs)
    (front : List UInt8) : ∃ placed, DecodesFrom (front ++ bytes) front.length placed ∧
      placed.map Prod.snd = cs := by
  induction h generalizing front with
  | nil => exact ⟨[], .done (by simp), rfl⟩
  | @char c bytes cs t ih =>
    obtain ⟨placed, hplaced, hcs⟩ := ih (front ++ Utf8.encode c)
    rw [List.append_assoc, List.length_append] at hplaced
    refine ⟨(front.length, c) :: placed, .char ?_ hplaced, congrArg _ hcs⟩
    rw [List.drop_left]
    exact List.prefix_append _ _
  | @bad b bytes cs h t ih =>
    obtain ⟨placed, hplaced, hcs⟩ := ih (front ++ [b])
    rw [List.append_assoc, List.length_append] at hplaced
    refine ⟨(front.length, Decoder.replacement) :: placed, .bad ?_ ?_ hplaced, congrArg _ hcs⟩
    · simp
    · rwa [List.drop_left]

/-- All bytes stand for some characters, and these have one place each. -/
theorem DecodesFrom.exists_unique (bytes : List UInt8) :
    ∃ placed, ∀ others, DecodesFrom bytes 0 others ↔ others = placed := by
  obtain ⟨cs, hcs⟩ := Decodes.exists bytes
  obtain ⟨placed, hplaced, -⟩ := hcs.exists_decodesFrom []
  refine ⟨placed, fun others ↦ ⟨fun h ↦ h.unique hplaced, ?_⟩⟩
  rintro rfl
  exact hplaced

/-! ### Where bytes run out -/

/-- How many bytes are wanted to take a character off these: as many as the first one announces. -/
def wanted : List UInt8 → Nat
  | [] => 1
  | lead :: _ => Utf8.announced lead

/-- Whether there are too few bytes from an index on for what is wanted there. -/
def overreaches (bytes : List UInt8) (i : Nat) : Bool := bytes.length < i + wanted (bytes.drop i)

/-- The number of the first character that reaches for a byte behind the last one; if none does, the
number of characters. -/
def firstOverreach (bytes : List UInt8) (placed : List (Nat × Char)) : Nat :=
  placed.findIdx fun x ↦ overreaches bytes x.1

private theorem overreaches_iff (bytes : List UInt8) (i : Nat) :
    overreaches bytes i = true ↔ (bytes.drop i).length < wanted (bytes.drop i) := by
  rw [overreaches, decide_eq_true_iff, List.length_drop]
  by_cases hi : i ≤ bytes.length
  · omega
  · rw [List.drop_of_length_le (by omega), wanted]
    omega

namespace Decoder

/-- What asking for so many bytes does to the end of the input, with the fault that is met: nothing
where it has ended or where there are enough bytes. Otherwise the input ends, with what ends the
delivery, and the reader is left behind its stop. -/
inductive Asked (n : Nat) (d : Decoder) (fault? : Option Fault) (e : Decoder) : Prop where
  | closed (ended : d.ended = true) (met : fault? = none) (ended_eq : e.ended = true)
      (failure_eq : e.failure? = d.failure?) (reader_eq : e.reader = d.reader)
  | enough (running : d.ended = false) (le : n ≤ d.remaining.length) (met : fault? = none)
      (ended_eq : e.ended = false) (failure_eq : e.failure? = d.failure?)
      (fault_eq : e.reader.delivery.fault? = d.reader.delivery.fault?)
      (behind_eq : e.reader.behindStop = d.reader.behindStop)
  | short (running : d.ended = false) (lt : d.remaining.length < n)
      (met : fault? = d.reader.delivery.fault?) (ended_eq : e.ended = true)
      (failure_eq : e.failure? = (fault?.map .reading).or d.failure?)
      (reader_eq : e.reader = d.reader.behindStop)

/-- Filling up asks for the bytes. -/
theorem asked_fill (n : Nat) (d : Decoder) : Asked n d (d.fill n).1 (d.fill n).2 := by
  unfold fill
  by_cases he : d.ended = true
  · rw [if_pos he]
    exact .closed he rfl he rfl rfl
  · have hrun : d.ended = false := Bool.eq_false_iff.mpr he
    have hread := (d.reader.delivery_readUpTo (n - d.pending.length)).2
    have hbehind := d.reader.behindStop_readUpTo (n - d.pending.length)
    have hlen : d.remaining.length = d.pending.length + d.reader.delivery.bytes.length := by
      rw [remaining, if_neg he, List.length_append]
    rw [if_neg he]
    simp only
    generalize d.reader.readUpTo (n - d.pending.length) = got at hread hbehind ⊢
    split
    · next hs =>
      rw [hs] at hread hbehind
      exact .enough hrun (by omega) rfl hrun rfl (by rw [hread.2]) hbehind
    · next hs =>
      rw [hs] at hread hbehind
      exact .short hrun (by omega) hread.2 rfl rfl hbehind
    · next f hs =>
      rw [hs] at hread hbehind
      exact .short hrun (by omega) hread.2 rfl rfl hbehind

private theorem Asked.trans {m n : Nat} {d first e : Decoder} {f g : Option Fault}
    (h : Asked m d f first) (hm : m ≤ d.remaining.length) (hr : first.remaining = d.remaining)
    (k : Asked n first g e) : Asked n d g e := by
  cases h with
  | closed ended _ ended_eq failure_eq reader_eq =>
    cases k with
    | closed _ met ended_eq' failure_eq' reader_eq' =>
      exact .closed ended met ended_eq' (failure_eq'.trans failure_eq) (reader_eq'.trans reader_eq)
    | enough running | short running =>
      rw [ended_eq] at running
      cases running
  | enough running _ _ ended_eq failure_eq fault_eq behind_eq =>
    cases k with
    | closed ended =>
      rw [ended_eq] at ended
      cases ended
    | enough _ le met ended_eq' failure_eq' fault_eq' behind_eq' =>
      rw [hr] at le
      exact .enough running le met ended_eq' (failure_eq'.trans failure_eq)
        (fault_eq'.trans fault_eq) (behind_eq'.trans behind_eq)
    | short _ lt met ended_eq' failure_eq' reader_eq =>
      rw [hr] at lt
      rw [failure_eq] at failure_eq'
      exact .short running lt (met.trans fault_eq) ended_eq' failure_eq' (reader_eq.trans behind_eq)
  | short _ lt => omega

private theorem Asked.takePending {n : Nat} {d full : Decoder} {f : Option Fault}
    (h : Asked n d f full) (width : Nat) : Asked n d f (full.takePending width).2 := by
  unfold Decoder.takePending
  split
  all_goals cases h with
  | closed ended met ended_eq failure_eq reader_eq =>
    exact .closed ended met ended_eq failure_eq reader_eq
  | enough running le met ended_eq failure_eq fault_eq behind_eq =>
    exact .enough running le met ended_eq failure_eq fault_eq behind_eq
  | short running lt met ended_eq failure_eq reader_eq =>
    exact .short running lt met ended_eq failure_eq reader_eq

/-- Decoding a character asks for the bytes that are wanted. -/
theorem asked_next (d : Decoder) : Asked (wanted d.remaining) d d.next.fault? d.next.source := by
  obtain ⟨hremaining, hpending⟩ := remaining_fill 1 d
  have hfirst := asked_fill 1 d
  unfold next
  simp only
  generalize d.fill 1 = first at hremaining hpending hfirst ⊢
  cases hr : d.remaining with
  | nil =>
    rw [hr] at hremaining
    have hp : first.2.pending = [] := (List.append_eq_nil_iff.mp hremaining).1
    split
    · exact hfirst
    · next hl =>
      rw [hp] at hl
      cases hl
  | cons lead rest =>
    rw [hr] at hpending
    split
    · next hp =>
      rw [hp] at hpending
      cases hpending
    · next lead' rest' hp =>
      rw [hp] at hpending
      obtain rfl : lead' = lead := (List.cons.inj hpending).1
      have hfull := asked_fill (Utf8.announced lead') first.2
      have hlen : 1 ≤ d.remaining.length := by rw [hr]; exact Nat.le_add_left 1 _
      exact (hfirst.trans hlen hremaining hfull).takePending _

private theorem Asked.failure?_eq {n : Nat} {d e : Decoder} {f : Option Fault} (h : Asked n d f e) :
    e.failure? = (f.map .reading).or d.failure? := by
  cases h with
  | closed _ met _ failure_eq | enough _ _ met _ failure_eq => rw [met, failure_eq]; rfl
  | short _ _ _ _ failure_eq => exact failure_eq

/-- A decoder on a reader was asked for so many characters, of those that are placed in the
delivery. Its input has ended once one of them reached for a byte behind the last one. Until then
the end of the delivery is still to come, and from then on the reader is left behind its stop. -/
structure Progressed (r : Reader) (placed : List (Nat × Char)) (n : Nat) (d : Decoder) : Prop where
  rest : ∃ i, DecodesFrom r.delivery.bytes i (placed.drop n) ∧
    d.remaining = r.delivery.bytes.drop i
  ended_iff : d.ended = true ↔ firstOverreach r.delivery.bytes placed < n
  fault_eq : d.ended = false → d.reader.delivery.fault? = r.delivery.fault?
  behind_eq : d.ended = false → d.reader.behindStop = r.behindStop
  reader_eq : d.ended = true → d.reader = r.behindStop

namespace Progressed

variable {r : Reader} {placed : List (Nat × Char)} {n : Nat} {d : Decoder}

/-- At first a decoder was asked for nothing. -/
theorem ofReader (h : DecodesFrom r.delivery.bytes 0 placed) :
    Progressed r placed 0 { reader := r } where
  rest := ⟨0, h, rfl⟩
  ended_iff := by simp
  fault_eq _ := rfl
  behind_eq _ := rfl
  reader_eq h := by cases h

/-- The next character is the one with the next number, and the others come behind it. -/
theorem rest_next (h : Progressed r placed n d) :
    d.next.char? = (placed.map Prod.snd)[n]? ∧
      ∃ i, DecodesFrom r.delivery.bytes i (placed.drop (n + 1)) ∧
        d.next.source.remaining = r.delivery.bytes.drop i := by
  obtain ⟨i, hplaced, hr⟩ := h.rest
  have hhead : (placed.map Prod.snd)[n]? = ((placed.drop n).map Prod.snd).head? := by
    rw [List.map_drop, List.head?_drop]
  rw [hhead, ← List.tail_drop]
  generalize placed.drop n = more at hplaced
  cases hplaced with
  | done past =>
    rw [List.drop_of_length_le past] at hr
    obtain ⟨hchar, hsource⟩ := next_of_remaining_nil hr
    refine ⟨hchar, i, .done past, ?_⟩
    rw [hsource, List.drop_of_length_le past]
  | char here behind =>
    obtain ⟨bytes, hbytes⟩ := here
    rw [← hbytes] at hr
    obtain ⟨hchar, hsource⟩ := next_of_encode hr
    refine ⟨hchar, _, behind, ?_⟩
    rw [hsource, ← List.drop_drop, ← hbytes, List.drop_left]
  | bad inside here behind =>
    rw [List.drop_eq_getElem_cons inside] at hr here
    obtain ⟨hchar, hsource⟩ := next_of_bad hr here
    exact ⟨hchar, _, behind, hsource⟩

private theorem remaining_lt_iff (h : Progressed r placed n d) (hrun : d.ended = false) :
    d.remaining.length < wanted d.remaining ↔ n = firstOverreach r.delivery.bytes placed := by
  have hle : n ≤ firstOverreach r.delivery.bytes placed := by
    have hiff := h.ended_iff
    rw [hrun] at hiff
    simpa using hiff
  obtain ⟨i, hplaced, hr⟩ := h.rest
  rw [hr, ← overreaches_iff]
  cases hmore : placed.drop n with
  | nil =>
    have hlen : placed.length ≤ n := List.drop_eq_nil_iff.mp hmore
    have hidx : firstOverreach r.delivery.bytes placed ≤ placed.length := List.findIdx_le_length
    rw [hmore] at hplaced
    cases hplaced with
    | done past =>
      have hover : overreaches r.delivery.bytes i = true := by
        rw [overreaches_iff, List.drop_of_length_le past]
        exact Nat.zero_lt_one
      exact iff_of_true hover (by omega)
  | cons x more =>
    have hx : placed[n]? = some x := by rw [← List.head?_drop, hmore, List.head?_cons]
    obtain ⟨hn, hget⟩ := List.getElem?_eq_some_iff.mp hx
    have hi : x.1 = i := by
      rw [hmore] at hplaced
      cases hplaced <;> rfl
    constructor
    · intro hover
      refine Nat.le_antisymm hle (Nat.le_of_not_lt fun hlt ↦ ?_)
      have hnot := List.not_of_lt_findIdx hlt
      rw [hget, hi, hover] at hnot
      cases hnot
    · rintro rfl
      have hover : overreaches r.delivery.bytes
          placed[firstOverreach r.delivery.bytes placed].1 = true :=
        List.findIdx_getElem (w := hn)
      rwa [hget, hi] at hover

/-- One more character is asked for. Only the first one that reaches for a byte behind the last one
meets the fault that ends the delivery, if it is one, and this fault becomes the failure of the
decoder. -/
theorem next (h : Progressed r placed n d) :
    Progressed r placed (n + 1) d.next.source ∧
      d.next.fault? =
        (if n = firstOverreach r.delivery.bytes placed then r.delivery.fault? else none) ∧
      d.next.source.failure? = (d.next.fault?.map .reading).or d.failure? := by
  have hasked := d.asked_next
  have hrest := h.rest_next.2
  rw [← and_assoc]
  refine ⟨?_, hasked.failure?_eq⟩
  cases hasked with
  | closed ended met ended_eq _ reader_eq =>
    have hlt := h.ended_iff.mp ended
    refine ⟨⟨hrest, iff_of_true ended_eq (by omega), by simp [ended_eq], by simp [ended_eq], ?_⟩,
      ?_⟩
    · intro _
      rw [reader_eq, h.reader_eq ended]
    · rw [met, if_neg (by omega)]
  | enough running le met ended_eq _ fault_eq behind_eq =>
    have hne := mt (h.remaining_lt_iff running).mpr (Nat.not_lt.mpr le)
    have hnot := mt h.ended_iff.mpr (by simp [running])
    refine ⟨⟨hrest, iff_of_false (by simp [ended_eq]) (by omega), ?_, ?_, by simp [ended_eq]⟩, ?_⟩
    · intro _
      rw [fault_eq, h.fault_eq running]
    · intro _
      rw [behind_eq, h.behind_eq running]
    · rw [met, if_neg hne]
  | short running lt met ended_eq _ reader_eq =>
    have heq := (h.remaining_lt_iff running).mp lt
    refine ⟨⟨hrest, iff_of_true ended_eq (by omega), by simp [ended_eq], by simp [ended_eq], ?_⟩,
      ?_⟩
    · intro _
      rw [reader_eq, h.behind_eq running]
    · rw [met, if_pos heq, h.fault_eq running]

end Progressed
end Decoder
end MonkeyTokens
