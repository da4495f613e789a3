import MonkeyTokens.Source.Basic

/-!
# Cursors

A cursor stands on one character of a source and knows its position. It can move on by one
character and can look at the character behind the one it stands on. It asks the source only
when it does not hold the answer yet, and never again once the source said that it has no more.
Everything worth logging goes into the journal, in order.

That the source has no more is known in three places: the cursor remembers it, it may be the
answer that a look ahead found, and behind the last character the cursor stands on none. A cursor
that has moved is `Settled`: the three agree.

The view of a cursor is `Cursor.upcoming`: the character it stands on, the one it looked at,
and what the source will still be asked for. Moving on drops the first of these, looking ahead
none (`upcoming_advance`, `upcoming_peek`).
-/

namespace MonkeyTokens

/-- A place in the stream of characters that a source gives. -/
structure Cursor (σ : Type) where
  /-- What is asked for characters. -/
  source : σ
  /-- Whether the source has said that it has no more. -/
  exhausted : Bool := false
  /-- What a look ahead found and was not moved on to: a character, or that there is none. -/
  lookahead? : Option (Option Char) := none
  /-- The character the cursor stands on; none before the first and after the last. -/
  current? : Option Char := none
  /-- The position of the current character, and after the last one still that of the last. -/
  position : Position := .start
  /-- What happened so far. -/
  journal : Array Event := #[]

namespace Cursor

variable {σ : Type}

/-- The cursor with one more entry in its journal. -/
def record (c : Cursor σ) (e : Event) : Cursor σ := { c with journal := c.journal.push e }

/-- What a look ahead found agrees with what the cursor remembers of the source. -/
def Agrees (c : Cursor σ) : Prop :=
  ∀ next?, c.lookahead? = some next? → c.exhausted = next?.isNone

/-- The cursor remembers that the source has no more exactly if it is behind the last character or
found that none follows, and behind the last character it holds none. -/
structure Settled (c : Cursor σ) : Prop where
  exhausted_iff : c.exhausted = true ↔ c.current? = none ∨ c.lookahead? = some none
  behind : c.current? = none → c.lookahead?.join = none

/-- Where the three places agree, so do the two of them that a look ahead changes. -/
theorem Settled.agrees {c : Cursor σ} (h : c.Settled) : c.Agrees := by
  rintro (_ | next) hl
  · exact h.exhausted_iff.mpr (.inr hl)
  · rw [Option.isNone_some, Bool.eq_false_iff]
    intro hx
    rcases h.exhausted_iff.mp hx with hc | hn
    · have hb := h.behind hc
      rw [hl] at hb
      cases hb
    · rw [hl] at hn
      cases hn

/-- A cursor that was not moved yet has not looked ahead. -/
theorem agrees_unmoved (s : σ) : Agrees { source := s } := by
  intro next? h
  cases h

variable [CharSource σ]

/-- Ask the source, unless it has already said that it has no more. -/
def pull (c : Cursor σ) : Option Char × Cursor σ :=
  if c.exhausted then (none, c)
  else
    let p := CharSource.pull c.source
    (p.char?, { c with
      source := p.source
      exhausted := p.char?.isNone
      journal := c.journal.appendList p.events })

/-- The next character, if there is one, and the cursor without it: what a look ahead found, else
one from the source. -/
def takeNext (c : Cursor σ) : Option Char × Cursor σ :=
  match c.lookahead? with
  | some next? => (next?, { c with lookahead? := none })
  | none => c.pull

/-- Move on to the next character; behind the last one the position stays. -/
def advance (c : Cursor σ) : Cursor σ :=
  match c.takeNext with
  | (none, d) => { d with current? := none }
  | (some next, d) => { d with current? := some next, position := d.position.next d.current? }

/-- The character behind the current one, without moving. -/
def peek (c : Cursor σ) : Option Char × Cursor σ :=
  match c.lookahead? with
  | some next? => (next?, c)
  | none =>
    let (next?, d) := c.pull
    (next?, { d with lookahead? := some next? })

/-- The cursor on the first character of a source. -/
def ofSource (s : σ) : Cursor σ := advance { source := s }

/-- The source will be asked only finitely often. -/
def Ends (c : Cursor σ) : Prop := c.exhausted = true ∨ CharSource.Ends c.source

/-- The characters still to come from the source. -/
noncomputable def unasked (c : Cursor σ) : List Char :=
  if c.exhausted then [] else CharSource.upcoming c.source

/-- The characters from the current one on. -/
noncomputable def upcoming (c : Cursor σ) : List Char :=
  c.current?.toList ++ c.lookahead?.join.toList ++ c.unasked

/-- Asking the source changes nothing the cursor holds. -/
theorem pull_held (c : Cursor σ) :
    c.pull.2.current? = c.current? ∧ c.pull.2.lookahead? = c.lookahead? ∧
      c.pull.2.position = c.position := by
  unfold pull
  split <;> simp

/-- Asking the source keeps it bounded. -/
theorem Ends.pull {c : Cursor σ} (h : c.Ends) : c.pull.2.Ends := by
  unfold Cursor.pull
  by_cases hx : c.exhausted = true
  · simp [hx, h]
  · simp only [hx]
    rcases h with h | h
    · exact absurd h hx
    · cases hc : (CharSource.pull c.source).char? with
      | none => exact .inl rfl
      | some _ => exact .inr (h.pull hc)

/-- The character asked for was the first one still to come. -/
theorem unasked_pull {c : Cursor σ} (h : c.Ends) :
    c.unasked = c.pull.1.toList ++ c.pull.2.unasked := by
  unfold Cursor.pull unasked
  by_cases hx : c.exhausted = true
  · simp [hx]
  · rcases h with h | h
    · exact absurd h hx
    · cases hc : (CharSource.pull c.source).char? with
      | none => simp [hx, hc, CharSource.upcoming_of_pull_eq_none hc]
      | some _ => simp [hx, hc, CharSource.upcoming_of_pull_eq_some h hc]

/-- Taking the next character keeps the current one. -/
theorem current_takeNext (c : Cursor σ) : c.takeNext.2.current? = c.current? := by
  unfold takeNext
  split
  · rfl
  · exact c.pull_held.1

/-- The lookahead is free once the next character is taken. -/
theorem lookahead_takeNext (c : Cursor σ) : c.takeNext.2.lookahead? = none := by
  unfold takeNext
  split
  · rfl
  · next h => rw [c.pull_held.2.1, h]

/-- Taking the next character keeps the source bounded. -/
theorem Ends.takeNext {c : Cursor σ} (h : c.Ends) : c.takeNext.2.Ends := by
  unfold Cursor.takeNext
  split
  · exact h
  · exact h.pull

/-- The next character is the first one behind the current one. -/
theorem following_takeNext {c : Cursor σ} (h : c.Ends) :
    c.lookahead?.join.toList ++ c.unasked = c.takeNext.1.toList ++ c.takeNext.2.unasked := by
  unfold takeNext
  split
  · next hl => simp [hl, unasked]
  · next hl => simp [hl, unasked_pull h]

/-- Moving on keeps the source bounded. -/
theorem Ends.advance {c : Cursor σ} (h : c.Ends) : c.advance.Ends := by
  have ht := h.takeNext
  unfold Cursor.advance
  split
  · next d hd => rw [hd] at ht; exact ht
  · next next d hd => rw [hd] at ht; exact ht

/-- Moving on drops the current character. -/
theorem upcoming_advance {c : Cursor σ} (h : c.Ends) :
    c.advance.upcoming = c.lookahead?.join.toList ++ c.unasked := by
  have hf := following_takeNext h
  have hl := c.lookahead_takeNext
  unfold advance
  split
  · next d hd =>
    rw [hd] at hf hl
    simp_all [upcoming, unasked]
  · next next d hd =>
    rw [hd] at hf hl
    simp_all [upcoming, unasked]

/-- The current character is the first upcoming one; moving on leaves the others. -/
theorem upcoming_of_current {c : Cursor σ} (h : c.Ends) {ch : Char} (hc : c.current? = some ch) :
    c.upcoming = ch :: c.advance.upcoming := by
  rw [upcoming_advance h]
  simp [upcoming, hc]

/-- Looking ahead keeps the source bounded. -/
theorem Ends.peek {c : Cursor σ} (h : c.Ends) : c.peek.2.Ends := by
  unfold Cursor.peek
  split
  · exact h
  · exact h.pull

/-- Looking ahead changes nothing of what is to come. -/
theorem upcoming_peek {c : Cursor σ} (h : c.Ends) : c.peek.2.upcoming = c.upcoming := by
  unfold peek
  split
  · rfl
  · next hl =>
    obtain ⟨hc, _, _⟩ := c.pull_held
    simp only [upcoming, hl, unasked_pull h]
    simp [hc, unasked]

/-- Looking ahead does not move the cursor. -/
theorem current_peek (c : Cursor σ) : c.peek.2.current? = c.current? := by
  unfold peek
  split
  · rfl
  · exact c.pull_held.1

/-- A source that gave no character will not be asked again. -/
theorem exhausted_pull (c : Cursor σ) : c.pull.2.exhausted = c.pull.1.isNone := by
  unfold pull
  split
  · assumption
  · rfl

/-- Where there is no next character, the source will not be asked again. -/
theorem exhausted_takeNext {c : Cursor σ} (h : c.Agrees) :
    c.takeNext.2.exhausted = c.takeNext.1.isNone := by
  unfold takeNext
  split
  · next next? hl => exact h next? hl
  · exact c.exhausted_pull

/-- Moving on leads to the next character. -/
theorem current_advance (c : Cursor σ) : c.advance.current? = c.takeNext.1 := by
  unfold advance
  split <;> simp_all

/-- Moving on frees the lookahead. -/
theorem lookahead_advance (c : Cursor σ) : c.advance.lookahead? = none := by
  have h := c.lookahead_takeNext
  unfold advance
  split <;> simp_all

/-- Moving on asks the source only for the next character. -/
theorem exhausted_advance (c : Cursor σ) : c.advance.exhausted = c.takeNext.2.exhausted := by
  unfold advance
  split <;> simp_all

/-- Moving on leads to a character or behind the last one. -/
theorem settled_advance {c : Cursor σ} (h : c.Agrees) : c.advance.Settled := by
  have hl := c.lookahead_advance
  constructor
  · rw [c.exhausted_advance, exhausted_takeNext h, Option.isNone_iff_eq_none, c.current_advance, hl]
    simp
  · intro _
    rw [hl]
    rfl

/-- Looking ahead finds what agrees with the other places. -/
theorem Settled.peek {c : Cursor σ} (h : c.Settled) : c.peek.2.Settled := by
  unfold Cursor.peek
  split
  · exact h
  · next hl =>
    have hx := c.exhausted_pull
    have hc := c.pull_held.1
    have hend : c.current? = none → c.pull.1 = none := by
      intro hn
      rw [Cursor.pull, if_pos (h.exhausted_iff.mpr (.inl hn))]
    constructor
    · simp only [hx, hc, Option.isNone_iff_eq_none, Option.some.injEq]
      exact ⟨.inr, fun h ↦ h.elim hend id⟩
    · intro hn
      exact hend (hc ▸ hn)

/-- Nothing is to come behind the last character. -/
theorem Settled.upcoming_eq_nil {c : Cursor σ} (h : c.Settled) (hc : c.current? = none) :
    c.upcoming = [] := by
  have hx := h.exhausted_iff.mpr (.inl hc)
  simp [upcoming, unasked, hc, hx, h.behind hc]

/-- A cursor on the first character of a source is settled. -/
theorem settled_ofSource (s : σ) : (ofSource s).Settled := settled_advance (agrees_unmoved s)

/-- A cursor on a source that ends is bounded. -/
theorem ends_ofSource {s : σ} (h : CharSource.Ends s) : (ofSource s).Ends :=
  Ends.advance (.inr h)

/-- At first a cursor has all that the source supplies before it. -/
theorem upcoming_ofSource {s : σ} (h : CharSource.Ends s) :
    (ofSource s).upcoming = CharSource.upcoming s := by
  rw [ofSource, upcoming_advance (.inr h)]
  simp [unasked]

end Cursor
end MonkeyTokens
