import MonkeyTokens.Proofs.Lexer.Ledger
import MonkeyTokens.Proofs.Source.Watched
import MonkeyTokens.Source.Answers

/-!
# Looking ahead makes no difference

A cursor on whatever source, even one that never ends, moves on in the same way whether it looked
ahead before or not (`Cursor.advance_peek`), and to look again is to find the same
(`Cursor.peek_peek`). So a cursor that looks ahead any number of times between its moves is always
where the one is that only moves, or has made one look from there (`Cursor.Beside`). It has asked
its source once more at most, and once the source has said that it has no more, neither of them asks
again (`Cursor.after_ofSource`).
-/

namespace MonkeyTokens

open CharSource

/-- What a cursor can be told to do. -/
inductive CursorCall where
  | advance
  | peek
  deriving DecidableEq, Repr

namespace Cursor

variable {σ : Type} [CharSource σ]

/-- The cursor behind a call. -/
def call (c : Cursor σ) : CursorCall → Cursor σ
  | .advance => c.advance
  | .peek => c.peek.2

/-- The cursor behind one call after the other. -/
def after (calls : List CursorCall) (c : Cursor σ) : Cursor σ := calls.foldl call c

/-! ### A look and a move -/

private theorem peek_of_free {c : Cursor σ} (h : c.lookahead? = none) :
    c.peek = (c.pull.1, { c.pull.2 with lookahead? := some c.pull.1 }) := by
  rw [peek, h]

/-- What was found once is found again, and nothing changes any more. -/
theorem peek_peek (c : Cursor σ) : c.peek.2.peek = c.peek := by
  cases h : c.lookahead? with
  | some next? =>
    have hpeek : c.peek = (next?, c) := by rw [peek, h]
    rw [hpeek]
    exact hpeek
  | none =>
    rw [peek_of_free h]
    rfl

private theorem takeNext_peek (c : Cursor σ) : c.peek.2.takeNext = c.takeNext := by
  cases h : c.lookahead? with
  | some next? =>
    have hpeek : c.peek = (next?, c) := by rw [peek, h]
    rw [hpeek]
  | none =>
    have hfree : c.pull.2.lookahead? = none := c.pull_held.2.1.trans h
    have hlooked : c.peek.2.takeNext = (c.pull.1, { c.pull.2 with lookahead? := none }) := by
      rw [peek_of_free h]
      rfl
    rw [hlooked, ← hfree, takeNext, h]

/-- So does moving on. -/
theorem advance_peek (c : Cursor σ) : c.peek.2.advance = c.advance := by
  rw [advance, advance, takeNext_peek]

private theorem peek_eq_current_advance (c : Cursor σ) : c.peek.1 = c.advance.current? := by
  rw [peek_eq_takeNext, current_advance]

private theorem after_peeks (n : Nat) (c : Cursor σ) :
    c.after (List.replicate (n + 1) .peek) = c.peek.2 := by
  induction n generalizing c with
  | zero => rfl
  | succ n ih => exact (ih c.peek.2).trans (congrArg Prod.snd c.peek_peek)

/-! ### Looks between moves -/

/-- The first cursor is where the second one is, or where it comes to by looking ahead. -/
def Beside (c d : Cursor σ) : Prop := c = d ∨ c = d.peek.2

namespace Beside

variable {c d : Cursor σ}

private theorem advance_eq (h : Beside c d) : c.advance = d.advance := by
  rcases h with rfl | rfl
  · rfl
  · exact d.advance_peek

private theorem peek_eq (h : Beside c d) : c.peek = d.peek := by
  rcases h with rfl | rfl
  · rfl
  · exact d.peek_peek

private theorem stands_eq (h : Beside c d) : c.current? = d.current? ∧ c.position = d.position := by
  rcases h with rfl | rfl
  · exact ⟨rfl, rfl⟩
  · exact ⟨d.current_peek, d.position_peek⟩

private theorem after (h : Beside c d) (calls : List CursorCall) :
    Beside (c.after calls) (d.after (calls.filter (· = .advance))) := by
  induction calls generalizing c d with
  | nil => exact h
  | cons call calls ih =>
    cases call with
    | advance => exact ih (.inl h.advance_eq)
    | peek => exact ih (.inr (congrArg Prod.snd h.peek_eq))

end Beside
end Cursor

/-! ### What the source is asked -/

namespace Ledger

variable {σ : Type}

/-- A watched source has given some characters, and if it is known to have no more, it has said so
once, and at last. -/
def SaidOnce (g : Ledger (Watched σ)) : Prop :=
  ∃ cs : List Char, g.source.answers = cs.map some ++ if g.exhausted then [none] else []

namespace SaidOnce

variable {g h : Ledger (Watched σ)}

/-- At first a source has answered nothing. -/
theorem ofSource (s : σ) : SaidOnce (.ofSource { source := s }) := ⟨[], rfl⟩

private theorem none_notMem_dropLast (said : g.SaidOnce) : none ∉ g.source.answers.dropLast := by
  obtain ⟨cs, hcs⟩ := said
  have hsome : none ∉ cs.map some := by simp
  rw [hcs]
  split
  · rwa [List.dropLast_concat]
  · rw [List.append_nil]
    exact mt (fun hmem ↦ List.dropLast_subset _ hmem) hsome

variable [CharSource σ]

private theorem ask (said : g.SaidOnce) : g.ask.SaidOnce := by
  obtain ⟨cs, hcs⟩ := said
  unfold Ledger.ask
  by_cases hx : g.exhausted = true
  · rw [if_pos hx]
    exact ⟨cs, hcs⟩
  · rw [if_neg hx]
    rw [if_neg hx, List.append_nil] at hcs
    change ∃ ds : List Char, g.source.answers ++ [(pull g.source).char?] =
      ds.map some ++ if (pull g.source).char?.isNone then [none] else []
    rw [hcs]
    cases (pull g.source).char? with
    | none => exact ⟨cs, rfl⟩
    | some c =>
      refine ⟨cs ++ [c], ?_⟩
      rw [List.map_append]
      exact (List.append_nil _).symm

private theorem reads {ts : List Token} (r : Reads g ts h) (said : g.SaidOnce) : h.SaidOnce := by
  induction r with
  | refl => exact said
  | ask _ ih => exact ih.ask
  | report _ t ih => exact ih

end SaidOnce
end Ledger

namespace Cursor

variable {σ : Type} [CharSource σ]

private theorem reads_after (calls : List CursorCall) (c : Cursor σ) :
    Ledger.Reads c.ledger [] (c.after calls).ledger := by
  induction calls generalizing c with
  | nil => exact .refl _
  | cons call calls ih =>
    cases call with
    | advance => exact c.reads_advance.trans (ih c.advance)
    | peek => exact c.reads_peek.trans (ih c.peek.2)

/-- The cursor on the source behind a watched one. -/
def unwatched (c : Cursor (Watched σ)) : Cursor σ where
  source := c.source.source
  exhausted := c.exhausted
  lookahead? := c.lookahead?
  current? := c.current?
  position := c.position
  journal := c.journal

private theorem pull_unwatched (c : Cursor (Watched σ)) :
    c.unwatched.pull = (c.pull.1, c.pull.2.unwatched) := by
  unfold pull
  by_cases hx : c.exhausted = true
  · simp [unwatched, hx]
  · simp only [unwatched, hx]
    rfl

private theorem peek_unwatched (c : Cursor (Watched σ)) :
    c.unwatched.peek = (c.peek.1, c.peek.2.unwatched) := by
  have hsame : c.unwatched.lookahead? = c.lookahead? := rfl
  cases h : c.lookahead? with
  | some next? => rw [peek, peek, hsame, h]
  | none =>
    rw [peek_of_free h, peek_of_free (hsame.trans h), pull_unwatched]
    rfl

private theorem advance_unwatched (c : Cursor (Watched σ)) :
    c.unwatched.advance = c.advance.unwatched := by
  have hsame : c.unwatched.lookahead? = c.lookahead? := rfl
  have hnext : c.unwatched.takeNext = (c.takeNext.1, c.takeNext.2.unwatched) := by
    unfold takeNext
    cases h : c.lookahead? with
    | some next? =>
      rw [hsame, h]
      rfl
    | none => rw [hsame, h, pull_unwatched]
  rw [advance, advance, hnext]
  obtain ⟨next?, d⟩ := c.takeNext
  cases next? <;> rfl

private theorem unwatched_ofSource (s : σ) :
    (ofSource ({ source := s } : Watched σ)).unwatched = ofSource s :=
  (advance_unwatched _).symm

private theorem after_unwatched (calls : List CursorCall) (c : Cursor (Watched σ)) :
    c.unwatched.after calls = (c.after calls).unwatched := by
  induction calls generalizing c with
  | nil => rfl
  | cons call calls ih =>
    rw [after, List.foldl_cons]
    cases call with
    | advance =>
      change (c.unwatched.advance).after calls = _
      rw [advance_unwatched]
      exact ih c.advance
    | peek =>
      change (c.unwatched.peek.2).after calls = _
      rw [peek_unwatched]
      exact ih c.peek.2

private theorem answers_peek (c : Cursor (Watched σ)) :
    c.source.answers <+: c.peek.2.source.answers ∧
      c.peek.2.source.answers.length ≤ c.source.answers.length + 1 := by
  cases h : c.lookahead? with
  | some next? =>
    have hpeek : c.peek.2 = c := by rw [peek, h]
    rw [hpeek]
    exact ⟨List.prefix_refl _, Nat.le_succ _⟩
  | none =>
    rw [peek_of_free h]
    unfold pull
    split
    · exact ⟨List.prefix_refl _, Nat.le_succ _⟩
    · exact ⟨List.prefix_append _ _, Nat.le_of_eq List.length_append⟩

/-- On whatever source, looks ahead between its moves make no difference to a new cursor. By any
calls it comes to the character, and to the position, to which it comes by the moves among them.
A look finds the character that the next move leads to, whether there are more looks before it or
not, and any number of looks in a row ask the source once at most. In all, the source is asked what
it is asked for the moves alone, or once more; and once it has said that it has no more, it is not
asked again. -/
theorem after_ofSource (s : σ) (calls : List CursorCall) :
    let start := ofSource ({ source := s } : Watched σ)
    let c := start.after calls
    let d := start.after (calls.filter (· = .advance))
    c.unwatched = (ofSource s).after calls ∧
      (c.current? = d.current? ∧ c.position = d.position) ∧
      (∀ n, c.peek.1 = (c.after (List.replicate n .peek ++ [.advance])).current?) ∧
      (∀ n, (c.after (List.replicate n .peek)).source.answers.length ≤
        c.source.answers.length + 1) ∧
      (d.source.answers <+: c.source.answers ∧
        c.source.answers.length ≤ d.source.answers.length + 1) ∧
      none ∉ c.source.answers.dropLast := by
  intro start c d
  have hbeside : Beside c d := Beside.after (.inl rfl) calls
  refine ⟨?_, hbeside.stands_eq, ?_, ?_, ?_, ?_⟩
  · calc c.unwatched
      _ = start.unwatched.after calls := (after_unwatched calls start).symm
      _ = (ofSource s).after calls := congrArg (after calls) (unwatched_ofSource s)
  · intro n
    have hmove : c.after (List.replicate n .peek ++ [.advance]) =
        (c.after (List.replicate n .peek)).advance := List.foldl_append
    rw [hmove, c.peek_eq_current_advance]
    cases n with
    | zero => rfl
    | succ n => rw [after_peeks, advance_peek]
  · intro n
    cases n with
    | zero => exact Nat.le_succ _
    | succ n =>
      rw [after_peeks]
      exact c.answers_peek.2
  · rcases hbeside with h | h
    · rw [h]
      exact ⟨List.prefix_refl _, Nat.le_succ _⟩
    · rw [h]
      exact d.answers_peek
  · have hstart : Ledger.Reads (.ofSource { source := s }) [] start.ledger :=
      reads_advance ({ source := { source := s } } : Cursor (Watched σ))
    have hreads := hstart.trans (reads_after calls start)
    exact (Ledger.SaidOnce.reads hreads (.ofSource s)).none_notMem_dropLast

/-- A source that would go on: the end that a look found is not asked for again. -/
example :
    let s : AnswerSource := ⟨[some 'a', some '=', none, some 'b']⟩
    let c := (ofSource ({ source := s } : Watched AnswerSource)).after
      [.peek, .peek, .advance, .peek, .advance, .peek, .advance]
    c.source.answers = [some 'a', some '=', none] ∧ c.position = ⟨1, 2⟩ :=
  ⟨rfl, rfl⟩

end Cursor
end MonkeyTokens
