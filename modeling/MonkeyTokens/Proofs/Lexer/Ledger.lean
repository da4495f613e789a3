import MonkeyTokens.Proofs.Lexer.View

/-!
# What a lexer does to its source and its journal

The ledger of a lexer is its source, whether that has ended, and the journal. A lexer changes it
in two ways only: it asks the source, which may report a fault, and it reports a token. `Reads` is
the record of these steps in any order, so that whatever both of them keep is kept by a lexer that
reads all of its tokens (`reads_drain`).
-/

namespace MonkeyTokens

/-- What a reader of tokens shares with its source and leaves in the journal. -/
structure Ledger (σ : Type) where
  source : σ
  /-- Whether the source has said that it has no more. -/
  exhausted : Bool
  journal : Array Event

/-- The token that an event reports. -/
def Event.token? : Event → Option Token
  | .producedToken t => some t
  | _ => none

namespace Ledger

variable {σ : Type}

/-- At first the source was not asked. -/
def ofSource (s : σ) : Ledger σ := ⟨s, false, #[]⟩

/-- Report a token. -/
def report (g : Ledger σ) (t : Token) : Ledger σ :=
  { g with journal := g.journal.push (.producedToken t) }

/-- The tokens that were reported. -/
def reported (g : Ledger σ) : List Token := g.journal.toList.filterMap Event.token?

private theorem reported_report (g : Ledger σ) (t : Token) :
    (g.report t).reported = g.reported ++ [t] := by
  rw [reported, report, Array.toList_push, List.filterMap_append]
  rfl

variable [CharSource σ]

/-- Ask the source, unless it has already said that it has no more. -/
def ask (g : Ledger σ) : Ledger σ :=
  if g.exhausted then g
  else
    let p := CharSource.pull g.source
    ⟨p.source, p.char?.isNone, g.journal.appendList p.events⟩

private theorem reported_ask (g : Ledger σ) : g.ask.reported = g.reported := by
  have hp : (CharSource.pull g.source).events.filterMap Event.token? = [] := by
    rw [Pull.events, List.filterMap_map]
    exact List.filterMap_eq_nil_iff.mpr fun _ _ ↦ rfl
  unfold ask
  split
  · rfl
  · simp only [reported, Array.appendList_eq_append, Array.toList_appendList,
      List.filterMap_append, hp, List.append_nil]

/-- From one ledger to the other by asking the source and by reporting these tokens. -/
inductive Reads : Ledger σ → List Token → Ledger σ → Prop where
  | refl (g : Ledger σ) : Reads g [] g
  | ask {g h : Ledger σ} {ts : List Token} (r : Reads g ts h) : Reads g ts h.ask
  | report {g h : Ledger σ} {ts : List Token} (r : Reads g ts h) (t : Token) :
      Reads g (ts ++ [t]) (h.report t)

/-- One record goes on behind the other. -/
theorem Reads.trans {g h k : Ledger σ} {ts us : List Token} (r : Reads g ts h)
    (q : Reads h us k) : Reads g (ts ++ us) k := by
  induction q with
  | refl => rwa [List.append_nil]
  | ask _ ih => exact ih.ask
  | report _ t ih =>
    rw [← List.append_assoc]
    exact ih.report t

/-- The tokens in the journal are those of the record. -/
theorem Reads.reported_eq {g h : Ledger σ} {ts : List Token} (r : Reads g ts h) :
    h.reported = g.reported ++ ts := by
  induction r with
  | refl => rw [List.append_nil]
  | ask _ ih => rw [reported_ask, ih]
  | report _ t ih => rw [reported_report, ih, List.append_assoc]

/-- Where the source meets no fault, the journal grows by the reports and by nothing else. -/
theorem Reads.journal_eq (quiet : ∀ s : σ, (CharSource.pull s).fault? = none) {g h : Ledger σ}
    {ts : List Token} (r : Reads g ts h) :
    h.journal.toList = g.journal.toList ++ ts.map .producedToken := by
  induction r with
  | refl => simp
  | @ask h ts _ ih =>
    rw [← ih]
    unfold Ledger.ask
    split
    · rfl
    · simp [Pull.events, quiet]
  | report _ t ih => simp [Ledger.report, ih]

end Ledger

namespace Cursor

open Ledger

variable {σ : Type} [CharSource σ]

/-- The ledger of a cursor. -/
def ledger (c : Cursor σ) : Ledger σ := ⟨c.source, c.exhausted, c.journal⟩

private theorem ledger_pull (c : Cursor σ) : c.pull.2.ledger = c.ledger.ask := by
  unfold pull Ledger.ask
  by_cases h : c.exhausted = true
  · simp [ledger, h]
  · simp [ledger, h]

private theorem reads_takeNext (c : Cursor σ) : Reads c.ledger [] c.takeNext.2.ledger := by
  unfold takeNext
  split
  · exact .refl _
  · rw [ledger_pull]
    exact .ask (.refl _)

/-- Moving on may ask the source. -/
theorem reads_advance (c : Cursor σ) : Reads c.ledger [] c.advance.ledger := by
  have h := c.reads_takeNext
  unfold advance
  split
  · next d hd =>
    rw [hd] at h
    exact h
  · next next d hd =>
    rw [hd] at h
    exact h

/-- Looking ahead may ask the source. -/
theorem reads_peek (c : Cursor σ) : Reads c.ledger [] c.peek.2.ledger := by
  unfold peek
  split
  · exact .refl _
  · have h : Reads c.ledger [] c.ledger.ask := .ask (.refl _)
    rwa [← ledger_pull] at h

end Cursor

namespace Lexer

open Ledger Text

variable {σ : Type} [CharSource σ]

/-- The ledger of a lexer. -/
def ledger (l : Lexer σ) : Ledger σ := l.cursor.ledger

private theorem reads_advance (l : Lexer σ) :
    Reads l.ledger [] l.advance.ledger := l.cursor.reads_advance

private theorem reads_peek (l : Lexer σ) : Reads l.ledger [] l.peek.2.ledger := l.cursor.reads_peek

/-- A run asks the source. -/
theorem reads_takeRun (p : Char → Bool) (l : Lexer σ) :
    Reads l.ledger [] (l.takeRun p).2.ledger := by
  fun_induction takeRun p l with
  | case1 | case3 => exact .refl _
  | case2 l c hc hp run m hr ih =>
    rw [hr] at ih
    exact l.reads_advance.trans ih

private theorem reads_scanNumber (l : Lexer σ) : Reads l.ledger [] l.scanNumber.2.ledger := by
  have hwhole := l.reads_takeRun isDigit
  unfold scanNumber
  simp only
  split
  · have hdot := (l.takeRun isDigit).2.reads_advance
    exact (hwhole.trans hdot).trans (reads_takeRun isDigit _)
  · exact hwhole

private theorem reads_scanSymbol (c : Char) (l : Lexer σ) :
    Reads l.ledger [] (l.scanSymbol c).2.ledger := by
  unfold scanSymbol
  split
  · exact l.reads_advance
  · have hpeek := l.reads_peek.trans l.peek.2.reads_advance
    simp only
    split
    · exact hpeek.trans l.peek.2.advance.reads_advance
    · exact hpeek

/-- A scan asks the source. -/
theorem reads_scan (l : Lexer σ) : Reads l.ledger [] l.scan.2.ledger := by
  unfold scan
  split
  · exact .refl _
  · next c hc =>
    split
    · exact l.reads_takeRun isLetter
    · split
      · exact l.reads_scanNumber
      · exact l.reads_scanSymbol c

/-- The next token is reported once it was read. -/
theorem reads_nextToken (l : Lexer σ) : Reads l.ledger [l.nextToken.1] l.nextToken.2.ledger := by
  have hscan := (l.reads_takeRun isBlank).trans (l.takeRun isBlank).2.reads_scan
  exact hscan.report _

/-- Draining a lexer reports all of its tokens and the mark at the end. -/
theorem reads_drain (l : Lexer σ) :
    Reads l.ledger (l.drain.1 ++ [l.drain.2.1]) l.drain.2.2.ledger := by
  fun_induction drain l with
  | case1 l next h => exact l.reads_nextToken
  | case2 l next h ts last m hd ih =>
    rw [hd] at ih
    exact l.reads_nextToken.trans ih

/-- A new lexer has only asked its source. -/
theorem reads_ofEnding {s : σ} (h : CharSource.Ends s) :
    Reads (.ofSource s) [] (ofEnding s h).ledger :=
  Cursor.reads_advance { source := s }

/-- So has one on a source of a kind that always ends. -/
theorem reads_ofSource [FiniteSource σ] (s : σ) :
    Reads (.ofSource s) [] (Lexer.ofSource s).ledger :=
  reads_ofEnding _

private theorem upcoming_drain (l : Lexer σ) : l.drain.2.2.upcoming = [] := by
  fun_induction drain l with
  | case1 l next h =>
    have hn := (isEnd_nextToken_iff l).mp h
    have hv := (view_nextToken l).2
    rw [View.behind, View.skip_eq, hn, List.drop_nil] at hv
    exact congrArg View.chars hv
  | case2 l next h ts last m hd ih =>
    rw [hd] at ih
    exact ih

/-- Behind the end the source has said that it has no more. -/
theorem exhausted_drain (l : Lexer σ) : l.drain.2.2.ledger.exhausted = true := by
  have hc := l.drain.2.2.head?_upcoming
  rw [upcoming_drain, List.head?_nil] at hc
  exact l.drain.2.2.settled.exhausted_iff.mpr (.inl hc.symm)

end Lexer
end MonkeyTokens
