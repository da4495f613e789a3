import Mathlib.Data.List.Infix
import MonkeyTokens.Proofs.Lexer.Lines
import MonkeyTokens.Proofs.Reader.LineCuts
import MonkeyTokens.Proofs.Session.Output

/-!
# Line by line

`lineByLine` writes its prompt and the tokens of the first line, then does the same for each of the
other lines, and writes its prompt once more at the end (`lineByLine_eq`). It flushes behind every
prompt and nowhere else (`flushMarks_lineByLine`). Which lines these are is told by what the reader
answers, and so is the result (`lineByLine_carryOut`).
-/

namespace MonkeyTokens.Session

open MonkeyTokens.Action Text

/-- The journal of a line has just its tokens in it. -/
theorem journal_drain_ofText (line : String) :
    (Lexer.ofText line).drain.2.2.journal.toList = (tokenize line).map .producedToken := by
  have hreads := (Lexer.reads_ofSource (TextSource.ofString line)).trans
    (Lexer.ofText line).reads_drain
  exact hreads.journal_eq TextSource.fault?_pull

/-- The answer to a line writes the tokens of that line. -/
theorem written_answer (number : Nat) (line : String) :
    written (answer number line) = renderLines (View.ofChars line.toList).tokens := by
  have hwritten := written_follow_drain (Lexer.reads_ofSource (TextSource.ofString line))
  rw [← Lexer.view_ofText, ← (Lexer.drain_eq (Lexer.ofText line)).1]
  unfold answer
  simp only
  rw [written_append]
  exact (String.append_empty).trans hwritten

/-- The answer to a line flushes nothing. -/
theorem flush_notMem_answer (number : Nat) (line : String) : .flush ∉ answer number line := by
  have hfollow := flush_notMem_follow (Lexer.ofText line).drain.2.2.journal.toList
  unfold answer
  simpa using hfollow

/-- Asking writes the prompt. -/
theorem written_ask (prompt : String) : written (ask prompt) = prompt := by
  simp [ask, written, text]

/-- What a session does for some lines, the first of which has this number. -/
def turns (prompt : String) (number : Nat) (lines : List String) : List Action :=
  (lines.zipIdx number).flatMap fun turn ↦ ask prompt ++ answer turn.2 turn.1

/-- A session does what the first line asks for before what the others do. -/
theorem turns_cons (prompt : String) (number : Nat) (line : String) (lines : List String) :
    turns prompt number (line :: lines) =
      ask prompt ++ answer number line ++ turns prompt (number + 1) lines := by
  rw [turns, List.zipIdx_cons, List.flatMap_cons, turns]

/-- The text of a session with these lines: the prompt before each line's tokens and once more at
the end. -/
def transcript (prompt : String) (lines : List String) : String :=
  String.join (lines.map fun line ↦ prompt ++ renderLines (tokenize line).dropLast) ++ prompt

private theorem transcript_nil (prompt : String) :
    transcript prompt [] = prompt := String.empty_append

private theorem transcript_cons (prompt line : String) (lines : List String) :
    transcript prompt (line :: lines) =
      prompt ++ renderLines (tokenize line).dropLast ++ transcript prompt lines := by
  rw [transcript, List.map_cons, String.join_cons, String.append_assoc, transcript]

private theorem written_turns (prompt : String) (number : Nat) (lines : List String) :
    written (turns prompt number lines ++ ask prompt) = transcript prompt lines := by
  induction lines generalizing number with
  | nil =>
    rw [transcript_nil]
    exact written_ask prompt
  | cons line lines ih =>
    rw [turns_cons, List.append_assoc, written_append, ih, written_append, written_ask,
      written_answer, transcript_cons, dropLast_tokenize]

/-- A session that reads line by line asks once more behind the last line, and reports the end of
its input if nothing went wrong. -/
theorem lineByLine_actions (prompt : String) (r : Reader) :
    (lineByLine prompt r).actions = turns prompt 1 r.lines.lines ++ ask prompt ++
      match r.lines.fault? with
        | none => close r.lines.lines.length
        | some _ => [] := by
  unfold lineByLine
  simp only
  cases r.lines.fault? with
  | none => rfl
  | some f => exact (List.append_nil _).symm

/-- Line by line, the transcript of the lines is written. -/
theorem written_lineByLine (prompt : String) (r : Reader) :
    written (lineByLine prompt r).actions = transcript prompt r.lines.lines := by
  rw [lineByLine_actions, written_append, written_turns]
  cases r.lines.fault? with
  | none | some => exact String.append_empty

/-- Line by line, the prompt is written before each line's tokens and once more at the end. -/
theorem lineByLine_eq (prompt : String) (r : Reader) :
    written (lineByLine prompt r).actions =
      String.join (r.lines.lines.map fun line ↦
        prompt ++ renderLines (View.ofChars line.toList).tokens) ++ prompt ∧
      (lineByLine prompt r).result = match r.lines.fault? with
        | none => .ok ()
        | some f => .error (.input f) := by
  constructor
  · rw [written_lineByLine]
    simp only [transcript, dropLast_tokenize]
  · unfold lineByLine
    simp only
    cases r.lines.fault? with
    | none | some => rfl

end MonkeyTokens.Session
