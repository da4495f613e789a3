import Mathlib.Algebra.Ring.Nat
import MonkeyTokens.Proofs.Session.LineByLine
import MonkeyTokens.Proofs.Session.TokenLines

/-!
# The log of a session

A session that reads line by line reports every token before it writes it, the mark at the end of a
line once all its tokens are written, and then the line. Wherever it stops, its log is that of the
lines it has answered and of the tokens of the next one up to the first that could not be written
(`lineByLine_log`).
-/

namespace MonkeyTokens

/-- What a log shows of an event. -/
structure LogEntry where
  message : String
  fields : List (String × FieldValue)
  deriving DecidableEq, Repr

/-- The entry for an event. -/
def Event.logEntry (e : Event) : LogEntry := ⟨e.message, e.fields⟩

namespace LogEntry

/-- The lexer produced a token. -/
def ofToken (t : Token) : LogEntry where
  message := "produced token"
  fields := [("kind", .plain t.kind.name), ("literal", .plain t.literal),
    ("line", .number t.position.line), ("column", .number t.position.column)]

/-- All tokens of a line were written. -/
def ofLine (line tokens : Nat) : LogEntry where
  message := "lexed line"
  fields := [("line", .number line), ("tokens", .number tokens)]

/-- The input ended. -/
def ofEnd (lines : Nat) : LogEntry where
  message := "input closed"
  fields := [("lines", .number lines)]

private theorem message_ofToken_ne (t : Token) : (ofToken t).message ≠ "input closed" := by
  change "produced token" ≠ "input closed"
  decide

/-- The number in the field of this name, if there is one. -/
def number? (name : String) (e : LogEntry) : Option Nat :=
  match e.fields.lookup name with
  | some (.number n) => some n
  | _ => none

end LogEntry

namespace Session

open MonkeyTokens.Action

/-! ### What is reported of lines -/

/-- What actions leave in the log. -/
def entries (actions : List Action) : List LogEntry := (actions.filterMap event?).map Event.logEntry

private theorem entries_append (first rest : List Action) :
    entries (first ++ rest) = entries first ++ entries rest := by
  rw [entries, List.filterMap_append, List.map_append, entries, entries]

/-- What is reported of a line: its tokens, the mark at its end, and how many tokens there are. -/
def lineEntries (number : Nat) (line : String) : List LogEntry :=
  (tokenize line).map .ofToken ++ [.ofLine number (tokenize line).dropLast.length]

/-- What is reported of some lines, the first of which has this number. -/
def account (number : Nat) (lines : List String) : List LogEntry :=
  (lines.zipIdx number).flatMap fun turn ↦ lineEntries turn.2 turn.1

private theorem account_cons (number : Nat) (line : String) (lines : List String) :
    account number (line :: lines) = lineEntries number line ++ account (number + 1) lines := by
  rw [account, List.zipIdx_cons, List.flatMap_cons, account]

/-- Report a token and write it. -/
def tell (t : Token) : List Action := [.record (.producedToken t), .write t.renderLine]

private theorem flatMap_follow {ts : List Token} (h : ∀ t ∈ ts, t.isEnd = false) :
    (ts.map .producedToken).flatMap follow = ts.flatMap tell := by
  rw [List.flatMap_map]
  apply List.flatMap_congr
  intro t ht
  rw [follow, h t ht]
  rfl

private theorem written_tell (ts : List Token) : written (ts.flatMap tell) = renderLines ts := by
  induction ts with
  | nil => rfl
  | cons t ts ih =>
    rw [List.flatMap_cons, written_append, ih, renderLines, renderLines, List.map_cons,
      String.join_cons]
    simp [tell, written, text]

private theorem entries_tell (ts : List Token) : entries (ts.flatMap tell) = ts.map .ofToken := by
  induction ts with
  | nil => rfl
  | cons t ts ih =>
    rw [List.flatMap_cons, entries_append, ih]
    rfl

private theorem count_flush_tell (ts : List Token) : (ts.flatMap tell).count .flush = 0 := by
  induction ts with
  | nil => rfl
  | cons t ts ih =>
    rw [List.flatMap_cons, List.count_append, ih]
    rfl

/-- Tell tokens and report the one behind them. -/
def tellUpTo (ts : List Token) (t : Token) : List Action :=
  ts.flatMap tell ++ [.record (.producedToken t)]

private theorem written_tellUpTo (ts : List Token) (t : Token) :
    written (tellUpTo ts t) = renderLines ts := by
  rw [tellUpTo, written_append, written_tell]
  exact String.append_empty

private theorem entries_tellUpTo (ts : List Token) (t : Token) :
    entries (tellUpTo ts t) = (ts ++ [t]).map .ofToken := by
  rw [tellUpTo, entries_append, entries_tell, List.map_append]
  rfl

private theorem answer_eq (number : Nat) (line : String) :
    ∃ mark, tokenize line = (tokenize line).dropLast ++ [mark] ∧
      answer number line = (tokenize line).dropLast.flatMap tell ++
        [.record (.producedToken mark),
          .record (.lexedLine number (tokenize line).dropLast.length)] := by
  have htokens : tokenize line =
      (Lexer.ofText line).drain.1 ++ [(Lexer.ofText line).drain.2.1] := rfl
  obtain ⟨hkept, hmark⟩ := (Lexer.ofText line).isEnd_drain
  have hfollow : follow (.producedToken (Lexer.ofText line).drain.2.1) =
      [.record (.producedToken (Lexer.ofText line).drain.2.1)] := by
    rw [follow, if_pos hmark]
  have hanswer : answer number line = (Lexer.ofText line).drain.2.2.journal.toList.flatMap follow ++
      [.record (.lexedLine number (Lexer.ofText line).drain.1.length)] := rfl
  refine ⟨(Lexer.ofText line).drain.2.1, ?_, ?_⟩
  · rw [htokens, List.dropLast_concat]
  · rw [hanswer, journal_drain_ofText, htokens, List.dropLast_concat, List.map_append,
      List.flatMap_append, flatMap_follow hkept, List.map_singleton, List.flatMap_singleton,
      hfollow, List.append_assoc]
    rfl

private theorem entries_answer (number : Nat) (line : String) :
    entries (answer number line) = lineEntries number line := by
  obtain ⟨mark, htokens, hanswer⟩ := answer_eq number line
  have hmap : (tokenize line).map LogEntry.ofToken =
      (tokenize line).dropLast.map .ofToken ++ [.ofToken mark] := by
    rw [← List.map_singleton, ← List.map_append, ← htokens]
  rw [hanswer, entries_append, entries_tell, lineEntries, hmap, List.append_assoc]
  rfl

private theorem entries_turns (prompt : String) (number : Nat) (lines : List String) :
    entries (turns prompt number lines) = account number lines := by
  induction lines generalizing number with
  | nil => rfl
  | cons line lines ih =>
    rw [turns_cons, entries_append, entries_append, ih, entries_answer, account_cons]
    rfl

private theorem count_flush_turns (prompt : String) (number : Nat) (lines : List String) :
    (turns prompt number lines).count .flush = lines.length := by
  induction lines generalizing number with
  | nil => rfl
  | cons line lines ih =>
    rw [turns_cons, List.count_append, List.count_append, ih,
      List.count_eq_zero.mpr (flush_notMem_answer number line), List.length_cons]
    change 1 + 0 + lines.length = _
    omega

/-! ### Where a session can stop -/

private theorem exists_told {ts : List Token} {reports done rest : List Action} {action : Action}
    (h : ts.flatMap tell ++ reports = done ++ action :: rest) (hreport : action.event? = none)
    (hreports : ∀ a ∈ reports, a.event? ≠ none) :
    ∃ before t behind, ts = before ++ t :: behind ∧ action = .write t.renderLine ∧
      done = tellUpTo before t := by
  induction ts generalizing done with
  | nil =>
    have hmem : action ∈ reports := by
      rw [List.flatMap_nil, List.nil_append] at h
      rw [h]
      exact List.mem_append_right _ List.mem_cons_self
    exact absurd hreport (hreports action hmem)
  | cons t ts ih =>
    match done, h with
    | [], h =>
      injection h with hfirst
      rw [← hfirst] at hreport
      cases hreport
    | [first], h =>
      injection h with hfirst h
      injection h with hsecond
      exact ⟨[], t, ts, rfl, hsecond.symm, by rw [← hfirst]; rfl⟩
    | first :: second :: done, h =>
      injection h with hfirst h
      injection h with hsecond h
      obtain ⟨before, u, behind, rfl, haction, rfl⟩ := ih h
      refine ⟨t :: before, u, behind, rfl, haction, ?_⟩
      rw [← hfirst, ← hsecond]
      rfl

private theorem ask_cases {prompt : String} {behind done rest : List Action} {action : Action}
    (h : ask prompt ++ behind = done ++ action :: rest) :
    done = [] ∧ action = .write prompt ∨ done = [.write prompt] ∧ action = .flush ∨
      ∃ more, done = ask prompt ++ more ∧ behind = more ++ action :: rest := by
  match done, h with
  | [], h =>
    injection h with hfirst
    exact .inl ⟨rfl, hfirst.symm⟩
  | [first], h =>
    injection h with hfirst h
    injection h with hsecond
    exact .inr (.inl ⟨by rw [← hfirst], hsecond.symm⟩)
  | first :: second :: done, h =>
    injection h with hfirst h
    injection h with hsecond h
    exact .inr (.inr ⟨done, by rw [← hfirst, ← hsecond]; rfl, h⟩)

/-- A write or a flush of a session, and what is done before it: the turns of some lines, and of
the turn behind them a first part. -/
inductive UpNext (prompt : String) (number : Nat) (lines before : List String)
    (done : List Action) (action : Action) : Prop where
  | writePrompt (done_eq : done = turns prompt number before) (action_eq : action = .write prompt)
  | flushPrompt (done_eq : done = turns prompt number before ++ [.write prompt])
      (action_eq : action = .flush)
  | writeToken {line : String} {behind : List String} {ts us : List Token} {t : Token}
      (lines_eq : lines = before ++ line :: behind)
      (tokens_eq : (tokenize line).dropLast = ts ++ t :: us)
      (done_eq : done = turns prompt number before ++ (ask prompt ++ tellUpTo ts t))
      (action_eq : action = .write t.renderLine)

private theorem UpNext.cons {prompt line : String} {number : Nat} {lines before : List String}
    {done : List Action} {action : Action}
    (h : UpNext prompt (number + 1) lines before done action) :
    UpNext prompt number (line :: lines) (line :: before)
      (ask prompt ++ answer number line ++ done) action := by
  cases h with
  | writePrompt done_eq action_eq =>
    exact .writePrompt (by rw [done_eq, turns_cons]) action_eq
  | flushPrompt done_eq action_eq =>
    refine .flushPrompt ?_ action_eq
    rw [done_eq, turns_cons, List.append_assoc _ _ [_]]
  | writeToken lines_eq tokens_eq done_eq action_eq =>
    refine .writeToken (by rw [lines_eq]; rfl) tokens_eq ?_ action_eq
    rw [done_eq, turns_cons, List.append_assoc _ (turns _ _ _)]

private theorem exists_upNext {prompt : String} {number : Nat} {lines : List String}
    {reports done rest : List Action} {action : Action}
    (h : turns prompt number lines ++ (ask prompt ++ reports) = done ++ action :: rest)
    (hreport : action.event? = none) (hreports : ∀ a ∈ reports, a.event? ≠ none) :
    ∃ before, before <+: lines ∧ UpNext prompt number lines before done action := by
  induction lines generalizing number done with
  | nil =>
    rcases ask_cases h with ⟨rfl, haction⟩ | ⟨rfl, haction⟩ | ⟨more, rfl, hmore⟩
    · exact ⟨[], List.nil_prefix, .writePrompt rfl haction⟩
    · exact ⟨[], List.nil_prefix, .flushPrompt rfl haction⟩
    · have hmem : action ∈ reports := by
        rw [hmore]
        exact List.mem_append_right _ List.mem_cons_self
      exact absurd hreport (hreports action hmem)
  | cons line lines ih =>
    rw [turns_cons, List.append_assoc, List.append_assoc] at h
    rcases ask_cases h with ⟨rfl, haction⟩ | ⟨rfl, haction⟩ | ⟨more, rfl, hmore⟩
    · exact ⟨[], List.nil_prefix, .writePrompt rfl haction⟩
    · exact ⟨[], List.nil_prefix, .flushPrompt rfl haction⟩
    · -- either all of the answer is done, or the action is in it
      have hcut : (∃ further, more = answer number line ++ further ∧
            turns prompt (number + 1) lines ++ (ask prompt ++ reports) =
              further ++ action :: rest) ∨
          ∃ part, answer number line = more ++ action :: part := by
        rcases List.append_eq_append_iff.mp hmore with hfurther | ⟨part, hpart, hrest⟩
        · exact .inl hfurther
        · cases part with
          | nil => exact .inl ⟨[], by rw [hpart, List.append_nil, List.append_nil], hrest.symm⟩
          | cons next part =>
            injection hrest with hnext
            exact .inr ⟨part, by rw [hpart, hnext]⟩
      rcases hcut with ⟨further, rfl, hfurther⟩ | ⟨part, hpart⟩
      · obtain ⟨before, hbefore, hup⟩ := ih hfurther
        refine ⟨line :: before, (List.prefix_cons_inj line).mpr hbefore, ?_⟩
        rw [← List.append_assoc]
        exact hup.cons
      · obtain ⟨mark, -, hanswer⟩ := answer_eq number line
        rw [hanswer] at hpart
        obtain ⟨ts, t, us, htokens, haction, rfl⟩ := exists_told hpart hreport (by simp [event?])
        exact ⟨[], List.nil_prefix, .writeToken rfl htokens rfl haction⟩

/-! ### How a session ends -/

/-- The transcript of some lines but for the last prompt: the prompt before each line's tokens. -/
def told (prompt : String) (lines : List String) : String :=
  String.join (lines.map fun line ↦ prompt ++ renderLines (tokenize line).dropLast)

private theorem written_turns_eq_told (prompt : String) (number : Nat) (lines : List String) :
    written (turns prompt number lines) = told prompt lines := by
  induction lines generalizing number with
  | nil => rfl
  | cons line lines ih =>
    rw [turns_cons, written_append, written_append, written_ask, written_answer, ih, told, told,
      List.map_cons, String.join_cons, dropLast_tokenize]

/-- How a session that reads line by line has ended behind some lines that it has answered: what it
has stored and how often it has flushed since its start, what it has reported behind these lines,
and its result. -/
inductive Ended (prompt : String) (sink : Sink) (input : LineInput) (lines : List String) :
    ByteArray → Nat → List LogEntry → Except SessionFailure Unit → Prop where
  /-- The input has ended. -/
  | closed (input_eq : input = ⟨lines, none⟩) :
      Ended prompt sink input lines (transcript prompt lines).toUTF8 (lines.length + 1)
        [.ofEnd lines.length] (.ok ())
  /-- The next line cannot be had. -/
  | noLine {f : Fault} (input_eq : input = ⟨lines, some f⟩) :
      Ended prompt sink input lines (transcript prompt lines).toUTF8 (lines.length + 1)
        [] (.error (.input f))
  /-- The prompt was not written to its end. -/
  | noPrompt {n : Nat} (isPrefix : lines <+: input.lines) (part : n < prompt.utf8ByteSize) :
      Ended prompt sink input lines ((told prompt lines).toUTF8 ++ prompt.toUTF8.extract 0 n)
        lines.length [] (.error (.output (sink.fault?.getD .nothingWritten)))
  /-- The prompt was written, but not flushed. -/
  | noFlush (isPrefix : lines <+: input.lines)
      (last : sink.failingFlush? = some (sink.flushed.size + lines.length + 1)) :
      Ended prompt sink input lines (transcript prompt lines).toUTF8 lines.length
        [] (.error (.output (sink.fault?.getD .flushFailed)))
  /-- A token of the next line was not written to its end. -/
  | noToken {line : String} {behind : List String} {ts us : List Token} {t : Token} {n : Nat}
      (lines_eq : input.lines = lines ++ line :: behind)
      (tokens_eq : (tokenize line).dropLast = ts ++ t :: us)
      (part : n < t.renderLine.utf8ByteSize) :
      Ended prompt sink input lines
        ((transcript prompt lines ++ renderLines ts).toUTF8 ++ t.renderLine.toUTF8.extract 0 n)
        (lines.length + 1) ((ts ++ [t]).map .ofToken)
        (.error (.output (sink.fault?.getD .nothingWritten)))

private theorem after_turns (prompt : String) (lines : List String) (actions : List Action)
    (sink : Sink) :
    let p := Progress.after { sink } (turns prompt 1 lines ++ actions)
    p.sink.stored = sink.stored ++ (told prompt lines ++ written actions).toUTF8 ∧
      p.sink.flushed.size = sink.flushed.size + (lines.length + actions.count .flush) ∧
      p.log.toList.map Event.logEntry = account 1 lines ++ entries actions := by
  intro p
  refine ⟨?_, ?_, ?_⟩
  · rw [← written_turns_eq_told prompt 1, ← written_append]
    rfl
  · rw [Progress.size_flushed_after, List.count_append, count_flush_turns]
  · rw [← entries_turns prompt, ← entries_append, Progress.log_after]
    rfl

/-- The session ends in one of these ways, and its log is what it has reported of the lines that it
has answered and behind them. -/
def HasEnded (prompt : String) (sink : Sink) (input : LineInput) (run : Run Unit) : Prop :=
  ∃ lines stored flushes behind,
    Ended prompt sink input lines stored flushes behind run.result ∧
      run.progress.sink.stored = sink.stored ++ stored ∧
      run.progress.sink.flushed.size = sink.flushed.size + flushes ∧
      run.progress.log.toList.map Event.logEntry = account 1 lines ++ behind

private theorem hasEnded_of_done (prompt : String) (r : Reader) (sink : Sink) :
    HasEnded prompt sink r.lines
      ⟨Progress.after { sink } (lineByLine prompt r).actions, (lineByLine prompt r).result⟩ := by
  rw [lineByLine_actions, List.append_assoc, (lineByLine_eq prompt r).2]
  cases hf : r.lines.fault? with
  | none =>
    obtain ⟨hstored, hflushed, hlog⟩ :=
      after_turns prompt r.lines.lines (ask prompt ++ close r.lines.lines.length) sink
    have hclose : written (ask prompt ++ close r.lines.lines.length) = prompt := by
      rw [written_append, written_ask]
      exact String.append_empty
    rw [hclose] at hstored
    exact ⟨r.lines.lines, _, _, _, .closed (by rw [← hf]), hstored, hflushed, hlog⟩
  | some f =>
    obtain ⟨hstored, hflushed, hlog⟩ :=
      after_turns prompt r.lines.lines (ask prompt ++ []) sink
    rw [List.append_nil, written_ask] at hstored
    exact ⟨r.lines.lines, _, _, _, .noLine (by rw [← hf]), hstored, hflushed, hlog⟩

private theorem hasEnded_of_fails {prompt : String} {sink : Sink} {input : LineInput}
    {before : List String} {done : List Action} {action : Action}
    (hbefore : before <+: input.lines) (hup : UpNext prompt 1 input.lines before done action)
    {f : Fault} {q : Progress} (hfails : Fails (Progress.after { sink } done) action f q) :
    HasEnded prompt sink input ⟨q, .error (.output f)⟩ := by
  cases hup with
  | writePrompt done_eq action_eq =>
    obtain ⟨hstored, hflushed, hlog⟩ := after_turns prompt before [] sink
    rw [List.append_nil, ← done_eq] at hstored hflushed hlog
    rw [action_eq] at hfails
    cases hfails with
    | @write _ n part =>
      have hnone : told prompt before ++ written [] = told prompt before := String.append_empty
      rw [hnone] at hstored
      refine ⟨before, _, _, _, .noPrompt hbefore part, ?_, hflushed, hlog⟩
      rw [← ByteArray.append_assoc, ← hstored]
      rfl
  | flushPrompt done_eq action_eq =>
    obtain ⟨hstored, hflushed, hlog⟩ := after_turns prompt before [.write prompt] sink
    rw [← done_eq] at hstored hflushed hlog
    rw [action_eq] at hfails
    cases hfails with
    | flush last =>
      have hprompt : written [.write prompt] = prompt := by simp [written, text]
      rw [hprompt] at hstored
      rw [hflushed] at last
      exact ⟨before, _, _, _, .noFlush hbefore last, hstored, hflushed, hlog⟩
  | @writeToken line behind ts us t lines_eq tokens_eq done_eq action_eq =>
    obtain ⟨hstored, hflushed, hlog⟩ := after_turns prompt before (ask prompt ++ tellUpTo ts t) sink
    rw [← done_eq] at hstored hflushed hlog
    rw [action_eq] at hfails
    cases hfails with
    | @write _ n part =>
      have hcount : (ask prompt ++ tellUpTo ts t).count .flush = 1 := by
        rw [List.count_append, tellUpTo, List.count_append, count_flush_tell]
        rfl
      have hentries : entries (ask prompt ++ tellUpTo ts t) = (ts ++ [t]).map .ofToken := by
        rw [entries_append, entries_tellUpTo]
        rfl
      rw [written_append, written_ask, written_tellUpTo, ← String.append_assoc] at hstored
      rw [hcount] at hflushed
      rw [hentries] at hlog
      refine ⟨before, _, _, _, .noToken lines_eq tokens_eq part, ?_, hflushed, hlog⟩
      change _ = sink.stored ++ ((told prompt before ++ prompt ++ renderLines ts).toUTF8 ++ _)
      rw [← ByteArray.append_assoc, ← hstored]
      rfl

private theorem hasEnded_lineByLine (prompt : String) (r : Reader) (sink : Sink) :
    HasEnded prompt sink r.lines ((lineByLine prompt r).carryOut sink) := by
  rcases (lineByLine prompt r).carryOut_cases sink with
    h | ⟨done, action, rest, f, q, hsplit, h, hfails⟩
  · rw [h]
    exact hasEnded_of_done prompt r sink
  · rw [h]
    rw [lineByLine_actions, List.append_assoc] at hsplit
    have hreport : action.event? = none := by cases hfails <;> rfl
    obtain ⟨before, hbefore, hup⟩ := exists_upNext hsplit hreport (by
      cases r.lines.fault? <;> simp [close, event?])
    exact hasEnded_of_fails hbefore hup hfails

/-! ### Counting tokens -/

private theorem count_feed_renderLines {ts : List Token} (h : ∀ t ∈ ts, '\n' ∉ t.literal.toList) :
    (renderLines ts).toList.count '\n' = ts.length := by
  induction ts with
  | nil => rfl
  | cons t ts ih =>
    obtain ⟨ht, hts⟩ := List.forall_mem_cons.mp h
    have hnone := List.count_eq_zero.mpr (Token.feed_notMem_render ht)
    rw [renderLines, List.map_cons, String.join_cons, String.toList_append, List.count_append,
      ← renderLines, ih hts, Token.renderLine, String.toList_append, List.count_append, hnone,
      List.length_cons]
    change 0 + 1 + ts.length = _
    omega

private theorem count_feed_told (prompt : String) (lines : List String) :
    (told prompt lines).toList.count '\n' =
      (lines.map fun line ↦ (tokenize line).dropLast.length).sum +
        lines.length * prompt.toList.count '\n' := by
  induction lines with
  | nil => simp [told]
  | cons line lines ih =>
    have hline : (renderLines (tokenize line).dropLast).toList.count '\n' =
        (tokenize line).dropLast.length := by
      rw [dropLast_tokenize]
      exact count_feed_renderLines (View.feed_notMem_literal _)
    have htold : told prompt (line :: lines) =
        prompt ++ renderLines (tokenize line).dropLast ++ told prompt lines := by
      rw [told, List.map_cons, String.join_cons, told]
    rw [htold, String.toList_append, String.toList_append, List.count_append, List.count_append,
      hline, ih, List.map_cons, List.sum_cons, List.length_cons, Nat.succ_mul]
    omega

private theorem number?_account (number : Nat) (lines : List String) :
    (account number lines).filterMap (LogEntry.number? "tokens") =
      lines.map fun line ↦ (tokenize line).dropLast.length := by
  induction lines generalizing number with
  | nil => rfl
  | cons line lines ih =>
    have htokens : ((tokenize line).map LogEntry.ofToken).filterMap
        (LogEntry.number? "tokens") = [] := by
      rw [List.filterMap_map, List.filterMap_eq_nil_iff]
      intro t _
      rfl
    rw [account_cons, List.filterMap_append, ih, lineEntries, List.filterMap_append, htokens,
      List.map_cons]
    rfl

private theorem message_ne_of_mem_account {number : Nat} {lines : List String} {e : LogEntry}
    (h : e ∈ account number lines) : e.message ≠ "input closed" := by
  obtain ⟨turn, -, hturn⟩ := List.mem_flatMap.mp h
  rcases List.mem_append.mp hturn with ht | hline
  · obtain ⟨t, -, rfl⟩ := List.mem_map.mp ht
    exact LogEntry.message_ofToken_ne t
  · rw [List.mem_singleton.mp hline]
    change "lexed line" ≠ "input closed"
    decide

private theorem Ended.mem_iff {prompt : String} {sink : Sink} {input : LineInput}
    {lines : List String} {stored : ByteArray} {flushes : Nat} {behind : List LogEntry}
    {result : Except SessionFailure Unit}
    (h : Ended prompt sink input lines stored flushes behind result) (e : LogEntry) :
    e ∈ behind ∧ e.message = "input closed" ↔
      result = .ok () ∧ e = .ofEnd input.lines.length := by
  cases h with
  | closed input_eq =>
    rw [List.mem_singleton, input_eq]
    constructor
    · rintro ⟨rfl, -⟩
      exact ⟨rfl, rfl⟩
    · rintro ⟨-, rfl⟩
      exact ⟨rfl, rfl⟩
  | noLine | noPrompt | noFlush => simp
  | @noToken line rest ts us t =>
    constructor
    · rintro ⟨hmem, hclosed⟩
      obtain ⟨u, -, rfl⟩ := List.mem_map.mp hmem
      exact absurd hclosed (LogEntry.message_ofToken_ne u)
    · rintro ⟨hok, -⟩
      cases hok

private theorem Ended.count_feed {prompt : String} {sink : Sink} {input : LineInput}
    {lines : List String} {stored : ByteArray} {flushes : Nat} {behind : List LogEntry}
    (h : Ended prompt sink input lines stored flushes behind (.ok ())) :
    ∃ text : String, stored = text.toUTF8 ∧ text.toList.count '\n' =
      ((account 1 lines ++ behind).filterMap (LogEntry.number? "tokens")).sum +
        (input.lines.length + 1) * prompt.toList.count '\n' := by
  cases h with
  | closed input_eq =>
    have hend : [LogEntry.ofEnd lines.length].filterMap (LogEntry.number? "tokens") = [] := rfl
    refine ⟨told prompt lines ++ prompt, rfl, ?_⟩
    rw [String.toList_append, List.count_append, count_feed_told, List.filterMap_append,
      number?_account, hend, List.append_nil, input_eq, Nat.succ_mul, Nat.add_assoc]

/-- A reader has one way to be cut into lines. The log of a session that reads line by line, on any
sink, is an exact account of its run on these lines. It has an entry for each token of each line
that is answered, the mark at its end included, and one for the line, with its number and the number
of tokens that were written for it. Behind these it tells how the session has ended (`Ended`): where
a token cannot be written, that token is the last one that was read. That the input was closed is
told if the session ends well, and only then; the numbers of tokens then add up to the lines of
tokens in the output, each of which ends with a line feed. -/
theorem lineByLine_log (prompt : String) (r : Reader) (sink : Sink) :
    ∃ input : LineInput, (∀ other, HasLines r.answers other ↔ other = input) ∧
      let run := (lineByLine prompt r).carryOut sink
      let log := run.progress.log.toList.map Event.logEntry
      HasEnded prompt sink input run ∧
      (∀ e, e ∈ log ∧ e.message = "input closed" ↔
        run.result = .ok () ∧ e = .ofEnd input.lines.length) ∧
      (run.result = .ok () → ∃ text : String,
        run.progress.sink.stored = sink.stored ++ text.toUTF8 ∧
        text.toList.count '\n' = (log.filterMap (LogEntry.number? "tokens")).sum +
          (input.lines.length + 1) * prompt.toList.count '\n') := by
  refine ⟨r.lines, fun _ ↦ r.hasLines_iff.trans eq_comm, ?_⟩
  intro run log
  have hrun : HasEnded prompt sink r.lines run := hasEnded_lineByLine prompt r sink
  have ⟨lines, stored, flushes, behind, hended, hstored, _, hlog⟩ := hrun
  change log = account 1 lines ++ behind at hlog
  refine ⟨hrun, ?_, ?_⟩
  · intro e
    rw [← hended.mem_iff, hlog, List.mem_append, or_and_right, or_iff_right]
    rintro ⟨hmem, hclosed⟩
    exact message_ne_of_mem_account hmem hclosed
  · intro hok
    rw [hok] at hended
    obtain ⟨text, htext, hcount⟩ := hended.count_feed
    rw [htext] at hstored
    rw [← hlog] at hcount
    exact ⟨text, hstored, hcount⟩

end Session
end MonkeyTokens
