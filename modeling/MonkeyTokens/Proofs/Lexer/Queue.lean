import MonkeyTokens.Proofs.Lexer.Ledger

/-!
# A lexer as a queue of tokens

Tokens can be taken from a lexer one by one or as a sequence, and the two ways can be mixed. The
calls are answered as a queue answers them that holds the tokens of the text at first
(`TokenQueue`): what a call takes comes off the front, and is reported once. A step lemma for each
call shows that a lexer and its queue go on side by side (`Lexer.Follows`), so that they do over
any number of calls (`callAll_ofText`).
-/

namespace MonkeyTokens

/-- A way to ask for tokens. -/
inductive TokenCall where
  | nextToken
  | next
  | take (n : Nat)
  | nth (n : Nat)
  | collect
  | count
  deriving DecidableEq, Repr

/-- What is answered to a call. -/
inductive TokenReply where
  | token (t : Token)
  | token? (t? : Option Token)
  | tokens (ts : List Token)
  | count (n : Nat)
  deriving DecidableEq, Repr

/-- The replies to one call after the other, and what they lead to. -/
def TokenCall.performAll {α : Type} (perform : TokenCall → α → TokenReply × α) :
    List TokenCall → α → List TokenReply × α
  | [], x => ([], x)
  | call :: calls, x =>
    let (reply, y) := perform call x
    let (replies, z) := performAll perform calls y
    (reply :: replies, z)

private theorem TokenCall.performAll_of_step {α β : Type} {f : TokenCall → α → TokenReply × α}
    {g : TokenCall → β → TokenReply × β} {R : α → β → Prop}
    (step : ∀ call x y, R x y → (f call x).1 = (g call y).1 ∧ R (f call x).2 (g call y).2)
    (calls : List TokenCall) {x : α} {y : β} (h : R x y) :
    (performAll f calls x).1 = (performAll g calls y).1 ∧
      R (performAll f calls x).2 (performAll g calls y).2 := by
  induction calls generalizing x y with
  | nil => exact ⟨rfl, h⟩
  | cons call calls ih =>
    obtain ⟨hreply, hnext⟩ := step call x y h
    obtain ⟨hreplies, hlast⟩ := ih hnext
    constructor
    · change _ :: _ = _ :: _
      rw [hreply, hreplies]
    · exact hlast

/-! ### Queues -/

/-- The tokens of a text that are left, in order, and those that were reported. -/
structure TokenQueue where
  waiting : List Token
  /-- The token at the end of the text, which is there however often it is asked for. -/
  mark : Token
  /-- Whether the sequence of tokens has come to the empty queue. -/
  stopped : Bool := false
  reported : List Token := []
  deriving DecidableEq, Repr

private theorem tokenize_ne_nil (text : String) : tokenize text ≠ [] := by
  rw [tokenize_eq]
  exact List.concat_ne_nil _ _

namespace TokenQueue

/-- The tokens of a text; the one at the end does not wait. -/
def ofText (text : String) : TokenQueue where
  waiting := (tokenize text).dropLast
  mark := (tokenize text).getLast (tokenize_ne_nil text)

private theorem ofText_eq (text : String) :
    (ofText text).waiting = (View.ofChars text.toList).tokens ∧
      (ofText text).mark = .endAt (View.ofChars text.toList).last.position := by
  constructor
  · exact dropLast_tokenize text
  · simp only [ofText, tokenize_eq, List.getLast_concat]

/-- Come to the empty queue in the sequence: only the first time the mark is reported. -/
def stop (q : TokenQueue) : TokenQueue :=
  if q.stopped then q else { q with stopped := true, reported := q.reported ++ [q.mark] }

/-- Take so many tokens off the front in the sequence, or all of them and meet the end. -/
def pop (n : Nat) (q : TokenQueue) : TokenQueue :=
  let rest := { q with
    waiting := q.waiting.drop n
    reported := q.reported ++ q.waiting.take n }
  if q.waiting.length < n then rest.stop else rest

/-- Take one token, the mark if there is no other. -/
def nextToken (q : TokenQueue) : Token × TokenQueue :=
  match q.waiting with
  | [] => (q.mark, { q with reported := q.reported ++ [q.mark] })
  | t :: ts => (t, { q with waiting := ts, reported := q.reported ++ [t] })

/-- Answer a call. -/
def call : TokenCall → TokenQueue → TokenReply × TokenQueue
  | .nextToken, q => q.nextToken.map .token id
  | .next, q => (.token? q.waiting.head?, q.pop 1)
  | .take n, q => (.tokens (q.waiting.take n), q.pop n)
  | .nth n, q => (.token? q.waiting[n]?, q.pop (n + 1))
  | .collect, q => (.tokens q.waiting, q.pop (q.waiting.length + 1))
  | .count, q => (.count q.waiting.length, q.pop (q.waiting.length + 1))

/-- Answer one call after the other. -/
def callAll (calls : List TokenCall) (q : TokenQueue) : List TokenReply × TokenQueue :=
  TokenCall.performAll call calls q

/-- Taking no token changes nothing. -/
@[simp] theorem pop_zero (q : TokenQueue) : q.pop 0 = q := by simp [pop]

private theorem pop_of_nil {q : TokenQueue} (h : q.waiting = []) (n : Nat) :
    q.pop (n + 1) = q.stop := by
  obtain ⟨waiting, mark, stopped, reported⟩ := q
  obtain rfl : waiting = [] := h
  simp [pop]

private theorem pop_of_cons {q : TokenQueue} {t : Token} {ts : List Token} (h : q.waiting = t :: ts)
    (n : Nat) :
    q.pop (n + 1) = pop n { q with waiting := ts, reported := q.reported ++ [t] } := by
  simp [pop, h]

private theorem pop_all (q : TokenQueue) (h : ¬ q.stopped = true) :
    q.pop (q.waiting.length + 1) =
      { q with
        waiting := []
        stopped := true
        reported := q.reported ++ (q.waiting ++ [q.mark]) } := by
  have ht : q.waiting.take (q.waiting.length + 1) = q.waiting :=
    List.take_of_length_le (Nat.le_succ _)
  simp [pop, stop, h, ht]

private theorem nextToken_of_nil {q : TokenQueue} (h : q.waiting = []) :
    q.nextToken = (q.mark, { q with reported := q.reported ++ [q.mark] }) := by
  rw [nextToken, h]

private theorem nextToken_of_cons {q : TokenQueue} {t : Token} {ts : List Token}
    (h : q.waiting = t :: ts) :
    q.nextToken = (t, { q with waiting := ts, reported := q.reported ++ [t] }) := by
  rw [nextToken, h]

private theorem stop_of_stopped {q : TokenQueue} (h : q.stopped = true) : q.stop = q := if_pos h

/-- All tokens but the mark in order: those that were reported, and those that are left. -/
def inOrder (q : TokenQueue) : List Token := q.reported.filter (fun t ↦ !t.isEnd) ++ q.waiting

/-- The mark is one of an end, with nothing in it, and no token that waits is one. -/
structure Marked (q : TokenQueue) : Prop where
  waiting : ∀ t ∈ q.waiting, t.isEnd = false
  mark : ∃ p, q.mark = .endAt p

private theorem marked_ofText (text : String) : (ofText text).Marked := by
  obtain ⟨hwaiting, hmark⟩ := ofText_eq text
  constructor
  · rw [hwaiting]
    exact View.isEnd_of_mem_tokens _
  · exact ⟨_, hmark⟩

private theorem inOrder_report {q : TokenQueue} (h : q.Marked) :
    inOrder { q with reported := q.reported ++ [q.mark] } = q.inOrder := by
  obtain ⟨p, hp⟩ := h.mark
  have hend : q.mark.isEnd = true := by
    rw [hp]
    rfl
  simp [inOrder, hend]

private theorem inOrder_stop {q : TokenQueue} (h : q.Marked) :
    q.stop.Marked ∧ q.stop.inOrder = q.inOrder := by
  unfold stop
  split
  · exact ⟨h, rfl⟩
  · exact ⟨⟨h.waiting, h.mark⟩, inOrder_report h⟩

private theorem inOrder_pop {q : TokenQueue} (h : q.Marked) (n : Nat) :
    (q.pop n).Marked ∧ (q.pop n).inOrder = q.inOrder := by
  have hkeep : (q.waiting.take n).filter (fun t ↦ !t.isEnd) = q.waiting.take n := by
    rw [List.filter_eq_self]
    intro t ht
    rw [h.waiting t (List.mem_of_mem_take ht)]
    rfl
  have hrest : Marked { q with
      waiting := q.waiting.drop n, reported := q.reported ++ q.waiting.take n } :=
    ⟨fun t ht ↦ h.waiting t (List.mem_of_mem_drop ht), h.mark⟩
  have horder : inOrder { q with
      waiting := q.waiting.drop n, reported := q.reported ++ q.waiting.take n } = q.inOrder := by
    rw [inOrder, inOrder, List.filter_append, hkeep, List.append_assoc, List.take_append_drop]
  unfold pop
  split
  · have hstop := inOrder_stop hrest
    exact ⟨hstop.1, hstop.2.trans horder⟩
  · exact ⟨hrest, horder⟩

private theorem inOrder_nextToken {q : TokenQueue} (h : q.Marked) :
    q.nextToken.2.Marked ∧ q.nextToken.2.inOrder = q.inOrder := by
  unfold nextToken
  split
  · exact ⟨⟨h.waiting, h.mark⟩, inOrder_report h⟩
  · next t ts hw =>
    have hpop := inOrder_pop h 1
    rwa [pop_of_cons hw, pop_zero] at hpop

private theorem inOrder_call {q : TokenQueue} (h : q.Marked) (call : TokenCall) :
    (q.call call).2.Marked ∧ (q.call call).2.inOrder = q.inOrder := by
  cases call with
  | nextToken => exact inOrder_nextToken h
  | next => exact inOrder_pop h 1
  | take n => exact inOrder_pop h n
  | nth n => exact inOrder_pop h (n + 1)
  | collect | count => exact inOrder_pop h (q.waiting.length + 1)

private theorem inOrder_callAll {q : TokenQueue} (h : q.Marked) (calls : List TokenCall) :
    (q.callAll calls).2.Marked ∧ (q.callAll calls).2.inOrder = q.inOrder := by
  induction calls generalizing q with
  | nil => exact ⟨h, rfl⟩
  | cons call calls ih =>
    obtain ⟨hmarked, horder⟩ := inOrder_call h call
    obtain ⟨hlast, hrest⟩ := ih hmarked
    exact ⟨hlast, hrest.trans horder⟩

private theorem waiting_stop (q : TokenQueue) : q.stop.waiting = q.waiting := by
  unfold stop
  split <;> rfl

private theorem waiting_pop (n : Nat) (q : TokenQueue) :
    (q.pop n).waiting = q.waiting.drop n := by
  unfold pop
  split
  · rw [waiting_stop]
  · rfl

private theorem waiting_call_suffix (q : TokenQueue) (call : TokenCall) :
    (q.call call).2.waiting <:+ q.waiting := by
  have hpop (n : Nat) : (q.pop n).waiting <:+ q.waiting := by
    rw [waiting_pop]
    exact List.drop_suffix n q.waiting
  cases call with
  | nextToken =>
    change q.nextToken.2.waiting <:+ q.waiting
    cases hw : q.waiting with
    | nil =>
      rw [nextToken_of_nil hw]
      exact List.suffix_nil.mpr hw
    | cons t ts =>
      rw [nextToken_of_cons hw]
      exact List.suffix_cons t ts
  | next => exact hpop 1
  | take n => exact hpop n
  | nth n => exact hpop (n + 1)
  | collect | count => exact hpop (q.waiting.length + 1)

private theorem waiting_callAll_suffix (q : TokenQueue) (calls : List TokenCall) :
    (q.callAll calls).2.waiting <:+ q.waiting := by
  induction calls generalizing q with
  | nil => exact List.suffix_refl _
  | cons call calls ih => exact (ih _).trans (q.waiting_call_suffix call)

end TokenQueue

/-! ### Lexers -/

namespace View

/-- Behind the last character is behind the last character. -/
theorem last_last (v : View) : v.last.last = v.last := last_skip _ v

private theorem tokens_last (v : View) : v.last.tokens = [] := by
  apply tokens_of_blank
  rw [chars_skipBlanks, last, chars_skip, List.drop_length, List.dropWhile_nil]

/-- A token does not change where the text ends. -/
theorem last_behind (v : View) : v.skipBlanks.behind.last = v.last := by
  rw [behind, last_skip, skipBlanks, last_skip]

/-- Behind the mark at the end there is nothing left. -/
theorem behind_of_blank {v : View} (h : v.skipBlanks.chars = []) :
    v.skipBlanks.behind = v.last := by
  have hb : v.skipBlanks.behind.chars = [] := by rw [behind, chars_skip, h, List.drop_nil]
  calc v.skipBlanks.behind
    _ = v.skipBlanks.behind.last := by rw [last, hb]; rfl
    _ = v.last := last_behind v

/-- Behind the mark at the end there is no token. -/
theorem tokens_behind_of_blank {v : View} (h : v.skipBlanks.chars = []) :
    v.skipBlanks.behind.tokens = [] := by
  rw [behind_of_blank h, tokens_last]

end View

namespace Lexer

open Text

variable {σ : Type} [CharSource σ]

/-- Answer a call. -/
def call : TokenCall → Lexer σ → TokenReply × Lexer σ
  | .nextToken, l => l.nextToken.map .token id
  | .next, l => l.next?.map .token? id
  | .take n, l => (l.take n).map .tokens id
  | .nth n, l => (l.nth? n).map .token? id
  | .collect, l => l.collect.map .tokens id
  | .count, l => l.count.map .count id

/-- Answer one call after the other. -/
def callAll (calls : List TokenCall) (l : Lexer σ) : List TokenReply × Lexer σ :=
  TokenCall.performAll call calls l

private theorem finished_takeRun (p : Char → Bool) (l : Lexer σ) :
    (l.takeRun p).2.finished = l.finished := by
  fun_induction takeRun p l with
  | case1 | case3 => rfl
  | case2 l c hc hp run m hr ih =>
    rw [hr] at ih
    exact ih

private theorem finished_scan (l : Lexer σ) : l.scan.2.finished = l.finished := by
  unfold scan
  split
  · rfl
  · split
    · exact finished_takeRun isLetter l
    · split
      · have hwhole := finished_takeRun isDigit l
        unfold scanNumber
        simp only
        split
        · exact (finished_takeRun isDigit _).trans hwhole
        · exact hwhole
      · unfold scanSymbol
        split
        · rfl
        · simp only
          split <;> rfl

private theorem finished_nextToken (l : Lexer σ) : l.nextToken.2.finished = l.finished :=
  (finished_scan _).trans (finished_takeRun isBlank l)

private theorem view_drain (l : Lexer σ) : l.drain.2.2.view = l.view.last := by
  fun_induction drain l with
  | case1 l next h =>
    have hn := (isEnd_nextToken_iff l).mp h
    exact (view_nextToken l).2.trans (View.behind_of_blank hn)
  | case2 l next h ts last m hd ih =>
    have hnext : next.2.view = l.view.skipBlanks.behind := (view_nextToken l).2
    rw [hd] at ih
    rw [ih, hnext, View.last_behind]

/-- From a ledger on, a lexer came to where it has just the tokens of a queue before it, and has
reported those that the queue reported. -/
structure Follows (start : Ledger σ) (l : Lexer σ) (q : TokenQueue) : Prop where
  waiting : q.waiting = l.view.tokens
  mark : q.mark = .endAt l.view.last.position
  stopped : q.stopped = l.finished
  /-- The sequence stops only where there are no tokens left. -/
  empty : q.stopped = true → q.waiting = []
  reads : Ledger.Reads start q.reported l.ledger

namespace Follows

variable {start : Ledger σ} {l : Lexer σ} {q : TokenQueue}

private theorem isEnd_iff (h : Follows start l q) :
    l.nextToken.1.isEnd = true ↔ q.waiting = [] := by
  rw [isEnd_nextToken_iff, h.waiting]
  constructor
  · exact View.tokens_of_blank
  · intro hn
    by_cases hb : l.view.skipBlanks.chars = []
    · exact hb
    · rw [View.tokens_of_token hb] at hn
      cases hn

private theorem nextToken (h : Follows start l q) :
    l.nextToken.1 = q.nextToken.1 ∧ Follows start l.nextToken.2 q.nextToken.2 := by
  obtain ⟨ht, hv⟩ := view_nextToken l
  have hlast : l.nextToken.2.view.last = l.view.last := by rw [hv, View.last_behind]
  have hreads := h.reads.trans l.reads_nextToken
  by_cases hb : l.view.skipBlanks.chars = []
  · have hw : q.waiting = [] := by rw [h.waiting, View.tokens_of_blank hb]
    have hmark : l.nextToken.1 = q.mark := by rw [ht, View.token_of_blank hb, h.mark]
    rw [hmark] at hreads
    rw [TokenQueue.nextToken_of_nil hw]
    refine ⟨hmark, ?_, ?_, ?_, h.empty, hreads⟩
    · rw [hw, hv, View.tokens_behind_of_blank hb]
    · rw [h.mark, hlast]
    · rw [h.stopped, finished_nextToken]
  · have hw : q.waiting = l.nextToken.1 :: l.nextToken.2.view.tokens := by
      rw [h.waiting, View.tokens_of_token hb, ht, hv]
    rw [TokenQueue.nextToken_of_cons hw]
    refine ⟨rfl, rfl, ?_, ?_, ?_, hreads⟩
    · rw [h.mark, hlast]
    · rw [h.stopped, finished_nextToken]
    · intro hs
      rw [h.empty hs] at hw
      cases hw

private theorem next?_of_nil (h : Follows start l q) (hw : q.waiting = []) :
    ∃ m, l.next? = (none, m) ∧ Follows start m q.stop := by
  unfold Lexer.next?
  by_cases hs : q.stopped = true
  · rw [if_pos (h.stopped ▸ hs), TokenQueue.stop_of_stopped hs]
    exact ⟨l, rfl, h⟩
  · have hf : ¬ l.finished = true := h.stopped ▸ hs
    have hnext := h.nextToken.2
    rw [TokenQueue.nextToken_of_nil hw] at hnext
    simp only [if_neg hf, h.isEnd_iff.mpr hw, if_true]
    rw [TokenQueue.stop, if_neg hs]
    exact ⟨_, rfl, hnext.waiting, hnext.mark, rfl, fun _ ↦ hw, hnext.reads⟩

private theorem next?_of_cons (h : Follows start l q) {t : Token} {ts : List Token}
    (hw : q.waiting = t :: ts) :
    ∃ m, l.next? = (some t, m) ∧
      Follows start m { q with waiting := ts, reported := q.reported ++ [t] } := by
  have hne : q.waiting ≠ [] := by simp [hw]
  have hf : ¬ l.finished = true := h.stopped ▸ mt h.empty hne
  have he : ¬ l.nextToken.1.isEnd = true := mt h.isEnd_iff.mp hne
  obtain ⟨htoken, hnext⟩ := h.nextToken
  rw [TokenQueue.nextToken_of_cons hw] at htoken hnext
  refine ⟨l.nextToken.2, ?_, hnext⟩
  simp only [Lexer.next?, if_neg hf]
  rw [if_neg he, htoken]

private theorem next? (h : Follows start l q) :
    l.next?.1 = q.waiting.head? ∧ Follows start l.next?.2 (q.pop 1) := by
  cases hw : q.waiting with
  | nil =>
    obtain ⟨m, hm, hnext⟩ := h.next?_of_nil hw
    rw [hm, TokenQueue.pop_of_nil hw]
    exact ⟨rfl, hnext⟩
  | cons t ts =>
    obtain ⟨m, hm, hnext⟩ := h.next?_of_cons hw
    rw [hm, TokenQueue.pop_of_cons hw, TokenQueue.pop_zero]
    exact ⟨rfl, hnext⟩

private theorem take (h : Follows start l q) (n : Nat) :
    (l.take n).1 = q.waiting.take n ∧ Follows start (l.take n).2 (q.pop n) := by
  induction n generalizing l q with
  | zero =>
    rw [TokenQueue.pop_zero, List.take_zero]
    exact ⟨rfl, h⟩
  | succ n ih =>
    cases hw : q.waiting with
    | nil =>
      obtain ⟨m, hm, hnext⟩ := h.next?_of_nil hw
      simp only [Lexer.take, hm, TokenQueue.pop_of_nil hw, List.take_nil]
      exact ⟨trivial, hnext⟩
    | cons t ts =>
      obtain ⟨m, hm, hnext⟩ := h.next?_of_cons hw
      obtain ⟨hts, hrest⟩ := ih hnext
      simp only [Lexer.take, hm, TokenQueue.pop_of_cons hw, List.take_succ_cons, hts]
      exact ⟨trivial, hrest⟩

private theorem nth? (h : Follows start l q) (n : Nat) :
    (l.nth? n).1 = q.waiting[n]? ∧ Follows start (l.nth? n).2 (q.pop (n + 1)) := by
  induction n generalizing l q with
  | zero =>
    rw [← List.head?_eq_getElem?]
    exact h.next?
  | succ n ih =>
    cases hw : q.waiting with
    | nil =>
      obtain ⟨m, hm, hnext⟩ := h.next?_of_nil hw
      simp only [Lexer.nth?, hm, TokenQueue.pop_of_nil hw, List.getElem?_nil]
      exact ⟨trivial, hnext⟩
    | cons t ts =>
      obtain ⟨m, hm, hnext⟩ := h.next?_of_cons hw
      simp only [Lexer.nth?, hm, TokenQueue.pop_of_cons hw, List.getElem?_cons_succ]
      exact ih hnext

private theorem collect (h : Follows start l q) :
    l.collect.1 = q.waiting ∧ Follows start l.collect.2 (q.pop (q.waiting.length + 1)) := by
  unfold Lexer.collect
  by_cases hs : q.stopped = true
  · rw [if_pos (h.stopped ▸ hs), TokenQueue.pop_of_nil (h.empty hs), h.empty hs,
      TokenQueue.stop_of_stopped hs]
    exact ⟨rfl, h⟩
  · have hf : ¬ l.finished = true := h.stopped ▸ hs
    obtain ⟨htokens, hmark⟩ := l.drain_eq
    have hreads := h.reads.trans l.reads_drain
    rw [htokens, hmark, ← h.waiting, ← h.mark] at hreads
    rw [if_neg hf, q.pop_all hs]
    refine ⟨htokens.trans h.waiting.symm, ?_, ?_, rfl, fun _ ↦ rfl, hreads⟩
    · change [] = l.drain.2.2.view.tokens
      rw [view_drain, View.tokens_last]
    · change q.mark = .endAt l.drain.2.2.view.last.position
      rw [view_drain, View.last_last, h.mark]

private theorem call (h : Follows start l q) (call : TokenCall) :
    (l.call call).1 = (q.call call).1 ∧ Follows start (l.call call).2 (q.call call).2 := by
  cases call with
  | nextToken =>
    obtain ⟨hreply, hnext⟩ := h.nextToken
    exact ⟨congrArg TokenReply.token hreply, hnext⟩
  | next =>
    obtain ⟨hreply, hnext⟩ := h.next?
    exact ⟨congrArg TokenReply.token? hreply, hnext⟩
  | take n =>
    obtain ⟨hreply, hnext⟩ := h.take n
    exact ⟨congrArg TokenReply.tokens hreply, hnext⟩
  | nth n =>
    obtain ⟨hreply, hnext⟩ := h.nth? n
    exact ⟨congrArg TokenReply.token? hreply, hnext⟩
  | collect =>
    obtain ⟨hreply, hnext⟩ := h.collect
    exact ⟨congrArg TokenReply.tokens hreply, hnext⟩
  | count =>
    obtain ⟨hreply, hnext⟩ := h.collect
    exact ⟨congrArg (fun ts : List Token ↦ TokenReply.count ts.length) hreply, hnext⟩

/-- So are any number of calls. -/
theorem callAll (h : Follows start l q) (calls : List TokenCall) :
    (l.callAll calls).1 = (q.callAll calls).1 ∧
      Follows start (l.callAll calls).2 (q.callAll calls).2 := by
  have step (c : TokenCall) (m : Lexer σ) (p : TokenQueue) (hp : Follows start m p) :
      (m.call c).1 = (p.call c).1 ∧ Follows start (m.call c).2 (p.call c).2 := hp.call c
  exact TokenCall.performAll_of_step step calls h

end Follows

/-- A new lexer has the tokens of what its source supplies before it, and reported none. -/
theorem follows_ofEnding {s : σ} {cs : List Char} (h : CharSource.Supplies s cs) :
    Follows (.ofSource s) (ofEnding s ⟨cs, h⟩) (.ofText (String.ofList cs)) := by
  have hv := view_ofEnding h
  obtain ⟨hwaiting, hmark⟩ := TokenQueue.ofText_eq (String.ofList cs)
  rw [String.toList_ofList] at hwaiting hmark
  refine ⟨?_, ?_, rfl, ?_, reads_ofEnding _⟩
  · rw [hv, hwaiting]
  · rw [hv, hmark]
  · intro h
    cases h

/-- A new lexer on a text has the tokens of the text before it. -/
theorem follows_ofText (text : String) :
    Follows (.ofSource (.ofString text)) (ofText text) (.ofText text) := by
  have h := follows_ofEnding (TextSource.supplies text.toList)
  rwa [String.ofList_toList] at h

/-- However the tokens of a text are asked for, single tokens and the sequence mixed, the replies
are those of the queue that holds them at first. The journal holds what the queue reports. No token
is lost, handed out twice or out of order, the mark at the end is never one of the sequence, and
what was taken does not come back. -/
theorem callAll_ofText (text : String) (calls : List TokenCall) :
    let queue := TokenQueue.ofText text
    let left := (queue.callAll calls).2
    ((ofText text).callAll calls).1 = (queue.callAll calls).1 ∧
      ((ofText text).callAll calls).2.journal.toList = left.reported.map .producedToken ∧
      left.inOrder = (tokenize text).dropLast ∧
      left.Marked ∧
      ∀ more, (left.callAll more).2.waiting <:+ left.waiting := by
  intro queue left
  obtain ⟨hreplies, hlast⟩ := (follows_ofText text).callAll calls
  obtain ⟨hmarked, horder⟩ := TokenQueue.inOrder_callAll (TokenQueue.marked_ofText text) calls
  exact ⟨hreplies, hlast.reads.journal_eq TextSource.fault?_pull, horder, hmarked,
    left.waiting_callAll_suffix⟩

end Lexer
end MonkeyTokens
