import MonkeyTokens.Proofs.Lexer.ReadAhead

/-!
# Every token uses up characters

What is counted are the characters that are still to come and are no blanks: those that the cursor
holds, looked at or has not asked for yet. A token takes off just the blanks in front of it and the
characters of its literal, one at least; where it marks the end, it takes all there is
(`Lexer.takes_nextToken`). So there are no more tokens than characters that are no blanks, and in
however many ways they are asked for, the mark at the end comes next at the latest when as many
tokens have been read. Every character that is used up has the source asked for one more, and
nothing else has (`Lexer.nextToken_progress`).
-/

namespace MonkeyTokens

open CharSource Text

/-! ### Characters that are no blanks -/

/-- How many of the characters are no blanks. -/
def Text.solid (cs : List Char) : Nat := cs.countP fun c ↦ !isBlank c

private theorem Text.solid_append (cs ds : List Char) : solid (cs ++ ds) = solid cs + solid ds :=
  List.countP_append

private theorem Text.solid_of_blank {b : List Char} (h : ∀ c ∈ b, isBlank c = true) :
    solid b = 0 := by
  rw [solid, List.countP_eq_zero]
  intro c hc
  simp [h c hc]

private theorem Text.solid_of_no_blank {w : List Char} (h : ∀ c ∈ w, isBlank c = false) :
    solid w = w.length := by
  rw [solid, List.countP_eq_length]
  intro c hc
  simp [h c hc]

private theorem Spells.length_le {ts : List (Kind × String)} {cs : List Char} (h : Spells ts cs) :
    ts.length ≤ solid cs := by
  induction h with
  | done => exact Nat.zero_le _
  | @more b w rest k ts blank lexeme stops behind ih =>
    have hw := List.length_pos_iff.mpr lexeme.ne_nil
    rw [solid_append, solid_append, solid_of_blank (forall_isBlank_iff.mpr blank),
      solid_of_no_blank lexeme.isBlank_eq_false, List.length_cons]
    omega

namespace Lexer

variable {σ : Type} [CharSource σ]

/-! ### One token -/

/-- What a token does to the characters that are to come. -/
inductive Takes (l : Lexer σ) (t : Token) (m : Lexer σ) : Prop where
  /-- Only blanks were left, and all of them are used up. -/
  | mark (isEnd : t.isEnd = true) (literal : t.literal = "")
      (blank : ∀ c ∈ l.upcoming, isBlank c = true) (behind : m.upcoming = [])
  /-- The blanks in front of the token are used up, and the characters of its literal. -/
  | token (isEnd : t.isEnd = false) (literal : t.literal ≠ "")
      (solid : ∀ c ∈ t.literal.toList, isBlank c = false) (blanks : List Char)
      (blank : ∀ c ∈ blanks, isBlank c = true)
      (upcoming : l.upcoming = blanks ++ t.literal.toList ++ m.upcoming)

/-- Every token takes what it should. -/
theorem takes_nextToken (l : Lexer σ) : Takes l l.nextToken.1 l.nextToken.2 := by
  obtain ⟨ht, hv⟩ := l.view_nextToken
  have hbehind : l.nextToken.2.upcoming = l.view.skipBlanks.behind.chars := congrArg View.chars hv
  by_cases hb : l.view.skipBlanks.chars = []
  · have hlast := congrArg View.chars (View.behind_of_blank hb)
    rw [View.last, View.chars_skip, List.drop_length] at hlast
    rw [View.token_of_blank hb] at ht
    rw [View.chars_skipBlanks] at hb
    exact .mark (by rw [ht]; rfl) (by rw [ht]; rfl) (List.dropWhile_eq_nil_iff.mp hb)
      (hbehind.trans hlast)
  · obtain ⟨b, w, rest, k, hchars, blank, lexeme, stops⟩ := View.exists_isLexeme hb
    have hliteral : l.nextToken.1.literal.toList = w := by
      rw [ht, View.token_of_isLexeme hchars blank lexeme stops, String.toList_ofList]
    have hrest : l.nextToken.2.upcoming = rest := by
      rw [hbehind, View.behind_of_isLexeme hchars blank lexeme stops, View.chars_skip, hchars,
        ← List.length_append, List.drop_left]
    apply Takes.token
    · rw [← Bool.not_eq_true, isEnd_nextToken_iff]
      exact hb
    · intro hempty
      rw [hempty] at hliteral
      exact lexeme.ne_nil hliteral.symm
    · rw [hliteral]
      exact lexeme.isBlank_eq_false
    · exact blank
    · rw [hliteral, hrest]
      exact hchars

namespace Takes

variable {l m : Lexer σ} {t : Token}

private theorem solid_eq (h : Takes l t m) :
    Text.solid l.upcoming = t.literal.length + Text.solid m.upcoming := by
  cases h with
  | mark isEnd literal blank behind =>
    rw [solid_of_blank blank, literal, behind]
    rfl
  | token isEnd literal solid blanks blank upcoming =>
    rw [upcoming, solid_append, solid_append, solid_of_blank blank, solid_of_no_blank solid,
      Nat.zero_add, String.length_toList]

private theorem solid_lt (h : Takes l t m) (ht : t.isEnd = false) :
    Text.solid m.upcoming < Text.solid l.upcoming := by
  have heq := h.solid_eq
  cases h with
  | mark isEnd => simp [isEnd] at ht
  | token isEnd literal =>
    have hpos : t.literal.length ≠ 0 := mt String.length_eq_zero_iff.mp literal
    omega

private theorem solid_eq_zero (h : Takes l t m) (ht : t.isEnd = true) :
    Text.solid m.upcoming = 0 := by
  cases h with
  | mark isEnd literal blank behind =>
    rw [behind]
    rfl
  | token isEnd => simp [isEnd] at ht

private theorem upcoming_suffix (h : Takes l t m) : m.upcoming <:+ l.upcoming := by
  cases h with
  | mark isEnd literal blank behind =>
    rw [behind]
    exact List.nil_suffix
  | token isEnd literal solid blanks blank upcoming =>
    rw [upcoming]
    exact List.suffix_append _ _

end Takes

/-! ### Any number of calls -/

section Keeps

variable {P : Lexer σ → Prop} (token : ∀ l, P l → P l.nextToken.2)
  (stop : ∀ l, P l → P { l with finished := true }) {l : Lexer σ} (h : P l)

include token stop h

private theorem next?_keeps : P l.next?.2 := by
  unfold next?
  split
  · exact h
  · simp only
    split
    · exact stop _ (token l h)
    · exact token l h

private theorem take_keeps (n : Nat) : P (l.take n).2 := by
  induction n generalizing l with
  | zero => exact h
  | succ n ih =>
    have hnext := next?_keeps token stop h
    rw [take]
    generalize l.next? = p at hnext ⊢
    obtain ⟨t?, m⟩ := p
    cases t? with
    | none => exact hnext
    | some t => exact ih hnext

private theorem nth?_keeps (n : Nat) : P (l.nth? n).2 := by
  induction n generalizing l with
  | zero => exact next?_keeps token stop h
  | succ n ih =>
    have hnext := next?_keeps token stop h
    rw [nth?]
    generalize l.next? = p at hnext ⊢
    obtain ⟨t?, m⟩ := p
    cases t? with
    | none => exact hnext
    | some t => exact ih hnext

omit stop in
private theorem drain_keeps : P l.drain.2.2 := by
  fun_induction drain l with
  | case1 l next hend => exact token l h
  | case2 l next hend ts last m hd ih =>
    rw [hd] at ih
    exact ih (token l h)

private theorem collect_keeps : P l.collect.2 := by
  unfold collect
  split
  · exact h
  · exact stop _ (drain_keeps token h)

private theorem callAll_keeps (calls : List TokenCall) : P (l.callAll calls).2 := by
  induction calls generalizing l with
  | nil => exact h
  | cons call calls ih =>
    apply ih
    cases call with
    | nextToken => exact token l h
    | next => exact next?_keeps token stop h
    | take n => exact take_keeps token stop h n
    | nth n => exact nth?_keeps token stop h n
    | collect | count => exact collect_keeps token stop h

end Keeps

/-- Of so many characters that are no blanks, some are left, and the tokens that were read have
taken one each at least, but for those that mark the end. As long as any are left, no token marks
it. -/
structure Spends (n : Nat) (l : Lexer σ) : Prop where
  tokens : l.ledger.reported.countP (fun t ↦ !t.isEnd) + Text.solid l.upcoming ≤ n
  left : 0 < Text.solid l.upcoming → l.ledger.reported.length + Text.solid l.upcoming ≤ n

/-- One more token takes one more, or marks the end. -/
theorem Spends.nextToken {n : Nat} {l : Lexer σ} (h : Spends n l) : Spends n l.nextToken.2 := by
  have htakes := l.takes_nextToken
  have hreported := l.reads_nextToken.reported_eq
  have htokens := h.tokens
  have hleft := h.left
  cases hend : l.nextToken.1.isEnd with
  | true =>
    have hzero := htakes.solid_eq_zero hend
    constructor
    · rw [hreported, List.countP_append, List.countP_singleton, hend, hzero]
      simp only [Bool.not_true, Bool.false_eq_true, if_false]
      omega
    · omega
  | false =>
    have hlt := htakes.solid_lt hend
    constructor
    · rw [hreported, List.countP_append, List.countP_singleton, hend]
      simp only [Bool.not_false, if_true]
      omega
    · intro hpos
      rw [hreported, List.length_append, List.length_singleton]
      omega

private theorem Spends.isEnd_nextToken {n : Nat} {l : Lexer σ} (h : Spends n l)
    (hn : n ≤ l.ledger.reported.length) : l.nextToken.1.isEnd = true := by
  cases hend : l.nextToken.1.isEnd with
  | true => rfl
  | false =>
    have hlt := l.takes_nextToken.solid_lt hend
    have hleft := h.left (by omega)
    omega

private theorem spends_ofEnding {s : σ} {cs : List Char} (h : Supplies s cs) :
    Spends (Text.solid cs) (ofEnding s ⟨cs, h⟩) := by
  have hupcoming : (ofEnding s ⟨cs, h⟩).upcoming = cs := congrArg View.chars (view_ofEnding h)
  have hreported : (ofEnding s ⟨cs, h⟩).ledger.reported = [] :=
    (reads_ofEnding ⟨cs, h⟩).reported_eq
  constructor
  · rw [hreported, hupcoming]
    exact Nat.le_of_eq (Nat.zero_add _)
  · rw [hreported, hupcoming]
    intro _
    exact Nat.le_of_eq (Nat.zero_add _)

private theorem length_answers_callAll {s : σ} {cs : List Char} (h : Supplies s cs)
    (calls : List TokenCall) :
    let l := ((ofEnding ({ source := s } : Watched σ) ⟨cs, Watched.supplies_iff.mpr h⟩).callAll
      calls).2
    l.source.answers.length + l.upcoming.length = cs.length + 1 := by
  intro l
  have hsupplies : Supplies ({ source := s } : Watched σ) cs := Watched.supplies_iff.mpr h
  have hreads := ((follows_ofEnding hsupplies).callAll calls).2.reads
  have hkept : l.cursor.lookahead? = none ∧ l.upcoming <:+ cs := by
    apply callAll_keeps (P := fun l ↦ l.cursor.lookahead? = none ∧ l.upcoming <:+ cs)
    · rintro l ⟨hfree, hsuffix⟩
      exact ⟨lookahead_nextToken hfree, l.takes_nextToken.upcoming_suffix.trans hsuffix⟩
    · intro l hl
      exact hl
    · refine ⟨Cursor.lookahead_advance _, ?_⟩
      have hview := view_ofEnding hsupplies
      rw [← chars_view, hview]
      exact List.suffix_refl _
  obtain ⟨given, hgiven⟩ := hkept.2
  have hlen := congrArg List.length hgiven
  rw [List.length_append] at hlen
  have hanswers := length_answers_of_free hkept.1 (Ledger.Told.reads hreads (.ofSource h))
    (by omega : given.length ≤ cs.length) (by rw [← hgiven, List.drop_left])
  omega

private theorem exists_nextTokens_eq_tokenize (text : String) :
    ∃ k ≤ Text.solid text.toList, ((ofText text).nextTokens (k + 1)).1 = tokenize text ∧
      ∀ i t, (tokenize text)[i]? = some t → (t.isEnd = true ↔ i = k) := by
  have hspells := (View.spells_tokens (.ofChars text.toList)).length_le
  rw [List.length_map] at hspells
  refine ⟨_, hspells, ?_, ?_⟩
  · rw [(nextTokens_eq _ _).1, view_ofText, tokenize_eq, View.firstTokens,
      List.take_length_add_append]
    rfl
  · intro i t ht
    rw [tokenize_eq] at ht
    rcases Nat.lt_or_ge i (View.ofChars text.toList).tokens.length with hi | hi
    · rw [List.getElem?_append_left hi] at ht
      have hend := View.isEnd_of_mem_tokens _ t (List.mem_of_getElem? ht)
      rw [hend]
      exact iff_of_false Bool.false_ne_true (Nat.ne_of_lt hi)
    · rw [List.getElem?_append_right hi, List.getElem?_singleton] at ht
      split at ht
      · next hzero =>
        cases ht
        exact iff_of_true rfl (by omega)
      · cases ht

/-- From wherever a lexer stands, a token takes the blanks in front of it and the characters of its
literal, one at least, off what is to come, or marks the end and takes all of it. However tokens are
asked for, as many of them as there were characters that are no blanks can be read before the end,
and when as many have been read, the mark at the end comes next. Along the way the source is asked
once for each character that is used up, and once more. So reading the tokens of a text one after
the other comes to the mark at its end, and not before all its tokens. -/
theorem nextToken_progress {s : σ} {cs : List Char} (h : Supplies s cs) (calls : List TokenCall) :
    let l := ((ofEnding s ⟨cs, h⟩).callAll calls).2
    let watched := ((ofEnding ({ source := s } : Watched σ)
      ⟨cs, Watched.supplies_iff.mpr h⟩).callAll calls).2
    (∀ m : Lexer σ, Takes m m.nextToken.1 m.nextToken.2) ∧
      l.ledger.reported.countP (fun t ↦ !t.isEnd) ≤ Text.solid cs ∧
      (Text.solid cs ≤ l.ledger.reported.length → l.nextToken.1.isEnd = true) ∧
      watched.source.answers.length + watched.upcoming.length = cs.length + 1 ∧
      ∀ text : String, ∃ k ≤ Text.solid text.toList,
        ((ofText text).nextTokens (k + 1)).1 = tokenize text ∧
          ∀ i t, (tokenize text)[i]? = some t → (t.isEnd = true ↔ i = k) := by
  intro l watched
  have hspends : Spends (Text.solid cs) l := by
    apply callAll_keeps
    · intro m hm
      exact hm.nextToken
    · rintro m ⟨htokens, hleft⟩
      exact ⟨htokens, hleft⟩
    · exact spends_ofEnding h
  refine ⟨takes_nextToken, ?_, hspends.isEnd_nextToken, length_answers_callAll h calls,
    exists_nextTokens_eq_tokenize⟩
  have htokens := hspends.tokens
  omega

/-- Two tokens, a look ahead between them, of a source that would go on behind its end. -/
theorem nextToken_progress_resuming :
    let s : AnswerSource := ⟨[some ' ', some 'a', some '=', none, some 'b']⟩
    let cs := [' ', 'a', '=']
    let calls : List TokenCall := [.next, .nextToken]
    ∃ h : Supplies s cs,
      let l := ((ofEnding s ⟨cs, h⟩).callAll calls).2
      let watched := ((ofEnding ({ source := s } : Watched AnswerSource)
        ⟨cs, Watched.supplies_iff.mpr h⟩).callAll calls).2
      (∀ m : Lexer AnswerSource, Takes m m.nextToken.1 m.nextToken.2) ∧
        l.ledger.reported.countP (fun t ↦ !t.isEnd) ≤ Text.solid cs ∧
        (Text.solid cs ≤ l.ledger.reported.length → l.nextToken.1.isEnd = true) ∧
        watched.source.answers.length + watched.upcoming.length = cs.length + 1 ∧
        ∀ text : String, ∃ k ≤ Text.solid text.toList,
          ((ofText text).nextTokens (k + 1)).1 = tokenize text ∧
            ∀ i t, (tokenize text)[i]? = some t → (t.isEnd = true ↔ i = k) := by
  intro s cs calls
  have h : Supplies s cs := .more rfl (.more rfl (.more rfl (.done rfl)))
  exact ⟨h, nextToken_progress h calls⟩

end Lexer
end MonkeyTokens
