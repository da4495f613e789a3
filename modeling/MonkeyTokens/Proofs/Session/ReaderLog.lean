import MonkeyTokens.Proofs.Lexer.ReadAhead
import MonkeyTokens.Proofs.Session.AllAtOnce
import MonkeyTokens.Proofs.Session.EventLog
import MonkeyTokens.Proofs.Source.Placement

/-!
# The log of a whole input

A lexer asks for one character behind a token before it reports the token, and its decoder reports
the fault that ends the input when a character first reaches for a byte behind the last one. So the
place of the warning among the tokens can be told from the bytes: behind all tokens that end before
that character, and before the others (`Session.allAtOnce_log`).
-/

namespace MonkeyTokens

open CharSource Text

/-- The index behind the last character of a token that is laid out. -/
def endOf (x : Nat × Token) : Nat := x.1 + x.2.literal.length

/-! ### What a lexer has asked its decoder -/

namespace Ledger

/-- A decoder on a reader was asked for so many characters, and for none once it had no more. -/
structure Progressed (r : Reader) (placed : List (Nat × Char)) (n : Nat) (g : Ledger Decoder) :
    Prop where
  source : g.source.Progressed r placed n
  more : g.exhausted = false → n ≤ placed.length
  spent : g.exhausted = true → n = placed.length + 1

/-- What is reported when the characters from number `m` on and before number `n` are asked for:
the fault that ends the delivery, if one of them is the first to reach for a byte behind the last
one. -/
def warnings (r : Reader) (placed : List (Nat × Char)) (m n : Nat) : List Event :=
  if m ≤ firstOverreach r.delivery.bytes placed ∧ firstOverreach r.delivery.bytes placed < n then
    r.delivery.fault?.toList.map .readFailed
  else []

variable {r : Reader} {placed : List (Nat × Char)} {n : Nat} {g h : Ledger Decoder}

private theorem warnings_of_le {m : Nat} (h : n ≤ firstOverreach r.delivery.bytes placed) :
    warnings r placed m n = [] :=
  if_neg (by omega)

private theorem warnings_of_lt {m : Nat} (h : firstOverreach r.delivery.bytes placed < m) :
    warnings r placed m n = [] :=
  if_neg (by omega)

private theorem warnings_self : warnings r placed n n = [] := if_neg (by omega)

private theorem warnings_append {l m : Nat} (hlm : l ≤ m) (hmn : m ≤ n) :
    warnings r placed l m ++ warnings r placed m n = warnings r placed l n := by
  rcases Nat.lt_or_ge (firstOverreach r.delivery.bytes placed) m with h | h
  · rw [warnings_of_lt h, List.append_nil]
    exact if_congr (by omega) rfl rfl
  · rw [warnings_of_le h, List.nil_append]
    exact if_congr (by omega) rfl rfl

private theorem progressed_ofSource (h : DecodesFrom r.delivery.bytes 0 placed) :
    Progressed r placed 0 (.ofSource { reader := r }) :=
  ⟨.ofReader h, fun _ ↦ Nat.zero_le _, fun hx ↦ by cases hx⟩

private theorem Progressed.ask (p : Progressed r placed n g) :
    ∃ m, n ≤ m ∧ Progressed r placed m g.ask ∧
      g.ask.journal.toList = g.journal.toList ++ warnings r placed n m := by
  unfold Ledger.ask
  by_cases hx : g.exhausted = true
  · rw [if_pos hx]
    refine ⟨n, Nat.le_refl n, p, ?_⟩
    rw [warnings_self, List.append_nil]
  · have hn := p.more (Bool.eq_false_iff.mpr hx)
    obtain ⟨hsource, hfault, -⟩ := p.source.next
    have hchar : g.source.next.char? = (placed.map Prod.snd)[n]? := p.source.rest_next.1
    rw [if_neg hx]
    refine ⟨n + 1, Nat.le_succ n, ⟨hsource, ?_, ?_⟩, ?_⟩
    · intro (hmore : g.source.next.char?.isNone = false)
      rw [hchar] at hmore
      refine Nat.lt_of_not_le fun hle ↦ ?_
      rw [List.getElem?_eq_none (by rwa [List.length_map])] at hmore
      cases hmore
    · intro (hover : g.source.next.char?.isNone = true)
      rw [hchar, Option.isNone_iff_eq_none, List.getElem?_eq_none_iff, List.length_map] at hover
      omega
    · have hevents : g.source.next.events = warnings r placed n (n + 1) := by
        rw [Pull.events, hfault, warnings]
        split
        · next hdue => rw [if_pos (by omega)]
        · next hdue =>
          rw [if_neg (by omega)]
          rfl
      simp only [Array.appendList_eq_append, Array.toList_appendList, ← hevents]
      rfl

private theorem Reads.progressed {ts : List Token} (q : Reads g ts h) (hts : ts = [])
    (p : Progressed r placed n g) :
    ∃ m, n ≤ m ∧ Progressed r placed m h ∧
      h.journal.toList = g.journal.toList ++ warnings r placed n m := by
  induction q with
  | refl =>
    refine ⟨n, Nat.le_refl n, p, ?_⟩
    rw [warnings_self, List.append_nil]
  | ask _ ih =>
    obtain ⟨l, hl, hprogressed, hjournal⟩ := ih hts
    obtain ⟨m, hm, hasked, hmore⟩ := hprogressed.ask
    refine ⟨m, Nat.le_trans hl hm, hasked, ?_⟩
    rw [hmore, hjournal, List.append_assoc, warnings_append hl hm]
  | report => exact absurd hts (List.concat_ne_nil _ _)

end Ledger

namespace Lexer

open Ledger

variable {r : Reader} {placed : List (Nat × Char)} {l : Lexer Decoder}

private theorem eq_succ_of_free (free : l.cursor.lookahead? = none) {n i : Nat}
    (p : l.ledger.Progressed r placed n) (hi : i ≤ placed.length)
    (hupcoming : l.upcoming = (placed.map Prod.snd).drop i) : n = i + 1 := by
  have hlen : (placed.map Prod.snd).length = placed.length := List.length_map _
  obtain ⟨hiff, hunasked⟩ := unasked_of_upcoming free (hi.trans_eq hlen.symm) hupcoming
  rw [hlen] at hiff
  cases hx : l.cursor.exhausted with
  | true => rw [p.spent hx, hiff.mp hx]
  | false =>
    have hn := p.more hx
    have hne : i ≠ placed.length := mt hiff.mpr (by simp [hx])
    obtain ⟨j, hplaced, hr⟩ := p.source.rest
    have hdrop : (placed.map Prod.snd).drop (i + 1) = (placed.drop n).map Prod.snd := by
      rw [← hunasked, Cursor.unasked, hx]
      exact (Decoder.supplies_of_decodes hr hplaced.decodes).upcoming_eq
    have hleft := congrArg List.length hdrop
    rw [List.length_drop, hlen, List.length_map, List.length_drop] at hleft
    omega

private theorem journal_nextToken {n : Nat} (p : l.ledger.Progressed r placed n) :
    ∃ m, n ≤ m ∧ l.nextToken.2.ledger.Progressed r placed m ∧
      l.nextToken.2.journal.toList =
        l.journal.toList ++ (warnings r placed n m ++ [.producedToken l.nextToken.1]) := by
  have hscan := (l.reads_takeRun isBlank).trans (l.takeRun isBlank).2.reads_scan
  obtain ⟨m, hm, hprogressed, hjournal⟩ := hscan.progressed rfl p
  refine ⟨m, hm, ⟨hprogressed.source, hprogressed.more, hprogressed.spent⟩, ?_⟩
  have hreport : l.nextToken.2.journal.toList =
      (l.takeRun isBlank).2.scan.2.ledger.journal.toList ++ [.producedToken l.nextToken.1] :=
    Array.toList_push
  rw [hreport, hjournal, List.append_assoc]
  rfl

private theorem drain_of_tokens_nil {σ : Type} [CharSource σ] {l : Lexer σ}
    (h : l.view.tokens = []) : l.drain = ([], l.nextToken.1, l.nextToken.2) := by
  have hend : l.nextToken.1.isEnd = true := by
    rw [isEnd_nextToken_iff]
    by_contra hne
    rw [View.tokens_of_token hne] at h
    cases h
  rw [drain]
  exact dif_pos hend

private theorem drain_of_tokens_cons {σ : Type} [CharSource σ] {l : Lexer σ} {t : Token}
    {ts : List Token} (h : l.view.tokens = t :: ts) :
    l.nextToken.1 = t ∧ l.nextToken.2.view.tokens = ts ∧
      l.drain.2 = l.nextToken.2.drain.2 := by
  have hne : l.view.skipBlanks.chars ≠ [] := by
    intro hb
    rw [View.tokens_of_blank hb] at h
    cases h
  obtain ⟨ht, hv⟩ := l.view_nextToken
  rw [View.tokens_of_token hne, ← ht, ← hv] at h
  obtain ⟨rfl, rfl⟩ := List.cons.inj h
  refine ⟨rfl, rfl, ?_⟩
  rw [drain]
  have hend : ¬ l.nextToken.1.isEnd = true := mt l.isEnd_nextToken_iff.mp hne
  simp only [dif_neg hend]

/-- A lexer on the decoder of a reader stands between two tokens, at an index of the text: it holds
the character there, and has asked for no other behind it. -/
structure StandsBetween (r : Reader) (placed : List (Nat × Char)) (i : Nat) (l : Lexer Decoder) :
    Prop where
  free : l.cursor.lookahead? = none
  view : l.view = .ofIndex (placed.map Prod.snd) i
  asked : l.ledger.Progressed r placed (i + 1)

private theorem standsBetween_ofSource (h : DecodesFrom r.delivery.bytes 0 placed) :
    StandsBetween r placed 0 (ofSource { reader := r }) ∧
      (ofSource ({ reader := r } : Decoder)).journal.toList = warnings r placed 0 1 := by
  have hsupplies : Supplies ({ reader := r } : Decoder) (placed.map Prod.snd) :=
    Decoder.supplies_of_decodes rfl h.decodes
  have hview : (ofSource ({ reader := r } : Decoder)).view = .ofIndex (placed.map Prod.snd) 0 := by
    rw [View.ofIndex_zero]
    exact view_ofEnding hsupplies
  have hfree : (ofSource ({ reader := r } : Decoder)).cursor.lookahead? = none :=
    Cursor.lookahead_advance _
  obtain ⟨m, -, hm, hjournal⟩ :=
    (reads_ofSource ({ reader := r } : Decoder)).progressed rfl (progressed_ofSource h)
  obtain rfl : m = 1 :=
    eq_succ_of_free hfree hm (Nat.zero_le _) (congrArg View.chars hview)
  exact ⟨⟨hfree, hview, hm⟩, hjournal⟩

namespace StandsBetween

variable {i : Nat} {ts : List (Nat × Token)}

private theorem nextToken (s : StandsBetween r placed i l)
    (laid : LaidOut (placed.map Prod.snd) i ts) (hi : i ≤ placed.length)
    (htokens : (View.ofIndex (placed.map Prod.snd) i).tokens = ts.map Prod.snd) :
    let j := indexBehind placed.length i ts 1
    i ≤ j ∧ j ≤ placed.length ∧ StandsBetween r placed j l.nextToken.2 ∧
      l.nextToken.2.journal.toList = l.journal.toList ++
        (warnings r placed (i + 1) (j + 1) ++ [.producedToken l.nextToken.1]) := by
  have hlen : (placed.map Prod.snd).length = placed.length := List.length_map _
  obtain ⟨hj, hbehind⟩ := laid.behindTokens_eq (hi.trans_eq hlen.symm) htokens 1
  rw [hlen] at hj hbehind
  have hview : l.nextToken.2.view =
      .ofIndex (placed.map Prod.snd) (indexBehind placed.length i ts 1) := by
    rw [l.view_nextToken.2, s.view, ← hbehind]
    rfl
  have hfree := lookahead_nextToken s.free
  obtain ⟨m, hle, hm, hjournal⟩ := journal_nextToken s.asked
  obtain rfl := eq_succ_of_free hfree hm hj (congrArg View.chars hview)
  exact ⟨by omega, hj, ⟨hfree, hview, hm⟩, hjournal⟩

private theorem journal_drain (s : StandsBetween r placed i l)
    (laid : LaidOut (placed.map Prod.snd) i ts) (hi : i ≤ placed.length)
    (htokens : (View.ofIndex (placed.map Prod.snd) i).tokens = ts.map Prod.snd) :
    ∃ early late, ts = early ++ late ∧
      (∀ x ∈ early, endOf x < firstOverreach r.delivery.bytes placed) ∧
      (∀ x ∈ late, firstOverreach r.delivery.bytes placed ≤ endOf x) ∧
      l.drain.2.2.journal.toList = l.journal.toList ++ (early.map (.producedToken ·.2) ++
        (warnings r placed (i + 1) (placed.length + 1) ++
          (late.map (.producedToken ·.2) ++ [.producedToken l.drain.2.1]))) := by
  induction laid generalizing l with
  | @done i blank =>
    obtain ⟨-, -, -, hjournal⟩ := s.nextToken (.done blank) hi htokens
    have hview := congrArg View.tokens s.view
    refine ⟨[], [], rfl, by simp, by simp, ?_⟩
    rw [drain_of_tokens_nil (hview.trans htokens), hjournal]
    rfl
  | @more i b rest t ts blank lexeme here behind ih =>
    have hend : indexBehind placed.length i ((i + b.length, t) :: ts) 1 =
        i + b.length + t.literal.length := rfl
    obtain ⟨hij, hj, hnext, hjournal⟩ := s.nextToken (.more blank lexeme here behind) hi htokens
    rw [hend] at hij hj hnext hjournal
    have hview := congrArg View.tokens s.view
    obtain ⟨ht, hts, hdrain⟩ := drain_of_tokens_cons (hview.trans htokens)
    rw [hnext.view] at hts
    obtain ⟨early, late, rfl, hearly, hlate, hrest⟩ := ih hnext hj hts
    rw [hdrain, hrest, hjournal, ht, ← warnings_append (Nat.add_le_add_right hij 1)
      (Nat.add_le_add_right hj 1)]
    -- what is left to be reported is reported on the way to this token or behind it
    rcases Nat.lt_or_ge (i + b.length + t.literal.length)
      (firstOverreach r.delivery.bytes placed) with hlt | hge
    · refine ⟨(i + b.length, t) :: early, late, rfl, ?_, hlate, ?_⟩
      · exact List.forall_mem_cons.mpr ⟨hlt, hearly⟩
      · rw [warnings_of_le (Nat.succ_le_of_lt hlt)]
        simp
    · refine ⟨[], (i + b.length, t) :: (early ++ late), rfl, by simp, ?_, ?_⟩
      · intro x hx
        rcases List.mem_cons.mp hx with rfl | hx
        · exact hge
        · have hbounds := behind.bounds x hx
          exact hge.trans (hbounds.1.trans (Nat.le_add_right _ _))
      · rw [warnings_of_lt (Nat.lt_succ_of_le hge)]
        simp

end StandsBetween

private theorem journal_drain_ofReader (h : DecodesFrom r.delivery.bytes 0 placed) :
    ∃ (early late : List (Nat × Token)) (mark : Token),
      (tokenize (String.ofList (placed.map Prod.snd))) = (early ++ late).map Prod.snd ++ [mark] ∧
      mark.isEnd = true ∧
      LaidOut (placed.map Prod.snd) 0 (early ++ late) ∧
      (∀ x ∈ early, endOf x < firstOverreach r.delivery.bytes placed) ∧
      (∀ x ∈ late, firstOverreach r.delivery.bytes placed ≤ endOf x) ∧
      (ofSource ({ reader := r } : Decoder)).drain.2.2.journal.toList =
        early.map (.producedToken ·.2) ++ (r.delivery.fault?.toList.map .readFailed ++
          (late.map (.producedToken ·.2) ++ [.producedToken mark])) := by
  obtain ⟨hstands, hfirst⟩ := standsBetween_ofSource h
  obtain ⟨ts, htokens, hlaid, -⟩ := View.exists_laidOut (placed.map Prod.snd) 0
  obtain ⟨early, late, rfl, hearly, hlate, hjournal⟩ :=
    hstands.journal_drain hlaid (Nat.zero_le _) htokens
  have hdue : firstOverreach r.delivery.bytes placed ≤ placed.length := List.findIdx_le_length
  have hall : warnings r placed 0 1 ++ warnings r placed 1 (placed.length + 1) =
      r.delivery.fault?.toList.map .readFailed := by
    rw [warnings_append (Nat.zero_le 1) (Nat.le_add_left 1 _)]
    exact if_pos (by omega)
  refine ⟨early, late, _, ?_, (ofSource ({ reader := r } : Decoder)).isEnd_drain.2, hlaid, hearly,
    hlate, ?_⟩
  · rw [(drain_eq _).2, hstands.view, tokenize_eq, String.toList_ofList, ← View.ofIndex_zero,
      htokens]
  · rw [hjournal, hfirst]
    rcases Nat.eq_zero_or_pos (firstOverreach r.delivery.bytes placed) with hzero | hpos
    · -- no token ends before the first character
      have hnil : early = [] := by
        rw [List.eq_nil_iff_forall_not_mem]
        intro x hx
        have hlt := hearly x hx
        omega
      rw [← hall, hnil]
      simp
    · rw [← hall, warnings_of_le hpos]
      simp

end Lexer

/-! ### The log of a session -/

/-- What a log shows of an event, and how much it matters. -/
def Event.shown (e : Event) : Level × LogEntry := (e.level, e.logEntry)

namespace LogEntry

/-- Reading failed and ended the input. -/
def ofFault (f : Fault) : LogEntry where
  message := "read failed, ending input"
  fields := [("error", .plain f.message)]

/-- All tokens of a reader were written. -/
def ofReader (tokens : Nat) : LogEntry where
  message := "lexed reader"
  fields := [("tokens", .number tokens)]

end LogEntry

namespace Session

open MonkeyTokens.Action

private theorem filterMap_follow (events : List Event) :
    (events.flatMap follow).filterMap event? = events := by
  induction events with
  | nil => rfl
  | cons e events ih =>
    rw [List.flatMap_cons, List.filterMap_append, ih]
    cases e with
    | producedToken t => by_cases h : t.isEnd = true <;> simp [follow, h, event?]
    | _ => rfl

private theorem log_allAtOnce (r : Reader) :
    ((allAtOnce r).carryOut {}).progress.log.toList =
      (Lexer.ofSource ({ reader := r } : Decoder)).drain.2.2.journal.toList ++
        match r.delivery.fault? with
        | none => [.lexedReader (Lexer.ofSource ({ reader := r } : Decoder)).drain.1.length]
        | some _ => [] := by
  obtain ⟨cs, hcs⟩ := Decodes.exists r.delivery.bytes
  have hfailure := (Lexer.drain_ofReader r hcs).2
  have hfollow := filterMap_follow
    (Lexer.ofSource ({ reader := r } : Decoder)).drain.2.2.journal.toList
  rw [(allAtOnce r).carryOut_of_bears (Sink.unfailing_default.bears _), Progress.log_after,
    List.nil_append]
  unfold allAtOnce
  simp only
  rw [hfailure]
  cases r.delivery.fault? with
  | none =>
    simp only [Option.map_none]
    rw [List.filterMap_append, hfollow]
    rfl
  | some f =>
    simp only [Option.map_some]
    rw [hfollow, List.append_nil]

/-- The log of a session that reads all of its input at once shows its tokens in order, the mark at
the end last. If the delivery ends with a fault, the log shows this as well, once and as a warning:
behind the tokens that end before the first character that reaches for a byte behind the last one,
and before the other ones. Otherwise there is no warning, and behind the tokens the log shows their
number, which is the result. -/
theorem allAtOnce_log (r : Reader) :
    ∃ placed, (∀ others, DecodesFrom r.delivery.bytes 0 others ↔ others = placed) ∧
      let text := String.ofList (placed.map Prod.snd)
      let reach := firstOverreach r.delivery.bytes placed
      let run := (allAtOnce r).carryOut {}
      let log := run.progress.log.toList.map Event.shown
      let token (t : Token) : Level × LogEntry := (.trace, .ofToken t)
      ∃ (early late : List (Nat × Token)) (mark : Token),
        tokenize text = (early ++ late).map Prod.snd ++ [mark] ∧
        mark.isEnd = true ∧
        LaidOut text.toList 0 (early ++ late) ∧
        (∀ x ∈ early, endOf x < reach) ∧ (∀ x ∈ late, reach ≤ endOf x) ∧
        reach ≤ text.length ∧
        match r.delivery.fault? with
        | some f =>
          log = early.map (token ·.2) ++
            (.warn, .ofFault f) :: (late.map (token ·.2) ++ [token mark])
        | none =>
          log = (tokenize text).map token ++ [(.debug, .ofReader (early ++ late).length)] ∧
            run.result = .ok (early ++ late).length := by
  obtain ⟨placed, hplaced⟩ := DecodesFrom.exists_unique r.delivery.bytes
  have hhere := (hplaced placed).mpr rfl
  refine ⟨placed, hplaced, ?_⟩
  intro text reach run log token
  obtain ⟨early, late, mark, htokens, hmark, hlaid, hearly, hlate, hjournal⟩ :=
    Lexer.journal_drain_ofReader hhere
  have htext : text.toList = placed.map Prod.snd := String.toList_ofList
  have hshown (ts : List (Nat × Token)) :
      (ts.map (Event.producedToken ·.2)).map Event.shown = ts.map (token ·.2) := by
    rw [List.map_map]
    rfl
  have hlog := congrArg (List.map Event.shown) (log_allAtOnce r)
  rw [hjournal] at hlog
  refine ⟨early, late, mark, htokens, hmark, htext ▸ hlaid, hearly, hlate, ?_, ?_⟩
  · rw [String.length_ofList, List.length_map]
    exact List.findIdx_le_length
  · split
    · next f hf =>
      simp only [hf, List.map_append, hshown] at hlog
      rw [List.map_nil, List.append_nil] at hlog
      exact hlog
    · next hf =>
      have htold : (tokenize text).map token =
          early.map (token ·.2) ++ (late.map (token ·.2) ++ [token mark]) := by
        rw [htokens, List.map_append, List.map_map, List.map_append, List.append_assoc]
        rfl
      have hcount : (View.ofChars (placed.map Prod.snd)).tokens.length =
          (early ++ late).length := by
        rw [← htext, ← dropLast_tokenize, htokens, List.dropLast_concat, List.length_map]
      have hdrain := (Lexer.drain_ofReader r hhere.decodes).1
      have hresult := (allAtOnce_eq r hhere.decodes).2
      simp only [hf, List.map_append, hshown] at hlog hresult
      rw [hdrain, hcount] at hlog
      rw [htold, ((allAtOnce r).carryOut_of_unfailing Sink.unfailing_default).1, hresult, hcount]
      exact ⟨hlog, rfl⟩

end Session
end MonkeyTokens
