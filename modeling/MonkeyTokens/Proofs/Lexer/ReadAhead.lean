import MonkeyTokens.Proofs.Lexer.Polling
import MonkeyTokens.Proofs.Lexer.Stamps

/-!
# How far a lexer reads ahead

A lexer looks ahead only inside of a token: between two tokens it holds the character behind the
last one, and nothing else (`lookahead_nextToken`). So it has asked its source for just one answer
more than there are characters up to the end of that token, whatever the token is
(`nextTokens_standsAt`).
-/

namespace MonkeyTokens

open CharSource Text

/-! ### Between two tokens -/

namespace Lexer

variable {σ : Type} [CharSource σ]

private theorem lookahead_advance (l : Lexer σ) : l.advance.cursor.lookahead? = none :=
  l.cursor.lookahead_advance

private theorem lookahead_takeRun (p : Char → Bool) {l : Lexer σ} (h : l.cursor.lookahead? = none) :
    (l.takeRun p).2.cursor.lookahead? = none := by
  fun_induction takeRun p l with
  | case1 | case3 => exact h
  | case2 l c hc hp run m hr ih =>
    rw [hr] at ih
    exact ih l.lookahead_advance

private theorem lookahead_scanNumber {l : Lexer σ} (h : l.cursor.lookahead? = none) :
    l.scanNumber.2.cursor.lookahead? = none := by
  unfold scanNumber
  simp only
  split
  · exact lookahead_takeRun isDigit (lookahead_advance _)
  · exact lookahead_takeRun isDigit h

private theorem lookahead_scanSymbol (c : Char) (l : Lexer σ) :
    (l.scanSymbol c).2.cursor.lookahead? = none := by
  unfold scanSymbol
  split
  · exact l.lookahead_advance
  · simp only
    split
    · exact lookahead_advance _
    · exact lookahead_advance _

private theorem lookahead_scan {l : Lexer σ} (h : l.cursor.lookahead? = none) :
    l.scan.2.cursor.lookahead? = none := by
  unfold scan
  split
  · exact h
  · next c hc =>
    split
    · exact lookahead_takeRun isLetter h
    · split
      · exact lookahead_scanNumber h
      · exact l.lookahead_scanSymbol c

/-- Behind a token nothing is looked at. -/
theorem lookahead_nextToken {l : Lexer σ} (h : l.cursor.lookahead? = none) :
    l.nextToken.2.cursor.lookahead? = none :=
  lookahead_scan (lookahead_takeRun isBlank h)

private theorem exhausted_iff_of_free {l : Lexer σ} (h : l.cursor.lookahead? = none) :
    l.cursor.exhausted = true ↔ l.cursor.current? = none := by
  rw [l.settled.exhausted_iff, h]
  simp

/-- With nothing looked at, all that is to come but the current character is in the source. -/
theorem unasked_of_free {l : Lexer σ} (h : l.cursor.lookahead? = none) :
    l.cursor.unasked = l.upcoming.tail := by
  have hu : l.upcoming = l.cursor.current?.toList ++ l.cursor.unasked := by
    simp [upcoming, Cursor.upcoming, h]
  cases hc : l.cursor.current? with
  | none =>
    rw [upcoming_eq_nil hc, Cursor.unasked, if_pos ((exhausted_iff_of_free h).mpr hc)]
    rfl
  | some c =>
    rw [hu, hc]
    rfl

/-- With nothing looked at, the source is known to have no more at the end of a text only, and all
behind the current character is in the source. -/
theorem unasked_of_upcoming {l : Lexer σ} (h : l.cursor.lookahead? = none) {cs : List Char}
    {i : Nat} (hi : i ≤ cs.length) (hupcoming : l.upcoming = cs.drop i) :
    (l.cursor.exhausted = true ↔ i = cs.length) ∧ l.cursor.unasked = cs.drop (i + 1) := by
  have hhead := l.head?_upcoming
  rw [hupcoming, List.head?_drop] at hhead
  constructor
  · rw [exhausted_iff_of_free h, ← hhead, List.getElem?_eq_none_iff]
    omega
  · rw [unasked_of_free h, hupcoming, List.tail_drop]

/-- So many tokens one by one, with the mark at the end as often as it is asked for. -/
def nextTokens : Nat → Lexer σ → List Token × Lexer σ
  | 0, l => ([], l)
  | k + 1, l =>
    let (t, m) := l.nextToken
    let (ts, last) := nextTokens k m
    (t :: ts, last)

/-- Between any two tokens nothing is looked at. -/
theorem lookahead_nextTokens (k : Nat) {l : Lexer σ} (h : l.cursor.lookahead? = none) :
    (l.nextTokens k).2.cursor.lookahead? = none := by
  induction k generalizing l with
  | zero => exact h
  | succ k ih => exact ih (lookahead_nextToken h)

/-- Tokens that are read one by one are reported. -/
theorem reads_nextTokens (k : Nat) (l : Lexer σ) :
    Ledger.Reads l.ledger (l.nextTokens k).1 (l.nextTokens k).2.ledger := by
  induction k generalizing l with
  | zero => exact .refl _
  | succ k ih => exact l.reads_nextToken.trans (ih _)

end Lexer

/-! ### Where a token ends -/

namespace View

/-- The view behind so many tokens. -/
def behindTokens : Nat → View → View
  | 0, v => v
  | k + 1, v => v.skipBlanks.behind.behindTokens k

private theorem behind_eq_skip (v : View) : v.behind = v.skip v.token.literal.length := by
  rw [behind, token, String.length_ofList]

private theorem behindTokens_of_blank {v : View} (h : v.skipBlanks.chars = []) (k : Nat) :
    v.behindTokens (k + 1) = v.last := by
  induction k generalizing v with
  | zero => exact behind_of_blank h
  | succ k ih =>
    have hl : v.last.skipBlanks.chars = [] := by
      rw [chars_skipBlanks, last, chars_skip, List.drop_length, List.dropWhile_nil]
    rw [behindTokens, behind_of_blank h, ih hl, last_last]

/-- So many tokens from a view on, with the mark at the end again and again behind the others. -/
def firstTokens (k : Nat) (v : View) : List Token :=
  (v.tokens ++ List.replicate k (Token.endAt v.last.position)).take k

/-- There are as many of them as are asked for. -/
theorem length_firstTokens (k : Nat) (v : View) : (v.firstTokens k).length = k := by
  rw [firstTokens, List.length_take, List.length_append, List.length_replicate]
  omega

/-- They are a first part of all tokens with the mark at the end again and again behind them. -/
theorem isPrefix_firstTokens (k : Nat) (v : View) :
    v.firstTokens k <+: v.tokens ++ [Token.endAt v.last.position] ++
      List.replicate k (Token.endAt v.last.position) := by
  rw [List.append_assoc, List.singleton_append, ← List.replicate_succ, List.replicate_succ',
    ← List.append_assoc]
  exact (List.take_prefix _ _).trans (List.prefix_append _ _)

/-- The first of them is the token behind the blanks. -/
theorem firstTokens_succ (k : Nat) (v : View) :
    v.firstTokens (k + 1) = v.skipBlanks.token :: v.skipBlanks.behind.firstTokens k := by
  rw [firstTokens, firstTokens, last_behind]
  by_cases hb : v.skipBlanks.chars = []
  · rw [tokens_behind_of_blank hb, tokens_of_blank hb, token_of_blank hb]
    rfl
  · have hlen : k ≤ (v.skipBlanks.behind.tokens ++
        List.replicate k (Token.endAt v.last.position)).length := by
      rw [List.length_append, List.length_replicate]
      omega
    rw [tokens_of_token hb, List.replicate_succ', List.cons_append, List.take_succ_cons,
      ← List.append_assoc, List.take_append_of_le_length hlen]

private theorem last_ofIndex {cs : List Char} {i : Nat} (hi : i ≤ cs.length) :
    (ofIndex cs i).last = ofIndex cs cs.length := by
  have hlen : (ofIndex cs i).chars.length = cs.length - i := List.length_drop
  rw [last, skip_ofIndex, hlen, Nat.add_sub_cancel' hi]

end View

/-- The index behind so many tokens of a layout, counted from those that start at an index or behind
it: the end of the text where the layout has no more tokens. -/
def indexBehind (length : Nat) : Nat → List (Nat × Token) → Nat → Nat
  | i, _, 0 => i
  | _, [], _ + 1 => length
  | _, (j, t) :: placed, k + 1 => indexBehind length (j + t.literal.length) placed k

/-- Tokens are as long as the layout says, so that reading them leads where it says. -/
theorem LaidOut.behindTokens_eq {cs : List Char} {i : Nat} {placed : List (Nat × Token)}
    (laid : LaidOut cs i placed) (hi : i ≤ cs.length)
    (htokens : (View.ofIndex cs i).tokens = placed.map Prod.snd) (k : Nat) :
    indexBehind cs.length i placed k ≤ cs.length ∧
      (View.ofIndex cs i).behindTokens k = View.ofIndex cs (indexBehind cs.length i placed k) := by
  induction laid generalizing k with
  | @done i blank =>
    cases k with
    | zero => exact ⟨hi, rfl⟩
    | succ k =>
      have hb : (View.ofIndex cs i).skipBlanks.chars = [] := by
        rw [View.chars_skipBlanks]
        exact List.dropWhile_eq_nil_iff.mpr blank
      rw [View.behindTokens_of_blank hb, View.last_ofIndex hi]
      exact ⟨Nat.le_refl _, rfl⟩
  | @more i b rest t placed blank lexeme here behind ih =>
    cases k with
    | zero => exact ⟨hi, rfl⟩
    | succ k =>
      have hchars : (View.ofIndex cs i).chars = b ++ t.literal.toList ++ rest := here
      have hne : (View.ofIndex cs i).skipBlanks.chars ≠ [] := by
        rw [View.chars_skipBlanks_of_isLexeme hchars blank lexeme]
        exact List.append_ne_nil_of_left_ne_nil lexeme.ne_nil rest
      rw [View.tokens_of_token hne, List.map_cons, List.cons_eq_cons] at htokens
      have hskip : (View.ofIndex cs i).skipBlanks = View.ofIndex cs (i + b.length) := by
        rw [View.skipBlanks, View.takeWhile_blank_of_isLexeme hchars blank lexeme,
          View.skip_ofIndex]
      have hbehind : (View.ofIndex cs i).skipBlanks.behind =
          View.ofIndex cs (i + b.length + t.literal.length) := by
        rw [View.behind_eq_skip, htokens.1, hskip, View.skip_ofIndex]
      have hfits := (lexeme.add_length_le here).2
      rw [String.length_toList] at hfits
      rw [hbehind] at htokens
      rw [View.behindTokens, hbehind]
      exact ih hfits htokens.2 k

namespace Lexer

variable {σ : Type} [CharSource σ]

/-- Tokens that are read one by one are those of the view, and then the mark again and again. -/
theorem nextTokens_eq (k : Nat) (l : Lexer σ) :
    (l.nextTokens k).1 = l.view.firstTokens k ∧
      (l.nextTokens k).2.view = l.view.behindTokens k := by
  induction k generalizing l with
  | zero => exact ⟨rfl, rfl⟩
  | succ k ih =>
    obtain ⟨ht, hv⟩ := l.view_nextToken
    obtain ⟨hts, hvs⟩ := ih l.nextToken.2
    rw [hv] at hts hvs
    refine ⟨?_, hvs⟩
    rw [View.firstTokens_succ, ← ht, ← hts]
    rfl

end Lexer

/-! ### What is left in the source -/

/-- Asking a text takes its first character off. -/
theorem TextSource.rest_pull (s : TextSource) : (pull s).source.rest = s.rest.tail := by
  obtain ⟨rest⟩ := s
  cases rest <;> rfl

private theorem Ledger.Reads.rest_eq {cs : List Char} {g h : Ledger (Watched TextSource)}
    {ts : List Token}
    (r : Ledger.Reads g ts h) (hg : g.source.source.rest = cs.drop g.source.answers.length) :
    h.source.source.rest = cs.drop h.source.answers.length := by
  induction r with
  | refl => exact hg
  | @ask h ts _ ih =>
    unfold Ledger.ask
    split
    · exact ih
    · change (pull h.source.source).source.rest = cs.drop (h.source.answers ++ [_]).length
      rw [TextSource.rest_pull, ih, List.length_append, List.length_singleton, List.tail_drop]
  | report _ _ ih => exact ih

/-- A lexer on a text stands at an index: it holds the character there, if there is one, and nothing
else, and has asked for no more than this character or to know that there is none. -/
structure StandsAt (text : String) (i : Nat) (l : Lexer (Watched TextSource)) : Prop where
  lookahead : l.cursor.lookahead? = none
  current : l.cursor.current? = text.toList[i]?
  polls : l.source.answers.length = i + 1
  rest : l.source.source.rest = text.toList.drop (i + 1)
  /-- The position is that of the current character, or else of the last one. -/
  position : l.position =
    if text.length = 0 then ⟨1, 0⟩ else place text.toList (min i (text.length - 1))

namespace Lexer

/-- With nothing looked at, a source that supplies some characters has answered with those up to the
current one, or with all of them and that there are no more. -/
theorem length_answers_of_free {σ : Type} [CharSource σ] {l : Lexer (Watched σ)} {cs : List Char}
    (h : l.cursor.lookahead? = none) (told : l.ledger.Told cs) {i : Nat} (hi : i ≤ cs.length)
    (hupcoming : l.upcoming = cs.drop i) : l.source.answers.length = i + 1 := by
  obtain ⟨hiff, hunasked⟩ := unasked_of_upcoming h hi hupcoming
  cases hx : l.cursor.exhausted with
  | true =>
    have hanswers : l.source.answers = cs.map some ++ [none] := told.ended hx
    rw [hanswers, List.length_append, List.length_map, List.length_singleton, hiff.mp hx]
  | false =>
    obtain ⟨rest, hs, hrest⟩ := told.more hx
    have hne : i ≠ cs.length := mt hiff.mpr (by simp [hx])
    have hdrop : cs.drop (i + 1) = rest := by
      rw [← hunasked, Cursor.unasked, hx]
      exact hs.upcoming_eq
    have hlen := congrArg List.length hrest
    rw [List.length_append, List.length_map, List.length_map, ← hdrop, List.length_drop] at hlen
    change l.source.answers.length + _ = _ at hlen
    omega

private theorem standsAt_of_free {text : String} (hlim : text.toList.length ≤ Position.limit)
    {l : Lexer (Watched TextSource)} {ts : List Token}
    (hreads : Ledger.Reads (.ofSource { source := .ofString text }) ts l.ledger)
    (h : l.cursor.lookahead? = none) {i : Nat} (hi : i ≤ text.toList.length)
    (hview : l.view = .ofIndex text.toList i) : StandsAt text i l := by
  have hupcoming : l.upcoming = text.toList.drop i := congrArg View.chars hview
  have htold := Ledger.Told.reads hreads (.ofSource (TextSource.supplies text.toList))
  have hpolls := length_answers_of_free h htold hi hupcoming
  refine ⟨h, ?_, hpolls, ?_, ?_⟩
  · rw [← l.head?_upcoming, hupcoming, List.head?_drop]
  · rw [← hpolls]
    exact hreads.rest_eq rfl
  · have hp : l.position = (View.ofIndex text.toList i).position := congrArg View.position hview
    rw [hp, ← String.length_toList]
    by_cases hcs : text.toList = []
    · rw [hcs]
      rfl
    · rw [if_neg (mt List.length_eq_zero_iff.mp hcs), View.position_ofIndex hcs hlim]

/-- The tokens of a text that is short enough are laid out in it, and read one by one they come in
that order, with the mark at the end again and again behind them. Before the first token and behind
each of them the lexer stands where that token ends, and behind the mark at the end of the text: it
holds one character, has looked at no other, and has asked for nothing else. -/
theorem nextTokens_standsAt (text : String) (h : text.length < 2 ^ 32) :
    ∃ (placed : List (Nat × Token)) (mark : Token),
      tokenize text = placed.map Prod.snd ++ [mark] ∧
      LaidOut text.toList 0 placed ∧
      ∀ k,
        let read := (ofSource ({ source := .ofString text } : Watched TextSource)).nextTokens k
        let i := indexBehind text.length 0 placed k
        read.1 = (placed.map Prod.snd ++ List.replicate k mark).take k ∧
        i ≤ text.length ∧
        StandsAt text i read.2 := by
  have hlim : text.toList.length ≤ Position.limit := by
    rw [String.length_toList, Position.limit]
    omega
  obtain ⟨placed, hplaced, hlaid, -⟩ := View.laidOut_tokens hlim 0
  have htokens := tokenize_eq text
  rw [← View.ofIndex_zero, hplaced] at htokens
  refine ⟨placed, _, htokens, hlaid, ?_⟩
  intro k read i
  have hsupplies : Supplies ({ source := .ofString text } : Watched TextSource) text.toList :=
    Watched.supplies_iff.mpr (TextSource.supplies text.toList)
  have hview : (ofSource ({ source := .ofString text } : Watched TextSource)).view =
      .ofIndex text.toList 0 := by
    rw [View.ofIndex_zero]
    exact view_ofEnding hsupplies
  have hread := nextTokens_eq k (ofSource ({ source := .ofString text } : Watched TextSource))
  have hbehind := hlaid.behindTokens_eq (Nat.zero_le _) hplaced k
  rw [hview, View.firstTokens, hplaced, hbehind.2] at hread
  rw [String.length_toList] at hbehind hread
  refine ⟨hread.1, hbehind.1, ?_⟩
  apply standsAt_of_free hlim
  · exact (reads_ofSource _).trans (reads_nextTokens k _)
  · exact lookahead_nextTokens k (Cursor.lookahead_advance _)
  · rw [String.length_toList]
    exact hbehind.1
  · exact hread.2

/-- Words, a number, and both symbols that are made of two characters where one of them is not. -/
theorem nextTokens_standsAt_symbols :
    "a = b!= 1.\n=".length < 2 ^ 32 ∧
    ∃ (placed : List (Nat × Token)) (mark : Token),
      tokenize "a = b!= 1.\n=" = placed.map Prod.snd ++ [mark] ∧
      LaidOut "a = b!= 1.\n=".toList 0 placed ∧
      ∀ k,
        let read := (ofSource ({ source := .ofString "a = b!= 1.\n=" } :
          Watched TextSource)).nextTokens k
        let i := indexBehind "a = b!= 1.\n=".length 0 placed k
        read.1 = (placed.map Prod.snd ++ List.replicate k mark).take k ∧
        i ≤ "a = b!= 1.\n=".length ∧
        StandsAt "a = b!= 1.\n=" i read.2 :=
  ⟨by decide, nextTokens_standsAt "a = b!= 1.\n=" (by decide)⟩

end Lexer

end MonkeyTokens
