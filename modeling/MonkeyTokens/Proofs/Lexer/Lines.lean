import Mathlib.Data.List.Basic
import MonkeyTokens.Proofs.Lexer.Grammar
import MonkeyTokens.Proofs.Text.Lines

/-!
# Reading line by line

No token goes across a blank, so what comes behind a blank does not change the tokens in front of
it (`View.tokens_append_blank`). Up to the end of a line it makes no difference to the tokens which
line it is, but for their line numbers (`View.InLine.tokens_onLine`). So the tokens of a text are
those of its lines, each read by itself and then moved to where the line is
(`View.tokens_eq_flatMap_splitLines`).
-/

namespace MonkeyTokens

open Text

/-- The same column of another line. -/
def Position.onLine (k : Nat) (p : Position) : Position := { p with line := k }

/-- The same token in another line. -/
def Token.onLine (k : Nat) (t : Token) : Token := { t with position := t.position.onLine k }

namespace View

/-- The same characters in another line. -/
def onLine (k : Nat) (v : View) : View := { v with position := v.position.onLine k }

/-! ### In front of a blank -/

private theorem tokens_skip_blanks {v : View} {b cs : List Char} (hv : v.chars = b ++ cs)
    (blank : ∀ c ∈ b, isBlank c = true) : (v.skip b.length).tokens = v.tokens := by
  have hs : (v.skip b.length).skipBlanks = v.skipBlanks := by
    rw [skipBlanks, skipBlanks, chars_skip, hv, List.drop_left, List.takeWhile_append_of_pos blank,
      List.length_append, skip_add]
  by_cases h : v.skipBlanks.chars = []
  · rw [tokens_of_blank h, tokens_of_blank (hs ▸ h)]
  · rw [tokens_of_token h, tokens_of_token (hs ▸ h), hs]

/-- What comes behind the next character changes no position up to there. -/
theorem skip_append {cs : List Char} {n : Nat} (h : n < cs.length) (rest : List Char)
    (p : Position) :
    (View.mk (cs ++ rest) p).skip n = ⟨cs.drop n ++ rest, ((View.mk cs p).skip n).position⟩ := by
  induction n generalizing cs p with
  | zero => rfl
  | succ n ih =>
    match cs, h with
    | [_], h => simp at h
    | c :: d :: cs, h => exact ih (Nat.lt_of_succ_lt_succ h) (p.next (some c))

private theorem exists_skip_eq (front : List Char) {back : List Char} (h : back ≠ [])
    (rest : List Char) (p : Position) :
    ∃ q, (View.mk (front ++ back) p).skip front.length = ⟨back, q⟩ ∧
      (View.mk (front ++ back ++ rest) p).skip front.length = ⟨back ++ rest, q⟩ := by
  have hlen : front.length < (front ++ back).length := by
    have := List.length_pos_iff.mpr h
    rw [List.length_append]
    omega
  have hall := skip_append hlen rest p
  have hself := skip_eq front.length (View.mk (front ++ back) p)
  rw [List.drop_left] at hall hself
  exact ⟨_, hself, hall⟩

private theorem getLast?_behind {b w rest : List Char} {k : Kind} {c : Char}
    (hc : isBlank c = true) (lexeme : IsLexeme k w) (h : (b ++ w ++ rest).getLast? = some c) :
    rest.getLast? = some c := by
  by_cases hrest : rest = []
  · -- the last character would be both the blank and part of the lexeme
    rw [hrest, List.append_nil, List.getLast?_append_of_ne_nil _ lexeme.ne_nil] at h
    have hd := lexeme.isBlank_eq_false c (List.mem_of_getLast? h)
    rw [hc] at hd
    cases hd
  · rwa [List.getLast?_append_of_ne_nil _ hrest] at h

/-- The tokens up to a blank are those that are read if nothing comes behind it. -/
theorem tokens_append_blank {c : Char} (hc : isBlank c = true) {cs : List Char}
    (hcs : cs.getLast? = some c) (rest : List Char) (p : Position) :
    (View.mk (cs ++ rest) p).tokens = (View.mk cs p).tokens ++
      ((View.mk (cs ++ rest) p).skip cs.length).tokens := by
  generalize hv : View.mk cs p = v
  fun_induction tokens v generalizing cs p with
  | case1 v hb =>
    subst hv
    rw [chars_skipBlanks, List.dropWhile_eq_nil_iff] at hb
    exact (tokens_skip_blanks rfl hb).symm
  | case2 v d ds hb ih =>
    subst hv
    obtain ⟨b, w, more, k, hchars, blank, lexeme, stops⟩ :=
      exists_isLexeme (by rw [hb]; exact List.cons_ne_nil d ds)
    have ht := token_of_isLexeme hchars blank lexeme stops
    have hr := behind_of_isLexeme hchars blank lexeme stops
    obtain rfl : cs = b ++ w ++ more := hchars
    have hmore := getLast?_behind hc lexeme hcs
    have hne : more ≠ [] := by
      intro hnil
      rw [hnil] at hmore
      cases hmore
    obtain ⟨q, hself, hall⟩ := exists_skip_eq (b ++ w) hne rest p
    rw [List.length_append] at hself hall
    have hstops : ∀ d ∈ (more ++ rest).head?, k.absorbs d = false := by
      rwa [List.head?_append_of_ne_nil _ hne]
    have hlen : (b ++ w ++ more).length = b.length + w.length + more.length := by
      rw [List.length_append, List.length_append]
    have hstamp : b.length + k.stampOffset w.length < (b ++ w ++ more).length := by
      have := k.stampOffset_le w.length
      have := List.length_pos_iff.mpr hne
      omega
    have hend : (View.mk (b ++ w ++ more ++ rest) p).skip (b ++ w ++ more).length =
        (View.mk (more ++ rest) q).skip more.length := by
      rw [hlen, skip_add, hall]
    have htail := ih hmore q (by rw [hr, hself])
    rw [hr, hself] at htail
    rw [tokens_of_isLexeme (List.append_assoc _ _ _) blank lexeme hstops, ht, hr,
      skip_append hstamp, List.cons_append, hself, hall, hend, htail]

/-! ### In another line -/

/-- No character but the last one is a line feed, so that all of them are in one line. -/
def InLine (v : View) : Prop := '\n' ∉ v.chars.dropLast

private theorem inLine_of_notMem {v : View} (h : '\n' ∉ v.chars) : v.InLine := by
  intro hm
  exact h ((List.dropLast_sublist v.chars).subset hm)

private theorem inLine_of_concat {v : View} {w : List Char} (hv : v.chars = w ++ ['\n'])
    (h : '\n' ∉ w) : v.InLine := by
  rwa [InLine, hv, List.dropLast_concat]

private theorem InLine.skip {v : View} (h : v.InLine) (n : Nat) : (v.skip n).InLine := by
  have hd : (v.chars.drop n).dropLast = v.chars.dropLast.drop n := by
    rw [List.dropLast_eq_take, List.dropLast_eq_take, List.drop_take, List.length_drop,
      Nat.sub_right_comm]
  rw [InLine, chars_skip, hd]
  intro hm
  exact h (List.mem_of_mem_drop hm)

private theorem InLine.advance_onLine {v : View} (h : v.InLine) (k : Nat) :
    (v.onLine k).advance = v.advance.onLine k := by
  obtain ⟨cs, p⟩ := v
  match cs, h with
  | [], _ | [_], _ => rfl
  | c :: d :: cs, h =>
    have hc : some c ≠ some '\n' := by
      intro hc
      rw [Option.some.inj hc] at h
      exact h List.mem_cons_self
    simp only [onLine, advance, Position.next_of_ne hc]
    rfl

private theorem InLine.skip_onLine {v : View} (h : v.InLine) (k n : Nat) :
    (v.onLine k).skip n = (v.skip n).onLine k := by
  induction n generalizing v with
  | zero => rfl
  | succ n ih =>
    have ha : v.advance.InLine := h.skip 1
    rw [View.skip, h.advance_onLine, ih ha, View.skip]

private theorem InLine.skipBlanks_onLine {v : View} (h : v.InLine) (k : Nat) :
    (v.onLine k).skipBlanks = v.skipBlanks.onLine k :=
  h.skip_onLine k _

private theorem InLine.token_onLine {v : View} (h : v.InLine) (k : Nat) :
    (v.onLine k).token = v.token.onLine k := by
  have hx : lexeme (v.onLine k).chars = lexeme v.chars := rfl
  rw [token_of_lexeme hx, h.skip_onLine]
  rfl

/-- The tokens of a line are the same in every other line, but for their lines. -/
theorem InLine.tokens_onLine {v : View} (h : v.InLine) (k : Nat) :
    (v.onLine k).tokens = v.tokens.map (Token.onLine k) := by
  have hb := h.skipBlanks_onLine k
  fun_induction tokens v with
  | case1 v hn =>
    rw [tokens_of_blank, List.map_nil]
    rw [hb]
    exact hn
  | case2 v c cs hc ih =>
    have hblanks : v.skipBlanks.InLine := h.skip _
    have hrest : v.skipBlanks.behind.InLine := hblanks.skip _
    have hbehind : (v.skipBlanks.onLine k).behind = v.skipBlanks.behind.onLine k :=
      hblanks.skip_onLine k _
    have hne : (v.onLine k).skipBlanks.chars ≠ [] := by
      rw [hb]
      exact hc ▸ List.cons_ne_nil c cs
    rw [tokens_of_token hne, hb, hblanks.token_onLine, hbehind, List.map_cons]
    rw [ih hrest (hrest.skipBlanks_onLine k)]

private theorem InLine.line_eq {v : View} (h : v.InLine) :
    ∀ t ∈ v.tokens, t.position.line = v.position.line := by
  intro t ht
  have hself : v.onLine v.position.line = v := rfl
  rw [← hself, h.tokens_onLine] at ht
  obtain ⟨u, -, rfl⟩ := List.mem_map.mp ht
  rfl

/-- Read by itself, a line is the first one. -/
theorem InLine.line_ofChars {cs : List Char} (h : (ofChars cs).InLine) :
    ∀ t ∈ (ofChars cs).tokens, t.position.line = 1 := by
  intro t ht
  rw [h.line_eq t ht, ofChars]
  split <;> rfl

/-! ### Line by line -/

private theorem skip_line {w rest : List Char} (hw : '\n' ∉ w) (hrest : rest ≠ []) (p : Position) :
    (View.mk (w ++ ['\n'] ++ rest) p).skip (w ++ ['\n']).length = ⟨rest, p.nextLine⟩ := by
  have hin : (View.mk (w ++ ['\n']) p).InLine := inLine_of_concat rfl hw
  obtain ⟨q, hself, hall⟩ := exists_skip_eq w (List.cons_ne_nil '\n' []) rest p
  have hline : q.line = p.line := by
    have h := hin.skip_onLine p.line w.length
    have hp : (View.mk (w ++ ['\n']) p).onLine p.line = ⟨w ++ ['\n'], p⟩ := rfl
    rw [hp, hself] at h
    exact congrArg (fun v ↦ v.position.line) h
  have hq : q.next (some '\n') = p.nextLine := by
    rw [Position.next, if_pos rfl, Position.nextLine, hline, Position.nextLine]
  obtain ⟨d, ds, rfl⟩ := List.exists_cons_of_ne_nil hrest
  rw [List.length_append, skip_add, hall]
  exact congrArg (View.mk (d :: ds)) hq

private theorem onLine_ofChars {w : List Char} (ne : w ≠ []) (k : Nat) :
    View.mk w ⟨k, 1⟩ = (ofChars w).onLine k := by
  rw [ofChars, if_neg ne]
  rfl

/-- The tokens of a text are those of its lines, each in the line that it was read from. -/
theorem tokens_eq_flatMap_splitLines {cs : List Char} {k : Nat}
    (h : k + cs.length ≤ Position.limit + 1) :
    (View.mk cs ⟨k, 1⟩).tokens = ((splitLines cs).zipIdx k).flatMap fun line ↦
      (ofChars line.1).tokens.map (Token.onLine line.2) := by
  induction cs using splitLines_induction generalizing k with
  | nil => exact tokens_of_blank rfl
  | last w ne hw =>
    have hin : (ofChars w).InLine := inLine_of_notMem hw
    rw [splitLines_of_notMem ne hw, onLine_ofChars ne, hin.tokens_onLine]
    simp
  | line w rest hw ih =>
    have hin : (ofChars (w ++ ['\n'])).InLine := inLine_of_concat rfl hw
    have hcons : w ++ '\n' :: rest = w ++ ['\n'] ++ rest := by simp
    have hbehind : ((View.mk (w ++ ['\n'] ++ rest) ⟨k, 1⟩).skip (w ++ ['\n']).length).tokens =
        ((splitLines rest).zipIdx (k + 1)).flatMap fun line ↦
          (ofChars line.1).tokens.map (Token.onLine line.2) := by
      by_cases hrest : rest = []
      · subst hrest
        apply tokens_of_blank
        simp [chars_skipBlanks]
      · have hpos := List.length_pos_iff.mpr hrest
        have hlen : k + (w ++ '\n' :: rest).length = k + 1 + w.length + rest.length := by
          rw [List.length_append, List.length_cons]
          omega
        have hline : min (k + 1) Position.limit = k + 1 := by omega
        rw [skip_line hw hrest, Position.nextLine]
        simp only [hline]
        exact ih (by omega)
    rw [splitLines_append_feed hw, List.zipIdx_cons, List.flatMap_cons, hcons,
      tokens_append_blank (by decide) List.getLast?_concat, onLine_ofChars (by simp),
      hin.tokens_onLine, hbehind]

/-- Read by itself, every line is the first one. -/
theorem line_of_mem_splitLines {cs w : List Char} (hw : w ∈ splitLines cs) :
    ∀ t ∈ (ofChars w).tokens, t.position.line = 1 := by
  have hin : (ofChars w).InLine := by
    induction cs using splitLines_induction with
    | nil => cases hw
    | last u ne hu =>
      rw [splitLines_of_notMem ne hu] at hw
      obtain rfl := List.mem_singleton.mp hw
      exact inLine_of_notMem hu
    | line u rest hu ih =>
      rw [splitLines_append_feed hu] at hw
      rcases List.mem_cons.mp hw with rfl | hw
      · exact inLine_of_concat rfl hu
      · exact ih hw
  exact hin.line_ofChars

end View
end MonkeyTokens
