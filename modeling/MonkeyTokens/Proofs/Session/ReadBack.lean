import Mathlib.Data.List.Nodup
import MonkeyTokens.Proofs.Session.AllAtOnce

/-!
# Tokens told from what is printed

The printed form of a token tells the token (`Token.render_inj`), though its literal is printed as
it is and may hold whatever stands around it: the name of the kind goes up to the first blank, and
line and column are the digits behind the last two colons. As no token of a text has a line feed in
it, what is written for a whole input is cut into its lines in one way only, and tells all tokens
(`Session.stored_eq_iff`).
-/

namespace MonkeyTokens

open Text

/-! ### Cutting at a separator -/

private theorem Text.append_inj_of_first {c : Char} (sep : List Char) (starts : sep.head? = some c)
    {front front' back back' : List Char} (h : c ∉ front) (h' : c ∉ front')
    (eq : front ++ sep ++ back = front' ++ sep ++ back') : front = front' ∧ back = back' := by
  have hfront : front = front' := by
    obtain ⟨rest, rfl⟩ := List.head?_eq_some_iff.mp starts
    rw [List.append_assoc, List.append_assoc, List.cons_append, List.cons_append] at eq
    rcases List.append_eq_append_iff.mp eq with ⟨more, hmore, hsep⟩ | ⟨more, hmore, hsep⟩
    all_goals cases more with
    | nil => simp [hmore]
    | cons d more =>
      obtain rfl : c = d := (List.cons.inj hsep).1
      simp [hmore] at h h'
  rw [hfront] at eq
  exact ⟨hfront, List.append_cancel_left eq⟩

private theorem Text.append_inj_of_last {c : Char} (sep : List Char) (ends : sep.getLast? = some c)
    {front front' back back' : List Char} (h : c ∉ back) (h' : c ∉ back')
    (eq : front ++ sep ++ back = front' ++ sep ++ back') : front = front' ∧ back = back' := by
  have hreverse := congrArg List.reverse eq
  simp only [List.reverse_append, ← List.append_assoc] at hreverse
  have hcut := append_inj_of_first sep.reverse (by rwa [List.head?_reverse]) (by simpa using h)
    (by simpa using h') hreverse
  exact ⟨List.reverse_inj.mp hcut.2, List.reverse_inj.mp hcut.1⟩

/-! ### Printed tokens -/

/-- All kinds. -/
def Kind.all : List Kind :=
  [.illegal, .endOfText, .identifier, .integer, .float, .symbol .assignment, .symbol .plus,
    .symbol .minus, .symbol .bang, .symbol .slash, .symbol .asterisk, .symbol .lessThan,
    .symbol .greaterThan, .symbol .equals, .symbol .notEquals, .symbol .comma, .symbol .semicolon,
    .symbol .openParen, .symbol .closeParen, .symbol .openCurly, .symbol .closeCurly,
    .keyword .functionWord, .keyword .letWord, .keyword .trueWord, .keyword .falseWord,
    .keyword .ifWord, .keyword .elseWord, .keyword .returnWord]

private theorem Kind.mem_all (k : Kind) : k ∈ all := by
  cases k with
  | symbol s => cases s <;> decide
  | keyword k => cases k <;> decide
  | _ => decide

private theorem Kind.name_inj {k l : Kind} : k.name = l.name ↔ k = l := by
  constructor
  · intro h
    have hnames : (all.map name).Nodup := by decide
    exact List.inj_on_of_nodup_map hnames k.mem_all l.mem_all h
  · rintro rfl
    rfl

private theorem Kind.blank_notMem_name (k : Kind) : ' ' ∉ k.name.toList := by
  have hall : ∀ l ∈ all, ' ' ∉ l.name.toList := by decide
  exact hall k k.mem_all

private theorem colon_notMem_repr (n : Nat) : ':' ∉ n.repr.toList := by
  intro h
  rw [Nat.toList_repr] at h
  exact absurd (Nat.isDigit_of_mem_toDigits (by decide) (by decide) h) (by decide)

private theorem eq_of_toList_repr {m n : Nat} (h : m.repr.toList = n.repr.toList) : m = n := by
  rw [Nat.toList_repr, Nat.toList_repr] at h
  calc m
    _ = Nat.ofDigitChars 10 (Nat.toDigits 10 m) 0 :=
      (Nat.ofDigitChars_toDigits (by decide) (by decide)).symm
    _ = Nat.ofDigitChars 10 (Nat.toDigits 10 n) 0 := by rw [h]
    _ = n := Nat.ofDigitChars_toDigits (by decide) (by decide)

private theorem Token.toList_render (t : Token) :
    t.render.toList = "\x7bType:".toList ++ t.kind.name.toList ++ " Literal:".toList ++
      t.literal.toList ++ " Line:".toList ++ t.position.line.repr.toList ++ " Column:".toList ++
      t.position.column.repr.toList ++ "\x7d".toList := by
  unfold render
  simp only [String.toList_append, Nat.toString_eq_repr]

/-- Tokens that are printed alike are the same. -/
theorem Token.render_inj {t u : Token} : t.render = u.render ↔ t = u := by
  constructor
  · intro h
    have hparts := congrArg String.toList h
    rw [toList_render, toList_render] at hparts
    -- from behind up to the literal, then from the front
    obtain ⟨hparts, hcolumn⟩ := append_inj_of_last " Column:".toList (by decide)
      (colon_notMem_repr _) (colon_notMem_repr _) (List.append_cancel_right hparts)
    obtain ⟨hparts, hline⟩ := append_inj_of_last " Line:".toList (by decide)
      (colon_notMem_repr _) (colon_notMem_repr _) hparts
    simp only [List.append_assoc] at hparts
    have hparts := List.append_cancel_left hparts
    simp only [← List.append_assoc] at hparts
    obtain ⟨hname, hliteral⟩ := append_inj_of_first " Literal:".toList (by decide)
      t.kind.blank_notMem_name u.kind.blank_notMem_name hparts
    have hkind : t.kind = u.kind := Kind.name_inj.mp (String.toList_inj.mp hname)
    calc t
      _ = ⟨t.kind, t.literal, ⟨t.position.line, t.position.column⟩⟩ := rfl
      _ = ⟨u.kind, u.literal, ⟨u.position.line, u.position.column⟩⟩ := by
        rw [hkind, String.toList_inj.mp hliteral, eq_of_toList_repr hline,
          eq_of_toList_repr hcolumn]
      _ = u := rfl
  · rintro rfl
    rfl

namespace Session

/-! ### Printed sessions -/

private theorem renderLines_inj {ts us : List Token} (hts : ∀ t ∈ ts, '\n' ∉ t.literal.toList)
    (hus : ∀ u ∈ us, '\n' ∉ u.literal.toList) : renderLines ts = renderLines us ↔ ts = us := by
  constructor
  · intro h
    have hlines := splitLines_renderLines hts
    rw [h, splitLines_renderLines hus] at hlines
    refine List.map_injective_iff.mpr ?_ hlines.symm
    intro t u htu
    have hline : t.render ++ "\n" = u.render ++ "\n" := String.toList_inj.mp htu
    exact Token.render_inj.mp ((String.append_left_inj "\n").mp hline)
  · rintro rfl
    rfl

/-- The tokens of a whole input. -/
def tokens (r : Reader) : List Token := (Lexer.ofSource ({ reader := r } : Decoder)).collect.1

private theorem tokens_eq {r : Reader} {cs : List Char} (h : Decodes r.delivery.bytes cs) :
    tokens r = (View.ofChars cs).tokens := (Lexer.drain_ofReader r h).1

private theorem feed_notMem_tokens (r : Reader) : ∀ t ∈ tokens r, '\n' ∉ t.literal.toList := by
  obtain ⟨cs, hcs⟩ := Decodes.exists r.delivery.bytes
  rw [tokens_eq hcs]
  exact View.feed_notMem_literal _

private theorem stored_allAtOnce (r : Reader) :
    ((allAtOnce r).carryOut {}).progress.sink.stored = (renderLines (tokens r)).toUTF8 := by
  obtain ⟨cs, hcs⟩ := Decodes.exists r.delivery.bytes
  have hrun := (allAtOnce r).carryOut_of_unfailing Sink.unfailing_default
  rw [hrun.2, (allAtOnce_eq r hcs).1, tokens_eq hcs]
  exact ByteArray.empty_append

/-- What is printed tells what it was printed for. The printed form of a token tells the token,
whatever its literal holds. What a session writes for a whole input, on a sink that does not fail,
is put together from the lines of just one list of tokens with no line feed in them, which is that
of the tokens of the input. So two inputs have the same written for them exactly if they have the
same tokens, positions included. -/
theorem stored_eq_iff (r s : Reader) :
    let stored (r : Reader) := ((allAtOnce r).carryOut {}).progress.sink.stored
    (∀ t u : Token, t.render = u.render ↔ t = u) ∧
      (∀ ts : List Token, (stored r = (renderLines ts).toUTF8 ∧
        ∀ t ∈ ts, '\n' ∉ t.literal.toList) ↔ ts = tokens r) ∧
      (stored r = stored s ↔ tokens r = tokens s) := by
  intro stored
  have hlines (ts : List Token) (hts : ∀ t ∈ ts, '\n' ∉ t.literal.toList) :
      stored r = (renderLines ts).toUTF8 ↔ tokens r = ts := by
    rw [← renderLines_inj (feed_notMem_tokens r) hts, ← String.toByteArray_inj]
    simp only [stored, stored_allAtOnce, String.toUTF8_eq_toByteArray]
  refine ⟨fun t u ↦ Token.render_inj, ?_, ?_⟩
  · intro ts
    constructor
    · rintro ⟨hstored, hts⟩
      exact ((hlines ts hts).mp hstored).symm
    · rintro rfl
      exact ⟨stored_allAtOnce r, feed_notMem_tokens r⟩
  · rw [← hlines _ (feed_notMem_tokens s)]
    exact Iff.of_eq (congrArg (stored r = ·) (stored_allAtOnce s))

end Session
end MonkeyTokens
