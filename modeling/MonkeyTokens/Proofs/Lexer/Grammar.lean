import Mathlib.Data.List.TakeWhile
import MonkeyTokens.Proofs.Lexer.View

/-!
# The grammar of tokens

`IsLexeme k w` says that the characters `w` make one token of kind `k`, without a word on how
they are read; which words are reserved, and for which keywords, is spelled out (`WordKind`). A text
is spelled by its tokens (`Spells`) if it is made of their characters with blanks between them,
where no token stops in front of a character that it would take in (`Kind.absorbs_iff`). Every text
is spelled by the tokens that are read from it, and by no other list (`tokenize_spells`).
-/

namespace MonkeyTokens

open Text

/-- The kind of a word: eight words are reserved, and every other one is an identifier. -/
inductive WordKind : String → Kind → Prop where
  | reserved {word : String} {k : Keyword}
      (listed : (word, k) ∈ [("else", .elseWord), ("false", .falseWord), ("fn", .functionWord),
        ("function", .functionWord), ("if", .ifWord), ("let", .letWord), ("return", .returnWord),
        ("true", .trueWord)]) : WordKind word (.keyword k)
  | identifier {word : String}
      (free : word ∉ ["else", "false", "fn", "function", "if", "let", "return", "true"]) :
      WordKind word .identifier

/-- The characters make one token of this kind. -/
inductive IsLexeme : Kind → List Char → Prop where
  | word {w : List Char} {k : Kind} (ne : w ≠ []) (letters : ∀ c ∈ w, c.isAlpha ∨ c = '_')
      (kind : WordKind (String.ofList w) k) : IsLexeme k w
  | integer {w : List Char} (ne : w ≠ []) (digits : ∀ c ∈ w, c.isDigit) : IsLexeme .integer w
  | float {w v : List Char} (ne : w ≠ []) (whole : ∀ c ∈ w, c.isDigit)
      (places : ∀ c ∈ v, c.isDigit) : IsLexeme .float (w ++ '.' :: v)
  | symbol (s : Symbol) : IsLexeme (.symbol s) s.text.toList
  | illegal {c : Char} (blank : c ∉ [' ', '\t', '\n', '\r']) (letter : ¬ (c.isAlpha ∨ c = '_'))
      (digit : ¬ c.isDigit) (other : ∀ s : Symbol, s.text ≠ String.singleton c) :
      IsLexeme .illegal [c]

/-- Whether a token of this kind goes on where this character comes behind it. -/
def Kind.absorbs : Kind → Char → Bool
  | .identifier, c | .keyword _, c => isLetter c
  | .integer, c => isDigit c || c == '.'
  | .float, c => isDigit c
  | .symbol .assignment, c | .symbol .bang, c => c == '='
  | _, _ => false

/-- What a token is but for its position. -/
def Token.bare (t : Token) : Kind × String := (t.kind, t.literal)

/-- A list of characters is made of these tokens, with blanks in front of them, between them and
behind them; right behind a token comes nothing that it would absorb. -/
inductive Spells : List (Kind × String) → List Char → Prop where
  | done {b : List Char} (blank : ∀ c ∈ b, c ∈ [' ', '\t', '\n', '\r']) : Spells [] b
  | more {b w rest : List Char} {k : Kind} {ts : List (Kind × String)}
      (blank : ∀ c ∈ b, c ∈ [' ', '\t', '\n', '\r']) (lexeme : IsLexeme k w)
      (stops : ∀ c ∈ rest.head?, k.absorbs c = false) (behind : Spells ts rest) :
      Spells ((k, String.ofList w) :: ts) (b ++ w ++ rest)

/-! ### Classes of characters -/

/-- Characters that are blanks, one by one. -/
theorem forall_isBlank_iff {b : List Char} :
    (∀ c ∈ b, isBlank c = true) ↔ ∀ c ∈ b, c ∈ [' ', '\t', '\n', '\r'] :=
  forall₂_congr fun _ _ ↦ isBlank_iff

private theorem isLetter_iff_code {c : Char} :
    isLetter c = true ↔ (65 ≤ c.val.toNat ∧ c.val.toNat ≤ 90) ∨
      (97 ≤ c.val.toNat ∧ c.val.toNat ≤ 122) ∨ c = '_' := by
  have hc : isLetter c = (decide (65 ≤ c.val ∧ c.val ≤ 90) ||
      (decide (97 ≤ c.val) && decide (c.val ≤ 122)) || c == '_') := rfl
  simp only [hc, Bool.or_eq_true, Bool.and_eq_true, decide_eq_true_eq, beq_iff_eq,
    UInt32.le_iff_toNat_le, or_assoc]
  rfl

private theorem isDigit_iff_code {c : Char} :
    isDigit c = true ↔ 48 ≤ c.val.toNat ∧ c.val.toNat ≤ 57 := by
  have hc : isDigit c = (decide (48 ≤ c.val) && decide (c.val ≤ 57)) := rfl
  simp only [hc, Bool.and_eq_true, decide_eq_true_eq, UInt32.le_iff_toNat_le]
  rfl

private theorem isDigit_eq_false_of_isLetter {c : Char} (h : isLetter c = true) :
    isDigit c = false := by
  cases hd : isDigit c with
  | false => rfl
  | true =>
    rw [isDigit_iff_code] at hd
    rcases isLetter_iff_code.mp h with hl | hl | rfl
    · omega
    · omega
    · exact absurd hd (by decide)

private theorem isBlank_eq_false_of_isLetter {c : Char} (h : isLetter c = true) :
    isBlank c = false := by
  cases hb : isBlank c with
  | false => rfl
  | true =>
    simp only [isBlank, Bool.or_eq_true, beq_iff_eq] at hb
    rcases hb with ((rfl | rfl) | rfl) | rfl <;> simp [isLetter] at h

private theorem isBlank_eq_false_of_isDigit {c : Char} (h : isDigit c = true) :
    isBlank c = false := by
  cases hb : isBlank c with
  | false => rfl
  | true =>
    simp only [isBlank, Bool.or_eq_true, beq_iff_eq] at hb
    rcases hb with ((rfl | rfl) | rfl) | rfl <;> simp [isDigit] at h

private theorem classes_of_ofChar? {c : Char} {s : Symbol} (h : Symbol.ofChar? c = some s) :
    isBlank c = false ∧ isLetter c = false ∧ isDigit c = false := by
  unfold Symbol.ofChar? at h
  split at h <;> cases h <;> decide

private theorem symbol_cases (s : Symbol) :
    (∃ c, Symbol.ofChar? c = some s ∧ s.text = String.ofList [c]) ∨
      ∃ c t, Symbol.ofChar? c = some t ∧ t.withEquals? = some s ∧
        s.text = String.ofList [c, '='] := by
  cases s with
  | equals => exact .inr ⟨'=', .assignment, rfl, rfl, rfl⟩
  | notEquals => exact .inr ⟨'!', .bang, rfl, rfl, rfl⟩
  | _ => exact .inl ⟨_, rfl, rfl⟩

private theorem ofChar?_eq_none_iff {c : Char} :
    Symbol.ofChar? c = none ↔ ∀ s : Symbol, s.text ≠ String.singleton c := by
  constructor
  · intro hn s hs
    rw [String.singleton_eq_ofList] at hs
    rcases symbol_cases s with ⟨d, hd, ht⟩ | ⟨d, t, -, -, ht⟩
    · have hdc := String.ofList_inj.mp (ht.symm.trans hs)
      obtain rfl : d = c := List.singleton_inj.mp hdc
      rw [hn] at hd
      cases hd
    · have hdc := String.ofList_inj.mp (ht.symm.trans hs)
      simp at hdc
  · intro hs
    cases hc : Symbol.ofChar? c with
    | none => rfl
    | some s => exact absurd (Symbol.text_of_ofChar? hc) (hs s)

/-- Looking a word up among the reserved ones finds its kind. -/
theorem wordKind_iff {word : String} {k : Kind} : WordKind word k ↔ Kind.ofWord word = k := by
  have hnames : ["else", "false", "fn", "function", "if", "let", "return", "true"] =
      Keyword.reserved.map Prod.fst := rfl
  constructor
  · intro h
    cases h with
    | reserved listed =>
      rw [Kind.ofWord, Keyword.ofWord?_eq_some_iff.mpr listed]
      rfl
    | identifier free =>
      have hnone : Keyword.ofWord? word = none := by
        rw [Option.eq_none_iff_forall_ne_some]
        intro k hk
        rw [hnames] at free
        exact free (List.mem_map_of_mem (Keyword.ofWord?_eq_some_iff.mp hk))
      rw [Kind.ofWord, hnone]
      rfl
  · rintro rfl
    unfold Kind.ofWord
    cases hword : Keyword.ofWord? word with
    | some k => exact .reserved (Keyword.ofWord?_eq_some_iff.mp hword)
    | none =>
      apply WordKind.identifier
      rw [hnames]
      intro hlisted
      obtain ⟨⟨_, k⟩, hk, rfl⟩ := List.mem_map.mp hlisted
      rw [Keyword.ofWord?_eq_some_iff.mpr hk] at hword
      cases hword

private theorem absorbs_ofWord (word : String) (c : Char) :
    (Kind.ofWord word).absorbs c = isLetter c := by
  unfold Kind.ofWord
  cases Keyword.ofWord? word <;> rfl

private theorem absorbs_of_withEquals? {s : Symbol} (h : s.withEquals? = none) (c : Char) :
    (Kind.symbol s).absorbs c = false := by
  cases s <;> first | rfl | cases h

private theorem absorbs_of_withEquals?_eq_some {s t : Symbol} (h : s.withEquals? = some t)
    (c : Char) : (Kind.symbol s).absorbs c = (c == '=') ∧ (Kind.symbol t).absorbs c = false := by
  cases s <;> cases h <;> exact ⟨rfl, rfl⟩

private theorem ofChar_of_symbol {c : Char} {s : Symbol} (h : Symbol.ofChar? c = some s) :
    Kind.ofChar c = .symbol s := by
  rw [Kind.ofChar, h]
  rfl

/-! ### Reading a lexeme -/

private theorem takeWhile_run {p : Char → Bool} {w rest : List Char} (hw : ∀ c ∈ w, p c = true)
    (hr : ∀ c ∈ rest.head?, p c = false) : (w ++ rest).takeWhile p = w := by
  rw [List.takeWhile_append_of_pos hw]
  cases rest with
  | nil => simp
  | cons c cs => simp [hr c (by simp)]

private theorem dropWhile_run {p : Char → Bool} {w rest : List Char} (hw : ∀ c ∈ w, p c = true)
    (hr : ∀ c ∈ rest.head?, p c = false) : (w ++ rest).dropWhile p = rest := by
  rw [List.dropWhile_append_of_pos hw]
  cases rest with
  | nil => rfl
  | cons c cs => simp [hr c (by simp)]

private theorem head?_dropWhile_run (p : Char → Bool) (cs : List Char) :
    ∀ c ∈ (cs.dropWhile p).head?, p c = false := by
  intro c hc
  have h := List.head?_dropWhile_not p cs
  rw [Option.mem_def] at hc
  rwa [hc] at h

private theorem lexeme_of_digits {w rest : List Char} (ne : w ≠ [])
    (hw : ∀ c ∈ w, isDigit c = true) : View.lexeme (w ++ rest) = View.number (w ++ rest) := by
  obtain ⟨c, cs, rfl⟩ := List.exists_cons_of_ne_nil ne
  have hd := hw c List.mem_cons_self
  have hl : ¬ isLetter c = true := by
    intro hl
    rw [isDigit_eq_false_of_isLetter hl] at hd
    cases hd
  rw [List.cons_append, View.lexeme, if_neg hl, if_pos hd]

private theorem lexeme_of_symbol {c : Char} {rest : List Char} (hl : isLetter c = false)
    (hd : isDigit c = false) : View.lexeme (c :: rest) = View.symbol c rest := by
  rw [View.lexeme, if_neg (by simp [hl]), if_neg (by simp [hd])]

private theorem IsLexeme.lexeme_append {k : Kind} {w : List Char} (h : IsLexeme k w)
    {rest : List Char}
    (stops : ∀ c ∈ rest.head?, k.absorbs c = false) : View.lexeme (w ++ rest) = (k, w) := by
  cases h with
  | word ne letters kind =>
    obtain rfl := wordKind_iff.mp kind
    have hletters : ∀ c ∈ w, isLetter c = true := fun c hc ↦ isLetter_iff.mpr (letters c hc)
    have hw : (w ++ rest).takeWhile isLetter = w := by
      apply takeWhile_run hletters
      intro c hc
      rw [← stops c hc, absorbs_ofWord]
    obtain ⟨c, cs, rfl⟩ := List.exists_cons_of_ne_nil ne
    rw [List.cons_append] at hw ⊢
    rw [View.lexeme, if_pos (hletters c List.mem_cons_self), hw]
  | integer ne digits =>
    have hr : ∀ c ∈ rest.head?, isDigit c = false ∧ c ≠ '.' := by
      intro c hc
      simpa [Kind.absorbs] using stops c hc
    have hd : (w ++ rest).dropWhile isDigit = rest :=
      dropWhile_run digits fun c hc ↦ (hr c hc).1
    have ht : (w ++ rest).takeWhile isDigit = w :=
      takeWhile_run digits fun c hc ↦ (hr c hc).1
    rw [lexeme_of_digits ne digits, View.number_of_ne, ht]
    rw [hd]
    intro hdot
    exact (hr '.' hdot).2 rfl
  | @float w v ne whole places =>
    have hdot : ∀ c ∈ ('.' :: (v ++ rest)).head?, isDigit c = false := by
      intro c hc
      obtain rfl : '.' = c := by simpa using hc
      decide
    have hw : (w ++ '.' :: (v ++ rest)).takeWhile isDigit = w := takeWhile_run whole hdot
    have hv : (v ++ rest).takeWhile isDigit = v := takeWhile_run places stops
    rw [List.append_assoc, List.cons_append, lexeme_of_digits ne whole,
      View.number_of_dot (dropWhile_run whole hdot), hw, hv]
  | symbol s =>
    rcases symbol_cases s with ⟨c, hc, ht⟩ | ⟨c, t, hc, hs, ht⟩
    · obtain ⟨-, hl, hd⟩ := classes_of_ofChar? hc
      rw [ht, String.toList_ofList, List.singleton_append, lexeme_of_symbol hl hd, View.symbol, hc,
        ofChar_of_symbol hc, Option.bind_some]
      split
      · rfl
      · next double hs =>
        rw [if_neg]
        intro he
        have ha := (absorbs_of_withEquals?_eq_some hs '=').1
        rw [stops '=' he] at ha
        cases ha
    · obtain ⟨-, hl, hd⟩ := classes_of_ofChar? hc
      rw [ht, String.toList_ofList, List.cons_append, lexeme_of_symbol hl hd, View.symbol, hc,
        Option.bind_some, hs]
      rfl
  | @illegal c blank letter digit other =>
    have hn := ofChar?_eq_none_iff.mpr other
    have hl : isLetter c = false := by simpa [isLetter] using letter
    have hd : isDigit c = false := by simpa [isDigit] using digit
    rw [List.singleton_append, lexeme_of_symbol hl hd, View.symbol, Kind.ofChar, hn]
    rfl

/-- What is read off a list that starts with no blank: the list, cut behind a lexeme that takes
in as much of it as it can. -/
private def Cut (cs : List Char) (x : Kind × List Char) : Prop :=
  IsLexeme x.1 x.2 ∧ ∃ rest, cs = x.2 ++ rest ∧ ∀ c ∈ rest.head?, x.1.absorbs c = false

private theorem cut_number {c : Char} {cs : List Char} (hd : isDigit c = true) :
    Cut (c :: cs) (View.number (c :: cs)) := by
  have ne : (c :: cs).takeWhile isDigit ≠ [] := by simp [hd]
  have hw : ∀ d ∈ (c :: cs).takeWhile isDigit, isDigit d = true :=
    fun _ ↦ List.mem_takeWhile_imp
  have hcs := List.takeWhile_append_dropWhile (p := isDigit) (l := c :: cs)
  by_cases hdot : ((c :: cs).dropWhile isDigit).head? = some '.'
  · obtain ⟨rest, hr⟩ := List.head?_eq_some_iff.mp hdot
    rw [View.number_of_dot hr]
    refine ⟨.float ne hw (fun _ ↦ List.mem_takeWhile_imp), rest.dropWhile isDigit, ?_,
      head?_dropWhile_run isDigit rest⟩
    simp only [List.append_assoc, List.cons_append, List.takeWhile_append_dropWhile]
    rw [← hr, hcs]
  · rw [View.number_of_ne hdot]
    refine ⟨.integer ne hw, (c :: cs).dropWhile isDigit, hcs.symm, ?_⟩
    intro d hmem
    have hnd := head?_dropWhile_run isDigit (c :: cs) d hmem
    have hne : d ≠ '.' := by
      rintro rfl
      exact hdot hmem
    simp [Kind.absorbs, hnd, hne]

private theorem cut_symbol {c : Char} {cs : List Char} (hb : isBlank c = false)
    (hl : isLetter c = false) (hd : isDigit c = false) :
    Cut (c :: cs) (View.symbol c cs) := by
  unfold View.symbol
  cases hc : Symbol.ofChar? c with
  | none =>
    rw [Kind.ofChar, hc]
    have hblank : c ∉ [' ', '\t', '\n', '\r'] := by simpa [isBlank, and_assoc] using hb
    have hletter : ¬ (c.isAlpha ∨ c = '_') := by simpa [isLetter] using hl
    have hdigit : ¬ c.isDigit := by simpa [isDigit] using hd
    exact ⟨.illegal hblank hletter hdigit (ofChar?_eq_none_iff.mp hc), cs, rfl, fun _ _ ↦ rfl⟩
  | some s =>
    have ht : [c] = s.text.toList := by
      rw [Symbol.text_of_ofChar? hc, String.toList_singleton]
    have hx : IsLexeme (.symbol s) [c] := ht ▸ .symbol s
    rw [Option.bind_some, ofChar_of_symbol hc]
    cases hs : s.withEquals? with
    | none => exact ⟨hx, cs, rfl, fun d _ ↦ absorbs_of_withEquals? hs d⟩
    | some double =>
      obtain ⟨ha, hdouble⟩ : (∀ d, (Kind.symbol s).absorbs d = (d == '=')) ∧
          ∀ d, (Kind.symbol double).absorbs d = false :=
        ⟨fun d ↦ (absorbs_of_withEquals?_eq_some hs d).1,
          fun d ↦ (absorbs_of_withEquals?_eq_some hs d).2⟩
      by_cases he : cs.head? = some '='
      · obtain ⟨rest, rfl⟩ := List.head?_eq_some_iff.mp he
        have htt : [c, '='] = double.text.toList := by
          rw [Symbol.text_of_withEquals? hs, String.toList_append, ← ht]
          rfl
        exact ⟨htt ▸ .symbol double, rest, rfl, fun d _ ↦ hdouble d⟩
      · simp only [if_neg he]
        refine ⟨hx, cs, rfl, ?_⟩
        intro d hmem
        rw [ha, beq_eq_false_iff_ne]
        rintro rfl
        exact he hmem

private theorem cut_lexeme {c : Char} (hb : isBlank c = false) (cs : List Char) :
    Cut (c :: cs) (View.lexeme (c :: cs)) := by
  rw [View.lexeme]
  split
  · next hl =>
    have ne : (c :: cs).takeWhile isLetter ≠ [] := by simp [hl]
    have hletters : ∀ d ∈ (c :: cs).takeWhile isLetter, d.isAlpha ∨ d = '_' := by
      intro d hmem
      exact isLetter_iff.mp (List.mem_takeWhile_imp hmem)
    refine ⟨.word ne hletters (wordKind_iff.mpr rfl), (c :: cs).dropWhile isLetter,
      List.takeWhile_append_dropWhile.symm, ?_⟩
    intro d hmem
    rw [absorbs_ofWord]
    exact head?_dropWhile_run isLetter _ d hmem
  · next hl =>
    split
    · next hd => exact cut_number hd
    · next hd => exact cut_symbol hb (by simpa using hl) (by simpa using hd)

/-- No lexeme is empty. -/
theorem IsLexeme.ne_nil {k : Kind} {w : List Char} (h : IsLexeme k w) : w ≠ [] := by
  cases h with
  | word ne | integer ne => exact ne
  | float => simp
  | symbol s => cases s <;> decide
  | illegal => simp

/-- There is no blank in a lexeme. -/
theorem IsLexeme.isBlank_eq_false {k : Kind} {w : List Char} (h : IsLexeme k w) :
    ∀ c ∈ w, isBlank c = false := by
  intro c hc
  cases h with
  | word _ letters => exact isBlank_eq_false_of_isLetter (isLetter_iff.mpr (letters c hc))
  | integer _ digits => exact isBlank_eq_false_of_isDigit (digits c hc)
  | float _ whole places =>
    rcases List.mem_append.mp hc with hc | hc
    · exact isBlank_eq_false_of_isDigit (whole c hc)
    · rcases List.mem_cons.mp hc with rfl | hc
      · decide
      · exact isBlank_eq_false_of_isDigit (places c hc)
  | symbol s =>
    rcases symbol_cases s with ⟨d, hd, ht⟩ | ⟨d, t, hd, -, ht⟩
    · rw [ht, String.toList_ofList, List.mem_singleton] at hc
      rw [hc]
      exact (classes_of_ofChar? hd).1
    · rw [ht, String.toList_ofList, List.mem_cons, List.mem_singleton] at hc
      rcases hc with rfl | rfl
      · exact (classes_of_ofChar? hd).1
      · decide
  | illegal blank =>
    rw [List.mem_singleton.mp hc]
    simpa [isBlank, and_assoc] using blank

/-- A lexeme has a first character, which is no blank. -/
theorem IsLexeme.exists_cons {k : Kind} {w : List Char} (h : IsLexeme k w) :
    ∃ c cs, w = c :: cs ∧ isBlank c = false := by
  obtain ⟨c, cs, rfl⟩ := List.exists_cons_of_ne_nil h.ne_nil
  exact ⟨c, cs, rfl, h.isBlank_eq_false c List.mem_cons_self⟩

private theorem IsLexeme.ne_endOfText {k : Kind} {w : List Char} (h : IsLexeme k w) :
    k ≠ .endOfText := by
  rintro rfl
  cases h with
  | word _ _ kind => exact Kind.ofWord_ne_endOfText _ (wordKind_iff.mp kind)

/-- A token absorbs a character exactly if with it, and maybe with more behind it, its characters
are still those of one token. -/
theorem Kind.absorbs_iff {k : Kind} {w : List Char} (h : IsLexeme k w) (c : Char) :
    k.absorbs c = true ↔ ∃ l v, IsLexeme l (w ++ c :: v) := by
  constructor
  · intro ha
    cases h with
    | word ne letters kind =>
      obtain rfl := wordKind_iff.mp kind
      rw [absorbs_ofWord, isLetter_iff] at ha
      have hletters : ∀ d ∈ w ++ [c], d.isAlpha ∨ d = '_' :=
        List.forall_mem_append.mpr ⟨letters, by simpa using ha⟩
      exact ⟨_, [], .word (by simp) hletters (wordKind_iff.mpr rfl)⟩
    | integer ne digits =>
      rw [Kind.absorbs, Bool.or_eq_true, beq_iff_eq] at ha
      rcases ha with hd | rfl
      · exact ⟨_, [], .integer (by simp)
          (List.forall_mem_append.mpr ⟨digits, by simpa [isDigit] using hd⟩)⟩
      · exact ⟨.float, [], .float ne digits (by simp)⟩
    | @float w v ne whole places =>
      refine ⟨.float, [], ?_⟩
      rw [List.append_assoc, List.cons_append]
      apply IsLexeme.float ne whole
      exact List.forall_mem_append.mpr ⟨places, by simpa [Kind.absorbs, isDigit] using ha⟩
    | symbol s =>
      cases s with
      | assignment =>
        obtain rfl := beq_iff_eq.mp ha
        exact ⟨_, [], .symbol .equals⟩
      | bang =>
        obtain rfl := beq_iff_eq.mp ha
        exact ⟨_, [], .symbol .notEquals⟩
      | _ => cases ha
    | illegal => cases ha
  · rintro ⟨l, v, hl⟩
    cases ha : k.absorbs c with
    | true => rfl
    | false =>
      -- read whole, the longer characters are one token; read with a stop at `c`, they are not
      have hlong : View.lexeme (w ++ c :: v ++ []) = (l, w ++ c :: v) :=
        hl.lexeme_append (by simp)
      have hshort : View.lexeme (w ++ c :: v) = (k, w) := h.lexeme_append (by simpa using ha)
      rw [List.append_nil] at hlong
      have hw := congrArg Prod.snd (hlong.symm.trans hshort)
      simp at hw

/-! ### Spelling a text -/

namespace View

section Lexeme

variable {v : View} {b w rest : List Char} {k : Kind} (hv : v.chars = b ++ w ++ rest)
  (blank : ∀ c ∈ b, isBlank c = true) (lexeme : IsLexeme k w)
  (stops : ∀ c ∈ rest.head?, k.absorbs c = false)

include hv blank lexeme

/-- The leading blanks are those in front of the lexeme. -/
theorem takeWhile_blank_of_isLexeme : v.chars.takeWhile isBlank = b := by
  obtain ⟨c, cs, rfl, hc⟩ := lexeme.exists_cons
  rw [hv, List.append_assoc]
  apply takeWhile_run blank
  simpa using hc

/-- The blanks in front of a lexeme are skipped, and not more. -/
theorem chars_skipBlanks_of_isLexeme : v.skipBlanks.chars = w ++ rest := by
  have hb := takeWhile_blank_of_isLexeme hv blank lexeme
  rw [skipBlanks, chars_skip, hb, hv, List.append_assoc, List.drop_left]

include stops

private theorem lexeme_skipBlanks_of_isLexeme : View.lexeme v.skipBlanks.chars = (k, w) := by
  rw [chars_skipBlanks_of_isLexeme hv blank lexeme]
  exact lexeme.lexeme_append stops

/-- The token behind the blanks is the lexeme. -/
theorem token_of_isLexeme : v.skipBlanks.token =
    ⟨k, String.ofList w, (v.skip (b.length + k.stampOffset w.length)).position⟩ := by
  have hx := lexeme_skipBlanks_of_isLexeme hv blank lexeme stops
  rw [token_of_lexeme hx, skipBlanks, takeWhile_blank_of_isLexeme hv blank lexeme, ← skip_add]

/-- Behind that token its characters are gone. -/
theorem behind_of_isLexeme : v.skipBlanks.behind = v.skip (b.length + w.length) := by
  have hx := lexeme_skipBlanks_of_isLexeme hv blank lexeme stops
  rw [behind_of_lexeme hx, skipBlanks, takeWhile_blank_of_isLexeme hv blank lexeme, ← skip_add]

/-- Reading a lexeme that has only blanks before it: its token comes first. -/
theorem tokens_of_isLexeme :
    v.tokens = ⟨k, String.ofList w, (v.skip (b.length + k.stampOffset w.length)).position⟩ ::
      (v.skip (b.length + w.length)).tokens := by
  have hne : v.skipBlanks.chars ≠ [] := by
    rw [chars_skipBlanks_of_isLexeme hv blank lexeme]
    exact List.append_ne_nil_of_left_ne_nil lexeme.ne_nil rest
  rw [tokens_of_token hne, token_of_isLexeme hv blank lexeme stops,
    behind_of_isLexeme hv blank lexeme stops]

end Lexeme

/-- Where not only blanks are left, a lexeme comes behind them. -/
theorem exists_isLexeme {v : View} (h : v.skipBlanks.chars ≠ []) :
    ∃ (b w rest : List Char) (k : Kind), v.chars = b ++ w ++ rest ∧
      (∀ c ∈ b, isBlank c = true) ∧ IsLexeme k w ∧ ∀ c ∈ rest.head?, k.absorbs c = false := by
  have hcs := List.takeWhile_append_dropWhile (p := isBlank) (l := v.chars)
  have hhead := head?_dropWhile_run isBlank v.chars
  rw [← chars_skipBlanks] at hcs hhead
  obtain ⟨c, cs, hc⟩ := List.exists_cons_of_ne_nil h
  rw [hc] at hcs hhead
  obtain ⟨lexeme, rest, hrest, stops⟩ := cut_lexeme (hhead c rfl) cs
  refine ⟨v.chars.takeWhile isBlank, (View.lexeme (c :: cs)).2, rest,
    (View.lexeme (c :: cs)).1, ?_, fun _ ↦ List.mem_takeWhile_imp, lexeme, stops⟩
  rw [List.append_assoc, ← hrest, hcs]

/-- The tokens that are read from a text spell it. -/
theorem spells_tokens (v : View) : Spells (v.tokens.map Token.bare) v.chars := by
  fun_induction tokens v with
  | case1 v h =>
    rw [chars_skipBlanks] at h
    exact .done (forall_isBlank_iff.mp (List.dropWhile_eq_nil_iff.mp h))
  | case2 v c cs h ih =>
    obtain ⟨b, w, rest, k, hv, blank, lexeme, stops⟩ :=
      exists_isLexeme (v := v) (by rw [h]; exact List.cons_ne_nil c cs)
    have ht := token_of_isLexeme hv blank lexeme stops
    have hr := behind_of_isLexeme hv blank lexeme stops
    rw [hr, chars_skip, hv, ← List.length_append, List.drop_left] at ih
    rw [List.map_cons, ht, hr, hv, ← List.length_append]
    exact .more (forall_isBlank_iff.mp blank) lexeme stops ih

end View

/-- Whatever spells a text is read from it. -/
theorem Spells.eq_tokens {ts : List (Kind × String)} {cs : List Char} (h : Spells ts cs)
    (v : View) (hv : v.chars = cs) : v.tokens.map Token.bare = ts := by
  induction h generalizing v with
  | @done b blank =>
    rw [View.tokens_of_blank, List.map_nil]
    rw [View.chars_skipBlanks, hv, List.dropWhile_eq_nil_iff.mpr (forall_isBlank_iff.mpr blank)]
  | @more b w rest k ts blank lexeme stops behind ih =>
    have blank := forall_isBlank_iff.mpr blank
    have hr : (v.skip (b.length + w.length)).chars = rest := by
      rw [View.chars_skip, hv, ← List.length_append, List.drop_left]
    rw [View.tokens_of_isLexeme hv blank lexeme stops, List.map_cons, ih _ hr]
    rfl

/-- Every token of a text is a lexeme. -/
theorem Spells.isLexeme {ts : List (Kind × String)} {cs : List Char} (h : Spells ts cs) :
    ∀ t ∈ ts, IsLexeme t.1 t.2.toList := by
  induction h with
  | done => simp
  | more blank lexeme stops behind ih =>
    intro t ht
    rcases List.mem_cons.mp ht with rfl | ht
    · rwa [String.toList_ofList]
    · exact ih t ht

/-- Reading a text ends with one mark at its end, and the tokens before that mark are the only
ones that spell the text. -/
theorem tokenize_spells (text : String) :
    ∃ ts : List (Kind × String),
      (tokenize text).map Token.bare = ts ++ [(.endOfText, "")] ∧
      (∀ t ∈ ts, t.1 ≠ .endOfText) ∧
      ∀ us, Spells us text.toList ↔ us = ts := by
  refine ⟨(View.ofChars text.toList).tokens.map Token.bare, ?_, ?_, ?_⟩
  · rw [tokenize_eq, List.map_append]
    rfl
  · intro t ht
    exact ((View.spells_tokens (.ofChars text.toList)).isLexeme t ht).ne_endOfText
  · intro us
    constructor
    · intro h
      exact (h.eq_tokens (.ofChars text.toList) rfl).symm
    · rintro rfl
      exact View.spells_tokens (.ofChars text.toList)

end MonkeyTokens
