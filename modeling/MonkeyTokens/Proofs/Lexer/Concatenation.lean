import Mathlib.Data.List.Basic
import MonkeyTokens.Proofs.Lexer.Grammar

/-!
# One text behind another

Where a text is put behind another, the tokens of the two are read one after the other, unless the
last token of the first text goes on in the second. That is the case exactly if no blank stands
between them and the token absorbs the character that comes next (`Merges`). It can be told from
the spelling alone: what spells the two texts apart spells them together, or nothing that begins
like the first one does (`Spells.append_iff`). So the tokens of two texts stay what they are
exactly if the texts do not merge (`bareTokens_append_iff`).
-/

namespace MonkeyTokens

open Text

/-- The last of some tokens goes on in another text: no blank stands between the two, and the
token absorbs what the other text starts with. -/
def RunsOn (ts : List (Kind × String)) (cs ds : List Char) : Prop :=
  ∃ t ∈ ts.getLast?, ∃ c ∈ cs.getLast?, ∃ d ∈ ds.head?, isBlank c = false ∧ t.1.absorbs d = true

namespace RunsOn

variable {ts : List (Kind × String)} {cs ds : List Char}

private theorem ne_nil (h : RunsOn ts cs ds) : ts ≠ [] := by
  rintro rfl
  obtain ⟨t, ht, -⟩ := h
  simp at ht

private theorem cons_append_iff (hts : ts ≠ []) (hcs : cs ≠ []) (t : Kind × String)
    (before : List Char) : RunsOn (t :: ts) (before ++ cs) ds ↔ RunsOn ts cs ds := by
  have ht : (t :: ts).getLast? = ts.getLast? := by
    rw [List.getLast?_cons, List.getLast?_eq_some_getLast hts, Option.getD_some]
  have hc : (before ++ cs).getLast? = cs.getLast? := List.getLast?_append_of_ne_nil before hcs
  rw [RunsOn, ht, hc, RunsOn]

private theorem of_isLexeme_iff {k : Kind} {w : List Char} (lexeme : IsLexeme k w) (s : String)
    (before : List Char) :
    RunsOn [(k, s)] (before ++ w) ds ↔ ∃ d ∈ ds.head?, k.absorbs d = true := by
  have hw : (before ++ w).getLast? = some (w.getLast lexeme.ne_nil) := by
    rw [List.getLast?_append_of_ne_nil before lexeme.ne_nil,
      List.getLast?_eq_some_getLast lexeme.ne_nil]
  have hblank := lexeme.isBlank_eq_false _ (List.getLast_mem lexeme.ne_nil)
  simp [RunsOn, hw, hblank]

end RunsOn

namespace Spells

variable {ts us : List (Kind × String)} {cs ds : List Char}

/-- A text is spelled in one way only. -/
theorem unique (h : Spells ts cs) (k : Spells us cs) : ts = us := by
  rw [← h.eq_tokens (.ofChars cs) rfl, k.eq_tokens (.ofChars cs) rfl]

private theorem eq_nil_iff (h : Spells ts cs) : ts = [] ↔ ∀ c ∈ cs, isBlank c = true := by
  constructor
  · rintro rfl
    cases h with
    | done blank => exact forall_isBlank_iff.mpr blank
  · intro blank
    exact h.unique (.done (forall_isBlank_iff.mp blank))

private theorem blank_append {b : List Char} (blank : ∀ c ∈ b, c ∈ [' ', '\t', '\n', '\r'])
    (h : Spells ts cs) : Spells ts (b ++ cs) := by
  cases h with
  | done rest => exact .done (List.forall_mem_append.mpr ⟨blank, rest⟩)
  | @more b' w rest k ts blank' lexeme stops behind =>
    have hb : b ++ (b' ++ w ++ rest) = b ++ b' ++ w ++ rest := by simp
    rw [hb]
    exact .more (List.forall_mem_append.mpr ⟨blank, blank'⟩) lexeme stops behind

private theorem of_isLexeme {b w rest : List Char} {k : Kind}
    (blank : ∀ c ∈ b, c ∈ [' ', '\t', '\n', '\r']) (lexeme : IsLexeme k w)
    (h : Spells ((k, String.ofList w) :: ts) (b ++ w ++ rest)) :
    (∀ c ∈ rest.head?, k.absorbs c = false) ∧ Spells ts rest := by
  have hb := View.takeWhile_blank_of_isLexeme (v := .ofChars (b ++ w ++ rest)) rfl
    (forall_isBlank_iff.mpr blank) lexeme
  generalize ht : (k, String.ofList w) :: ts = all at h
  generalize hcs : b ++ w ++ rest = cs at h hb
  cases h with
  | done => cases ht
  | @more b' w' rest' k' ts' blank' lexeme' stops behind =>
    obtain ⟨⟨rfl, hw⟩, rfl⟩ : (k = k' ∧ String.ofList w = String.ofList w') ∧ ts = ts' := by
      simpa using ht
    obtain rfl := String.ofList_inj.mp hw
    have hb' := View.takeWhile_blank_of_isLexeme (v := .ofChars (b' ++ w ++ rest')) rfl
      (forall_isBlank_iff.mpr blank') lexeme'
    obtain rfl : b = b' := hb.symm.trans hb'
    obtain rfl : rest = rest' := List.append_cancel_left hcs
    exact ⟨stops, behind⟩

private theorem append (h : Spells ts cs) (k : Spells us ds) (apart : ¬ RunsOn ts cs ds) :
    Spells (ts ++ us) (cs ++ ds) := by
  induction h with
  | done blank => exact k.blank_append blank
  | @more b w rest kind ts blank lexeme stops behind ih =>
    rw [List.append_assoc]
    apply Spells.more blank lexeme
    · intro d hd
      by_cases hrest : rest = []
      · -- this token is the last one, and its characters come last
        obtain rfl : ts = [] := behind.eq_nil_iff.mpr (by simp [hrest])
        subst hrest
        rw [List.append_nil, RunsOn.of_isLexeme_iff lexeme] at apart
        by_contra habsorbs
        exact apart ⟨d, hd, by simpa using habsorbs⟩
      · apply stops d
        rwa [List.head?_append_of_ne_nil rest hrest] at hd
    · apply ih
      intro runs
      by_cases hrest : rest = []
      · apply runs.ne_nil
        exact behind.eq_nil_iff.mpr (by simp [hrest])
      · exact apart ((RunsOn.cons_append_iff runs.ne_nil hrest _ _).mpr runs)

private theorem not_append_of_runsOn (h : Spells ts cs) (runs : RunsOn ts cs ds)
    (us : List (Kind × String)) : ¬ Spells (ts ++ us) (cs ++ ds) := by
  induction h with
  | done => exact absurd rfl runs.ne_nil
  | @more b w rest kind ts blank lexeme stops behind ih =>
    intro hall
    rw [List.append_assoc] at hall
    obtain ⟨hstops, hbehind⟩ := of_isLexeme blank lexeme hall
    by_cases hts : ts = []
    · subst hts
      -- the last character is no blank, so that none comes behind this token
      have hrest : rest = [] := by
        obtain ⟨-, -, c, hc, -, -, hblank, -⟩ := runs
        by_contra hne
        rw [List.getLast?_append_of_ne_nil _ hne] at hc
        rw [behind.eq_nil_iff.mp rfl c (List.mem_of_getLast? hc)] at hblank
        cases hblank
      subst hrest
      rw [List.append_nil, RunsOn.of_isLexeme_iff lexeme] at runs
      obtain ⟨d, hd, habsorbs⟩ := runs
      rw [hstops d hd] at habsorbs
      cases habsorbs
    · have hrest : rest ≠ [] := by
        rintro rfl
        exact hts (behind.eq_nil_iff.mpr (by simp))
      exact ih ((RunsOn.cons_append_iff hts hrest _ _).mp runs) hbehind

/-- What spells two texts spells them one behind the other exactly if the first does not go on. -/
theorem append_iff (h : Spells ts cs) (k : Spells us ds) :
    Spells (ts ++ us) (cs ++ ds) ↔ ¬ RunsOn ts cs ds := by
  constructor
  · intro hall runs
    exact h.not_append_of_runsOn runs us hall
  · exact h.append k

end Spells

/-- The tokens of a text but for their positions, without the mark at its end. -/
def bareTokens (text : String) : List (Kind × String) := (tokenize text).dropLast.map Token.bare

private theorem spells_bareTokens (text : String) : Spells (bareTokens text) text.toList := by
  rw [bareTokens, dropLast_tokenize]
  exact View.spells_tokens (.ofChars text.toList)

/-- A text goes on in another one: neither is empty, the first does not end with a blank, and its
last token absorbs the first character of the other. -/
def Merges (a b : String) : Prop :=
  ∃ t ∈ (tokenize a).dropLast.getLast?, ∃ c ∈ a.toList.getLast?, ∃ d ∈ b.toList.head?,
    isBlank c = false ∧ t.kind.absorbs d = true

private theorem merges_iff_runsOn (a b : String) :
    Merges a b ↔ RunsOn (bareTokens a) a.toList b.toList := by
  have hlast : (bareTokens a).getLast? = (tokenize a).dropLast.getLast?.map Token.bare :=
    List.getLast?_map
  simp [Merges, RunsOn, hlast, Token.bare]

/-- The tokens of one text behind another are those of the two exactly if the texts do not
merge. -/
theorem bareTokens_append_iff (a b : String) :
    bareTokens (a ++ b) = bareTokens a ++ bareTokens b ↔ ¬ Merges a b := by
  have ha := spells_bareTokens a
  have hb := spells_bareTokens b
  have hab := spells_bareTokens (a ++ b)
  rw [String.toList_append] at hab
  rw [merges_iff_runsOn, ← ha.append_iff hb]
  constructor
  · intro h
    rwa [h] at hab
  · exact hab.unique

end MonkeyTokens
