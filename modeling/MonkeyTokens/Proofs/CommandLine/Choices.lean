import MonkeyTokens.CommandLine.Request

/-!
# Command lines that can be understood

`Chooses` says which words make which choices: the options that take a value at most once each,
with the value behind an equals sign or in a word of its own, and verbosity at most once, by its
letter or its name, all of them in any order. Reading such words from left to right, every option
is entered or held before the next one is looked at, so that they ask for a run with just these
choices (`ofWords_of_chooses`).
-/

namespace MonkeyTokens.CommandLine

/-- The long name of the option. -/
def ValueOption.name : ValueOption → String
  | .file => "file"
  | .prompt => "prompt"

/-- The words make these choices. -/
inductive Chooses : List String → Options → Prop where
  | nothing : Chooses [] {}
  | joined {words : List String} {options : Options} {o : ValueOption} (value : String)
      (h : Chooses words options) (fresh : options.value? o = none) :
      Chooses (words ++ ["--" ++ o.name ++ "=" ++ value]) (options.withValue o value)
  | apart {words : List String} {options : Options} {o : ValueOption} {value : String}
      (h : Chooses words options) (fresh : options.value? o = none)
      (plain : value = "-" ∨ value.toList.head? ≠ some '-') :
      Chooses (words ++ ["--" ++ o.name, value]) (options.withValue o value)
  | verbose {words : List String} {options : Options} {word : String}
      (h : Chooses words options) (fresh : options.verbose = false)
      (either : word = "-v" ∨ word = "--verbose") :
      Chooses (words ++ [word]) { options with verbose := true }

/-! ### The forms of the words -/

private theorem ValueOption.ofName?_name (o : ValueOption) : ofName? o.name = some o := by
  cases o <;> rfl

private theorem Word.ofString_name (o : ValueOption) :
    Word.ofString ("--" ++ o.name) = .long o.name none := by
  cases o <;> rfl

private theorem Word.ofString_joined (o : ValueOption) (value : String) :
    Word.ofString ("--" ++ o.name ++ "=" ++ value) = .long o.name (some value) := by
  have htext : ("--" ++ o.name ++ "=" ++ value).toList =
      '-' :: '-' :: (o.name.toList ++ '=' :: value.toList) := by
    simp
  rw [Word.ofString, htext]
  cases o <;> simp [ValueOption.name]

private theorem Word.ofString_plain {text : String}
    (h : text = "-" ∨ text.toList.head? ≠ some '-') : Word.ofString text = .plain := by
  rcases h with rfl | h
  · rfl
  · unfold Word.ofString
    split
    · next ht => simp [ht] at h
    · next ht => simp [ht] at h
    · next ht => simp [ht] at h
    · rfl

/-! ### Reading them -/

namespace Reading

private theorem words_of_long {text name : String} {value? : Option String}
    (h : Word.ofString text = .long name value?) (rest : List String) (r : Reading) :
    words (text :: rest) r = r.long name value? >>= words rest := by
  simp only [words, h]

private theorem words_of_plain {text : String} (h : Word.ofString text = .plain)
    (rest : List String) (r : Reading) : words (text :: rest) r = r.plain text >>= words rest := by
  simp only [words, h]

/-- The words were read up to here, and what is known then makes these options. -/
structure Reaches (texts : List String) (r : Reading) (options : Options) : Prop where
  words_append : ∀ rest, words (texts ++ rest) {} = words rest r
  settle_eq : r.settle = .ok options

private theorem Reaches.nothing : Reaches [] {} {} := ⟨fun _ ↦ rfl, rfl⟩

private theorem Reaches.append {texts more : List String} {r s : Reading} {options others : Options}
    (h : Reaches texts r options) (hmore : ∀ rest, words (more ++ rest) r = words rest s)
    (hs : s.settle = .ok others) : Reaches (texts ++ more) s others := by
  constructor
  · intro rest
    rw [List.append_assoc, h.words_append, hmore]
  · exact hs

private theorem set_of_fresh {options : Options} {o : ValueOption} (fresh : options.value? o = none)
    (value : String) : options.set o value = .ok (options.withValue o value) := by
  rw [Options.set, fresh]
  rfl

section

variable {texts : List String} {r : Reading} {options : Options} {o : ValueOption}
  {value word : String}

private theorem Reaches.joined (h : Reaches texts r options) (fresh : options.value? o = none) :
    Reaches (texts ++ ["--" ++ o.name ++ "=" ++ value]) { options := options.withValue o value }
      (options.withValue o value) := by
  have hlong : r.long o.name (some value) = .ok { options := options.withValue o value } := by
    simp only [long, ValueOption.ofName?_name, h.settle_eq, bind, Except.bind,
      set_of_fresh fresh]
    rfl
  apply h.append
  · intro rest
    rw [List.singleton_append, words_of_long (Word.ofString_joined o value), hlong]
    rfl
  · rfl

private theorem Reaches.apart (h : Reaches texts r options) (fresh : options.value? o = none)
    (plain : value = "-" ∨ value.toList.head? ≠ some '-') :
    Reaches (texts ++ ["--" ++ o.name, value]) { options, held? := some ⟨o, some value⟩ }
      (options.withValue o value) := by
  have hlong : r.long o.name none = .ok { options, held? := some ⟨o, none⟩ } := by
    simp only [long, ValueOption.ofName?_name, h.settle_eq]
    rfl
  apply h.append
  · intro rest
    rw [List.cons_append, List.singleton_append, words_of_long (Word.ofString_name o), hlong]
    change words (value :: rest) { options, held? := some ⟨o, none⟩ } = _
    rw [words_of_plain (Word.ofString_plain plain)]
    rfl
  · simp only [settle, set_of_fresh fresh]
    rfl

private theorem Reaches.verbose (h : Reaches texts r options) (fresh : options.verbose = false)
    (either : word = "-v" ∨ word = "--verbose") :
    Reaches (texts ++ [word]) { options := { options with verbose := true } }
      { options with verbose := true } := by
  have hflag : r.flag .verbose = .ok { options := { options with verbose := true } } := by
    simp only [flag, h.settle_eq, bind, Except.bind, fresh]
    rfl
  apply h.append
  · intro rest
    rcases either with rfl | rfl
    · change (r.flag .verbose >>= letters []) >>= words rest = _
      rw [hflag]
      rfl
    · change r.flag .verbose >>= words rest = _
      rw [hflag]
      rfl
  · rfl

end

end Reading

private theorem Chooses.reaches {texts : List String} {options : Options}
    (h : Chooses texts options) : ∃ r, Reading.Reaches texts r options := by
  induction h with
  | nothing => exact ⟨_, .nothing⟩
  | joined value _ fresh ih =>
    obtain ⟨r, hr⟩ := ih
    exact ⟨_, hr.joined fresh⟩
  | apart _ fresh plain ih =>
    obtain ⟨r, hr⟩ := ih
    exact ⟨_, hr.apart fresh plain⟩
  | verbose _ fresh either ih =>
    obtain ⟨r, hr⟩ := ih
    exact ⟨_, hr.verbose fresh either⟩

/-- The words of some choices ask for a run with these. -/
theorem ofWords_of_chooses {texts : List String} {options : Options} (h : Chooses texts options) :
    Request.ofWords texts = .ok (.run options) := by
  obtain ⟨r, hr⟩ := h.reaches
  have hwords := hr.words_append []
  rw [List.append_nil, Reading.words, hr.settle_eq] at hwords
  rw [Request.ofWords, hwords]

end MonkeyTokens.CommandLine
