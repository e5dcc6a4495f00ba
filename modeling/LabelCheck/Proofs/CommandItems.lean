import LabelCheck.Proofs.CommandWords
import Mathlib.Data.List.TakeWhile

/-!
# Words and items

A command line is taken apart into items, and what is said by its words is said by the items. The
two are tied for every level whose options are those of a vocabulary.

* `Item.Says`: what an item says;
* `Level.Matches`: the options of a level are those of a vocabulary;
* `Level.Matches.spells_iff`: words and their items say the same.
-/

namespace LabelCheck.CommandLine

open Document Files

/-! ### Items -/

/-- What an item of a command line says. -/
inductive Item.Says : Item → Part → Prop where
  | noColor : Says (.flag .noColor) .noColor
  | verbose : Says (.flag .verbose) .verbose
  | resolutions : Says (.flag .resolutions) .resolutions
  | tree : Says (.flag .tree) .tree
  | listCategories : Says (.flag .listCategories) .listCategories
  | config {text : String} (h : text ≠ "") :
    Says (.setting .config (some text)) (.config (.ofText text))
  | conformance {text : String} {level : Conformance} (h : LevelNamed text.toLower level) :
    Says (.setting .conformance (some text)) (.conformance level)
  | caseSensitive : Says (.setting .caseSensitive (some "true")) (.caseSensitive true)
  | caseInsensitive : Says (.setting .caseSensitive (some "false")) (.caseSensitive false)
  | caseBare : Says (.setting .caseSensitive none) (.caseSensitive true)
  | unresolvedLabel {text : String} {policy : UnresolvedPolicy}
    (h : PolicyNamed text.toLower policy) :
    Says (.setting .unresolvedLabel (some text)) (.unresolvedLabel policy)
  | category {text : String} : Says (.setting .category (some text)) (.category text)
  | subject {text : String} (h : text ≠ "") : Says (.word text) (.subject (.ofText text))

/-- **The options of a level are those of a vocabulary.** No name has an equals sign in it, and no
letter is a dash or can do without its value. -/
structure Level.Matches (l : Level) (v : Vocabulary) : Prop where
  flag_iff : ∀ {name part},
    v.flag name part ↔ ∃ f, l.long.lookup name = some (.flag f) ∧ (Item.flag f).Says part
  value_iff : ∀ {name text part}, v.value name text part ↔
    ∃ s, l.long.lookup name = some (.setting s) ∧ (Item.setting s (some text)).Says part
  bare_iff : ∀ {name part}, v.bare name part ↔
    ∃ s, l.long.lookup name = some (.setting s) ∧ (Item.setting s none).Says part
  letter_iff : ∀ {c part},
    v.letter c part ↔ ∃ f, l.short.lookup c = some (.flag f) ∧ (Item.flag f).Says part
  letterValue_iff : ∀ {c text part}, v.letterValue c text part ↔
    ∃ s, l.short.lookup c = some (.setting s) ∧ (Item.setting s (some text)).Says part
  name : ∀ {name choice}, l.long.lookup name = some choice → name ≠ "" ∧ '=' ∉ name.toList
  dash : l.short.lookup '-' = none
  letter : ∀ {c s part}, l.short.lookup c = some (.setting s) → ¬ (Item.setting s none).Says part

/-- The names that both commands know. -/
theorem mem_commonShort {c : Char} {choice : Choice} (h : commonShort.lookup c = some choice) :
    (c = 'v' ∧ choice = .flag .verbose) ∨ (c = 'h' ∧ choice = .flag .help) := by
  have hmem := Toml.mem_of_lookup_eq_some h
  simpa [commonShort] using hmem

theorem mem_checkLevel {name : String} {choice : Choice}
    (h : checkLevel.long.lookup name = some choice) :
    (name = "config" ∧ choice = .setting .config) ∨
      (name = "conformance" ∧ choice = .setting .conformance) ∨
      (name = "case-sensitive" ∧ choice = .setting .caseSensitive) ∨
      (name = "unresolved-label" ∧ choice = .setting .unresolvedLabel) ∨
      (name = "resolutions" ∧ choice = .flag .resolutions) ∨
      (name = "tree" ∧ choice = .flag .tree) ∨ (name = "no-color" ∧ choice = .flag .noColor) ∨
      (name = "verbose" ∧ choice = .flag .verbose) ∨ (name = "help" ∧ choice = .flag .help) := by
  have hmem := Toml.mem_of_lookup_eq_some h
  simpa [checkLevel, commonLong] using hmem

theorem matches_checkLevel : checkLevel.Matches checkWords where
  flag_iff := by
    intro name part
    constructor
    · intro h
      cases h with
      | noColor => exact ⟨_, rfl, .noColor⟩
      | verbose => exact ⟨_, rfl, .verbose⟩
      | resolutions => exact ⟨_, rfl, .resolutions⟩
      | tree => exact ⟨_, rfl, .tree⟩
    · -- Of all names that are known, only those of flags that say something are left.
      rintro ⟨f, hf, hmean⟩
      rcases mem_checkLevel hf with ⟨_, h⟩ | ⟨_, h⟩ | ⟨_, h⟩ | ⟨_, h⟩ | ⟨rfl, h⟩ | ⟨rfl, h⟩ |
        ⟨rfl, h⟩ | ⟨rfl, h⟩ | ⟨_, h⟩ <;> cases h <;> cases hmean
      · exact .resolutions
      · exact .tree
      · exact .noColor
      · exact .verbose
  value_iff := by
    intro name text part
    constructor
    · intro h
      cases h with
      | config h => exact ⟨_, rfl, .config h⟩
      | conformance h => exact ⟨_, rfl, .conformance h⟩
      | caseSensitive => exact ⟨_, rfl, .caseSensitive⟩
      | caseInsensitive => exact ⟨_, rfl, .caseInsensitive⟩
      | unresolvedLabel h => exact ⟨_, rfl, .unresolvedLabel h⟩
    · rintro ⟨s, hs, hmean⟩
      rcases mem_checkLevel hs with ⟨rfl, h⟩ | ⟨rfl, h⟩ | ⟨rfl, h⟩ | ⟨rfl, h⟩ | ⟨_, h⟩ | ⟨_, h⟩ |
        ⟨_, h⟩ | ⟨_, h⟩ | ⟨_, h⟩ <;> cases h <;> cases hmean
      · next h => exact .config h
      · next h => exact .conformance h
      · exact .caseSensitive
      · exact .caseInsensitive
      · next h => exact .unresolvedLabel h
  bare_iff := by
    intro name part
    constructor
    · intro h
      cases h with
      | caseSensitive => exact ⟨_, rfl, .caseBare⟩
    · rintro ⟨s, hs, hmean⟩
      rcases mem_checkLevel hs with ⟨_, h⟩ | ⟨_, h⟩ | ⟨rfl, h⟩ | ⟨_, h⟩ | ⟨_, h⟩ | ⟨_, h⟩ |
        ⟨_, h⟩ | ⟨_, h⟩ | ⟨_, h⟩ <;> cases h <;> cases hmean
      exact .caseSensitive
  letter_iff := by
    intro c part
    constructor
    · intro h
      cases h with
      | verbose => exact ⟨_, rfl, .verbose⟩
    · rintro ⟨f, hf, hmean⟩
      rcases mem_commonShort hf with ⟨rfl, h⟩ | ⟨_, h⟩ <;> cases h <;> cases hmean
      exact .verbose
  letterValue_iff := by
    -- No letter of a check has a value.
    intro c text part
    refine iff_of_false id ?_
    rintro ⟨s, hs, _⟩
    rcases mem_commonShort hs with ⟨_, h⟩ | ⟨_, h⟩ <;> cases h
  name := by
    intro name choice h
    rcases mem_checkLevel h with ⟨rfl, _⟩ | ⟨rfl, _⟩ | ⟨rfl, _⟩ | ⟨rfl, _⟩ | ⟨rfl, _⟩ | ⟨rfl, _⟩ |
      ⟨rfl, _⟩ | ⟨rfl, _⟩ | ⟨rfl, _⟩ <;> decide
  dash := by decide
  letter := by
    intro c s part h
    rcases mem_commonShort h with ⟨_, h⟩ | ⟨_, h⟩ <;> cases h

theorem mem_testLevel {name : String} {choice : Choice}
    (h : testLevel.long.lookup name = some choice) :
    (name = "category" ∧ choice = .setting .category) ∨
      (name = "list-categories" ∧ choice = .flag .listCategories) ∨
      (name = "no-color" ∧ choice = .flag .noColor) ∨
      (name = "verbose" ∧ choice = .flag .verbose) ∨ (name = "help" ∧ choice = .flag .help) := by
  have hmem := Toml.mem_of_lookup_eq_some h
  simpa [testLevel, commonLong] using hmem

theorem mem_testLevel_short {c : Char} {choice : Choice}
    (h : testLevel.short.lookup c = some choice) :
    (c = 'c' ∧ choice = .setting .category) ∨ (c = 'v' ∧ choice = .flag .verbose) ∨
      (c = 'h' ∧ choice = .flag .help) := by
  have hmem := Toml.mem_of_lookup_eq_some h
  simpa [testLevel, commonShort] using hmem

/-- A test run has no other option with a value than that for categories. -/
theorem setting_of_mem_testLevel {name : String} {s : Setting}
    (h : testLevel.long.lookup name = some (.setting s)) : name = "category" ∧ s = .category := by
  simpa using mem_testLevel h

theorem setting_of_mem_testLevel_short {c : Char} {s : Setting}
    (h : testLevel.short.lookup c = some (.setting s)) : c = 'c' ∧ s = .category := by
  simpa using mem_testLevel_short h

theorem matches_testLevel : testLevel.Matches testWords where
  flag_iff := by
    intro name part
    constructor
    · intro h
      cases h with
      | noColor => exact ⟨_, rfl, .noColor⟩
      | verbose => exact ⟨_, rfl, .verbose⟩
      | listCategories => exact ⟨_, rfl, .listCategories⟩
    · rintro ⟨f, hf, hmean⟩
      rcases mem_testLevel hf with ⟨_, h⟩ | ⟨rfl, h⟩ | ⟨rfl, h⟩ | ⟨rfl, h⟩ | ⟨_, h⟩ <;>
        cases h <;> cases hmean
      · exact .listCategories
      · exact .noColor
      · exact .verbose
  value_iff := by
    intro name text part
    constructor
    · intro h
      cases h with
      | category => exact ⟨_, rfl, .category⟩
    · rintro ⟨s, hs, hmean⟩
      obtain ⟨rfl, rfl⟩ := setting_of_mem_testLevel hs
      cases hmean
      exact .category
  bare_iff := by
    -- The option for categories cannot do without its value.
    intro name part
    refine iff_of_false id ?_
    rintro ⟨s, hs, hmean⟩
    obtain ⟨_, rfl⟩ := setting_of_mem_testLevel hs
    cases hmean
  letter_iff := by
    intro c part
    constructor
    · intro h
      cases h with
      | verbose => exact ⟨_, rfl, .verbose⟩
    · rintro ⟨f, hf, hmean⟩
      rcases mem_testLevel_short hf with ⟨_, h⟩ | ⟨rfl, h⟩ | ⟨_, h⟩ <;> cases h <;> cases hmean
      exact .verbose
  letterValue_iff := by
    intro c text part
    constructor
    · intro h
      cases h with
      | category => exact ⟨_, rfl, .category⟩
    · rintro ⟨s, hs, hmean⟩
      obtain ⟨rfl, rfl⟩ := setting_of_mem_testLevel_short hs
      cases hmean
      exact .category
  name := by
    intro name choice h
    rcases mem_testLevel h with ⟨rfl, _⟩ | ⟨rfl, _⟩ | ⟨rfl, _⟩ | ⟨rfl, _⟩ | ⟨rfl, _⟩ <;> decide
  dash := by decide
  letter := by
    intro c s part h hmean
    obtain ⟨_, rfl⟩ := setting_of_mem_testLevel_short h
    cases hmean

/-! ### From words to items -/

theorem looksLikeOption_iff {word : String} : looksLikeOption word = true ↔ IsOption word := by
  unfold looksLikeOption IsOption
  split
  · next c rest h => exact iff_of_true rfl ⟨c, rest, h⟩
  · next h => exact iff_of_false Bool.false_ne_true fun ⟨c, rest, heq⟩ => h c rest heq

theorem splitEquals_of_not_mem {cs : List Char} (h : '=' ∉ cs) : splitEquals cs = (cs, none) := by
  have hall : ∀ c ∈ cs, (c != '=') = true := fun c hc => bne_iff_ne.mpr fun heq => h (heq ▸ hc)
  rw [splitEquals, List.dropWhile_eq_nil_iff.mpr hall]

theorem splitEquals_append {name : List Char} (h : '=' ∉ name) (value : List Char) :
    splitEquals (name ++ '=' :: value) = (name, some value) := by
  have hall : ∀ c ∈ name, (c != '=') = true := fun c hc => bne_iff_ne.mpr fun heq => h (heq ▸ hc)
  rw [splitEquals, List.dropWhile_append_of_pos hall, List.takeWhile_append_of_pos hall]
  simp

/-- Either there is no equals sign, or the text is split at the first one. -/
theorem splitEquals_cases (cs : List Char) :
    '=' ∉ cs ∨ ∃ name value, '=' ∉ name ∧ cs = name ++ '=' :: value := by
  by_cases h : '=' ∈ cs
  · obtain ⟨name, value, rfl, hname⟩ := List.eq_append_cons_of_mem h
    exact .inr ⟨name, value, hname, rfl⟩
  · exact .inl h

namespace Level.Matches

variable {l : Level} {v : Vocabulary} (hl : l.Matches v)
include hl

/-! What a letter says is known from what it is called for. -/

section Letter

variable {c : Char} {text : String} {part : Part}

theorem not_letter_of_none (h : l.short.lookup c = none) : ¬ v.letter c part := by
  intro hpart
  obtain ⟨f, hf, _⟩ := hl.letter_iff.mp hpart
  cases h.symm.trans hf

theorem not_letterValue_of_none (h : l.short.lookup c = none) : ¬ v.letterValue c text part := by
  intro hpart
  obtain ⟨s, hs, _⟩ := hl.letterValue_iff.mp hpart
  cases h.symm.trans hs

theorem letter_iff_of_flag {f : Flag} (h : l.short.lookup c = some (.flag f)) :
    v.letter c part ↔ (Item.flag f).Says part := by
  rw [hl.letter_iff]
  constructor
  · rintro ⟨f', hf', hmean⟩
    cases h.symm.trans hf'
    exact hmean
  · intro hmean
    exact ⟨f, h, hmean⟩

theorem not_letterValue_of_flag {f : Flag} (h : l.short.lookup c = some (.flag f)) :
    ¬ v.letterValue c text part := by
  intro hpart
  obtain ⟨s, hs, _⟩ := hl.letterValue_iff.mp hpart
  cases h.symm.trans hs

theorem not_letter_of_setting {s : Setting} (h : l.short.lookup c = some (.setting s)) :
    ¬ v.letter c part := by
  intro hpart
  obtain ⟨f, hf, _⟩ := hl.letter_iff.mp hpart
  cases h.symm.trans hf

theorem letterValue_iff_of_setting {s : Setting} (h : l.short.lookup c = some (.setting s)) :
    v.letterValue c text part ↔ (Item.setting s (some text)).Says part := by
  rw [hl.letterValue_iff]
  constructor
  · rintro ⟨s', hs', hmean⟩
    cases h.symm.trans hs'
    exact hmean
  · intro hmean
    exact ⟨s, h, hmean⟩

end Letter

/-- Letters of which none asks for a value in the next word. -/
theorem shortItems_none_iff {cs : List Char} {parts : List Part} :
    (l.shortItems cs).2 = none ∧ List.Forall₂ Item.Says (l.shortItems cs).1 parts ↔
      Letters v cs parts := by
  induction cs generalizing parts with
  | nil =>
    rw [Level.shortItems]
    constructor
    · rintro ⟨_, h⟩
      cases h
      exact .nil
    · intro h
      cases h
      exact ⟨rfl, .nil⟩
  | cons c rest ih =>
    rw [Level.shortItems]
    split
    -- The letter is not known.
    · next hnone =>
      refine iff_of_false ?_ ?_
      · rintro ⟨_, h⟩
        cases h with
        | cons h _ => cases h
      · intro h
        cases h with
        | flag h _ => exact hl.not_letter_of_none hnone h
        | joined h | stuck h _ _ => exact hl.not_letterValue_of_none hnone h
    -- It has no value, and the others say the rest.
    · next f hflag =>
      constructor
      · rintro ⟨hpending, h⟩
        cases h with
        | cons hfirst hrest =>
          exact .flag ((hl.letter_iff_of_flag hflag).mpr hfirst) (ih.mp ⟨hpending, hrest⟩)
      · intro h
        cases h with
        | flag h hrest =>
          obtain ⟨hpending, hsaid⟩ := ih.mpr hrest
          exact ⟨hpending, .cons ((hl.letter_iff_of_flag hflag).mp h) hsaid⟩
        | joined h | stuck h _ _ => exact absurd h (hl.not_letterValue_of_flag hflag)
    -- It has a value, which is what stands behind it.
    · next s hsetting =>
      have hmeant {value : List Char} {part : Part} :
          v.letterValue c (String.ofList value) part ↔
            (Item.setting s (some (String.ofList value))).Says part :=
        hl.letterValue_iff_of_setting hsetting
      split
      -- Nothing stands behind it, so that it asks for the next word.
      · refine iff_of_false (fun h => nomatch h.1) ?_
        intro h
        cases h with
        | flag h _ => exact hl.not_letter_of_setting hsetting h
        | stuck _ hne _ => exact hne rfl
      -- An equals sign in front does not belong to the value.
      · constructor
        · rintro ⟨_, h⟩
          cases h with
          | cons hfirst hrest =>
            cases hrest
            exact .joined (hmeant.mpr hfirst)
        · intro h
          cases h with
          | flag h _ => exact absurd h (hl.not_letter_of_setting hsetting)
          | joined h => exact ⟨rfl, .cons (hmeant.mp h) .nil⟩
          | stuck _ _ hsign => exact absurd rfl hsign
      · next hne hsign =>
        constructor
        · rintro ⟨_, h⟩
          cases h with
          | cons hfirst hrest =>
            cases hrest
            refine .stuck (hmeant.mpr hfirst) (fun h => hne h) ?_
            intro hhead
            obtain ⟨value, hvalue⟩ := List.head?_eq_some_iff.mp hhead
            exact hsign value hvalue
        · intro h
          cases h with
          | flag h _ => exact absurd h (hl.not_letter_of_setting hsetting)
          | joined _ => exact absurd rfl (hsign _)
          | stuck h _ _ => exact ⟨rfl, .cons (hmeant.mp h) .nil⟩

/-- Letters of which the last one asks for a value in the next word. -/
theorem shortItems_some_iff {cs : List Char} {said : List Part} {s : Setting} :
    (l.shortItems cs).2 = some s ∧ List.Forall₂ Item.Says (l.shortItems cs).1 said ↔
      ∃ flags c, cs = flags ++ [c] ∧ List.Forall₂ v.letter flags said ∧
        l.short.lookup c = some (.setting s) := by
  induction cs generalizing said with
  | nil =>
    refine iff_of_false (fun h => nomatch h.1) ?_
    rintro ⟨flags, c, h, _⟩
    exact List.append_ne_nil_of_right_ne_nil _ (List.cons_ne_nil _ _) h.symm
  | cons c rest ih =>
    rw [Level.shortItems]
    -- The first letter is the last one too, or else one of those in front.
    have hsplit {flags : List Char} {d : Char} (h : c :: rest = flags ++ [d]) :
        (flags = [] ∧ c = d ∧ rest = []) ∨ ∃ more, flags = c :: more ∧ rest = more ++ [d] := by
      cases flags with
      | nil => exact .inl ⟨rfl, by simpa using h⟩
      | cons e more =>
        obtain ⟨rfl, rfl⟩ := List.cons.inj h
        exact .inr ⟨more, rfl, rfl⟩
    split
    · next hnone =>
      refine iff_of_false (fun h => nomatch h.1) ?_
      rintro ⟨flags, d, h, hflags, hd⟩
      obtain ⟨rfl, rfl, rfl⟩ | ⟨more, rfl, rfl⟩ := hsplit h
      · cases hnone.symm.trans hd
      · cases hflags with
        | cons hc _ => exact hl.not_letter_of_none hnone hc
    · next f hflag =>
      constructor
      · rintro ⟨hpending, h⟩
        cases h with
        | cons hfirst hrest =>
          obtain ⟨flags, d, rfl, hflags, hd⟩ := ih.mp ⟨hpending, hrest⟩
          exact ⟨c :: flags, d, rfl, .cons ((hl.letter_iff_of_flag hflag).mpr hfirst) hflags, hd⟩
      · rintro ⟨flags, d, h, hflags, hd⟩
        obtain ⟨rfl, rfl, rfl⟩ | ⟨more, rfl, rfl⟩ := hsplit h
        · cases hflag.symm.trans hd
        · cases hflags with
          | cons hc hmore =>
            obtain ⟨hpending, hsaid⟩ := ih.mpr ⟨more, d, rfl, hmore, hd⟩
            exact ⟨hpending, .cons ((hl.letter_iff_of_flag hflag).mp hc) hsaid⟩
    · next t hsetting =>
      -- A letter with a value cannot be one of those in front.
      have hnot {flags : List Char} {d : Char} (h : c :: rest = flags ++ [d])
          (hflags : List.Forall₂ v.letter flags said) : flags = [] ∧ c = d ∧ rest = [] := by
        obtain hempty | ⟨more, rfl, rfl⟩ := hsplit h
        · exact hempty
        · cases hflags with
          | cons hc _ => exact absurd hc (hl.not_letter_of_setting hsetting)
      split
      · constructor
        · rintro ⟨hpending, h⟩
          cases hpending
          cases h
          exact ⟨[], c, rfl, .nil, hsetting⟩
        · rintro ⟨flags, d, h, hflags, hd⟩
          obtain ⟨rfl, rfl, _⟩ := hnot h hflags
          cases hsetting.symm.trans hd
          cases hflags
          exact ⟨rfl, .nil⟩
      · refine iff_of_false (fun h => nomatch h.1) ?_
        rintro ⟨flags, d, h, hflags, _⟩
        cases (hnot h hflags).2.2
      · next hne _ =>
        refine iff_of_false (fun h => nomatch h.1) ?_
        rintro ⟨flags, d, h, hflags, _⟩
        exact hne (hnot h hflags).2.2

end Level.Matches

/-! ### From items to parts, word by word -/

theorem forall₂_append_iff {α β : Type} {R : α → β → Prop} {as bs : List α} {cs : List β} :
    List.Forall₂ R (as ++ bs) cs ↔
      ∃ first rest, cs = first ++ rest ∧ List.Forall₂ R as first ∧ List.Forall₂ R bs rest := by
  constructor
  · intro h
    induction as generalizing cs with
    | nil => exact ⟨[], cs, rfl, .nil, h⟩
    | cons a as ih =>
      cases h with
      | cons ha h =>
        obtain ⟨first, rest, rfl, hfirst, hrest⟩ := ih h
        exact ⟨_ :: first, rest, rfl, .cons ha hfirst, hrest⟩
  · rintro ⟨first, rest, rfl, hfirst, hrest⟩
    exact List.rel_append hfirst hrest

theorem dashes_append_ne {name : String} (h : name ≠ "") : "--" ++ name ≠ "--" := by
  intro heq
  exact h (by simpa using congrArg String.toList heq)

theorem dash_letters_ne {c : Char} (hc : c ≠ '-') {cs : List Char} :
    String.ofList ('-' :: c :: cs) ≠ "--" := by
  intro heq
  have hchars := congrArg String.toList heq
  rw [String.toList_ofList] at hchars
  exact hc (List.cons.inj (List.cons.inj hchars).2).1

/-- A word is the end of the options, no option, or one with a name or with letters. -/
theorem word_cases (word : String) :
    word = "--" ∨ ¬ IsOption word ∨ (∃ name, name ≠ "" ∧ word = "--" ++ name) ∨
      ∃ c cs, c ≠ '-' ∧ word = String.ofList ('-' :: c :: cs) := by
  by_cases hoption : IsOption word
  · obtain ⟨c, rest, hchars⟩ := hoption
    obtain rfl : word = String.ofList ('-' :: c :: rest) := by rw [← hchars, String.ofList_toList]
    by_cases hc : c = '-'
    · subst hc
      by_cases hrest : rest = []
      · exact .inl (by rw [hrest])
      · refine .inr (.inr (.inl ⟨String.ofList rest, ?_, ?_⟩))
        · exact fun h => hrest (by simpa using congrArg String.toList h)
        · exact String.toList_injective (by simp)
    · exact .inr (.inr (.inr ⟨c, rest, hc, rfl⟩))
  · exact .inr (.inl hoption)

namespace Level

variable {l : Level}

theorem wordItems_of_not_isOption {word : String} (h : ¬ IsOption word) :
    l.wordItems word = ([.word word], none) := by
  unfold wordItems
  split
  · next hchars => exact absurd ⟨_, _, hchars⟩ h
  · next hchars => exact absurd ⟨_, _, hchars⟩ h
  · rfl

theorem wordItems_long (name : String) : l.wordItems ("--" ++ name) = l.longItems name.toList := by
  unfold wordItems
  rw [String.toList_append]
  rfl

theorem wordItems_short {c : Char} (hc : c ≠ '-') (cs : List Char) :
    l.wordItems (String.ofList ('-' :: c :: cs)) = l.shortItems (c :: cs) := by
  unfold wordItems
  rw [String.toList_ofList]
  split
  · next h => exact absurd (by simpa using (List.cons.inj (List.cons.inj h).2).1) hc
  · next h =>
    obtain ⟨rfl, rfl⟩ := List.cons.inj (List.cons.inj h).2
    rfl
  · next h => exact absurd rfl (h c cs)

theorem longItems_name {name : String} (h : '=' ∉ name.toList) :
    l.longItems name.toList =
      match l.long.lookup name with
      | none => ([.invalid], none)
      | some (.flag f) => ([.flag f], none)
      | some (.setting s) => ([], some s) := by
  unfold longItems
  rw [splitEquals_of_not_mem h]
  dsimp only
  rw [String.ofList_toList]
  rcases l.long.lookup name with _ | (_ | _) <;> rfl

theorem longItems_value {name : String} (h : '=' ∉ name.toList) (text : String) :
    l.longItems (name ++ "=" ++ text).toList =
      match l.long.lookup name with
      | some (.setting s) => ([.setting s (some text)], none)
      | _ => ([.invalid], none) := by
  have hchars : (name ++ "=" ++ text).toList = name.toList ++ '=' :: text.toList := by simp
  unfold longItems
  rw [hchars, splitEquals_append h]
  dsimp only
  rw [String.ofList_toList]
  rcases l.long.lookup name with _ | (_ | s)
  · rfl
  · rfl
  · show ([Item.setting s (some (String.ofList text.toList))], none) = _
    rw [String.ofList_toList]

/-- A first word that asks for no value says something, and the others say the rest. -/
theorem forall₂_items_of_none {word : String} {words : List String} {its : List Item}
    {parts : List Part} (hword : word ≠ "--") (h : l.wordItems word = (its, none)) :
    List.Forall₂ Item.Says (l.items (word :: words)) parts ↔
      ∃ said rest, parts = said ++ rest ∧ List.Forall₂ Item.Says its said ∧
        List.Forall₂ Item.Says (l.items words) rest := by
  rw [items.eq_3 l _ _ _ hword h, forall₂_append_iff]

/-- A first word that asks for a value says something, and the last of it with the next word, or
without a value if there is none or that looks like an option. -/
theorem forall₂_items_of_some {word : String} {words : List String} {its : List Item}
    {s : Setting} {parts : List Part} (hword : word ≠ "--")
    (h : l.wordItems word = (its, some s)) :
    List.Forall₂ Item.Says (l.items (word :: words)) parts ↔
      ∃ said part rest, parts = said ++ part :: rest ∧ List.Forall₂ Item.Says its said ∧
        ((∃ next more, words = next :: more ∧ ¬ IsOption next ∧
          (Item.setting s (some next)).Says part ∧ List.Forall₂ Item.Says (l.items more) rest) ∨
        ((∀ next ∈ words.head?, IsOption next) ∧ (Item.setting s none).Says part ∧
          List.Forall₂ Item.Says (l.items words) rest)) := by
  have hcons {item : Item} {others : List Item} :
      List.Forall₂ Item.Says (its ++ item :: others) parts ↔
        ∃ said part rest, parts = said ++ part :: rest ∧ List.Forall₂ Item.Says its said ∧
          item.Says part ∧ List.Forall₂ Item.Says others rest := by
    rw [forall₂_append_iff]
    constructor
    · rintro ⟨said, _, rfl, hsaid, hrest⟩
      cases hrest with
      | cons hpart hrest => exact ⟨said, _, _, rfl, hsaid, hpart, hrest⟩
    · rintro ⟨said, part, rest, rfl, hsaid, hpart, hrest⟩
      exact ⟨said, part :: rest, rfl, hsaid, .cons hpart hrest⟩
  cases words with
  | nil =>
    rw [items.eq_4 l _ _ s hword h, hcons]
    refine exists_congr fun said => exists_congr fun part => exists_congr fun rest => ?_
    rw [items.eq_1]
    simp
  | cons next more =>
    rw [items.eq_5 l _ _ s next more hword h]
    by_cases hnext : IsOption next
    · rw [if_pos (looksLikeOption_iff.mpr hnext), hcons]
      refine exists_congr fun said => exists_congr fun part => exists_congr fun rest => ?_
      simp [hnext]
    · rw [if_neg fun hlooks => hnext (looksLikeOption_iff.mp hlooks), hcons]
      refine exists_congr fun said => exists_congr fun part => exists_congr fun rest => ?_
      simp [hnext]

end Level

namespace Level.Matches

variable {l : Level} {v : Vocabulary} (hl : l.Matches v)
include hl

/-- Letters do not begin with a dash, for then they would be a name. -/
theorem exists_of_letters {cs : List Char} {said : List Part} (hne : cs ≠ [])
    (h : Letters v cs said) : ∃ c rest, c ≠ '-' ∧ cs = c :: rest := by
  cases h with
  | nil => exact absurd rfl hne
  | flag h _ =>
    refine ⟨_, _, ?_, rfl⟩
    rintro rfl
    exact hl.not_letter_of_none hl.dash h
  | joined h | stuck h _ _ =>
    refine ⟨_, _, ?_, rfl⟩
    rintro rfl
    exact hl.not_letterValue_of_none hl.dash h

theorem exists_of_lettersApart {cs : List Char} {c : Char} {text : String} {part : Part}
    {said : List Part} (hcs : List.Forall₂ v.letter cs said) (h : v.letterValue c text part) :
    ∃ d rest, d ≠ '-' ∧ cs ++ [c] = d :: rest := by
  cases hcs with
  | nil =>
    refine ⟨c, [], ?_, rfl⟩
    rintro rfl
    exact hl.not_letterValue_of_none hl.dash h
  | cons hd hrest =>
    refine ⟨_, _, ?_, rfl⟩
    rintro rfl
    exact hl.not_letter_of_none hl.dash hd

/-- What words say is said by their items. -/
theorem items_of_spells {words : List String} {parts : List Part} (h : Spells v words parts) :
    List.Forall₂ Item.Says (l.items words) parts := by
  induction h with
  | nil =>
    rw [items.eq_1]
    exact .nil
  | subjects h =>
    rw [items.eq_2, List.forall₂_map_left_iff]
    refine h.imp fun word part hpart => ?_
    rw [hpart.2]
    exact .subject hpart.1
  | @subject word _ _ _ hword h _ ih =>
    have hne : word ≠ "--" := by
      rintro rfl
      exact hword ⟨'-', [], rfl⟩
    refine (forall₂_items_of_none hne (wordItems_of_not_isOption hword)).mpr ⟨[_], _, rfl, ?_, ih⟩
    rw [h.2]
    exact .cons (.subject h.1) .nil
  | @flag name _ _ _ h _ ih =>
    obtain ⟨f, hf, hmean⟩ := hl.flag_iff.mp h
    obtain ⟨hne, hsign⟩ := hl.name hf
    have hword : l.wordItems ("--" ++ name) = ([.flag f], none) := by
      rw [wordItems_long, longItems_name hsign, hf]
    exact (forall₂_items_of_none (dashes_append_ne hne) hword).mpr
      ⟨[_], _, rfl, .cons hmean .nil, ih⟩
  | @joined name text _ _ _ h _ ih =>
    obtain ⟨s, hs, hmean⟩ := hl.value_iff.mp h
    obtain ⟨hne, hsign⟩ := hl.name hs
    have hword : l.wordItems ("--" ++ (name ++ "=" ++ text)) =
        ([.setting s (some text)], none) := by
      rw [wordItems_long, longItems_value hsign, hs]
    have hne : name ++ "=" ++ text ≠ "" := by simp
    exact (forall₂_items_of_none (dashes_append_ne hne) hword).mpr
      ⟨[_], _, rfl, .cons hmean .nil, ih⟩
  | @apart name _ _ _ _ h htext _ ih =>
    obtain ⟨s, hs, hmean⟩ := hl.value_iff.mp h
    obtain ⟨hne, hsign⟩ := hl.name hs
    have hword : l.wordItems ("--" ++ name) = ([], some s) := by
      rw [wordItems_long, longItems_name hsign, hs]
    exact (forall₂_items_of_some (dashes_append_ne hne) hword).mpr
      ⟨[], _, _, rfl, .nil, .inl ⟨_, _, rfl, htext, hmean, ih⟩⟩
  | @bare name _ _ _ h hnext _ ih =>
    obtain ⟨s, hs, hmean⟩ := hl.bare_iff.mp h
    obtain ⟨hne, hsign⟩ := hl.name hs
    have hword : l.wordItems ("--" ++ name) = ([], some s) := by
      rw [wordItems_long, longItems_name hsign, hs]
    exact (forall₂_items_of_some (dashes_append_ne hne) hword).mpr
      ⟨[], _, _, rfl, .nil, .inr ⟨hnext, hmean, ih⟩⟩
  | letters hne h _ ih =>
    -- The first letter is no dash, or the word would be read as a name.
    obtain ⟨c, rest, hc, rfl⟩ := hl.exists_of_letters hne h
    obtain ⟨hpending, hmean⟩ := hl.shortItems_none_iff.mpr h
    have hword : l.wordItems (String.ofList ('-' :: c :: rest)) =
        ((l.shortItems (c :: rest)).1, none) := by
      rw [wordItems_short hc, ← hpending]
    exact (forall₂_items_of_none (dash_letters_ne hc) hword).mpr ⟨_, _, rfl, hmean, ih⟩
  | @lettersApart cs c _ _ _ _ _ hcs h htext _ ih =>
    obtain ⟨s, hs, hmean⟩ := hl.letterValue_iff.mp h
    obtain ⟨d, rest, hd, heq⟩ := hl.exists_of_lettersApart hcs h
    obtain ⟨hpending, hsaid⟩ := hl.shortItems_some_iff.mpr ⟨_, _, rfl, hcs, hs⟩
    have hword : l.wordItems (String.ofList ('-' :: cs ++ [c])) =
        ((l.shortItems (cs ++ [c])).1, some s) := by
      rw [List.cons_append, heq, wordItems_short hd, ← heq, ← hpending]
    refine (forall₂_items_of_some ?_ hword).mpr
      ⟨_, _, _, rfl, hsaid, .inl ⟨_, _, rfl, htext, hmean, ih⟩⟩
    rw [List.cons_append, heq]
    exact dash_letters_ne hd

/-- What is said by a word with a long name and by what follows it. -/
theorem spells_long {name : String} {words : List String} {parts : List Part} (hname : name ≠ "")
    (hrest : ∀ {parts}, List.Forall₂ Item.Says (l.items words) parts → Spells v words parts)
    (hmore : ∀ {next more parts}, words = next :: more →
      List.Forall₂ Item.Says (l.items more) parts → Spells v more parts)
    (h : List.Forall₂ Item.Says (l.items (("--" ++ name) :: words)) parts) :
    Spells v (("--" ++ name) :: words) parts := by
  -- If the word asks for no value, its items come first.
  have hdone {its : List Item} (hword : l.wordItems ("--" ++ name) = (its, none)) :=
    (forall₂_items_of_none (dashes_append_ne hname) hword).mp h
  rcases splitEquals_cases name.toList with hsign | ⟨first, value, hsign, heq⟩
  · have hword : l.wordItems ("--" ++ name) = _ :=
      (wordItems_long name).trans (longItems_name hsign)
    cases hlookup : l.long.lookup name with
    | none =>
      rw [hlookup] at hword
      obtain ⟨said, rest, rfl, hsaid, _⟩ := hdone hword
      cases hsaid with
      | cons hmean _ => cases hmean
    | some choice =>
      rw [hlookup] at hword
      cases choice with
      | flag f =>
        obtain ⟨said, rest, rfl, hsaid, hothers⟩ := hdone hword
        cases hsaid with
        | cons hmean hnil =>
          cases hnil
          exact .flag (hl.flag_iff.mpr ⟨f, hlookup, hmean⟩) (hrest hothers)
      | setting s =>
        obtain ⟨said, part, rest, rfl, hsaid, hnext⟩ :=
          (forall₂_items_of_some (dashes_append_ne hname) hword).mp h
        cases hsaid
        rcases hnext with ⟨next, more, rfl, hnext, hmean, hothers⟩ | ⟨hnext, hmean, hothers⟩
        · exact .apart (hl.value_iff.mpr ⟨s, hlookup, hmean⟩) hnext (hmore rfl hothers)
        · exact .bare (hl.bare_iff.mpr ⟨s, hlookup, hmean⟩) hnext (hrest hothers)
  · -- With a value in the word, only an option that has one says something.
    obtain rfl : name = String.ofList first ++ "=" ++ String.ofList value :=
      String.toList_injective (by simpa using heq)
    have hsign' : '=' ∉ (String.ofList first).toList := by rwa [String.toList_ofList]
    have hword := (wordItems_long _).trans (longItems_value (l := l) hsign' (String.ofList value))
    cases hlookup : l.long.lookup (String.ofList first) with
    | none =>
      rw [hlookup] at hword
      obtain ⟨said, rest, rfl, hsaid, _⟩ := hdone hword
      cases hsaid with
      | cons hmean _ => cases hmean
    | some choice =>
      rw [hlookup] at hword
      cases choice with
      | flag f =>
        obtain ⟨said, rest, rfl, hsaid, _⟩ := hdone hword
        cases hsaid with
        | cons hmean _ => cases hmean
      | setting s =>
        obtain ⟨said, rest, rfl, hsaid, hothers⟩ := hdone hword
        cases hsaid with
        | cons hmean hnil =>
          cases hnil
          exact .joined (hl.value_iff.mpr ⟨s, hlookup, hmean⟩) (hrest hothers)

/-- What is said by a word with letters and by what follows it. -/
theorem spells_short {c : Char} {cs : List Char} {words : List String} {parts : List Part}
    (hc : c ≠ '-')
    (hrest : ∀ {parts}, List.Forall₂ Item.Says (l.items words) parts → Spells v words parts)
    (hmore : ∀ {next more parts}, words = next :: more →
      List.Forall₂ Item.Says (l.items more) parts → Spells v more parts)
    (h : List.Forall₂ Item.Says (l.items (String.ofList ('-' :: c :: cs) :: words)) parts) :
    Spells v (String.ofList ('-' :: c :: cs) :: words) parts := by
  cases hpending : (l.shortItems (c :: cs)).2 with
  | none =>
    have hword : l.wordItems (String.ofList ('-' :: c :: cs)) =
        ((l.shortItems (c :: cs)).1, none) := by
      rw [wordItems_short hc, ← hpending]
    obtain ⟨said, rest, rfl, hsaid, hothers⟩ :=
      (forall₂_items_of_none (dash_letters_ne hc) hword).mp h
    exact .letters (List.cons_ne_nil _ _) (hl.shortItems_none_iff.mp ⟨hpending, hsaid⟩)
      (hrest hothers)
  | some s =>
    have hword : l.wordItems (String.ofList ('-' :: c :: cs)) =
        ((l.shortItems (c :: cs)).1, some s) := by
      rw [wordItems_short hc, ← hpending]
    obtain ⟨said, part, rest, rfl, hsaid, hnext⟩ :=
      (forall₂_items_of_some (dash_letters_ne hc) hword).mp h
    obtain ⟨flags, d, heq, hflags, hd⟩ := hl.shortItems_some_iff.mp ⟨hpending, hsaid⟩
    rcases hnext with ⟨next, more, rfl, hnext, hmean, hothers⟩ | ⟨_, hmean, _⟩
    · rw [heq]
      exact .lettersApart hflags (hl.letterValue_iff.mpr ⟨s, hd, hmean⟩) hnext (hmore rfl hothers)
    · -- An option with a letter cannot do without its value.
      exact absurd hmean (hl.letter hd)

/-- What is said by items is said by their words. -/
theorem spells_of_items {words : List String} {parts : List Part}
    (h : List.Forall₂ Item.Says (l.items words) parts) : Spells v words parts := by
  -- The induction is on the number of words, for a value takes the next word with it.
  induction hlength : words.length using Nat.strongRecOn generalizing words parts with
  | _ length ih =>
    cases words with
    | nil =>
      rw [items.eq_1] at h
      cases h
      exact .nil
    | cons word words =>
      have hrest {parts : List Part} (h : List.Forall₂ Item.Says (l.items words) parts) :
          Spells v words parts := ih words.length (hlength ▸ Nat.lt_succ_self _) h rfl
      have hmore {next : String} {more : List String} {parts : List Part}
          (hwords : words = next :: more) (h : List.Forall₂ Item.Says (l.items more) parts) :
          Spells v more parts := by
        refine ih more.length ?_ h rfl
        rw [← hlength, hwords, List.length_cons, List.length_cons]
        omega
      rcases word_cases word with rfl | hword | ⟨name, hname, rfl⟩ | ⟨c, cs, hc, rfl⟩
      · rw [items.eq_2, List.forall₂_map_left_iff] at h
        refine .subjects (h.imp fun word part hmean => ?_)
        cases hmean with
        | subject hne => exact ⟨hne, rfl⟩
      · have hne : word ≠ "--" := by
          rintro rfl
          exact hword ⟨'-', [], rfl⟩
        obtain ⟨said, rest, rfl, hsaid, hothers⟩ :=
          (forall₂_items_of_none hne (wordItems_of_not_isOption hword)).mp h
        cases hsaid with
        | cons hmean hnil =>
          cases hnil
          cases hmean with
          | subject hne => exact .subject hword ⟨hne, rfl⟩ (hrest hothers)
      · exact hl.spells_long hname hrest hmore h
      · exact hl.spells_short hc hrest hmore h

/-- **Words and their items say the same.** -/
theorem spells_iff {words : List String} {parts : List Part} :
    Spells v words parts ↔ List.Forall₂ Item.Says (l.items words) parts :=
  ⟨hl.items_of_spells, hl.spells_of_items⟩

end Level.Matches

end LabelCheck.CommandLine
