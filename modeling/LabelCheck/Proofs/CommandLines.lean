import LabelCheck.Proofs.CommandItems

/-!
# The command lines that are taken

Which command lines ask for a check or a test run, and for which: what is asked for is what has been
said, topic by topic, and nothing else is taken.

* `Collects`: drafts that collect what is said, with the law of a whole pass;
* `Leads`: the words before the command, one by one;
* `Request.parse_eq_check_iff`, `Request.parse_eq_test_iff`: what is taken for a check or a test run
  is one.
-/

namespace LabelCheck.CommandLine

open Document Files

/-! ### Drafts -/

/-- **A draft collects what is said.** It is nothing but what has been said, an item adds what it
says, and if more is said later it has been complete in between. -/
structure Collects {δ : Type} (take : δ → Item → Except Stop δ) (said : δ → Topic → List Part) :
    Prop where
  ext : ∀ {d d'}, (∀ k, said d k = said d' k) → d = d'
  take_iff : ∀ {d item d'}, take d item = .ok d' ↔
    ∃ part, item.Says part ∧ ∀ k, said d' k = said d k ++ about k [part]
  exists_between : ∀ {d part rest d'}, (∀ k, said d' k = said d k ++ about k (part :: rest)) →
    ∃ d₁, ∀ k, said d₁ k = said d k ++ about k [part]

theorem about_cons (k : Topic) (part : Part) (rest : List Part) :
    about k (part :: rest) = about k [part] ++ about k rest := by
  rw [about, about, about, ← List.filter_append, List.singleton_append]

/-- **A pass over items** collects what they say. -/
theorem Collects.foldlM_eq_ok_iff {δ : Type} {take : δ → Item → Except Stop δ}
    {said : δ → Topic → List Part} (h : Collects take said) {its : List Item} {d d' : δ} :
    its.foldlM take d = .ok d' ↔ ∃ parts, List.Forall₂ Item.Says its parts ∧
      ∀ k, said d' k = said d k ++ about k parts := by
  induction its generalizing d with
  | nil =>
    constructor
    · intro hd
      cases hd
      exact ⟨[], .nil, fun k => (List.append_nil _).symm⟩
    · rintro ⟨_, hnil, hsaid⟩
      cases hnil
      have heq : d' = d := h.ext fun k => (hsaid k).trans (List.append_nil _)
      rw [heq]
      rfl
  | cons item its ih =>
    rw [List.foldlM_cons, bind_eq_ok_iff]
    constructor
    · -- What is said step by step adds up in order.
      rintro ⟨d₁, htake, hfold⟩
      obtain ⟨part, hmean, hd₁⟩ := h.take_iff.mp htake
      obtain ⟨parts, hparts, hd'⟩ := ih.mp hfold
      refine ⟨part :: parts, .cons hmean hparts, fun k => ?_⟩
      rw [hd', hd₁, about_cons k part parts, List.append_assoc]
    · rintro ⟨_, hall, hd'⟩
      cases hall with
      | cons hmean hparts =>
        -- The draft in between exists only because the last one was told all of it.
        obtain ⟨d₁, hd₁⟩ := h.exists_between hd'
        refine ⟨d₁, h.take_iff.mpr ⟨_, hmean, hd₁⟩, ih.mpr ⟨_, hparts, fun k => ?_⟩⟩
        rw [hd', hd₁, about_cons, List.append_assoc]

/-- A draft collects what is said if it takes just what it accepts, and puts it to the rest. -/
theorem Collects.of_put {δ : Type} {take : δ → Item → Except Stop δ} {said : δ → Topic → List Part}
    {put : δ → Part → δ} {accepts : δ → Part → Prop}
    (hext : ∀ {d d'}, (∀ k, said d k = said d' k) → d = d')
    (htake : ∀ {d d' item},
      take d item = .ok d' ↔ ∃ part, item.Says part ∧ accepts d part ∧ d' = put d part)
    (hput : ∀ {d part}, accepts d part → ∀ k, said (put d part) k = said d k ++ about k [part])
    (haccepts : ∀ {d d' part rest},
      (∀ k, said d' k = said d k ++ about k (part :: rest)) → accepts d part) :
    Collects take said where
  ext := hext
  take_iff := by
    intro d item d'
    rw [htake]
    refine exists_congr fun part => and_congr_right fun _ => ?_
    constructor
    · rintro ⟨hpart, rfl⟩
      exact hput hpart
    · intro hsaid
      have hpart := haccepts hsaid
      exact ⟨hpart, hext fun k => (hsaid k).trans (hput hpart k).symm⟩
  exists_between := fun hsaid => ⟨_, hput (haccepts hsaid)⟩

theorem switched_inj {on on' : Bool} {part : Part} (h : switched on part = switched on' part) :
    on = on' := by
  cases on <;> cases on' <;> simp at h <;> rfl

theorem given_inj {α : Type} {o o' : Option α} {part : α → Part} (hpart : part.Injective)
    (h : given o part = given o' part) : o = o' := by
  cases o <;> cases o' <;> simp at h
  · rfl
  · rw [hpart h]

/-- What has been switched on cannot be switched on again. -/
theorem off_of_switched {on on' : Bool} {part part' : Part} {rest : List Part}
    (h : switched on' part = switched on part ++ part' :: rest) : on = false := by
  cases on with
  | false => rfl
  | true => cases on' <;> simp at h

/-- What has a value cannot be given another one. -/
theorem none_of_given {α : Type} {o o' : Option α} {part : α → Part} {part' : Part}
    {rest : List Part} (h : given o' part = given o part ++ part' :: rest) : o = none := by
  cases o with
  | none => rfl
  | some a => cases o' <;> simp at h

theorem switchOn_bind_eq_ok_iff {β : Type} {on : Bool} {f : Bool → Except Stop β} {b : β} :
    (switchOn on >>= f) = .ok b ↔ on = false ∧ f true = .ok b := by
  cases on with
  | true => exact iff_of_false nofun fun h => nomatch h.1
  | false => exact ⟨fun h => ⟨rfl, h⟩, fun h => h.2⟩

theorem putOnce_bind_eq_ok_iff {α β : Type} {old : Option α} {value : Except Stop α}
    {f : Option α → Except Stop β} {b : β} :
    (putOnce old value >>= f) = .ok b ↔ old = none ∧ ∃ a, value = .ok a ∧ f (some a) = .ok b := by
  cases old with
  | some _ => exact iff_of_false nofun fun h => nomatch h.1
  | none =>
    cases value with
    | error _ => exact iff_of_false nofun fun ⟨_, _, h, _⟩ => nomatch h
    | ok a =>
      constructor
      · intro h
        exact ⟨rfl, a, rfl, h⟩
      · rintro ⟨_, _, ha, h⟩
        cases ha
        exact h

theorem pathValue_eq_ok_iff {text : String} {path : Path} :
    pathValue text = .ok path ↔ text ≠ "" ∧ path = .ofText text := by
  unfold pathValue
  by_cases h : text = ""
  · rw [if_pos (by simpa using h)]
    exact iff_of_false nofun fun hpath => hpath.1 h
  · rw [if_neg (by simpa using h), Except.ok.injEq, eq_comm]
    exact (and_iff_right h).symm

theorem boolValue_eq_ok_iff {text : String} {b : Bool} :
    boolValue text = .ok b ↔ (text = "true" ∧ b = true) ∨ (text = "false" ∧ b = false) := by
  constructor
  · intro h
    unfold boolValue at h
    split at h <;> cases h
    · exact .inl ⟨rfl, rfl⟩
    · exact .inr ⟨rfl, rfl⟩
  · rintro (⟨rfl, rfl⟩ | ⟨rfl, rfl⟩) <;> rfl

theorem namedValue_parse_level {text : String} {level : Conformance} :
    namedValue (Conformance.parse text) = .ok level ↔ LevelNamed text.toLower level := by
  unfold Conformance.parse
  constructor
  · intro h
    split at h <;> cases h
    · next hname => exact hname ▸ .default
    · next hname => exact hname ▸ .lenient
    · next hname => exact hname ▸ .strict
  · intro h
    generalize text.toLower = name at h ⊢
    cases h <;> rfl

theorem namedValue_parse_policy {text : String} {policy : UnresolvedPolicy} :
    namedValue (UnresolvedPolicy.parse text) = .ok policy ↔ PolicyNamed text.toLower policy := by
  unfold UnresolvedPolicy.parse
  constructor
  · intro h
    split at h <;> cases h
    · next hname => exact hname ▸ .error
    · next hname => exact hname ▸ .warn
    · next hname => exact hname ▸ .ignore
  · intro h
    generalize text.toLower = name at h ⊢
    cases h <;> rfl

theorem Manner.take_noColor_iff {m n : Manner} :
    m.take .noColor = .ok n ↔ m.noColor = false ∧ n = { m with noColor := true } := by
  refine switchOn_bind_eq_ok_iff.trans (and_congr_right fun _ => ?_)
  exact ⟨fun h => (Except.ok.inj h).symm, fun h => congrArg Except.ok h.symm⟩

theorem Manner.take_verbose_iff {m n : Manner} :
    m.take .verbose = .ok n ↔ m.verbose = false ∧ n = { m with verbose := true } := by
  refine switchOn_bind_eq_ok_iff.trans (and_congr_right fun _ => ?_)
  exact ⟨fun h => (Except.ok.inj h).symm, fun h => congrArg Except.ok h.symm⟩

namespace CheckDraft

/-- What a draft of a check has been told so far. -/
def said (d : CheckDraft) : Topic → List Part
  | .noColor => switched d.manner.noColor .noColor
  | .verbose => switched d.manner.verbose .verbose
  | .resolutions => switched d.resolutions .resolutions
  | .tree => switched d.tree .tree
  | .config => given d.settings.config .config
  | .conformance => given d.settings.conformance .conformance
  | .caseSensitive => given d.settings.caseSensitive .caseSensitive
  | .unresolvedLabel => given d.settings.unresolvedLabel .unresolvedLabel
  | .subject => given d.file .subject
  | .listCategories | .category => []

/-- A draft with one thing more. -/
def put (d : CheckDraft) : Part → CheckDraft
  | .noColor => { d with manner := { d.manner with noColor := true } }
  | .verbose => { d with manner := { d.manner with verbose := true } }
  | .resolutions => { d with resolutions := true }
  | .tree => { d with tree := true }
  | .config path => { d with settings := { d.settings with config := some path } }
  | .conformance level => { d with settings := { d.settings with conformance := some level } }
  | .caseSensitive b => { d with settings := { d.settings with caseSensitive := some b } }
  | .unresolvedLabel policy =>
    { d with settings := { d.settings with unresolvedLabel := some policy } }
  | .subject path => { d with file := some path }
  | .listCategories | .category _ => d

/-- Nothing has been said of the topic yet, and it is one of a check. -/
def Accepts (d : CheckDraft) : Part → Prop
  | .noColor => d.manner.noColor = false
  | .verbose => d.manner.verbose = false
  | .resolutions => d.resolutions = false
  | .tree => d.tree = false
  | .config _ => d.settings.config = none
  | .conformance _ => d.settings.conformance = none
  | .caseSensitive _ => d.settings.caseSensitive = none
  | .unresolvedLabel _ => d.settings.unresolvedLabel = none
  | .subject _ => d.file = none
  | .listCategories | .category _ => False

/-- What is taken for a setting is said by the option and its value. -/
theorem exists_says_of_take_setting {d : CheckDraft} {s : Setting} {value : Option String}
    {a : SettingArguments} (h : d.settings.take s value = .ok a) :
    ∃ part, (Item.setting s value).Says part ∧ d.Accepts part ∧
      { d with settings := a } = d.put part := by
  cases s with
  | config =>
    cases value with
    | none => cases h
    | some text =>
      -- The option has not been there before, and its value is none of the empty text.
      obtain ⟨hnone, path, hpath, h⟩ := putOnce_bind_eq_ok_iff.mp h
      obtain ⟨hne, rfl⟩ := pathValue_eq_ok_iff.mp hpath
      cases h
      exact ⟨_, .config hne, hnone, rfl⟩
  | conformance =>
    cases value with
    | none => cases h
    | some text =>
      obtain ⟨hnone, level, hlevel, h⟩ := putOnce_bind_eq_ok_iff.mp h
      cases h
      exact ⟨_, .conformance (namedValue_parse_level.mp hlevel), hnone, rfl⟩
  | caseSensitive =>
    obtain ⟨hnone, b, hb, h⟩ := putOnce_bind_eq_ok_iff.mp h
    cases h
    -- This option can do without its value.
    cases value with
    | none =>
      cases hb
      exact ⟨_, .caseBare, hnone, rfl⟩
    | some text =>
      obtain ⟨rfl, rfl⟩ | ⟨rfl, rfl⟩ := boolValue_eq_ok_iff.mp hb
      · exact ⟨_, .caseSensitive, hnone, rfl⟩
      · exact ⟨_, .caseInsensitive, hnone, rfl⟩
  | unresolvedLabel =>
    cases value with
    | none => cases h
    | some text =>
      obtain ⟨hnone, policy, hpolicy, h⟩ := putOnce_bind_eq_ok_iff.mp h
      cases h
      exact ⟨_, .unresolvedLabel (namedValue_parse_policy.mp hpolicy), hnone, rfl⟩
  | category => cases value <;> cases h

/-- What an item says is taken if nothing has been said of its topic. -/
theorem take_of_says {d : CheckDraft} {item : Item} {part : Part} (hmean : item.Says part)
    (hnone : d.Accepts part) : d.take item = .ok (d.put part) := by
  cases hmean with
  | resolutions | tree => exact switchOn_bind_eq_ok_iff.mpr ⟨hnone, rfl⟩
  | noColor | verbose =>
    exact bind_eq_ok_iff.mpr ⟨_, switchOn_bind_eq_ok_iff.mpr ⟨hnone, rfl⟩, rfl⟩
  | config h =>
    have hpath := pathValue_eq_ok_iff.mpr ⟨h, rfl⟩
    exact bind_eq_ok_iff.mpr ⟨_, putOnce_bind_eq_ok_iff.mpr ⟨hnone, _, hpath, rfl⟩, rfl⟩
  | conformance h =>
    have hlevel := namedValue_parse_level.mpr h
    exact bind_eq_ok_iff.mpr ⟨_, putOnce_bind_eq_ok_iff.mpr ⟨hnone, _, hlevel, rfl⟩, rfl⟩
  | caseSensitive | caseInsensitive | caseBare =>
    exact bind_eq_ok_iff.mpr ⟨_, putOnce_bind_eq_ok_iff.mpr ⟨hnone, _, rfl, rfl⟩, rfl⟩
  | unresolvedLabel h =>
    have hpolicy := namedValue_parse_policy.mpr h
    exact bind_eq_ok_iff.mpr ⟨_, putOnce_bind_eq_ok_iff.mpr ⟨hnone, _, hpolicy, rfl⟩, rfl⟩
  | subject h =>
    exact putOnce_bind_eq_ok_iff.mpr ⟨hnone, _, pathValue_eq_ok_iff.mpr ⟨h, rfl⟩, rfl⟩
  | listCategories | category => exact hnone.elim

theorem take_eq_ok_iff {d d' : CheckDraft} {item : Item} :
    d.take item = .ok d' ↔ ∃ part, item.Says part ∧ d.Accepts part ∧ d' = d.put part := by
  constructor
  · intro h
    cases item with
    | flag f =>
      cases f with
      | resolutions =>
        obtain ⟨hon, h⟩ := switchOn_bind_eq_ok_iff.mp h
        cases h
        exact ⟨_, .resolutions, hon, rfl⟩
      | tree =>
        obtain ⟨hon, h⟩ := switchOn_bind_eq_ok_iff.mp h
        cases h
        exact ⟨_, .tree, hon, rfl⟩
      | noColor =>
        obtain ⟨m, hm, h⟩ := bind_eq_ok_iff.mp h
        obtain ⟨hon, rfl⟩ := Manner.take_noColor_iff.mp hm
        cases h
        exact ⟨_, .noColor, hon, rfl⟩
      | verbose =>
        obtain ⟨m, hm, h⟩ := bind_eq_ok_iff.mp h
        obtain ⟨hon, rfl⟩ := Manner.take_verbose_iff.mp hm
        cases h
        exact ⟨_, .verbose, hon, rfl⟩
      | help | version | listCategories => cases h
    | setting s value =>
      obtain ⟨a, ha, h⟩ := bind_eq_ok_iff.mp h
      cases h
      exact exists_says_of_take_setting ha
    | word text =>
      obtain ⟨hnone, path, hpath, h⟩ := putOnce_bind_eq_ok_iff.mp h
      obtain ⟨hne, rfl⟩ := pathValue_eq_ok_iff.mp hpath
      cases h
      exact ⟨_, .subject hne, hnone, rfl⟩
    | invalid => cases h
  · rintro ⟨part, hmean, hnone, rfl⟩
    exact take_of_says hmean hnone

/-- What is put into a draft is what it has been told then. -/
theorem said_put {d : CheckDraft} {part : Part} (h : d.Accepts part) (k : Topic) :
    (d.put part).said k = d.said k ++ about k [part] := by
  obtain ⟨⟨noColor, verbose⟩, file, ⟨config, level, case, policy⟩, resolutions, tree⟩ := d
  cases part with
  | listCategories | category => exact h.elim
  | _ =>
    cases h
    cases k <;> simp [said, put, about, Part.topic]

/-- Only what is accepted can be said behind what has been said. -/
theorem accepts_of_said {d d' : CheckDraft} {part : Part} {rest : List Part}
    (h : ∀ k, d'.said k = d.said k ++ about k (part :: rest)) : d.Accepts part := by
  cases part with
  | noColor => exact off_of_switched (h .noColor)
  | verbose => exact off_of_switched (h .verbose)
  | resolutions => exact off_of_switched (h .resolutions)
  | tree => exact off_of_switched (h .tree)
  | config => exact none_of_given (h .config)
  | conformance => exact none_of_given (h .conformance)
  | caseSensitive => exact none_of_given (h .caseSensitive)
  | unresolvedLabel => exact none_of_given (h .unresolvedLabel)
  | subject => exact none_of_given (h .subject)
  | listCategories => cases h .listCategories
  | category => cases h .category

theorem ext_said {d d' : CheckDraft} (h : ∀ k, d.said k = d'.said k) : d = d' := by
  obtain ⟨⟨noColor, verbose⟩, file, ⟨config, level, case, policy⟩, resolutions, tree⟩ := d
  obtain ⟨⟨noColor', verbose'⟩, file', ⟨config', level', case', policy'⟩, resolutions', tree'⟩ := d'
  obtain rfl : noColor = noColor' := switched_inj (h .noColor)
  obtain rfl : verbose = verbose' := switched_inj (h .verbose)
  obtain rfl : resolutions = resolutions' := switched_inj (h .resolutions)
  obtain rfl : tree = tree' := switched_inj (h .tree)
  obtain rfl : config = config' := given_inj (fun _ _ => Part.config.inj) (h .config)
  obtain rfl : level = level' := given_inj (fun _ _ => Part.conformance.inj) (h .conformance)
  obtain rfl : case = case' := given_inj (fun _ _ => Part.caseSensitive.inj) (h .caseSensitive)
  obtain rfl : policy = policy' :=
    given_inj (fun _ _ => Part.unresolvedLabel.inj) (h .unresolvedLabel)
  obtain rfl : file = file' := given_inj (fun _ _ => Part.subject.inj) (h .subject)
  rfl

/-- **A draft of a check collects what is said.** -/
theorem collects : Collects take said :=
  .of_put ext_said take_eq_ok_iff said_put accepts_of_said

end CheckDraft

namespace TestDraft

/-- What a draft of a test run has been told so far. -/
def said (d : TestDraft) : Topic → List Part
  | .noColor => switched d.manner.noColor .noColor
  | .verbose => switched d.manner.verbose .verbose
  | .listCategories => switched d.listCategories .listCategories
  | .category => d.categories.map .category
  | .subject => given d.path .subject
  | .resolutions | .tree | .config | .conformance | .caseSensitive | .unresolvedLabel => []

/-- A draft with one thing more. -/
def put (d : TestDraft) : Part → TestDraft
  | .noColor => { d with manner := { d.manner with noColor := true } }
  | .verbose => { d with manner := { d.manner with verbose := true } }
  | .listCategories => { d with listCategories := true }
  | .category name => { d with categories := d.categories ++ [name] }
  | .subject path => { d with path := some path }
  | _ => d

/-- The topic is one of a test run, and nothing has been said of it yet, if it is not one of which
more can be said. -/
def Accepts (d : TestDraft) : Part → Prop
  | .noColor => d.manner.noColor = false
  | .verbose => d.manner.verbose = false
  | .listCategories => d.listCategories = false
  | .category _ => True
  | .subject _ => d.path = none
  | _ => False

theorem take_eq_ok_iff {d d' : TestDraft} {item : Item} :
    d.take item = .ok d' ↔ ∃ part, item.Says part ∧ d.Accepts part ∧ d' = d.put part := by
  constructor
  · intro h
    cases item with
    | flag f =>
      cases f with
      | listCategories =>
        obtain ⟨hon, h⟩ := switchOn_bind_eq_ok_iff.mp h
        cases h
        exact ⟨_, .listCategories, hon, rfl⟩
      | noColor =>
        obtain ⟨m, hm, h⟩ := bind_eq_ok_iff.mp h
        obtain ⟨hon, rfl⟩ := Manner.take_noColor_iff.mp hm
        cases h
        exact ⟨_, .noColor, hon, rfl⟩
      | verbose =>
        obtain ⟨m, hm, h⟩ := bind_eq_ok_iff.mp h
        obtain ⟨hon, rfl⟩ := Manner.take_verbose_iff.mp hm
        cases h
        exact ⟨_, .verbose, hon, rfl⟩
      | help | version | resolutions | tree => cases h
    | setting s value =>
      cases s with
      | category =>
        cases value with
        | none => cases h
        | some text =>
          cases h
          exact ⟨_, .category, trivial, rfl⟩
      | config | conformance | caseSensitive | unresolvedLabel => cases h
    | word text =>
      obtain ⟨hnone, path, hpath, h⟩ := putOnce_bind_eq_ok_iff.mp h
      obtain ⟨hne, rfl⟩ := pathValue_eq_ok_iff.mp hpath
      cases h
      exact ⟨_, .subject hne, hnone, rfl⟩
    | invalid => cases h
  · rintro ⟨part, hmean, hnone, rfl⟩
    cases hmean with
    | listCategories => exact switchOn_bind_eq_ok_iff.mpr ⟨hnone, rfl⟩
    | noColor | verbose =>
      exact bind_eq_ok_iff.mpr ⟨_, switchOn_bind_eq_ok_iff.mpr ⟨hnone, rfl⟩, rfl⟩
    | category => rfl
    | subject h =>
      exact putOnce_bind_eq_ok_iff.mpr ⟨hnone, _, pathValue_eq_ok_iff.mpr ⟨h, rfl⟩, rfl⟩
    | resolutions | tree | config | conformance | caseSensitive | caseInsensitive | caseBare
      | unresolvedLabel => exact hnone.elim

theorem said_put {d : TestDraft} {part : Part} (h : d.Accepts part) (k : Topic) :
    (d.put part).said k = d.said k ++ about k [part] := by
  obtain ⟨⟨noColor, verbose⟩, path, categories, listCategories⟩ := d
  cases part with
  | noColor | verbose | listCategories | subject =>
    cases h
    cases k <;> simp [said, put, about, Part.topic]
  | category => cases k <;> simp [said, put, about, Part.topic]
  | _ => exact h.elim

theorem accepts_of_said {d d' : TestDraft} {part : Part} {rest : List Part}
    (h : ∀ k, d'.said k = d.said k ++ about k (part :: rest)) : d.Accepts part := by
  cases part with
  | noColor => exact off_of_switched (h .noColor)
  | verbose => exact off_of_switched (h .verbose)
  | listCategories => exact off_of_switched (h .listCategories)
  | category => trivial
  | subject => exact none_of_given (h .subject)
  | resolutions => cases h .resolutions
  | tree => cases h .tree
  | config => cases h .config
  | conformance => cases h .conformance
  | caseSensitive => cases h .caseSensitive
  | unresolvedLabel => cases h .unresolvedLabel

theorem ext_said {d d' : TestDraft} (h : ∀ k, d.said k = d'.said k) : d = d' := by
  obtain ⟨⟨noColor, verbose⟩, path, categories, listCategories⟩ := d
  obtain ⟨⟨noColor', verbose'⟩, path', categories', listCategories'⟩ := d'
  obtain rfl : noColor = noColor' := switched_inj (h .noColor)
  obtain rfl : verbose = verbose' := switched_inj (h .verbose)
  obtain rfl : listCategories = listCategories' := switched_inj (h .listCategories)
  obtain rfl : categories = categories' :=
    List.map_injective_iff.mpr (fun _ _ => Part.category.inj) (h .category)
  obtain rfl : path = path' := given_inj (fun _ _ => Part.subject.inj) (h .subject)
  rfl

/-- **A draft of a test run collects what is said.** -/
theorem collects : Collects take said :=
  .of_put ext_said take_eq_ok_iff said_put accepts_of_said

end TestDraft

/-! ### The words before the command -/

/-- What a word before the command chooses. -/
inductive Chooses : String → Flag → Prop where
  | noColor : Chooses "--no-color" .noColor
  | verbose : Chooses "--verbose" .verbose
  | letter : Chooses "-v" .verbose

/-- Words before the command, taken one by one. -/
inductive Leads : Manner → List String → Manner → Prop where
  | nil {m : Manner} : Leads m [] m
  | cons {m m₁ n : Manner} {word : String} {words : List String} {f : Flag} (h : Chooses word f)
    (htake : m.take f = .ok m₁) (hrest : Leads m₁ words n) : Leads m (word :: words) n

variable {m n : Manner} {words : List String}

/-- Words that are taken before the command are options of both commands. -/
theorem Leads.known (h : Leads m words n) :
    ∀ word ∈ words, word = "--no-color" ∨ word = "--verbose" ∨ word = "-v" := by
  induction h with
  | nil => exact List.forall_mem_nil _
  | cons hword _ _ ih =>
    refine List.forall_mem_cons.mpr ⟨?_, ih⟩
    cases hword with
    | noColor => exact .inl rfl
    | verbose => exact .inr (.inl rfl)
    | letter => exact .inr (.inr rfl)

/-- Whether colour is off is how often it has been switched off, so this is at most once. -/
theorem Leads.noColor_add (h : Leads m words n) :
    m.noColor.toNat + words.countP (fun word => word = "--no-color") = n.noColor.toNat := by
  induction h with
  | nil => rfl
  | cons hword htake _ ih =>
    rw [List.countP_cons]
    cases hword with
    | noColor =>
      obtain ⟨hoff, rfl⟩ := Manner.take_noColor_iff.mp htake
      rw [hoff, ← ih]
      simp [Nat.add_comm]
    | verbose | letter =>
      obtain ⟨_, rfl⟩ := Manner.take_verbose_iff.mp htake
      simpa using ih

theorem Leads.verbose_add (h : Leads m words n) :
    m.verbose.toNat + words.countP (fun word => word = "--verbose" ∨ word = "-v") =
      n.verbose.toNat := by
  induction h with
  | nil => rfl
  | cons hword htake _ ih =>
    rw [List.countP_cons]
    cases hword with
    | noColor =>
      obtain ⟨_, rfl⟩ := Manner.take_noColor_iff.mp htake
      simpa using ih
    | verbose | letter =>
      obtain ⟨hoff, rfl⟩ := Manner.take_verbose_iff.mp htake
      rw [hoff, ← ih]
      simp [Nat.add_comm]

/-- What is counted once more than before was not chosen before. -/
theorem off_of_toNat_add {b c : Bool} {count : Nat} (h : b.toNat + (count + 1) = c.toNat) :
    b = false := by
  cases b with
  | false => rfl
  | true =>
    have hle := c.toNat_le
    rw [← h, Bool.toNat_true] at hle
    omega

/-- Options of both commands are taken if none of them is chosen twice. -/
theorem leads_of_counts
    (hknown : ∀ word ∈ words, word = "--no-color" ∨ word = "--verbose" ∨ word = "-v")
    (hcolor : m.noColor.toNat + words.countP (fun word => word = "--no-color") = n.noColor.toNat)
    (hverbose : m.verbose.toNat + words.countP (fun word => word = "--verbose" ∨ word = "-v") =
      n.verbose.toNat) : Leads m words n := by
  induction words generalizing m with
  | nil =>
    have hinj {b c : Bool} (h : b.toNat = c.toNat) : b = c := by
      cases b <;> cases c <;> first | rfl | cases h
    obtain rfl : m = n := by
      cases m
      cases n
      rw [Manner.mk.injEq]
      exact ⟨hinj hcolor, hinj hverbose⟩
    exact .nil
  | cons word words ih =>
    rw [List.countP_cons] at hcolor hverbose
    obtain ⟨hword, hrest⟩ := List.forall_mem_cons.mp hknown
    obtain rfl | hword : word = "--no-color" ∨ word = "--verbose" ∨ word = "-v" := hword
    · have hoff := off_of_toNat_add hcolor
      refine .cons .noColor (Manner.take_noColor_iff.mpr ⟨hoff, rfl⟩) (ih hrest ?_ hverbose)
      rw [hoff] at hcolor
      simpa [Nat.add_comm] using hcolor
    · -- The word and the letter choose the same.
      have hchooses : Chooses word .verbose := by
        rcases hword with rfl | rfl
        · exact .verbose
        · exact .letter
      have hoff := off_of_toNat_add (by simpa [hword] using hverbose)
      have hcolor' : m.noColor.toNat + words.countP (fun word => word = "--no-color") =
          n.noColor.toNat := by
        rcases hword with rfl | rfl <;> simpa using hcolor
      refine .cons hchooses (Manner.take_verbose_iff.mpr ⟨hoff, rfl⟩) (ih hrest hcolor' ?_)
      rw [hoff] at hverbose
      simpa [hword, Nat.add_comm] using hverbose

/-- Take an item before the command. -/
def Manner.takeItem (m : Manner) : Item → Except Stop Manner
  | .flag f => m.take f
  | _ => .error .misuse

theorem mem_topLevel {name : String} {choice : Choice}
    (h : topLevel.long.lookup name = some choice) :
    (name = "version" ∧ choice = .flag .version) ∨ (name = "no-color" ∧ choice = .flag .noColor) ∨
      (name = "verbose" ∧ choice = .flag .verbose) ∨ (name = "help" ∧ choice = .flag .help) := by
  have hmem := Toml.mem_of_lookup_eq_some h
  simpa [topLevel, commonLong] using hmem

theorem mem_topLevel_short {c : Char} {choice : Choice}
    (h : topLevel.short.lookup c = some choice) :
    (c = 'V' ∧ choice = .flag .version) ∨ (c = 'v' ∧ choice = .flag .verbose) ∨
      (c = 'h' ∧ choice = .flag .help) := by
  have hmem := Toml.mem_of_lookup_eq_some h
  simpa [topLevel, commonShort] using hmem

/-- The only letter that is taken before the command switches the log on. -/
theorem verbose_of_shortItems {c : Char} {cs : List Char}
    (h : (topLevel.shortItems (c :: cs)).1.foldlM Manner.takeItem m = .ok n) :
    c = 'v' ∧ m.verbose = false ∧
      (topLevel.shortItems cs).1.foldlM Manner.takeItem { m with verbose := true } = .ok n := by
  rw [Level.shortItems] at h
  cases hlookup : topLevel.short.lookup c with
  | none =>
    rw [hlookup] at h
    cases h
  | some choice =>
    rw [hlookup] at h
    rcases mem_topLevel_short hlookup with ⟨_, rfl⟩ | ⟨rfl, rfl⟩ | ⟨_, rfl⟩
    · cases h
    · obtain ⟨m₁, hm, h⟩ := bind_eq_ok_iff.mp h
      obtain ⟨hoff, rfl⟩ := Manner.take_verbose_iff.mp hm
      exact ⟨rfl, hoff, h⟩
    · cases h

/-- A name that is taken before the command is written out and has no value. -/
theorem exists_chooses_of_longItems {name : String}
    (h : (topLevel.longItems name.toList).1.foldlM Manner.takeItem m = .ok n) :
    ∃ f, Chooses ("--" ++ name) f ∧ m.take f = .ok n := by
  rcases splitEquals_cases name.toList with hsign | ⟨first, value, hsign, heq⟩
  · -- Help and the version stop the program, so only the options of both commands are left.
    rw [Level.longItems_name hsign] at h
    cases hlookup : topLevel.long.lookup name with
    | none =>
      rw [hlookup] at h
      cases h
    | some choice =>
      rw [hlookup] at h
      rcases mem_topLevel hlookup with ⟨_, rfl⟩ | ⟨rfl, rfl⟩ | ⟨rfl, rfl⟩ | ⟨_, rfl⟩
      · cases h
      · obtain ⟨_, hm, h⟩ := bind_eq_ok_iff.mp h
        cases h
        exact ⟨_, .noColor, hm⟩
      · obtain ⟨_, hm, h⟩ := bind_eq_ok_iff.mp h
        cases h
        exact ⟨_, .verbose, hm⟩
      · cases h
  · -- Nothing that is known before the command has a value.
    obtain rfl : name = String.ofList first ++ "=" ++ String.ofList value :=
      String.toList_injective (by simpa using heq)
    have hsign' : '=' ∉ (String.ofList first).toList := by rwa [String.toList_ofList]
    rw [Level.longItems_value hsign'] at h
    cases hlookup : topLevel.long.lookup (String.ofList first) with
    | none =>
      rw [hlookup] at h
      cases h
    | some choice =>
      rw [hlookup] at h
      rcases mem_topLevel hlookup with ⟨_, rfl⟩ | ⟨_, rfl⟩ | ⟨_, rfl⟩ | ⟨_, rfl⟩ <;> cases h

theorem exists_chooses_of_foldlM {word : String} (hword : word ≠ "--")
    (h : (topLevel.wordItems word).1.foldlM Manner.takeItem m = .ok n) :
    ∃ f, Chooses word f ∧ m.take f = .ok n := by
  rcases word_cases word with rfl | hoption | ⟨name, hname, rfl⟩ | ⟨c, cs, hc, rfl⟩
  · exact absurd rfl hword
  · rw [Level.wordItems_of_not_isOption hoption] at h
    cases h
  · rw [Level.wordItems_long] at h
    exact exists_chooses_of_longItems h
  · rw [Level.wordItems_short hc] at h
    obtain ⟨rfl, hoff, h⟩ := verbose_of_shortItems h
    -- A second letter would choose the same again.
    cases cs with
    | nil =>
      cases h
      exact ⟨_, .letter, Manner.take_verbose_iff.mpr ⟨hoff, rfl⟩⟩
    | cons d ds => cases (verbose_of_shortItems h).2.1

theorem foldlM_of_chooses {word : String} {f : Flag} (h : Chooses word f)
    (htake : m.take f = .ok n) :
    (topLevel.wordItems word).1.foldlM Manner.takeItem m = .ok n := by
  have hitems : (topLevel.wordItems word).1 = [.flag f] := by
    cases h <;> decide
  rw [hitems]
  exact bind_eq_ok_iff.mpr ⟨n, htake, rfl⟩

/-- What is taken has the command behind words that are options of both. -/
theorem exists_leads_of_parseFrom {r : Request} (h : Request.parseFrom m words = .ok r) :
    ∃ before behind n, Leads m before n ∧
      ((words = before ++ "check" :: behind ∧ parseCheck n behind = .ok r) ∨
        (words = before ++ "test" :: behind ∧ parseTest n behind = .ok r)) := by
  induction words generalizing m with
  | nil => cases h
  | cons word words ih =>
    by_cases hcheck : word = "check"
    · subst hcheck
      exact ⟨[], words, m, .nil, .inl ⟨rfl, h⟩⟩
    by_cases htest : word = "test"
    · subst htest
      exact ⟨[], words, m, .nil, .inr ⟨rfl, h⟩⟩
    -- Help is not a request, and behind two dashes no command is looked for.
    by_cases hhelp : word = "help"
    · subst hhelp
      cases h
    by_cases hdashes : word = "--"
    · subst hdashes
      cases h
    rw [Request.parseFrom.eq_6 _ _ _ hcheck htest hhelp hdashes] at h
    obtain ⟨m₁, hm₁, h⟩ := bind_eq_ok_iff.mp h
    obtain ⟨f, hf, htake⟩ := exists_chooses_of_foldlM hdashes hm₁
    obtain ⟨before, behind, n, hbefore, hbehind⟩ := ih h
    refine ⟨word :: before, behind, n, .cons hf htake hbefore, ?_⟩
    rcases hbehind with ⟨rfl, hparse⟩ | ⟨rfl, hparse⟩
    · exact .inl ⟨rfl, hparse⟩
    · exact .inr ⟨rfl, hparse⟩

/-- Options of both commands are passed on to the command behind them. -/
theorem parseFrom_append {more : List String} (h : Leads m words n) :
    Request.parseFrom m (words ++ more) = Request.parseFrom n more := by
  induction h with
  | nil => rfl
  | @cons m m₁ n word words f hf htake _ ih =>
    have hstep : Request.parseFrom m (word :: (words ++ more)) =
        ((topLevel.wordItems word).1.foldlM Manner.takeItem m >>= fun m₁ =>
          Request.parseFrom m₁ (words ++ more)) := by
      cases hf <;> rfl
    rw [List.cons_append, hstep, foldlM_of_chooses hf htake]
    exact ih

theorem parseFrom_eq_ok_iff {r : Request} :
    Request.parseFrom m words = .ok r ↔ ∃ before behind n, Leads m before n ∧
      ((words = before ++ "check" :: behind ∧ parseCheck n behind = .ok r) ∨
        (words = before ++ "test" :: behind ∧ parseTest n behind = .ok r)) := by
  constructor
  · exact exists_leads_of_parseFrom
  · rintro ⟨before, behind, n, hbefore, ⟨rfl, hparse⟩ | ⟨rfl, hparse⟩⟩
    · rw [parseFrom_append hbefore]
      exact hparse
    · rw [parseFrom_append hbefore]
      exact hparse

/-- Nothing is switched on at first, so what is on behind the words has been chosen once. -/
theorem leads_empty_iff : Leads {} words m ↔ Precede words m := by
  constructor
  · intro h
    exact ⟨h.known, by simpa using h.noColor_add, by simpa using h.verbose_add⟩
  · rintro ⟨hknown, hcolor, hverbose⟩
    exact leads_of_counts hknown (by simpa using hcolor) (by simpa using hverbose)

/-! ### Requests -/

theorem parseCheck_eq_check_iff {m manner : Manner} {words : List String} {a : CheckArguments} :
    parseCheck m words = .ok (.check manner a) ↔ ∃ n parts, Spells checkWords words parts ∧
      (∀ k, about k parts = a.said n k) ∧ manner = m.or n := by
  -- Nothing has been said at first, and a complete draft has been told what is asked for.
  have hempty (k : Topic) : ({} : CheckDraft).said k = [] := by cases k <;> rfl
  unfold parseCheck
  rw [bind_eq_ok_iff]
  constructor
  · rintro ⟨⟨n, file, settings, resolutions, tree⟩, hfold, h⟩
    obtain ⟨parts, hparts, hsaid⟩ := CheckDraft.collects.foldlM_eq_ok_iff.mp hfold
    cases file with
    | none => cases h
    | some file =>
      cases h
      refine ⟨n, parts, matches_checkLevel.spells_iff.mpr hparts, fun k => ?_, rfl⟩
      have hk := hsaid k
      rw [hempty, List.nil_append] at hk
      rw [← hk]
      cases k <;> rfl
  · rintro ⟨n, parts, hparts, hsaid, rfl⟩
    let d : CheckDraft := ⟨n, some a.file, a.settings, a.resolutions, a.tree⟩
    refine ⟨d, CheckDraft.collects.foldlM_eq_ok_iff.mpr
      ⟨parts, matches_checkLevel.spells_iff.mp hparts, fun k => ?_⟩, rfl⟩
    rw [hempty, List.nil_append, hsaid]
    cases k <;> rfl

theorem parseTest_eq_test_iff {m manner : Manner} {words : List String} {a : TestArguments} :
    parseTest m words = .ok (.test manner a) ↔ ∃ n parts, Spells testWords words parts ∧
      (∀ k, about k parts = a.said n k) ∧ manner = m.or n := by
  have hempty (k : Topic) : ({} : TestDraft).said k = [] := by cases k <;> rfl
  unfold parseTest
  rw [bind_eq_ok_iff]
  constructor
  · rintro ⟨⟨n, path, categories, listCategories⟩, hfold, h⟩
    obtain ⟨parts, hparts, hsaid⟩ := TestDraft.collects.foldlM_eq_ok_iff.mp hfold
    cases path with
    | none => cases h
    | some path =>
      cases h
      refine ⟨n, parts, matches_testLevel.spells_iff.mpr hparts, fun k => ?_, rfl⟩
      have hk := hsaid k
      rw [hempty, List.nil_append] at hk
      rw [← hk]
      cases k <;> rfl
  · rintro ⟨n, parts, hparts, hsaid, rfl⟩
    let d : TestDraft := ⟨n, some a.path, a.categories, a.listCategories⟩
    refine ⟨d, TestDraft.collects.foldlM_eq_ok_iff.mpr
      ⟨parts, matches_testLevel.spells_iff.mp hparts, fun k => ?_⟩, rfl⟩
    rw [hempty, List.nil_append, hsaid]
    cases k <;> rfl

theorem parseCheck_ne_test {m manner : Manner} {words : List String} {a : TestArguments} :
    parseCheck m words ≠ .ok (.test manner a) := by
  intro h
  obtain ⟨d, _, h⟩ := bind_eq_ok_iff.mp h
  cases hfile : d.file with
  | none =>
    rw [hfile] at h
    cases h
  | some file =>
    rw [hfile] at h
    cases h

theorem parseTest_ne_check {m manner : Manner} {words : List String} {a : CheckArguments} :
    parseTest m words ≠ .ok (.check manner a) := by
  intro h
  obtain ⟨d, _, h⟩ := bind_eq_ok_iff.mp h
  cases hpath : d.path with
  | none =>
    rw [hpath] at h
    cases h
  | some path =>
    rw [hpath] at h
    cases h

/-- **What is taken for a check is one,** and the other way round. -/
theorem Request.parse_eq_check_iff {words : List String} {manner : Manner} {a : CheckArguments} :
    Request.parse words = .ok (.check manner a) ↔ CheckLine words manner a := by
  unfold Request.parse
  rw [parseFrom_eq_ok_iff]
  constructor
  · rintro ⟨before, behind, m, hbefore, ⟨rfl, h⟩ | ⟨_, h⟩⟩
    · obtain ⟨n, parts, hparts, hsaid, rfl⟩ := parseCheck_eq_check_iff.mp h
      exact .intro (leads_empty_iff.mp hbefore) hparts hsaid
    · exact absurd h parseTest_ne_check
  · rintro ⟨hbefore, hparts, hsaid⟩
    exact ⟨_, _, _, leads_empty_iff.mpr hbefore,
      .inl ⟨rfl, parseCheck_eq_check_iff.mpr ⟨_, _, hparts, hsaid, rfl⟩⟩⟩

/-- **What is taken for a test run is one,** and the other way round. -/
theorem Request.parse_eq_test_iff {words : List String} {manner : Manner} {a : TestArguments} :
    Request.parse words = .ok (.test manner a) ↔ TestLine words manner a := by
  unfold Request.parse
  rw [parseFrom_eq_ok_iff]
  constructor
  · rintro ⟨before, behind, m, hbefore, ⟨_, h⟩ | ⟨rfl, h⟩⟩
    · exact absurd h parseCheck_ne_test
    · obtain ⟨n, parts, hparts, hsaid, rfl⟩ := parseTest_eq_test_iff.mp h
      exact .intro (leads_empty_iff.mp hbefore) hparts hsaid
  · rintro ⟨hbefore, hparts, hsaid⟩
    exact ⟨_, _, _, leads_empty_iff.mpr hbefore,
      .inr ⟨rfl, parseTest_eq_test_iff.mpr ⟨_, _, hparts, hsaid, rfl⟩⟩⟩

end LabelCheck.CommandLine
