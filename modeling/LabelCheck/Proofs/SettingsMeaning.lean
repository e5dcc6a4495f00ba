import LabelCheck.Load
import LabelCheck.Proofs.Keys
import LabelCheck.Proofs.Meaning

/-!
# What settings say

The settings of a validation are a table, and so are the parts of a test document. Their fields are
independent of each other and all of them may be absent, so that one law tells how such a record is
read: entry by entry, and in the end every field holds what the entry under its key means.

* `ReadsFields`: a record whose fields are read one by one, with its law `foldlM_eq_ok_iff`;
* `RecordEntries`: the entries of a record, which may be a table or an array;
* `LevelNamed`, `PolicyNamed`, `SaysChoice`: choices by their names;
* `SaysSettings`: what a table says of the settings;
* `ofText_eq_ok_iff`: settings are read from a text just if it is a table that says them, with a
  like law for procedures.
-/

namespace LabelCheck

namespace Document

open Toml

/-! ### Records by their fields -/

/-- **Fields that are read one by one.** An entry sets the field under whose key it stands to what
its value means and keeps all others; a record is nothing but its fields, and these can be anything
together. -/
structure ReadsFields {δ ι : Type} {β : ι → Type} (step : δ → String × Value → Read δ)
    (key : ι → String) (means : (i : ι) → Value → β i → Prop) (field : (i : ι) → δ → β i) :
    Prop where
  step_iff : ∀ {d entry d'},
    step d entry = .ok d' ↔ ∀ i, Sets (key i) (means i) entry (field i d) (field i d')
  ext : ∀ {d d'}, (∀ i, field i d = field i d') → d = d'
  exists_record : ∀ values : (i : ι) → β i, ∃ d, ∀ i, field i d = values i

section Record

variable {δ ι : Type} {β : ι → Type} {step : δ → String × Value → Read δ} {key : ι → String}
  {means : (i : ι) → Value → β i → Prop} {field : (i : ι) → δ → β i} {entries : Table} {d d' : δ}

/-- A field is set by the first entry or by the others, since no key stands in both. -/
theorem field_cons_iff {β : Type} {key : String} {means : Value → β → Prop}
    {entry : String × Value} {rest : Table} {b b' : β} (hentry : entry.1 ∉ rest.map Prod.fst) :
    Field (entry :: rest) key means b b' ↔
      ∃ b₁, Sets key means entry b b₁ ∧ Field rest key means b₁ b' := by
  unfold Field
  by_cases hkey : entry.1 = key
  · -- The first entry has set the field, and no other can.
    have hfirst : (entry :: rest).lookup key = some entry.2 := by
      rw [List.lookup_cons, ← hkey, beq_self_eq_true]
    have hrest : rest.lookup key = none := lookup_eq_none_iff.mpr (hkey ▸ hentry)
    rw [hfirst, hrest]
    constructor
    · rintro (⟨hnone, _⟩ | ⟨v, hv, hmeans⟩)
      · cases hnone
      · cases hv
        exact ⟨b', .inl ⟨hkey, hmeans⟩, .inl ⟨rfl, rfl⟩⟩
    · rintro ⟨b₁, ⟨_, hmeans⟩ | ⟨hother, _⟩, ⟨_, rfl⟩ | ⟨v, hv, _⟩⟩
      · exact .inr ⟨entry.2, rfl, hmeans⟩
      · cases hv
      · exact absurd hkey hother
      · cases hv
  · have hfirst : (entry :: rest).lookup key = rest.lookup key := by
      rw [List.lookup_cons, beq_false_of_ne (Ne.symm hkey)]
    rw [hfirst]
    constructor
    · exact fun hfield => ⟨b, .inr ⟨hkey, rfl⟩, hfield⟩
    · rintro ⟨b₁, ⟨hsame, _⟩ | ⟨_, rfl⟩, hfield⟩
      · exact absurd hsame hkey
      · exact hfield

/-- **A record is read just if every field holds what the entry under its key means,** or what it
held before if there is none. -/
theorem ReadsFields.foldlM_eq_ok_iff (h : ReadsFields step key means field)
    (hnodup : (entries.map Prod.fst).Nodup) :
    entries.foldlM step d = .ok d' ↔
      ∀ i, Field entries (key i) (means i) (field i d) (field i d') := by
  induction entries generalizing d with
  | nil =>
    constructor
    · intro hd
      cases hd
      exact fun i => .inl ⟨rfl, rfl⟩
    · intro hfields
      have heq : d = d' := h.ext fun i => by
        rcases hfields i with ⟨_, heq⟩ | ⟨_, hv, _⟩
        · exact heq.symm
        · cases hv
      rw [heq]
      rfl
  | cons entry rest ih =>
    obtain ⟨hentry, hrest⟩ := List.nodup_cons.mp hnodup
    rw [List.foldlM_cons, bind_eq_ok_iff]
    constructor
    · rintro ⟨d₁, hstep, hfold⟩ i
      exact (field_cons_iff hentry).mpr ⟨_, h.step_iff.mp hstep i, (ih hrest).mp hfold i⟩
    · intro hfields
      -- What the fields hold in between is a record too.
      obtain ⟨b, hb⟩ := Classical.skolem.mp fun i => (field_cons_iff hentry).mp (hfields i)
      obtain ⟨d₁, hd₁⟩ := h.exists_record b
      refine ⟨d₁, h.step_iff.mpr fun i => ?_, (ih hrest).mpr fun i => ?_⟩
      · rw [hd₁]
        exact (hb i).1
      · rw [hd₁]
        exact (hb i).2

theorem sets_self {β : Type} {key : String} {means : Value → β → Prop} {v : Value} {b b' : β} :
    Sets key means (key, v) b b' ↔ means v b' := by
  simp [Sets]

theorem sets_other {β : Type} {key : String} {means : Value → β → Prop} {entry : String × Value}
    {b b' : β} (h : entry.1 ≠ key) : Sets key means entry b b' ↔ b' = b := by
  simp [Sets, h]

/-- A part that may be absent is a field that holds it. -/
theorem field_optional_iff {α : Type} {key : String} {means : Value → α → Prop} {o : Option α} :
    Field entries key (fun v o => ∃ a, o = some a ∧ means v a) none o ↔
      SaysOptional entries key means o := by
  cases o with
  | none =>
    constructor
    · rintro (⟨hnone, _⟩ | ⟨_, _, _, h, _⟩)
      · exact hnone
      · cases h
    · exact fun hnone => .inl ⟨hnone, rfl⟩
  | some a =>
    constructor
    · rintro (⟨_, h⟩ | ⟨v, hv, a', heq, hmeans⟩)
      · cases h
      · exact ⟨v, hv, Option.some.inj heq ▸ hmeans⟩
    · rintro ⟨v, hv, hmeans⟩
      exact .inr ⟨v, hv, a, rfl, hmeans⟩

end Record

/-- **The entries of a record.** It is a table, or an array of its fields in their order, in which
those at the end may be missing. A moment counts as a table with a key of its own. -/
inductive RecordEntries (keys : List String) : Value → Table → Prop where
  | table {entries : Table} : RecordEntries keys (.table entries) entries
  | array {form : ArrayForm} {items : List Value} :
    RecordEntries keys (.array form items) (keys.zip items)
  | moment {text : String} :
    RecordEntries keys (.moment text) [(Value.momentKey, .string text)]

theorem RecordEntries.nodup {keys : List String} {v : Value} {entries : Table}
    (h : RecordEntries keys v entries) (hkeys : keys.Nodup) (hv : v.Keyed) :
    (entries.map Prod.fst).Nodup := by
  cases h with
  | table => exact hv.nodup
  | array =>
    rw [List.zip_eq_zip_take_min, List.map_fst_zip (by simp)]
    exact hkeys.sublist (List.take_sublist _ _)
  | moment => exact List.pairwise_singleton _ _

theorem RecordEntries.keyed {keys : List String} {v : Value} {entries : Table}
    (h : RecordEntries keys v entries) (hkeys : keys.Nodup) (hv : v.Keyed) :
    (Value.table entries).Keyed := by
  refine .table (h.nodup hkeys hv) ?_
  cases h with
  | table =>
    cases hv with
    | table _ hitem => exact hitem
  | array => exact fun entry hentry => hv.item (List.of_mem_zip hentry).2
  | moment => exact List.forall_mem_singleton.mpr (.string _)

/-- **A record is read from a value** just if that has entries which give every field its
content. -/
theorem ReadsFields.reads_iff {δ ι : Type} {β : ι → Type} {step : δ → String × Value → Read δ}
    {key : ι → String} {means : (i : ι) → Value → β i → Prop} {field : (i : ι) → δ → β i}
    (h : ReadsFields step key means field) {reader : Value → Read δ} {keys : List String} {d d' : δ}
    (hreader : ∀ {v entries}, RecordEntries keys v entries → reader v = entries.foldlM step d)
    (hrecord : ∀ {v d'}, reader v = .ok d' → ∃ entries, RecordEntries keys v entries)
    (hkeys : keys.Nodup) {v : Value} (hv : v.Keyed) :
    reader v = .ok d' ↔ ∃ entries, RecordEntries keys v entries ∧
      ∀ i, Field entries (key i) (means i) (field i d) (field i d') := by
  have hiff {entries : Table} (hentries : RecordEntries keys v entries) : reader v = .ok d' ↔
      ∀ i, Field entries (key i) (means i) (field i d) (field i d') := by
    rw [hreader hentries, h.foldlM_eq_ok_iff (hentries.nodup hkeys hv)]
  constructor
  · intro hread
    obtain ⟨entries, hentries⟩ := hrecord hread
    exact ⟨entries, hentries, (hiff hentries).mp hread⟩
  · rintro ⟨entries, hentries, hfields⟩
    exact (hiff hentries).mpr hfields

/-- What a field holds depends on nothing but the meaning of the value under its key. -/
theorem field_congr {β : Type} {entries : Table} {key : String} {means means' : Value → β → Prop}
    {absent b : β} (h : ∀ v, entries.lookup key = some v → (means v b ↔ means' v b)) :
    Field entries key means absent b ↔ Field entries key means' absent b :=
  or_congr_right (exists_congr fun v => and_congr_right (h v))

/-! ### Choices by their names -/

/-- The conformance levels by name. -/
inductive LevelNamed : String → Conformance → Prop where
  | default : LevelNamed "default" .default
  | lenient : LevelNamed "lenient" .lenient
  | strict : LevelNamed "strict" .strict

/-- The policies for unresolved labels by name. -/
inductive PolicyNamed : String → UnresolvedPolicy → Prop where
  | error : PolicyNamed "error" .error
  | warn : PolicyNamed "warn" .warn
  | ignore : PolicyNamed "ignore" .ignore

/-- **The value says a choice:** by its name, or as the only key of a table, whose value is
empty. -/
inductive SaysChoice {α : Type} (named : String → α → Prop) : Value → α → Prop where
  | text {name : String} {a : α} (h : named name a) : SaysChoice named (.string name) a
  | key {name : String} {content : Value} {a : α} (h : named name a)
    (hcontent : content = .table [] ∨ ∃ form, content = .array form []) :
    SaysChoice named (.table [(name, content)]) a

theorem lookup_conformances {name : String} {level : Conformance} :
    conformances.lookup name = some level ↔ LevelNamed name level := by
  rw [lookup_eq_some_iff (by decide)]
  constructor
  · intro h
    simp only [conformances, List.mem_cons, Prod.mk.injEq, List.not_mem_nil, or_false] at h
    rcases h with ⟨rfl, rfl⟩ | ⟨rfl, rfl⟩ | ⟨rfl, rfl⟩
    · exact .default
    · exact .lenient
    · exact .strict
  · intro h
    cases h <;> simp [conformances]

theorem lookup_policies {name : String} {policy : UnresolvedPolicy} :
    policies.lookup name = some policy ↔ PolicyNamed name policy := by
  rw [lookup_eq_some_iff (by decide)]
  constructor
  · intro h
    simp only [policies, List.mem_cons, Prod.mk.injEq, List.not_mem_nil, or_false] at h
    rcases h with ⟨rfl, rfl⟩ | ⟨rfl, rfl⟩ | ⟨rfl, rfl⟩
    · exact .error
    · exact .warn
    · exact .ignore
  · intro h
    cases h <;> simp [policies]

theorem readName_eq_ok_iff {α : Type} {choices : List (String × α)} {name : String} {a : α} :
    readName choices name = .ok a ↔ choices.lookup name = some a := by
  unfold readName
  cases choices.lookup name <;> simp

/-- A choice is read just if it is said. -/
theorem readChoice_eq_ok_iff {α : Type} {choices : List (String × α)} {named : String → α → Prop}
    (hnamed : ∀ {name a}, choices.lookup name = some a ↔ named name a) {v : Value} {a : α} :
    readChoice choices v = .ok a ↔ SaysChoice named v a := by
  constructor
  · intro h
    unfold readChoice at h
    split at h
    · exact .text (hnamed.mp (readName_eq_ok_iff.mp h))
    · cases h
    · next name content =>
      obtain ⟨a', hname, h⟩ := bind_eq_ok_iff.mp h
      have hname := hnamed.mp (readName_eq_ok_iff.mp hname)
      split at h
      · cases h
        exact .key hname (.inr ⟨_, rfl⟩)
      · cases h
        exact .key hname (.inl rfl)
      · cases h
      · cases h
      · cases h
      · cases h
    · cases h
    · cases h
  · intro h
    cases h with
    | text h => exact readName_eq_ok_iff.mpr (hnamed.mpr h)
    | key h hcontent =>
      refine bind_eq_ok_iff.mpr ⟨a, readName_eq_ok_iff.mpr (hnamed.mpr h), ?_⟩
      obtain rfl | ⟨form, rfl⟩ := hcontent
      · rfl
      · rfl

/-! ### Settings -/

/-- The value is a truth value. -/
def SaysBool (v : Value) (b : Bool) : Prop := v = .boolean b

theorem readBool_eq_ok_iff {v : Value} {b : Bool} : readBool v = .ok b ↔ SaysBool v b := by
  cases v <;> simp [readBool, mismatch, SaysBool]

/-- **What a table says of the settings.** Each of them may be absent; the level is the default one
then. -/
structure SaysSettings (entries : Table) (c : Config) : Prop where
  conformance : Field entries "conformance" (SaysChoice LevelNamed) .default c.conformance
  caseSensitive : SaysOptional entries "case-sensitive" SaysBool c.caseSensitive
  unresolvedLabel :
    SaysOptional entries "unresolved-label" (SaysChoice PolicyNamed) c.unresolvedLabel

/-- The keys of the settings, in the order in which an array gives them. -/
def settingKeys : List String := ["conformance", "case-sensitive", "unresolved-label"]

/-- What a value says of the settings. -/
def SaysSettingsValue (v : Value) (c : Config) : Prop :=
  ∃ entries, RecordEntries settingKeys v entries ∧ SaysSettings entries c

/-- The fields of settings. -/
inductive SettingField where
  | conformance
  | caseSensitive
  | unresolvedLabel

namespace SettingField

/-- What a field holds. -/
abbrev Content : SettingField → Type
  | conformance => Conformance
  | caseSensitive => Option Bool
  | unresolvedLabel => Option UnresolvedPolicy

/-- The key of a field. -/
def key : SettingField → String
  | conformance => "conformance"
  | caseSensitive => "case-sensitive"
  | unresolvedLabel => "unresolved-label"

/-- What a value means for a field. -/
def Means : (i : SettingField) → Value → i.Content → Prop
  | conformance, v, level => SaysChoice LevelNamed v level
  | caseSensitive, v, o => ∃ sensitive, o = some sensitive ∧ SaysBool v sensitive
  | unresolvedLabel, v, o => ∃ policy, o = some policy ∧ SaysChoice PolicyNamed v policy

/-- The content of a field. -/
def get : (i : SettingField) → Config → i.Content
  | conformance, c => c.conformance
  | caseSensitive, c => c.caseSensitive
  | unresolvedLabel, c => c.unresolvedLabel

theorem forall_iff {P : SettingField → Prop} :
    (∀ i, P i) ↔ P .conformance ∧ P .caseSensitive ∧ P .unresolvedLabel :=
  ⟨fun h => ⟨h _, h _, h _⟩, fun ⟨hc, hs, hu⟩ i => by cases i <;> assumption⟩

end SettingField

theorem readSetting_eq_ok_iff {c c' : Config} {entry : String × Value} :
    readSetting c entry = .ok c' ↔
      Sets "conformance" (SaysChoice LevelNamed) entry c.conformance c'.conformance ∧
        Sets "case-sensitive" (fun v o => ∃ sensitive, o = some sensitive ∧ SaysBool v sensitive)
          entry c.caseSensitive c'.caseSensitive ∧
        Sets "unresolved-label"
          (fun v o => ∃ policy, o = some policy ∧ SaysChoice PolicyNamed v policy)
          entry c.unresolvedLabel c'.unresolvedLabel := by
  obtain ⟨level, sensitive, policy⟩ := c'
  unfold readSetting
  split
  · rw [bind_eq_ok_iff, sets_self, sets_other (by simp), sets_other (by simp)]
    simp only [readChoice_eq_ok_iff lookup_conformances]
    constructor
    · rintro ⟨level, hlevel, h⟩
      cases h
      exact ⟨hlevel, rfl, rfl⟩
    · rintro ⟨hlevel, rfl, rfl⟩
      exact ⟨level, hlevel, rfl⟩
  · rw [bind_eq_ok_iff, sets_self, sets_other (by simp), sets_other (by simp)]
    simp only [readBool_eq_ok_iff]
    constructor
    · rintro ⟨sensitive, hsensitive, h⟩
      cases h
      exact ⟨rfl, ⟨sensitive, rfl, hsensitive⟩, rfl⟩
    · rintro ⟨rfl, ⟨sensitive, rfl, hsensitive⟩, rfl⟩
      exact ⟨sensitive, hsensitive, rfl⟩
  · rw [bind_eq_ok_iff, sets_self, sets_other (by simp), sets_other (by simp)]
    simp only [readChoice_eq_ok_iff lookup_policies]
    constructor
    · rintro ⟨policy, hpolicy, h⟩
      cases h
      exact ⟨rfl, rfl, policy, rfl, hpolicy⟩
    · rintro ⟨rfl, rfl, policy, rfl, hpolicy⟩
      exact ⟨policy, hpolicy, rfl⟩
  · next hlevel hsensitive hpolicy =>
    rw [sets_other fun h => hlevel entry.2 (Prod.ext h rfl),
      sets_other fun h => hsensitive entry.2 (Prod.ext h rfl),
      sets_other fun h => hpolicy entry.2 (Prod.ext h rfl)]
    constructor
    · intro h
      cases h
      exact ⟨rfl, rfl, rfl⟩
    · rintro ⟨rfl, rfl, rfl⟩
      rfl

theorem readsFields_readSetting :
    ReadsFields readSetting SettingField.key SettingField.Means SettingField.get where
  step_iff := by
    intro c entry c'
    rw [SettingField.forall_iff]
    exact readSetting_eq_ok_iff
  ext := by
    intro c c' h
    obtain ⟨hc, hs, hu⟩ := SettingField.forall_iff.mp h
    cases c
    cases c'
    cases hc
    cases hs
    cases hu
    rfl
  exists_record values :=
    ⟨⟨values .conformance, values .caseSensitive, values .unresolvedLabel⟩, fun i => by
      cases i <;> rfl⟩

theorem saysSettings_iff {entries : Table} {c : Config} :
    SaysSettings entries c ↔ ∀ i : SettingField,
      Field entries i.key i.Means (i.get {}) (i.get c) := by
  rw [SettingField.forall_iff]
  constructor
  · rintro ⟨hlevel, hsensitive, hpolicy⟩
    exact ⟨hlevel, field_optional_iff.mpr hsensitive, field_optional_iff.mpr hpolicy⟩
  · rintro ⟨hlevel, hsensitive, hpolicy⟩
    exact ⟨hlevel, field_optional_iff.mp hsensitive, field_optional_iff.mp hpolicy⟩

/-- Settings are read from a table just if it says them. -/
theorem readSettingsTable_eq_ok_iff {entries : Table} {c : Config}
    (hnodup : (entries.map Prod.fst).Nodup) :
    readSettingsTable entries = .ok c ↔ SaysSettings entries c := by
  rw [saysSettings_iff, ← readsFields_readSetting.foldlM_eq_ok_iff hnodup]
  rfl

/-- Settings are read from a value just if it says them. -/
theorem readSettings_eq_ok_iff {v : Value} {c : Config} (hv : v.Keyed) :
    readSettings v = .ok c ↔ SaysSettingsValue v c := by
  unfold SaysSettingsValue
  simp only [saysSettings_iff]
  refine readsFields_readSetting.reads_iff ?_ ?_ (by decide) hv
  · intro v entries h
    cases h <;> rfl
  · intro v c h
    cases v with
    | table entries => exact ⟨_, .table⟩
    | array form items => exact ⟨_, .array⟩
    | moment text => exact ⟨_, .moment⟩
    | string | integer | float | boolean => cases h

/-! ### Procedures -/

/-- The entries of a document whose body is plain. -/
def PlainBody (entries : Table) : Prop :=
  ∀ inner, entries.lookup "body" = some (.table inner) → Plain (.table inner)

/-- **The procedure that a value gives.** Of a table with a plain body it is what the table says.
Everything else that is taken is a shorthand, and gives what is read of it. -/
inductive GivesProcedure : Value → Procedure → Prop where
  | said {entries : Table} {p : Procedure} (h : SaysProcedure entries p) :
    GivesProcedure (.table entries) p
  | shorthand {v : Value} {p : Procedure} (hv : ∀ entries, v = .table entries → ¬ PlainBody entries)
    (h : readProcedureValue v = .ok p) : GivesProcedure v p

theorem readProcedureValue_eq_ok_iff {v : Value} {p : Procedure} (hv : v.Keyed) :
    readProcedureValue v = .ok p ↔ GivesProcedure v p := by
  constructor
  · intro h
    by_cases hplain : ∃ entries, v = .table entries ∧ PlainBody entries
    · obtain ⟨entries, rfl, hplain⟩ := hplain
      exact .said (saysProcedure_of_readProcedure hv hplain h)
    · exact .shorthand (fun entries heq hbody => hplain ⟨entries, heq, hbody⟩) h
  · intro h
    cases h with
    | said h => exact h.readProcedure hv
    | shorthand _ h => exact h

end Document

/-! ### Texts -/

theorem readDocument_eq_ok_iff {α : Type} {read : Toml.Table → Document.Read α} {text : String}
    {value : α} :
    readDocument read text = .ok value ↔
      ∃ entries, Toml.parse text = some entries ∧ read entries = .ok value := by
  unfold readDocument
  cases Toml.parse text with
  | none => simp
  | some entries =>
    show (read entries).mapError _ = _ ↔ _
    rw [Document.mapError_eq_ok_iff]
    simp

/-- **Settings are read from a text** just if it is a table that says them. -/
theorem Config.ofText_eq_ok_iff {text : String} {c : Config} :
    Config.ofText text = .ok c ↔
      ∃ entries, Toml.parse text = some entries ∧ Document.SaysSettings entries c := by
  unfold Config.ofText
  rw [readDocument_eq_ok_iff]
  refine exists_congr fun entries => and_congr_right fun hparse => ?_
  exact Document.readSettingsTable_eq_ok_iff (Toml.keyed_of_parse hparse).nodup

/-- **A procedure is read from a text** just if it is a table that gives it. -/
theorem Procedure.ofText_eq_ok_iff {text : String} {p : Procedure} :
    Procedure.ofText text = .ok p ↔
      ∃ entries, Toml.parse text = some entries ∧ Document.GivesProcedure (.table entries) p := by
  unfold Procedure.ofText
  rw [readDocument_eq_ok_iff]
  refine exists_congr fun entries => and_congr_right fun hparse => ?_
  exact Document.readProcedureValue_eq_ok_iff (Toml.keyed_of_parse hparse)

end LabelCheck
