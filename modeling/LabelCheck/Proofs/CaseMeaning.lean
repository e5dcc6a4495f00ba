import LabelCheck.Proofs.SettingsMeaning
import LabelCheck.Suite.Case
import Mathlib.Data.List.Forall2

/-!
# What a test document says

A test document is a table of five entries, each of which may be absent: a description, settings,
what is expected, a procedure, and the document of a procedure. The relations of this module say
what the entries mean, and nothing in them depends on their order.

* `SaysItems`: the items of an array, one by one;
* `SaysExpectedBlock`: what is expected of one transfer;
* `SaysExpectations`: what is expected of a validation;
* `SaysCase`: what the table of a test document says;
* `Case.ofText_eq_ok_iff`: a test document is read from a text just if it is a table that says it.
-/

namespace LabelCheck.Suite

open Document Files Toml

/-! ### What is expected -/

/-- The value is an array whose items mean the members of a list, one by one. -/
def SaysItems {α : Type} (means : Value → α → Prop) (v : Value) (all : List α) : Prop :=
  ∃ form items, v = .array form items ∧ List.Forall₂ means items all

/-- The value is the number of a block. -/
def SaysBlockNumber (v : Value) (id : BlockId) : Prop := v = .integer id.index

/-- **What is expected of one transfer:** the block with the number under `block`, or without that
entry none. -/
def SaysExpectedBlock (v : Value) (expected : Option BlockId) : Prop :=
  ∃ entries, RecordEntries ["block"] v entries ∧
    SaysOptional entries "block" SaysBlockNumber expected

/-- **What is expected of a validation.** Without an entry for errors none are expected; without one
for warnings or resolutions these are not looked at. -/
structure SaysExpectations (entries : Table) (e : Expectations) : Prop where
  errors : Field entries "errors" (SaysItems SaysText) [] e.errors
  warnings : SaysOptional entries "warnings" (SaysItems SaysText) e.warnings
  resolutions : SaysOptional entries "resolutions" (SaysItems SaysExpectedBlock) e.resolutions

/-- The keys of expectations, in the order in which an array gives them. -/
def expectationKeys : List String := ["errors", "warnings", "resolutions"]

/-- What a value says is expected. -/
def SaysExpectationsValue (v : Value) (e : Expectations) : Prop :=
  ∃ entries, RecordEntries expectationKeys v entries ∧ SaysExpectations entries e

/-- The value is a text, and that is a path. -/
def SaysPath (v : Value) (path : Path) : Prop := ∃ text, v = .string text ∧ path = .ofText text

/-- **What a test document says.** -/
structure SaysCase (entries : Table) (c : Case) : Prop where
  description : SaysOptional entries "description" SaysText c.description
  config : Field entries "config" SaysSettingsValue {} c.config
  expect : Field entries "expect" SaysExpectationsValue {} c.expect
  procedure : SaysOptional entries "procedure" GivesProcedure c.procedure
  procedureFile : SaysOptional entries "procedure-file" SaysPath c.procedureFile

/-! ### Everything that is said is read, and nothing else -/

section Items

variable {α : Type} {reader : Value → Read α} {means : Value → α → Prop}

theorem mapM_eq_ok_iff {items : List Value} {all : List α}
    (hreader : ∀ item ∈ items, ∀ a, reader item = .ok a ↔ means item a) :
    items.mapM reader = .ok all ↔ List.Forall₂ means items all := by
  induction items generalizing all with
  | nil =>
    constructor
    · intro h
      cases h
      exact .nil
    · intro h
      cases h
      rfl
  | cons v items ih =>
    obtain ⟨hfirst, hrest⟩ := List.forall_mem_cons.mp hreader
    rw [List.mapM_cons, bind_eq_ok_iff]
    constructor
    · rintro ⟨a, ha, h⟩
      obtain ⟨rest, hmap, h⟩ := bind_eq_ok_iff.mp h
      cases h
      exact .cons ((hfirst a).mp ha) ((ih hrest).mp hmap)
    · intro h
      cases h with
      | cons ha hall =>
        exact ⟨_, (hfirst _).mpr ha, bind_eq_ok_iff.mpr ⟨_, (ih hrest).mpr hall, rfl⟩⟩

/-- Items are read just if they are said, one by one. -/
theorem readItems_eq_ok_iff {v : Value} {all : List α} (hv : v.Keyed)
    (hreader : ∀ {item a}, item.Keyed → (reader item = .ok a ↔ means item a)) :
    readItems reader v = .ok all ↔ SaysItems means v all := by
  have hitems {form : ArrayForm} {items : List Value} (h : v = .array form items) :
      items.mapM reader = .ok all ↔ List.Forall₂ means items all :=
    mapM_eq_ok_iff fun item hitem _ => hreader ((h ▸ hv).item hitem)
  constructor
  · intro h
    cases v with
    | array form items => exact ⟨form, items, rfl, (hitems rfl).mp h⟩
    | string | integer | float | boolean | moment | table => cases h
  · rintro ⟨form, items, rfl, h⟩
    exact (hitems rfl).mpr h

end Items

theorem readExpectedBlock_eq_ok_iff {entry : String × Value} {o o' : Option BlockId} :
    readExpectedBlock o entry = .ok o' ↔
      Sets "block" (fun v o => ∃ id, o = some id ∧ SaysBlockNumber v id) entry o o' := by
  unfold readExpectedBlock
  split
  · rw [bind_eq_ok_iff, sets_self]
    constructor
    · rintro ⟨n, hn, h⟩
      cases h
      exact ⟨⟨n⟩, rfl, readSize_eq_ok_iff.mp hn⟩
    · rintro ⟨id, rfl, hid⟩
      exact ⟨id.index, readSize_eq_ok_iff.mpr hid, rfl⟩
  · next hblock =>
    rw [sets_other fun h => hblock entry.2 (Prod.ext h rfl), Except.ok.injEq]
    exact eq_comm

/-- The only field of what is expected of a transfer. -/
theorem readsFields_readExpectedBlock :
    ReadsFields (ι := Unit) (β := fun _ => Option BlockId) readExpectedBlock (fun _ => "block")
      (fun _ v o => ∃ id, o = some id ∧ SaysBlockNumber v id) fun _ o => o where
  step_iff := readExpectedBlock_eq_ok_iff.trans ⟨fun h _ => h, fun h => h ()⟩
  ext := fun h => h ()
  exists_record := fun values => ⟨values (), fun _ => rfl⟩

theorem readExpectedResolution_eq_ok_iff {v : Value} {o : Option BlockId} (hv : v.Keyed) :
    readExpectedResolution v = .ok o ↔ SaysExpectedBlock v o := by
  have hmean (entries : Table) : SaysOptional entries "block" SaysBlockNumber o ↔
      ∀ _ : Unit, Field entries "block" (fun v o => ∃ id, o = some id ∧ SaysBlockNumber v id)
        none o := by
    rw [forall_const, field_optional_iff]
  unfold SaysExpectedBlock
  simp only [hmean]
  refine readsFields_readExpectedBlock.reads_iff ?_ ?_ (by decide) hv
  · intro v entries h
    cases h <;> rfl
  · intro v o h
    cases v with
    | table entries => exact ⟨_, .table⟩
    | array form items => exact ⟨_, .array⟩
    | moment text => exact ⟨_, .moment⟩
    | string | integer | float | boolean => cases h

/-- The fields of expectations. -/
inductive ExpectationField where
  | errors
  | warnings
  | resolutions

namespace ExpectationField

/-- What a field holds. -/
abbrev Content : ExpectationField → Type
  | errors => List String
  | warnings => Option (List String)
  | resolutions => Option (List (Option BlockId))

/-- The key of a field. -/
def key : ExpectationField → String
  | errors => "errors"
  | warnings => "warnings"
  | resolutions => "resolutions"

/-- What is read for a field. -/
def Means : (i : ExpectationField) → Value → i.Content → Prop
  | errors, v, all => readItems readText v = .ok all
  | warnings, v, o => ∃ all, o = some all ∧ readItems readText v = .ok all
  | resolutions, v, o => ∃ all, o = some all ∧ readItems readExpectedResolution v = .ok all

/-- The content of a field. -/
def get : (i : ExpectationField) → Expectations → i.Content
  | errors, e => e.errors
  | warnings, e => e.warnings
  | resolutions, e => e.resolutions

theorem forall_iff {P : ExpectationField → Prop} :
    (∀ i, P i) ↔ P .errors ∧ P .warnings ∧ P .resolutions :=
  ⟨fun h => ⟨h _, h _, h _⟩, fun ⟨he, hw, hr⟩ i => by cases i <;> assumption⟩

end ExpectationField

theorem readsFields_readExpectation :
    ReadsFields readExpectation ExpectationField.key ExpectationField.Means
      ExpectationField.get where
  step_iff := by
    rintro e entry ⟨errors, warnings, resolutions⟩
    rw [ExpectationField.forall_iff]
    unfold readExpectation
    simp only [ExpectationField.key, ExpectationField.get]
    -- Each known key sets its own field and keeps the others; any other key keeps all of them.
    split
    · rw [bind_eq_ok_iff, sets_self, sets_other (by simp), sets_other (by simp)]
      constructor
      · rintro ⟨all, hall, h⟩
        cases h
        exact ⟨hall, rfl, rfl⟩
      · rintro ⟨hall, rfl, rfl⟩
        exact ⟨errors, hall, rfl⟩
    · rw [bind_eq_ok_iff, sets_self, sets_other (by simp), sets_other (by simp)]
      constructor
      · rintro ⟨all, hall, h⟩
        cases h
        exact ⟨rfl, ⟨all, rfl, hall⟩, rfl⟩
      · rintro ⟨rfl, ⟨all, rfl, hall⟩, rfl⟩
        exact ⟨all, hall, rfl⟩
    · rw [bind_eq_ok_iff, sets_self, sets_other (by simp), sets_other (by simp)]
      constructor
      · rintro ⟨all, hall, h⟩
        cases h
        exact ⟨rfl, rfl, all, rfl, hall⟩
      · rintro ⟨rfl, rfl, all, rfl, hall⟩
        exact ⟨all, hall, rfl⟩
    · next herrors hwarnings hresolutions =>
      rw [sets_other fun h => herrors entry.2 (Prod.ext h rfl),
        sets_other fun h => hwarnings entry.2 (Prod.ext h rfl),
        sets_other fun h => hresolutions entry.2 (Prod.ext h rfl)]
      constructor
      · intro h
        cases h
        exact ⟨rfl, rfl, rfl⟩
      · rintro ⟨rfl, rfl, rfl⟩
        rfl
  ext := by
    rintro ⟨⟩ ⟨⟩ h
    obtain ⟨he, hw, hr⟩ := ExpectationField.forall_iff.mp h
    cases he
    cases hw
    cases hr
    rfl
  exists_record values :=
    ⟨⟨values .errors, values .warnings, values .resolutions⟩, fun i => by cases i <;> rfl⟩

/-- A part that may be absent means what is read of it. -/
theorem optional_congr {α : Type} {entries : Table} {key : String} {reader : Value → Read α}
    {means : Value → α → Prop} {o : Option α} (hkeyed : (Value.table entries).Keyed)
    (h : ∀ {v a}, v.Keyed → (reader v = .ok a ↔ means v a)) :
    Field entries key (fun v o => ∃ a, o = some a ∧ reader v = .ok a) none o ↔
      SaysOptional entries key means o := by
  rw [← field_optional_iff]
  refine field_congr fun v hv => exists_congr fun a => and_congr_right fun _ => ?_
  exact h (hkeyed.lookup hv)

theorem saysExpectations_iff {entries : Table} {e : Expectations}
    (hkeyed : (Value.table entries).Keyed) :
    SaysExpectations entries e ↔ ∀ i : ExpectationField,
      Field entries i.key i.Means (i.get {}) (i.get e) := by
  have htexts {v : Value} {all : List String} (hv : v.Keyed) :
      readItems readText v = .ok all ↔ SaysItems SaysText v all :=
    readItems_eq_ok_iff hv fun _ => readText_eq_ok_iff
  have hblocks {v : Value} {all : List (Option BlockId)} (hv : v.Keyed) :
      readItems readExpectedResolution v = .ok all ↔ SaysItems SaysExpectedBlock v all :=
    readItems_eq_ok_iff hv readExpectedResolution_eq_ok_iff
  have herrors : Field entries "errors" (SaysItems SaysText) [] e.errors ↔
      Field entries "errors" (fun v all => readItems readText v = .ok all) [] e.errors :=
    field_congr fun v hv => (htexts (hkeyed.lookup hv)).symm
  rw [ExpectationField.forall_iff]
  constructor
  · rintro ⟨he, hw, hr⟩
    exact ⟨herrors.mp he, (optional_congr hkeyed htexts).mpr hw,
      (optional_congr hkeyed hblocks).mpr hr⟩
  · rintro ⟨he, hw, hr⟩
    exact ⟨herrors.mpr he, (optional_congr hkeyed htexts).mp hw,
      (optional_congr hkeyed hblocks).mp hr⟩

theorem readExpectations_eq_ok_iff {v : Value} {e : Expectations} (hv : v.Keyed) :
    readExpectations v = .ok e ↔ SaysExpectationsValue v e := by
  have hreads : readExpectations v = .ok e ↔ ∃ entries, RecordEntries expectationKeys v entries ∧
      ∀ i : ExpectationField, Field entries i.key i.Means (i.get {}) (i.get e) := by
    refine readsFields_readExpectation.reads_iff ?_ ?_ (by decide) hv
    · intro v entries h
      cases h <;> rfl
    · intro v e h
      cases v with
      | table entries => exact ⟨_, .table⟩
      | array form items => exact ⟨_, .array⟩
      | moment text => exact ⟨_, .moment⟩
      | string | integer | float | boolean => cases h
  rw [hreads]
  refine exists_congr fun entries => and_congr_right fun hentries => ?_
  exact (saysExpectations_iff (hentries.keyed (by decide) hv)).symm

/-! ### The whole document -/

/-- The fields of a test document. -/
inductive CaseField where
  | description
  | config
  | expect
  | procedure
  | procedureFile

namespace CaseField

/-- What a field holds. -/
abbrev Content : CaseField → Type
  | description => Option String
  | config => Config
  | expect => Expectations
  | procedure => Option Procedure
  | procedureFile => Option Path

/-- The key of a field. -/
def key : CaseField → String
  | description => "description"
  | config => "config"
  | expect => "expect"
  | procedure => "procedure"
  | procedureFile => "procedure-file"

/-- What is read for a field. -/
def Means : (i : CaseField) → Value → i.Content → Prop
  | description, v, o => ∃ text, o = some text ∧ SaysText v text
  | config, v, c => readSettings v = .ok c
  | expect, v, e => readExpectations v = .ok e
  | procedure, v, o => ∃ p, o = some p ∧ readProcedureValue v = .ok p
  | procedureFile, v, o => ∃ path, o = some path ∧ SaysPath v path

/-- The content of a field. -/
def get : (i : CaseField) → Case → i.Content
  | description, c => c.description
  | config, c => c.config
  | expect, c => c.expect
  | procedure, c => c.procedure
  | procedureFile, c => c.procedureFile

theorem forall_iff {P : CaseField → Prop} :
    (∀ i, P i) ↔ P .description ∧ P .config ∧ P .expect ∧ P .procedure ∧ P .procedureFile :=
  ⟨fun h => ⟨h _, h _, h _, h _, h _⟩, fun ⟨hd, hc, he, hp, hf⟩ i => by cases i <;> assumption⟩

end CaseField

theorem readsFields_readCaseField :
    ReadsFields readCaseField CaseField.key CaseField.Means CaseField.get where
  step_iff := by
    rintro c entry ⟨description, config, expect, procedure, file⟩
    rw [CaseField.forall_iff]
    unfold readCaseField
    simp only [CaseField.key, CaseField.get]
    -- The settings and what is expected are read whole, the others into a part that was absent.
    split
    · rw [bind_eq_ok_iff, sets_self, sets_other (by simp), sets_other (by simp),
        sets_other (by simp), sets_other (by simp)]
      constructor
      · rintro ⟨text, htext, h⟩
        cases h
        exact ⟨⟨text, rfl, readText_eq_ok_iff.mp htext⟩, rfl, rfl, rfl, rfl⟩
      · rintro ⟨⟨text, rfl, htext⟩, rfl, rfl, rfl, rfl⟩
        exact ⟨text, readText_eq_ok_iff.mpr htext, rfl⟩
    · rw [bind_eq_ok_iff, sets_self, sets_other (by simp), sets_other (by simp),
        sets_other (by simp), sets_other (by simp)]
      constructor
      · rintro ⟨config, hconfig, h⟩
        cases h
        exact ⟨rfl, hconfig, rfl, rfl, rfl⟩
      · rintro ⟨rfl, hconfig, rfl, rfl, rfl⟩
        exact ⟨config, hconfig, rfl⟩
    · rw [bind_eq_ok_iff, sets_self, sets_other (by simp), sets_other (by simp),
        sets_other (by simp), sets_other (by simp)]
      constructor
      · rintro ⟨expect, hexpect, h⟩
        cases h
        exact ⟨rfl, rfl, hexpect, rfl, rfl⟩
      · rintro ⟨rfl, rfl, hexpect, rfl, rfl⟩
        exact ⟨expect, hexpect, rfl⟩
    · rw [bind_eq_ok_iff, sets_self, sets_other (by simp), sets_other (by simp),
        sets_other (by simp), sets_other (by simp)]
      constructor
      · rintro ⟨p, hp, h⟩
        cases h
        exact ⟨rfl, rfl, rfl, ⟨p, rfl, hp⟩, rfl⟩
      · rintro ⟨rfl, rfl, rfl, ⟨p, rfl, hp⟩, rfl⟩
        exact ⟨p, hp, rfl⟩
    · rw [bind_eq_ok_iff, sets_self, sets_other (by simp), sets_other (by simp),
        sets_other (by simp), sets_other (by simp)]
      constructor
      · rintro ⟨text, htext, h⟩
        cases h
        exact ⟨rfl, rfl, rfl, rfl, _, rfl, text, readText_eq_ok_iff.mp htext, rfl⟩
      · rintro ⟨rfl, rfl, rfl, rfl, _, rfl, text, htext, rfl⟩
        exact ⟨text, readText_eq_ok_iff.mpr htext, rfl⟩
    · next hdescription hconfig hexpect hprocedure hfile =>
      rw [sets_other fun h => hdescription entry.2 (Prod.ext h rfl),
        sets_other fun h => hconfig entry.2 (Prod.ext h rfl),
        sets_other fun h => hexpect entry.2 (Prod.ext h rfl),
        sets_other fun h => hprocedure entry.2 (Prod.ext h rfl),
        sets_other fun h => hfile entry.2 (Prod.ext h rfl)]
      constructor
      · intro h
        cases h
        exact ⟨rfl, rfl, rfl, rfl, rfl⟩
      · rintro ⟨rfl, rfl, rfl, rfl, rfl⟩
        rfl
  ext := by
    rintro ⟨⟩ ⟨⟩ h
    obtain ⟨hd, hc, he, hp, hf⟩ := CaseField.forall_iff.mp h
    cases hd
    cases hc
    cases he
    cases hp
    cases hf
    rfl
  exists_record values :=
    ⟨⟨values .description, values .config, values .expect, values .procedure,
      values .procedureFile⟩, fun i => by cases i <;> rfl⟩

/-- **A test document is read from a table** just if the table says it. -/
theorem readCase_eq_ok_iff {entries : Table} {c : Case} (hkeyed : (Value.table entries).Keyed) :
    readCase entries = .ok c ↔ SaysCase entries c := by
  have hconfig : Field entries "config" (fun v c => readSettings v = .ok c) {} c.config ↔
      Field entries "config" SaysSettingsValue {} c.config :=
    field_congr fun v hv => readSettings_eq_ok_iff (hkeyed.lookup hv)
  have hexpect : Field entries "expect" (fun v e => readExpectations v = .ok e) {} c.expect ↔
      Field entries "expect" SaysExpectationsValue {} c.expect :=
    field_congr fun v hv => readExpectations_eq_ok_iff (hkeyed.lookup hv)
  unfold readCase
  rw [readsFields_readCaseField.foldlM_eq_ok_iff hkeyed.nodup, CaseField.forall_iff]
  constructor
  · rintro ⟨hd, hc, he, hp, hf⟩
    exact ⟨field_optional_iff.mp hd, hconfig.mp hc, hexpect.mp he,
      (optional_congr hkeyed readProcedureValue_eq_ok_iff).mp hp, field_optional_iff.mp hf⟩
  · rintro ⟨hd, hc, he, hp, hf⟩
    exact ⟨field_optional_iff.mpr hd, hconfig.mpr hc, hexpect.mpr he,
      (optional_congr hkeyed readProcedureValue_eq_ok_iff).mpr hp, field_optional_iff.mpr hf⟩

/-- **A test document is read from a text** just if it is a table that says it. -/
theorem Case.ofText_eq_ok_iff {text : String} {c : Case} :
    Case.ofText text = .ok c ↔
      ∃ entries, Toml.parse text = some entries ∧ SaysCase entries c := by
  unfold Case.ofText
  rw [readDocument_eq_ok_iff]
  exact exists_congr fun entries => and_congr_right fun hparse =>
    readCase_eq_ok_iff (Toml.keyed_of_parse hparse)

end LabelCheck.Suite
