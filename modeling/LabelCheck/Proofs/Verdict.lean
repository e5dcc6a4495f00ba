import LabelCheck.Proofs.CaseMeaning
import LabelCheck.Proofs.CheckCommand
import LabelCheck.Suite.Verdict
import Mathlib.Data.List.Infix

/-!
# When a test holds

The verdict on a test document comes from checks that are made one after the other, and the first
one that fails decides. This module says what has to be true for none of them to fail, without
their order.

* `Expectations.Met`: a validation is as expected, item by item;
* `Case.Gives`: the procedure of a test document, which stands in it or in another document;
* `Presents`: a document says a test, and its procedure is found;
* `WithTable`, `WithFile`: a test document in two forms, with its procedure and without;
* `verdict_eq_ok_iff_met`: a test holds just if its procedure is found and its expectations are met,
  and it does not matter in which of the forms the procedure is given.
-/

namespace LabelCheck

namespace Text

theorem occursInList_iff {part whole : List Char} :
    occursInList part whole = true ↔ part <:+: whole := by
  induction whole with
  | nil => rw [occursInList, List.isEmpty_iff, List.infix_nil]
  | cons c rest ih =>
    rw [occursInList, Bool.or_eq_true, List.isPrefixOf_iff_prefix, ih, List.infix_cons_iff]

/-- **Parts of a text.** A text occurs in another if that goes on around it. -/
theorem occursIn_iff {part whole : String} :
    occursIn part whole = true ↔ ∃ before after, whole = before ++ part ++ after := by
  rw [occursIn, occursInList_iff]
  constructor
  · rintro ⟨before, after, h⟩
    refine ⟨String.ofList before, String.ofList after, String.toList_injective ?_⟩
    rw [String.toList_append, String.toList_append, String.toList_ofList, String.toList_ofList, h]
  · rintro ⟨before, after, rfl⟩
    rw [String.toList_append, String.toList_append]
    exact List.infix_append _ _ _

end Text

/-- The messages of the diagnostics of a severity, in the order in which they were reported. -/
def Validation.messages (v : Validation) (severity : Severity) : List String :=
  (v.diagnostics.filter fun d => d.severity = severity).map Diagnostic.message

theorem Validation.messages_error (v : Validation) :
    v.messages .error = v.errors.map Diagnostic.message := by
  refine congrArg (List.map Diagnostic.message) (List.filter_congr fun d _ => ?_)
  unfold Diagnostic.severity
  cases d.isWarning <;> rfl

theorem Validation.messages_warning (v : Validation) :
    v.messages .warning = v.warnings.map Diagnostic.message := by
  refine congrArg (List.map Diagnostic.message) (List.filter_congr fun d _ => ?_)
  unfold Diagnostic.severity
  cases d.isWarning <;> rfl

/-- After a validation every transfer is settled. -/
theorem Procedure.isSettled_of_validate {p : Procedure} {c : Config} {stamp : Stamp}
    {v : Validation} (hv : p.validate c stamp = .ok v) :
    ∀ t ∈ v.procedure.transfers, t.2.resolution.isSettled = true := by
  rw [p.validate_eq c stamp] at hv
  cases hv
  show ∀ t ∈ (p.body.statements.settled c.matcher _ 1).transfers, _
  rw [Statements.transfers_settled]
  intro t ht
  obtain ⟨i, hi, rfl⟩ := List.mem_iff_getElem.mp ht
  rw [List.getElem_zipWith]
  exact Resolution.isSettled_ofOutcome _

namespace Suite

open CommandLine Document Files Toml

/-! ### What is expected -/

/-- A message has the expected part. -/
def Contains (message part : String) : Prop := ∃ before after, message = before ++ part ++ after

/-- **What a transfer is expected to name:** a block if it resolved to that block, and none if it
was not found. -/
structure Names (t : TransferKind × LabelReference) (expected : Option BlockId) : Prop where
  resolved : ∀ id, expected = some id ↔ t.2.resolution = .resolved id
  notFound : expected = none ↔ t.2.resolution = .notFound

/-- **Expectations are met** by as many errors as expected, each of which has the part that is
expected in its place, and so by the warnings and the transfers, if these are looked at. -/
structure Expectations.Met (e : Expectations) (v : Validation) : Prop where
  errors : List.Forall₂ Contains (v.messages .error) e.errors
  warnings : ∀ expected, e.warnings = some expected →
    List.Forall₂ Contains (v.messages .warning) expected
  resolutions : ∀ expected, e.resolutions = some expected →
    List.Forall₂ Names v.procedure.transfers expected

/-- **The procedure of a test document,** for the document at a path: either it stands in the
document, or in another one that is named by a path from the folder of the test. -/
inductive Case.Gives (files : Access Id) (path : Path) (c : Case) : Procedure → Prop where
  | inline {p : Procedure} (h : c.procedure = some p) (hfile : c.procedureFile = none) :
    Gives files path c p
  | referenced {p : Procedure} {file : Path} {text : String} {entries : Table}
    (h : c.procedure = none) (hfile : c.procedureFile = some file)
    (hread : files.read (path.parent.join file) = .ok text)
    (htoml : Toml.parse text = some entries) (hgives : GivesProcedure (.table entries) p) :
    Gives files path c p

/-- **The document at a path says a test,** and the procedure of the test is found. -/
structure Presents (files : Access Id) (path : Path) (c : Case) (p : Procedure) : Prop where
  document : ∃ text entries, files.read path = .ok text ∧ Toml.parse text = some entries ∧
    SaysCase entries c
  gives : c.Gives files path p

/-- What a document says is what is read of it. -/
theorem Presents.exists_text {files : Access Id} {path : Path} {c : Case} {p : Procedure}
    (h : Presents files path c p) :
    ∃ text, files.read path = .ok text ∧ Case.ofText text = .ok c := by
  obtain ⟨text, entries, hread, htoml, hmean⟩ := h.document
  exact ⟨text, hread, Case.ofText_eq_ok_iff.mpr ⟨entries, htoml, hmean⟩⟩

theorem presents_of_ofText {files : Access Id} {path : Path} {text : String} {c : Case}
    {p : Procedure} (hread : files.read path = .ok text) (htext : Case.ofText text = .ok c)
    (hgives : c.Gives files path p) : Presents files path c p := by
  obtain ⟨entries, htoml, hmean⟩ := Case.ofText_eq_ok_iff.mp htext
  exact ⟨⟨text, entries, hread, htoml, hmean⟩, hgives⟩

/-! ### One check after the other -/

/-- Of two checks none fails if the first does not and then the second does not. -/
theorem then_eq_ok_iff {first second : Except Failure Unit} :
    (first >>= fun _ => second) = .ok () ↔ first = .ok () ∧ second = .ok () := by
  cases first with
  | error failure => exact iff_of_false nofun fun h => nomatch h.1
  | ok _ => exact ⟨fun h => ⟨rfl, h⟩, fun h => h.2⟩

/-- A check with a condition in front does not fail if the condition holds and then the check does
not fail. -/
theorem guarded_eq_ok_iff {condition : Prop} [Decidable condition] {check : Except Failure Unit}
    {failure : Failure} :
    (if condition then check else .error failure) = .ok () ↔ condition ∧ check = .ok () := by
  by_cases h : condition
  · rw [if_pos h]
    exact (and_iff_right h).symm
  · rw [if_neg h]
    exact iff_of_false nofun fun hall => h hall.1

theorem checkTexts_eq_ok_iff {severity : Severity} {index : Nat} {actual expected : List String}
    (hlength : actual.length = expected.length) :
    checkTexts severity index actual expected = .ok () ↔
      List.Forall₂ Contains actual expected := by
  induction actual generalizing index expected with
  | nil =>
    obtain rfl : expected = [] := List.eq_nil_of_length_eq_zero hlength.symm
    exact ⟨fun _ => .nil, fun _ => rfl⟩
  | cons message actual ih =>
    cases expected with
    | nil => cases hlength
    | cons part expected =>
      rw [checkTexts, guarded_eq_ok_iff, List.forall₂_cons, Text.occursIn_iff,
        ih (Nat.succ.inj hlength)]
      exact Iff.rfl

theorem checkMessages_eq_ok_iff {severity : Severity} {actual : List Diagnostic}
    {expected : List String} :
    checkMessages severity actual expected = .ok () ↔
      List.Forall₂ Contains (actual.map Diagnostic.message) expected := by
  unfold checkMessages
  rw [guarded_eq_ok_iff]
  -- As many messages as expected parts are there in both cases.
  constructor
  · rintro ⟨hlength, hok⟩
    exact (checkTexts_eq_ok_iff hlength).mp hok
  · intro hall
    exact ⟨hall.length_eq, (checkTexts_eq_ok_iff hall.length_eq).mpr hall⟩

/-- A settled transfer names the block that was found for it. -/
theorem names_iff {t : TransferKind × LabelReference} {expected : Option BlockId}
    (h : t.2.resolution.isSettled = true) :
    Names t expected ↔ t.2.resolution.block? = expected := by
  obtain ⟨kind, target, span, resolution⟩ := t
  cases resolution with
  | unresolved => cases h
  | resolved id =>
    constructor
    · intro hnames
      exact ((hnames.resolved id).mpr rfl).symm
    · rintro rfl
      refine ⟨fun id' => ?_, ?_⟩
      · show some id = some id' ↔ Resolution.resolved id = .resolved id'
        rw [Option.some.injEq, Resolution.resolved.injEq]
      · exact iff_of_false (Option.some_ne_none id) nofun
  | notFound =>
    constructor
    · intro hnames
      exact (hnames.notFound.mpr rfl).symm
    · rintro rfl
      exact ⟨fun id => iff_of_false nofun nofun, iff_of_true rfl rfl⟩

theorem checkBlocks_eq_ok_iff {index : Nat} {transfers : List (TransferKind × LabelReference)}
    {expected : List (Option BlockId)} (hlength : transfers.length = expected.length)
    (hsettled : ∀ t ∈ transfers, t.2.resolution.isSettled = true) :
    checkBlocks index (transfers.map fun (kind, r) => (kind, r.target, r.resolution)) expected =
      .ok () ↔ List.Forall₂ Names transfers expected := by
  induction transfers generalizing index expected with
  | nil =>
    obtain rfl : expected = [] := List.eq_nil_of_length_eq_zero hlength.symm
    exact ⟨fun _ => .nil, fun _ => rfl⟩
  | cons t transfers ih =>
    cases expected with
    | nil => cases hlength
    | cons want expected =>
      have hrest : ∀ t ∈ transfers, t.2.resolution.isSettled = true :=
        fun t ht => hsettled t (List.mem_cons_of_mem _ ht)
      rw [List.map_cons, checkBlocks, guarded_eq_ok_iff, List.forall₂_cons,
        names_iff (hsettled t List.mem_cons_self), ih (Nat.succ.inj hlength) hrest]

theorem checkResolutions_eq_ok_iff {p : Procedure} {expected : List (Option BlockId)}
    (hsettled : ∀ t ∈ p.transfers, t.2.resolution.isSettled = true) :
    checkResolutions p expected = .ok () ↔ List.Forall₂ Names p.transfers expected := by
  unfold checkResolutions
  have hlength : p.resolutions.length = p.transfers.length := List.length_map _
  rw [guarded_eq_ok_iff]
  constructor
  · rintro ⟨hcount, hok⟩
    exact (checkBlocks_eq_ok_iff (hlength ▸ hcount) hsettled).mp hok
  · intro hall
    exact ⟨hlength.trans hall.length_eq, (checkBlocks_eq_ok_iff hall.length_eq hsettled).mpr hall⟩

/-- An expectation that is optional is met if it is met where it is there. -/
theorem optional_eq_ok_iff {α : Type} {expected : Option α} {check : α → Except Failure Unit}
    {met : α → Prop} (h : ∀ a, check a = .ok () ↔ met a) :
    expected.elim (.ok ()) check = .ok () ↔ ∀ a, expected = some a → met a := by
  cases expected with
  | none => exact iff_of_true rfl nofun
  | some a =>
    rw [Option.elim_some, h a]
    constructor
    · intro hmet a' ha'
      exact Option.some.inj ha' ▸ hmet
    · intro hmet
      exact hmet a rfl

/-- **The comparison of a validation** with what is expected of it. -/
theorem Expectations.check_eq_ok_iff {e : Expectations} {v : Validation}
    (hsettled : ∀ t ∈ v.procedure.transfers, t.2.resolution.isSettled = true) :
    e.check v = .ok () ↔ e.Met v := by
  have herrors : checkMessages .error v.errors e.errors = .ok () ↔
      List.Forall₂ Contains (v.messages .error) e.errors := by
    rw [checkMessages_eq_ok_iff, Validation.messages_error]
  have hwarnings : ∀ expected, checkMessages .warning v.warnings expected = .ok () ↔
      List.Forall₂ Contains (v.messages .warning) expected := by
    intro expected
    rw [checkMessages_eq_ok_iff, Validation.messages_warning]
  have hresolutions : ∀ expected, checkResolutions v.procedure expected = .ok () ↔
      List.Forall₂ Names v.procedure.transfers expected :=
    fun expected => checkResolutions_eq_ok_iff hsettled
  have hcheck : e.check v = .ok () ↔ checkMessages .error v.errors e.errors = .ok () ∧
      e.warnings.elim (.ok ()) (checkMessages .warning v.warnings) = .ok () ∧
      e.resolutions.elim (.ok ()) (checkResolutions v.procedure) = .ok () := by
    rw [← then_eq_ok_iff, ← then_eq_ok_iff]
    unfold Expectations.check
    cases e.warnings <;> cases e.resolutions <;> rfl
  -- The order in which the three are compared no longer shows.
  rw [hcheck, herrors, optional_eq_ok_iff hwarnings, optional_eq_ok_iff hresolutions]
  exact ⟨fun ⟨he, hw, hr⟩ => ⟨he, hw, hr⟩, fun h => ⟨h.errors, h.warnings, h.resolutions⟩⟩

/-! ### From the document to its verdict -/

section

variable {files : Access Id} {path : Path} {c : Case}

theorem load_eq_ok_iff {p : Procedure} :
    Procedure.load files path = .ok p ↔
      ∃ text, files.read path = .ok text ∧ Procedure.ofText text = .ok p := by
  unfold Procedure.load
  rw [id_bind]
  cases files.read path with
  | error error => exact iff_of_false nofun fun ⟨_, h, _⟩ => nomatch h
  | ok text =>
    show (Procedure.ofText text).mapError LoadError.document = .ok p ↔ _
    rw [mapError_eq_ok_iff]
    constructor
    · exact fun htext => ⟨text, rfl, htext⟩
    · rintro ⟨_, heq, htext⟩
      cases heq
      exact htext

/-- **The procedure that is found** is the one that the document gives. -/
theorem findProcedure_eq_ok_iff {p : Procedure} :
    c.findProcedure files path = .ok p ↔ c.Gives files path p := by
  unfold Case.findProcedure
  constructor
  · intro hfind
    -- Given twice or not at all, there is no procedure.
    cases hprocedure : c.procedure with
    | some q =>
      cases hfile : c.procedureFile with
      | some _ =>
        rw [hprocedure, hfile] at hfind
        exact nomatch hfind
      | none =>
        rw [hprocedure, hfile] at hfind
        cases hfind
        exact .inline hprocedure hfile
    | none =>
      cases hfile : c.procedureFile with
      | some file =>
        rw [hprocedure, hfile] at hfind
        obtain ⟨text, hread, htext⟩ := load_eq_ok_iff.mp (mapError_eq_ok_iff.mp hfind)
        obtain ⟨entries, htoml, hgives⟩ := Procedure.ofText_eq_ok_iff.mp htext
        exact .referenced hprocedure hfile hread htoml hgives
      | none =>
        rw [hprocedure, hfile] at hfind
        exact nomatch hfind
  · intro hgives
    cases hgives with
    | inline hprocedure hfile =>
      rw [hprocedure, hfile]
      rfl
    | referenced hprocedure hfile hread htoml hgives =>
      rw [hprocedure, hfile]
      have htext := Procedure.ofText_eq_ok_iff.mpr ⟨_, htoml, hgives⟩
      exact mapError_eq_ok_iff.mpr (load_eq_ok_iff.mpr ⟨_, hread, htext⟩)

/-- The verdict on a procedure: it is validated, and the validation is compared with what is
expected. -/
def Case.judge (c : Case) (p : Procedure) : Except Failure Unit :=
  match p.validate c.config 0 with
  | .error fault => .error (.fault fault)
  | .ok v => c.expect.check v

/-- A test document whose procedure is found has the verdict on that. -/
theorem Presents.verdict_eq {p : Procedure} (h : Presents files path c p) :
    (runFile files path).verdict = c.judge p := by
  obtain ⟨text, hread, htext⟩ := h.exists_text
  unfold runFile Case.judge
  rw [id_bind, hread]
  simp only [htext]
  rw [id_bind, findProcedure_eq_ok_iff.mpr h.gives]
  -- Both go on with the same validation.
  cases hv : p.validate c.config 0 with
  | error fault => simp only [hv]; rfl
  | ok v => simp only [hv]; rfl

/-- A test holds only if its document is read and its procedure is found. -/
theorem exists_presents_of_verdict (h : (runFile files path).verdict = .ok ()) :
    ∃ c p, Presents files path c p := by
  unfold runFile at h
  rw [id_bind] at h
  -- Whatever is missing on the way is the reason for a failure.
  cases hread : files.read path with
  | error error =>
    rw [hread] at h
    exact nomatch h
  | ok text =>
    cases htext : Case.ofText text with
    | error error =>
      simp only [hread, htext] at h
      exact nomatch h
    | ok c =>
      simp only [hread, htext] at h
      rw [id_bind] at h
      cases hfind : c.findProcedure files path with
      | error failure =>
        rw [hfind] at h
        exact nomatch h
      | ok p => exact ⟨c, p, presents_of_ofText hread htext (findProcedure_eq_ok_iff.mp hfind)⟩

/-- The check of a procedure fails at none of its steps if the expectations are met. -/
theorem judge_eq_ok_iff {p : Procedure} (stamp : Stamp) :
    c.judge p = .ok () ↔ ∃ v, p.validate c.config stamp = .ok v ∧ c.expect.Met v := by
  have hjudge {v : Validation} (hv : p.validate c.config stamp = .ok v) :
      c.judge p = .ok () ↔ c.expect.Met v := by
    -- The scopes bear another stamp, which no validation shows.
    rw [← Expectations.check_eq_ok_iff (p.isSettled_of_validate hv), Case.judge,
      p.validate_eq c.config 0, ← p.validate_eq c.config stamp, hv]
  constructor
  · intro hok
    have hv := p.validate_eq c.config stamp
    exact ⟨_, hv, (hjudge hv).mp hok⟩
  · rintro ⟨v, hv, hmet⟩
    exact (hjudge hv).mpr hmet

/-- **When a test holds:** it is read, its procedure is found, and its expectations are met. -/
theorem verdict_eq_ok_iff {stamp : Stamp} :
    (runFile files path).verdict = .ok () ↔
      ∃ c p v, Presents files path c p ∧ p.validate c.config stamp = .ok v ∧ c.expect.Met v := by
  constructor
  · intro hok
    obtain ⟨c, p, h⟩ := exists_presents_of_verdict hok
    rw [h.verdict_eq] at hok
    obtain ⟨v, hv, hmet⟩ := (judge_eq_ok_iff stamp).mp hok
    exact ⟨c, p, v, h, hv, hmet⟩
  · rintro ⟨c, p, v, h, hv, hmet⟩
    rw [h.verdict_eq]
    exact (judge_eq_ok_iff stamp).mpr ⟨v, hv, hmet⟩

end

/-! ### A procedure in its own document -/

/-- Whether an entry of a test document says nothing about its procedure. -/
def IsCommon (entry : String × Value) : Prop :=
  entry.1 ≠ "procedure" ∧ entry.1 ≠ "procedure-file"

/-- **A test document that gives its procedure itself,** with its other entries. -/
inductive WithTable (files : Access Id) (path : Path) (common procedure : Table) : Prop where
  | intro {text : String} {before after : Table} (hread : files.read path = .ok text)
    (hparse : Toml.parse text = some (before ++ ("procedure", .table procedure) :: after))
    (hcommon : before ++ after = common)

/-- **A test document that names the document of its procedure,** with its other entries. The entry
for the procedure can stand in another place among them. -/
inductive WithFile (files : Access Id) (path : Path) (common procedure : Table) : Prop where
  | intro {text document file : String} {before after : Table}
    (hread : files.read path = .ok text)
    (hparse : Toml.parse text = some (before ++ ("procedure-file", .string file) :: after))
    (hcommon : before ++ after = common)
    (hdocument : files.read (path.parent.join (.ofText file)) = .ok document)
    (hprocedure : Toml.parse document = some procedure)

/-- A test document with the procedure that another one gives. -/
def Case.giving (c given : Case) : Case :=
  { c with procedure := given.procedure, procedureFile := given.procedureFile }

section

variable {given : Case} {common : Table}

/-- The other entries say the same whatever the procedure is. -/
theorem readCaseField_giving {entry : String × Value} (h : IsCommon entry) (c : Case) :
    readCaseField (c.giving given) entry =
      (readCaseField c entry).map fun d => d.giving given := by
  unfold readCaseField
  -- One case for each key; the two that are not common are ruled out.
  split
  · next v => cases Document.readText v <;> rfl
  · next v => cases Document.readSettings v <;> rfl
  · next v => cases readExpectations v <;> rfl
  · exact absurd rfl h.1
  · exact absurd rfl h.2
  · rfl

theorem foldlM_readCaseField_giving (given : Case) (h : ∀ entry ∈ common, IsCommon entry)
    (c : Case) :
    common.foldlM readCaseField (c.giving given) =
      (common.foldlM readCaseField c).map fun d => d.giving given := by
  induction common generalizing c with
  | nil => rfl
  | cons entry common ih =>
    rw [List.foldlM_cons, List.foldlM_cons, readCaseField_giving (h entry List.mem_cons_self)]
    cases readCaseField c entry with
    | error misfit => rfl
    | ok d => exact ih (fun entry hentry => h entry (List.mem_cons_of_mem _ hentry)) d

/-- The entry about the procedure says the same wherever it stands. -/
theorem readCaseField_of_not_isCommon {entry : String × Value} (h : ¬ IsCommon entry) (c : Case) :
    readCaseField (c.giving {}) entry =
      (readCaseField {} entry).map fun given => c.giving given := by
  obtain ⟨key, v⟩ := entry
  by_cases hinline : key = "procedure"
  · subst hinline
    show (Document.readProcedureValue v >>= _) = (Document.readProcedureValue v >>= _).map _
    cases Document.readProcedureValue v <;> rfl
  · obtain rfl : key = "procedure-file" := by
      by_contra hfile
      exact h ⟨hinline, hfile⟩
    show (Document.readText v >>= _) = (Document.readText v >>= _).map _
    cases Document.readText v <;> rfl

/-- **The entry about the procedure stands for itself.** What a test document says is what its other
entries say, with what this one says of the procedure. -/
theorem readCase_append_eq_ok_iff {before after : Table} {entry : String × Value} {c : Case}
    (hcommon : ∀ entry ∈ before ++ after, IsCommon entry) (hentry : ¬ IsCommon entry) :
    readCase (before ++ entry :: after) = .ok c ↔
      ∃ d given, readCase (before ++ after) = .ok d ∧ readCaseField {} entry = .ok given ∧
        c = d.giving given := by
  have hbefore : ∀ entry ∈ before, IsCommon entry :=
    fun entry h => hcommon entry (List.mem_append_left _ h)
  have hafter : ∀ entry ∈ after, IsCommon entry :=
    fun entry h => hcommon entry (List.mem_append_right _ h)
  -- The entries in front say nothing of a procedure.
  have hnone {b : Case} (hb : before.foldlM readCaseField {} = .ok b) : b.giving {} = b := by
    have hgiving := foldlM_readCaseField_giving {} hbefore {}
    rw [show ({} : Case).giving {} = {} from rfl, hb] at hgiving
    exact (Except.ok.inj hgiving).symm
  have hsteps {b : Case} (hb : before.foldlM readCaseField {} = .ok b) :
      (readCaseField b entry >>= after.foldlM readCaseField) = .ok c ↔
        ∃ given, readCaseField {} entry = .ok given ∧
          ∃ d, after.foldlM readCaseField b = .ok d ∧ d.giving given = c := by
    rw [← hnone hb, readCaseField_of_not_isCommon hentry, hnone hb, Document.bind_eq_ok_iff]
    -- What is given of the procedure is carried past the entries behind.
    constructor
    · rintro ⟨_, hmap, hfold⟩
      obtain ⟨given, hgiven, rfl⟩ := map_eq_ok_iff.mp hmap
      rw [foldlM_readCaseField_giving _ hafter] at hfold
      exact ⟨given, hgiven, map_eq_ok_iff.mp hfold⟩
    · rintro ⟨given, hgiven, hfold⟩
      refine ⟨_, map_eq_ok_iff.mpr ⟨given, hgiven, rfl⟩, ?_⟩
      rw [foldlM_readCaseField_giving _ hafter]
      exact map_eq_ok_iff.mpr hfold
  unfold readCase
  rw [List.foldlM_append, List.foldlM_append, Document.bind_eq_ok_iff]
  constructor
  · rintro ⟨b, hb, hstep⟩
    rw [List.foldlM_cons] at hstep
    obtain ⟨given, hgiven, d, hd, rfl⟩ := (hsteps hb).mp hstep
    exact ⟨d, given, Document.bind_eq_ok_iff.mpr ⟨b, hb, hd⟩, hgiven, rfl⟩
  · rintro ⟨d, given, hd, hgiven, rfl⟩
    obtain ⟨b, hb, hd⟩ := Document.bind_eq_ok_iff.mp hd
    refine ⟨b, hb, ?_⟩
    rw [List.foldlM_cons]
    exact (hsteps hb).mpr ⟨given, hgiven, d, hd, rfl⟩

theorem not_isCommon_procedure (v : Value) : ¬ IsCommon ("procedure", v) := fun h => h.1 rfl

theorem not_isCommon_procedureFile (v : Value) : ¬ IsCommon ("procedure-file", v) :=
  fun h => h.2 rfl

/-- What a test document says, in the terms of its other entries. -/
theorem presents_iff_of_parse {files : Access Id} {path : Path} {text : String}
    {before after : Table} {entry : String × Value} (hread : files.read path = .ok text)
    (hparse : Toml.parse text = some (before ++ entry :: after))
    (hcommon : ∀ entry ∈ before ++ after, IsCommon entry) (hentry : ¬ IsCommon entry)
    {c : Case} {p : Procedure} :
    Presents files path c p ↔ ∃ d given, readCase (before ++ after) = .ok d ∧
      readCaseField {} entry = .ok given ∧ c = d.giving given ∧ c.Gives files path p := by
  have htext : Case.ofText text = .ok c ↔ readCase (before ++ entry :: after) = .ok c := by
    unfold Case.ofText
    rw [readDocument_eq_ok_iff, hparse]
    simp only [Option.some.injEq, exists_eq_left']
  constructor
  · intro h
    obtain ⟨text', hread', htext'⟩ := h.exists_text
    obtain rfl : text = text' := Except.ok.inj (hread.symm.trans hread')
    obtain ⟨d, given, hd, hgiven, hc⟩ :=
      (readCase_append_eq_ok_iff hcommon hentry).mp (htext.mp htext')
    exact ⟨d, given, hd, hgiven, hc, h.gives⟩
  · rintro ⟨d, given, hd, hgiven, hc, hgives⟩
    have hcase := (readCase_append_eq_ok_iff hcommon hentry).mpr ⟨d, given, hd, hgiven, hc⟩
    exact presents_of_ofText hread (htext.mpr hcase) hgives

/-- **What a test document with a procedure says:** what its other entries say, of the procedure in
its table. -/
theorem WithTable.exists_presents_iff {files : Access Id} {path : Path} {procedure : Table}
    (h : WithTable files path common procedure) (hcommon : ∀ entry ∈ common, IsCommon entry) :
    ∃ given : Procedure → Case, ∀ c p, Presents files path c p ↔
      ∃ d, readCase common = .ok d ∧ Document.readProcedure procedure = .ok p ∧
        c = d.giving (given p) := by
  obtain @⟨text, before, after, hread, hparse, rfl⟩ := h
  refine ⟨fun p => { procedure := some p }, fun c p => ?_⟩
  have hfield {given : Case} :
      readCaseField {} ("procedure", .table procedure) = .ok given ↔
        ∃ q, Document.readProcedure procedure = .ok q ∧ { procedure := some q } = given := by
    show (Document.readProcedure procedure >>= _) = _ ↔ _
    rw [Document.bind_eq_ok_iff]
    simp only [pure, Except.pure, Except.ok.injEq]
  rw [presents_iff_of_parse hread hparse hcommon (not_isCommon_procedure _)]
  constructor
  · rintro ⟨d, given, hd, hgiven, rfl, hgives⟩
    obtain ⟨q, hq, rfl⟩ := hfield.mp hgiven
    cases hgives with
    | inline hp _ =>
      obtain rfl : q = p := Option.some.inj hp
      exact ⟨d, hd, hq, rfl⟩
    | referenced hp _ _ _ => exact nomatch hp
  · rintro ⟨d, hd, hp, rfl⟩
    exact ⟨d, _, hd, hfield.mpr ⟨p, hp, rfl⟩, rfl, .inline rfl rfl⟩

/-- **What a test document without its procedure says:** what its other entries say, of the
procedure in the document that it names. -/
theorem WithFile.exists_presents_iff {files : Access Id} {path : Path} {procedure : Table}
    (h : WithFile files path common procedure) (hcommon : ∀ entry ∈ common, IsCommon entry) :
    ∃ given : Procedure → Case, ∀ c p, Presents files path c p ↔
      ∃ d, readCase common = .ok d ∧ Document.readProcedure procedure = .ok p ∧
        c = d.giving (given p) := by
  obtain @⟨text, document, file, before, after, hread, hparse, rfl, hdocument, hprocedure⟩ := h
  refine ⟨fun _ => { procedureFile := some (.ofText file) }, fun c p => ?_⟩
  have hgiven {given : Case} : readCaseField {} ("procedure-file", .string file) = .ok given ↔
      { procedureFile := some (.ofText file) } = given :=
    ⟨Except.ok.inj, congrArg Except.ok⟩
  -- What is read of the document is what it gives.
  have hgive : Document.readProcedure procedure = .ok p ↔
      GivesProcedure (.table procedure) p :=
    readProcedureValue_eq_ok_iff (Toml.keyed_of_parse hprocedure)
  rw [presents_iff_of_parse hread hparse hcommon (not_isCommon_procedureFile _)]
  constructor
  · rintro ⟨d, given, hd, hfile, rfl, hgives⟩
    obtain rfl := hgiven.mp hfile
    cases hgives with
    | inline hp _ => exact nomatch hp
    | referenced _ hfile hread' htoml hp =>
      cases hfile
      obtain rfl := Except.ok.inj (hdocument.symm.trans hread')
      obtain rfl := Option.some.inj (hprocedure.symm.trans htoml)
      exact ⟨d, hd, hgive.mpr hp, rfl⟩
  · rintro ⟨d, hd, hp, rfl⟩
    exact ⟨d, _, hd, hgiven.mpr rfl, rfl,
      .referenced rfl rfl hdocument hprocedure (hgive.mp hp)⟩

end

section

variable {files files' : Access Id} {path path' : Path} {c c' : Case} {p : Procedure}

/-- **The same procedure has the same verdict,** wherever it is given. -/
theorem Presents.verdict_eq_of_eq (h : Presents files path c p) (h' : Presents files' path' c' p)
    (hconfig : c'.config = c.config) (hexpect : c'.expect = c.expect) :
    (runFile files' path').verdict = (runFile files path).verdict := by
  rw [h.verdict_eq, h'.verdict_eq, Case.judge, Case.judge, hconfig, hexpect]

/-- Of two documents with the same other entries either presents what the other one does. -/
theorem Presents.verdict_eq_of_presents_iff {common procedure : Table}
    {given given' : Procedure → Case}
    (hiff : ∀ c p, Presents files path c p ↔ ∃ d, readCase common = .ok d ∧
      Document.readProcedure procedure = .ok p ∧ c = d.giving (given p))
    (hiff' : ∀ c p, Presents files' path' c p ↔ ∃ d, readCase common = .ok d ∧
      Document.readProcedure procedure = .ok p ∧ c = d.giving (given' p))
    (h : Presents files path c p) :
    (runFile files' path').verdict = (runFile files path).verdict := by
  obtain ⟨d, hd, hp, rfl⟩ := (hiff c p).mp h
  exact h.verdict_eq_of_eq ((hiff' _ p).mpr ⟨d, hd, hp, rfl⟩) rfl rfl

end

/-- **When a test holds.** Whatever the files are and wherever the test document is, the test holds
just if the document is read, its procedure is found, and the validation under its settings meets
its expectations. So it does not matter where the procedure is given: if two documents present the
same procedure, and with the same settings and expectations, their verdicts are the same. In
particular a test document can have its procedure in a table, or that table in a document of its
own. -/
theorem verdict_eq_ok_iff_met (files : Access Id) (path : Path) (stamp : Stamp) :
    ((runFile files path).verdict = .ok () ↔
      ∃ c p v, Presents files path c p ∧ p.validate c.config stamp = .ok v ∧ c.expect.Met v) ∧
    (∀ files' path' c c' p, Presents files path c p → Presents files' path' c' p →
      c'.config = c.config → c'.expect = c.expect →
        (runFile files' path').verdict = (runFile files path).verdict) ∧
    ∀ files' path' common procedure, (∀ entry ∈ common, IsCommon entry) →
      WithTable files path common procedure → WithFile files' path' common procedure →
        ((runFile files' path').verdict = .ok () ↔ (runFile files path).verdict = .ok ()) ∧
        ∀ c p, Presents files path c p →
          (runFile files' path').verdict = (runFile files path).verdict := by
  refine ⟨verdict_eq_ok_iff, fun files' path' c c' p h h' => h.verdict_eq_of_eq h', ?_⟩
  intro files' path' common procedure hcommon htable hfile
  obtain ⟨given, hiff⟩ := htable.exists_presents_iff hcommon
  obtain ⟨given', hiff'⟩ := hfile.exists_presents_iff hcommon
  refine ⟨⟨fun hok => ?_, fun hok => ?_⟩, fun c p h => h.verdict_eq_of_presents_iff hiff hiff'⟩
  · obtain ⟨c, p, h⟩ := exists_presents_of_verdict hok
    rw [h.verdict_eq_of_presents_iff hiff' hiff, hok]
  · obtain ⟨c, p, h⟩ := exists_presents_of_verdict hok
    rw [h.verdict_eq_of_presents_iff hiff hiff', hok]

/-- A procedure with a warning in front of an error. -/
def adriftProcedure : Table :=
  [("name", .string "p"),
    ("body", .table [("kind", .string "loop"), ("end-label", .string "y"),
      ("statements", .array .bracketed
        [.table [("type", .string "leave"), ("target", .string "x")]])])]

/-- What a test of the procedure says beside it. -/
def adriftCommon : Table :=
  [("config", .table [("unresolved-label", .string "warn")]),
    ("expect", .table [("errors", .array .bracketed [.string "y"]),
      ("warnings", .array .bracketed [.string "x"]),
      ("resolutions", .array .bracketed [.table []])])]

/-- The body of the procedure as it is written. -/
def adriftBody : String :=
  "\x7bkind='loop',end-label='y',statements=[\x7btype='leave',target='x'\x7d]\x7d"

/-- The procedure as a document. -/
def adriftDocument : String := "name='p'\nbody=" ++ adriftBody

/-- What is expected, as it is written. -/
def adriftExpect : String := "expect=\x7berrors=['y'],warnings=['x'],resolutions=[\x7b\x7d]\x7d"

/-- A test that gives the procedure itself, last of all. -/
def adriftWithTable : String :=
  "config.unresolved-label='warn'\n" ++ adriftExpect ++ "\nprocedure=\x7bname='p',body=" ++
    adriftBody ++ "\x7d"

/-- A test that names the document of the procedure, first of all. -/
def adriftWithFile : String :=
  "procedure-file='../p'\nconfig.unresolved-label='warn'\n" ++ adriftExpect

/-- The two tests in a folder and the document in the folder above. -/
def adriftFiles : Access Id where
  read path :=
    if path = "t/a.test.toml" then .ok adriftWithTable
    else if path = "t/b.test.toml" then .ok adriftWithFile
    else if path = "t/../p" then .ok adriftDocument
    else .error .notFound
  isFile _ := true
  list _ := .nil

theorem parse_adriftDocument : Toml.parse adriftDocument = some adriftProcedure := by
  decide +kernel

theorem parse_adriftWithTable :
    Toml.parse adriftWithTable =
      some (adriftCommon ++ ("procedure", .table adriftProcedure) :: []) := by
  decide +kernel

theorem parse_adriftWithFile :
    Toml.parse adriftWithFile =
      some ([] ++ ("procedure-file", .string "../p") :: adriftCommon) := by
  decide +kernel

theorem verdict_eq_ok_iff_met_adrift :
    (∀ entry ∈ adriftCommon, IsCommon entry) ∧
      WithTable adriftFiles "t/a.test.toml" adriftCommon adriftProcedure ∧
      WithFile adriftFiles "t/b.test.toml" adriftCommon adriftProcedure ∧
      ((runFile adriftFiles "t/b.test.toml").verdict = .ok () ↔
        (runFile adriftFiles "t/a.test.toml").verdict = .ok ()) ∧
      ∃ c c' p, Presents adriftFiles "t/a.test.toml" c p ∧
        Presents adriftFiles "t/b.test.toml" c' p ∧ c'.config = c.config ∧ c'.expect = c.expect ∧
        (runFile adriftFiles "t/a.test.toml").verdict = .ok () ∧
        (runFile adriftFiles "t/b.test.toml").verdict =
          (runFile adriftFiles "t/a.test.toml").verdict := by
  have hcommon : ∀ entry ∈ adriftCommon, IsCommon entry := by
    simp [adriftCommon, IsCommon]
  have htable : WithTable adriftFiles "t/a.test.toml" adriftCommon adriftProcedure :=
    .intro rfl parse_adriftWithTable rfl
  have hfile : WithFile adriftFiles "t/b.test.toml" adriftCommon adriftProcedure :=
    .intro rfl parse_adriftWithFile rfl rfl parse_adriftDocument
  -- What the two documents present is read from the same two tables.
  obtain ⟨given, hiff⟩ := htable.exists_presents_iff hcommon
  obtain ⟨given', hiff'⟩ := hfile.exists_presents_iff hcommon
  obtain ⟨d, p, hd, hp, hok⟩ : ∃ d p, readCase adriftCommon = .ok d ∧
      Document.readProcedure adriftProcedure = .ok p ∧ (d.judge p).isOk = true :=
    ⟨_, _, rfl, rfl, by decide +kernel⟩
  have h := (hiff _ p).mpr ⟨d, hd, hp, rfl⟩
  have h' := (hiff' _ p).mpr ⟨d, hd, hp, rfl⟩
  obtain ⟨_, hsame, hforms⟩ := verdict_eq_ok_iff_met adriftFiles "t/a.test.toml" 0
  refine ⟨hcommon, htable, hfile, (hforms _ _ _ _ hcommon htable hfile).1, _, _, p, h, h', rfl, rfl,
    ?_, hsame _ _ _ _ p h h' rfl rfl⟩
  rw [h.verdict_eq]
  show d.judge p = .ok ()
  cases hjudge : d.judge p with
  | error failure =>
    rw [hjudge] at hok
    cases hok
  | ok _ => rfl

end Suite

end LabelCheck
