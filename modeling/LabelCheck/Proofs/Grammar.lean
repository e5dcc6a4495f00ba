import LabelCheck.Proofs.Meaning

/-!
# The grammar of procedure documents

Which tables are documents, said without regard to what they mean: which entries have to be there,
which may be, and of which form each is. An entry under a key that the grammar does not name is of
no account, and neither is the order of the entries. Documents of the grammar are those that are
read, with a procedure for each.

* `SpanForm`, `KindForm`, `BlockFields`, `StatementForm`, `BlockForm`, `ProcedureForm`: the rules,
  from the parts to the whole;
* `readProcedure_accepts`: a document is read if and only if it is of the grammar, and what is read
  is what it says.

The grammar leaves out two shorthands, a statement written as an array and a span with surplus
items. The theorem is about documents without them (`Plain`).
-/

namespace LabelCheck.Document

open Toml

/-! ### Forms -/

/-- The value is a text. -/
def IsText (v : Value) : Prop := ∃ text, v = .string text

/-- The value is an integer that is not negative. -/
def IsSize (v : Value) : Prop := ∃ n : Nat, v = .integer n

/-- The table has an entry under the key, and its value is of the form. -/
def Has (entries : Table) (key : String) (form : Value → Prop) : Prop :=
  ∃ v, entries.lookup key = some v ∧ form v

/-- If the table has an entry under the key, its value is of the form. -/
def MayHave (entries : Table) (key : String) (form : Value → Prop) : Prop :=
  ∀ v, entries.lookup key = some v → form v

/-- The entry under the key is this very text. -/
def HasTag (entries : Table) (key tag : String) : Prop := entries.lookup key = some (.string tag)

/-- A span: a table with its two ends and no other key, or an array of the two. -/
def SpanForm : Value → Prop
  | .table entries =>
    (∀ entry ∈ entries, entry.1 = "start" ∨ entry.1 = "end") ∧
      Has entries "start" IsSize ∧ Has entries "end" IsSize
  | .array _ items => ∃ start stop, items = [start, stop] ∧ IsSize start ∧ IsSize stop
  | _ => False

/-- The kind of a block: one of seven names, with what blocks of that name carry. -/
structure KindForm (entries : Table) : Prop where
  name : ∃ name ∈ ["begin-end", "while", "loop", "repeat", "if", "case", "branch"],
    HasTag entries "kind" name
  whileDo : HasTag entries "kind" "while" → Has entries "condition" IsText
  repeatUntil : HasTag entries "kind" "repeat" → Has entries "until" IsText
  caseOf : HasTag entries "kind" "case" → MayHave entries "operand" IsText
  branch : HasTag entries "kind" "branch" → MayHave entries "condition" IsText

/-- The entries of a block apart from its statements, the values of which are `items`. -/
structure BlockFields (entries : Table) (items : List Value) : Prop where
  kind : KindForm entries
  label : MayHave entries "label" IsText
  endLabel : MayHave entries "end-label" IsText
  span : MayHave entries "span" SpanForm
  items : StatementItems entries items

/-- **Statements.** A table with its type; a block stands beside the type in the same table. -/
inductive StatementForm : Value → Prop where
  | sql {entries : Table} (htype : HasTag entries "type" "sql") (htext : Has entries "text" IsText)
    (hspan : MayHave entries "span" SpanForm) : StatementForm (.table entries)
  | transfer {entries : Table}
    (htype : HasTag entries "type" "leave" ∨ HasTag entries "type" "iterate")
    (htarget : Has entries "target" IsText) (hspan : MayHave entries "span" SpanForm) :
    StatementForm (.table entries)
  | block {entries : Table} {items : List Value} (htype : HasTag entries "type" "block")
    (hfields : BlockFields entries items) (hitems : ∀ v ∈ items, StatementForm v) :
    StatementForm (.table entries)

/-- A body: the table of a block. -/
def BlockForm (v : Value) : Prop :=
  ∃ entries items, v = .table entries ∧ BlockFields entries items ∧ ∀ v ∈ items, StatementForm v

/-- **Documents.** -/
structure ProcedureForm (entries : Table) : Prop where
  name : Has entries "name" IsText
  source : MayHave entries "source" IsText
  body : Has entries "body" BlockForm

/-! ### A part is of its form if it says something -/

section Parts

variable {α : Type} {entries : Table} {key : String} {form : Value → Prop}
  {means : Value → α → Prop}

theorem has_iff_exists (h : ∀ v, form v ↔ ∃ a, means v a) :
    Has entries key form ↔ ∃ a, SaysRequired entries key means a := by
  constructor
  · rintro ⟨v, hv, hform⟩
    obtain ⟨a, ha⟩ := (h v).mp hform
    exact ⟨a, v, hv, ha⟩
  · rintro ⟨a, v, hv, ha⟩
    exact ⟨v, hv, (h v).mpr ⟨a, ha⟩⟩

theorem mayHave_iff_exists (h : ∀ v, form v ↔ ∃ a, means v a) :
    MayHave entries key form ↔ ∃ o, SaysOptional entries key means o := by
  constructor
  · intro hform
    cases hv : entries.lookup key with
    | none => exact ⟨none, hv⟩
    | some v =>
      obtain ⟨a, ha⟩ := (h v).mp (hform v hv)
      exact ⟨some a, v, hv, ha⟩
  · rintro ⟨o, ho⟩ v hv
    cases o with
    | none =>
      rw [SaysOptional, hv] at ho
      cases ho
    | some a =>
      obtain ⟨v', hv', ha⟩ := ho
      rw [hv] at hv'
      cases hv'
      exact (h v).mpr ⟨a, ha⟩

end Parts

theorem isText_iff (v : Value) : IsText v ↔ ∃ text, SaysText v text := Iff.rfl

/-- Every text denotes an identifier. -/
theorem isText_iff_identifier (v : Value) : IsText v ↔ ∃ i, SaysIdentifier v i := by
  constructor
  · rintro ⟨text, rfl⟩
    exact ⟨.parse text, text, rfl, rfl⟩
  · rintro ⟨_, text, rfl, _⟩
    exact ⟨text, rfl⟩

theorem spanForm_iff (v : Value) : SpanForm v ↔ ∃ s, SaysSpan v s := by
  cases v with
  | table entries =>
    constructor
    · rintro ⟨hkeys, ⟨_, hstart, m, rfl⟩, ⟨_, hstop, n, rfl⟩⟩
      exact ⟨⟨m, n⟩, hkeys, hstart, hstop⟩
    · rintro ⟨s, hkeys, hstart, hstop⟩
      exact ⟨hkeys, ⟨_, hstart, _, rfl⟩, ⟨_, hstop, _, rfl⟩⟩
  | array form items =>
    constructor
    · rintro ⟨_, _, rfl, ⟨m, rfl⟩, ⟨n, rfl⟩⟩
      exact ⟨⟨m, n⟩, rfl⟩
    · rintro ⟨s, hitems⟩
      exact ⟨_, _, hitems, ⟨_, rfl⟩, ⟨_, rfl⟩⟩
  | string | integer | float | boolean | moment => exact ⟨False.elim, fun ⟨_, h⟩ => h⟩

theorem HasTag.unique {entries : Table} {key tag tag' : String} (h : HasTag entries key tag)
    (h' : HasTag entries key tag') : tag = tag' :=
  Value.string.inj (Option.some.inj (h.symm.trans h'))

/-- The form of a kind with a given name. -/
theorem KindForm.of_tag {entries : Table} {tag : String} (htag : HasTag entries "kind" tag)
    (hname : tag ∈ ["begin-end", "while", "loop", "repeat", "if", "case", "branch"])
    (hwhile : tag = "while" → Has entries "condition" IsText)
    (hrepeat : tag = "repeat" → Has entries "until" IsText)
    (hcase : tag = "case" → MayHave entries "operand" IsText)
    (hbranch : tag = "branch" → MayHave entries "condition" IsText) : KindForm entries where
  name := ⟨tag, hname, htag⟩
  whileDo h := hwhile (htag.unique h)
  repeatUntil h := hrepeat (htag.unique h)
  caseOf h := hcase (htag.unique h)
  branch h := hbranch (htag.unique h)

theorem kindForm_iff {entries : Table} : KindForm entries ↔ ∃ kind, SaysKind entries kind := by
  constructor
  · intro h
    obtain ⟨name, hmem, htag⟩ := h.name
    have hkind : SaysRequired entries "kind" SaysText name := required_text_iff.mpr htag
    simp only [List.mem_cons, List.not_mem_nil, or_false] at hmem
    rcases hmem with rfl | rfl | rfl | rfl | rfl | rfl | rfl
    · exact ⟨.beginEnd, hkind⟩
    · obtain ⟨condition, hcondition⟩ := (has_iff_exists isText_iff).mp (h.whileDo htag)
      exact ⟨.whileDo condition, hkind, hcondition⟩
    · exact ⟨.loop, hkind⟩
    · obtain ⟨condition, hcondition⟩ := (has_iff_exists isText_iff).mp (h.repeatUntil htag)
      exact ⟨.repeatUntil condition, hkind, hcondition⟩
    · exact ⟨.ifThen, hkind⟩
    · obtain ⟨operand, hoperand⟩ := (mayHave_iff_exists isText_iff).mp (h.caseOf htag)
      exact ⟨.caseOf operand, hkind, hoperand⟩
    · obtain ⟨condition, hcondition⟩ := (mayHave_iff_exists isText_iff).mp (h.branch htag)
      exact ⟨.branch condition, hkind, hcondition⟩
  · rintro ⟨kind, h⟩
    cases kind with
    | beginEnd | loop | ifThen =>
      refine .of_tag (required_text_iff.mp h) ?_ ?_ ?_ ?_ ?_ <;> simp
    | whileDo condition | repeatUntil condition =>
      have hcondition := (has_iff_exists isText_iff).mpr ⟨condition, h.2⟩
      refine .of_tag (required_text_iff.mp h.1) ?_ ?_ ?_ ?_ ?_ <;> simp [hcondition]
    | caseOf operand | branch operand =>
      have hoperand := (mayHave_iff_exists isText_iff).mpr ⟨operand, h.2⟩
      refine .of_tag (required_text_iff.mp h.1) ?_ ?_ ?_ ?_ ?_ <;> simp [hoperand]

/-! ### Blocks and statements -/

theorem BlockFields.exists_header {entries : Table} {items : List Value}
    (h : BlockFields entries items) : ∃ header, SaysHeader entries header := by
  obtain ⟨kind, hkind⟩ := kindForm_iff.mp h.kind
  obtain ⟨label, hlabel⟩ := (mayHave_iff_exists isText_iff_identifier).mp h.label
  obtain ⟨endLabel, hend⟩ := (mayHave_iff_exists isText_iff_identifier).mp h.endLabel
  obtain ⟨span, hspan⟩ := (mayHave_iff_exists spanForm_iff).mp h.span
  exact ⟨{ kind, label, endLabel, span }, hkind, hlabel, hend, hspan⟩

theorem SaysHeader.blockFields {entries : Table} {header : Header} {items : List Value}
    (h : SaysHeader entries header) (hitems : StatementItems entries items) :
    BlockFields entries items where
  kind := kindForm_iff.mpr ⟨_, h.kind⟩
  label := (mayHave_iff_exists isText_iff_identifier).mpr ⟨_, h.label⟩
  endLabel := (mayHave_iff_exists isText_iff_identifier).mpr ⟨_, h.endLabel⟩
  span := (mayHave_iff_exists spanForm_iff).mpr ⟨_, h.span⟩
  items := hitems

/-- Values each of which can be put before what is said are said together. -/
theorem exists_saysStatements {items : List Value}
    (h : ∀ v ∈ items, ∀ {later : List Value} {rest : Statements}, SaysStatements later rest →
      ∃ s, SaysStatements (v :: later) s) : ∃ s, SaysStatements items s := by
  induction items with
  | nil => exact ⟨.nil, .nil⟩
  | cons v later ih =>
    obtain ⟨rest, hrest⟩ := ih fun v hv => h v (List.mem_cons_of_mem _ hv)
    exact h v List.mem_cons_self hrest

/-- A value of the form of a statement says one, whatever statements come after it. -/
theorem StatementForm.exists_statements {v : Value} (h : StatementForm v) {later : List Value}
    {rest : Statements} (hlater : SaysStatements later rest) :
    ∃ s, SaysStatements (v :: later) s := by
  -- The form is a matter of one value and what is said one of a list, so that the values behind it
  -- are carried along. For the items of a block this puts the statements together.
  induction h generalizing later rest with
  | sql htype htext hspan =>
    obtain ⟨text, htext⟩ := (has_iff_exists isText_iff).mp htext
    obtain ⟨span, hspan⟩ := (mayHave_iff_exists spanForm_iff).mp hspan
    exact ⟨_, .sql (required_text_iff.mpr htype) htext hspan hlater⟩
  | @transfer entries htype htarget hspan =>
    obtain ⟨target, htarget⟩ := (has_iff_exists isText_iff_identifier).mp htarget
    obtain ⟨span, hspan⟩ := (mayHave_iff_exists spanForm_iff).mp hspan
    have htag : ∃ kind, SaysRequired entries "type" SaysText (transferTag kind) := by
      rcases htype with htype | htype
      · exact ⟨.leave, required_text_iff.mpr htype⟩
      · exact ⟨.iterate, required_text_iff.mpr htype⟩
    obtain ⟨kind, htag⟩ := htag
    exact ⟨_, .transfer htag htarget hspan hlater⟩
  | block htype hfields _ ih =>
    obtain ⟨header, hheader⟩ := hfields.exists_header
    obtain ⟨inner, hinner⟩ := exists_saysStatements fun v hv => ih v hv
    exact ⟨_, .block (required_text_iff.mpr htype) hheader hfields.items hinner hlater⟩

/-- Values that say statements are of their form. -/
theorem SaysStatements.forms {items : List Value} {s : Statements} (h : SaysStatements items s) :
    ∀ v ∈ items, StatementForm v := by
  induction h with
  | nil =>
    intro v hv
    cases hv
  | sql htype htext hspan _ ih =>
    refine List.forall_mem_cons.mpr ⟨?_, ih⟩
    exact .sql (required_text_iff.mp htype) ((has_iff_exists isText_iff).mpr ⟨_, htext⟩)
      ((mayHave_iff_exists spanForm_iff).mpr ⟨_, hspan⟩)
  | @transfer _ _ kind _ _ _ htype htarget hspan _ ih =>
    refine List.forall_mem_cons.mpr ⟨?_, ih⟩
    refine .transfer ?_ ((has_iff_exists isText_iff_identifier).mpr ⟨_, htarget⟩)
      ((mayHave_iff_exists spanForm_iff).mpr ⟨_, hspan⟩)
    cases kind with
    | leave => exact .inl (required_text_iff.mp htype)
    | iterate => exact .inr (required_text_iff.mp htype)
  | block htype hheader hinside _ _ ihInner ihRest =>
    refine List.forall_mem_cons.mpr ⟨?_, ihRest⟩
    exact .block (required_text_iff.mp htype) (hheader.blockFields hinside) ihInner

/-! ### Documents -/

theorem blockForm_table_iff {entries : Table} :
    BlockForm (.table entries) ↔ ∃ b, SaysBlock entries b := by
  constructor
  · rintro ⟨_, items, heq, hfields, hitems⟩
    cases heq
    obtain ⟨header, hheader⟩ := hfields.exists_header
    obtain ⟨s, hs⟩ := exists_saysStatements fun v hv => (hitems v hv).exists_statements
    exact ⟨⟨header, s⟩, hheader, items, hfields.items, hs⟩
  · rintro ⟨b, hheader, items, hitems, hs⟩
    exact ⟨entries, items, rfl, hheader.blockFields hitems, hs.forms⟩

theorem procedureForm_iff {entries : Table} :
    ProcedureForm entries ↔ ∃ p, SaysProcedure entries p := by
  constructor
  · intro h
    obtain ⟨name, hname⟩ := (has_iff_exists isText_iff).mp h.name
    obtain ⟨source, hsource⟩ := (mayHave_iff_exists isText_iff).mp h.source
    obtain ⟨v, hv, hbody⟩ := h.body
    obtain ⟨inner, _, rfl, _⟩ := id hbody
    obtain ⟨body, hbody⟩ := blockForm_table_iff.mp hbody
    exact ⟨{ name, source, body }, hname, hsource, ⟨inner, hv, hbody⟩, rfl⟩
  · rintro ⟨p, h⟩
    obtain ⟨inner, hv, hbody⟩ := h.body
    exact
      { name := (has_iff_exists isText_iff).mpr ⟨_, h.name⟩
        source := (mayHave_iff_exists isText_iff).mpr ⟨_, h.source⟩
        body := ⟨_, hv, blockForm_table_iff.mpr ⟨_, hbody⟩⟩ }

/-! ### Entries of no account and the order of entries -/

/-- The keys that the grammar names, apart from those of spans. -/
def namedKeys : List String :=
  ["name", "source", "body", "kind", "condition", "until", "operand", "label", "end-label",
    "statements", "type", "text", "target"]

/-- **Alike values.** At all depths they have the same items, and under the keys that the grammar
names alike entries. They may differ in entries under other keys and in the order of entries. Their
spans say the same; a span has no other keys. -/
inductive Alike : Value → Value → Prop where
  | same (v : Value) : Alike v v
  | array {form form' : ArrayForm} {items items' : List Value}
    (hlength : items.length = items'.length)
    (hitems : ∀ (i : Nat) (v v' : Value), items[i]? = some v → items'[i]? = some v' → Alike v v') :
    Alike (.array form items) (.array form' items')
  | table {entries entries' : Table}
    (hspan : ∀ s, SaysOptional entries "span" SaysSpan s ↔ SaysOptional entries' "span" SaysSpan s)
    (hnone : ∀ key ∈ namedKeys, entries.lookup key = none ↔ entries'.lookup key = none)
    (hsome : ∀ key ∈ namedKeys, ∀ v v', entries.lookup key = some v →
      entries'.lookup key = some v' → Alike v v') :
    Alike (.table entries) (.table entries')

theorem Alike.symm {v v' : Value} (h : Alike v v') : Alike v' v := by
  induction h with
  | same v => exact .same v
  | array hlength _ ih => exact .array hlength.symm fun i v v' hv hv' => ih i v' v hv' hv
  | table hspan hnone _ ih =>
    exact .table (fun s => (hspan s).symm) (fun key hkey => (hnone key hkey).symm)
      fun key hkey v v' hv hv' => ih key hkey v' v hv' hv

/-- Tables are alike if each entry of the one is alike to what the other has under its key. -/
theorem Alike.of_mem {entries entries' : Table}
    (hspan : ∀ s, SaysOptional entries "span" SaysSpan s ↔ SaysOptional entries' "span" SaysSpan s)
    (hnone : ∀ key ∈ namedKeys, entries.lookup key = none ↔ entries'.lookup key = none)
    (h : ∀ entry ∈ entries, ∀ v', entries'.lookup entry.1 = some v' → Alike entry.2 v') :
    Alike (.table entries) (.table entries') :=
  .table hspan hnone fun key _ v v' hv hv' => h (key, v) (mem_of_lookup_eq_some hv) v' hv'

theorem Alike.eq_string {v : Value} {text : String} (h : Alike (.string text) v) :
    v = .string text := by
  cases h with
  | same => rfl

theorem Alike.exists_table {entries : Table} {v : Value} (h : Alike (.table entries) v) :
    ∃ entries', v = .table entries' := by
  cases h with
  | same => exact ⟨entries, rfl⟩
  | table => exact ⟨_, rfl⟩

section Alike

variable {entries entries' : Table} {key : String}

theorem Alike.lookup_eq_none (h : Alike (.table entries) (.table entries'))
    (hkey : key ∈ namedKeys) (hnone : entries.lookup key = none) : entries'.lookup key = none := by
  cases h with
  | same => exact hnone
  | table _ hiff => exact (hiff key hkey).mp hnone

theorem Alike.exists_lookup {v : Value} (h : Alike (.table entries) (.table entries'))
    (hkey : key ∈ namedKeys) (hv : entries.lookup key = some v) :
    ∃ v', entries'.lookup key = some v' ∧ Alike v v' := by
  cases h with
  | same => exact ⟨v, hv, .same v⟩
  | table _ hnone hsome =>
    cases hv' : entries'.lookup key with
    | none =>
      rw [(hnone key hkey).mpr hv'] at hv
      cases hv
    | some v' => exact ⟨v', rfl, hsome key hkey v v' hv hv'⟩

/-- Of parts that are texts, alike tables say the same. -/
theorem SaysOptional.alike {α : Type} {means : Value → α → Prop} {o : Option α}
    (h : SaysOptional entries key means o) (halike : Alike (.table entries) (.table entries'))
    (hkey : key ∈ namedKeys) (htext : ∀ v a, means v a → ∃ text, v = .string text) :
    SaysOptional entries' key means o := by
  cases o with
  | none => exact halike.lookup_eq_none hkey h
  | some a =>
    obtain ⟨v, hv, ha⟩ := h
    obtain ⟨text, rfl⟩ := htext v a ha
    obtain ⟨v', hv', h⟩ := halike.exists_lookup hkey hv
    rw [h.eq_string] at hv'
    exact ⟨_, hv', ha⟩

theorem SaysOptional.alike_text {o : Option String} (h : SaysOptional entries key SaysText o)
    (halike : Alike (.table entries) (.table entries')) (hkey : key ∈ namedKeys) :
    SaysOptional entries' key SaysText o :=
  h.alike halike hkey fun _ text hv => ⟨text, hv⟩

theorem SaysOptional.alike_identifier {o : Option Identifier}
    (h : SaysOptional entries key SaysIdentifier o)
    (halike : Alike (.table entries) (.table entries')) (hkey : key ∈ namedKeys) :
    SaysOptional entries' key SaysIdentifier o :=
  h.alike halike hkey fun _ _ ⟨text, hv, _⟩ => ⟨text, hv⟩

theorem SaysOptional.alike_span {o : Option Span} (h : SaysOptional entries "span" SaysSpan o)
    (halike : Alike (.table entries) (.table entries')) :
    SaysOptional entries' "span" SaysSpan o := by
  cases halike with
  | same => exact h
  | table hspan => exact (hspan o).mp h

theorem SaysKind.alike {kind : BlockKind} (h : SaysKind entries kind)
    (halike : Alike (.table entries) (.table entries')) : SaysKind entries' kind := by
  cases kind with
  | beginEnd | loop | ifThen =>
    have hkind : SaysOptional entries "kind" SaysText (some _) := h
    exact hkind.alike_text halike (by decide)
  | whileDo | repeatUntil | caseOf | branch =>
    exact ⟨h.1.alike_text halike (by decide), h.2.alike_text halike (by decide)⟩

theorem SaysHeader.alike {header : Header} (h : SaysHeader entries header)
    (halike : Alike (.table entries) (.table entries')) : SaysHeader entries' header where
  kind := h.kind.alike halike
  label := h.label.alike_identifier halike (by decide)
  endLabel := h.endLabel.alike_identifier halike (by decide)
  span := h.span.alike_span halike

/-- Alike tables have alike statements, one for one. -/
theorem StatementItems.alike {items : List Value} (h : StatementItems entries items)
    (halike : Alike (.table entries) (.table entries')) :
    ∃ items', StatementItems entries' items' ∧
      Alike (.array .bracketed items) (.array .bracketed items') := by
  rcases h with ⟨hnone, rfl⟩ | ⟨form, hform⟩
  · exact ⟨[], .inl ⟨halike.lookup_eq_none (by decide) hnone, rfl⟩, .same _⟩
  · obtain ⟨v, hv, h⟩ := halike.exists_lookup (by decide) hform
    cases h with
    | same => exact ⟨items, .inr ⟨form, hv⟩, .same _⟩
    | @array _ form' _ items' hlength hitems =>
      exact ⟨items', .inr ⟨form', hv⟩, .array hlength hitems⟩

end Alike

/-- What is alike to a list with a first value has a first value alike to it. -/
theorem Alike.exists_cons {v : Value} {later items' : List Value}
    (h : Alike (.array .bracketed (v :: later)) (.array .bracketed items')) :
    ∃ v' later', items' = v' :: later' ∧ Alike v v' ∧
      Alike (.array .bracketed later) (.array .bracketed later') := by
  cases h with
  | same => exact ⟨v, later, rfl, .same v, .same _⟩
  | array hlength hitems =>
    cases items' with
    | nil => cases hlength
    | cons v' later' =>
      refine ⟨v', later', rfl, hitems 0 v v' rfl rfl, .array (Nat.succ.inj hlength) ?_⟩
      intro i w w' hw hw'
      exact hitems (i + 1) w w' hw hw'

/-- Alike values say the same statements. -/
theorem SaysStatements.alike {items items' : List Value} {s : Statements}
    (h : SaysStatements items s)
    (halike : Alike (.array .bracketed items) (.array .bracketed items')) :
    SaysStatements items' s := by
  induction h generalizing items' with
  | nil =>
    cases halike with
    | same => exact .nil
    | array hlength =>
      rw [List.length_eq_zero_iff.mp hlength.symm]
      exact .nil
  | sql htype htext hspan _ ih =>
    obtain ⟨v', later', rfl, hv', hlater⟩ := halike.exists_cons
    obtain ⟨entries', rfl⟩ := hv'.exists_table
    exact .sql (htype.alike_text hv' (by decide)) (htext.alike_text hv' (by decide))
      (hspan.alike_span hv') (ih hlater)
  | transfer htype htarget hspan _ ih =>
    obtain ⟨v', later', rfl, hv', hlater⟩ := halike.exists_cons
    obtain ⟨entries', rfl⟩ := hv'.exists_table
    exact .transfer (htype.alike_text hv' (by decide)) (htarget.alike_identifier hv' (by decide))
      (hspan.alike_span hv') (ih hlater)
  | block htype hheader hinside _ _ ihInner ihRest =>
    obtain ⟨v', later', rfl, hv', hlater⟩ := halike.exists_cons
    obtain ⟨entries', rfl⟩ := hv'.exists_table
    obtain ⟨inside', hinside', hinner⟩ := hinside.alike hv'
    exact .block (htype.alike_text hv' (by decide)) (hheader.alike hv') hinside' (ihInner hinner)
      (ihRest hlater)

/-- **Alike documents say the same procedure.** -/
theorem SaysProcedure.alike {entries entries' : Table} {p : Procedure}
    (h : SaysProcedure entries p) (halike : Alike (.table entries) (.table entries')) :
    SaysProcedure entries' p := by
  obtain ⟨inner, hbody, hheader, items, hitems, hs⟩ := h.body
  obtain ⟨v', hbody', hinner⟩ := halike.exists_lookup (by decide) hbody
  obtain ⟨inner', rfl⟩ := hinner.exists_table
  obtain ⟨items', hitems', hs'⟩ := hitems.alike hinner
  exact
    { name := h.name.alike_text halike (by decide)
      source := h.source.alike_text halike (by decide)
      body := ⟨inner', hbody', hheader.alike hinner, items', hitems', hs.alike hs'⟩
      sourceId := h.sourceId }

/-! ### Acceptance -/

/-- Of a document with a plain body what it says is read and nothing else. -/
theorem readProcedure_eq_ok_iff_of_plain {entries : Table} (hkeyed : (Value.table entries).Keyed)
    (hplain : ∀ inner, entries.lookup "body" = some (.table inner) → Plain (.table inner))
    (p : Procedure) : readProcedure entries = .ok p ↔ SaysProcedure entries p :=
  ⟨saysProcedure_of_readProcedure hkeyed hplain, fun h => h.readProcedure hkeyed⟩

/-- **Acceptance.** A document with a plain body is read if and only if it is of the grammar. The
procedure that is read is the one that the entries named by the grammar say, so that entries under
other keys and the order of the entries have no part in it. -/
theorem readProcedure_accepts {entries : Table} (hkeyed : (Value.table entries).Keyed)
    (hplain : ∀ inner, entries.lookup "body" = some (.table inner) → Plain (.table inner)) :
    ((∃ p, readProcedure entries = .ok p) ↔ ProcedureForm entries) ∧
      (∀ p, readProcedure entries = .ok p ↔ SaysProcedure entries p) ∧
      ∀ entries', (Value.table entries').Keyed →
        (∀ inner, entries'.lookup "body" = some (.table inner) → Plain (.table inner)) →
        Alike (.table entries) (.table entries') →
        ∀ p, readProcedure entries = .ok p ↔ readProcedure entries' = .ok p := by
  have hread := readProcedure_eq_ok_iff_of_plain hkeyed hplain
  refine ⟨?_, hread, ?_⟩
  · calc (∃ p, readProcedure entries = .ok p)
        ↔ ∃ p, SaysProcedure entries p := exists_congr hread
      _ ↔ ProcedureForm entries := procedureForm_iff.symm
  · intro entries' hkeyed' hplain' halike p
    have hread' := readProcedure_eq_ok_iff_of_plain hkeyed' hplain' p
    rw [hread p, hread']
    exact ⟨fun h => h.alike halike, fun h => h.alike halike.symm⟩

/-- The statements of a loop that is left at once. -/
def leaveItems : List Value := [.table [("type", .string "leave"), ("target", .string "a")]]

/-- A procedure of such a loop, with entries of no account. -/
def annotatedLoop : Table :=
  [("name", .string "p"), ("owner", .boolean true),
    ("body", .table [("kind", .string "loop"), ("label", .string "a"), ("note", .string "b"),
      ("statements", .array .headed leaveItems)])]

/-- The same without them and in another order. -/
def bareLoop : Table :=
  [("body", .table [("label", .string "a"), ("statements", .array .bracketed leaveItems),
    ("kind", .string "loop")]), ("name", .string "p")]

theorem readProcedure_accepts_reordered :
    ProcedureForm annotatedLoop ∧
      ∃ p, readProcedure annotatedLoop = .ok p ∧ readProcedure bareLoop = .ok p := by
  have hitems : ∀ v ∈ leaveItems, v.Keyed ∧ Plain v := by
    intro v hv
    rw [List.mem_singleton.mp hv]
    refine ⟨.table (by decide) (by simp [Value.Keyed.string]), ?_⟩
    exact .table (by simp [List.lookup_cons, List.lookup_nil]) (by simp [List.lookup_cons])
  have hstatements (form : ArrayForm) : (Value.array form leaveItems).Keyed :=
    .array fun v hv => (hitems v hv).1
  have hkeyed : (Value.table annotatedLoop).Keyed := by
    refine .table (by decide) ?_
    simp only [annotatedLoop, List.forall_mem_cons, List.not_mem_nil, false_imp_iff, implies_true,
      and_true]
    exact ⟨.string _, .boolean _, .table (by decide) (by simp [Value.Keyed.string, hstatements])⟩
  have hkeyed' : (Value.table bareLoop).Keyed := by
    refine .table (by decide) ?_
    simp only [bareLoop, List.forall_mem_cons, List.not_mem_nil, false_imp_iff, implies_true,
      and_true]
    exact ⟨.table (by decide) (by simp [Value.Keyed.string, hstatements]), .string _⟩
  have hbody {entries : Table} (hspan : entries.lookup "span" = none) {form : ArrayForm}
      (hform : entries.lookup "statements" = some (.array form leaveItems)) :
      Plain (.table entries) := by
    refine .table (by simp [hspan]) ?_
    intro form' items h
    cases hform.symm.trans h
    exact fun v hv => (hitems v hv).2
  have hplain : ∀ inner, annotatedLoop.lookup "body" = some (.table inner) →
      Plain (.table inner) := by
    intro inner hinner
    cases hinner
    exact hbody rfl rfl
  have hplain' : ∀ inner, bareLoop.lookup "body" = some (.table inner) →
      Plain (.table inner) := by
    intro inner hinner
    cases hinner
    exact hbody rfl rfl
  have hforms : Alike (.array .headed leaveItems) (.array .bracketed leaveItems) := by
    refine .array rfl ?_
    intro i v v' hv hv'
    cases hv.symm.trans hv'
    exact .same v
  have halike : Alike (.table annotatedLoop) (.table bareLoop) := by
    refine .of_mem (fun s => ?_) (by decide) ?_
    · cases s <;> simp [SaysOptional, annotatedLoop, bareLoop, List.lookup_cons, List.lookup_nil]
    · simp only [annotatedLoop, List.forall_mem_cons, List.not_mem_nil, false_imp_iff,
        implies_true, and_true]
      refine ⟨?_, ?_, ?_⟩ <;> intro v' hv' <;> cases hv'
      · exact .same _
      · refine .of_mem (fun s => ?_) (by decide) ?_
        · cases s <;> simp [SaysOptional, List.lookup_cons, List.lookup_nil]
        · simp only [List.forall_mem_cons, List.not_mem_nil, false_imp_iff, implies_true, and_true]
          refine ⟨?_, ?_, ?_, ?_⟩ <;> intro v' hv' <;> cases hv'
          · exact .same _
          · exact .same _
          · exact hforms
  obtain ⟨hform, _, horder⟩ := readProcedure_accepts hkeyed hplain
  refine ⟨hform.mp ⟨_, rfl⟩, _, rfl, ?_⟩
  exact (horder bareLoop hkeyed' hplain' halike _).mp rfl

end LabelCheck.Document
