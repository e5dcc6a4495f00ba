import LabelCheck.Proofs.Fields

/-!
# What a document says

The tree of values that makes up a document says which procedure is meant, entry by entry under
its keys. The relations of this module have one rule for every construct and look at nothing but
the entries they name: not at their order, and not at entries under other keys. Reading a document
is shown to find just what the document says.

* `SaysSpan`, `SaysKind`, `SaysHeader`: the parts of a block;
* `SaysStatements`, `SaysBlock`, `SaysProcedure`: statements, bodies and whole documents;
* `SaysProcedure.readProcedure`: what a document says is read;
* `saysProcedure_of_readProcedure`: what is read of a plain document is what it says.

Plain documents (`Plain`) hold no statement that is written as an array, and their spans, where
they are arrays, have two items. Outside of them there are shorthands, which `readProcedure` takes
as well.
-/

namespace LabelCheck.Document

open Toml

/-! ### Fields -/

/-- What a table says of a part that may be absent: what stands under its key, if anything. -/
def SaysOptional {α : Type} (entries : Table) (key : String) (means : Value → α → Prop) :
    Option α → Prop
  | some a => ∃ v, entries.lookup key = some v ∧ means v a
  | none => entries.lookup key = none

/-- What a table says of a part that has to be there. -/
def SaysRequired {α : Type} (entries : Table) (key : String) (means : Value → α → Prop) (a : α) :
    Prop :=
  SaysOptional entries key means (some a)

section Says

variable {α : Type} {entries : Table} {key : String} {means means' : Value → α → Prop}

theorem SaysOptional.imp {o : Option α}
    (himp : ∀ {v a}, entries.lookup key = some v → means v a → means' v a)
    (h : SaysOptional entries key means o) : SaysOptional entries key means' o := by
  cases o with
  | none => exact h
  | some a =>
    obtain ⟨v, hv, hmean⟩ := h
    exact ⟨v, hv, himp hv hmean⟩

/-- A field that has been read is a part of which the table says what has been read. -/
theorem field_reads_iff {reader : Value → Read α} {o : Option α} :
    Field entries key (Reads reader) none o ↔
      SaysOptional entries key (fun v a => reader v = .ok a) o := by
  cases o with
  | some a => exact field_some_iff
  | none =>
    constructor
    · rintro (⟨hnone, _⟩ | ⟨_, _, _, _, h⟩)
      · exact hnone
      · cases h
    · intro h
      exact .inl ⟨h, rfl⟩

end Says

/-- The value is a text. -/
def SaysText (v : Value) (text : String) : Prop := v = .string text

/-- The value is the written form of an identifier, or another text that denotes it. -/
def SaysIdentifier (v : Value) (i : Identifier) : Prop := ∃ text, v = .string text ∧ i = .parse text

/-- The value is a span: a table with its two ends and nothing else, or an array of the two. -/
def SaysSpan : Value → Span → Prop
  | .table entries, s =>
    (∀ entry ∈ entries, entry.1 = "start" ∨ entry.1 = "end") ∧
      entries.lookup "start" = some (.integer s.start) ∧
      entries.lookup "end" = some (.integer s.stop)
  | .array _ items, s => items = [.integer s.start, .integer s.stop]
  | _, _ => False

/-! ### Blocks and statements -/

/-- The kind of a block by its name, with what blocks of that kind carry. -/
def SaysKind (entries : Table) : BlockKind → Prop
  | .beginEnd => SaysRequired entries "kind" SaysText "begin-end"
  | .whileDo condition =>
    SaysRequired entries "kind" SaysText "while" ∧
      SaysRequired entries "condition" SaysText condition
  | .loop => SaysRequired entries "kind" SaysText "loop"
  | .repeatUntil condition =>
    SaysRequired entries "kind" SaysText "repeat" ∧
      SaysRequired entries "until" SaysText condition
  | .ifThen => SaysRequired entries "kind" SaysText "if"
  | .caseOf operand =>
    SaysRequired entries "kind" SaysText "case" ∧ SaysOptional entries "operand" SaysText operand
  | .branch condition =>
    SaysRequired entries "kind" SaysText "branch" ∧
      SaysOptional entries "condition" SaysText condition

/-- What the table of a block says of the block itself. -/
structure SaysHeader (entries : Table) (h : Header) : Prop where
  kind : SaysKind entries h.kind
  label : SaysOptional entries "label" SaysIdentifier h.label
  endLabel : SaysOptional entries "end-label" SaysIdentifier h.endLabel
  span : SaysOptional entries "span" SaysSpan h.span

/-- The values that stand for the statements of a block; a block without the entry has none. -/
def StatementItems (entries : Table) (items : List Value) : Prop :=
  (entries.lookup "statements" = none ∧ items = []) ∨
    ∃ form, entries.lookup "statements" = some (.array form items)

/-- **What values say as statements**, one by one and at all depths. -/
inductive SaysStatements : List Value → Statements → Prop where
  | nil : SaysStatements [] .nil
  | sql {entries : Table} {items : List Value} {text : String} {span : Option Span}
    {rest : Statements} (htype : SaysRequired entries "type" SaysText "sql")
    (htext : SaysRequired entries "text" SaysText text)
    (hspan : SaysOptional entries "span" SaysSpan span) (hrest : SaysStatements items rest) :
    SaysStatements (.table entries :: items) (.sql text span rest)
  | transfer {entries : Table} {items : List Value} {kind : TransferKind} {target : Identifier}
    {span : Option Span} {rest : Statements}
    (htype : SaysRequired entries "type" SaysText (transferTag kind))
    (htarget : SaysRequired entries "target" SaysIdentifier target)
    (hspan : SaysOptional entries "span" SaysSpan span) (hrest : SaysStatements items rest) :
    SaysStatements (.table entries :: items) (.transfer kind { target, span } rest)
  | block {entries : Table} {inside items : List Value} {header : Header} {inner rest : Statements}
    (htype : SaysRequired entries "type" SaysText "block") (hheader : SaysHeader entries header)
    (hinside : StatementItems entries inside) (hinner : SaysStatements inside inner)
    (hrest : SaysStatements items rest) :
    SaysStatements (.table entries :: items) (.block header inner rest)

/-- What a table says as a block. -/
def SaysBlock (entries : Table) (b : Block) : Prop :=
  SaysHeader entries b.header ∧
    ∃ items, StatementItems entries items ∧ SaysStatements items b.statements

/-- **What a document says as a procedure.** The number of its text is no part of it. -/
structure SaysProcedure (entries : Table) (p : Procedure) : Prop where
  name : SaysRequired entries "name" SaysText p.name
  source : SaysOptional entries "source" SaysText p.source
  body : ∃ inner, entries.lookup "body" = some (.table inner) ∧ SaysBlock inner p.body
  sourceId : p.sourceId = 0

/-! ### Reading single parts -/

theorem required_text_iff {entries : Table} {key text : String} :
    SaysRequired entries key SaysText text ↔ entries.lookup key = some (.string text) := by
  constructor
  · rintro ⟨_, hv, rfl⟩
    exact hv
  · intro h
    exact ⟨_, h, rfl⟩

theorem optionalText_eq_ok_iff {entries : Table} {key : String} {o : Option String} :
    optionalText key entries = .ok o ↔ SaysOptional entries key SaysText o := by
  unfold optionalText
  cases hv : entries.lookup key with
  | none =>
    cases o <;> simp [SaysOptional, hv]
  | some v =>
    dsimp only
    rw [bind_eq_ok_iff]
    constructor
    · rintro ⟨text, htext, ho⟩
      cases ho
      exact ⟨v, hv, readText_eq_ok_iff.mp htext⟩
    · intro h
      cases o with
      | none =>
        rw [SaysOptional, hv] at h
        cases h
      | some text =>
        obtain ⟨v', hv', htext⟩ := h
        rw [hv] at hv'
        cases hv'
        exact ⟨text, readText_eq_ok_iff.mpr htext, rfl⟩

theorem requiredText_eq_ok_iff {entries : Table} {key text : String} :
    requiredText key entries = .ok text ↔ SaysRequired entries key SaysText text := by
  unfold requiredText
  rw [bind_eq_ok_iff]
  constructor
  · rintro ⟨o, ho, htext⟩
    rw [required_eq_ok_iff.mp htext] at ho
    exact optionalText_eq_ok_iff.mp ho
  · intro h
    exact ⟨some text, optionalText_eq_ok_iff.mpr h, rfl⟩

/-- A tag is read if it is one of the names of a choice. -/
theorem readTag_eq_ok_iff {α : Type} {tag : String} {choices : List (String × α)}
    (hnodup : (choices.map Prod.fst).Nodup) {entries : Table} {c : α} :
    readTag tag choices (entries.lookup tag) = .ok c ↔
      ∃ name, SaysRequired entries tag SaysText name ∧ (name, c) ∈ choices := by
  simp only [required_text_iff, ← lookup_eq_some_iff hnodup]
  constructor
  · intro h
    unfold readTag at h
    split at h
    · cases h
    · next name hname =>
      refine ⟨name, hname, ?_⟩
      unfold readName at h
      split at h
      · next hc =>
        cases h
        exact hc
      · cases h
    · cases h
  · rintro ⟨name, hname, hc⟩
    rw [hname, readTag, readName, hc]

theorem readKind_eq_ok_iff {entries : Table} {kind : BlockKind} :
    readKind entries = .ok kind ↔ SaysKind entries kind := by
  unfold readKind
  rw [bind_eq_ok_iff]
  simp only [readTag_eq_ok_iff (show (kindTags.map Prod.fst).Nodup by decide)]
  constructor
  · rintro ⟨tag, ⟨name, hname, hmem⟩, h⟩
    cases tag <;> simp [kindTags] at hmem <;> subst hmem
    case beginEnd | loop | ifThen =>
      cases h
      exact hname
    case whileDo | repeatUntil =>
      obtain ⟨condition, hcondition, h⟩ := bind_eq_ok_iff.mp h
      cases h
      exact ⟨hname, requiredText_eq_ok_iff.mp hcondition⟩
    case caseOf | branch =>
      obtain ⟨operand, hoperand, h⟩ := bind_eq_ok_iff.mp h
      cases h
      exact ⟨hname, optionalText_eq_ok_iff.mp hoperand⟩
  · intro h
    cases kind with
    | beginEnd => exact ⟨.beginEnd, ⟨_, h, by simp [kindTags]⟩, rfl⟩
    | whileDo condition =>
      exact ⟨.whileDo, ⟨_, h.1, by simp [kindTags]⟩,
        bind_eq_ok_iff.mpr ⟨condition, requiredText_eq_ok_iff.mpr h.2, rfl⟩⟩
    | loop => exact ⟨.loop, ⟨_, h, by simp [kindTags]⟩, rfl⟩
    | repeatUntil condition =>
      exact ⟨.repeatUntil, ⟨_, h.1, by simp [kindTags]⟩,
        bind_eq_ok_iff.mpr ⟨condition, requiredText_eq_ok_iff.mpr h.2, rfl⟩⟩
    | ifThen => exact ⟨.ifThen, ⟨_, h, by simp [kindTags]⟩, rfl⟩
    | caseOf operand =>
      exact ⟨.caseOf, ⟨_, h.1, by simp [kindTags]⟩,
        bind_eq_ok_iff.mpr ⟨operand, optionalText_eq_ok_iff.mpr h.2, rfl⟩⟩
    | branch condition =>
      exact ⟨.branch, ⟨_, h.1, by simp [kindTags]⟩,
        bind_eq_ok_iff.mpr ⟨condition, optionalText_eq_ok_iff.mpr h.2, rfl⟩⟩

/-! ### Spans -/

/-- A span that a value says is read, and nothing is left over. -/
theorem SaysSpan.readSpan {v : Value} {s : Span} (surplus : Surplus) (hkeyed : v.Keyed)
    (h : SaysSpan v s) : readSpan surplus v = .ok s := by
  cases v with
  | table entries => exact (readSpan_table_eq_ok_iff hkeyed.nodup).mpr h
  | array form items =>
    rw [show items = _ from h]
    cases surplus <;> rfl
  | string | integer | float | boolean | moment => exact h.elim

/-- A span that is read from a table or from two items is what the value says. -/
theorem saysSpan_of_readSpan {v : Value} {s : Span} {surplus : Surplus} (hkeyed : v.Keyed)
    (hpair : ∀ form items, v = .array form items → ∃ start stop, items = [start, stop])
    (h : Document.readSpan surplus v = .ok s) : SaysSpan v s := by
  cases v with
  | table entries => exact (readSpan_table_eq_ok_iff hkeyed.nodup).mp h
  | array form items =>
    obtain ⟨start, stop, rfl⟩ := hpair form items rfl
    obtain ⟨m, hm, h⟩ := bind_eq_ok_iff.mp h
    obtain ⟨n, hn, h⟩ := bind_eq_ok_iff.mp h
    obtain ⟨_, _, h⟩ := bind_eq_ok_iff.mp h
    cases h
    rw [readSize_eq_ok_iff.mp hm, readSize_eq_ok_iff.mp hn]
    rfl
  | moment text =>
    obtain ⟨d, hd, _⟩ := bind_eq_ok_iff.mp h
    cases hd
  | string | integer | float | boolean => cases h

/-! ### Statements -/

/-- A statement in a table is read by its type. -/
theorem readStatement_table_eq_ok_iff {entries : Table} {statement : Statement} :
    readStatement (.table entries) = .ok statement ↔
      (SaysRequired entries "type" SaysText "sql" ∧
        ∃ text span, readSimple "text" readText entries = .ok (text, span) ∧
          statement = .sql text span) ∨
      (∃ kind, SaysRequired entries "type" SaysText (transferTag kind) ∧
        ∃ target span, readSimple "target" readIdentifier entries = .ok (target, span) ∧
          statement = .transfer kind { target, span }) ∨
      (SaysRequired entries "type" SaysText "block" ∧
        ∃ b, readBlockTable .refused entries = .ok b ∧ statement = .block b) := by
  unfold readStatement
  rw [bind_eq_ok_iff]
  simp only [readTag_eq_ok_iff (show (statementTags.map Prod.fst).Nodup by decide)]
  constructor
  · rintro ⟨tag, ⟨name, hname, hmem⟩, h⟩
    cases tag <;> simp [statementTags] at hmem <;> subst hmem
    case sql =>
      obtain ⟨⟨text, span⟩, hread, h⟩ := bind_eq_ok_iff.mp h
      cases h
      exact .inl ⟨hname, text, span, hread, rfl⟩
    case block =>
      obtain ⟨d, hd, h⟩ := bind_eq_ok_iff.mp h
      obtain ⟨kind, hkind, h⟩ := bind_eq_ok_iff.mp h
      cases h
      exact .inr (.inr ⟨hname, d.block kind,
        bind_eq_ok_iff.mpr ⟨d, hd, bind_eq_ok_iff.mpr ⟨kind, hkind, rfl⟩⟩, rfl⟩)
    case leave =>
      obtain ⟨⟨target, span⟩, hread, h⟩ := bind_eq_ok_iff.mp h
      cases h
      exact .inr (.inl ⟨.leave, hname, target, span, hread, rfl⟩)
    case iterate =>
      obtain ⟨⟨target, span⟩, hread, h⟩ := bind_eq_ok_iff.mp h
      cases h
      exact .inr (.inl ⟨.iterate, hname, target, span, hread, rfl⟩)
  · rintro (⟨hname, text, span, hread, rfl⟩ | ⟨kind, hname, target, span, hread, rfl⟩ |
      ⟨hname, b, hread, rfl⟩)
    · exact ⟨.sql, ⟨_, hname, by simp [statementTags]⟩, bind_eq_ok_iff.mpr ⟨_, hread, rfl⟩⟩
    · cases kind with
      | leave =>
        exact ⟨.leave, ⟨_, hname, by simp [statementTags, transferTag]⟩,
          bind_eq_ok_iff.mpr ⟨_, hread, rfl⟩⟩
      | iterate =>
        exact ⟨.iterate, ⟨_, hname, by simp [statementTags, transferTag]⟩,
          bind_eq_ok_iff.mpr ⟨_, hread, rfl⟩⟩
    · obtain ⟨d, hd, h⟩ := bind_eq_ok_iff.mp hread
      obtain ⟨kind, hkind, h⟩ := bind_eq_ok_iff.mp h
      cases h
      exact ⟨.block, ⟨_, hname, by simp [statementTags]⟩,
        bind_eq_ok_iff.mpr ⟨d, hd, bind_eq_ok_iff.mpr ⟨kind, hkind, rfl⟩⟩⟩

/-- Only tables and arrays are read as statements. -/
theorem exists_of_readStatement {v : Value} {statement : Statement}
    (h : readStatement v = .ok statement) :
    (∃ entries, v = .table entries) ∨ ∃ form items, v = .array form items := by
  cases v with
  | table entries => exact .inl ⟨entries, rfl⟩
  | array form items => exact .inr ⟨form, items, rfl⟩
  | string | integer | float | boolean | moment => simp [readStatement, mismatch] at h

/-- The items of a list that is read as statements are read one by one. -/
theorem readStatementList_cons {v : Value} {items : List Value} (statement : Statement)
    {rest : Statements} (hv : readStatement v = .ok statement)
    (hitems : readStatementList items = .ok rest) :
    readStatementList (v :: items) = .ok (.cons statement rest) := by
  rw [readStatementList]
  exact bind_eq_ok_iff.mpr ⟨statement, hv, bind_eq_ok_iff.mpr ⟨rest, hitems, rfl⟩⟩

/-- What is read as a sequence with a first statement is a list with a first value. -/
theorem exists_of_readStatementList {items : List Value} (statement : Statement)
    {rest : Statements} (h : readStatementList items = .ok (.cons statement rest)) :
    ∃ v later, items = v :: later ∧ readStatement v = .ok statement ∧
      readStatementList later = .ok rest := by
  cases items with
  | nil =>
    rw [readStatementList] at h
    have hnil := congrArg Statements.toList (Except.ok.inj h)
    rw [Statements.toList_cons] at hnil
    cases hnil
  | cons v later =>
    rw [readStatementList] at h
    obtain ⟨statement', hv, h⟩ := bind_eq_ok_iff.mp h
    obtain ⟨rest', hlater, h⟩ := bind_eq_ok_iff.mp h
    have hcons := congrArg Statements.toList (Except.ok.inj h)
    rw [Statements.toList_cons, Statements.toList_cons] at hcons
    obtain ⟨rfl, htail⟩ := List.cons.inj hcons
    have hrest := congrArg Statements.ofList htail
    rw [Statements.ofList_toList, Statements.ofList_toList] at hrest
    exact ⟨v, later, rfl, hv, hrest ▸ hlater⟩

theorem eq_nil_of_readStatementList {items : List Value} (h : readStatementList items = .ok .nil) :
    items = [] := by
  cases items with
  | nil => rfl
  | cons v later =>
    rw [readStatementList] at h
    obtain ⟨statement, _, h⟩ := bind_eq_ok_iff.mp h
    obtain ⟨rest, _, h⟩ := bind_eq_ok_iff.mp h
    have hcons := congrArg Statements.toList (Except.ok.inj h)
    rw [Statements.toList_cons] at hcons
    cases hcons

/-- The value and the place of an SQL statement or a transfer are what its table says. -/
theorem readSimple_eq_ok_iff_parts {α : Type} {entries : Table} {field : String}
    {reader : Value → Read α} (hnodup : (entries.map Prod.fst).Nodup) (hfield : field ≠ "span")
    {a : α} {span : Option Span} :
    readSimple field reader entries = .ok (a, span) ↔
      SaysRequired entries field (fun v a => reader v = .ok a) a ∧
        SaysOptional entries "span" (fun v s => readSpan .refused v = .ok s) span := by
  rw [readSimple_eq_ok_iff hnodup hfield, field_reads_iff, field_reads_iff]
  rfl

/-- Statements stand in an array. -/
theorem readStatements_eq_ok_iff {v : Value} {s : Statements} :
    readStatements v = .ok s ↔
      ∃ form items, v = .array form items ∧ readStatementList items = .ok s := by
  constructor
  · intro h
    cases v with
    | array form items =>
      rw [readStatements] at h
      exact ⟨form, items, rfl, h⟩
    | string | integer | float | boolean | moment | table =>
      simp [readStatements, mismatch] at h
  · rintro ⟨form, items, rfl, h⟩
    rw [readStatements, h]

theorem field_statements_iff {entries : Table} {s : Statements} :
    Field entries "statements" ReadsStatements .nil s ↔
      ∃ items, StatementItems entries items ∧ readStatementList items = .ok s := by
  constructor
  · rintro (⟨hnone, rfl⟩ | ⟨v, hv, hread⟩)
    · exact ⟨[], .inl ⟨hnone, rfl⟩, by rw [readStatementList]⟩
    · obtain ⟨form, items, rfl, hitems⟩ := readStatements_eq_ok_iff.mp hread
      exact ⟨items, .inr ⟨form, hv⟩, hitems⟩
  · rintro ⟨items, ⟨hnone, rfl⟩ | ⟨form, hv⟩, hread⟩
    · rw [readStatementList] at hread
      cases hread
      exact .inl ⟨hnone, rfl⟩
    · exact .inr ⟨_, hv, readStatements_eq_ok_iff.mpr ⟨form, items, rfl, hread⟩⟩

/-- **A block by its entries.** -/
theorem readBlockTable_eq_ok_iff {surplus : Surplus} {entries : Table} {b : Block}
    (hnodup : (entries.map Prod.fst).Nodup) :
    readBlockTable surplus entries = .ok b ↔
      SaysKind entries b.header.kind ∧
      SaysOptional entries "label" SaysIdentifier b.header.label ∧
      SaysOptional entries "end-label" SaysIdentifier b.header.endLabel ∧
      SaysOptional entries "span" (fun v s => readSpan surplus v = .ok s) b.header.span ∧
      ∃ items, StatementItems entries items ∧ readStatementList items = .ok b.statements := by
  have hidentifier : (fun v i => readIdentifier v = .ok i) = SaysIdentifier := by
    funext v i
    exact propext readIdentifier_eq_ok_iff
  simp only [← readKind_eq_ok_iff, ← field_statements_iff, ← hidentifier, ← field_reads_iff]
  constructor
  · intro h
    obtain ⟨d, hd, h⟩ := bind_eq_ok_iff.mp h
    obtain ⟨kind, hkind, h⟩ := bind_eq_ok_iff.mp h
    cases h
    have hfields := (readBlockFields_eq_ok_iff hnodup).mp hd
    exact ⟨hkind, hfields.label, hfields.endLabel, hfields.span, hfields.statements⟩
  · rintro ⟨hkind, hlabel, hend, hspan, hstatements⟩
    let d : BlockDraft := ⟨b.header.label, b.header.endLabel, b.header.span, b.statements⟩
    have hd : readBlockFields surplus entries {} = .ok d :=
      (readBlockFields_eq_ok_iff hnodup).mpr ⟨hlabel, hend, hspan, hstatements⟩
    exact bind_eq_ok_iff.mpr ⟨d, hd, bind_eq_ok_iff.mpr ⟨_, hkind, rfl⟩⟩

/-! ### Everything that is said is read -/

theorem SaysOptional.reads_span {entries : Table} {span : Option Span} (surplus : Surplus)
    (hkeyed : (Value.table entries).Keyed) (h : SaysOptional entries "span" SaysSpan span) :
    SaysOptional entries "span" (fun v s => readSpan surplus v = .ok s) span :=
  h.imp fun hv hs => hs.readSpan surplus (hkeyed.lookup hv)

theorem StatementItems.keyed {entries : Table} {items : List Value}
    (h : StatementItems entries items) (hkeyed : (Value.table entries).Keyed) :
    ∀ v ∈ items, v.Keyed := by
  rcases h with ⟨_, rfl⟩ | ⟨form, hform⟩
  · intro v hv
    cases hv
  · intro v hv
    exact (hkeyed.lookup hform).item hv

/-- A block is read if its statements are. -/
theorem SaysHeader.readBlockTable {entries : Table} {b : Block} {items : List Value}
    (surplus : Surplus) (hkeyed : (Value.table entries).Keyed) (h : SaysHeader entries b.header)
    (hitems : StatementItems entries items)
    (hread : readStatementList items = .ok b.statements) :
    readBlockTable surplus entries = .ok b :=
  (readBlockTable_eq_ok_iff hkeyed.nodup).mpr
    ⟨h.kind, h.label, h.endLabel, h.span.reads_span surplus hkeyed, items, hitems, hread⟩

/-- Statements that a list of values says are read. -/
theorem SaysStatements.readStatementList {items : List Value} {s : Statements}
    (h : SaysStatements items s) (hkeyed : ∀ v ∈ items, v.Keyed) :
    readStatementList items = .ok s := by
  induction h with
  | nil => rw [Document.readStatementList]
  | sql htype htext hspan _ ih =>
    obtain ⟨hkeyed, hitems⟩ := List.forall_mem_cons.mp hkeyed
    refine readStatementList_cons (.sql _ _) (readStatement_table_eq_ok_iff.mpr ?_) (ih hitems)
    refine .inl ⟨htype, _, _, (readSimple_eq_ok_iff_parts hkeyed.nodup (by decide)).mpr ?_, rfl⟩
    exact ⟨htext.imp fun _ h => readText_eq_ok_iff.mpr h, hspan.reads_span _ hkeyed⟩
  | transfer htype htarget hspan _ ih =>
    obtain ⟨hkeyed, hitems⟩ := List.forall_mem_cons.mp hkeyed
    refine readStatementList_cons (.transfer _ _) (readStatement_table_eq_ok_iff.mpr ?_) (ih hitems)
    refine .inr (.inl ⟨_, htype, _, _,
      (readSimple_eq_ok_iff_parts hkeyed.nodup (by decide)).mpr ?_, rfl⟩)
    exact ⟨htarget.imp fun _ h => readIdentifier_eq_ok_iff.mpr h, hspan.reads_span _ hkeyed⟩
  | @block entries inside items header inner rest htype hheader hinside _ _ ihInner ihRest =>
    obtain ⟨hkeyed, hitems⟩ := List.forall_mem_cons.mp hkeyed
    have hinner := ihInner (hinside.keyed hkeyed)
    refine readStatementList_cons (.block ⟨header, inner⟩)
      (readStatement_table_eq_ok_iff.mpr ?_) (ihRest hitems)
    exact .inr (.inr ⟨htype, _, hheader.readBlockTable .refused hkeyed hinside hinner, rfl⟩)

/-- A body that a table says is read. -/
theorem SaysBlock.readBlock {entries : Table} {b : Block} (h : SaysBlock entries b)
    (hkeyed : (Value.table entries).Keyed) : readBlock (.table entries) = .ok b := by
  obtain ⟨hheader, items, hitems, hstatements⟩ := h
  exact hheader.readBlockTable .ignored hkeyed hitems
    (hstatements.readStatementList (hitems.keyed hkeyed))

/-- **Completeness.** A procedure that a document says is read. -/
theorem SaysProcedure.readProcedure {entries : Table} {p : Procedure}
    (h : SaysProcedure entries p) (hkeyed : (Value.table entries).Keyed) :
    readProcedure entries = .ok p := by
  obtain ⟨inner, hbody, hblock⟩ := h.body
  refine (readProcedure_eq_ok_iff hkeyed.nodup).mpr ⟨required_text_iff.mp h.name, ?_, ?_, ?_⟩
  · exact field_reads_iff.mpr (h.source.imp fun _ h => readText_eq_ok_iff.mpr h)
  · exact ⟨_, hbody, hblock.readBlock (hkeyed.lookup hbody)⟩
  · exact h.sourceId

/-! ### Of plain documents nothing else is read -/

/-- **Plain tables.** Where a table may stand for a block or a statement, a span that is an array
has two items, and no statement is an array; so at all depths. -/
inductive Plain : Value → Prop where
  | table {entries : Table}
    (hspan : ∀ form items, entries.lookup "span" = some (.array form items) →
      ∃ start stop, items = [start, stop])
    (hstatements : ∀ form items, entries.lookup "statements" = some (.array form items) →
      ∀ v ∈ items, Plain v) : Plain (.table entries)
  | other {v : Value} (htable : ∀ entries, v ≠ .table entries)
    (harray : ∀ form items, v ≠ .array form items) : Plain v

theorem Plain.span {entries : Table} {span : Option Span} {surplus : Surplus}
    (h : Plain (.table entries)) (hkeyed : (Value.table entries).Keyed)
    (hread : SaysOptional entries "span" (fun v s => readSpan surplus v = .ok s) span) :
    SaysOptional entries "span" SaysSpan span := by
  cases h with
  | table hspan _ =>
    refine hread.imp fun hv hs => saysSpan_of_readSpan (hkeyed.lookup hv) ?_ hs
    rintro form items rfl
    exact hspan form items hv
  | other htable _ => exact absurd rfl (htable _)

theorem Plain.statementItems {entries : Table} {items : List Value}
    (h : Plain (.table entries)) (hitems : StatementItems entries items) :
    ∀ v ∈ items, Plain v := by
  rcases hitems with ⟨_, rfl⟩ | ⟨form, hform⟩
  · intro v hv
    cases hv
  · cases h with
    | table _ hstatements => exact hstatements form items hform
    | other htable _ => exact absurd rfl (htable _)

/-- A plain value is read as a statement only if it is a table. -/
theorem Plain.exists_table {v : Value} {statement : Statement} (h : Plain v)
    (hread : readStatement v = .ok statement) : ∃ entries, v = .table entries := by
  rcases exists_of_readStatement hread with htable | ⟨form, items, rfl⟩
  · exact htable
  · cases h with
    | other _ harray => exact absurd rfl (harray form items)

/-- The first of a list of plain values that is read as statements is a table. -/
theorem Plain.exists_of_readStatementList {items : List Value} (statement : Statement)
    {rest : Statements} (hitems : ∀ v ∈ items, v.Keyed ∧ Plain v)
    (h : readStatementList items = .ok (.cons statement rest)) :
    ∃ entries later, items = .table entries :: later ∧ (Value.table entries).Keyed ∧
      Plain (.table entries) ∧ readStatement (.table entries) = .ok statement ∧
      (∀ v ∈ later, v.Keyed ∧ Plain v) ∧ readStatementList later = .ok rest := by
  obtain ⟨v, later, rfl, hv, hlater⟩ := Document.exists_of_readStatementList statement h
  obtain ⟨⟨hkeyed, hplain⟩, hrest⟩ := List.forall_mem_cons.mp hitems
  obtain ⟨entries, rfl⟩ := hplain.exists_table hv
  exact ⟨entries, later, rfl, hkeyed, hplain, hv, hrest, hlater⟩

/-- Of plain values nothing is read as statements but what they say. -/
theorem saysStatements_of_readStatementList {items : List Value} {s : Statements}
    (hitems : ∀ v ∈ items, v.Keyed ∧ Plain v) (h : readStatementList items = .ok s) :
    SaysStatements items s := by
  -- The induction is on what has been read: it tells of each value by which rule it can be said.
  induction s generalizing items with
  | nil =>
    rw [eq_nil_of_readStatementList h]
    exact .nil
  | sql text span rest ih =>
    obtain ⟨entries, later, rfl, hkeyed, hplain, hv, hlater, hrest⟩ :=
      Plain.exists_of_readStatementList (.sql text span) hitems h
    rcases readStatement_table_eq_ok_iff.mp hv with
      ⟨htype, _, _, hread, heq⟩ | ⟨_, _, _, _, _, heq⟩ | ⟨_, _, _, heq⟩ <;> cases heq
    obtain ⟨htext, hspan⟩ := (readSimple_eq_ok_iff_parts hkeyed.nodup (by decide)).mp hread
    exact .sql htype (htext.imp fun _ h => readText_eq_ok_iff.mp h) (hplain.span hkeyed hspan)
      (ih hlater hrest)
  | transfer kind reference rest ih =>
    obtain ⟨entries, later, rfl, hkeyed, hplain, hv, hlater, hrest⟩ :=
      Plain.exists_of_readStatementList (.transfer kind reference) hitems h
    rcases readStatement_table_eq_ok_iff.mp hv with
      ⟨_, _, _, _, heq⟩ | ⟨_, htype, _, _, hread, heq⟩ | ⟨_, _, _, heq⟩ <;> cases heq
    obtain ⟨htarget, hspan⟩ := (readSimple_eq_ok_iff_parts hkeyed.nodup (by decide)).mp hread
    exact .transfer htype (htarget.imp fun _ h => readIdentifier_eq_ok_iff.mp h)
      (hplain.span hkeyed hspan) (ih hlater hrest)
  | block header inner rest ihInner ihRest =>
    obtain ⟨entries, later, rfl, hkeyed, hplain, hv, hlater, hrest⟩ :=
      Plain.exists_of_readStatementList (.block ⟨header, inner⟩) hitems h
    rcases readStatement_table_eq_ok_iff.mp hv with
      ⟨_, _, _, _, heq⟩ | ⟨_, _, _, _, _, heq⟩ | ⟨htype, _, hread, heq⟩ <;> cases heq
    obtain ⟨hkind, hlabel, hend, hspan, inside, hinside, hinner⟩ :=
      (readBlockTable_eq_ok_iff hkeyed.nodup).mp hread
    have hinsideItems : ∀ v ∈ inside, v.Keyed ∧ Plain v := fun v hv =>
      ⟨hinside.keyed hkeyed v hv, hplain.statementItems hinside v hv⟩
    exact .block htype ⟨hkind, hlabel, hend, hplain.span hkeyed hspan⟩ hinside
      (ihInner hinsideItems hinner) (ihRest hlater hrest)

/-- Of a plain table nothing is read as a body but what it says. -/
theorem saysBlock_of_readBlock {entries : Table} {b : Block}
    (hkeyed : (Value.table entries).Keyed) (hplain : Plain (.table entries))
    (h : readBlock (.table entries) = .ok b) : SaysBlock entries b := by
  obtain ⟨hkind, hlabel, hend, hspan, items, hitems, hstatements⟩ :=
    (readBlockTable_eq_ok_iff hkeyed.nodup).mp h
  refine ⟨⟨hkind, hlabel, hend, hplain.span hkeyed hspan⟩, items, hitems, ?_⟩
  refine saysStatements_of_readStatementList (fun v hv => ?_) hstatements
  exact ⟨hitems.keyed hkeyed v hv, hplain.statementItems hitems v hv⟩

/-- A body that is read is a table. -/
theorem exists_table_of_readBlock {v : Value} {b : Block} (h : readBlock v = .ok b) :
    ∃ entries, v = .table entries := by
  cases v with
  | table entries => exact ⟨entries, rfl⟩
  | moment text =>
    -- A moment has one field, and that is not the kind.
    obtain ⟨d, _, h⟩ := bind_eq_ok_iff.mp h
    cases h
  | string | integer | float | boolean | array => cases h

/-- **Soundness.** Of a document with a plain body nothing is read but what it says. -/
theorem saysProcedure_of_readProcedure {entries : Table} {p : Procedure}
    (hkeyed : (Value.table entries).Keyed)
    (hplain : ∀ inner, entries.lookup "body" = some (.table inner) → Plain (.table inner))
    (h : readProcedure entries = .ok p) : SaysProcedure entries p := by
  obtain ⟨hname, hsource, ⟨v, hv, hbody⟩, hid⟩ := (readProcedure_eq_ok_iff hkeyed.nodup).mp h
  obtain ⟨inner, rfl⟩ := exists_table_of_readBlock hbody
  refine ⟨required_text_iff.mpr hname, ?_, ⟨inner, hv, ?_⟩, hid⟩
  · exact (field_reads_iff.mp hsource).imp fun _ h => readText_eq_ok_iff.mp h
  · exact saysBlock_of_readBlock (hkeyed.lookup hv) (hplain inner hv) hbody

end LabelCheck.Document
