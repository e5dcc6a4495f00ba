import LabelCheck.Proofs.FreshCopy
import LabelCheck.Proofs.Meaning
import LabelCheck.Proofs.Renaming
import LabelCheck.Proofs.Spelling

/-!
# Writing a procedure and reading it back

A procedure whose identifiers survive being written is given back when its document is read, apart
from what a document does not hold: what is known of its references, and the number of its text.
Procedures that have been read are of that kind and know nothing yet, so that they are given back
as they are.

* `keyed_writeProcedure`: written documents repeat no key;
* `saysProcedure_writeProcedure`: a written document says the procedure;
* `Decoded`: what reading leaves of a procedure, with `decoded_of_readProcedure`;
* `readProcedure_writeProcedure`: the two round trips.
-/

namespace LabelCheck.Document

open Toml

/-! ### Written tables -/

theorem lookup_optionalEntry {α : Type} {key key' : String} {write : α → Value} {o : Option α} :
    (optionalEntry key write o).lookup key' = if key' = key then o.map write else none := by
  cases o with
  | none => simp [optionalEntry]
  | some a =>
    by_cases h : key' = key
    · simp [optionalEntry, h]
    · rw [if_neg h, optionalEntry, List.lookup_cons, beq_eq_false_iff_ne.mpr h]
      rfl

theorem keys_optionalEntry {α : Type} (key : String) (write : α → Value) (o : Option α) :
    ((optionalEntry key write o).map Prod.fst).Sublist [key] := by
  cases o <;> simp [optionalEntry]

/-- An entry that is there only if its value is says the value. -/
theorem saysOptional_map {α : Type} {entries : Table} {key : String} {means : Value → α → Prop}
    (write : α → Value) {o : Option α} (hlookup : entries.lookup key = o.map write)
    (hmeans : ∀ a, o = some a → means (write a) a) : SaysOptional entries key means o := by
  cases o with
  | none => exact hlookup
  | some a => exact ⟨_, hlookup, hmeans a rfl⟩

theorem keyed_optionalEntry {α : Type} {key : String} {write : α → Value} {o : Option α}
    (hwrite : ∀ a, (write a).Keyed) : ∀ entry ∈ optionalEntry key write o, entry.2.Keyed := by
  cases o with
  | none =>
    intro entry hentry
    cases hentry
  | some a =>
    intro entry hentry
    rw [List.mem_singleton.mp hentry]
    exact hwrite a

/-! ### Parts of blocks -/

theorem saysIdentifier_writeIdentifier {i : Identifier} (h : i.Stable) :
    SaysIdentifier (writeIdentifier i) i :=
  ⟨i.text, rfl, ((Identifier.parse_text_iff i).mpr h).symm⟩

theorem saysSpan_writeSpan (s : Span) : SaysSpan (writeSpan s) s :=
  ⟨by simp, rfl, rfl⟩

theorem keyed_writeSpan (s : Span) : (writeSpan s).Keyed :=
  .table (show ["start", "end"].Nodup by decide) (by simp [Value.Keyed.integer])

theorem keyed_writeKind (kind : BlockKind) : ∀ entry ∈ writeKind kind, entry.2.Keyed := by
  cases kind with
  | beginEnd | whileDo | loop | repeatUntil | ifThen => simp [writeKind, Value.Keyed.string]
  | caseOf | branch =>
    exact List.forall_mem_cons.mpr ⟨.string _, keyed_optionalEntry fun _ => .string _⟩

theorem keys_writeKind (kind : BlockKind) :
    ((writeKind kind).map Prod.fst).Sublist ["kind", "condition", "until", "operand"] := by
  cases kind with
  | beginEnd | whileDo | loop | repeatUntil | ifThen => simp [writeKind]
  | caseOf operand | branch operand => cases operand <;> simp [writeKind, optionalEntry]

theorem lookup_writeKind {kind : BlockKind} {key : String}
    (h : key ∉ ["kind", "condition", "until", "operand"]) : (writeKind kind).lookup key = none :=
  lookup_eq_none_iff.mpr fun hmem => h ((keys_writeKind kind).subset hmem)

theorem saysKind_writeKind {entries : Table} (kind : BlockKind)
    (h : ∀ key ∈ ["kind", "condition", "until", "operand"],
      entries.lookup key = (writeKind kind).lookup key) : SaysKind entries kind := by
  have htext {key text : String} (hkey : key ∈ ["kind", "condition", "until", "operand"])
      (hlookup : (writeKind kind).lookup key = some (.string text)) :
      SaysRequired entries key SaysText text :=
    required_text_iff.mpr ((h key hkey).trans hlookup)
  cases kind with
  | beginEnd | loop | ifThen => exact htext (by simp) rfl
  | whileDo condition | repeatUntil condition => exact ⟨htext (by simp) rfl, htext (by simp) rfl⟩
  | caseOf operand | branch operand =>
    refine ⟨htext (by simp) rfl, saysOptional_map .string ?_ fun _ _ => rfl⟩
    rw [h _ (by simp), writeKind, List.lookup_cons]
    simp [lookup_optionalEntry]

/-! ### Blocks

The table of a block, with its type before it if it is a statement. -/

/-- The table of a block with the given statements. -/
def writeTagged (tag : Option String) (h : Header) (items : List Value) : Table :=
  optionalEntry "type" .string tag ++ writeHeader h (.array .bracketed items)

section Tagged

variable (tag : Option String) {h : Header} {items : List Value}

/-- What stands under a key of a written block, part by part. -/
theorem lookup_writeTagged (key : String) :
    (writeTagged tag h items).lookup key =
      (if key = "type" then tag.map .string else none).or
        (((((writeKind h.kind).lookup key).or
          (if key = "label" then h.label.map writeIdentifier else none)).or
          (if key = "end-label" then h.endLabel.map writeIdentifier else none)).or
          (if key = "statements" then some (.array .bracketed items) else none) |>.or
          (if key = "span" then h.span.map writeSpan else none)) := by
  have hstatements : [("statements", Value.array .bracketed items)] =
      optionalEntry "statements" id (some (.array .bracketed items)) := rfl
  rw [writeTagged, writeHeader, hstatements]
  simp only [List.lookup_append, lookup_optionalEntry, Option.map_some, id]

theorem saysHeader_writeTagged (hstable : ∀ i ∈ h.identifiers, i.Stable) :
    SaysHeader (writeTagged tag h items) h where
  kind := by
    refine saysKind_writeKind h.kind fun key hkey => ?_
    have hne : ∀ other ∈ ["type", "label", "end-label", "statements", "span"], key ≠ other := by
      simp only [List.mem_cons, List.not_mem_nil, or_false] at hkey
      rcases hkey with rfl | rfl | rfl | rfl <;> decide
    simp only [List.forall_mem_cons] at hne
    simp [lookup_writeTagged, hne]
  label := by
    refine saysOptional_map writeIdentifier ?_ fun i hi => ?_
    · simp [lookup_writeTagged, lookup_writeKind]
    · exact saysIdentifier_writeIdentifier (hstable i (by simp [Header.identifiers, hi]))
  endLabel := by
    refine saysOptional_map writeIdentifier ?_ fun i hi => ?_
    · simp [lookup_writeTagged, lookup_writeKind]
    · exact saysIdentifier_writeIdentifier (hstable i (by simp [Header.identifiers, hi]))
  span := by
    refine saysOptional_map writeSpan ?_ fun s _ => saysSpan_writeSpan s
    simp [lookup_writeTagged, lookup_writeKind]

theorem statementItems_writeTagged : StatementItems (writeTagged tag h items) items :=
  .inr ⟨.bracketed, by simp [lookup_writeTagged, lookup_writeKind]⟩

theorem saysType_writeTagged {type : String} :
    SaysRequired (writeTagged (some type) h items) "type" SaysText type :=
  required_text_iff.mpr (by simp [lookup_writeTagged])

/-- The keys of a written block are some of these, in this order. -/
theorem keys_writeTagged : ((writeTagged tag h items).map Prod.fst).Sublist
    ["type", "kind", "condition", "until", "operand", "label", "end-label", "statements",
      "span"] := by
  unfold writeTagged writeHeader
  simp only [List.map_append]
  exact (keys_optionalEntry _ _ _).append
    (((((keys_writeKind _).append (keys_optionalEntry _ _ _)).append
      (keys_optionalEntry _ _ _)).append (.refl _)).append (keys_optionalEntry _ _ _))

theorem keyed_writeTagged (hitems : ∀ v ∈ items, v.Keyed) :
    (Value.table (writeTagged tag h items)).Keyed := by
  refine .table ((keys_writeTagged tag).nodup (by decide)) ?_
  have hidentifier {key : String} {o : Option Identifier} :
      ∀ entry ∈ optionalEntry key writeIdentifier o, entry.2.Keyed :=
    keyed_optionalEntry fun _ => .string _
  have hstatements : ∀ entry ∈ [("statements", Value.array .bracketed items)], entry.2.Keyed := by
    intro entry hentry
    rw [List.mem_singleton.mp hentry]
    exact .array hitems
  unfold writeTagged writeHeader
  simp only [List.forall_mem_append]
  exact ⟨keyed_optionalEntry fun _ => .string _,
    ⟨⟨⟨keyed_writeKind h.kind, hidentifier⟩, hidentifier⟩, hstatements⟩,
    keyed_optionalEntry keyed_writeSpan⟩

end Tagged

/-! ### Statements -/

/-- A written SQL statement or transfer. -/
def writeSimple (type field : String) (v : Value) (span : Option Span) : Table :=
  [("type", .string type), (field, v)] ++ optionalEntry "span" writeSpan span

section Simple

variable {type field : String} {v : Value} {span : Option Span}

theorem keyed_writeSimple (hfield : field ∉ ["type", "span"]) (hv : v.Keyed) :
    (Value.table (writeSimple type field v span)).Keyed := by
  have hkeys : ((writeSimple type field v span).map Prod.fst).Sublist ["type", field, "span"] := by
    cases span <;> simp [writeSimple, optionalEntry]
  refine .table (hkeys.nodup ?_) ?_
  · simp only [List.mem_cons, List.not_mem_nil, or_false, not_or] at hfield
    simp [hfield.2, Ne.symm hfield.1]
  · unfold writeSimple
    simp only [List.forall_mem_append, List.forall_mem_cons]
    exact ⟨⟨.string _, hv, nofun⟩, keyed_optionalEntry keyed_writeSpan⟩

theorem lookup_type_writeSimple :
    (writeSimple type field v span).lookup "type" = some (.string type) := rfl

theorem lookup_field_writeSimple (hfield : field ≠ "type") :
    (writeSimple type field v span).lookup field = some v := by
  have hne : (field == "type") = false := beq_eq_false_iff_ne.mpr hfield
  simp [writeSimple, List.lookup_cons, hne]

theorem saysSpan_writeSimple (hfield : field ≠ "span") :
    SaysOptional (writeSimple type field v span) "span" SaysSpan span := by
  have hne : ("span" == field) = false := beq_eq_false_iff_ne.mpr hfield.symm
  refine saysOptional_map writeSpan ?_ fun s _ => saysSpan_writeSpan s
  simp [writeSimple, List.lookup_cons, hne, lookup_optionalEntry]

end Simple

/-- Written statements say the statements, as they are before anything is known of them. -/
theorem saysStatements_writeStatements {s : Statements} (hstable : ∀ i ∈ s.identifiers, i.Stable) :
    SaysStatements (writeStatements s) s.freshCopy := by
  induction s with
  | nil => exact .nil
  | sql text span rest ih =>
    let entries := writeSimple "sql" "text" (.string text) span
    have htype : SaysRequired entries "type" SaysText "sql" :=
      required_text_iff.mpr lookup_type_writeSimple
    have htext : SaysRequired entries "text" SaysText text :=
      required_text_iff.mpr (lookup_field_writeSimple (by decide))
    exact .sql htype htext (saysSpan_writeSimple (by decide)) (ih hstable)
  | transfer kind r rest ih =>
    obtain ⟨htarget, hrest⟩ := List.forall_mem_cons.mp hstable
    let entries := writeSimple (transferTag kind) "target" (writeIdentifier r.target) r.span
    have htype : SaysRequired entries "type" SaysText (transferTag kind) :=
      required_text_iff.mpr lookup_type_writeSimple
    have hidentifier : SaysRequired entries "target" SaysIdentifier r.target :=
      ⟨_, lookup_field_writeSimple (by decide), saysIdentifier_writeIdentifier htarget⟩
    exact .transfer htype hidentifier (saysSpan_writeSimple (by decide)) (ih hrest)
  | block header inner rest ihInner ihRest =>
    obtain ⟨hheader, hstable⟩ := List.forall_mem_append.mp hstable
    obtain ⟨hinner, hrest⟩ := List.forall_mem_append.mp hstable
    exact .block saysType_writeTagged (saysHeader_writeTagged (some "block") hheader)
      (statementItems_writeTagged (some "block")) (ihInner hinner) (ihRest hrest)

theorem keyed_writeStatements (s : Statements) : ∀ v ∈ writeStatements s, v.Keyed := by
  induction s with
  | nil =>
    intro v hv
    cases hv
  | sql text span rest ih =>
    exact List.forall_mem_cons.mpr ⟨keyed_writeSimple (by decide) (.string _), ih⟩
  | transfer kind r rest ih =>
    exact List.forall_mem_cons.mpr ⟨keyed_writeSimple (by decide) (.string _), ih⟩
  | block header inner rest ihInner ihRest =>
    exact List.forall_mem_cons.mpr ⟨keyed_writeTagged (some "block") ihInner, ihRest⟩

/-! ### Procedures -/

/-- A written procedure repeats no key, at any depth. -/
theorem keyed_writeProcedure (p : Procedure) : (Value.table (writeProcedure p)).Keyed := by
  have hkeys : ((writeProcedure p).map Prod.fst).Sublist ["name", "source", "body"] := by
    cases hsource : p.source <;> simp [writeProcedure, optionalEntry, hsource]
  refine .table (hkeys.nodup (by decide)) ?_
  unfold writeProcedure
  simp only [List.forall_mem_append, List.forall_mem_cons]
  exact ⟨⟨⟨.string _, nofun⟩, keyed_optionalEntry fun _ => .string _⟩,
    keyed_writeTagged none (keyed_writeStatements p.body.statements), nofun⟩

/-- **A written procedure says the procedure,** as it is before anything is known of it. -/
theorem saysProcedure_writeProcedure {p : Procedure} (hstable : ∀ i ∈ p.identifiers, i.Stable) :
    SaysProcedure (writeProcedure p) { p.freshCopy with sourceId := 0 } := by
  obtain ⟨hheader, hstatements⟩ := List.forall_mem_append.mp hstable
  have hmean : SaysBlock (writeBlock p.body) p.body.freshCopy :=
    ⟨saysHeader_writeTagged none hheader, _, statementItems_writeTagged none,
      saysStatements_writeStatements hstatements⟩
  refine ⟨required_text_iff.mpr rfl, ?_, ⟨writeBlock p.body, ?_, hmean⟩, rfl⟩
  · refine saysOptional_map .string ?_ fun _ _ => rfl
    simp [writeProcedure, List.lookup_append, lookup_optionalEntry, List.lookup_cons,
      Procedure.freshCopy]
  · simp [writeProcedure, List.lookup_append, lookup_optionalEntry, List.lookup_cons]

/-! ### What has been read

Here nothing is assumed of the document: its tables may repeat keys, its statements may be arrays,
and its spans may have surplus items. -/

theorem stable_of_readIdentifier {v : Value} {i : Identifier} (h : readIdentifier v = .ok i) :
    i.Stable := by
  obtain ⟨text, _, rfl⟩ := readIdentifier_eq_ok_iff.mp h
  exact Identifier.stable_parse text

/-- The value of an SQL statement or a transfer has been read from some value. -/
theorem exists_of_readSimple {α : Type} {field : String} {reader : Value → Read α}
    {entries : Table} {a : α} {span : Option Span} (hfield : field ≠ "span")
    (h : readSimple field reader entries = .ok (a, span)) : ∃ v, reader v = .ok a := by
  obtain ⟨d, hd, h⟩ := bind_eq_ok_iff.mp h
  obtain ⟨a', hvalue, h⟩ := bind_eq_ok_iff.mp h
  cases h
  rw [required_eq_ok_iff] at hvalue
  have hfold := field_of_foldlM (fun hstep => (SimpleDraft.sets_of_read hfield hstep).1) hd
  rcases hfold with ⟨_, hnone⟩ | ⟨v, _, a', ha', hsome⟩
  · rw [hvalue] at hnone
    cases hnone
  · rw [hvalue] at hsome
    cases hsome
    exact ⟨v, ha'⟩

theorem exists_of_readSimpleItems {α : Type} {expected : String} {reader : Value → Read α}
    {items : List Value} {a : α} {span : Option Span}
    (h : readSimpleItems expected reader items = .ok (a, span)) : ∃ v, reader v = .ok a := by
  unfold readSimpleItems at h
  split at h
  · cases h
  · next v =>
    obtain ⟨a', ha', h⟩ := bind_eq_ok_iff.mp h
    cases h
    exact ⟨v, ha'⟩
  · next v _ _ =>
    obtain ⟨a', ha', h⟩ := bind_eq_ok_iff.mp h
    obtain ⟨_, _, h⟩ := bind_eq_ok_iff.mp h
    obtain ⟨_, _, h⟩ := bind_eq_ok_iff.mp h
    cases h
    exact ⟨v, ha'⟩

/-- Statements that have been read: the target of a transfer is an identifier that has been read and
not been looked for, and a block has been read from a table. -/
inductive DecodedStatement : Statement → Prop where
  | sql (text : String) (span : Option Span) : DecodedStatement (.sql text span)
  | transfer (kind : TransferKind) {target : Identifier} (span : Option Span)
    (h : target.Stable) : DecodedStatement (.transfer kind { target, span })
  | block {entries : Table} {b : Block} (h : readBlockTable .refused entries = .ok b) :
    DecodedStatement (.block b)

theorem decoded_of_readStatementItems {items : List Value} {statement : Statement}
    (h : readStatementItems items = .ok statement) : DecodedStatement statement := by
  unfold readStatementItems at h
  split at h
  · cases h
  · obtain ⟨tag, _, h⟩ := bind_eq_ok_iff.mp h
    cases tag with
    | block => cases h
    | sql =>
      obtain ⟨⟨text, span⟩, _, h⟩ := bind_eq_ok_iff.mp h
      cases h
      exact .sql text span
    | leave | iterate =>
      obtain ⟨⟨target, span⟩, hread, h⟩ := bind_eq_ok_iff.mp h
      cases h
      obtain ⟨v, hv⟩ := exists_of_readSimpleItems hread
      exact .transfer _ span (stable_of_readIdentifier hv)

theorem decoded_of_readStatement {v : Value} {statement : Statement}
    (h : readStatement v = .ok statement) : DecodedStatement statement := by
  rcases exists_of_readStatement h with ⟨entries, rfl⟩ | ⟨form, items, rfl⟩
  · rcases readStatement_table_eq_ok_iff.mp h with
      ⟨_, text, span, _, rfl⟩ | ⟨kind, _, target, span, hread, rfl⟩ | ⟨_, b, hread, rfl⟩
    · exact .sql text span
    · obtain ⟨v, hv⟩ := exists_of_readSimple (by decide) hread
      exact .transfer kind span (stable_of_readIdentifier hv)
    · exact .block hread
  · rw [readStatement] at h
    exact decoded_of_readStatementItems h

/-- The labels of a block that has been read have been read, and so have its statements. -/
theorem decoded_of_readBlockTable {surplus : Surplus} {entries : Table} {b : Block}
    (h : readBlockTable surplus entries = .ok b) :
    (∀ i ∈ b.header.identifiers, i.Stable) ∧
      ∃ items, readStatementList items = .ok b.statements := by
  obtain ⟨d, hd, h⟩ := bind_eq_ok_iff.mp h
  obtain ⟨kind, _, h⟩ := bind_eq_ok_iff.mp h
  cases h
  rw [readBlockFields_eq_foldlM] at hd
  have hstable {o : Option Identifier} {key : String}
      (hfield : (key ∉ entries.map Prod.fst ∧ o = none) ∨
        ∃ v, (key, v) ∈ entries ∧ Reads readIdentifier v o) : ∀ i ∈ o, i.Stable := by
    rcases hfield with ⟨_, rfl⟩ | ⟨v, _, i, hi, rfl⟩
    · intro i hi
      cases hi
    · intro j hj
      cases hj
      exact stable_of_readIdentifier hi
  have hlabel := hstable (field_of_foldlM (fun hstep => (BlockDraft.sets_of_read hstep).1) hd)
  have hend := hstable (field_of_foldlM (fun hstep => (BlockDraft.sets_of_read hstep).2.1) hd)
  refine ⟨?_, ?_⟩
  · intro i hi
    rcases List.mem_append.mp hi with hi | hi
    · exact hlabel i (Option.mem_toList.mp hi)
    · exact hend i (Option.mem_toList.mp hi)
  · rcases field_of_foldlM (fun hstep => (BlockDraft.sets_of_read hstep).2.2.2) hd with
      ⟨_, hnil⟩ | ⟨v, _, hread⟩
    · refine ⟨[], ?_⟩
      rw [readStatementList, show (d.block kind).statements = .nil from hnil]
    · obtain ⟨_, items, _, hitems⟩ := readStatements_eq_ok_iff.mp hread
      exact ⟨items, hitems⟩

/-- The identifiers of statements that have been read survive being written, and nothing is known of
their references. -/
theorem decoded_of_readStatementList {items : List Value} {s : Statements}
    (h : readStatementList items = .ok s) :
    (∀ i ∈ s.identifiers, i.Stable) ∧ s.freshCopy = s := by
  -- By induction on what has been read; the statements inside a block come from their own list.
  induction s generalizing items with
  | nil => exact ⟨nofun, rfl⟩
  | sql text span rest ih =>
    obtain ⟨_, _, _, _, hrest⟩ := exists_of_readStatementList (.sql text span) h
    obtain ⟨hstable, hfresh⟩ := ih hrest
    exact ⟨hstable, by rw [Statements.freshCopy, hfresh]⟩
  | transfer kind r rest ih =>
    obtain ⟨_, _, _, hv, hrest⟩ := exists_of_readStatementList (.transfer kind r) h
    obtain ⟨hstable, hfresh⟩ := ih hrest
    cases decoded_of_readStatement hv with
    | transfer _ _ htarget =>
      exact ⟨List.forall_mem_cons.mpr ⟨htarget, hstable⟩, by rw [Statements.freshCopy, hfresh]⟩
  | block header inner rest ihInner ihRest =>
    obtain ⟨_, _, _, hv, hrest⟩ := exists_of_readStatementList (.block ⟨header, inner⟩) h
    obtain ⟨hstable, hfresh⟩ := ihRest hrest
    cases decoded_of_readStatement hv with
    | block hread =>
      obtain ⟨hheader, _, hinner⟩ := decoded_of_readBlockTable hread
      obtain ⟨hstableInner, hfreshInner⟩ := ihInner hinner
      refine ⟨?_, by rw [Statements.freshCopy, hfreshInner, hfresh]⟩
      exact List.forall_mem_append.mpr
        ⟨hheader, List.forall_mem_append.mpr ⟨hstableInner, hstable⟩⟩

/-- **Procedures as reading leaves them.** Their identifiers survive being written, and they hold
nothing that a document does not. -/
structure Decoded (p : Procedure) : Prop where
  stable : ∀ i ∈ p.identifiers, i.Stable
  fresh : p.freshCopy = p
  sourceId : p.sourceId = 0

theorem decoded_of_readProcedure {entries : Table} {p : Procedure}
    (h : readProcedure entries = .ok p) : Decoded p := by
  obtain ⟨d, hd, h⟩ := bind_eq_ok_iff.mp h
  obtain ⟨name, _, h⟩ := bind_eq_ok_iff.mp h
  obtain ⟨body, hbody, h⟩ := bind_eq_ok_iff.mp h
  cases h
  rw [required_eq_ok_iff] at hbody
  -- Of several bodies the last one counts, and that has been read as well.
  rcases field_of_foldlM (fun hstep => (ProcedureDraft.sets_of_read hstep).2.2) hd with
    ⟨_, hnone⟩ | ⟨v, _, body', hread, hsome⟩
  · rw [hbody] at hnone
    cases hnone
  · rw [hbody] at hsome
    cases hsome
    obtain ⟨inner, rfl⟩ := exists_table_of_readBlock hread
    obtain ⟨hheader, _, hitems⟩ := decoded_of_readBlockTable hread
    obtain ⟨hstable, hfresh⟩ := decoded_of_readStatementList hitems
    refine ⟨List.forall_mem_append.mpr ⟨hheader, hstable⟩, ?_, rfl⟩
    unfold Procedure.freshCopy Block.freshCopy
    rw [hfresh]

/-! ### The round trips -/

/-- **Round trips.** A procedure whose identifiers survive being written is given back when it is
written and read, with every reference unresolved and without the number of its text. A procedure
that has been read, from whatever document, is given back as it is. -/
theorem readProcedure_writeProcedure :
    (∀ p : Procedure, (∀ i ∈ p.identifiers, i.Stable) →
      readProcedure (writeProcedure p) = .ok { p.freshCopy with sourceId := 0 }) ∧
    ∀ entries p, readProcedure entries = .ok p → readProcedure (writeProcedure p) = .ok p := by
  have hback (p : Procedure) (hstable : ∀ i ∈ p.identifiers, i.Stable) :
      readProcedure (writeProcedure p) = .ok { p.freshCopy with sourceId := 0 } :=
    (saysProcedure_writeProcedure hstable).readProcedure (keyed_writeProcedure p)
  refine ⟨hback, ?_⟩
  intro entries p h
  -- What has been read knows nothing that a document does not hold.
  have hdecoded := decoded_of_readProcedure h
  rw [hback p hdecoded.stable, hdecoded.fresh, ← hdecoded.sourceId]

/-- A loop with a quote in its label, and a `LEAVE` that has found it. -/
def settledLoop : Procedure where
  name := "p"
  body := ⟨{ kind := .loop, label := some (.delimited "a\"b"), span := some ⟨4, 2⟩ },
    .transfer .leave { target := .regular "ab", resolution := .resolved .root } .nil⟩
  sourceId := 7

/-- A body with half a delimiter and blanks around its label. -/
def carelessDocument : Table :=
  [("name", .string "p"), ("body", .table [("kind", .string "loop"), ("label", .string " \"a ")])]

theorem readProcedure_writeProcedure_settledLoop :
    readProcedure (writeProcedure settledLoop) =
        .ok { settledLoop.freshCopy with sourceId := 0 } ∧
      ∃ p, readProcedure carelessDocument = .ok p ∧
        readProcedure (writeProcedure p) = .ok p := by
  obtain ⟨hwritten, hread⟩ := readProcedure_writeProcedure
  exact ⟨hwritten settledLoop (by decide), _, rfl, hread carelessDocument _ rfl⟩

end LabelCheck.Document
