import LabelCheck.Document.Procedure

/-!
# Records and their fields

A record of a document is read entry by entry, in the order of the document. What has been read in
the end depends on no order: each field holds what the entry under its key says, and what it held
before if there is none. This module says so once for all records, and then of each kind of record
what its fields are.

* `Value.Keyed`: a key stands in a table at most once, at all depths;
* `Field`: what the entry under a key says, or that there is none;
* `field_of_foldlM`, `Field.of_foldlM`: a field after all entries have been read;
* `readBlockFields_eq_ok_iff`, `readProcedure_eq_ok_iff` and their like: a record by its fields.

The first of the two lemmas on folds holds for tables with several entries under a key as well, for
which the last one counts.
-/

namespace LabelCheck

/-! ### Tables in which no key is repeated -/

namespace Toml

/-- **Distinct keys.** In the tables of a value, at all depths, a key stands at most once. -/
inductive Value.Keyed : Value → Prop where
  | string (text : String) : Keyed (.string text)
  | integer (value : Int) : Keyed (.integer value)
  | float (value : Float) : Keyed (.float value)
  | boolean (value : Bool) : Keyed (.boolean value)
  | moment (text : String) : Keyed (.moment text)
  | array {form : ArrayForm} {items : List Value} (h : ∀ v ∈ items, Keyed v) :
    Keyed (.array form items)
  | table {entries : Table} (nodup : (entries.map Prod.fst).Nodup)
    (h : ∀ entry ∈ entries, Keyed entry.2) : Keyed (.table entries)

theorem mem_of_lookup_eq_some {α β : Type} [BEq α] [LawfulBEq α] {entries : List (α × β)} {key : α}
    {b : β} (h : entries.lookup key = some b) : (key, b) ∈ entries := by
  obtain ⟨before, after, rfl, _⟩ := List.lookup_eq_some_iff.mp h
  exact List.mem_append_right _ List.mem_cons_self

section Lookup

variable {β : Type} {entries : List (String × β)} {key : String} {b : β}

/-- Without repeated keys the entry that is found is the only one. -/
theorem lookup_eq_some_iff (hnodup : (entries.map Prod.fst).Nodup) :
    entries.lookup key = some b ↔ (key, b) ∈ entries := by
  refine ⟨mem_of_lookup_eq_some, ?_⟩
  intro hmem
  obtain ⟨before, after, rfl⟩ := List.append_of_mem hmem
  refine List.lookup_eq_some_iff.mpr ⟨before, after, rfl, ?_⟩
  intro entry hentry
  rw [List.map_append, List.nodup_append] at hnodup
  have hne := hnodup.2.2 entry.1 (List.mem_map_of_mem hentry) key
    (List.mem_map_of_mem List.mem_cons_self)
  exact bne_iff_ne.mpr fun heq => hne heq.symm

theorem lookup_eq_none_iff : entries.lookup key = none ↔ key ∉ entries.map Prod.fst := by
  rw [List.lookup_eq_none_iff]
  constructor
  · intro h hmem
    obtain ⟨entry, hentry, heq⟩ := List.mem_map.mp hmem
    exact bne_iff_ne.mp (h entry hentry) heq.symm
  · intro h entry hentry
    exact bne_iff_ne.mpr fun heq => h (heq ▸ List.mem_map_of_mem hentry)

end Lookup

theorem Value.Keyed.nodup {entries : Table} (h : (Value.table entries).Keyed) :
    (entries.map Prod.fst).Nodup := by
  cases h with
  | table hnodup _ => exact hnodup

/-- What stands under a key of a table has distinct keys if the table has. -/
theorem Value.Keyed.lookup {entries : Table} {key : String} {v : Value}
    (h : (Value.table entries).Keyed) (hv : entries.lookup key = some v) : v.Keyed := by
  cases h with
  | table _ h => exact h (key, v) (mem_of_lookup_eq_some hv)

theorem Value.Keyed.item {form : ArrayForm} {items : List Value} {v : Value}
    (h : (Value.array form items).Keyed) (hv : v ∈ items) : v.Keyed := by
  cases h with
  | array h => exact h v hv

end Toml

namespace Document

open Toml

/-! ### Fields of any record -/

theorem bind_eq_ok_iff {ε α β : Type} {x : Except ε α} {f : α → Except ε β} {b : β} :
    (x >>= f) = .ok b ↔ ∃ a, x = .ok a ∧ f a = .ok b := by
  cases x with
  | error e =>
    constructor
    · intro h
      cases h
    · rintro ⟨a, ha, _⟩
      cases ha
  | ok a =>
    constructor
    · intro h
      exact ⟨a, rfl, h⟩
    · rintro ⟨a', ha, h⟩
      cases ha
      exact h

theorem map_eq_ok_iff {ε α β : Type} {f : α → β} {x : Except ε α} {b : β} :
    x.map f = .ok b ↔ ∃ a, x = .ok a ∧ f a = b := by
  cases x with
  | error e => exact iff_of_false nofun fun ⟨_, h, _⟩ => nomatch h
  | ok a =>
    constructor
    · intro h
      exact ⟨a, rfl, Except.ok.inj h⟩
    · rintro ⟨_, ha, rfl⟩
      cases ha
      rfl

theorem mapError_eq_ok_iff {ε ε' α : Type} {f : ε → ε'} {x : Except ε α} {a : α} :
    x.mapError f = .ok a ↔ x = .ok a := by
  cases x with
  | error e => exact iff_of_false nofun nofun
  | ok a' =>
    constructor
    · intro h
      cases h
      rfl
    · intro h
      cases h
      rfl

/-- **What a field says.** The entry under `key` means `b`; without an entry `b` is `absent`. -/
def Field {β : Type} (entries : Table) (key : String) (means : Value → β → Prop) (absent b : β) :
    Prop :=
  (entries.lookup key = none ∧ b = absent) ∨ ∃ v, entries.lookup key = some v ∧ means v b

/-- A value has been read, and the field holds it. -/
def Reads {α : Type} (reader : Value → Read α) (v : Value) (field : Option α) : Prop :=
  ∃ a, reader v = .ok a ∧ field = some a

theorem Reads.unique {α : Type} {reader : Value → Read α} {v : Value} {a b : Option α}
    (ha : Reads reader v a) (hb : Reads reader v b) : a = b := by
  obtain ⟨x, hx, rfl⟩ := ha
  obtain ⟨y, hy, rfl⟩ := hb
  rw [hx] at hy
  rw [Except.ok.inj hy]

/-- A field that is there says that the entry under its key has been read. -/
theorem field_some_iff {α : Type} {entries : Table} {key : String} {reader : Value → Read α}
    {a : α} :
    Field entries key (Reads reader) none (some a) ↔
      ∃ v, entries.lookup key = some v ∧ reader v = .ok a := by
  constructor
  · rintro (⟨_, h⟩ | ⟨v, hv, x, hx, h⟩)
    · cases h
    · cases h
      exact ⟨v, hv, hx⟩
  · rintro ⟨v, hv, ha⟩
    exact .inr ⟨v, hv, a, ha, rfl⟩

/-- **What an entry does to a field.** Under the key of the field it sets what its value means, and
under any other key it keeps what the field held. -/
def Sets {β : Type} (key : String) (means : Value → β → Prop) (entry : String × Value) (b b' : β) :
    Prop :=
  (entry.1 = key ∧ means entry.2 b') ∨ (entry.1 ≠ key ∧ b' = b)

section Fold

variable {δ β : Type} {step : δ → String × Value → Read δ} {key : String} {field : δ → β}
  {means : Value → β → Prop} {entries : Table} {d d' : δ}

/-- **A field after a record has been read.** It holds what some entry under its key means, or what
it held before if there is none. -/
theorem field_of_foldlM
    (hstep : ∀ {d d' : δ} {entry : String × Value}, step d entry = .ok d' →
      Sets key means entry (field d) (field d'))
    (h : entries.foldlM step d = .ok d') :
    (key ∉ entries.map Prod.fst ∧ field d' = field d) ∨
      ∃ v, (key, v) ∈ entries ∧ means v (field d') := by
  induction entries generalizing d with
  | nil =>
    cases h
    exact .inl ⟨List.not_mem_nil, rfl⟩
  | cons entry rest ih =>
    rw [List.foldlM_cons] at h
    obtain ⟨d₁, hfirst, hrest⟩ := bind_eq_ok_iff.mp h
    -- A later entry under the key wins; otherwise the first entry decides.
    rcases ih hrest with ⟨hnot, hfield⟩ | ⟨v, hmem, hv⟩
    · rcases hstep hfirst with ⟨rfl, hmeans⟩ | ⟨hne, hkeep⟩
      · exact .inr ⟨entry.2, List.mem_cons_self, by rwa [hfield]⟩
      · refine .inl ⟨?_, hfield.trans hkeep⟩
        intro hmem
        rcases List.mem_cons.mp hmem with heq | hmem
        · exact hne heq.symm
        · exact hnot hmem
    · exact .inr ⟨v, List.mem_cons_of_mem _ hmem, hv⟩

/-- Without repeated keys the field holds what the entry under its key says. -/
theorem Field.of_foldlM (hnodup : (entries.map Prod.fst).Nodup)
    (hstep : ∀ {d d' : δ} {entry : String × Value}, step d entry = .ok d' →
      Sets key means entry (field d) (field d'))
    (h : entries.foldlM step d = .ok d') : Field entries key means (field d) (field d') := by
  rcases field_of_foldlM hstep h with ⟨hnot, hfield⟩ | ⟨v, hmem, hv⟩
  · exact .inl ⟨lookup_eq_none_iff.mpr hnot, hfield⟩
  · exact .inr ⟨v, (lookup_eq_some_iff hnodup).mpr hmem, hv⟩

/-- Of a record that has been read every entry has been read. -/
theorem exists_step_of_foldlM (h : entries.foldlM step d = .ok d') :
    ∀ entry ∈ entries, ∃ d₁ d₂, step d₁ entry = .ok d₂ := by
  induction entries generalizing d with
  | nil =>
    intro entry hentry
    cases hentry
  | cons first rest ih =>
    intro entry hentry
    rw [List.foldlM_cons] at h
    obtain ⟨d₁, hstep, hrest⟩ := bind_eq_ok_iff.mp h
    rcases List.mem_cons.mp hentry with rfl | hentry
    · exact ⟨d, d₁, hstep⟩
    · exact ih hrest entry hentry

/-- A record is read to its end if every entry can be read. -/
theorem exists_foldlM_eq_ok (hstep : ∀ entry ∈ entries, ∀ d, ∃ d', step d entry = .ok d') (d : δ) :
    ∃ d', entries.foldlM step d = .ok d' := by
  induction entries generalizing d with
  | nil => exact ⟨d, rfl⟩
  | cons entry rest ih =>
    obtain ⟨d₁, hd₁⟩ := hstep entry List.mem_cons_self d
    obtain ⟨d', hd'⟩ := ih (fun e he => hstep e (List.mem_cons_of_mem _ he)) d₁
    refine ⟨d', ?_⟩
    rw [List.foldlM_cons, hd₁]
    exact hd'

end Fold

/-- Without repeated keys every entry under the key means what the field says. -/
theorem Field.of_mem {β : Type} {entries : Table} {key : String} {means : Value → β → Prop}
    {absent b : β} {v : Value} (h : Field entries key means absent b)
    (hnodup : (entries.map Prod.fst).Nodup) (hv : (key, v) ∈ entries) : means v b := by
  have hv := (lookup_eq_some_iff hnodup).mpr hv
  rcases h with ⟨hnone, _⟩ | ⟨v', hv', hmeans⟩
  · rw [hnone] at hv
    cases hv
  · rw [hv'] at hv
    cases hv
    exact hmeans

theorem Field.unique {β : Type} {entries : Table} {key : String} {means : Value → β → Prop}
    {absent b b' : β} (hunique : ∀ {v : Value}, means v b → means v b' → b = b')
    (h : Field entries key means absent b) (h' : Field entries key means absent b') : b = b' := by
  rcases h with ⟨hnone, rfl⟩ | ⟨v, hv, hmeans⟩ <;> rcases h' with ⟨hnone', rfl⟩ | ⟨v', hv', hmeans'⟩
  · rfl
  · rw [hnone] at hv'
    cases hv'
  · rw [hnone'] at hv
    cases hv
  · rw [hv] at hv'
    cases hv'
    exact hunique hmeans hmeans'

/-! ### Single values -/

theorem readText_eq_ok_iff {v : Value} {t : String} : readText v = .ok t ↔ v = .string t := by
  cases v <;> simp [readText, mismatch]

theorem readIdentifier_eq_ok_iff {v : Value} {i : Identifier} :
    readIdentifier v = .ok i ↔ ∃ t, v = .string t ∧ i = .parse t := by
  unfold readIdentifier
  rw [bind_eq_ok_iff]
  constructor
  · rintro ⟨t, ht, hi⟩
    exact ⟨t, readText_eq_ok_iff.mp ht, (Except.ok.inj hi).symm⟩
  · rintro ⟨t, rfl, rfl⟩
    exact ⟨t, rfl, rfl⟩

theorem readSize_eq_ok_iff {v : Value} {n : Nat} : readSize v = .ok n ↔ v = .integer n := by
  constructor
  · intro h
    unfold readSize at h
    split at h
    · cases h
      rfl
    · cases h
    · cases h
  · rintro rfl
    rfl

theorem required_eq_ok_iff {α : Type} {name : String} {o : Option α} {a : α} :
    required name o = .ok a ↔ o = some a := by
  cases o <;> simp [required]

/-! ### Spans -/

/-- An entry of a span is one of its ends. -/
theorem SpanDraft.sets_of_read {d d' : SpanDraft} {entry : String × Value}
    (h : SpanDraft.read d entry = .ok d') :
    Sets "start" (Reads readSize) entry d.start d'.start ∧
      Sets "end" (Reads readSize) entry d.stop d'.stop ∧
      (entry.1 = "start" ∨ entry.1 = "end") := by
  unfold SpanDraft.read at h
  split at h
  · obtain ⟨n, hn, hd⟩ := bind_eq_ok_iff.mp h
    cases hd
    exact ⟨.inl ⟨rfl, n, hn, rfl⟩, .inr ⟨by simp, rfl⟩, .inl rfl⟩
  · obtain ⟨n, hn, hd⟩ := bind_eq_ok_iff.mp h
    cases hd
    exact ⟨.inr ⟨by simp, rfl⟩, .inl ⟨rfl, n, hn, rfl⟩, .inr rfl⟩
  · cases h

/-- A span in a table has its two ends and nothing else. -/
theorem readSpan_table_eq_ok_iff {surplus : Surplus} {entries : Table} {s : Span}
    (hnodup : (entries.map Prod.fst).Nodup) :
    readSpan surplus (.table entries) = .ok s ↔
      (∀ entry ∈ entries, entry.1 = "start" ∨ entry.1 = "end") ∧
        entries.lookup "start" = some (.integer s.start) ∧
        entries.lookup "end" = some (.integer s.stop) := by
  constructor
  · intro h
    obtain ⟨d, hd, h⟩ := bind_eq_ok_iff.mp h
    obtain ⟨start, hstart, h⟩ := bind_eq_ok_iff.mp h
    obtain ⟨stop, hstop, h⟩ := bind_eq_ok_iff.mp h
    cases h
    have hfirst := Field.of_foldlM hnodup (fun hstep => (SpanDraft.sets_of_read hstep).1) hd
    have hsecond := Field.of_foldlM hnodup (fun hstep => (SpanDraft.sets_of_read hstep).2.1) hd
    rw [required_eq_ok_iff.mp hstart, field_some_iff] at hfirst
    rw [required_eq_ok_iff.mp hstop, field_some_iff] at hsecond
    obtain ⟨v, hv, hn⟩ := hfirst
    obtain ⟨v', hv', hn'⟩ := hsecond
    rw [readSize_eq_ok_iff.mp hn] at hv
    rw [readSize_eq_ok_iff.mp hn'] at hv'
    refine ⟨?_, hv, hv'⟩
    intro entry hentry
    obtain ⟨d₁, d₂, hstep⟩ := exists_step_of_foldlM hd entry hentry
    exact (SpanDraft.sets_of_read hstep).2.2
  · rintro ⟨hkeys, hstart, hstop⟩
    have hread : ∀ entry ∈ entries, ∀ d, ∃ d', SpanDraft.read d entry = .ok d' := by
      rintro ⟨k, v⟩ hentry d
      have hv := (lookup_eq_some_iff hnodup).mpr hentry
      rcases hkeys _ hentry with rfl | rfl
      · rw [hstart] at hv
        cases hv
        exact ⟨_, rfl⟩
      · rw [hstop] at hv
        cases hv
        exact ⟨_, rfl⟩
    obtain ⟨d, hd⟩ := exists_foldlM_eq_ok hread {}
    have hfirst : d.start = some s.start :=
      (Field.of_foldlM hnodup (fun hstep => (SpanDraft.sets_of_read hstep).1) hd).unique
        Reads.unique (field_some_iff.mpr ⟨_, hstart, rfl⟩)
    have hsecond : d.stop = some s.stop :=
      (Field.of_foldlM hnodup (fun hstep => (SpanDraft.sets_of_read hstep).2.1) hd).unique
        Reads.unique (field_some_iff.mpr ⟨_, hstop, rfl⟩)
    refine bind_eq_ok_iff.mpr ⟨d, hd, ?_⟩
    rw [hfirst, hsecond]
    rfl

/-! ### SQL statements and transfers -/

section Simple

variable {α : Type} {field : String} {reader : Value → Read α}

/-- An entry of an SQL statement or a transfer is its value, its place, or without a meaning. -/
theorem SimpleDraft.sets_of_read (hfield : field ≠ "span") {d d' : SimpleDraft α}
    {entry : String × Value} (h : SimpleDraft.read field reader d entry = .ok d') :
    Sets field (Reads reader) entry d.value d'.value ∧
      Sets "span" (Reads (readSpan .refused)) entry d.span d'.span := by
  obtain ⟨k, v⟩ := entry
  simp only [SimpleDraft.read] at h
  split at h
  · next hk =>
    obtain ⟨a, ha, hd⟩ := bind_eq_ok_iff.mp h
    cases hd
    exact ⟨.inl ⟨hk, a, ha, rfl⟩, .inr ⟨by rwa [hk], rfl⟩⟩
  · next hk =>
    split at h
    · next hs =>
      obtain ⟨s, hs', hd⟩ := bind_eq_ok_iff.mp h
      cases hd
      exact ⟨.inr ⟨hk, rfl⟩, .inl ⟨hs, s, hs', rfl⟩⟩
    · next hs =>
      cases h
      exact ⟨.inr ⟨hk, rfl⟩, .inr ⟨hs, rfl⟩⟩

/-- An entry that says something of a statement can be read. -/
theorem SimpleDraft.exists_read {d : SimpleDraft α} {entry : String × Value} (said : SimpleDraft α)
    (hvalue : entry.1 = field → Reads reader entry.2 said.value)
    (hspan : entry.1 = "span" → Reads (readSpan .refused) entry.2 said.span) :
    ∃ d', SimpleDraft.read field reader d entry = .ok d' := by
  obtain ⟨k, v⟩ := entry
  simp only [SimpleDraft.read]
  split
  · next hk =>
    obtain ⟨a, ha, _⟩ := hvalue hk
    exact ⟨_, bind_eq_ok_iff.mpr ⟨a, ha, rfl⟩⟩
  · split
    · next hs =>
      obtain ⟨s, hs', _⟩ := hspan hs
      exact ⟨_, bind_eq_ok_iff.mpr ⟨s, hs', rfl⟩⟩
    · exact ⟨d, rfl⟩

/-- An SQL statement or a transfer by its fields: the value has to be there. -/
theorem readSimple_eq_ok_iff {entries : Table} (hnodup : (entries.map Prod.fst).Nodup)
    (hfield : field ≠ "span") {a : α} {span : Option Span} :
    readSimple field reader entries = .ok (a, span) ↔
      Field entries field (Reads reader) none (some a) ∧
        Field entries "span" (Reads (readSpan .refused)) none span := by
  constructor
  · intro h
    obtain ⟨d, hd, h⟩ := bind_eq_ok_iff.mp h
    obtain ⟨value, hvalue, h⟩ := bind_eq_ok_iff.mp h
    cases h
    rw [← required_eq_ok_iff.mp hvalue]
    exact ⟨Field.of_foldlM hnodup (fun hstep => (SimpleDraft.sets_of_read hfield hstep).1) hd,
      Field.of_foldlM hnodup (fun hstep => (SimpleDraft.sets_of_read hfield hstep).2) hd⟩
  · rintro ⟨hvalue, hspan⟩
    have hread : ∀ entry ∈ entries, ∀ d, ∃ d', SimpleDraft.read field reader d entry = .ok d' := by
      rintro ⟨k, v⟩ hentry d
      refine SimpleDraft.exists_read ⟨some a, span⟩ ?_ ?_
      · rintro rfl
        exact hvalue.of_mem hnodup hentry
      · rintro rfl
        exact hspan.of_mem hnodup hentry
    obtain ⟨d, hd⟩ := exists_foldlM_eq_ok hread {}
    have hvalue' : d.value = some a :=
      (Field.of_foldlM hnodup (fun hstep => (SimpleDraft.sets_of_read hfield hstep).1) hd).unique
        Reads.unique hvalue
    have hspan' : d.span = span :=
      (Field.of_foldlM hnodup (fun hstep => (SimpleDraft.sets_of_read hfield hstep).2) hd).unique
        Reads.unique hspan
    refine bind_eq_ok_iff.mpr ⟨d, hd, ?_⟩
    rw [hvalue', hspan']
    rfl

end Simple

/-! ### Blocks -/

/-- Read one field of every block. -/
def BlockDraft.read (surplus : Surplus) (d : BlockDraft) : String × Value → Read BlockDraft :=
  fun (key, v) =>
    match key with
    | "label" => return { d with label := some (← readIdentifier v) }
    | "end-label" => return { d with endLabel := some (← readIdentifier v) }
    | "span" => return { d with span := some (← readSpan surplus v) }
    | "statements" => return { d with statements := ← readStatements v }
    | _ => .ok d

/-- The fields of every block are read entry by entry as well. -/
theorem readBlockFields_eq_foldlM (surplus : Surplus) (entries : Table) (d : BlockDraft) :
    readBlockFields surplus entries d = entries.foldlM (BlockDraft.read surplus) d := by
  induction entries generalizing d with
  | nil => rfl
  | cons entry rest ih =>
    obtain ⟨key, v⟩ := entry
    rw [List.foldlM_cons]
    unfold readBlockFields
    simp only [ih]
    -- What is read of the first entry, followed by the rest.
    have hthen {α : Type} (x : Read α) (f : α → BlockDraft) :
        (x >>= fun a => rest.foldlM (BlockDraft.read surplus) (f a)) =
          (x >>= fun a => .ok (f a)) >>= rest.foldlM (BlockDraft.read surplus) := by
      cases x <;> rfl
    split
    · exact hthen (readIdentifier v) fun label => { d with label := some label }
    · exact hthen (readIdentifier v) fun label => { d with endLabel := some label }
    · exact hthen (readSpan surplus v) fun span => { d with span := some span }
    · exact hthen (readStatements v) fun statements => { d with statements }
    · next hlabel hend hspan hstatements =>
      have hread : BlockDraft.read surplus d (key, v) = .ok d := by
        unfold BlockDraft.read
        dsimp only
        split
        · exact (hlabel rfl).elim
        · exact (hend rfl).elim
        · exact (hspan rfl).elim
        · exact (hstatements rfl).elim
        · rfl
      rw [hread]
      rfl

/-- What a value says as the statements of a block. -/
def ReadsStatements (v : Value) (s : Statements) : Prop := readStatements v = .ok s

theorem ReadsStatements.unique {v : Value} {s t : Statements} (hs : ReadsStatements v s)
    (ht : ReadsStatements v t) : s = t := Except.ok.inj (hs.symm.trans ht)

/-- An entry of a block is one of its fields or without a meaning for them. -/
theorem BlockDraft.sets_of_read {surplus : Surplus} {d d' : BlockDraft} {entry : String × Value}
    (h : BlockDraft.read surplus d entry = .ok d') :
    Sets "label" (Reads readIdentifier) entry d.label d'.label ∧
      Sets "end-label" (Reads readIdentifier) entry d.endLabel d'.endLabel ∧
      Sets "span" (Reads (readSpan surplus)) entry d.span d'.span ∧
      Sets "statements" ReadsStatements entry d.statements d'.statements := by
  obtain ⟨key, v⟩ := entry
  unfold BlockDraft.read at h
  dsimp only at h
  split at h
  · obtain ⟨label, hlabel, hd⟩ := bind_eq_ok_iff.mp h
    cases hd
    exact ⟨.inl ⟨rfl, label, hlabel, rfl⟩, .inr ⟨by simp, rfl⟩, .inr ⟨by simp, rfl⟩,
      .inr ⟨by simp, rfl⟩⟩
  · obtain ⟨label, hlabel, hd⟩ := bind_eq_ok_iff.mp h
    cases hd
    exact ⟨.inr ⟨by simp, rfl⟩, .inl ⟨rfl, label, hlabel, rfl⟩, .inr ⟨by simp, rfl⟩,
      .inr ⟨by simp, rfl⟩⟩
  · obtain ⟨span, hspan, hd⟩ := bind_eq_ok_iff.mp h
    cases hd
    exact ⟨.inr ⟨by simp, rfl⟩, .inr ⟨by simp, rfl⟩, .inl ⟨rfl, span, hspan, rfl⟩,
      .inr ⟨by simp, rfl⟩⟩
  · obtain ⟨statements, hstatements, hd⟩ := bind_eq_ok_iff.mp h
    cases hd
    exact ⟨.inr ⟨by simp, rfl⟩, .inr ⟨by simp, rfl⟩, .inr ⟨by simp, rfl⟩,
      .inl ⟨rfl, hstatements⟩⟩
  · next hlabel hend hspan hstatements =>
    cases h
    exact ⟨.inr ⟨hlabel, rfl⟩, .inr ⟨hend, rfl⟩, .inr ⟨hspan, rfl⟩, .inr ⟨hstatements, rfl⟩⟩

/-- An entry that says something of a block can be read. -/
theorem BlockDraft.exists_read {surplus : Surplus} {d : BlockDraft} {entry : String × Value}
    (said : BlockDraft) (hlabel : entry.1 = "label" → Reads readIdentifier entry.2 said.label)
    (hend : entry.1 = "end-label" → Reads readIdentifier entry.2 said.endLabel)
    (hspan : entry.1 = "span" → Reads (readSpan surplus) entry.2 said.span)
    (hstatements : entry.1 = "statements" → ReadsStatements entry.2 said.statements) :
    ∃ d', BlockDraft.read surplus d entry = .ok d' := by
  obtain ⟨key, v⟩ := entry
  unfold BlockDraft.read
  dsimp only
  split
  · obtain ⟨label, hlabel, _⟩ := hlabel rfl
    exact ⟨_, bind_eq_ok_iff.mpr ⟨label, hlabel, rfl⟩⟩
  · obtain ⟨label, hlabel, _⟩ := hend rfl
    exact ⟨_, bind_eq_ok_iff.mpr ⟨label, hlabel, rfl⟩⟩
  · obtain ⟨span, hspan, _⟩ := hspan rfl
    exact ⟨_, bind_eq_ok_iff.mpr ⟨span, hspan, rfl⟩⟩
  · exact ⟨_, bind_eq_ok_iff.mpr ⟨said.statements, hstatements rfl, rfl⟩⟩
  · exact ⟨d, rfl⟩

/-- What the entries of a block say of the fields of every block. -/
structure BlockDraft.Fields (surplus : Surplus) (entries : Table) (d d' : BlockDraft) : Prop where
  label : Field entries "label" (Reads readIdentifier) d.label d'.label
  endLabel : Field entries "end-label" (Reads readIdentifier) d.endLabel d'.endLabel
  span : Field entries "span" (Reads (readSpan surplus)) d.span d'.span
  statements : Field entries "statements" ReadsStatements d.statements d'.statements

theorem BlockDraft.Fields.unique {surplus : Surplus} {entries : Table} {d d₁ d₂ : BlockDraft}
    (h₁ : d.Fields surplus entries d₁) (h₂ : d.Fields surplus entries d₂) : d₁ = d₂ := by
  cases d₁
  cases d₂
  congr
  · exact h₁.label.unique Reads.unique h₂.label
  · exact h₁.endLabel.unique Reads.unique h₂.endLabel
  · exact h₁.span.unique Reads.unique h₂.span
  · exact h₁.statements.unique ReadsStatements.unique h₂.statements

theorem BlockDraft.fields_of_readBlockFields {surplus : Surplus} {entries : Table}
    {d d' : BlockDraft} (hnodup : (entries.map Prod.fst).Nodup)
    (h : readBlockFields surplus entries d = .ok d') : d.Fields surplus entries d' := by
  rw [readBlockFields_eq_foldlM] at h
  exact
    { label := Field.of_foldlM hnodup (fun hstep => (sets_of_read hstep).1) h
      endLabel := Field.of_foldlM hnodup (fun hstep => (sets_of_read hstep).2.1) h
      span := Field.of_foldlM hnodup (fun hstep => (sets_of_read hstep).2.2.1) h
      statements := Field.of_foldlM hnodup (fun hstep => (sets_of_read hstep).2.2.2) h }

/-- The fields of every block by what the table says of each. -/
theorem readBlockFields_eq_ok_iff {surplus : Surplus} {entries : Table} {d d' : BlockDraft}
    (hnodup : (entries.map Prod.fst).Nodup) :
    readBlockFields surplus entries d = .ok d' ↔ d.Fields surplus entries d' := by
  refine ⟨BlockDraft.fields_of_readBlockFields hnodup, ?_⟩
  intro h
  have hread : ∀ entry ∈ entries, ∀ d, ∃ d', BlockDraft.read surplus d entry = .ok d' := by
    rintro ⟨key, v⟩ hentry d₁
    refine BlockDraft.exists_read d' ?_ ?_ ?_ ?_ <;> rintro rfl
    · exact h.label.of_mem hnodup hentry
    · exact h.endLabel.of_mem hnodup hentry
    · exact h.span.of_mem hnodup hentry
    · exact h.statements.of_mem hnodup hentry
  obtain ⟨d₂, hd₂⟩ := exists_foldlM_eq_ok hread d
  rw [← readBlockFields_eq_foldlM] at hd₂
  rw [hd₂, (BlockDraft.fields_of_readBlockFields hnodup hd₂).unique h]

/-! ### Procedures -/

/-- An entry of a procedure is one of its fields or without a meaning. -/
theorem ProcedureDraft.sets_of_read {d d' : ProcedureDraft} {entry : String × Value}
    (h : ProcedureDraft.read d entry = .ok d') :
    Sets "name" (Reads readText) entry d.name d'.name ∧
      Sets "source" (Reads readText) entry d.source d'.source ∧
      Sets "body" (Reads readBlock) entry d.body d'.body := by
  unfold ProcedureDraft.read at h
  split at h
  · obtain ⟨name, hname, hd⟩ := bind_eq_ok_iff.mp h
    cases hd
    exact ⟨.inl ⟨rfl, name, hname, rfl⟩, .inr ⟨by simp, rfl⟩, .inr ⟨by simp, rfl⟩⟩
  · obtain ⟨source, hsource, hd⟩ := bind_eq_ok_iff.mp h
    cases hd
    exact ⟨.inr ⟨by simp, rfl⟩, .inl ⟨rfl, source, hsource, rfl⟩, .inr ⟨by simp, rfl⟩⟩
  · obtain ⟨body, hbody, hd⟩ := bind_eq_ok_iff.mp h
    cases hd
    exact ⟨.inr ⟨by simp, rfl⟩, .inr ⟨by simp, rfl⟩, .inl ⟨rfl, body, hbody, rfl⟩⟩
  · next hname hsource hbody =>
    cases h
    exact ⟨.inr ⟨fun hk => hname entry.2 (Prod.ext hk rfl), rfl⟩,
      .inr ⟨fun hk => hsource entry.2 (Prod.ext hk rfl), rfl⟩,
      .inr ⟨fun hk => hbody entry.2 (Prod.ext hk rfl), rfl⟩⟩

/-- An entry that says something of a procedure can be read. -/
theorem ProcedureDraft.exists_read {d : ProcedureDraft} {entry : String × Value}
    (said : ProcedureDraft) (hname : entry.1 = "name" → Reads readText entry.2 said.name)
    (hsource : entry.1 = "source" → Reads readText entry.2 said.source)
    (hbody : entry.1 = "body" → Reads readBlock entry.2 said.body) :
    ∃ d', ProcedureDraft.read d entry = .ok d' := by
  unfold ProcedureDraft.read
  split
  · obtain ⟨name, hname, _⟩ := hname rfl
    exact ⟨_, bind_eq_ok_iff.mpr ⟨name, hname, rfl⟩⟩
  · obtain ⟨source, hsource, _⟩ := hsource rfl
    exact ⟨_, bind_eq_ok_iff.mpr ⟨source, hsource, rfl⟩⟩
  · obtain ⟨body, hbody, _⟩ := hbody rfl
    exact ⟨_, bind_eq_ok_iff.mpr ⟨body, hbody, rfl⟩⟩
  · exact ⟨d, rfl⟩

/-- **A procedure by its fields.** Nothing else of the table counts. Its name and its body have to
be there; it is fresh from the document. -/
theorem readProcedure_eq_ok_iff {entries : Table} {p : Procedure}
    (hnodup : (entries.map Prod.fst).Nodup) :
    readProcedure entries = .ok p ↔
      entries.lookup "name" = some (.string p.name) ∧
        Field entries "source" (Reads readText) none p.source ∧
        (∃ v, entries.lookup "body" = some v ∧ readBlock v = .ok p.body) ∧ p.sourceId = 0 := by
  constructor
  · intro h
    obtain ⟨d, hd, h⟩ := bind_eq_ok_iff.mp h
    obtain ⟨name, hname, h⟩ := bind_eq_ok_iff.mp h
    obtain ⟨body, hbody, h⟩ := bind_eq_ok_iff.mp h
    cases h
    have hname' := Field.of_foldlM hnodup (fun hstep => (ProcedureDraft.sets_of_read hstep).1) hd
    have hsource := Field.of_foldlM hnodup (fun hstep => (ProcedureDraft.sets_of_read hstep).2.1) hd
    have hbody' := Field.of_foldlM hnodup (fun hstep => (ProcedureDraft.sets_of_read hstep).2.2) hd
    rw [required_eq_ok_iff.mp hname, field_some_iff] at hname'
    rw [required_eq_ok_iff.mp hbody, field_some_iff] at hbody'
    obtain ⟨v, hv, htext⟩ := hname'
    rw [readText_eq_ok_iff.mp htext] at hv
    exact ⟨hv, hsource, hbody', rfl⟩
  · rintro ⟨hname, hsource, ⟨v, hv, hbody⟩, hid⟩
    have hname : Field entries "name" (Reads readText) none (some p.name) :=
      field_some_iff.mpr ⟨_, hname, rfl⟩
    have hbody : Field entries "body" (Reads readBlock) none (some p.body) :=
      field_some_iff.mpr ⟨v, hv, hbody⟩
    have hread : ∀ entry ∈ entries, ∀ d, ∃ d', ProcedureDraft.read d entry = .ok d' := by
      rintro ⟨key, v⟩ hentry d
      refine ProcedureDraft.exists_read ⟨some p.name, p.source, some p.body⟩ ?_ ?_ ?_ <;> rintro rfl
      · exact hname.of_mem hnodup hentry
      · exact hsource.of_mem hnodup hentry
      · exact hbody.of_mem hnodup hentry
    obtain ⟨d, hd⟩ := exists_foldlM_eq_ok hread {}
    have hname' : d.name = some p.name :=
      (Field.of_foldlM hnodup (fun hstep => (ProcedureDraft.sets_of_read hstep).1) hd).unique
        Reads.unique hname
    have hsource' : d.source = p.source :=
      (Field.of_foldlM hnodup (fun hstep => (ProcedureDraft.sets_of_read hstep).2.1) hd).unique
        Reads.unique hsource
    have hbody' : d.body = some p.body :=
      (Field.of_foldlM hnodup (fun hstep => (ProcedureDraft.sets_of_read hstep).2.2) hd).unique
        Reads.unique hbody
    refine bind_eq_ok_iff.mpr ⟨d, hd, ?_⟩
    rw [hname', hbody', hsource', ← hid]
    rfl

end Document

end LabelCheck
