import Mathlib.Data.List.Find
import LabelCheck.Validation.Lexical

/-!
# Renaming identifiers

A validation asks of two identifiers only whether they match. A map on identifiers that carries the
matching of one matcher into that of another, on the identifiers of a procedure at least, therefore
commutes with validation: references are settled by the same blocks, and the diagnostics differ in
the names that they tell and in nothing else.

* `Procedure.rename`, `Diagnostic.rename`: every identifier replaced by its image;
* `Procedure.identifiers`: what is compared, the labels, end labels and targets;
* `PreservesMatching`: the condition on the map;
* `NameMatcher.delimit`: the map that writes each identifier in its canonical form, between
  delimiters, where no matcher looks at case;
* `Procedure.validate_rename`: the validation of a renamed procedure.

The induction over a body works with one fixed list of names that holds the identifiers of the body
and of the blocks around it, so that the condition does not change on the way down.
-/

namespace LabelCheck

/-! ### Replacing identifiers -/

section

variable (f : Identifier → Identifier)

/-- The same header with its labels replaced. -/
def Header.rename (h : Header) : Header :=
  { h with label := h.label.map f, endLabel := h.endLabel.map f }

/-- The same reference to the replaced label. -/
def LabelReference.rename (r : LabelReference) : LabelReference := { r with target := f r.target }

/-- The same sequence with its identifiers replaced. -/
def Statements.rename : Statements → Statements
  | nil => nil
  | sql text span rest => sql text span rest.rename
  | transfer kind r rest => transfer kind (r.rename f) rest.rename
  | block header inner rest => block (header.rename f) inner.rename rest.rename

/-- The same block with its identifiers replaced. -/
def Block.rename (b : Block) : Block := ⟨b.header.rename f, b.statements.rename f⟩

/-- **The same procedure with its identifiers replaced.** -/
def Procedure.rename (p : Procedure) : Procedure := { p with body := p.body.rename f }

/-- The same problem, told of other identifiers. -/
def Problem.rename : Problem → Problem
  | unresolvedLabel statement label => unresolvedLabel statement (f label)
  | labelMismatch start stop => labelMismatch (start.map f) (f stop)
  | iterateTargetNotIteration label block => iterateTargetNotIteration (f label) block
  | labelNotAllowed label block => labelNotAllowed (f label) block

/-- The same diagnostic, told of other identifiers. -/
def Diagnostic.rename (d : Diagnostic) : Diagnostic := { d with problem := d.problem.rename f }

/-! ### What a renaming leaves as it is -/

theorem Statements.blockCount_rename (s : Statements) :
    (s.rename f).blockCount = s.blockCount := by
  induction s with
  | nil => rfl
  | sql _ _ rest ih => exact ih
  | transfer _ _ rest ih => exact ih
  | block _ inner rest ihInner ihRest =>
    simp only [rename, blockCount]
    rw [ihInner, ihRest]

/-- The transfers of a renamed sequence are the renamed ones, in the same order. -/
theorem Statements.transfers_rename (s : Statements) :
    (s.rename f).transfers = s.transfers.map fun t => (t.1, t.2.rename f) := by
  induction s with
  | nil => rfl
  | sql _ _ rest ih => exact ih
  | transfer kind r rest ih =>
    simp only [rename, transfers, List.map_cons]
    rw [ih]
  | block _ inner rest ihInner ihRest =>
    simp only [rename, transfers, List.map_append]
    rw [ihInner, ihRest]

/-- What is wrong with the label before a block does not depend on the name. -/
theorem Header.labelDiagnostics_rename (h : Header) (sourceId : Nat) :
    (h.rename f).labelDiagnostics sourceId =
      (h.labelDiagnostics sourceId).map (Diagnostic.rename f) := by
  obtain ⟨kind, label, endLabel, span⟩ := h
  cases label with
  | none => rfl
  | some label => cases kind <;> rfl

/-- What an `ITERATE` may name depends on the kind of the block alone. -/
theorem Header.iterateDiagnostics_rename (h : Header) (r : LabelReference) (sourceId : Nat) :
    (h.rename f).iterateDiagnostics sourceId (r.rename f) =
      (h.iterateDiagnostics sourceId r).map (Diagnostic.rename f) := by
  obtain ⟨kind, label, endLabel, span⟩ := h
  cases kind <;> rfl

theorem UnresolvedPolicy.diagnostics_rename (policy : UnresolvedPolicy) (sourceId : Nat)
    (kind : TransferKind) (r : LabelReference) :
    policy.diagnostics sourceId kind (r.rename f) =
      (policy.diagnostics sourceId kind r).map (Diagnostic.rename f) := by
  cases policy <;> rfl

end

/-! ### The identifiers of a procedure -/

/-- The labels of a header. -/
def Header.identifiers (h : Header) : List Identifier := h.label.toList ++ h.endLabel.toList

theorem Header.mem_identifiers_of_label {h : Header} {label : Identifier}
    (hl : h.label = some label) : label ∈ h.identifiers := by
  refine List.mem_append_left _ ?_
  rw [hl]
  exact List.mem_cons_self

theorem Header.mem_identifiers_of_endLabel {h : Header} {stop : Identifier}
    (hs : h.endLabel = some stop) : stop ∈ h.identifiers := by
  refine List.mem_append_right _ ?_
  rw [hs]
  exact List.mem_cons_self

/-- The labels, end labels and targets of a sequence, at all depths. -/
def Statements.identifiers : Statements → List Identifier
  | nil => []
  | sql _ _ rest => rest.identifiers
  | transfer _ r rest => r.target :: rest.identifiers
  | block header inner rest => header.identifiers ++ (inner.identifiers ++ rest.identifiers)

/-- The labels, end labels and targets of a block and all inside it. -/
def Block.identifiers (b : Block) : List Identifier :=
  b.header.identifiers ++ b.statements.identifiers

/-- **The identifiers of a procedure:** every label, end label and target that occurs in it. -/
def Procedure.identifiers (p : Procedure) : List Identifier := p.body.identifiers

theorem Statements.target_mem_identifiers {s : Statements} {t : TransferKind × LabelReference}
    (h : t ∈ s.transfers) : t.2.target ∈ s.identifiers := by
  induction s with
  | nil => cases h
  | sql _ _ rest ih => exact ih h
  | transfer kind r rest ih =>
    rcases List.mem_cons.mp h with rfl | h
    · exact List.mem_cons_self
    · exact List.mem_cons_of_mem _ (ih h)
  | block header inner rest ihInner ihRest =>
    refine List.mem_append_right _ (List.mem_append.mpr ?_)
    exact (List.mem_append.mp h).imp ihInner ihRest

/-- Settling keeps the identifiers. -/
theorem Statements.identifiers_settled (m : NameMatcher) (around : List (BlockId × Header))
    (next : Nat) (s : Statements) : (s.settled m around next).identifiers = s.identifiers := by
  induction s generalizing around next with
  | nil => rfl
  | sql _ _ rest ih => exact ih around next
  | transfer _ _ rest ih => simp only [settled, identifiers, ih]
  | block header inner rest ihInner ihRest => simp only [settled, identifiers, ihInner, ihRest]

theorem Block.target_mem_identifiers_of_settled {m : NameMatcher} {b : Block}
    {t : TransferKind × LabelReference} (h : t ∈ (b.settled m).transfers) :
    t.2.target ∈ b.identifiers := by
  have htarget := Statements.target_mem_identifiers h
  rw [show (b.settled m).statements = b.statements.settled m _ 1 from rfl,
    Statements.identifiers_settled] at htarget
  exact List.mem_append_right _ htarget

/-- The map `f` carries the matching of `m₁` into that of `m₂`, as far as the names go that are
listed. It need not be injective, and names that match may have different images. -/
def PreservesMatching (m₁ m₂ : NameMatcher) (f : Identifier → Identifier)
    (names : List Identifier) : Prop :=
  ∀ x ∈ names, ∀ y ∈ names, m₁.accepts x y = m₂.accepts (f x) (f y)

instance (m₁ m₂ : NameMatcher) (f : Identifier → Identifier) (names : List Identifier) :
    Decidable (PreservesMatching m₁ m₂ f names) :=
  inferInstanceAs (Decidable (∀ x ∈ names, ∀ y ∈ names, m₁.accepts x y = m₂.accepts (f x) (f y)))

/-! ### Comparing renamed identifiers -/

section

variable {m₁ m₂ : NameMatcher} {f : Identifier → Identifier} {names : List Identifier}

/-- A header carries the image of a name when it carries the name. -/
theorem Header.carries_rename (hf : PreservesMatching m₁ m₂ f names) {h : Header}
    (hh : h.identifiers ⊆ names) {target : Identifier} (ht : target ∈ names) :
    (h.rename f).carries m₂ (f target) = h.carries m₁ target := by
  obtain ⟨kind, label, endLabel, span⟩ := h
  cases label with
  | none => rfl
  | some label => exact (hf label (hh List.mem_cons_self) target ht).symm

/-- The label behind a block is compared with the one before it. -/
theorem Header.endLabelDiagnostics_rename (hf : PreservesMatching m₁ m₂ f names) {h : Header}
    (hh : h.identifiers ⊆ names) (sourceId : Nat) :
    (h.rename f).endLabelDiagnostics m₂ sourceId =
      (h.endLabelDiagnostics m₁ sourceId).map (Diagnostic.rename f) := by
  cases hstop : h.endLabel with
  | none => simp only [endLabelDiagnostics, rename, hstop, Option.map_none, List.map_nil]
  | some stop =>
    -- The end label is one of the names and is looked for as a target would be.
    have hcarries := carries_rename hf hh (hh (mem_identifiers_of_endLabel hstop))
    simp only [rename, hstop, Option.map_some] at hcarries
    simp only [endLabelDiagnostics, rename, hstop, Option.map_some, hcarries]
    by_cases hc : h.carries m₁ stop = true
    · rw [if_pos hc, if_pos hc]
      rfl
    · rw [if_neg hc, if_neg hc]
      rfl

/-- **The first that carries the image of a name** is the image of the first that carries the name,
in any list of things that have a header. -/
theorem find?_carries_rename {α : Type} (header : α → Header) (g : α → α)
    (hg : ∀ e, header (g e) = (header e).rename f) (hf : PreservesMatching m₁ m₂ f names)
    {around : List α} (ha : ∀ e ∈ around, (header e).identifiers ⊆ names) {target : Identifier}
    (ht : target ∈ names) :
    (around.map g).find? (fun e => (header e).carries m₂ (f target)) =
      (around.find? fun e => (header e).carries m₁ target).map g := by
  rw [List.find?_map]
  refine congrArg (Option.map g) (List.find?_congr ?_)
  intro e he
  rw [Function.comp_apply, hg]
  exact Header.carries_rename hf (ha e he) ht

/-- The image of a name denotes the block that the name denotes. -/
theorem lexicalOutcome_rename (hf : PreservesMatching m₁ m₂ f names)
    {around : List (BlockId × Header)} (ha : ∀ e ∈ around, e.2.identifiers ⊆ names)
    {target : Identifier} (ht : target ∈ names) :
    lexicalOutcome m₂ (around.map fun e => (e.1, e.2.rename f)) (f target) =
      lexicalOutcome m₁ around target := by
  have hfind := find?_carries_rename Prod.snd (fun e => (e.1, e.2.rename f)) (fun _ => rfl) hf ha ht
  unfold lexicalOutcome
  rw [hfind, Option.map_map]
  rfl

/-! ### Going over a renamed body -/

/-- What is wrong with a renamed transfer. -/
theorem transferDiagnostics_rename {c₁ c₂ : Config} (hpolicy : c₁.policy = c₂.policy)
    (hf : PreservesMatching c₁.matcher c₂.matcher f names) {around : List Header}
    (ha : ∀ h ∈ around, h.identifiers ⊆ names) (kind : TransferKind) {r : LabelReference}
    (ht : r.target ∈ names) (sourceId : Nat) :
    transferDiagnostics c₂ sourceId (around.map (Header.rename f)) kind (r.rename f) =
      (transferDiagnostics c₁ sourceId around kind r).map (Diagnostic.rename f) := by
  have hfind : (around.map (Header.rename f)).find?
        (Header.carries c₂.matcher (r.rename f).target) =
      (around.find? (Header.carries c₁.matcher r.target)).map (Header.rename f) :=
    find?_carries_rename id (Header.rename f) (fun _ => rfl) hf ha ht
  unfold transferDiagnostics
  rw [hfind]
  cases around.find? (Header.carries c₁.matcher r.target) with
  | none =>
    -- Neither name is carried, and the one policy decides about both.
    rw [Option.map_none, ← hpolicy]
    cases kind <;> exact UnresolvedPolicy.diagnostics_rename f c₁.policy sourceId _ r
  | some h =>
    -- The blocks that were found are of one kind.
    cases kind with
    | leave => rfl
    | iterate => exact h.iterateDiagnostics_rename f r sourceId

namespace Statements

/-- **Settling commutes with a renaming.** -/
theorem settled_rename (hf : PreservesMatching m₁ m₂ f names) (s : Statements)
    (hs : s.identifiers ⊆ names) (around : List (BlockId × Header))
    (ha : ∀ e ∈ around, e.2.identifiers ⊆ names) (next : Nat) :
    (s.rename f).settled m₂ (around.map fun e => (e.1, e.2.rename f)) next =
      (s.settled m₁ around next).rename f := by
  induction s generalizing around next with
  | nil => rfl
  | sql text span rest ih =>
    simp only [rename, settled]
    rw [ih hs around ha]
  | transfer kind r rest ih =>
    obtain ⟨ht, hrest⟩ := List.cons_subset.mp hs
    have houtcome := lexicalOutcome_rename hf ha ht
    simp only [rename, settled, LabelReference.rename]
    rw [ih hrest around ha, houtcome]
  | block header inner rest ihInner ihRest =>
    obtain ⟨hheader, hs⟩ := List.append_subset.mp hs
    obtain ⟨hinner, hrest⟩ := List.append_subset.mp hs
    -- Inside the block its header stands in front of those around it.
    have ha' : ∀ e ∈ (⟨next⟩, header) :: around, e.2.identifiers ⊆ names :=
      List.forall_mem_cons.mpr ⟨hheader, ha⟩
    simp only [rename, settled]
    rw [← ihInner hinner _ ha', ihRest hrest around ha, blockCount_rename]
    rfl

/-- **The misuses of labels in a renamed sequence** are the renamed ones, in the same order. -/
theorem lexicalDiagnostics_rename {c₁ c₂ : Config} (hpolicy : c₁.policy = c₂.policy)
    (hf : PreservesMatching c₁.matcher c₂.matcher f names) (s : Statements)
    (hs : s.identifiers ⊆ names) (around : List Header)
    (ha : ∀ h ∈ around, h.identifiers ⊆ names) (sourceId : Nat) :
    (s.rename f).lexicalDiagnostics c₂ sourceId (around.map (Header.rename f)) =
      (s.lexicalDiagnostics c₁ sourceId around).map (Diagnostic.rename f) := by
  induction s generalizing around with
  | nil => rfl
  | sql text span rest ih => exact ih hs around ha
  | transfer kind r rest ih =>
    obtain ⟨ht, hrest⟩ := List.cons_subset.mp hs
    simp only [rename, lexicalDiagnostics, List.map_append]
    rw [ih hrest around ha, transferDiagnostics_rename hpolicy hf ha kind ht]
  | block header inner rest ihInner ihRest =>
    obtain ⟨hheader, hs⟩ := List.append_subset.mp hs
    obtain ⟨hinner, hrest⟩ := List.append_subset.mp hs
    have ha' : ∀ h ∈ header :: around, h.identifiers ⊆ names :=
      List.forall_mem_cons.mpr ⟨hheader, ha⟩
    have hin := ihInner hinner _ ha'
    rw [List.map_cons] at hin
    -- The pieces agree one by one, in the order in which they are reported.
    simp only [rename, lexicalDiagnostics, List.map_append]
    rw [header.labelDiagnostics_rename, hin, Header.endLabelDiagnostics_rename hf hheader,
      ihRest hrest around ha]

end Statements

namespace Block

theorem settled_rename {b : Block} (hf : PreservesMatching m₁ m₂ f b.identifiers) :
    (b.rename f).settled m₂ = (b.settled m₁).rename f := by
  obtain ⟨hheader, hstatements⟩ := List.append_subset.mp (List.Subset.refl b.identifiers)
  have hs := b.statements.settled_rename hf hstatements [(.root, b.header)]
    (List.forall_mem_singleton.mpr hheader) 1
  unfold settled rename
  rw [← hs]
  rfl

theorem lexicalDiagnostics_rename {c₁ c₂ : Config} (hpolicy : c₁.policy = c₂.policy) {b : Block}
    (hf : PreservesMatching c₁.matcher c₂.matcher f b.identifiers) (sourceId : Nat) :
    (b.rename f).lexicalDiagnostics c₂ sourceId =
      (b.lexicalDiagnostics c₁ sourceId).map (Diagnostic.rename f) := by
  obtain ⟨hheader, hstatements⟩ := List.append_subset.mp (List.Subset.refl b.identifiers)
  have hs := b.statements.lexicalDiagnostics_rename hpolicy hf hstatements [b.header]
    (List.forall_mem_singleton.mpr hheader) sourceId
  rw [List.map_singleton] at hs
  unfold lexicalDiagnostics rename
  rw [b.header.labelDiagnostics_rename, hs, Header.endLabelDiagnostics_rename hf hheader,
    List.map_append, List.map_append]

end Block

end

/-! ### Validating a renamed procedure -/

/-- Write an identifier in the form that the matcher compares, between delimiters. -/
def NameMatcher.delimit (m : NameMatcher) (i : Identifier) : Identifier :=
  .delimited (m.canonical i)

/-- A delimited name is compared as it stands, whether case counts or not. -/
theorem NameMatcher.canonical_delimited (m : NameMatcher) (name : String) :
    m.canonical (.delimited name) = name := by
  cases m <;> rfl

/-- Canonical forms are what every matcher compares of delimited names, so that writing them out
carries the matching of one matcher into that of any other. -/
theorem preservesMatching_delimit (m₁ m₂ : NameMatcher) (names : List Identifier) :
    PreservesMatching m₁ m₂ m₁.delimit names := by
  intro x _ y _
  unfold NameMatcher.accepts NameMatcher.delimit
  rw [m₂.canonical_delimited, m₂.canonical_delimited]

/-- The validation `w` says of the renamed procedure what `v` says of the procedure. -/
structure Validation.AgreesUpTo (f : Identifier → Identifier) (v w : Validation) : Prop where
  /-- References are settled alike, one by one in source order. -/
  resolutions_eq : w.procedure.transfers.map (fun t => t.2.resolution) =
    v.procedure.transfers.map (fun t => t.2.resolution)
  /-- Both pass, or neither does. -/
  passes_eq : w.passes = v.passes
  /-- The diagnostics are the same in the same order, told of the renamed identifiers. -/
  diagnostics_eq : w.diagnostics = v.diagnostics.map (Diagnostic.rename f)
  /-- The whole outcome is the renamed one. -/
  procedure_eq : w.procedure = v.procedure.rename f

namespace Validation

/-- A renaming does not change whether a diagnostic is an error. -/
theorem passes_eq_of_diagnostics_eq {f : Identifier → Identifier} {v w : Validation}
    (h : w.diagnostics = v.diagnostics.map (Diagnostic.rename f)) : w.passes = v.passes := by
  unfold passes errors
  rw [h, List.filter_map, List.isEmpty_map]
  rfl

/-- Two equations are enough for agreement. -/
theorem AgreesUpTo.of_eq {f : Identifier → Identifier} {v w : Validation}
    (hprocedure : w.procedure = v.procedure.rename f)
    (hdiagnostics : w.diagnostics = v.diagnostics.map (Diagnostic.rename f)) :
    AgreesUpTo f v w := by
  refine ⟨?_, passes_eq_of_diagnostics_eq hdiagnostics, hdiagnostics, hprocedure⟩
  have htransfers : w.procedure.transfers =
      v.procedure.transfers.map fun t => (t.1, t.2.rename f) := by
    rw [hprocedure]
    exact v.procedure.body.statements.transfers_rename f
  rw [htransfers, List.map_map]
  rfl

end Validation

namespace Procedure

/-- A map that preserves matching on the identifiers of a procedure commutes with validation. -/
theorem exists_validate_rename_eq_ok (p : Procedure) {c₁ c₂ : Config}
    (hpolicy : c₁.policy = c₂.policy) (stamp₁ stamp₂ : Stamp) {f : Identifier → Identifier}
    (hf : PreservesMatching c₁.matcher c₂.matcher f p.identifiers) :
    ∃ v w, p.validate c₁ stamp₁ = .ok v ∧ (p.rename f).validate c₂ stamp₂ = .ok w ∧
      v.AgreesUpTo f w := by
  refine ⟨_, _, p.validate_eq c₁ stamp₁, (p.rename f).validate_eq c₂ stamp₂, ?_⟩
  refine Validation.AgreesUpTo.of_eq ?_ (Block.lexicalDiagnostics_rename hpolicy hf p.sourceId)
  unfold rename
  rw [Block.settled_rename hf]

/-- **Validation depends on identifiers only through matching.** Under settings with one policy, a
map that preserves matching on the identifiers of a procedure gives a procedure that validates to
the same resolutions, the same result and the same diagnostics up to the map. So does writing out
the canonical forms of one matcher, whatever the other. -/
theorem validate_rename (p : Procedure) {c₁ c₂ : Config} (hpolicy : c₁.policy = c₂.policy)
    (stamp₁ stamp₂ : Stamp) :
    (∀ f, PreservesMatching c₁.matcher c₂.matcher f p.identifiers →
      ∃ v w, p.validate c₁ stamp₁ = .ok v ∧ (p.rename f).validate c₂ stamp₂ = .ok w ∧
        v.AgreesUpTo f w) ∧
    ∃ v w, p.validate c₁ stamp₁ = .ok v ∧
      (p.rename c₁.matcher.delimit).validate c₂ stamp₂ = .ok w ∧
      v.AgreesUpTo c₁.matcher.delimit w := by
  refine ⟨?_, ?_⟩
  · intro f hf
    exact p.exists_validate_rename_eq_ok hpolicy stamp₁ stamp₂ hf
  · exact p.exists_validate_rename_eq_ok hpolicy stamp₁ stamp₂
      (preservesMatching_delimit c₁.matcher c₂.matcher p.identifiers)

/-- A loop `l` that ends as `L`, around an `ITERATE` of `"l"`. -/
def cased : Procedure where
  name := "cased"
  body :=
    { header := { kind := .loop, label := some (.regular "l"), endLabel := some (.regular "L") }
      statements := .transfer .iterate { target := .delimited "l" } .nil }

/-- The theorem at a procedure that is renamed so that case counts although it does not. -/
theorem validate_rename_cased :
    Config.policy { caseSensitive := some true } = Config.policy {} ∧
      PreservesMatching .caseSensitive .caseInsensitive (fun i => .delimited i.name)
        cased.identifiers ∧
      ∃ v w, cased.validate { caseSensitive := some true } 0 = .ok v ∧
        (cased.rename fun i => .delimited i.name).validate {} 1 = .ok w ∧
        v.AgreesUpTo (fun i => .delimited i.name) w := by
  have hpolicy : Config.policy { caseSensitive := some true } = Config.policy {} := rfl
  have hf : PreservesMatching .caseSensitive .caseInsensitive (fun i => .delimited i.name)
      cased.identifiers := by decide
  exact ⟨hpolicy, hf, (validate_rename cased hpolicy 0 1).1 _ hf⟩

end Procedure

end LabelCheck
