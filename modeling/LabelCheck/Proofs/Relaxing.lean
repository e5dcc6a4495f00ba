import LabelCheck.Proofs.Nesting
import LabelCheck.Proofs.Renaming

/-!
# Comparing names without regard to case

If case no longer counts, more names match, provided that all names of a procedure are quoted alike:
of a regular and a delimited name with the same letters only the regular one is folded, and the two
match only as long as case counts. Under this condition a reference that is resolved stays resolved.
It may name another block than before, as the way outward may meet a block that carries the name
earlier, so the new block lies inside the old one. What is reported of labels that are not found and
of end labels that do not fit can only become less.

* `QuotedAlike`, `RelaxesMatching`: the condition on the names, and what follows from it;
* `Block.NearestAt.exists_relaxed`: the block that a name denotes, when more names match;
* `Block.placedDiagnostics`: what is reported of a body, with the address of the block or transfer
  that each diagnostic is about, where `Block.ReportedAt` says what this means;
* `Validation.Relaxes`: what the two validations of a procedure have to do with each other;
* `Procedure.validate_relaxed`: the validations with and without regard to case.

The diagnostics are compared as lists with addresses because the diagnostics of two statements may
be equal. The other kind of diagnostic on a transfer, an `ITERATE` of a block that does not repeat,
is left out of the comparison: it may come or go when a name comes to denote another block.
-/

namespace LabelCheck

/-! ### Names that are quoted alike -/

/-- Among the names that are listed, what the matcher `m` accepts the matcher `m'` accepts too. -/
def RelaxesMatching (m m' : NameMatcher) (names : List Identifier) : Prop :=
  ∀ x ∈ names, ∀ y ∈ names, m.accepts x y = true → m'.accepts x y = true

instance (m m' : NameMatcher) (names : List Identifier) :
    Decidable (RelaxesMatching m m' names) :=
  inferInstanceAs
    (Decidable (∀ x ∈ names, ∀ y ∈ names, m.accepts x y = true → m'.accepts x y = true))

/-- **Names that are quoted alike:** all are regular, or all are delimited. -/
def QuotedAlike (names : List Identifier) : Prop :=
  (∀ i ∈ names, i.quoted = false) ∨ ∀ i ∈ names, i.quoted = true

/-- Of names that are quoted alike more match if case does not count. -/
theorem QuotedAlike.relaxesMatching {names : List Identifier} (h : QuotedAlike names) :
    RelaxesMatching .caseSensitive .caseInsensitive names := by
  intro x hx y hy haccepts
  rw [NameMatcher.accepts_iff] at haccepts ⊢
  have hname : x.name = y.name := haccepts
  -- Either both names are folded or neither is.
  rcases h with hregular | hdelimited
  · simp [NameMatcher.canonical, hregular x hx, hregular y hy, hname]
  · simp [NameMatcher.canonical, hdelimited x hx, hdelimited y hy, hname]

/-- The delimited name is not folded, and the regular one is. -/
example : ¬ RelaxesMatching .caseSensitive .caseInsensitive [.regular "l", .delimited "l"] := by
  decide +kernel

/-- A header carries the names that it carried when fewer matched. -/
theorem Header.carries_of_relaxes {m m' : NameMatcher} {names : List Identifier}
    (hm : RelaxesMatching m m' names) {h : Header} (hh : h.identifiers ⊆ names)
    {target : Identifier} (ht : target ∈ names) (hcarries : h.carries m target = true) :
    h.carries m' target = true := by
  obtain ⟨label, hlabel, haccepts⟩ := (Option.any_eq_true _ _).mp hcarries
  have hmem : label ∈ names := hh (mem_identifiers_of_label hlabel)
  exact (Option.any_eq_true _ _).mpr ⟨label, hlabel, hm label hmem target ht haccepts⟩

/-- Delimited names are compared as they are written, whether case counts or not. -/
theorem preservesMatching_of_quoted {names : List Identifier} (h : ∀ i ∈ names, i.quoted = true)
    (m m' : NameMatcher) : PreservesMatching m m' id names := by
  -- What is compared of a delimited name is the name itself.
  have hcanonical : ∀ i ∈ names, ∀ m : NameMatcher, m.canonical i = i.name := by
    intro i hi m
    cases m with
    | caseSensitive => rfl
    | caseInsensitive => exact if_pos (h i hi)
  intro x hx y hy
  unfold NameMatcher.accepts
  rw [id, id, hcanonical x hx, hcanonical y hy, hcanonical x hx, hcanonical y hy]

/-! ### Matchers that agree on a procedure -/

theorem Header.rename_id (h : Header) : h.rename id = h := by
  unfold rename
  rw [Option.map_id, id, id]

theorem Statements.rename_id (s : Statements) : s.rename id = s := by
  induction s with
  | nil => rfl
  | sql text span rest ih => rw [rename, ih]
  | transfer kind r rest ih =>
    rw [rename, ih]
    rfl
  | block header inner rest ihInner ihRest => rw [rename, ihInner, ihRest, header.rename_id]

theorem Block.rename_id (b : Block) : b.rename id = b := by
  rw [rename, b.header.rename_id, b.statements.rename_id]

theorem Diagnostic.rename_id : Diagnostic.rename id = id := by
  funext d
  obtain ⟨problem, span, sourceId, isWarning, notes, secondary⟩ := d
  cases problem with
  | labelMismatch start stop => cases start <;> rfl
  | unresolvedLabel statement label => rfl
  | iterateTargetNotIteration label block => rfl
  | labelNotAllowed label block => rfl

/-- Settings with one policy whose matchers agree on the identifiers of a procedure cannot be told
apart by it. -/
theorem Procedure.validate_eq_of_preservesMatching {p : Procedure} {c c' : Config}
    (hpolicy : c.policy = c'.policy)
    (h : PreservesMatching c.matcher c'.matcher id p.identifiers) (stamp stamp' : Stamp) :
    p.validate c' stamp' = p.validate c stamp := by
  -- To leave all identifiers as they are is a renaming too.
  have hsettled := Block.settled_rename h
  have hdiagnostics := Block.lexicalDiagnostics_rename hpolicy h p.sourceId
  rw [Block.rename_id, Block.rename_id] at hsettled
  rw [Block.rename_id, Diagnostic.rename_id, List.map_id] at hdiagnostics
  rw [p.validate_eq, p.validate_eq, hsettled, hdiagnostics]

/-! ### The identifiers at an address -/

/-- The labels, end labels and targets of a statement and all inside it. -/
def Statement.identifiers : Statement → List Identifier
  | .sql _ _ => []
  | .transfer _ r => [r.target]
  | .block b => b.identifiers

/-- The identifiers of a sequence are those of its statements. -/
theorem Statements.identifiers_eq_flatMap (s : Statements) :
    s.identifiers = s.toList.flatMap Statement.identifiers := by
  induction s with
  | nil => rfl
  | sql _ _ rest ih => exact ih
  | transfer _ r rest ih => exact congrArg (r.target :: ·) ih
  | block header inner rest _ ih =>
    -- Only the rest is opened. A nested block is one of the statements and counts as a whole.
    rw [identifiers, ih, ← List.append_assoc]
    rfl

theorem Statements.identifiers_subset {s : Statements} {i : Nat} {item : Statement}
    (h : s.toList[i]? = some item) : item.identifiers ⊆ s.identifiers := by
  intro name hname
  rw [s.identifiers_eq_flatMap]
  exact List.mem_flatMap.mpr ⟨item, List.mem_of_getElem? h, hname⟩

namespace Block

variable {m m' : NameMatcher} {b inner : Block} {a q : Address} {i : Nat} {target : Identifier}

theorem identifiers_subset_of_at? (h : b.at? a = some inner) :
    inner.identifiers ⊆ b.identifiers := by
  induction a generalizing b with
  | nil =>
    cases h
    exact List.Subset.refl _
  | cons i a ih =>
    obtain ⟨child, hi, hat⟩ := at?_cons_eq_some_iff.mp h
    have hchild : child.identifiers ⊆ b.statements.identifiers := Statements.identifiers_subset hi
    exact List.Subset.trans (ih hat) (List.subset_append_of_subset_right _ hchild)

theorem target_mem_identifiers {kind : TransferKind} {r : LabelReference}
    (h : b.statement? a i = some (.transfer kind r)) : r.target ∈ b.identifiers := by
  obtain ⟨inner, hat, hi⟩ := Option.bind_eq_some_iff.mp h
  have htarget : r.target ∈ inner.statements.identifiers :=
    Statements.identifiers_subset hi List.mem_cons_self
  exact identifiers_subset_of_at? hat (List.mem_append_right _ htarget)

/-! ### The way outward, when more names match -/

/-- A name that a block on the way carries denotes this block or one further in. -/
theorem CarriesAt.exists_nearestAt (h : b.CarriesAt m target q) (hq : q <+: a) :
    ∃ q', b.NearestAt m target a q' ∧ q <+: q' := by
  have hcarries := carriesAt_eq_true_iff.mpr h
  cases hf : (Address.outward a).find? (b.carriesAt m target) with
  -- The search does not come to its end without a block, for it would meet the one at `q`.
  | none => exact absurd hcarries (Address.find?_outward_eq_none_iff.mp hf q hq)
  | some q' =>
    rw [Address.find?_outward_eq_some_iff] at hf
    simp only [carriesAt_eq_true_iff] at hf
    obtain ⟨hq', hcarries', hfirst⟩ := hf
    exact ⟨q', ⟨hq', hcarries', hfirst⟩, hfirst q hq h⟩

/-- A block carries the names that it carried when fewer matched. -/
theorem CarriesAt.relaxed (hm : RelaxesMatching m m' b.identifiers) (ht : target ∈ b.identifiers)
    (h : b.CarriesAt m target q) : b.CarriesAt m' target q := by
  rw [← carriesAt_eq_true_iff, carriesAt, Option.any_eq_true] at h ⊢
  obtain ⟨inner, hat, hcarries⟩ := h
  -- The condition speaks of the names of the whole body, and the label is one of them.
  have hheader : inner.header.identifiers ⊆ b.identifiers :=
    List.Subset.trans (List.subset_append_left _ _) (identifiers_subset_of_at? hat)
  exact ⟨inner, hat, Header.carries_of_relaxes hm hheader ht hcarries⟩

/-- **When more names match, a name denotes the same block or one inside it** that is still on the
way. -/
theorem NearestAt.exists_relaxed (hm : RelaxesMatching m m' b.identifiers)
    (ht : target ∈ b.identifiers) (h : b.NearestAt m target a q) :
    ∃ q', b.NearestAt m' target a q' ∧ q <+: q' :=
  (h.carries.relaxed hm ht).exists_nearestAt h.encloses

/-- A transfer of the body that is resolved stays resolved when more names match, to the same block
or to one inside it. -/
theorem exists_resolved_of_relaxes (hm : RelaxesMatching m m' b.identifiers)
    {kind : TransferKind} {r : LabelReference} {id : BlockId}
    (h : (b.settled m).statement? a i = some (.transfer kind r))
    (hid : r.resolution = .resolved id) :
    ∃ q q', b.NearestAt m r.target a q ∧ id = ⟨b.numberAt q⟩ ∧ b.NearestAt m' r.target a q' ∧
      q <+: q' ∧ (b.settled m').statement? a i =
        some (.transfer kind { r with resolution := .resolved ⟨b.numberAt q'⟩ }) := by
  obtain ⟨r, hbefore, rfl⟩ := exists_of_statement?_settled h
  -- When fewer matched, the target denoted the first block on the way that carries it.
  have hresolves := resolvesAt_lexicalOutcome m r.target b a
  obtain ⟨q, hq, hnumber⟩ := (hresolves.resolved_iff id).mp hid
  -- This block still carries it, so that the search ends there or further in.
  obtain ⟨q', hq', hfurther⟩ := hq.exists_relaxed hm (target_mem_identifiers hbefore)
  have hresolves' := resolvesAt_lexicalOutcome m' r.target b a
  have hid' := (hresolves'.resolved_iff _).mpr ⟨q', hq', rfl⟩
  have hafter : (b.settled m').statement? a i =
      some (.transfer kind { r with resolution := .resolved ⟨b.numberAt q'⟩ }) := by
    rw [← hid']
    exact statement?_settled hbefore
  exact ⟨q, q', hq, hnumber, hq', hfurther, hafter⟩

end Block

/-! ### Diagnostics with their places in the tree -/

/-- What is wrong at an address. -/
def Address.placed (a : Address) (ds : List Diagnostic) : List (Address × Diagnostic) :=
  ds.map fun d => (a, d)

/-- What is wrong inside the blocks `around`, in source order, each diagnostic with the address of
the block or transfer that it is about. The sequence stands in the block at `a`, from the place `i`
on. -/
def Statements.placedDiagnostics (c : Config) (sourceId : Nat) :
    (around : List Header) → (a : Address) → (i : Nat) → Statements → List (Address × Diagnostic)
  | _, _, _, nil => []
  | around, a, i, sql _ _ rest => rest.placedDiagnostics c sourceId around a (i + 1)
  | around, a, i, transfer kind r rest =>
    Address.placed (a ++ [i]) (transferDiagnostics c sourceId around kind r) ++
      rest.placedDiagnostics c sourceId around a (i + 1)
  | around, a, i, block h inner rest =>
    Address.placed (a ++ [i]) (h.labelDiagnostics sourceId) ++
      inner.placedDiagnostics c sourceId (h :: around) (a ++ [i]) 0 ++
      Address.placed (a ++ [i]) (h.endLabelDiagnostics c.matcher sourceId) ++
      rest.placedDiagnostics c sourceId around a (i + 1)

/-- **What is wrong with a body, and where.** The address of a transfer goes one step further than
that of the block that holds it. -/
def Block.placedDiagnostics (c : Config) (sourceId : Nat) (b : Block) :
    List (Address × Diagnostic) :=
  Address.placed [] (b.header.labelDiagnostics sourceId) ++
    b.statements.placedDiagnostics c sourceId [b.header] [] 0 ++
    Address.placed [] (b.header.endLabelDiagnostics c.matcher sourceId)

/-- The diagnostic `d` is about the block or the transfer at an address. -/
inductive Block.ReportedAt (c : Config) (sourceId : Nat) (b : Block) :
    Address → Diagnostic → Prop
  | label {a inner d} (hat : b.at? a = some inner)
      (hd : d ∈ inner.header.labelDiagnostics sourceId) : ReportedAt c sourceId b a d
  | endLabel {a inner d} (hat : b.at? a = some inner)
      (hd : d ∈ inner.header.endLabelDiagnostics c.matcher sourceId) : ReportedAt c sourceId b a d
  /-- The transfer is judged by the headers on the way outward from the block that holds it. -/
  | transfer {a i kind r d} (hat : b.statement? a i = some (.transfer kind r))
      (hd : d ∈ transferDiagnostics c sourceId ((b.enclosing 0 a).map Prod.snd) kind r) :
      ReportedAt c sourceId b (a ++ [i]) d

section

variable {c c' : Config} {sourceId : Nat}

@[simp] theorem Address.map_snd_placed (a : Address) (ds : List Diagnostic) :
    (Address.placed a ds).map Prod.snd = ds := by
  unfold placed
  rw [List.map_map]
  exact List.map_id ds

theorem Address.forall_mem_placed {P : Address × Diagnostic → Prop} {a : Address}
    {ds : List Diagnostic} (h : ∀ d ∈ ds, P (a, d)) : ∀ entry ∈ Address.placed a ds, P entry :=
  List.forall_mem_map.mpr h

/-- Without their addresses they are the diagnostics of the reference. -/
theorem Statements.map_snd_placedDiagnostics (s : Statements) (around : List Header) (a : Address)
    (i : Nat) : (s.placedDiagnostics c sourceId around a i).map Prod.snd =
      s.lexicalDiagnostics c sourceId around := by
  induction s generalizing around a i with
  | nil => rfl
  | sql _ _ rest ih => exact ih around a (i + 1)
  | transfer kind r rest ih =>
    simp only [placedDiagnostics, lexicalDiagnostics, List.map_append, Address.map_snd_placed, ih]
  | block h inner rest ihInner ihRest =>
    simp only [placedDiagnostics, lexicalDiagnostics, List.map_append, Address.map_snd_placed,
      ihInner, ihRest]

theorem Block.map_snd_placedDiagnostics (c : Config) (sourceId : Nat) (b : Block) :
    (b.placedDiagnostics c sourceId).map Prod.snd = b.lexicalDiagnostics c sourceId := by
  simp only [placedDiagnostics, lexicalDiagnostics, List.map_append, Address.map_snd_placed,
    Statements.map_snd_placedDiagnostics]

/-- The addresses are right. The sequence is what stands in the block `outer` from the place `i` on,
and the blocks around it are those on the way to `outer`. -/
theorem Statements.reportedAt_of_mem_placedDiagnostics {b outer : Block} (s : Statements)
    {a : Address} {i : Nat} {around : List Header} (hat : b.at? a = some outer)
    (hs : StandsAt i s.toList outer.statements.toList)
    (haround : (b.enclosing 0 a).map Prod.snd = around) :
    ∀ entry ∈ s.placedDiagnostics c sourceId around a i,
      b.ReportedAt c sourceId entry.1 entry.2 := by
  -- Going on in the sequence moves the place `i`, going into a block moves `outer` and begins at
  -- the first place again.
  induction s generalizing outer a i around with
  | nil => simp [placedDiagnostics]
  | sql text span rest ih => exact ih hat hs.tail haround
  | transfer kind r rest ih =>
    refine List.forall_mem_append.mpr ⟨Address.forall_mem_placed ?_, ih hat hs.tail haround⟩
    intro d hd
    have hhere : b.statement? a i = some (.transfer kind r) :=
      Option.bind_eq_some_iff.mpr ⟨outer, hat, hs.getElem?⟩
    rw [← haround] at hd
    exact .transfer hhere hd
  | block h inner rest ihInner ihRest =>
    have hhere : b.at? (a ++ [i]) = some ⟨h, inner⟩ :=
      Block.at?_concat_eq_some_iff.mpr ⟨outer, hat, hs.getElem?⟩
    -- Inside the block its header stands in front of those around it.
    have hway : (b.enclosing 0 (a ++ [i])).map Prod.snd = h :: around := by
      rw [Block.enclosing_concat hhere, List.map_cons, haround]
    refine List.forall_mem_append.mpr ⟨List.forall_mem_append.mpr
      ⟨List.forall_mem_append.mpr ⟨Address.forall_mem_placed ?_, ?_⟩,
        Address.forall_mem_placed ?_⟩, ?_⟩
    · intro d hd
      exact .label hhere hd
    · exact ihInner hhere (.refl _) hway
    · intro d hd
      exact .endLabel hhere hd
    · exact ihRest hat hs.tail haround

theorem Block.reportedAt_of_mem_placedDiagnostics (c : Config) (sourceId : Nat) (b : Block) :
    ∀ entry ∈ b.placedDiagnostics c sourceId, b.ReportedAt c sourceId entry.1 entry.2 := by
  have hat : b.at? [] = some b := rfl
  refine List.forall_mem_append.mpr ⟨List.forall_mem_append.mpr
    ⟨Address.forall_mem_placed fun d hd => .label hat hd, ?_⟩,
    Address.forall_mem_placed fun d hd => .endLabel hat hd⟩
  exact b.statements.reportedAt_of_mem_placedDiagnostics hat (.refl _) rfl

/-! ### Names that are missed -/

/-- Whether a diagnostic tells of a label that is not found or of an end label that does not fit. -/
def Diagnostic.missesMatch (d : Diagnostic) : Bool :=
  match d.problem with
  | .unresolvedLabel .. | .labelMismatch .. => true
  | .iterateTargetNotIteration .. | .labelNotAllowed .. => false

/-- Of `ds'` at most as much is reported as of `ds`, as far as names are missed. -/
def MissesLess (ds' ds : List (Address × Diagnostic)) : Prop :=
  List.Sublist (ds'.filter fun entry => entry.2.missesMatch)
    (ds.filter fun entry => entry.2.missesMatch)

theorem MissesLess.refl (ds : List (Address × Diagnostic)) : MissesLess ds ds :=
  List.Sublist.refl _

theorem MissesLess.append {ds' ds es' es : List (Address × Diagnostic)} (h : MissesLess ds' ds)
    (h' : MissesLess es' es) : MissesLess (ds' ++ es') (ds ++ es) := by
  unfold MissesLess
  rw [List.filter_append, List.filter_append]
  exact List.Sublist.append h h'

/-- Diagnostics of other kinds do not count. -/
theorem MissesLess.of_forall {a : Address} {ds : List Diagnostic}
    (h : ∀ d ∈ ds, d.missesMatch = false) (es : List (Address × Diagnostic)) :
    MissesLess (Address.placed a ds) es := by
  have hnone : (Address.placed a ds).filter (fun entry => entry.2.missesMatch) = [] := by
    rw [List.filter_eq_nil_iff]
    refine Address.forall_mem_placed fun d hd => ?_
    rw [h d hd]
    exact Bool.false_ne_true
  unfold MissesLess
  rw [hnone]
  exact List.nil_sublist _

theorem missesMatch_of_mem_iterateDiagnostics {h : Header} {r : LabelReference} {d : Diagnostic}
    (hd : d ∈ h.iterateDiagnostics sourceId r) : d.missesMatch = false := by
  obtain ⟨_, rfl⟩ := Header.mem_iterateDiagnostics_iff.mp hd
  rfl

variable {names : List Identifier}

/-- An end label that fitted still fits. -/
theorem Header.missesLess_endLabelDiagnostics {m m' : NameMatcher} (sourceId : Nat)
    (hm : RelaxesMatching m m' names) {h : Header} (hh : h.identifiers ⊆ names) (a : Address) :
    MissesLess (Address.placed a (h.endLabelDiagnostics m' sourceId))
      (Address.placed a (h.endLabelDiagnostics m sourceId)) := by
  cases hstop : h.endLabel with
  | none =>
    simp only [endLabelDiagnostics, hstop]
    exact .refl _
  | some stop =>
    have hmem : stop ∈ names := hh (mem_identifiers_of_endLabel hstop)
    simp only [endLabelDiagnostics, hstop]
    -- Either the end label fits now, or it did not fit before either.
    by_cases hcarries' : h.carries m' stop = true
    · rw [if_pos hcarries']
      exact List.nil_sublist _
    · have hcarries : ¬ h.carries m stop = true := fun hc =>
        hcarries' (carries_of_relaxes hm hh hmem hc)
      rw [if_neg hcarries, if_neg hcarries']
      exact .refl _

/-- A label that was found is still found. -/
theorem missesLess_transferDiagnostics (sourceId : Nat)
    (hm : RelaxesMatching c.matcher c'.matcher names) (hpolicy : c.policy = c'.policy)
    {around : List Header} (ha : ∀ h ∈ around, h.identifiers ⊆ names) (kind : TransferKind)
    {r : LabelReference} (ht : r.target ∈ names) (a : Address) :
    MissesLess (Address.placed a (transferDiagnostics c' sourceId around kind r))
      (Address.placed a (transferDiagnostics c sourceId around kind r)) := by
  unfold transferDiagnostics
  cases hf' : around.find? (Header.carries c'.matcher r.target) with
  | some h =>
    -- The only problem that may be left is that the block does not repeat.
    cases kind with
    | leave => exact List.nil_sublist _
    | iterate => exact .of_forall (fun _ => missesMatch_of_mem_iterateDiagnostics) _
  | none =>
    -- A block that carried the name would still carry it.
    have hf : around.find? (Header.carries c.matcher r.target) = none := by
      rw [List.find?_eq_none] at hf' ⊢
      intro h hh hcarries
      exact hf' h hh (Header.carries_of_relaxes hm (ha h hh) ht hcarries)
    rw [hf, hpolicy]
    exact .refl _

/-- **When more names match, fewer are missed,** and each of those at the same place as before. -/
theorem Statements.missesLess_placedDiagnostics (s : Statements) (sourceId : Nat)
    (hm : RelaxesMatching c.matcher c'.matcher names) (hpolicy : c.policy = c'.policy)
    (hs : s.identifiers ⊆ names) (around : List Header)
    (ha : ∀ h ∈ around, h.identifiers ⊆ names) (a : Address) (i : Nat) :
    MissesLess (s.placedDiagnostics c' sourceId around a i)
      (s.placedDiagnostics c sourceId around a i) := by
  -- The two listings are made by the same recursion and are compared piece by piece. The list of
  -- names stays the same all the way down.
  induction s generalizing around a i with
  | nil => exact .refl _
  | sql text span rest ih => exact ih hs around ha a (i + 1)
  | transfer kind r rest ih =>
    obtain ⟨ht, hrest⟩ := List.cons_subset.mp hs
    have hhere := missesLess_transferDiagnostics sourceId hm hpolicy ha kind ht (a ++ [i])
    exact hhere.append (ih hrest around ha a (i + 1))
  | block h inner rest ihInner ihRest =>
    obtain ⟨hheader, hs⟩ := List.append_subset.mp hs
    obtain ⟨hinner, hrest⟩ := List.append_subset.mp hs
    have ha' : ∀ outer ∈ h :: around, outer.identifiers ⊆ names :=
      List.forall_mem_cons.mpr ⟨hheader, ha⟩
    have hend := Header.missesLess_endLabelDiagnostics sourceId hm hheader (a ++ [i])
    have hinside := ihInner hinner (h :: around) ha' (a ++ [i]) 0
    have hbehind := ihRest hrest around ha a (i + 1)
    -- What is wrong with the label before the block does not depend on the matcher.
    exact (((MissesLess.refl _).append hinside).append hend).append hbehind

theorem Block.missesLess_placedDiagnostics {b : Block} (sourceId : Nat)
    (hm : RelaxesMatching c.matcher c'.matcher b.identifiers) (hpolicy : c.policy = c'.policy) :
    MissesLess (b.placedDiagnostics c' sourceId) (b.placedDiagnostics c sourceId) := by
  obtain ⟨hheader, hstatements⟩ := List.append_subset.mp (List.Subset.refl b.identifiers)
  have hinside := b.statements.missesLess_placedDiagnostics sourceId hm hpolicy
    hstatements [b.header] (List.forall_mem_singleton.mpr hheader) [] 0
  have hend := Header.missesLess_endLabelDiagnostics sourceId hm hheader []
  exact ((MissesLess.refl _).append hinside).append hend

end

/-! ### Validating without regard to case -/

/-- The validations `v` and `w` are of the procedure `p` under the settings `c` and `c'`, where more
names match under `c'`. -/
structure Validation.Relaxes (p : Procedure) (c c' : Config) (v w : Validation) : Prop where
  /-- A transfer that is resolved stays resolved, to the same block or to one inside it that is
  still on the way outward. The blocks are those that the name denotes under either settings. -/
  resolved : ∀ a i kind r id, v.procedure.body.statement? a i = some (.transfer kind r) →
    r.resolution = .resolved id → ∃ q q',
      p.body.NearestAt c.matcher r.target a q ∧ id = ⟨p.body.numberAt q⟩ ∧
      p.body.NearestAt c'.matcher r.target a q' ∧ q <+: q' ∧
      w.procedure.body.statement? a i =
        some (.transfer kind { r with resolution := .resolved ⟨p.body.numberAt q'⟩ })
  /-- What is reported, by the blocks and transfers that it is about. -/
  diagnostics_eq : v.diagnostics = (p.body.placedDiagnostics c p.sourceId).map Prod.snd
  diagnostics_eq' : w.diagnostics = (p.body.placedDiagnostics c' p.sourceId).map Prod.snd
  reportedAt : ∀ entry ∈ p.body.placedDiagnostics c p.sourceId,
    p.body.ReportedAt c p.sourceId entry.1 entry.2
  reportedAt' : ∀ entry ∈ p.body.placedDiagnostics c' p.sourceId,
    p.body.ReportedAt c' p.sourceId entry.1 entry.2
  /-- Labels that are not found and end labels that do not fit are reported at most where they were
  reported before, in the same order and the same words. -/
  missesLess : MissesLess (p.body.placedDiagnostics c' p.sourceId)
    (p.body.placedDiagnostics c p.sourceId)

namespace Procedure

/-- **Comparing names without regard to case** keeps what is resolved and reports no more names as
missed, if the names of a procedure are quoted alike. If all are delimited, nothing changes. -/
theorem validate_relaxed (p : Procedure) {c c' : Config} (hm : c.matcher = .caseSensitive)
    (hm' : c'.matcher = .caseInsensitive) (hpolicy : c.policy = c'.policy)
    (hquoted : QuotedAlike p.identifiers) (stamp stamp' : Stamp) :
    ∃ v w, p.validate c stamp = .ok v ∧ p.validate c' stamp' = .ok w ∧
      v.Relaxes p c c' w ∧ ((∀ i ∈ p.identifiers, i.quoted = true) → w = v) := by
  have hrelaxes : RelaxesMatching c.matcher c'.matcher p.body.identifiers := by
    rw [hm, hm']
    exact hquoted.relaxesMatching
  refine ⟨_, _, p.validate_eq c stamp, p.validate_eq c' stamp', ?_, ?_⟩
  · constructor
    case resolved =>
      intro a i kind r id hr hid
      exact Block.exists_resolved_of_relaxes hrelaxes hr hid
    case diagnostics_eq => exact (Block.map_snd_placedDiagnostics _ _ _).symm
    case diagnostics_eq' => exact (Block.map_snd_placedDiagnostics _ _ _).symm
    case reportedAt => exact Block.reportedAt_of_mem_placedDiagnostics _ _ _
    case reportedAt' => exact Block.reportedAt_of_mem_placedDiagnostics _ _ _
    case missesLess => exact Block.missesLess_placedDiagnostics _ hrelaxes hpolicy
  · intro hdelimited
    -- The two matchers cannot be told apart by delimited names.
    have hsame : PreservesMatching c.matcher c'.matcher id p.identifiers :=
      preservesMatching_of_quoted hdelimited _ _
    have hvalidate := validate_eq_of_preservesMatching hpolicy hsame stamp stamp'
    rw [p.validate_eq, p.validate_eq] at hvalidate
    exact Except.ok.inj hvalidate

/-- A block `l` around a loop `L` that ends as `l`, with a transfer to `l` inside and one to `x`. -/
def echoed : Procedure where
  name := "echoed"
  body :=
    { header := { kind := .beginEnd, label := some (.regular "l") }
      statements :=
        .block { kind := .loop, label := some (.regular "L"), endLabel := some (.regular "l") }
          (.transfer .leave { target := .regular "l" }
            (.transfer .leave { target := .regular "x" } .nil)) .nil }

/-- The theorem at a procedure in which a transfer is resolved further in if case does not count and
the end label of the loop fits only then. -/
theorem validate_relaxed_echoed :
    Config.matcher { caseSensitive := some true } = .caseSensitive ∧
      Config.matcher {} = .caseInsensitive ∧
      Config.policy { caseSensitive := some true } = Config.policy {} ∧
      QuotedAlike echoed.identifiers ∧
      ∃ v w, echoed.validate { caseSensitive := some true } 0 = .ok v ∧
        echoed.validate {} 1 = .ok w ∧ v.Relaxes echoed { caseSensitive := some true } {} w ∧
        ((∀ i ∈ echoed.identifiers, i.quoted = true) → w = v) := by
  have hm : Config.matcher { caseSensitive := some true } = .caseSensitive := rfl
  have hm' : Config.matcher {} = .caseInsensitive := rfl
  have hpolicy : Config.policy { caseSensitive := some true } = Config.policy {} := rfl
  have hquoted : QuotedAlike echoed.identifiers := .inl (by decide)
  exact ⟨hm, hm', hpolicy, hquoted, validate_relaxed echoed hm hm' hpolicy hquoted 0 1⟩

end Procedure

end LabelCheck
