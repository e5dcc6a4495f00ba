import LabelCheck.Validation.Lexical

/-!
# The diagnostics of a validation

A validation reports the lexical diagnostics of the body, one by one and in their order: what is
wrong with the label of a block stands before what is wrong inside it, and what is wrong with the
label behind it after that. `Block.lexicalDiagnostics` is the reference. It is one recursion over
the statements that carries the blocks around them as a list, and it looks nothing up.

* `Statements.forall_mem_lexicalDiagnostics`: what every piece of the reference has, all of it has;
* `Diagnostic.WellMade`: what every diagnostic has, whatever it reports;
* `Procedure.validate_diagnostics`: a validation reports the reference and nothing else, and passes
  if and only if it holds warnings alone.
-/

namespace LabelCheck

/-! ### What every diagnostic has -/

/-- **A well-made diagnostic.** It belongs to the text of the procedure, it is a warning only when
the policy makes an unresolved label one, and only the check of an `ITERATE` has more to say than
the problem and its place. -/
structure Diagnostic.WellMade (policy : UnresolvedPolicy) (sourceId : Nat) (d : Diagnostic) :
    Prop where
  sourceId_eq : d.sourceId = sourceId
  isWarning_iff : d.isWarning = true ↔
    policy = .warn ∧ ∃ kind label, d.problem = .unresolvedLabel kind label
  /-- An unresolved label that the policy ignores is not reported. -/
  reported : ∀ kind label, d.problem = .unresolvedLabel kind label → policy ≠ .ignore
  plain : (∀ label block, d.problem ≠ .iterateTargetNotIteration label block) →
    d.notes = [] ∧ d.secondary = []

section Pieces

variable {P : Diagnostic → Prop} {c : Config} {sourceId : Nat}

/-- **What every piece of the reference has, all of it has.** The pieces are what is wrong with the
label before a block, with the label behind it, and with a transfer inside some blocks. -/
theorem Statements.forall_mem_lexicalDiagnostics
    (hlabel : ∀ h : Header, ∀ d ∈ h.labelDiagnostics sourceId, P d)
    (hend : ∀ h : Header, ∀ d ∈ h.endLabelDiagnostics c.matcher sourceId, P d)
    (htransfer : ∀ around kind r, ∀ d ∈ transferDiagnostics c sourceId around kind r, P d)
    (s : Statements) (around : List Header) :
    ∀ d ∈ s.lexicalDiagnostics c sourceId around, P d := by
  induction s generalizing around with
  | nil =>
    intro d hd
    cases hd
  | sql _ _ rest ih => exact ih around
  | transfer kind r rest ih =>
    intro d hd
    rcases List.mem_append.mp hd with hd | hd
    · exact htransfer around kind r d hd
    · exact ih around d hd
  | block header inner rest ihInner ihRest =>
    intro d hd
    -- Before, inside, behind, and in the rest.
    simp only [lexicalDiagnostics, List.mem_append] at hd
    rcases hd with ((hd | hd) | hd) | hd
    · exact hlabel header d hd
    · exact ihInner _ d hd
    · exact hend header d hd
    · exact ihRest around d hd

end Pieces

namespace Diagnostic

variable {policy : UnresolvedPolicy} {sourceId : Nat} {d : Diagnostic}

/-- An error of any other problem than an unresolved label is well made. -/
theorem wellMade_error {problem : Problem} {span : Option Span}
    (h : ∀ kind label, problem ≠ .unresolvedLabel kind label) :
    (error problem span sourceId).WellMade policy sourceId := by
  refine ⟨rfl, ?_, ?_, fun _ => ⟨rfl, rfl⟩⟩
  · constructor
    · intro hwarning
      cases hwarning
    · rintro ⟨_, kind, label, hproblem⟩
      exact absurd hproblem (h kind label)
  · intro kind label hproblem
    exact absurd hproblem (h kind label)

theorem wellMade_of_mem_labelDiagnostics {h : Header} (hd : d ∈ h.labelDiagnostics sourceId) :
    d.WellMade policy sourceId := by
  obtain ⟨label, _, _, rfl⟩ := Header.mem_labelDiagnostics_iff.mp hd
  refine wellMade_error ?_
  intro _ _ hproblem
  cases hproblem

theorem wellMade_of_mem_endLabelDiagnostics {m : NameMatcher} {h : Header}
    (hd : d ∈ h.endLabelDiagnostics m sourceId) : d.WellMade policy sourceId := by
  obtain ⟨stop, _, _, rfl⟩ := Header.mem_endLabelDiagnostics_iff.mp hd
  refine wellMade_error ?_
  intro _ _ hproblem
  cases hproblem

theorem wellMade_of_mem_policy {kind : TransferKind} {r : LabelReference}
    (hd : d ∈ policy.diagnostics sourceId kind r) : d.WellMade policy sourceId := by
  obtain ⟨hpolicy, rfl⟩ := UnresolvedPolicy.mem_diagnostics_iff.mp hd
  exact ⟨rfl, by simp [error], fun _ _ _ => hpolicy, fun _ => ⟨rfl, rfl⟩⟩

theorem wellMade_of_mem_iterateDiagnostics {h : Header} {r : LabelReference}
    (hd : d ∈ h.iterateDiagnostics sourceId r) : d.WellMade policy sourceId := by
  obtain ⟨_, rfl⟩ := Header.mem_iterateDiagnostics_iff.mp hd
  refine ⟨rfl, by simp [Header.iterateDiagnostic], ?_, fun h => absurd rfl (h _ _)⟩
  intro _ _ hproblem
  cases hproblem

theorem wellMade_of_mem_transferDiagnostics {c : Config} {around : List Header}
    {kind : TransferKind} {r : LabelReference}
    (hd : d ∈ transferDiagnostics c sourceId around kind r) : d.WellMade c.policy sourceId := by
  rcases mem_transferDiagnostics_iff.mp hd with ⟨_, hd⟩ | ⟨_, _, _, hd⟩
  · exact wellMade_of_mem_policy hd
  · exact wellMade_of_mem_iterateDiagnostics hd

end Diagnostic

/-- Every diagnostic of the reference is well made. -/
theorem Block.wellMade_of_mem_lexicalDiagnostics {c : Config} {sourceId : Nat} {b : Block}
    {d : Diagnostic} (hd : d ∈ b.lexicalDiagnostics c sourceId) : d.WellMade c.policy sourceId := by
  simp only [lexicalDiagnostics, List.mem_append] at hd
  rcases hd with (hd | hd) | hd
  · exact Diagnostic.wellMade_of_mem_labelDiagnostics hd
  · exact Statements.forall_mem_lexicalDiagnostics (P := fun d => d.WellMade c.policy sourceId)
      (fun _ _ => Diagnostic.wellMade_of_mem_labelDiagnostics)
      (fun _ _ => Diagnostic.wellMade_of_mem_endLabelDiagnostics)
      (fun _ _ _ _ => Diagnostic.wellMade_of_mem_transferDiagnostics) _ _ d hd
  · exact Diagnostic.wellMade_of_mem_endLabelDiagnostics hd

/-! ### Validation reports the reference -/

/-- A validation passes when it has reported warnings alone. -/
theorem Validation.passes_iff {v : Validation} :
    v.passes = true ↔ ∀ d ∈ v.diagnostics, d.isWarning = true := by
  unfold passes errors
  rw [List.isEmpty_iff, List.filter_eq_nil_iff]
  simp

/-- **Validation reports the lexical diagnostics.** It never meets a fault, what it reports is the
reference list of the body, element by element and in order, and every diagnostic is well made. The
validation passes exactly when none of them is an error. -/
theorem Procedure.validate_diagnostics (p : Procedure) (c : Config) (stamp : Stamp) :
    ∃ v, p.validate c stamp = .ok v ∧
      v.diagnostics = p.body.lexicalDiagnostics c p.sourceId ∧
      (∀ d ∈ v.diagnostics, d.WellMade c.policy p.sourceId) ∧
      (v.passes = true ↔ ∀ d ∈ v.diagnostics, d.isWarning = true) := by
  refine ⟨_, p.validate_eq c stamp, rfl, ?_, Validation.passes_iff⟩
  intro d hd
  exact Block.wellMade_of_mem_lexicalDiagnostics hd

end LabelCheck
