import LabelCheck.Proofs.Diagnostics
import Mathlib.Data.List.Basic

/-!
# The policy for unresolved labels

Settings that compare names in the same way settle every reference in the same way. What else they
say, their policy, bears on the diagnostics of unresolved labels and on no other: as errors they are
the reference, as warnings the same diagnostics stand at the same places, and if they are ignored
the same diagnostics are left out.

* `Diagnostic.unresolved?`, `notFound?`: the transfer and the name of an unresolved label, told by a
  diagnostic and by a resolution;
* `UnresolvedPolicy.restate`: what becomes of an error under a policy;
* `Block.lexicalDiagnostics_restate`: the reference under a policy, from the one in which every
  unresolved label is an error;
* `Validation.AgreesUnder`: what it means that two validations differ by their policies alone;
* `Procedure.validate_policy`: the validations of a procedure under two such settings.
-/

namespace LabelCheck

/-! ### Unresolved labels -/

/-- The transfer and the name that a diagnostic tells of, if it tells of an unresolved label. -/
def Diagnostic.unresolved? (d : Diagnostic) : Option (TransferKind × Identifier) :=
  match d.problem with
  | .unresolvedLabel statement label => some (statement, label)
  | .labelMismatch .. | .iterateTargetNotIteration .. | .labelNotAllowed .. => none

/-- The transfer and the name of a resolution that found nothing. -/
def notFound? : TransferKind × Identifier × Resolution → Option (TransferKind × Identifier)
  | (kind, target, .notFound) => some (kind, target)
  | (_, _, .resolved _) | (_, _, .unresolved) => none

/-- The diagnostic as a warning, if it tells of an unresolved label. -/
def Diagnostic.softened (d : Diagnostic) : Diagnostic :=
  if d.unresolved?.isSome then { d with isWarning := true } else d

/-- What becomes under a policy of a diagnostic that tells of an unresolved label as an error. -/
def UnresolvedPolicy.restate (policy : UnresolvedPolicy) (d : Diagnostic) : Option Diagnostic :=
  match policy with
  | error => some d
  | warn => some d.softened
  | ignore => if d.unresolved?.isSome then none else some d

namespace Diagnostic

variable {policy : UnresolvedPolicy} {sourceId : Nat} {d : Diagnostic}

theorem unresolved?_eq_none_iff :
    d.unresolved? = none ↔ ∀ kind label, d.problem ≠ .unresolvedLabel kind label := by
  unfold unresolved?
  cases d.problem <;> simp

theorem isSome_unresolved?_iff :
    d.unresolved?.isSome = true ↔ ∃ kind label, d.problem = .unresolvedLabel kind label := by
  unfold unresolved?
  cases d.problem <;> simp

/-- Every policy leaves the other diagnostics as they are. -/
theorem restate_of_unresolved?_eq_none (h : d.unresolved? = none) : policy.restate d = some d := by
  cases policy <;> simp [UnresolvedPolicy.restate, softened, h]

@[simp] theorem unresolved?_softened (d : Diagnostic) : d.softened.unresolved? = d.unresolved? := by
  unfold softened
  split <;> rfl

/-- Only the problem tells whether a label is unresolved. -/
theorem unresolved?_of_restate_eq_some {d' : Diagnostic} (h : policy.restate d = some d') :
    d'.unresolved? = d.unresolved? := by
  cases policy with
  | error =>
    injection h with h
    rw [h]
  | warn =>
    injection h with h
    rw [← h, unresolved?_softened]
  | ignore =>
    simp only [UnresolvedPolicy.restate, Option.ite_none_left_eq_some] at h
    rw [Option.some.inj h.2]

/-- What would be reported although unresolved labels are ignored tells of something else. -/
theorem WellMade.unresolved?_eq_none (h : d.WellMade .ignore sourceId) : d.unresolved? = none := by
  rw [unresolved?_eq_none_iff]
  intro kind label hproblem
  exact h.reported kind label hproblem rfl

end Diagnostic

section

variable {sourceId : Nat} {ds : List Diagnostic}

theorem filterMap_restate_of_wellMade (policy : UnresolvedPolicy)
    (h : ∀ d ∈ ds, d.WellMade .ignore sourceId) : ds.filterMap policy.restate = ds := by
  have hrestate : ∀ d ∈ ds, policy.restate d = some d := by
    intro d hd
    exact Diagnostic.restate_of_unresolved?_eq_none (h d hd).unresolved?_eq_none
  rw [List.filterMap_congr hrestate]
  exact List.filterMap_some

theorem filterMap_unresolved?_of_wellMade (h : ∀ d ∈ ds, d.WellMade .ignore sourceId) :
    ds.filterMap Diagnostic.unresolved? = [] := by
  rw [List.filterMap_eq_nil_iff]
  intro d hd
  exact (h d hd).unresolved?_eq_none

end

/-! ### The reference under a policy -/

/-- The settings under which every unresolved label is an error and names are compared as before. -/
def Config.reporting (c : Config) : Config := { c with unresolvedLabel := some .error }

@[simp] theorem Config.matcher_reporting (c : Config) : c.reporting.matcher = c.matcher := rfl

@[simp] theorem Config.policy_reporting (c : Config) : c.reporting.policy = .error := rfl

section

variable {c c₀ : Config} {sourceId : Nat}

/-- What is wrong with a transfer under a policy, from what is wrong with it if every unresolved
label is an error. -/
theorem transferDiagnostics_restate (hm : c.matcher = c₀.matcher) (hp : c₀.policy = .error)
    (around : List Header) (kind : TransferKind) (r : LabelReference) :
    transferDiagnostics c sourceId around kind r =
      (transferDiagnostics c₀ sourceId around kind r).filterMap c.policy.restate := by
  unfold transferDiagnostics
  rw [hm, hp]
  cases hf : around.find? (Header.carries c₀.matcher r.target) with
  | none => cases hc : c.policy <;> cases kind <;> rfl
  | some h =>
    cases kind with
    | leave => rfl
    | iterate =>
      have hiterate : (h.iterateDiagnostics sourceId r).filterMap c.policy.restate =
          h.iterateDiagnostics sourceId r :=
        filterMap_restate_of_wellMade c.policy fun _ =>
          Diagnostic.wellMade_of_mem_iterateDiagnostics
      exact hiterate.symm

theorem Header.filterMap_restate_labelDiagnostics (policy : UnresolvedPolicy) (sourceId : Nat)
    (h : Header) :
    (h.labelDiagnostics sourceId).filterMap policy.restate = h.labelDiagnostics sourceId :=
  filterMap_restate_of_wellMade policy fun _ => Diagnostic.wellMade_of_mem_labelDiagnostics

theorem Header.filterMap_restate_endLabelDiagnostics (policy : UnresolvedPolicy) (m : NameMatcher)
    (sourceId : Nat) (h : Header) :
    (h.endLabelDiagnostics m sourceId).filterMap policy.restate =
      h.endLabelDiagnostics m sourceId :=
  filterMap_restate_of_wellMade policy fun _ => Diagnostic.wellMade_of_mem_endLabelDiagnostics

/-- **The reference under a policy.** Every diagnostic is restated by itself, whatever stands
around. -/
theorem Statements.lexicalDiagnostics_restate (hm : c.matcher = c₀.matcher)
    (hp : c₀.policy = .error) (s : Statements) (around : List Header) :
    s.lexicalDiagnostics c sourceId around =
      (s.lexicalDiagnostics c₀ sourceId around).filterMap c.policy.restate := by
  induction s generalizing around with
  | nil => rfl
  | sql _ _ rest ih => exact ih around
  | transfer kind r rest ih =>
    rw [lexicalDiagnostics, lexicalDiagnostics, List.filterMap_append,
      transferDiagnostics_restate hm hp, ih]
  | block header inner rest ihInner ihRest =>
    have hlabel := header.filterMap_restate_labelDiagnostics c.policy sourceId
    have hend := header.filterMap_restate_endLabelDiagnostics c.policy c₀.matcher sourceId
    simp only [lexicalDiagnostics, List.filterMap_append, ihInner, ihRest, hlabel, hend, hm]

theorem Block.lexicalDiagnostics_restate (hm : c.matcher = c₀.matcher) (hp : c₀.policy = .error)
    (b : Block) :
    b.lexicalDiagnostics c sourceId =
      (b.lexicalDiagnostics c₀ sourceId).filterMap c.policy.restate := by
  have hlabel := b.header.filterMap_restate_labelDiagnostics c.policy sourceId
  have hend := b.header.filterMap_restate_endLabelDiagnostics c.policy c₀.matcher sourceId
  have hinner : b.statements.lexicalDiagnostics c sourceId [b.header] = _ :=
    b.statements.lexicalDiagnostics_restate hm hp [b.header]
  simp only [lexicalDiagnostics, List.filterMap_append, hinner, hlabel, hend, hm]

/-! ### The reference and the resolutions -/

/-- A transfer is reported as unresolved if nothing is found for it. -/
theorem filterMap_unresolved?_transferDiagnostics (hp : c.policy ≠ .ignore)
    (around : List (BlockId × Header)) (kind : TransferKind) (r : LabelReference) :
    (transferDiagnostics c sourceId (around.map Prod.snd) kind r).filterMap
        Diagnostic.unresolved? =
      (notFound? (kind, r.target,
        .ofOutcome (lexicalOutcome c.matcher around r.target))).toList := by
  unfold transferDiagnostics lexicalOutcome
  rw [List.find?_map]
  cases hf : around.find? fun entry => entry.2.carries c.matcher r.target with
  | none =>
    have hnone : around.find? (Header.carries c.matcher r.target ∘ Prod.snd) = none := hf
    rw [hnone]
    cases hc : c.policy with
    | ignore => exact absurd hc hp
    | error => cases kind <;> rfl
    | warn => cases kind <;> rfl
  | some entry =>
    have hsome : around.find? (Header.carries c.matcher r.target ∘ Prod.snd) = some entry := hf
    rw [hsome]
    cases kind with
    | leave => rfl
    | iterate =>
      exact filterMap_unresolved?_of_wellMade fun _ =>
        Diagnostic.wellMade_of_mem_iterateDiagnostics

theorem Header.filterMap_unresolved?_labelDiagnostics (sourceId : Nat) (h : Header) :
    (h.labelDiagnostics sourceId).filterMap Diagnostic.unresolved? = [] :=
  filterMap_unresolved?_of_wellMade fun _ => Diagnostic.wellMade_of_mem_labelDiagnostics

theorem Header.filterMap_unresolved?_endLabelDiagnostics (m : NameMatcher) (sourceId : Nat)
    (h : Header) : (h.endLabelDiagnostics m sourceId).filterMap Diagnostic.unresolved? = [] :=
  filterMap_unresolved?_of_wellMade fun _ => Diagnostic.wellMade_of_mem_endLabelDiagnostics

/-- **Every unresolved label is reported once, where it stands.** The walk that reports and the walk
that collects the references meet the transfers in the same order. -/
theorem Statements.filterMap_unresolved?_lexicalDiagnostics (hp : c.policy ≠ .ignore)
    (s : Statements) (around : List (BlockId × Header)) (next : Nat) :
    (s.lexicalDiagnostics c sourceId (around.map Prod.snd)).filterMap Diagnostic.unresolved? =
      (s.settled c.matcher around next).transfers.filterMap
        fun (kind, r) => notFound? (kind, r.target, r.resolution) := by
  induction s generalizing around next with
  | nil => rfl
  | sql _ _ rest ih => exact ih around next
  | transfer kind r rest ih =>
    have hhead : (transferDiagnostics c sourceId (around.map Prod.snd) kind r).filterMap _ = _ :=
      filterMap_unresolved?_transferDiagnostics hp around kind r
    rw [lexicalDiagnostics, List.filterMap_append, hhead, ih around next, settled, transfers]
    simp only [List.filterMap_cons]
    cases notFound? (kind, r.target, .ofOutcome (lexicalOutcome c.matcher around r.target)) <;> rfl
  | block header inner rest ihInner ihRest =>
    have hlabel := header.filterMap_unresolved?_labelDiagnostics sourceId
    have hend := header.filterMap_unresolved?_endLabelDiagnostics c.matcher sourceId
    have hinner := ihInner ((⟨next⟩, header) :: around) (next + 1)
    have hrest := ihRest around (next + 1 + inner.blockCount)
    rw [List.map_cons] at hinner
    simp only [lexicalDiagnostics, settled, transfers, List.filterMap_append, hlabel, hend, hinner,
      hrest, List.nil_append, List.append_nil]

/-- The unresolved labels that are reported for a body, and those of its references after a
validation. -/
theorem Block.filterMap_unresolved?_lexicalDiagnostics (hp : c.policy ≠ .ignore) (b : Block) :
    (b.lexicalDiagnostics c sourceId).filterMap Diagnostic.unresolved? =
      (b.settled c.matcher).transfers.filterMap
        fun (kind, r) => notFound? (kind, r.target, r.resolution) := by
  have hlabel := b.header.filterMap_unresolved?_labelDiagnostics sourceId
  have hend := b.header.filterMap_unresolved?_endLabelDiagnostics c.matcher sourceId
  have hinner : (b.statements.lexicalDiagnostics c sourceId [b.header]).filterMap _ = _ :=
    b.statements.filterMap_unresolved?_lexicalDiagnostics hp [(.root, b.header)] 1
  simp only [lexicalDiagnostics, List.filterMap_append, hlabel, hend, hinner, List.nil_append,
    List.append_nil]
  rfl

end

/-! ### Two policies -/

namespace UnresolvedPolicy

theorem filterMap_restate_error (ds : List Diagnostic) : ds.filterMap (restate error) = ds :=
  List.filterMap_some

theorem filterMap_restate_warn (ds : List Diagnostic) :
    ds.filterMap (restate warn) = ds.map Diagnostic.softened :=
  congrFun (List.filterMap_eq_map (f := Diagnostic.softened)) ds

theorem filterMap_restate_ignore (ds : List Diagnostic) :
    ds.filterMap (restate ignore) = ds.filter fun d => d.unresolved?.isNone := by
  induction ds with
  | nil => rfl
  | cons d ds ih =>
    rw [List.filterMap_cons, List.filter_cons, ih]
    cases h : d.unresolved? <;> simp [restate, h]

/-- Under every policy the same is said of everything else. -/
theorem filter_filterMap_restate (policy : UnresolvedPolicy) (ds : List Diagnostic) :
    (ds.filterMap policy.restate).filter (fun d => d.unresolved?.isNone) =
      ds.filter fun d => d.unresolved?.isNone := by
  induction ds with
  | nil => rfl
  | cons d ds ih =>
    cases h : d.unresolved? with
    | none =>
      have hkept : policy.restate d = some d := Diagnostic.restate_of_unresolved?_eq_none h
      rw [List.filterMap_cons, hkept]
      simp [h, ih]
    | some label =>
      rw [List.filterMap_cons]
      cases hd : policy.restate d with
      | none => simp [h, ih]
      | some d' => simp [h, ih, Diagnostic.unresolved?_of_restate_eq_some hd]

end UnresolvedPolicy

/-- The validations `v` and `w` are of one procedure under the policies `policy` and `policy'`. They
differ in the diagnostics of unresolved labels alone. -/
structure Validation.AgreesUnder (policy policy' : UnresolvedPolicy) (v w : Validation) : Prop where
  /-- All references hold the same resolutions. -/
  procedure_eq : w.procedure = v.procedure
  /-- Of everything but unresolved labels the same is reported, in the same order. -/
  others_eq : (w.diagnostics.filter fun d => d.unresolved?.isNone) =
    v.diagnostics.filter fun d => d.unresolved?.isNone
  /-- From errors to warnings, the severity of the unresolved labels changes and nothing else. -/
  softened : policy = .error → policy' = .warn →
    w.diagnostics = v.diagnostics.map Diagnostic.softened
  /-- From errors to nothing, the unresolved labels are left out. -/
  dropped : policy = .error → policy' = .ignore →
    w.diagnostics = v.diagnostics.filter fun d => d.unresolved?.isNone
  same : policy = policy' → w.diagnostics = v.diagnostics
  /-- The warnings are the unresolved labels under the policy that makes them so. -/
  isWarning_iff : ∀ d ∈ v.diagnostics, d.isWarning = true ↔
    policy = .warn ∧ d.unresolved?.isSome = true
  /-- Unless they are ignored, the reported unresolved labels are those of the resolutions, one by
  one and in order. -/
  reported : policy ≠ .ignore →
    v.diagnostics.filterMap Diagnostic.unresolved? = v.procedure.resolutions.filterMap notFound?
  passes_warn : policy = .error → policy' = .warn → v.passes = true → w.passes = true
  passes_ignore : policy = .warn → policy' = .ignore → (v.passes = true ↔ w.passes = true)

namespace Validation

variable {policy policy' : UnresolvedPolicy} {v w : Validation} {ds : List Diagnostic}

/-- Where every error passes, the same diagnostics pass with some of them softened. -/
theorem passes_of_softened (hw : w.diagnostics = v.diagnostics.map Diagnostic.softened)
    (h : v.passes = true) : w.passes = true := by
  rw [passes_iff] at h ⊢
  intro d hd
  rw [hw] at hd
  obtain ⟨d₀, hd₀, rfl⟩ := List.mem_map.mp hd
  have hwarning := h d₀ hd₀
  unfold Diagnostic.softened
  split
  · rfl
  · exact hwarning

/-- An unresolved label does no more harm as a warning than if it is left out. -/
theorem passes_softened_iff (hv : v.diagnostics = ds.map Diagnostic.softened)
    (hw : w.diagnostics = ds.filter fun d => d.unresolved?.isNone) :
    v.passes = true ↔ w.passes = true := by
  rw [passes_iff, passes_iff, hv, hw, List.forall_mem_map]
  constructor
  · intro h d hd
    obtain ⟨hd, hother⟩ := List.mem_filter.mp hd
    have hwarning := h d hd
    rw [Option.isNone_iff_eq_none] at hother
    rw [Diagnostic.softened, hother] at hwarning
    exact hwarning
  · intro h d hd
    cases hlabel : d.unresolved? with
    | none =>
      have hwarning := h d (List.mem_filter.mpr ⟨hd, by rw [hlabel]; rfl⟩)
      rw [Diagnostic.softened, hlabel]
      exact hwarning
    | some label =>
      rw [Diagnostic.softened, hlabel]
      rfl

/-- Two restatements of the same diagnostics agree. -/
theorem AgreesUnder.of_restated (hprocedure : w.procedure = v.procedure)
    (hv : v.diagnostics = ds.filterMap policy.restate)
    (hw : w.diagnostics = ds.filterMap policy'.restate)
    (hwarning : ∀ d ∈ v.diagnostics, d.isWarning = true ↔
      policy = .warn ∧ d.unresolved?.isSome = true)
    (hreported : policy ≠ .ignore → v.diagnostics.filterMap Diagnostic.unresolved? =
      v.procedure.resolutions.filterMap notFound?) :
    v.AgreesUnder policy policy' w := by
  have hsoftened : policy = .error → policy' = .warn →
      w.diagnostics = v.diagnostics.map Diagnostic.softened := by
    rintro rfl rfl
    rw [hv, hw, UnresolvedPolicy.filterMap_restate_error, UnresolvedPolicy.filterMap_restate_warn]
  refine ⟨hprocedure, ?_, hsoftened, ?_, ?_, hwarning, hreported, ?_, ?_⟩
  · rw [hv, hw, UnresolvedPolicy.filter_filterMap_restate,
      UnresolvedPolicy.filter_filterMap_restate]
  · rintro rfl rfl
    rw [hv, hw, UnresolvedPolicy.filterMap_restate_error,
      UnresolvedPolicy.filterMap_restate_ignore]
  · rintro rfl
    rw [hv, hw]
  · intro herror hwarn
    exact passes_of_softened (hsoftened herror hwarn)
  · rintro rfl rfl
    rw [UnresolvedPolicy.filterMap_restate_warn] at hv
    rw [UnresolvedPolicy.filterMap_restate_ignore] at hw
    exact passes_softened_iff hv hw

end Validation

namespace Procedure

/-- **The policy decides on the diagnostics of unresolved labels alone.** Under two settings that
compare names in the same way the validations of a procedure agree in everything else. -/
theorem validate_policy (p : Procedure) {c c' : Config} (hm : c.matcher = c'.matcher)
    (stamp stamp' : Stamp) :
    ∃ v w, p.validate c stamp = .ok v ∧ p.validate c' stamp' = .ok w ∧
      v.AgreesUnder c.policy c'.policy w := by
  -- Under both settings the diagnostics are restated from those in which everything is an error.
  have hv : p.body.lexicalDiagnostics c p.sourceId = (p.body.lexicalDiagnostics c.reporting
      p.sourceId).filterMap c.policy.restate :=
    Block.lexicalDiagnostics_restate c.matcher_reporting.symm c.policy_reporting p.body
  have hw : p.body.lexicalDiagnostics c' p.sourceId = (p.body.lexicalDiagnostics c.reporting
      p.sourceId).filterMap c'.policy.restate :=
    Block.lexicalDiagnostics_restate (hm.symm.trans c.matcher_reporting.symm) c.policy_reporting
      p.body
  refine ⟨_, _, p.validate_eq c stamp, p.validate_eq c' stamp', ?_⟩
  refine Validation.AgreesUnder.of_restated ?_ hv hw ?_ ?_
  · rw [hm]
  · intro d hd
    rw [(Block.wellMade_of_mem_lexicalDiagnostics hd).isWarning_iff,
      Diagnostic.isSome_unresolved?_iff]
  · intro hp
    rw [resolutions, List.filterMap_map]
    exact Block.filterMap_unresolved?_lexicalDiagnostics hp p.body

/-- A loop under an end label that it does not carry, with a transfer to nowhere inside. -/
def adrift : Procedure where
  name := "adrift"
  body :=
    { header := { kind := .loop, endLabel := some (.regular "l") }
      statements := .transfer .iterate { target := .regular "m" } .nil }

/-- The theorem at the settings of two conformance levels. -/
theorem validate_policy_adrift :
    (Config.ofConformance .default).matcher = (Config.ofConformance .lenient).matcher ∧
      ∃ v w, adrift.validate (Config.ofConformance .default) 0 = .ok v ∧
        adrift.validate (Config.ofConformance .lenient) 1 = .ok w ∧
        v.AgreesUnder .error .ignore w := by
  have hm : (Config.ofConformance .default).matcher = (Config.ofConformance .lenient).matcher := rfl
  exact ⟨hm, validate_policy adrift hm 0 1⟩

end Procedure

end LabelCheck
