import LabelCheck.Proofs.FreshCopy
import LabelCheck.Scope.Forest

/-!
# Validation after any history

A validation gives what it would give on a fresh copy, whatever has happened before. What can have
happened is told by a session: procedures live side by side, are validated under any settings, have
single references settled and reset, and scope trees are built and copied in between. All of that
draws on one counter of stamps.

* `Session`, `Session.Operation`: the procedures and trees, and what can be done to them;
* `Session.step`, `Session.run`: one operation, and operations one after the other;
* `Session.exists_step_eq_ok`: an operation never meets a fault, and every procedure keeps its fresh
  copy;
* `Session.validate_after_run`: a validation after any run.

The run lemma says no more than that the fresh copies of the procedures stay in front, for a
validation depends on nothing but the fresh copy.
-/

namespace LabelCheck

/-- Procedures in the order in which they were taken in, beside the scope trees and their next
stamp. -/
structure Session where
  forest : Forest := {}
  procedures : List Procedure := []
  deriving DecidableEq, Repr

namespace Session

/-- What can be done in a session. Procedures, transfers and trees are named by their place; an
operation on a place that there is not does nothing. -/
inductive Operation where
  /-- Take in one more procedure. -/
  | add (p : Procedure)
  /-- Validate the procedure `n`. -/
  | validate (n : Nat) (c : Config)
  /-- Settle the transfer `i` of the procedure `n`, unless it refuses. -/
  | settle (n i : Nat) (outcome : Option BlockId)
  /-- Reset the transfer `i` of the procedure `n`. -/
  | reset (n i : Nat)
  /-- Reset all references of the procedure `n`. -/
  | resetAll (n : Nat)
  /-- Build the scope tree of a body. -/
  | grow (body : Block)
  /-- Copy the scope tree `t`. -/
  | copy (t : Nat)
  deriving DecidableEq, Repr

/-- One operation. Validating a procedure uses up a stamp, as building a tree does. -/
def step (s : Session) : Operation → Except Fault Session
  | .add p => return { s with procedures := s.procedures ++ [p] }
  | .validate n c =>
    match s.procedures[n]? with
    | none => return s
    | some p => do
      let (stamp, forest) := s.forest.takeStamp
      let v ← p.validate c stamp
      return { forest, procedures := s.procedures.set n v.procedure }
  | .settle n i outcome =>
    return { s with procedures := s.procedures.modify n fun p => (p.settleAt i outcome).1 }
  | .reset n i => return { s with procedures := s.procedures.modify n fun p => (p.resetAt i).1 }
  | .resetAll n => return { s with procedures := s.procedures.modify n Procedure.resetResolutions }
  | .grow body => return { s with forest := (s.forest.grow body).1 }
  | .copy t => return { s with forest := s.forest.copy t }

/-- Operations one after the other. -/
def run (s : Session) (ops : List Operation) : Except Fault Session := ops.foldlM step s

/-- The fresh copies of the procedures. -/
def freshCopies (s : Session) : List Procedure := s.procedures.map Procedure.freshCopy

/-! ### One operation -/

/-- A change of one procedure that keeps its fresh copy keeps them all. -/
theorem map_freshCopy_modify {f : Procedure → Procedure}
    (hf : ∀ p, (f p).freshCopy = p.freshCopy) (procedures : List Procedure) (n : Nat) :
    (procedures.modify n f).map Procedure.freshCopy = procedures.map Procedure.freshCopy := by
  induction procedures generalizing n with
  | nil => rw [List.modify_nil]
  | cons p rest ih =>
    cases n with
    | zero => rw [List.modify_zero_cons, List.map_cons, List.map_cons, hf]
    | succ n => rw [List.modify_succ_cons, List.map_cons, List.map_cons, ih]

/-- A procedure can be replaced by one with the same fresh copy. -/
theorem map_freshCopy_set {procedures : List Procedure} {n : Nat} {p q : Procedure}
    (hp : procedures[n]? = some p) (hq : q.freshCopy = p.freshCopy) :
    (procedures.set n q).map Procedure.freshCopy = procedures.map Procedure.freshCopy := by
  have hget : (procedures.map Procedure.freshCopy)[n]? = some p.freshCopy := by
    rw [List.getElem?_map, hp]
    rfl
  obtain ⟨hn, hcopy⟩ := List.getElem?_eq_some_iff.mp hget
  -- What is written is what has been there.
  rw [List.map_set, hq, ← hcopy, List.set_getElem_self]

/-- Validating at a place that there is not does nothing. -/
theorem step_validate_of_none {s : Session} {n : Nat} (c : Config)
    (hp : s.procedures[n]? = none) : s.step (.validate n c) = .ok s := by
  simp only [step, hp]
  rfl

/-- Validating uses up a stamp and puts what came of the procedure in its place. -/
theorem step_validate_of_ok {s : Session} {n : Nat} {c : Config} {p : Procedure} {v : Validation}
    (hp : s.procedures[n]? = some p) (hv : p.validate c s.forest.takeStamp.1 = .ok v) :
    s.step (.validate n c) =
      .ok { forest := s.forest.takeStamp.2, procedures := s.procedures.set n v.procedure } := by
  simp only [step, hp, hv]
  rfl

/-- Fresh copies that have not changed are still in front. -/
theorem freshCopies_prefix_of_eq {s s' : Session}
    (h : s'.procedures.map Procedure.freshCopy = s.procedures.map Procedure.freshCopy) :
    s.freshCopies <+: s'.freshCopies :=
  ⟨[], (List.append_nil _).trans h.symm⟩

/-- **The step lemma.** An operation never meets a fault, and it keeps the fresh copies of all
procedures, perhaps with one more behind them. -/
theorem exists_step_eq_ok (s : Session) (op : Operation) :
    ∃ s', s.step op = .ok s' ∧ s.freshCopies <+: s'.freshCopies := by
  cases op with
  | add p =>
    refine ⟨_, rfl, ?_⟩
    unfold freshCopies
    rw [List.map_append]
    exact List.prefix_append _ _
  | validate n c =>
    cases hp : s.procedures[n]? with
    | none => exact ⟨s, step_validate_of_none c hp, List.prefix_rfl⟩
    | some p =>
      obtain ⟨v, hv, hcopy, _⟩ := p.exists_validate_eq_ok c s.forest.takeStamp.1
      refine ⟨_, step_validate_of_ok hp hv, freshCopies_prefix_of_eq ?_⟩
      exact map_freshCopy_set hp hcopy
  | settle n i outcome =>
    refine ⟨_, rfl, freshCopies_prefix_of_eq ?_⟩
    exact map_freshCopy_modify (fun p => p.freshCopy_settleAt i outcome) s.procedures n
  | reset n i =>
    refine ⟨_, rfl, freshCopies_prefix_of_eq ?_⟩
    exact map_freshCopy_modify (fun p => p.freshCopy_resetAt i) s.procedures n
  | resetAll n =>
    refine ⟨_, rfl, freshCopies_prefix_of_eq ?_⟩
    exact map_freshCopy_modify Procedure.freshCopy_resetResolutions s.procedures n
  | grow body => exact ⟨_, rfl, List.prefix_rfl⟩
  | copy t => exact ⟨_, rfl, List.prefix_rfl⟩

/-! ### A whole run -/

/-- **The run lemma.** By induction on the operations, with the step lemma for each. -/
theorem exists_run_eq_ok (s : Session) (ops : List Operation) :
    ∃ s', s.run ops = .ok s' ∧ s.freshCopies <+: s'.freshCopies := by
  induction ops generalizing s with
  | nil => exact ⟨s, rfl, List.prefix_rfl⟩
  | cons op ops ih =>
    -- The session after the first operation is where the rest of the run begins.
    obtain ⟨s₁, hstep, hkeep⟩ := s.exists_step_eq_ok op
    obtain ⟨s₂, hrun, hkeep'⟩ := ih s₁
    refine ⟨s₂, ?_, hkeep.trans hkeep'⟩
    unfold run
    rw [List.foldlM_cons, hstep]
    exact hrun

/-- After a run every procedure is where it was, with the same fresh copy. -/
theorem exists_procedure_after_run (s : Session) (ops : List Operation) {n : Nat} {p : Procedure}
    (hp : s.procedures[n]? = some p) :
    ∃ s' p', s.run ops = .ok s' ∧ s'.procedures[n]? = some p' ∧ p'.freshCopy = p.freshCopy := by
  obtain ⟨s', hrun, hkeep⟩ := s.exists_run_eq_ok ops
  have hcopy : s.freshCopies[n]? = some p.freshCopy := by
    unfold freshCopies
    rw [List.getElem?_map, hp]
    rfl
  -- What has come in since stands behind the procedures of the start.
  obtain ⟨rest, hrest⟩ := hkeep
  have hcopy' : s'.freshCopies[n]? = some p.freshCopy := by
    obtain ⟨hn, _⟩ := List.getElem?_eq_some_iff.mp hcopy
    rw [← hrest, List.getElem?_append_left hn, hcopy]
  unfold freshCopies at hcopy'
  rw [List.getElem?_map] at hcopy'
  obtain ⟨p', hp', heq⟩ := Option.map_eq_some_iff.mp hcopy'
  exact ⟨s', p', hrun, hp', heq⟩

/-- What a validation `v` of a procedure says that began as `p` and has become `p'`. -/
structure ValidatesAfresh (c : Config) (p p' : Procedure) (v : Validation) : Prop where
  /-- It is the validation of the procedure as it has become, whatever the next stamp is. -/
  validate_eq : ∀ stamp, p'.validate c stamp = .ok v
  /-- It is the validation of a fresh copy of the procedure as it began. -/
  validate_freshCopy_eq : ∀ stamp, p.freshCopy.validate c stamp = .ok v
  /-- No reference of that copy has been settled. -/
  fresh : ∀ t ∈ p.freshCopy.transfers, t.2.resolution = .unresolved
  /-- No reference refuses to be settled. -/
  refused_eq : v.refused = []
  /-- Validating once more changes nothing. -/
  again : ∀ stamp, v.procedure.validate c stamp = .ok v
  /-- Apart from resolutions the procedure is still what it was before the validation. -/
  procedure_eq : v.procedure.freshCopy = p'.freshCopy
  /-- Apart from resolutions the procedure had kept to what it began as. -/
  kept : p'.freshCopy = p.freshCopy

/-- **Validation after any history.** After any run of operations a procedure of the session
validates, under any settings and whatever the next stamp is, to the same result, diagnostics and
resolutions as its fresh copy. -/
theorem validate_after_run (s : Session) (ops : List Operation) {n : Nat} {p : Procedure}
    (hp : s.procedures[n]? = some p) (c : Config) :
    ∃ s' p' v, s.run ops = .ok s' ∧ s'.procedures[n]? = some p' ∧ ValidatesAfresh c p p' v := by
  obtain ⟨s', p', hrun, hp', hcopy⟩ := s.exists_procedure_after_run ops hp
  -- All validations in question have one fresh copy, so that one of them speaks for all.
  obtain ⟨v, hv, hvcopy, hrefused⟩ := p.exists_validate_eq_ok c 0
  refine ⟨s', p', v, hrun, hp', ?_, ?_, ?_, hrefused, ?_, hvcopy.trans hcopy.symm, hcopy⟩
  · intro stamp
    rw [Procedure.validate_congr hcopy c stamp 0, hv]
  · intro stamp
    rw [p.validate_freshCopy c stamp 0, hv]
  · exact p.body.statements.resolution_of_mem_transfers_freshCopy
  · intro stamp
    rw [Procedure.validate_congr hvcopy c stamp 0, hv]

/-- A block `l` with a `LEAVE` of it, of which something wrong is known. -/
def strayed : Procedure where
  name := "strayed"
  body :=
    { header := { kind := .beginEnd, label := some (.regular "l") }
      statements := .transfer .leave { target := .regular "L", resolution := .resolved ⟨7⟩ } .nil }

/-- The theorem at a session of two procedures, with operations on both and on the trees. -/
theorem validate_after_run_strayed :
    ({ procedures := [strayed, strayed] } : Session).procedures[0]? = some strayed ∧
      ∃ s' p' v,
        ({ procedures := [strayed, strayed] } : Session).run
          [.validate 0 { caseSensitive := some true }, .reset 0 0, .settle 0 0 none,
            .validate 1 {}, .grow strayed.body, .copy 0, .settle 1 0 (some ⟨3⟩)] = .ok s' ∧
        s'.procedures[0]? = some p' ∧ ValidatesAfresh {} strayed p' v :=
  ⟨rfl, validate_after_run _ _ rfl _⟩

end Session

end LabelCheck
