import LabelCheck.Validation.Lexical

/-!
# Fresh copies

A fresh copy of a procedure is the procedure as it is before any validation: every reference is
unresolved, and all else is as it was. Two procedures with one fresh copy differ in what is known of
their references and in nothing else, so that "only resolutions change" is an equation between
fresh copies.

* `Procedure.freshCopy`: the copy, made by a recursion of its own;
* `Statements.reset_eq_freshCopy`: forgetting everything reaches every reference;
* `Statements.freshCopy_updateTransfers`: a walk that changes only resolutions keeps the fresh copy,
  and with it so do settling and resetting single references;
* `Procedure.validate_freshCopy`: a validation depends on nothing but the fresh copy.
-/

namespace LabelCheck

/-- The same sequence with every reference unresolved. -/
def Statements.freshCopy : Statements → Statements
  | nil => nil
  | sql text span rest => sql text span rest.freshCopy
  | transfer kind r rest => transfer kind { r with resolution := .unresolved } rest.freshCopy
  | block header inner rest => block header inner.freshCopy rest.freshCopy

/-- The same block with every reference unresolved. -/
def Block.freshCopy (b : Block) : Block := { b with statements := b.statements.freshCopy }

/-- **The fresh copy of a procedure.** -/
def Procedure.freshCopy (p : Procedure) : Procedure := { p with body := p.body.freshCopy }

namespace Statements

variable (s : Statements)

/-- Forgetting everything reaches every reference and changes nothing else. -/
theorem reset_eq_freshCopy : s.reset = s.freshCopy := by
  induction s with
  | nil => rfl
  | sql text span rest ih => rw [reset_sql, ih, freshCopy]
  | transfer kind r rest ih => rw [reset_transfer, ih, freshCopy, LabelReference.reset]
  | block header inner rest ihInner ihRest => rw [reset_block, ihInner, ihRest, freshCopy]

/-- No reference of a fresh copy has been settled. -/
theorem resolution_of_mem_transfers_freshCopy :
    ∀ t ∈ s.freshCopy.transfers, t.2.resolution = .unresolved := by
  induction s with
  | nil =>
    intro t ht
    cases ht
  | sql _ _ rest ih => exact ih
  | transfer kind r rest ih =>
    intro t ht
    rcases List.mem_cons.mp ht with rfl | ht
    · rfl
    · exact ih t ht
  | block header inner rest ihInner ihRest =>
    intro t ht
    rcases List.mem_append.mp ht with ht | ht
    · exact ihInner t ht
    · exact ihRest t ht

/-- **A walk that changes only resolutions keeps the fresh copy,** whatever state it carries. -/
theorem freshCopy_updateTransfers {σ : Type}
    {f : TransferKind → LabelReference → σ → LabelReference × σ}
    (hf : ∀ kind r st, (f kind r st).1.reset = r.reset) (st : σ) :
    (s.updateTransfers f st).1.freshCopy = s.freshCopy := by
  induction s generalizing st with
  | nil => rfl
  | sql text span rest ih =>
    simp only [updateTransfers, freshCopy]
    rw [ih]
  | transfer kind r rest ih =>
    have hr := hf kind r st
    unfold LabelReference.reset at hr
    simp only [updateTransfers, freshCopy]
    rw [ih, hr]
  | block header inner rest ihInner ihRest =>
    simp only [updateTransfers, freshCopy]
    rw [ihInner, ihRest]

/-- Settling keeps the fresh copy. -/
theorem freshCopy_settled (m : NameMatcher) (around : List (BlockId × Header)) (next : Nat) :
    (s.settled m around next).freshCopy = s.freshCopy := by
  induction s generalizing around next with
  | nil => rfl
  | sql text span rest ih =>
    simp only [settled, freshCopy]
    rw [ih]
  | transfer kind r rest ih =>
    simp only [settled, freshCopy]
    rw [ih]
  | block header inner rest ihInner ihRest =>
    simp only [settled, freshCopy]
    rw [ihInner, ihRest]

end Statements

theorem Block.freshCopy_modifyTransfer {α : Type} {f : LabelReference → LabelReference × α}
    (hf : ∀ r, (f r).1.reset = r.reset) (b : Block) (n : Nat) :
    (b.modifyTransfer n f).1.freshCopy = b.freshCopy := by
  unfold modifyTransfer updateTransfers freshCopy
  refine congrArg (Block.mk b.header) (Statements.freshCopy_updateTransfers _ ?_ _)
  intro kind r st
  -- The walk changes the reference it is looking for and hands back all others.
  by_cases hn : st.1 = n
  · rw [if_pos hn]
    exact hf r
  · rw [if_neg hn]

namespace Procedure

/-! ### What keeps the fresh copy -/

theorem freshCopy_resetResolutions (p : Procedure) :
    p.resetResolutions.freshCopy = p.freshCopy := by
  unfold resetResolutions freshCopy Block.freshCopy
  have hbody : p.body.reset.statements.freshCopy = p.body.statements.freshCopy :=
    Statements.freshCopy_updateTransfers _ (fun _ _ _ => rfl) ()
  rw [hbody]
  rfl

theorem freshCopy_settleAt (p : Procedure) (n : Nat) (outcome : Option BlockId) :
    (p.settleAt n outcome).1.freshCopy = p.freshCopy := by
  unfold settleAt freshCopy
  refine congrArg (fun body => { p with body }) (Block.freshCopy_modifyTransfer ?_ p.body n)
  intro r
  unfold LabelReference.settle
  -- A reference that refuses is handed back as it is.
  by_cases hs : r.resolution.isSettled
  · rw [if_pos hs]
  · rw [if_neg hs]
    rfl

theorem freshCopy_resetAt (p : Procedure) (n : Nat) :
    (p.resetAt n).1.freshCopy = p.freshCopy :=
  congrArg (fun body => { p with body }) (Block.freshCopy_modifyTransfer
    (f := fun r => (r.reset, r.reset.resolution)) (fun _ => rfl) p.body n)

/-! ### Validation and the fresh copy -/

/-- **A validation depends on nothing but the fresh copy:** neither what was known of the references
nor the stamp of the scope tree counts. -/
theorem validate_freshCopy (p : Procedure) (c : Config) (stamp stamp' : Stamp) :
    p.freshCopy.validate c stamp = p.validate c stamp' := by
  rw [validate_eq, validate_eq]
  have hsettled : p.freshCopy.body.settled c.matcher = p.body.settled c.matcher := by
    unfold freshCopy Block.freshCopy Block.settled
    rw [← Statements.reset_eq_freshCopy, Statements.settled_reset]
  have hdiagnostics : p.freshCopy.body.lexicalDiagnostics c p.sourceId =
      p.body.lexicalDiagnostics c p.sourceId := by
    unfold freshCopy Block.freshCopy Block.lexicalDiagnostics
    rw [← Statements.reset_eq_freshCopy, Statements.lexicalDiagnostics_reset]
  rw [hsettled]
  change Except.ok (Validation.mk _ (p.freshCopy.body.lexicalDiagnostics c p.sourceId) _) = _
  rw [hdiagnostics]
  rfl

/-- Procedures with one fresh copy are validated alike. -/
theorem validate_congr {p q : Procedure} (h : p.freshCopy = q.freshCopy) (c : Config)
    (stamp stamp' : Stamp) : p.validate c stamp = q.validate c stamp' := by
  rw [← validate_freshCopy p c stamp stamp, ← validate_freshCopy q c stamp stamp', h]

/-- **A validation changes only resolutions,** and no reference refuses to be settled. -/
theorem exists_validate_eq_ok (p : Procedure) (c : Config) (stamp : Stamp) :
    ∃ v, p.validate c stamp = .ok v ∧ v.procedure.freshCopy = p.freshCopy ∧ v.refused = [] := by
  refine ⟨_, p.validate_eq c stamp, ?_, rfl⟩
  unfold freshCopy Block.freshCopy Block.settled
  rw [Statements.freshCopy_settled]

end Procedure

end LabelCheck
