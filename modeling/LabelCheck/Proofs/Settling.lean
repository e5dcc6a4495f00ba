import LabelCheck.Proofs.FreshCopy
import LabelCheck.Proofs.TransferUpdate
import Mathlib.Data.List.DropRight

/-!
# References settle once

What is known of a reference can be read off the history of the procedure. Between two resets the
first attempt to settle a reference decides, later ones are refused, and what is done to other
references does not count.

* `Procedure.Change`, `Procedure.performAll`: what can be done to the references of a procedure, one
  by one or all at once, and a whole history of it;
* `Procedure.resolutionAfter`: what a history says of a reference, told without running it;
* `Procedure.getElem?_transfers_perform`: one change, as each reference sees it;
* `Procedure.SettlesOnce`: what has to hold after a history, and
  `Procedure.settlesOnce_performAll` that it does.

A history is read from its end, where the latest reset of a reference hides all that is before it.
The induction on a run therefore takes off its last change.
-/

namespace LabelCheck

/-! ### One transfer changed -/

section

variable {α : Type}

/-- The change of the transfer with number `n`, which counts the transfers that it has met and
holds the answer. -/
def TransferUpdate.nth (n : Nat) (f : LabelReference → LabelReference × α) :
    TransferUpdate (Nat × Option α) := fun _ r st =>
  if st.1 = n then ((f r).1, st.1 + 1, some (f r).2) else (r, st.1 + 1, st.2)

namespace TransferUpdate

variable (f : LabelReference → LabelReference × α)

/-- Behind the transfer that is looked for, all others are left alone. -/
theorem exists_along_nth_of_lt {n k : Nat} (h : n < k) (ts : List (TransferKind × LabelReference))
    (answer : Option α) :
    ∃ count, (nth n f).along ts (k, answer) = (ts, count, answer) := by
  induction ts generalizing k with
  | nil => exact ⟨k, rfl⟩
  | cons t ts ih =>
    -- The count only grows, so that the number is not met again.
    have hstep : nth n f t.1 t.2 (k, answer) = (t.2, k + 1, answer) := if_neg (Nat.ne_of_gt h)
    obtain ⟨count, hrest⟩ := ih (Nat.lt_succ_of_lt h)
    refine ⟨count, ?_⟩
    rw [along_cons, hstep]
    show (t :: ((nth n f).along ts (k + 1, answer)).1, _) = _
    rw [hrest]

/-- **The transfer that is looked for is changed, and it gives the answer.** The count is at `k`
before the transfers, and the number `m` is counted from there on. -/
theorem exists_along_nth (k m : Nat) (ts : List (TransferKind × LabelReference)) :
    ∃ count, (nth (k + m) f).along ts (k, none) =
      (ts.modify m fun t => (t.1, (f t.2).1), count, ts[m]?.map fun t => (f t.2).2) := by
  induction ts generalizing k m with
  | nil => exact ⟨k, by rw [along_nil, List.modify_nil]; rfl⟩
  | cons t ts ih =>
    cases m with
    | zero =>
      -- The first of the transfers is the one that is looked for.
      have hstep : nth k f t.1 t.2 (k, none) = ((f t.2).1, k + 1, some (f t.2).2) := if_pos rfl
      obtain ⟨count, hrest⟩ := exists_along_nth_of_lt f (Nat.lt_succ_self k) ts (some (f t.2).2)
      refine ⟨count, ?_⟩
      rw [Nat.add_zero, along_cons, hstep]
      show (_ :: ((nth k f).along ts (k.succ, _)).1, ((nth k f).along ts (k.succ, _)).2) = _
      rw [hrest]
      rfl
    | succ m =>
      -- It is behind the first, and the count is one higher there.
      have hnumber : k + (m + 1) = k + 1 + m := by omega
      have hstep : nth (k + 1 + m) f t.1 t.2 (k, none) = (t.2, k + 1, none) :=
        if_neg (by omega)
      obtain ⟨count, hrest⟩ := ih (k + 1) m
      refine ⟨count, ?_⟩
      rw [hnumber, along_cons, hstep]
      show (_ :: ((nth (k + 1 + m) f).along ts (k + 1, none)).1, _) = _
      rw [hrest]
      rfl

end TransferUpdate

namespace Block

variable (b : Block) (n : Nat) (f : LabelReference → LabelReference × α)

/-- The transfer with the number is changed and no other, and the answer is that of its change. -/
theorem modifyTransfer_spec :
    (b.modifyTransfer n f).1.transfers = b.transfers.modify n (fun t => (t.1, (f t.2).1)) ∧
      (b.modifyTransfer n f).2 = b.transfers[n]?.map fun t => (f t.2).2 := by
  obtain ⟨count, halong⟩ := TransferUpdate.exists_along_nth f 0 n b.transfers
  rw [Nat.zero_add] at halong
  have hwalk := b.statements.transfers_updateTransfers (TransferUpdate.nth n f) (0, none)
  have hsame := hwalk.trans halong
  exact ⟨congrArg Prod.fst hsame, congrArg (fun walk => walk.2.2) hsame⟩

theorem getElem?_transfers_modifyTransfer (m : Nat) :
    (b.modifyTransfer n f).1.transfers[m]? =
      b.transfers[m]?.map fun t => if n = m then (t.1, (f t.2).1) else t := by
  rw [(b.modifyTransfer_spec n f).1, List.getElem?_modify]
  rfl

/-- A change that hands back the reference that it is called with changes nothing. -/
theorem modifyTransfer_eq_self {t : TransferKind × LabelReference}
    (ht : b.transfers[n]? = some t) (hf : (f t.2).1 = t.2) : (b.modifyTransfer n f).1 = b := by
  have hframe : b.SameFrame (b.modifyTransfer n f).1 :=
    b.sameFrame_updateTransfers (TransferUpdate.nth n f) (0, none)
  -- All that could differ are the transfers, and each of them is what it was.
  apply hframe.eq_of_transfers_eq
  apply List.ext_getElem?
  intro m
  rw [getElem?_transfers_modifyTransfer]
  by_cases hm : n = m
  · subst hm
    rw [ht, Option.map_some, if_pos rfl, hf]
  · simp only [if_neg hm, Option.map_id']

end Block

end

/-! ### Histories -/

/-- A resolution is settled unless it is unresolved. -/
theorem Resolution.isSettled_iff {r : Resolution} : r.isSettled = true ↔ r ≠ .unresolved := by
  cases r <;> simp [isSettled]

namespace Procedure

/-- **What can be done to the references of a procedure.** A single reference is named by its place
among the transfers; a change at a place that there is not does nothing. -/
inductive Change where
  /-- Try to settle the reference `n`. -/
  | settle (n : Nat) (outcome : Option BlockId)
  /-- Reset the reference `n`. -/
  | reset (n : Nat)
  /-- Reset all references. -/
  | resetAll
  deriving DecidableEq, Repr

/-- One change. -/
def perform (p : Procedure) : Change → Procedure
  | .settle n outcome => (p.settleAt n outcome).1
  | .reset n => (p.resetAt n).1
  | .resetAll => p.resetResolutions

/-- Changes one after the other. -/
def performAll (p : Procedure) (changes : List Change) : Procedure := changes.foldl perform p

namespace Change

/-- Whether a change resets the reference `n`. -/
def resets (n : Nat) : Change → Bool
  | settle _ _ => false
  | reset m => m = n
  | resetAll => true

/-- The outcome that a change tries to settle the reference `n` with. -/
def outcome? (n : Nat) : Change → Option (Option BlockId)
  | settle m outcome => if m = n then some outcome else none
  | reset _ | resetAll => none

/-- What a change makes of what is known of the reference `n`. -/
def effect (n : Nat) (held : Resolution) (change : Change) : Resolution :=
  if change.resets n then .unresolved
  else if held.isSettled then held
  else match change.outcome? n with
    | some outcome => .ofOutcome outcome
    | none => held

end Change

/-- The changes since the reference `n` has last been reset, or all of them if it never has. -/
def sinceReset (n : Nat) (changes : List Change) : List Change :=
  changes.rtakeWhile fun change => !change.resets n

/-- The outcome of the first attempt since then to settle the reference. -/
def firstOutcome? (n : Nat) (changes : List Change) : Option (Option BlockId) :=
  (sinceReset n changes).findSome? (Change.outcome? n)

/-- **What is to be known of the reference `n` after a history,** where `start` has been known of it
before. What was settled at the start stays as long as nothing resets the reference. Apart from
that the first attempt to settle it since its last reset counts. -/
def resolutionAfter (n : Nat) (start : Resolution) (changes : List Change) : Resolution :=
  if start.isSettled && !changes.any (Change.resets n) then start
  else match firstOutcome? n changes with
    | some outcome => .ofOutcome outcome
    | none => .unresolved

/-- The history at which the second of two attempts is refused, and the one after a reset counts. -/
example : resolutionAfter 1 .notFound
    [.settle 1 none, .reset 1, .settle 0 none, .settle 1 (some ⟨4⟩), .settle 1 none, .reset 0] =
      .resolved ⟨4⟩ := by decide

/-! ### One change more -/

theorem resolutionAfter_nil (n : Nat) (start : Resolution) :
    resolutionAfter n start [] = start := by
  cases start <;> rfl

theorem sinceReset_concat (n : Nat) (changes : List Change) (change : Change) :
    sinceReset n (changes ++ [change]) =
      if change.resets n then [] else sinceReset n changes ++ [change] := by
  rw [sinceReset, List.rtakeWhile_concat]
  cases change.resets n <;> rfl

theorem firstOutcome?_concat (n : Nat) (changes : List Change) (change : Change) :
    firstOutcome? n (changes ++ [change]) =
      if change.resets n then none
      else (firstOutcome? n changes).or (change.outcome? n) := by
  rw [firstOutcome?, sinceReset_concat]
  by_cases hreset : change.resets n
  · rw [if_pos hreset, if_pos hreset, List.findSome?_nil]
  · have hlast : [change].findSome? (Change.outcome? n) = change.outcome? n :=
      List.findSome?_singleton
    rw [if_neg hreset, if_neg hreset, List.findSome?_append, hlast, firstOutcome?]

/-- **The last change of a history** has its effect on what the history before has left. -/
theorem resolutionAfter_concat (n : Nat) (start : Resolution) (changes : List Change)
    (change : Change) :
    resolutionAfter n start (changes ++ [change]) =
      change.effect n (resolutionAfter n start changes) := by
  have hany : (changes ++ [change]).any (Change.resets n) =
      (changes.any (Change.resets n) || change.resets n) := by
    rw [List.any_append, List.any_cons, List.any_nil, Bool.or_false]
  rw [Change.effect, resolutionAfter, hany, firstOutcome?_concat]
  cases hreset : change.resets n with
  | true =>
    -- Nothing before a reset counts.
    rw [Bool.or_true, Bool.not_true, Bool.and_false, if_pos rfl, if_pos rfl]
    rfl
  | false =>
    rw [Bool.or_false, resolutionAfter]
    by_cases hkept : (start.isSettled && !changes.any (Change.resets n)) = true
    · -- What was settled at the start refuses, as it has done all along.
      have hstart : start.isSettled = true := (Bool.and_eq_true_iff.mp hkept).1
      rw [if_pos hkept, if_pos hkept, if_neg Bool.false_ne_true, if_pos hstart]
    · rw [if_neg hkept, if_neg hkept, if_neg Bool.false_ne_true, if_neg Bool.false_ne_true]
      cases firstOutcome? n changes with
      | some outcome =>
        have hsettled := Resolution.isSettled_ofOutcome outcome
        rw [Option.some_or, if_pos hsettled]
      | none =>
        -- Nothing is known of the reference, so that the attempt counts if it is one.
        rw [Option.none_or]
        rfl

/-! ### One change, as each reference sees it -/

/-- An attempt to settle the reference `m`, as the reference `n` sees it. -/
theorem getElem?_transfers_settleAt (p : Procedure) (m : Nat) (outcome : Option BlockId)
    (n : Nat) :
    (p.settleAt m outcome).1.transfers[n]? = p.transfers[n]?.map fun t =>
      if m = n ∧ t.2.resolution.isSettled = false then
        (t.1, { t.2 with resolution := .ofOutcome outcome })
      else t := by
  show (p.body.modifyTransfer m _).1.transfers[n]? = _
  rw [Block.getElem?_transfers_modifyTransfer]
  refine congrArg (fun g => p.body.transfers[n]?.map g) (funext fun t => ?_)
  by_cases hm : m = n
  · cases hs : t.2.resolution.isSettled with
    | true =>
      rw [if_pos hm, LabelReference.settle_of_isSettled hs, if_neg (by simp)]
    | false =>
      rw [if_pos hm, if_pos ⟨hm, rfl⟩, LabelReference.settle, hs]
      rfl
  · rw [if_neg hm, if_neg (fun h => hm h.1)]

theorem getElem?_transfers_resetAt (p : Procedure) (m n : Nat) :
    (p.resetAt m).1.transfers[n]? = p.transfers[n]?.map fun t =>
      if m = n then (t.1, t.2.reset) else t :=
  p.body.getElem?_transfers_modifyTransfer m (fun r => (r.reset, r.reset.resolution)) n

theorem transfers_resetResolutions (p : Procedure) :
    p.resetResolutions.transfers = p.transfers.map fun t => (t.1, t.2.reset) := by
  -- Forgetting everything is a walk that carries no state.
  have hwalk := p.body.statements.transfers_updateTransfers
    (fun _ r (st : Unit) => (r.reset, st)) ()
  rw [TransferUpdate.along_stateless] at hwalk
  exact congrArg Prod.fst hwalk

/-- **The step lemma.** A change has its effect on each reference, whichever it is made at, and no
transfer changes in any other way. -/
theorem getElem?_transfers_perform (p : Procedure) (change : Change) (n : Nat) :
    (p.perform change).transfers[n]? = p.transfers[n]?.map fun t =>
      (t.1, { t.2 with resolution := change.effect n t.2.resolution }) := by
  cases change with
  | settle m outcome =>
    rw [perform, getElem?_transfers_settleAt]
    refine congrArg (fun g => p.transfers[n]?.map g) (funext fun t => ?_)
    simp only [Change.effect, Change.resets, Change.outcome?]
    by_cases hm : m = n
    · cases hs : t.2.resolution.isSettled with
      | true => rw [if_neg (by simp)]; rfl
      | false => simp [hm]
    · simp [hm]
  | reset m =>
    rw [perform, getElem?_transfers_resetAt]
    refine congrArg (fun g => p.transfers[n]?.map g) (funext fun t => ?_)
    simp only [Change.effect, Change.resets, Change.outcome?]
    by_cases hm : m = n
    · simp [hm, LabelReference.reset]
    · simp [hm]
  | resetAll =>
    rw [perform, transfers_resetResolutions, List.getElem?_map]
    rfl

/-! ### Attempts to settle -/

theorem answer_settleAt (p : Procedure) (n : Nat) (outcome : Option BlockId) :
    (p.settleAt n outcome).2 = p.transfers[n]?.map fun t =>
      match t.2.settle outcome with
      | .ok r => (r.resolution, none)
      | .error held => (t.2.resolution, some held) := by
  show (p.body.modifyTransfer n _).2 = _
  rw [(p.body.modifyTransfer_spec n _).2]
  refine congrArg (fun g => p.transfers[n]?.map g) (funext fun t => ?_)
  cases t.2.settle outcome <;> rfl

theorem answer_settleAt_of_unresolved {p : Procedure} {n : Nat}
    {t : TransferKind × LabelReference} (ht : p.transfers[n]? = some t)
    (hr : t.2.resolution = .unresolved) (outcome : Option BlockId) :
    (p.settleAt n outcome).2 = some (.ofOutcome outcome, none) := by
  rw [answer_settleAt, ht, Option.map_some, LabelReference.settle, hr]
  rfl

/-- **A settled reference refuses.** The answer is what it holds, and nothing changes. -/
theorem settleAt_of_isSettled {p : Procedure} {n : Nat} {t : TransferKind × LabelReference}
    (ht : p.transfers[n]? = some t) (hs : t.2.resolution.isSettled = true)
    (outcome : Option BlockId) :
    p.settleAt n outcome = (p, some (t.2.resolution, some t.2.resolution)) := by
  -- A reference that refuses is handed back as it is, and so is the whole body.
  have hrefused := LabelReference.settle_of_isSettled hs outcome
  have hbody : (p.settleAt n outcome).1.body = p.body := by
    apply p.body.modifyTransfer_eq_self n _ ht
    rw [hrefused]
  apply Prod.ext
  · show { p with body := (p.settleAt n outcome).1.body } = p
    rw [hbody]
  · rw [answer_settleAt, ht, Option.map_some, hrefused]

/-! ### A whole history -/

theorem performAll_concat (p : Procedure) (changes : List Change) (change : Change) :
    p.performAll (changes ++ [change]) = (p.performAll changes).perform change :=
  List.foldl_concat _ _ _ _

/-- **The run lemma.** After a history each reference holds what the history says of it, and no
transfer has changed in any other way. By induction on the history, with the step lemma for its
last change. -/
theorem getElem?_transfers_performAll (p : Procedure) (changes : List Change) (n : Nat) :
    (p.performAll changes).transfers[n]? = p.transfers[n]?.map fun t =>
      (t.1, { t.2 with resolution := resolutionAfter n t.2.resolution changes }) := by
  induction changes using List.reverseRecOn with
  | nil =>
    show p.transfers[n]? = _
    simp only [resolutionAfter_nil, Option.map_id']
  | append_singleton changes change ih =>
    rw [performAll_concat, getElem?_transfers_perform, ih, Option.map_map]
    refine congrArg (fun g => p.transfers[n]?.map g) (funext fun t => ?_)
    rw [Function.comp_apply, resolutionAfter_concat]

theorem freshCopy_perform (p : Procedure) (change : Change) :
    (p.perform change).freshCopy = p.freshCopy := by
  cases change with
  | settle n outcome => exact p.freshCopy_settleAt n outcome
  | reset n => exact p.freshCopy_resetAt n
  | resetAll => exact p.freshCopy_resetResolutions

theorem freshCopy_performAll (p : Procedure) (changes : List Change) :
    (p.performAll changes).freshCopy = p.freshCopy := by
  induction changes using List.reverseRecOn with
  | nil => rfl
  | append_singleton changes change ih => rw [performAll_concat, freshCopy_perform, ih]

/-- **What has to hold after a history.** By the changes `changes` the procedure `p` has become
`p'`. -/
structure SettlesOnce (p : Procedure) (changes : List Change) (p' : Procedure) : Prop where
  /-- Each reference holds what the history says of it. -/
  transfers_eq : ∀ n : Nat, p'.transfers[n]? = p.transfers[n]?.map fun t =>
    (t.1, { t.2 with resolution := resolutionAfter n t.2.resolution changes })
  /-- Apart from what is known of its references, the procedure is what it was. -/
  freshCopy_eq : p'.freshCopy = p.freshCopy
  /-- A next attempt to settle a reference succeeds if it is unresolved, and only then. -/
  accepts_iff : ∀ (n : Nat) t outcome, p'.transfers[n]? = some t →
    ((∃ now, (p'.settleAt n outcome).2 = some (now, none)) ↔ t.2.resolution = .unresolved)
  /-- Otherwise the answer is the resolution that the reference holds, and nothing changes. -/
  settleAt_eq_of_ne : ∀ (n : Nat) t outcome, p'.transfers[n]? = some t →
    t.2.resolution ≠ .unresolved →
      p'.settleAt n outcome = (p', some (t.2.resolution, some t.2.resolution))
  /-- What is done to one reference leaves all others alone. -/
  others_eq : ∀ (m n : Nat) outcome, m ≠ n →
    (p'.settleAt m outcome).1.transfers[n]? = p'.transfers[n]? ∧
      (p'.resetAt m).1.transfers[n]? = p'.transfers[n]?

/-- **Between two resets a reference settles once,** whatever the procedure, the state that it
begins in, and the history. -/
theorem settlesOnce_performAll (p : Procedure) (changes : List Change) :
    p.SettlesOnce changes (p.performAll changes) := by
  constructor
  case transfers_eq => exact p.getElem?_transfers_performAll changes
  case freshCopy_eq => exact p.freshCopy_performAll changes
  case accepts_iff =>
    intro n t outcome ht
    constructor
    · rintro ⟨now, haccepted⟩
      by_contra hr
      -- A settled reference would have refused.
      rw [settleAt_of_isSettled ht (Resolution.isSettled_iff.mpr hr)] at haccepted
      cases haccepted
    · intro hr
      exact ⟨_, answer_settleAt_of_unresolved ht hr outcome⟩
  case settleAt_eq_of_ne =>
    intro n t outcome ht hr
    exact settleAt_of_isSettled ht (Resolution.isSettled_iff.mpr hr) outcome
  case others_eq =>
    intro m n outcome hne
    rw [getElem?_transfers_settleAt, getElem?_transfers_resetAt]
    simp only [hne, false_and, if_false, Option.map_id', and_self]

end Procedure

end LabelCheck
