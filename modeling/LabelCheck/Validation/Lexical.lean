import Mathlib.Control.Monad.Basic
import LabelCheck.Scope.Chain
import LabelCheck.StandsAt
import LabelCheck.Validation

/-!
# Validation is the lexical reading

The walk over a body counts blocks, looks scopes up by number and facts by number. This module
shows that it gives what can be read off the body with the list of the blocks around each place:
no look-up fails, every reference is settled by the block it names lexically, and the diagnostics
are the lexical ones, in their order.

* `Walk.Setting.Fits`: the invariant, with a lemma for each way in which the walk goes on;
* `Walk.run_statements`: the walk over a sequence, from any state that has counted the blocks
  before it;
* `Procedure.validate_eq`: the validation of a procedure.

The invariant says that the table of scopes and the facts hold, at the number of the next block,
the entries of the blocks still to be entered, and that the scopes from the block at hand lead
outward along the blocks around it.
-/

namespace LabelCheck

/-- No reference of a sequence has been settled. -/
def Statements.Fresh : Statements → Prop
  | nil => True
  | sql _ _ rest => rest.Fresh
  | transfer _ r rest => r.resolution = .unresolved ∧ rest.Fresh
  | block _ inner rest => inner.Fresh ∧ rest.Fresh

namespace Walk

/-- The state after some more diagnostics have been reported. -/
def State.told (st : State) (ds : List Diagnostic) : State :=
  { st with diagnostics := st.diagnostics ++ ds.toArray }

theorem run_report (d : Diagnostic) (st : State) :
    (report d).run st = .ok ((), st.told [d]) := by
  show Except.ok ((), { st with diagnostics := st.diagnostics.push d }) = _
  simp [State.told]

@[simp] theorem State.told_nil (st : State) : st.told [] = st := by simp [State.told]

theorem ok_bind {α β : Type} (a : α) (f : α → Except Fault β) : (Except.ok a >>= f) = f a := rfl

theorem pure_eq_ok {α : Type} (a : α) : (pure a : Except Fault α) = .ok a := rfl

variable {w : Setting} {c : Config}

theorem run_enter (header : Header) (st : State) :
    (enter w header).run st = .ok (⟨st.nextBlock⟩,
      { st with nextBlock := st.nextBlock + 1 }.told (header.labelDiagnostics w.sourceId)) := by
  cases hl : header.label with
  | none => simp [enter, hl, Header.labelDiagnostics, ok_bind, pure_eq_ok]
  | some label =>
    cases hk : header.kind <;>
      simp [enter, hl, hk, BlockKind.acceptsLabel, run_report, Header.labelDiagnostics, ok_bind,
        pure_eq_ok]

theorem run_leave (hm : w.matcher = c.matcher) (header : Header) (st : State) :
    (leave w header).run st =
      .ok ((), st.told (header.endLabelDiagnostics c.matcher w.sourceId)) := by
  cases he : header.endLabel with
  | none => simp [leave, he, Header.endLabelDiagnostics, pure_eq_ok]
  | some stop =>
    cases hc : header.carries c.matcher stop <;> rw [Header.carries] at hc <;>
      simp [leave, he, hm, hc, run_report, Header.endLabelDiagnostics, Header.carries,
        pure_eq_ok]

theorem run_reportUnresolved (hp : w.policy = c.policy) (kind : TransferKind)
    (r : LabelReference) (st : State) :
    (reportUnresolved w kind r).run st =
      .ok ((), st.told (c.policy.diagnostics w.sourceId kind r)) := by
  cases hc : c.policy <;>
    simp [reportUnresolved, hp, hc, run_report, UnresolvedPolicy.diagnostics, pure_eq_ok]

theorem run_checkIterate {found : BlockId} {header : Header}
    (hf : w.facts[found.index]? = some (.of header)) (r : LabelReference) (st : State) :
    (checkIterate w r found).run st =
      .ok ((), st.told (header.iterateDiagnostics w.sourceId r)) := by
  cases hk : header.kind <;> cases hs : header.span <;>
    simp [checkIterate, hf, hk, hs, BlockFacts.of, BlockKind.isIteration, run_report,
      iterateDiagnostic, iterateNote, Header.iterateDiagnostics, Header.iterateDiagnostic,
      Diagnostic.error, Diagnostic.addNote, Diagnostic.addSecondary, pure_eq_ok]

/-- The search from a place finds what the name denotes lexically. -/
theorem search_eq {index : Nat} {around : List (BlockId × Header)} (hm : w.matcher = c.matcher)
    (hl : w.tree.Leads index around) (r : LabelReference) :
    search w ⟨index⟩ r = .ok (lexicalOutcome c.matcher around r.target) := by
  simp [search, ScopeTree.scopeOf_of_leads hl, ScopeTree.resolve_of_leads hl, hm]

/-- A transfer is settled by the block it names lexically. -/
theorem run_transfer {index : Nat} {around : List (BlockId × Header)}
    (hm : w.matcher = c.matcher) (hp : w.policy = c.policy)
    (hl : w.tree.Leads index around)
    (hf : ∀ entry ∈ around, w.facts[entry.1.index]? = some (.of entry.2))
    (kind : TransferKind) {r : LabelReference} (hr : r.resolution = .unresolved) (st : State) :
    (transfer w ⟨index⟩ kind r).run st = .ok
      ({ r with resolution := .ofOutcome (lexicalOutcome c.matcher around r.target) },
        st.told (transferDiagnostics c w.sourceId (around.map Prod.snd) kind r)) := by
  -- The reference does not refuse the outcome of the search.
  have hsettle : ∀ outcome, r.settle outcome = .ok { r with resolution := .ofOutcome outcome } :=
    fun outcome => by simp [LabelReference.settle, hr, Resolution.isSettled]
  have hfind : (around.map Prod.snd).find? (Header.carries c.matcher r.target) =
      (around.find? fun entry => entry.2.carries c.matcher r.target).map Prod.snd := by
    rw [List.find?_map]
    rfl
  simp only [transfer, search_eq hm hl, settle, hsettle, transferDiagnostics, hfind,
    lexicalOutcome]
  cases hs : around.find? fun entry => entry.2.carries c.matcher r.target with
  | none =>
    cases kind <;> simp [ok_bind, run_reportUnresolved hp]
  | some entry =>
    have hmem := List.mem_of_find?_eq_some hs
    cases kind <;>
      simp [ok_bind, pure_eq_ok, run_checkIterate (hf entry hmem)]

/-- **The invariant of the walk.** The statements `s` stand directly in the block with the number
`index`, the blocks around them are `around`, and `next` blocks have been entered before them. -/
structure Setting.Fits (w : Setting) (index : Nat) (around : List (BlockId × Header)) (next : Nat)
    (s : Statements) : Prop where
  fresh : s.Fresh
  leads : w.tree.Leads index around
  facts_around : ∀ entry ∈ around, w.facts[entry.1.index]? = some (.of entry.2)
  /-- The block at hand has been entered. -/
  lt : index < next
  /-- The entries of the blocks still to be entered stand in both tables, from the next number
  on. -/
  scopes : StandsAt next (s.scopeList (w.tree.idAt index) around.length next) w.tree.scopes.toList
  facts : StandsAt next (s.headers.map BlockFacts.of) w.facts.toList

namespace Setting.Fits

variable {index next : Nat} {around : List (BlockId × Header)} {header : Header}
  {inner rest : Statements}

theorem sql {text : String} {span : Option Span}
    (h : w.Fits index around next (.sql text span rest)) : w.Fits index around next rest :=
  { h with }

theorem transfer {kind : TransferKind} {r : LabelReference}
    (h : w.Fits index around next (.transfer kind r rest)) : w.Fits index around next rest :=
  { h with fresh := h.fresh.2 }

/-- The block takes the next number, and both tables hold its entry there. -/
theorem inside (h : w.Fits index around next (.block header inner rest)) :
    w.Fits next ((⟨next⟩, header) :: around) (next + 1) inner := by
  have hfacts := h.facts
  rw [Statements.headers, List.map_cons, List.map_append] at hfacts
  refine ⟨h.fresh.1, h.leads.cons h.lt ?_, ?_, Nat.lt_succ_self next, h.scopes.tail.left,
    hfacts.tail.left⟩
  · rw [← Array.getElem?_toList]
    exact h.scopes.getElem?
  · intro entry he
    rcases List.mem_cons.mp he with rfl | he
    · rw [← Array.getElem?_toList]
      exact hfacts.getElem?
    · exact h.facts_around entry he

/-- Behind the entries of a block and its inside stand those of the rest. -/
theorem behind (h : w.Fits index around next (.block header inner rest)) :
    w.Fits index around (next + 1 + inner.blockCount) rest := by
  have hscopes := h.scopes.tail.right
  have hfacts := h.facts
  rw [Statements.headers, List.map_cons, List.map_append] at hfacts
  have hfacts := hfacts.tail.right
  rw [Statements.length_scopeList] at hscopes
  rw [List.length_map, Statements.length_headers] at hfacts
  have hlt := h.lt
  exact ⟨h.fresh.2, h.leads, h.facts_around, by omega, hscopes, hfacts⟩

/-- The invariant holds when the outermost block has been entered. -/
theorem body {b : Block} (hb : b.statements.Fresh) (stamp : Stamp)
    (htree : w.tree = ScopeTree.build stamp b)
    (hfacts : w.facts.toList = (b.header :: b.statements.headers).map BlockFacts.of) :
    w.Fits 0 [(.root, b.header)] 1 b.statements := by
  have hscopes := ScopeTree.toList_scopes_build stamp b
  have hid : w.tree.idAt 0 = ⟨stamp, 0⟩ := by rw [htree]; rfl
  rw [← htree] at hscopes
  refine ⟨hb, ⟨rfl, ?_⟩, ?_, Nat.zero_lt_one, ?_, ?_⟩
  · rw [← Array.getElem?_toList, hscopes]
    rfl
  · intro entry he
    rw [List.mem_singleton.mp he, ← Array.getElem?_toList, hfacts]
    rfl
  · rw [hscopes, hid]
    exact (StandsAt.refl _).tail
  · rw [hfacts]
    exact (StandsAt.refl _).tail

end Setting.Fits

/-- The walk over a sequence inside the blocks `around`. -/
theorem run_statements (hm : w.matcher = c.matcher) (hp : w.policy = c.policy) (s : Statements)
    {index : Nat} {around : List (BlockId × Header)} (st : State)
    (h : w.Fits index around st.nextBlock s) :
    (statements w ⟨index⟩ s).run st = .ok (s.settled c.matcher around st.nextBlock,
      { st with nextBlock := st.nextBlock + s.blockCount }.told
        (s.lexicalDiagnostics c w.sourceId (around.map Prod.snd))) := by
  induction s generalizing index around st with
  | nil => rfl
  | sql text span rest ih =>
    simp only [statements, StateT.run_bind]
    rw [ih st h.sql]
    rfl
  | transfer kind r rest ih =>
    simp only [statements, StateT.run_bind]
    rw [run_transfer hm hp h.leads h.facts_around kind h.fresh.1 st, ok_bind,
      ih (st.told _) h.transfer]
    simp [State.told, Statements.settled, Statements.blockCount, Statements.lexicalDiagnostics]
  | block header inner rest ihInner ihRest =>
    simp only [statements, StateT.run_bind]
    rw [run_enter, ok_bind, ihInner _ h.inside, ok_bind, run_leave hm, ok_bind, ihRest _ h.behind]
    simp [State.told, Statements.settled, Statements.blockCount, Statements.lexicalDiagnostics]
    omega

/-- The walk over a whole body. -/
theorem run_body (hm : w.matcher = c.matcher) (hp : w.policy = c.policy) (b : Block)
    (h : w.Fits 0 [(.root, b.header)] 1 b.statements) :
    (body w b).run {} = .ok (b.settled c.matcher,
      { ({} : State) with nextBlock := b.size }.told (b.lexicalDiagnostics c w.sourceId)) := by
  simp only [body, StateT.run_bind]
  rw [run_enter, ok_bind, run_statements hm hp b.statements _ h, ok_bind, run_leave hm]
  simp [State.told, Block.settled, Block.size, Block.lexicalDiagnostics, Nat.add_comm]

end Walk

/-! ### Forgetting what is known -/

namespace Statements

theorem fresh_reset (s : Statements) : s.reset.Fresh := by
  induction s with
  | nil => trivial
  | sql _ _ rest ih => exact ih
  | transfer _ _ rest ih => exact ⟨rfl, ih⟩
  | block _ inner rest ihInner ihRest => exact ⟨ihInner, ihRest⟩

theorem headers_reset (s : Statements) : s.reset.headers = s.headers := by
  induction s with
  | nil => rfl
  | sql _ _ rest ih => exact ih
  | transfer _ _ rest ih => exact ih
  | block _ inner rest ihInner ihRest => simp [headers, ihInner, ihRest]

theorem blockCount_reset (s : Statements) : s.reset.blockCount = s.blockCount := by
  rw [← length_headers, headers_reset, length_headers]

theorem settled_reset (m : NameMatcher) (around : List (BlockId × Header)) (next : Nat)
    (s : Statements) : s.reset.settled m around next = s.settled m around next := by
  induction s generalizing around next with
  | nil => rfl
  | sql _ _ rest ih => simp [settled, ih]
  | transfer _ _ rest ih => simp [settled, ih, LabelReference.reset]
  | block _ inner rest ihInner ihRest => simp [settled, ihInner, ihRest, blockCount_reset]

theorem lexicalDiagnostics_reset (c : Config) (sourceId : Nat) (around : List Header)
    (s : Statements) :
    s.reset.lexicalDiagnostics c sourceId around = s.lexicalDiagnostics c sourceId around := by
  induction s generalizing around with
  | nil => rfl
  | sql _ _ rest ih => exact ih around
  | transfer kind r rest ih =>
    have hr : transferDiagnostics c sourceId around kind r.reset =
        transferDiagnostics c sourceId around kind r := rfl
    simp [lexicalDiagnostics, ih, hr]
  | block _ inner rest ihInner ihRest => simp [lexicalDiagnostics, ihInner, ihRest]

end Statements

/-- The walk of a validation begins with the invariant. The facts are listed by the stack walk, the
scopes by recursion; both go over the same blocks. -/
theorem Procedure.fits_walkSetting (p : Procedure) (c : Config) (stamp : Stamp) :
    (p.resetResolutions.walkSetting c stamp).Fits 0 [(.root, p.body.header)] 1
      p.body.statements.reset := by
  refine Walk.Setting.Fits.body (b := p.body.reset) (Statements.fresh_reset _) stamp rfl ?_
  have h := congrArg (List.map BlockFacts.of)
    (Statements.map_header_numbered 1 p.body.statements.reset)
  simp only [List.map_map] at h
  simp only [walkSetting, resetResolutions, Block.reset, Block.blocks_eq_numbered, List.map_cons,
    ← h]
  rfl

/-- A validation never meets a fault; it settles every reference by the block it names lexically
and reports the lexical diagnostics. Neither the stamp nor what was known before counts. -/
theorem Procedure.validate_eq (p : Procedure) (c : Config) (stamp : Stamp) :
    p.validate c stamp = .ok {
      procedure := { p with body := p.body.settled c.matcher }
      diagnostics := p.body.lexicalDiagnostics c p.sourceId
      refused := [] } := by
  have h := Walk.run_body (c := c) rfl rfl p.body.reset (p.fits_walkSetting c stamp)
  simp only [validate]
  rw [show p.resetResolutions.body = p.body.reset from rfl, h]
  simp [Walk.ok_bind, Walk.pure_eq_ok, Walk.State.told, resetResolutions, walkSetting,
    Block.settled, Block.lexicalDiagnostics, Block.reset, Statements.settled_reset,
    Statements.lexicalDiagnostics_reset]

end LabelCheck
