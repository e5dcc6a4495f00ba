import LabelCheck.Proofs.Ownership
import LabelCheck.Validation.Events

/-!
# A validation meets no fault

Three look-ups of the walk could find nothing: that of the scope of the block at hand, those of the
scopes around it, and that of the facts about the block that was found. All of them are made in
visits to transfers. `Walk.Visit.Safe` says of a visit that each of the three finds what it looks
for, and `Procedure.validate_safe` that all visits of a validation are safe, so that the validation
gives a result.

The invariant of the walk carries the proof. At every transfer it provides the chain of scopes that
starts at the block at hand and an entry of facts for every block on that chain, and a search can
only find a block on the chain.
-/

namespace LabelCheck

namespace Walk

/-- **A safe visit.** Every look-up that it makes finds something. -/
structure Visit.Safe (w : Setting) (v : Visit) : Prop where
  /-- The block at hand is one of those that have been entered so far. -/
  entered : v.container.index < v.state.nextBlock
  /-- It has a scope. -/
  scopeOf_eq : w.tree.scopeOf v.container = some (w.tree.idAt v.container.index)
  /-- The way outward from that scope comes to its end. It meets only scopes that are named under
  the stamp of the tree and have a place in its table. -/
  exists_ancestors : ∃ chain, w.tree.ancestors (w.tree.idAt v.container.index) = .ok chain ∧
    ∀ entry ∈ chain, w.tree.Names entry.1
  /-- The search along that way gives an answer, and facts are known about the block that it
  finds. -/
  exists_search : ∃ found, search w v.container v.reference = .ok found ∧
    ∀ id, found = some id → ∃ facts, w.facts[id.index]? = some facts
  /-- With all of this the visit gives a result. -/
  exists_run : ∃ result, (transfer w v.container v.kind v.reference).run v.state = .ok result

/-- What a name denotes lexically is one of the blocks around. -/
theorem exists_mem_of_lexicalOutcome_eq_some {m : NameMatcher}
    {around : List (BlockId × Header)} {target : Identifier} {id : BlockId}
    (h : lexicalOutcome m around target = some id) : ∃ header, (id, header) ∈ around := by
  obtain ⟨⟨id', header⟩, hfind, hid⟩ := Option.map_eq_some_iff.mp h
  have hid : id' = id := hid
  rw [hid] at hfind
  exact ⟨header, List.mem_of_find?_eq_some hfind⟩

/-- The invariant makes a visit safe. -/
theorem Setting.Fits.safe {w : Setting} {c : Config} (hm : w.matcher = c.matcher)
    (hp : w.policy = c.policy) (htree : w.tree.Ordered) {index : Nat}
    {around : List (BlockId × Header)} {kind : TransferKind} {r : LabelReference}
    {rest : Statements} {st : State}
    (h : w.Fits index around st.nextBlock (.transfer kind r rest)) :
    Visit.Safe w ⟨⟨index⟩, kind, r, st⟩ := by
  have hscopeOf := ScopeTree.scopeOf_of_leads h.leads
  have hnames : w.tree.Names (w.tree.idAt index) := ScopeTree.names_of_scopeOf_eq_some hscopeOf
  obtain ⟨scope, hscope⟩ := hnames.exists_scope
  obtain ⟨chain, hchain, hall⟩ := htree.exists_ancestors hscope
  refine ⟨h.lt, hscopeOf, ⟨_, hchain, ?_⟩, ⟨_, search_eq hm h.leads r, ?_⟩,
    ⟨_, run_transfer hm hp h.leads h.facts_around kind h.fresh.1 st⟩⟩
  · intro entry he
    exact ScopeTree.names_of_scope_eq_ok (hall entry he)
  · intro id hfound
    obtain ⟨header, hmem⟩ := exists_mem_of_lexicalOutcome_eq_some hfound
    exact ⟨.of header, h.facts_around _ hmem⟩

end Walk

/-- **A validation meets no fault.** It visits every transfer of the body once, in source order and
with nothing known of it, whatever was known before; each of these visits is safe; and it gives a
result. -/
theorem Procedure.validate_safe (p : Procedure) (c : Config) (stamp : Stamp) :
    (p.visits c stamp).map Walk.Visit.listed = p.resetResolutions.transfers ∧
      (∀ v ∈ p.visits c stamp, v.Safe (p.resetResolutions.walkSetting c stamp)) ∧
      ∃ result, p.validate c stamp = .ok result := by
  have hsafe : ∀ v ∈ p.visits c stamp, v.Safe (p.resetResolutions.walkSetting c stamp) :=
    p.forall_mem_visits c stamp fun h => h.safe rfl rfl (ScopeTree.ordered_build _ _)
  refine ⟨p.visits_eq_transfers c stamp, hsafe, ?_⟩
  cases hvalidate : p.validate c stamp with
  | ok result => exact ⟨result, rfl⟩
  | error f =>
    -- A fault would be that of a visit, but all of them give results.
    obtain ⟨v, hmem, hfault⟩ := p.exists_visit_of_validate_eq_error c stamp hvalidate
    obtain ⟨result, hresult⟩ := (hsafe v hmem).exists_run
    rw [hresult] at hfault
    cases hfault

end LabelCheck
