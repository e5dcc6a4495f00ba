import LabelCheck.Lexical
import LabelCheck.Scope

/-!
# Scope trees and the blocks around a place

A scope tree stores the nesting of a body as numbers. The chain of scopes that starts at a place
is the list of the blocks around that place, so that the search along the chain is the lexical one.

* `Statements.scopeList`: the scopes of a sequence by recursion, with `toList_addScopes` as the law
  that ties them to the table;
* `ScopeTree.Leads`: the entries of the table at a place lead outward along given blocks;
* `ScopeTree.resolve_of_leads`: a search from there finds what the name denotes lexically.
-/

namespace LabelCheck

namespace Statements

/-- The scopes of the blocks at all depths of a sequence that stands directly in the block with
scope `parent`, numbered from `next` on. -/
def scopeList : (parent : ScopeId) → (depth next : Nat) → Statements → List Scope
  | _, _, _, nil => []
  | parent, depth, next, sql _ _ rest => rest.scopeList parent depth next
  | parent, depth, next, transfer _ _ rest => rest.scopeList parent depth next
  | parent, depth, next, block header inner rest =>
    Scope.of next (some parent) header depth ::
      inner.scopeList ⟨parent.tree, next⟩ (depth + 1) (next + 1) ++
        rest.scopeList parent depth (next + 1 + inner.blockCount)

@[simp] theorem length_scopeList (parent : ScopeId) (depth next : Nat) (s : Statements) :
    (s.scopeList parent depth next).length = s.blockCount := by
  induction s generalizing parent depth next with
  | nil => rfl
  | sql _ _ rest ih => exact ih ..
  | transfer _ _ rest ih => exact ih ..
  | block header inner rest ihInner ihRest =>
    simp only [scopeList, List.cons_append, List.length_cons, List.length_append, ihInner, ihRest,
      blockCount]
    omega

/-- The table grows by the scopes of the sequence. -/
theorem toList_addScopes (parent : ScopeId) (depth : Nat) (s : Statements)
    (scopes : Array Scope) :
    (s.addScopes parent depth scopes).toList =
      scopes.toList ++ s.scopeList parent depth scopes.size := by
  induction s generalizing parent depth scopes with
  | nil => simp [addScopes, scopeList]
  | sql _ _ rest ih => exact ih ..
  | transfer _ _ rest ih => exact ih ..
  | block header inner rest ihInner ihRest =>
    have hsize : ∀ (parent : ScopeId) (depth : Nat) (scopes : Array Scope),
        (inner.addScopes parent depth scopes).size = scopes.size + inner.blockCount := by
      intro parent depth scopes
      rw [← Array.length_toList, ihInner, List.length_append, length_scopeList,
        Array.length_toList]
    simp only [addScopes, scopeList, ihRest, ihInner, hsize, Array.toList_push, Array.size_push,
      List.append_assoc, List.cons_append, List.nil_append]

end Statements

namespace ScopeTree

/-- The table of a body: the scope of the outermost block and then those of its statements. -/
theorem toList_scopes_build (stamp : Stamp) (body : Block) :
    (build stamp body).scopes.toList =
      Scope.of 0 none body.header 0 :: body.statements.scopeList ⟨stamp, 0⟩ 1 1 := by
  simp [build, Statements.toList_addScopes]

/-- The entries of the table from the place `index` on lead outward along the blocks `around`. -/
def Leads (t : ScopeTree) : (index : Nat) → (around : List (BlockId × Header)) → Prop
  | _, [] => False
  | index, [(id, header)] => id = ⟨index⟩ ∧ t.scopes[index]? = some (.of index none header 0)
  | index, (id, header) :: (outerId, outer) :: rest =>
    id = ⟨index⟩ ∧ outerId.index < index ∧
      t.scopes[index]? =
        some (.of index (some (t.idAt outerId.index)) header (rest.length + 1)) ∧
      t.Leads outerId.index ((outerId, outer) :: rest)

/-- A block directly inside goes on with the chain of the block around it. -/
theorem Leads.cons {t : ScopeTree} {index inner : Nat} {around : List (BlockId × Header)}
    (h : t.Leads index around) (hlt : index < inner) {header : Header}
    (hs : t.scopes[inner]? =
      some (.of inner (some (t.idAt index)) header around.length)) :
    t.Leads inner ((⟨inner⟩, header) :: around) := by
  match around, h with
  | [(_, _)], ⟨rfl, h⟩ => exact ⟨rfl, hlt, hs, rfl, h⟩
  | (_, _) :: (_, _) :: _, ⟨rfl, h⟩ => exact ⟨rfl, hlt, hs, rfl, h⟩

/-- The walk along the chain meets the blocks around the place, in their order. -/
theorem ancestors_of_leads {t : ScopeTree} {index : Nat} {around : List (BlockId × Header)}
    (h : t.Leads index around) :
    ∃ chain, t.ancestors (t.idAt index) = .ok chain ∧
      chain.map (fun entry => (entry.1, entry.2.block, entry.2.label)) =
        around.map fun entry => (t.idAt entry.1.index, entry.1, entry.2.label) := by
  induction around generalizing index with
  | nil => exact h.elim
  | cons entry rest ih =>
    cases rest with
    | nil =>
      obtain ⟨hid, hs⟩ := h
      exact ⟨_, ancestors_of_parent_eq_none (scope_idAt hs) rfl, by simp [Scope.of, hid]⟩
    | cons outer rest =>
      obtain ⟨hid, hlt, hs, hl⟩ := h
      obtain ⟨chain, hc, hm⟩ := ih hl
      exact ⟨_, ancestors_of_parent_eq_some (scope_idAt hs) rfl hlt hc,
        by simp [Scope.of, hm, hid]⟩

/-- The chain goes strictly outward: the numbers of its blocks decrease, from that of the place
on. -/
theorem Leads.pairwise_index {t : ScopeTree} {index : Nat} {around : List (BlockId × Header)}
    (h : t.Leads index around) :
    (around.map fun entry => entry.1.index).Pairwise (· > ·) ∧
      ∀ entry ∈ around, entry.1.index ≤ index := by
  induction around generalizing index with
  | nil => exact h.elim
  | cons entry rest ih =>
    cases rest with
    | nil =>
      obtain ⟨hid, _⟩ := h
      simp [hid]
    | cons outer rest =>
      obtain ⟨hid, hlt, _, hl⟩ := h
      obtain ⟨hdecreasing, hle⟩ := ih hl
      have hbelow : ∀ entry ∈ outer :: rest, entry.1.index < index := by
        intro entry he
        exact Nat.lt_of_le_of_lt (hle entry he) hlt
      rw [List.map_cons, List.pairwise_cons]
      refine ⟨⟨?_, hdecreasing⟩, ?_⟩
      · intro j hj
        obtain ⟨entry, he, rfl⟩ := List.mem_map.mp hj
        rw [hid]
        exact hbelow entry he
      · intro entry he
        rcases List.mem_cons.mp he with rfl | he
        · exact Nat.le_of_eq (congrArg BlockId.index hid)
        · exact Nat.le_of_lt (hbelow entry he)

/-- A search along the chain finds the block that the name denotes lexically. -/
theorem resolve_of_leads {t : ScopeTree} {index : Nat} {around : List (BlockId × Header)}
    (h : t.Leads index around) (target : Identifier) (m : NameMatcher) :
    t.resolve (t.idAt index) target m = .ok (lexicalOutcome m around target) := by
  rw [resolve_eq_nearest]
  induction around generalizing index with
  | nil => exact h.elim
  | cons entry rest ih =>
    -- The scope at the place has the label of the innermost block.
    cases hc : entry.2.carries m target with
    | true =>
      cases rest with
      | nil =>
        obtain ⟨hid, hs⟩ := h
        rw [nearest_of_any (scope_idAt hs) hc]
        simp [lexicalOutcome, hc, Scope.of, hid]
      | cons outer rest =>
        obtain ⟨hid, _, hs, _⟩ := h
        rw [nearest_of_any (scope_idAt hs) hc]
        simp [lexicalOutcome, hc, Scope.of, hid]
    | false =>
      cases rest with
      | nil =>
        obtain ⟨_, hs⟩ := h
        rw [nearest_of_parent_eq_none (scope_idAt hs) hc rfl]
        simp [lexicalOutcome, hc]
      | cons outer rest =>
        obtain ⟨_, hlt, hs, hl⟩ := h
        rw [nearest_of_parent_eq_some (scope_idAt hs) hc rfl hlt, ih hl]
        simp [lexicalOutcome, hc]

/-- A place with a chain has a scope. -/
theorem scopeOf_of_leads {t : ScopeTree} {index : Nat} {around : List (BlockId × Header)}
    (h : t.Leads index around) : t.scopeOf ⟨index⟩ = some (t.idAt index) := by
  match around, h with
  | [(_, _)], ⟨_, hs⟩ => simp [scopeOf, hs, Scope.of]
  | (_, _) :: (_, _) :: _, ⟨_, _, hs, _⟩ => simp [scopeOf, hs, Scope.of]

end ScopeTree

end LabelCheck
