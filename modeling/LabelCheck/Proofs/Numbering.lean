import LabelCheck.Scope.Chain
import LabelCheck.Validation.Events
import Mathlib.Data.List.Indexes

/-!
# One numbering of the blocks

Blocks are numbered in four places: by the listing that works off a stack, by the table of scopes
that grows behind a recursion, by the look-up of a block in the listing, and by the count that a
validation keeps on its way. All of them are the places of the blocks in one list, the pre-order of
the tree: a block, and then for each block directly inside it, from left to right, the same again.

* `Block.preorder`: that list, with `Block.preorder_eq` as its rule;
* `Block.blocks_eq_mapIdx_preorder`: the stack gives the list with the numbers 0, 1, 2 and so on;
* `ScopeTree.map_summary_scopes_build`: the table says of each block what the listing has of it;
* `Procedure.numberings_agree`: all numberings of a body agree.
-/

namespace LabelCheck

/-! ### The pre-order of the tree -/

/-- The blocks at all depths of a sequence, each before those inside it. -/
def Statements.preorder : Statements → List Block
  | nil => []
  | sql _ _ rest => rest.preorder
  | transfer _ _ rest => rest.preorder
  | block header inner rest => ⟨header, inner⟩ :: (inner.preorder ++ rest.preorder)

/-- **The pre-order of a tree of blocks.** -/
def Block.preorder (b : Block) : List Block := b :: b.statements.preorder

/-- The blocks of a sequence are those of its first level, each with the blocks inside it. -/
theorem Statements.preorder_eq_flatMap (s : Statements) :
    s.preorder = s.childBlocks.flatMap Block.preorder := by
  induction s with
  | nil => rfl
  | sql _ _ rest ih => exact ih
  | transfer _ _ rest ih => exact ih
  | block header inner rest _ ih =>
    rw [preorder, childBlocks, List.flatMap_cons, ← ih]
    rfl

/-- **The rule of the pre-order:** a block, and then those directly inside it, from left to right,
each with all of its own. -/
theorem Block.preorder_eq (b : Block) : b.preorder = b :: b.children.flatMap Block.preorder := by
  rw [preorder, Statements.preorder_eq_flatMap, children]

theorem Statements.length_preorder (s : Statements) : s.preorder.length = s.blockCount := by
  induction s with
  | nil => rfl
  | sql _ _ rest ih => exact ih
  | transfer _ _ rest ih => exact ih
  | block header inner rest ihInner ihRest =>
    rw [preorder, List.length_cons, List.length_append, ihInner, ihRest, blockCount]
    omega

/-- The numbers of the recursive listing are the places in the pre-order. -/
theorem Statements.numbered_eq_mapIdx (next : Nat) (s : Statements) :
    s.numbered next = s.preorder.mapIdx fun n b => (⟨next + n⟩, b) := by
  induction s generalizing next with
  | nil => rfl
  | sql _ _ rest ih => exact ih next
  | transfer _ _ rest ih => exact ih next
  | block header inner rest ihInner ihRest =>
    rw [numbered, preorder, List.mapIdx_cons, List.mapIdx_append, ihInner, ihRest, length_preorder]
    -- The blocks inside come one place later, those of the rest behind all of them.
    have hinner : (fun n (b : Block) => ((⟨next + 1 + n⟩ : BlockId), b)) =
        fun n b => (⟨next + (n + 1)⟩, b) := by
      funext n b
      rw [Nat.add_assoc, Nat.add_comm 1 n]
    have hrest : (fun n (b : Block) => ((⟨next + 1 + inner.blockCount + n⟩ : BlockId), b)) =
        fun n b => (⟨next + (n + inner.blockCount + 1)⟩, b) := by
      funext n b
      congr 2
      omega
    rw [hinner, hrest]
    rfl

/-- **The listing by a stack is the pre-order,** numbered from 0 on. -/
theorem Block.blocks_eq_mapIdx_preorder (b : Block) :
    b.blocks = b.preorder.mapIdx fun n inner => (⟨n⟩, inner) := by
  rw [blocks_eq_numbered, Statements.numbered_eq_mapIdx, preorder, List.mapIdx_cons]
  congr 2
  funext n inner
  rw [Nat.add_comm]

theorem Block.length_blocks (b : Block) : b.blocks.length = b.size := by
  rw [blocks_eq_mapIdx_preorder, List.length_mapIdx, preorder, List.length_cons,
    Statements.length_preorder, size]

/-- The block at a place of the listing has its place as its number. -/
theorem Block.getElem?_blocks (b : Block) (n : Nat) :
    b.blocks[n]? = (b.block? ⟨n⟩).map fun inner => (⟨n⟩, inner) := by
  rw [block?, blocks_eq_mapIdx_preorder, List.getElem?_mapIdx, Option.map_map, Option.map_map]
  rfl

/-- A block has a number below the number of blocks, and every number below that is one. -/
theorem Block.isSome_block?_iff (b : Block) (n : Nat) : (b.block? ⟨n⟩).isSome ↔ n < b.size := by
  rw [block?, Option.isSome_map, Option.isSome_iff_ne_none, Ne, List.getElem?_eq_none_iff,
    Nat.not_le, length_blocks]

/-! ### The table of scopes -/

/-- What a scope says of its block. -/
def Scope.summary (s : Scope) : BlockId × Option Identifier × Bool :=
  (s.block, s.label, s.iteration)

/-- What the scope of a block with a number has to say of it. -/
def Block.summary (b : Block) (id : BlockId) : BlockId × Option Identifier × Bool :=
  (id, b.label, b.kind.isIteration)

theorem Statements.map_summary_scopeList (parent : ScopeId) (depth next : Nat) (s : Statements) :
    (s.scopeList parent depth next).map Scope.summary =
      (s.numbered next).map fun (id, b) => b.summary id := by
  induction s generalizing parent depth next with
  | nil => rfl
  | sql _ _ rest ih => exact ih parent depth next
  | transfer _ _ rest ih => exact ih parent depth next
  | block header inner rest ihInner ihRest =>
    rw [scopeList, numbered, List.cons_append, List.cons_append, List.map_cons, List.map_cons,
      List.map_append, List.map_append, ihInner, ihRest]
    rfl

namespace ScopeTree

/-- **The table is the listing,** as far as the scopes tell of their blocks. -/
theorem map_summary_scopes_build (stamp : Stamp) (b : Block) :
    (build stamp b).scopes.toList.map Scope.summary =
      b.blocks.map fun (id, inner) => inner.summary id := by
  rw [toList_scopes_build, Block.blocks_eq_numbered, List.map_cons, List.map_cons,
    Statements.map_summary_scopeList]
  rfl

theorem size_build (stamp : Stamp) (b : Block) : (build stamp b).size = b.size := by
  have h := congrArg List.length (map_summary_scopes_build stamp b)
  rw [List.length_map, List.length_map, Array.length_toList, Block.length_blocks] at h
  exact h

/-- The scope at a place is that of the block with this number. -/
theorem block_of_getElem?_scopes_build {stamp : Stamp} {b : Block} {n : Nat} {scope : Scope}
    (h : (build stamp b).scopes[n]? = some scope) : scope.block = ⟨n⟩ := by
  -- The scope and the block at the place `n` say the same of the number.
  have hsummary := congrArg (fun l => l[n]?) (map_summary_scopes_build stamp b)
  simp only [List.getElem?_map, Array.getElem?_toList, h, Block.getElem?_blocks] at hsummary
  obtain ⟨entry, hentry, hsame⟩ := Option.map_eq_some_iff.mp hsummary.symm
  obtain ⟨inner, _, rfl⟩ := Option.map_eq_some_iff.mp hentry
  exact (congrArg Prod.fst hsame).symm

/-- The blocks with a number below the number of blocks have a scope, and no others have. -/
theorem isSome_scopeOf_build_iff (stamp : Stamp) (b : Block) (n : Nat) :
    ((build stamp b).scopeOf ⟨n⟩).isSome ↔ n < b.size := by
  rw [← size_build stamp b, Option.isSome_iff_exists]
  constructor
  · rintro ⟨id, h⟩
    obtain ⟨⟨scope, hscope, _⟩, _⟩ := scopeOf_eq_some_iff.mp h
    exact (Array.getElem?_eq_some_iff.mp hscope).1
  · intro hlt
    have hscope := getElem?_pos (build stamp b).scopes n hlt
    exact ⟨_, scopeOf_eq_some_iff.mpr
      ⟨⟨_, hscope, block_of_getElem?_scopes_build hscope⟩, rfl⟩⟩

end ScopeTree

/-! ### The count of a validation -/

/-- Forgetting what is known of the references keeps the numbers of all blocks. -/
theorem Statements.numbered_reset (next : Nat) (s : Statements) :
    s.reset.numbered next = (s.numbered next).map fun (id, b) => (id, b.reset) := by
  induction s generalizing next with
  | nil => rfl
  | sql _ _ rest ih => exact ih next
  | transfer _ _ rest ih => exact ih next
  | block header inner rest ihInner ihRest =>
    rw [reset_block, numbered, numbered, ihInner, blockCount_reset, ihRest, List.cons_append,
      List.cons_append, List.map_cons, List.map_append]
    rfl

theorem Block.blocks_reset (b : Block) :
    b.reset.blocks = b.blocks.map fun (id, inner) => (id, inner.reset) := by
  rw [blocks_eq_numbered, blocks_eq_numbered, reset, Statements.numbered_reset]
  rfl

namespace Procedure

/-- **The numberings agree.** `t` is a scope tree of the body of the procedure, and `entered` are
the blocks that a validation enters, with the numbers that it gives them. -/
structure NumberedAlike (p : Procedure) (t : ScopeTree) (entered : List (BlockId × Block)) :
    Prop where
  /-- The listing by a stack is the pre-order with the numbers 0, 1, 2 and so on. -/
  blocks_eq : p.body.blocks = p.body.preorder.mapIdx fun n b => (⟨n⟩, b)
  /-- In pre-order comes a block and then, for the blocks directly inside it, the same again. -/
  preorder_eq : ∀ b : Block, b.preorder = b :: b.children.flatMap Block.preorder
  /-- The scope at each place has the number, the label and the kind of the block there. -/
  scopes_eq : t.scopes.toList.map (fun scope => (scope.block, scope.label, scope.iteration)) =
    p.body.blocks.map fun (id, b) => (id, b.label, b.kind.isIteration)
  size_eq : t.size = p.body.blocks.length
  /-- The numbers below the number of blocks name a block, and no others do. -/
  isSome_block?_iff : ∀ n, (p.block? ⟨n⟩).isSome ↔ n < p.body.blocks.length
  /-- The same numbers have a scope. -/
  isSome_scopeOf_iff : ∀ n, (t.scopeOf ⟨n⟩).isSome ↔ n < p.body.blocks.length
  /-- The scope of a number is the scope of that block. -/
  block_scopeOf : ∀ n id, t.scopeOf ⟨n⟩ = some id →
    ∃ scope, t.scope id = .ok scope ∧ scope.block = ⟨n⟩
  /-- A validation enters the blocks of the listing, in its order and under its numbers, and knows
  nothing of their references then. -/
  entered_eq : entered = p.body.blocks.map fun (id, b) => (id, b.reset)

/-- **All numberings of a body agree,** whatever the tree of blocks, the settings of the validation
and the stamp of the scope tree. -/
theorem numberings_agree (p : Procedure) (c : Config) (stamp : Stamp) :
    p.NumberedAlike (.build stamp p.body)
      ((p.events c stamp).filterMap Walk.Event.entered?) where
  blocks_eq := p.body.blocks_eq_mapIdx_preorder
  preorder_eq := Block.preorder_eq
  scopes_eq := ScopeTree.map_summary_scopes_build stamp p.body
  size_eq := by rw [ScopeTree.size_build, Block.length_blocks]
  isSome_block?_iff := by
    intro n
    rw [Block.length_blocks]
    exact p.body.isSome_block?_iff n
  isSome_scopeOf_iff := by
    intro n
    rw [Block.length_blocks]
    exact ScopeTree.isSome_scopeOf_build_iff stamp p.body n
  block_scopeOf := by
    intro n id h
    obtain ⟨⟨scope, hscope, hblock⟩, rfl⟩ := ScopeTree.scopeOf_eq_some_iff.mp h
    exact ⟨scope, ScopeTree.scope_idAt hscope, hblock⟩
  entered_eq := by
    rw [entries_eq_blocks]
    exact p.body.blocks_reset

end Procedure

end LabelCheck
