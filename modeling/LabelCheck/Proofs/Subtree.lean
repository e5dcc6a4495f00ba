import LabelCheck.Proofs.Nesting

/-!
# Subtrees are intervals

The blocks inside a block, and the block itself, have consecutive numbers, from its own on. So one
number for a block and one for the blocks in it tell, of any other number, whether its block lies
inside, and this agrees with the listing that begins at the inner block and with the chains of a
scope tree.

* `Block.prefix_iff_numberAt`: the addresses that begin with the address of a block are those with a
  number in its interval;
* `Block.map_blocks_eq`: the listing of a block is the stretch of the listing of the body at its
  interval;
* `ScopeTree.exists_ancestors_at?`: the chain from the scope of a block has the scopes of the
  addresses outward;
* `ScopeTree.SpansInterval`, `ScopeTree.spansInterval_build`: the three together.

All three views are led back to addresses: a block lies inside another if its address begins with
that of the other.
-/

namespace LabelCheck

namespace Block

variable {b c : Block} {a a' : Address}

/-! ### The interval of an address -/

/-- **The blocks inside a block are those with a number in its interval.** -/
theorem prefix_iff_numberAt (hc : b.at? a = some c) (ha' : (b.at? a').isSome) :
    a <+: a' ↔ b.numberAt a ≤ b.numberAt a' ∧ b.numberAt a' < b.numberAt a + c.size := by
  constructor
  · rintro ⟨d, rfl⟩
    -- The rest of the way is that of a block of the inner body.
    obtain ⟨inner, hinner⟩ := Option.isSome_iff_exists.mp ha'
    rw [at?_append, hc, Option.bind_some] at hinner
    have hlt := numberAt_lt_size hinner
    rw [numberAt_append hc]
    omega
  · rintro ⟨hle, hlt⟩
    -- The block of the inner body with the number that is left over has an address there, and the
    -- way on to it has the number of `a'`.
    obtain ⟨d, inner, hd, hnumber⟩ :=
      exists_numberAt_eq (b := c) (n := b.numberAt a' - b.numberAt a) (by omega)
    have hsame : b.numberAt (a ++ d) = b.numberAt a' := by
      rw [numberAt_append hc, hnumber]
      omega
    have hsome : (b.at? (a ++ d)).isSome := by
      rw [at?_append, hc, Option.bind_some, hd]
      rfl
    rw [← numberAt_injective hsome ha' hsame]
    exact List.prefix_append a d

/-! ### The listing of a subtree -/

/-- A listing that begins with another number counts on from there. -/
theorem numberedFrom_eq_map_blocks (next : Nat) (c : Block) :
    c.numberedFrom next = c.blocks.map fun (id, inner) => (⟨next + id.index⟩, inner) := by
  have hpreorder : c.numberedFrom next = c.preorder.mapIdx fun n inner => (⟨next + n⟩, inner) := by
    rw [numberedFrom, Statements.numbered_eq_mapIdx, preorder, List.mapIdx_cons]
    congr 2
    funext n inner
    rw [Nat.add_assoc, Nat.add_comm 1]
  apply List.ext_getElem?
  intro n
  rw [hpreorder, blocks_eq_mapIdx_preorder, List.getElem?_map, List.getElem?_mapIdx,
    List.getElem?_mapIdx, Option.map_map]
  rfl

/-- **The listing of a block is a stretch of the listing of the body,** with the numbers counted on
from its own. -/
theorem map_blocks_eq (hc : b.at? a = some c) :
    c.blocks.map (fun (id, inner) => ((⟨b.numberAt a + id.index⟩ : BlockId), inner)) =
      (b.blocks.drop (b.numberAt a)).take c.size := by
  have hstands := standsAt_numberedFrom hc 0
  rw [Nat.zero_add] at hstands
  calc c.blocks.map (fun (id, inner) => ((⟨b.numberAt a + id.index⟩ : BlockId), inner))
    _ = c.numberedFrom (b.numberAt a) := (numberedFrom_eq_map_blocks _ c).symm
    _ = ((b.numberedFrom 0).drop (b.numberAt a)).take (c.numberedFrom (b.numberAt a)).length :=
        hstands.take_drop.symm
    _ = (b.blocks.drop (b.numberAt a)).take c.size := by
        rw [length_numberedFrom, blocks_eq_numbered]
        rfl

end Block

/-! ### The chain of a scope -/

namespace ScopeTree

variable {b c : Block} {a : Address}

theorem idAt_injective (t : ScopeTree) : Function.Injective t.idAt := fun _ _ h =>
  congrArg ScopeId.index h

/-- The chain from the scope of the block at an address has the scopes of the addresses on the way
outward. -/
theorem exists_ancestors_at? (stamp : Stamp) (hc : b.at? a = some c) :
    ∃ chain, (build stamp b).ancestors ((build stamp b).idAt (b.numberAt a)) = .ok chain ∧
      chain.map Prod.fst =
        (Address.outward a).map fun q => (build stamp b).idAt (b.numberAt q) := by
  obtain ⟨scope, hscope, _, hdepth⟩ := exists_scope_at? stamp hc
  obtain ⟨chain, hchain, hwalk⟩ := exists_walksOut stamp hc hscope hdepth
  exact ⟨chain, hchain, hwalk.ids_eq⟩

theorem scopeOf_at? (stamp : Stamp) (hc : b.at? a = some c) :
    (build stamp b).scopeOf ⟨b.numberAt a⟩ = some ((build stamp b).idAt (b.numberAt a)) :=
  scopeOf_of_leads (leads_enclosing stamp hc)

/-- The scope of a block is met on the way outward from those of the addresses that begin with its
own. -/
theorem mem_outward_iff_prefix (t : ScopeTree) {a' : Address} (ha : (b.at? a).isSome)
    (ha' : (b.at? a').isSome) :
    t.idAt (b.numberAt a) ∈ (Address.outward a').map (fun q => t.idAt (b.numberAt q)) ↔
      a <+: a' := by
  rw [List.mem_map]
  constructor
  · rintro ⟨q, hq, hid⟩
    have hprefix := Address.mem_outward.mp hq
    have hsame := t.idAt_injective hid
    rw [← Block.numberAt_injective (Block.isSome_at?_of_prefix ha' hprefix) ha hsame]
    exact hprefix
  · intro hprefix
    exact ⟨a, Address.mem_outward.mpr hprefix, rfl⟩

/-! ### The three views of a subtree -/

/-- **The interval of a block.** `c` is the block with the number `n` of the body `b`, and `t` is a
scope tree of the body. -/
structure SpansInterval (t : ScopeTree) (b : Block) (n : Nat) (c : Block) : Prop where
  /-- The listing of the subtree is the stretch of the listing of the body that begins at `n`, with
  the numbers counted on from there, -/
  blocks_eq : c.blocks.map (fun (id, inner) => ((⟨n + id.index⟩ : BlockId), inner)) =
    (b.blocks.drop n).take c.size
  /-- as long as the number of blocks of the subtree, the block itself and those inside it. -/
  length_eq : c.blocks.length = c.size
  size_eq : c.size = 1 + Block.totalSize c.children
  le_length : n + c.size ≤ b.blocks.length
  /-- The blocks inside the block, and itself, are those with a number in the interval. -/
  exists_prefix_iff : ∃ a, b.at? a = some c ∧ b.numberAt a = n ∧
    ∀ a', (b.at? a').isSome → (a <+: a' ↔ n ≤ b.numberAt a' ∧ b.numberAt a' < n + c.size)
  /-- The way outward from the scope of a block meets the scope of the block with the number `n` if
  the number of the block that it begins at lies in the interval, and only then. -/
  mem_ancestors_iff : ∀ m, m < b.blocks.length → ∃ around start chain,
    t.scopeOf ⟨n⟩ = some around ∧ t.scopeOf ⟨m⟩ = some start ∧ t.ancestors start = .ok chain ∧
      (around ∈ chain.map Prod.fst ↔ n ≤ m ∧ m < n + c.size)

/-- **Subtrees are intervals.** In the listing of a body and in its scope trees alike, the blocks
inside a block are those with the numbers from its own on, as many as there are. -/
theorem spansInterval_build (stamp : Stamp) {n : Nat} (hc : b.block? ⟨n⟩ = some c) :
    (build stamp b).SpansInterval b n c := by
  have hn : n < b.size := (b.isSome_block?_iff n).mp (Option.isSome_of_eq_some hc)
  obtain ⟨a, inner, ha, rfl⟩ := Block.exists_numberAt_eq hn
  obtain rfl : inner = c := Option.some.inj ((Block.block?_numberAt ha).symm.trans hc)
  have hinside : ∀ a', (b.at? a').isSome → (a <+: a' ↔
      b.numberAt a ≤ b.numberAt a' ∧ b.numberAt a' < b.numberAt a + inner.size) :=
    fun _ => Block.prefix_iff_numberAt ha
  constructor
  case blocks_eq => exact Block.map_blocks_eq ha
  case length_eq => exact inner.length_blocks
  case size_eq => rw [Block.children, Block.totalSize_childBlocks, Block.size, Nat.add_comm]
  case le_length =>
    rw [Block.length_blocks]
    exact Block.numberAt_add_size_le ha
  case exists_prefix_iff => exact ⟨a, ha, rfl, hinside⟩
  case mem_ancestors_iff =>
    intro m hm
    rw [Block.length_blocks] at hm
    obtain ⟨a', start, ha', rfl⟩ := Block.exists_numberAt_eq hm
    obtain ⟨chain, hchain, hids⟩ := exists_ancestors_at? stamp ha'
    refine ⟨_, _, chain, scopeOf_at? stamp ha, scopeOf_at? stamp ha', hchain, ?_⟩
    have hsome : (b.at? a').isSome := Option.isSome_of_eq_some ha'
    rw [hids, mem_outward_iff_prefix _ (Option.isSome_of_eq_some ha) hsome, hinside a' hsome]

/-- The first block inside `looped`, with the loop inside. -/
def loopHolder : Block where
  header := { kind := .beginEnd }
  statements :=
    .sql "select 1" none (.block { kind := .loop, label := some (.regular "c") } .nil .nil)

/-- The theorem at that block, which has one block around it, one inside and one behind it. -/
theorem spansInterval_build_looped :
    looped.block? ⟨1⟩ = some loopHolder ∧ (build 0 looped).SpansInterval looped 1 loopHolder :=
  have hc := Block.block?_numberAt (b := looped) (c := loopHolder) (a := [0]) rfl
  ⟨hc, spansInterval_build 0 hc⟩

end ScopeTree

end LabelCheck
