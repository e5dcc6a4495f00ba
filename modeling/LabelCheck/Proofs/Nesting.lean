import LabelCheck.Proofs.Numbering
import LabelCheck.Proofs.Ownership
import LabelCheck.Proofs.Resolution

/-!
# A scope tree is the nesting of its body

The table of a scope tree stores for each block the place of the scope around it. This module reads
the table off the tree of blocks, by addresses: the scope at the number of an address has as its
parent the scope at the number of the address one step further out, whatever labels the blocks
bear, and going on outward from parent to parent follows the way from the block to the body.

* `Statements.standsAt_scopeList`: the scopes of a block stand in the table of the sequence that it
  is a statement of;
* `ScopeTree.leads_enclosing`: from the number of an address on, the table leads outward along the
  blocks on the way to it;
* `ScopeTree.Mirrors`: what the scope of a block has to say of the place of this block, with
  `ScopeTree.Surrounds` for its parent and `ScopeTree.WalksOut` for the scopes around it;
* `ScopeTree.exists_mirrors`: every scope of a tree is the scope of a block in this sense.

The table grows by all scopes of a block before the scopes of its later siblings are added, so the
induction along an address carries where in the whole table the scopes of the block at hand stand.
-/

namespace LabelCheck

/-! ### The table along an address -/

/-- The scopes of a block and its inside stand in those of the sequence that it is a statement of,
behind the scopes of the statements before it. -/
theorem Statements.standsAt_scopeList {s : Statements} {inner : Block} {i : Nat}
    (h : s.toList[i]? = some (.block inner)) (parent : ScopeId) (depth next : Nat) :
    StandsAt (s.blocksBefore i)
      (Scope.of (next + s.blocksBefore i) (some parent) inner.header depth ::
        inner.statements.scopeList ⟨parent.tree, next + s.blocksBefore i⟩ (depth + 1)
          (next + s.blocksBefore i + 1))
      (s.scopeList parent depth next) := by
  induction s generalizing i next with
  | nil => cases h
  | sql text span rest ih =>
    cases i with
    | zero => cases h
    | succ i => exact ih h next
  | transfer kind r rest ih =>
    cases i with
    | zero => cases h
    | succ i => exact ih h next
  | block header inside rest _ ih =>
    cases i with
    | zero =>
      cases h
      exact (StandsAt.refl _).appendRight _
    | succ i =>
      have hnext : next + 1 + inside.blockCount + rest.blocksBefore i =
          next + (inside.blockCount + 1 + rest.blocksBefore i) := by omega
      have hrest := (ih h (next + 1 + inside.blockCount)).appendLeft
        (Scope.of next (some parent) header depth ::
          inside.scopeList ⟨parent.tree, next⟩ (depth + 1) (next + 1))
      rw [hnext, List.length_cons, length_scopeList] at hrest
      exact hrest

/-! ### The way outward, one step further in -/

namespace Address

theorem outward_concat (a : Address) (i : Nat) :
    outward (a ++ [i]) = (a ++ [i]) :: outward a := by
  unfold outward
  rw [List.inits_append, List.reverse_append]
  simp

@[simp] theorem length_outward (a : Address) : (outward a).length = a.length + 1 := by
  unfold outward
  rw [List.length_reverse, List.length_inits]

/-- The way outward ends at the body. -/
theorem getLast?_outward (a : Address) : (outward a).getLast? = some [] := by
  cases a with
  | nil => rfl
  | cons i a => rw [outward_cons, List.getLast?_concat]

end Address

namespace Block

variable {b c : Block} {a : Address} {i : Nat}

/-- The blocks on the way to an address, without their headers, are those at its prefixes. -/
theorem map_fst_enclosing (hc : b.at? a = some c) (next : Nat) :
    (b.enclosing next a).map Prod.fst =
      (Address.outward a).map fun q => ⟨next + b.numberAt q⟩ := by
  have hsome : ∀ q ∈ Address.outward a,
      ((b.at? q).map fun inner => ((⟨next + b.numberAt q⟩ : BlockId), inner.header)).map Prod.fst =
        some ⟨next + b.numberAt q⟩ := by
    intro q hq
    have hprefix := isSome_at?_of_prefix (Option.isSome_of_eq_some hc) (Address.mem_outward.mp hq)
    obtain ⟨inner, hinner⟩ := Option.isSome_iff_exists.mp hprefix
    rw [hinner]
    rfl
  rw [enclosing, List.map_filterMap, List.filterMap_congr hsome, List.filterMap_eq_map']

theorem length_enclosing (hc : b.at? a = some c) (next : Nat) :
    (b.enclosing next a).length = a.length + 1 := by
  have hlength := congrArg List.length (map_fst_enclosing hc next)
  rw [List.length_map, List.length_map, Address.length_outward] at hlength
  exact hlength

/-- The way from an address one step further in begins with the block there. -/
theorem enclosing_concat (hc : b.at? (a ++ [i]) = some c) (next : Nat) :
    b.enclosing next (a ++ [i]) =
      (⟨next + b.numberAt (a ++ [i])⟩, c.header) :: b.enclosing next a := by
  rw [enclosing, Address.outward_concat, List.filterMap_cons_some (by rw [hc]; rfl)]
  rfl

/-- The way from an address begins with the block there. -/
theorem exists_enclosing_eq_cons (hc : b.at? a = some c) (next : Nat) :
    ∃ rest, b.enclosing next a = (⟨next + b.numberAt a⟩, c.header) :: rest := by
  rcases List.eq_nil_or_concat' a with rfl | ⟨q, i, rfl⟩
  · cases hc
    exact ⟨[], rfl⟩
  · exact ⟨_, enclosing_concat hc next⟩

end Block

namespace ScopeTree

/-- **The table leads outward along the way to an address.** The block `b` has the number `index`,
the blocks around it are `around`, and the scopes of its statements stand behind its own. -/
theorem leads_at? {t : ScopeTree} {b c : Block} {a : Address} {index : Nat}
    {around : List (BlockId × Header)} (hc : b.at? a = some c)
    (hl : t.Leads index ((⟨index⟩, b.header) :: around))
    (hs : StandsAt (index + 1)
      (b.statements.scopeList (t.idAt index) (around.length + 1) (index + 1)) t.scopes.toList) :
    t.Leads (index + b.numberAt a) (b.enclosing index a ++ around) := by
  induction a generalizing b index around with
  | nil =>
    cases hc
    exact hl
  | cons i a ih =>
    obtain ⟨inner, hi, hc⟩ := Block.at?_cons_eq_some_iff.mp hc
    have hinner := (Statements.standsAt_scopeList hi (t.idAt index) (around.length + 1)
      (index + 1)).trans hs
    -- The scope of the statement that the way goes into leads on to the block at hand.
    have hscope : t.scopes[index + 1 + b.statements.blocksBefore i]? =
        some (.of (index + 1 + b.statements.blocksBefore i) (some (t.idAt index)) inner.header
          (around.length + 1)) := by
      rw [← Array.getElem?_toList]
      exact hinner.getElem?
    have hlt : index < index + 1 + b.statements.blocksBefore i := by omega
    have hstep := hl.cons hlt hscope
    have hrest := ih hc hstep hinner.tail
    rw [Block.numberAt_cons hi, Block.enclosing_cons hi, List.append_assoc]
    have hnumber : index + 1 + b.statements.blocksBefore i + inner.numberAt a =
        index + (1 + b.statements.blocksBefore i + inner.numberAt a) := by omega
    rw [← hnumber]
    exact hrest

/-- In the table of a body, the number of an address leads outward along the way to it. -/
theorem leads_enclosing (stamp : Stamp) {b c : Block} {a : Address} (hc : b.at? a = some c) :
    (build stamp b).Leads (b.numberAt a) (b.enclosing 0 a) := by
  have hscopes := toList_scopes_build stamp b
  have hroot : (build stamp b).Leads 0 [(⟨0⟩, b.header)] := by
    refine ⟨rfl, ?_⟩
    rw [← Array.getElem?_toList, hscopes]
    rfl
  have hstands : StandsAt (0 + 1)
      (b.statements.scopeList ((build stamp b).idAt 0) (0 + 1) (0 + 1))
      (build stamp b).scopes.toList := by
    rw [hscopes]
    exact (StandsAt.refl _).tail
  have h : (build stamp b).Leads (0 + b.numberAt a) (b.enclosing 0 a ++ []) :=
    leads_at? hc hroot hstands
  rw [Nat.zero_add, List.append_nil] at h
  exact h

/-! ### The scope at an address -/

/-- The scope of the body stands in front and has no parent. -/
theorem getElem?_scopes_nil (stamp : Stamp) (b : Block) :
    (build stamp b).scopes[b.numberAt []]? = some (.of 0 none b.header 0) := by
  have h := leads_enclosing stamp (b := b) (c := b) (a := []) rfl
  exact h.2

/-- The parent of the scope at any other address is the scope at the address one step further out,
which has a smaller number. -/
theorem getElem?_scopes_concat (stamp : Stamp) {b c : Block} {q : Address} {i : Nat}
    (hc : b.at? (q ++ [i]) = some c) :
    b.numberAt q < b.numberAt (q ++ [i]) ∧
      (build stamp b).scopes[b.numberAt (q ++ [i])]? =
        some (.of (b.numberAt (q ++ [i])) (some ((build stamp b).idAt (b.numberAt q))) c.header
          (q.length + 1)) := by
  have hleads := leads_enclosing stamp hc
  obtain ⟨outer, houter, _⟩ := Block.at?_concat_eq_some_iff.mp hc
  have hlength := Block.length_enclosing houter 0
  obtain ⟨rest, hrest⟩ := Block.exists_enclosing_eq_cons houter 0
  rw [Block.enclosing_concat hc, hrest] at hleads
  rw [hrest, List.length_cons, Nat.add_right_cancel_iff] at hlength
  obtain ⟨_, hlt, hscope, _⟩ := hleads
  rw [Nat.zero_add] at hlt hscope
  rw [hlength] at hscope
  exact ⟨hlt, hscope⟩

/-- Every block has a scope at the number of its address, which tells how deep it lies. -/
theorem exists_scope_at? (stamp : Stamp) {b c : Block} {a : Address} (hc : b.at? a = some c) :
    ∃ scope, (build stamp b).scopes[b.numberAt a]? = some scope ∧
      scope.block = ⟨b.numberAt a⟩ ∧ scope.depth = a.length := by
  rcases List.eq_nil_or_concat' a with rfl | ⟨q, i, rfl⟩
  · exact ⟨_, getElem?_scopes_nil stamp b, rfl, rfl⟩
  · refine ⟨_, (getElem?_scopes_concat stamp hc).2, rfl, ?_⟩
    rw [List.length_append]
    rfl

/-! ### What a scope says of the place of its block -/

/-- **The parent of a scope.** The scope with the name `around` is that of the block at `q`, and
`scope` that of its statement at place `i`. -/
structure Surrounds (t : ScopeTree) (b : Block) (q : Address) (i : Nat) (scope : Scope)
    (around : ScopeId) (outer : Scope) : Prop where
  id_eq : around = t.idAt (b.numberAt q)
  scope_eq : t.scope around = .ok outer
  /-- The parent stands in front of its child. -/
  index_lt : around.index < scope.block.index
  depth_eq : scope.depth = outer.depth + 1
  /-- The block of the parent directly contains the block of the child. -/
  contains : ∃ container inner, b.block? outer.block = some container ∧
    b.block? scope.block = some inner ∧ b.at? q = some container ∧
    container.statements.toList[i]? = some (.block inner)

/-- **The walk outward from the scope of the block at `a`.** -/
structure WalksOut (t : ScopeTree) (b : Block) (a : Address) (scope : Scope)
    (chain : List (ScopeId × Scope)) : Prop where
  head?_eq : chain.head? = some (t.idAt (b.numberAt a), scope)
  getLast?_eq : chain.getLast?.map Prod.fst = some t.root
  length_eq : chain.length = scope.depth + 1
  scope_eq : ∀ entry ∈ chain, t.scope entry.1 = .ok entry.2
  /-- The scopes met are those of the addresses on the way to the block, the innermost first. -/
  ids_eq : chain.map Prod.fst = (Address.outward a).map fun q => t.idAt (b.numberAt q)
  /-- They stand for the blocks at these addresses. -/
  blocks_eq : chain.map (fun entry => b.block? entry.2.block) = (Address.outward a).map b.at?
  nodup : (chain.map fun entry => entry.2.block).Nodup

/-- **The scope at a place of the table mirrors the block at an address.** -/
structure Mirrors (t : ScopeTree) (b : Block) (a : Address) (index : Nat) (scope : Scope) :
    Prop where
  /-- The place of the scope is the number of its block, -/
  index_eq : index = b.numberAt a
  block_eq : scope.block = ⟨index⟩
  /-- which is the block at the address. -/
  exists_block : ∃ inner, b.block? scope.block = some inner ∧ b.at? a = some inner
  parent_eq_none_iff : scope.parent = none ↔ index = 0
  /-- Any other scope has the scope of the block directly around as its parent. -/
  parent_eq_some : ∀ around, scope.parent = some around →
    ∃ q i outer, a = q ++ [i] ∧ t.Surrounds b q i scope around outer
  depth_eq : scope.depth = a.length
  /-- The walk outward from the scope comes to its end, along the way to the block. -/
  ancestors_eq : ∃ chain, t.ancestors (t.idAt index) = .ok chain ∧ t.WalksOut b a scope chain

/-- The parent of the scope at an address that is not the body's. -/
theorem surrounds_concat (stamp : Stamp) {b c : Block} {q : Address} {i : Nat} {scope : Scope}
    (hc : b.at? (q ++ [i]) = some c)
    (hscope : (build stamp b).scopes[b.numberAt (q ++ [i])]? = some scope) :
    ∃ around outer, scope.parent = some around ∧
      (build stamp b).Surrounds b q i scope around outer := by
  obtain ⟨container, hq, hi⟩ := Block.at?_concat_eq_some_iff.mp hc
  obtain ⟨hlt, hhere⟩ := getElem?_scopes_concat stamp hc
  rw [hscope] at hhere
  cases hhere
  obtain ⟨outer, houter, hblock, hdepth⟩ := exists_scope_at? stamp hq
  refine ⟨_, outer, rfl, rfl, scope_idAt houter, hlt, ?_, container, c, ?_, ?_, hq, hi⟩
  · rw [hdepth]
    rfl
  · rw [hblock]
    exact Block.block?_numberAt hq
  · exact Block.block?_numberAt hc

/-- The walk outward from the scope at an address. -/
theorem exists_walksOut (stamp : Stamp) {b c : Block} {a : Address} {scope : Scope}
    (hc : b.at? a = some c) (hscope : (build stamp b).scopes[b.numberAt a]? = some scope)
    (hdepth : scope.depth = a.length) :
    ∃ chain, (build stamp b).ancestors ((build stamp b).idAt (b.numberAt a)) = .ok chain ∧
      (build stamp b).WalksOut b a scope chain := by
  have hleads := leads_enclosing stamp hc
  obtain ⟨chain, hchain, hmap⟩ := ancestors_of_leads hleads
  obtain ⟨outer, hhead, hall⟩ := (ordered_build stamp b).exists_ancestors (scope_idAt hscope)
  obtain rfl : (_, scope) :: outer = chain := Except.ok.inj (hhead.symm.trans hchain)
  refine ⟨_, hchain, ?_⟩
  generalize hentries : ((build stamp b).idAt (b.numberAt a), scope) :: outer = chain at *
  have hway := Block.map_fst_enclosing hc 0
  -- The blocks and the names that the walk meets are two columns of what `hmap` says.
  have hblocks : (chain.map fun entry => entry.2.block) =
      (Address.outward a).map fun q => ⟨b.numberAt q⟩ := by
    have hcolumn := congrArg (List.map fun entry => entry.2.1) hmap
    simp only [List.map_map, Function.comp_def, Nat.zero_add] at hcolumn hway
    exact hcolumn.trans hway
  have hids : chain.map Prod.fst =
      (Address.outward a).map fun q => (build stamp b).idAt (b.numberAt q) := by
    have hcolumn := congrArg (List.map Prod.fst) hmap
    have hnames := congrArg (List.map fun id => (build stamp b).idAt id.index) hway
    simp only [List.map_map, Function.comp_def, Nat.zero_add] at hcolumn hnames
    exact hcolumn.trans hnames
  constructor
  case head?_eq => rw [← hentries, List.head?_cons]
  case getLast?_eq =>
    rw [← List.getLast?_map, hids, List.getLast?_map, Address.getLast?_outward]
    rfl
  case length_eq =>
    have hlength := congrArg List.length hids
    rw [List.length_map, List.length_map, Address.length_outward] at hlength
    rw [hlength, hdepth]
  case scope_eq => exact hall
  case ids_eq => exact hids
  case blocks_eq =>
    have hfound := congrArg (List.map b.block?) hblocks
    rw [List.map_map, List.map_map] at hfound
    refine hfound.trans (List.map_congr_left fun q hq => ?_)
    have hsome := Block.isSome_at?_of_prefix (Option.isSome_of_eq_some hc)
      (Address.mem_outward.mp hq)
    obtain ⟨inner, hinner⟩ := Option.isSome_iff_exists.mp hsome
    rw [Function.comp_apply, Block.block?_numberAt hinner, hinner]
  case nodup =>
    -- The numbers decrease on the way.
    have hnumbers := hleads.pairwise_index.1
    have hnodup : ((b.enclosing 0 a).map Prod.fst).Nodup := by
      refine List.pairwise_map.mpr ((List.pairwise_map.mp hnumbers).imp fun hgt heq => ?_)
      exact Nat.ne_of_gt hgt (congrArg BlockId.index heq)
    rw [hway] at hnodup
    rw [hblocks]
    simpa only [Nat.zero_add] using hnodup

/-- **Every scope of a tree mirrors a block of the body.** -/
theorem exists_mirrors (stamp : Stamp) (b : Block) {index : Nat} {scope : Scope}
    (h : (build stamp b).scopes[index]? = some scope) :
    ∃ a, (build stamp b).Mirrors b a index scope := by
  have hlt : index < b.size := by
    rw [← size_build stamp b]
    exact (Array.getElem?_eq_some_iff.mp h).1
  obtain ⟨a, c, hc, rfl⟩ := Block.exists_numberAt_eq hlt
  obtain ⟨_, hscope, hblock, hdepth⟩ := exists_scope_at? stamp hc
  obtain rfl := Option.some.inj (hscope.symm.trans h)
  refine ⟨a, rfl, hblock, ⟨c, ?_, hc⟩, ?_, ?_, hdepth, exists_walksOut stamp hc h hdepth⟩
  · rw [hblock]
    exact Block.block?_numberAt hc
  · rcases List.eq_nil_or_concat' a with rfl | ⟨q, i, rfl⟩
    · rw [getElem?_scopes_nil] at h
      cases h
      exact iff_of_true rfl rfl
    · obtain ⟨around, outer, hparent, hsurrounds⟩ := surrounds_concat stamp hc h
      have hpos := hsurrounds.index_lt
      rw [hblock] at hpos
      refine iff_of_false ?_ (Nat.ne_of_gt (Nat.zero_lt_of_lt hpos))
      rw [hparent]
      exact Option.some_ne_none around
  · intro around haround
    rcases List.eq_nil_or_concat' a with rfl | ⟨q, i, rfl⟩
    · rw [getElem?_scopes_nil] at h
      cases h
      cases haround
    · obtain ⟨around', outer, hparent, hsurrounds⟩ := surrounds_concat stamp hc h
      obtain rfl := Option.some.inj (hparent.symm.trans haround)
      exact ⟨q, i, outer, rfl, hsurrounds⟩

/-- A body with a labelled loop inside a block without a label, and a further block behind both. -/
def looped : Block where
  header := { kind := .beginEnd, label := some (.regular "a") }
  statements :=
    .block { kind := .beginEnd }
      (.sql "select 1" none (.block { kind := .loop, label := some (.regular "c") } .nil .nil))
      (.block { kind := .beginEnd } .nil .nil)

/-- The theorem at the scope of the loop, whose parent is the block without a label. -/
theorem exists_mirrors_looped :
    (build 0 looped).scopes[2]? =
        some ⟨⟨2⟩, some ⟨0, 1⟩, some (.regular "c"), true, 2⟩ ∧
      ∃ a, (build 0 looped).Mirrors looped a 2
        ⟨⟨2⟩, some ⟨0, 1⟩, some (.regular "c"), true, 2⟩ :=
  ⟨rfl, exists_mirrors 0 looped rfl⟩

end ScopeTree

end LabelCheck
