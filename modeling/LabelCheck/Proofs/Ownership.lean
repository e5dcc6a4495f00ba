import LabelCheck.Scope.Chain
import LabelCheck.Scope.Forest

/-!
# The trees that accept a name

A name of a scope is accepted by the tree it was obtained from and by every tree that goes back to
the same building, and refused by all others. Building draws a stamp from a counter that wraps
around, so that this holds as long as no more trees are built than there are stamps.

* `ScopeTree.Ordered`: what the table of a tree has, whatever body it was built from;
* `ScopeTree.Accepts`, `ScopeTree.Refuses`: a tree answers all look-ups with a name, or none;
* `Forest.Operation`, `Forest.run`: trees that are built and copied one after the other;
* `Lineage`, `SameBuild`: which building a tree goes back to, read off the operations alone;
* `Forest.Obtained`: the ways to come by a name;
* `Forest.exists_belongsTo_of_obtained`: the trees of the same building accept a name, and no other
  tree does.

A run says of every tree which building it is from: the run lemma `Lineage.describes_run` gives the
tree at each place as a function of that. Trees never change, so that a name which is obtained in
the middle of a run is also obtained at its end (`Obtained.run_append`).
-/

namespace LabelCheck

/-! ### The table of one tree -/

/-- A scope of a sequence has as its parent the scope around the sequence or one of the scopes in
front of it. -/
theorem Statements.parent_of_getElem?_scopeList {parent : ScopeId} {depth next k : Nat}
    {s : Statements} {scope : Scope} (hlt : parent.index < next)
    (h : (s.scopeList parent depth next)[k]? = some scope) :
    ∃ j, scope.parent = some ⟨parent.tree, j⟩ ∧ j < next + k := by
  induction s generalizing parent depth next k with
  | nil => cases h
  | sql _ _ rest ih => exact ih hlt h
  | transfer _ _ rest ih => exact ih hlt h
  | block header inner rest ihInner ihRest =>
    cases k with
    | zero =>
      have hscope : Scope.of next (some parent) header depth = scope := Option.some.inj h
      exact ⟨parent.index, by rw [← hscope]; rfl, hlt⟩
    | succ k =>
      rw [scopeList, List.cons_append, List.getElem?_cons_succ] at h
      by_cases hk : k < inner.blockCount
      · rw [List.getElem?_append_left (by rwa [length_scopeList])] at h
        obtain ⟨j, hj, hlt'⟩ := ihInner (Nat.lt_succ_self next) h
        exact ⟨j, hj, by omega⟩
      · rw [List.getElem?_append_right (by rw [length_scopeList]; omega), length_scopeList] at h
        obtain ⟨j, hj, hlt'⟩ := ihRest (by omega) h
        exact ⟨j, hj, by omega⟩

namespace ScopeTree

/-- **A tree in order.** There is an outermost scope, and the parent of a scope is named under the
stamp of the tree and stands in front of it. -/
structure Ordered (t : ScopeTree) : Prop where
  size_pos : 0 < t.size
  parent_lt : ∀ {index : Nat} {scope : Scope} {around : ScopeId},
    t.scopes[index]? = some scope → scope.parent = some around →
      ∃ j, around = t.idAt j ∧ j < index

theorem ordered_build (stamp : Stamp) (body : Block) : (build stamp body).Ordered := by
  have hscopes := toList_scopes_build stamp body
  constructor
  · rw [size, ← Array.length_toList, hscopes]
    exact Nat.succ_pos _
  · intro index scope around h hp
    rw [← Array.getElem?_toList, hscopes] at h
    cases index with
    | zero =>
      rw [← Option.some.inj h] at hp
      cases hp
    | succ k =>
      rw [List.getElem?_cons_succ] at h
      obtain ⟨j, hj, hlt⟩ := Statements.parent_of_getElem?_scopeList Nat.zero_lt_one h
      refine ⟨j, ?_, by omega⟩
      rw [hj] at hp
      exact (Option.some.inj hp).symm

/-- The name `id` is one of this tree. -/
def Names (t : ScopeTree) (id : ScopeId) : Prop := id.tree = t.stamp ∧ id.index < t.size

theorem names_idAt {t : ScopeTree} {index : Nat} (h : index < t.size) : t.Names (t.idAt index) :=
  ⟨rfl, h⟩

theorem scope_eq_ok_iff {t : ScopeTree} {id : ScopeId} {scope : Scope} :
    t.scope id = .ok scope ↔ id.tree = t.stamp ∧ t.scopes[id.index]? = some scope := by
  unfold ScopeTree.scope
  split
  · next h =>
    cases t.scopes[id.index]? with
    | none => simp
    | some s => simp [h]
  · next h => simp [h]

theorem Names.exists_scope {t : ScopeTree} {id : ScopeId} (h : t.Names id) :
    ∃ scope, t.scope id = .ok scope := by
  obtain ⟨scope, hs⟩ : ∃ scope, t.scopes[id.index]? = some scope :=
    ⟨_, getElem?_pos t.scopes id.index h.2⟩
  exact ⟨scope, scope_eq_ok_iff.mpr ⟨h.1, hs⟩⟩

theorem names_of_scope_eq_ok {t : ScopeTree} {id : ScopeId} {scope : Scope}
    (h : t.scope id = .ok scope) : t.Names id := by
  obtain ⟨htree, hs⟩ := scope_eq_ok_iff.mp h
  exact ⟨htree, (Array.getElem?_eq_some_iff.mp hs).1⟩

/-- The scope of a block is one of the tree. -/
theorem names_of_scopeOf_eq_some {t : ScopeTree} {block : BlockId} {id : ScopeId}
    (h : t.scopeOf block = some id) : t.Names id := by
  obtain ⟨⟨scope, hs, _⟩, rfl⟩ := scopeOf_eq_some_iff.mp h
  exact names_idAt (Array.getElem?_eq_some_iff.mp hs).1

namespace Ordered

variable {t : ScopeTree} {id : ScopeId} {scope : Scope}

/-- The parent of a scope is a scope of the tree, further out. -/
theorem names_parent (ho : t.Ordered) (hs : t.scope id = .ok scope) {around : ScopeId}
    (hp : scope.parent = some around) : t.Names around ∧ around.index < id.index := by
  obtain ⟨j, rfl, hlt⟩ := ho.parent_lt (scope_eq_ok_iff.mp hs).2 hp
  exact ⟨names_idAt (Nat.lt_trans hlt (names_of_scope_eq_ok hs).2), hlt⟩

/-- The walk outward from a scope of the tree comes to its end, and it meets only names of the
tree, each with its scope. -/
theorem exists_ancestors (ho : t.Ordered) (hs : t.scope id = .ok scope) :
    ∃ chain, t.ancestors id = .ok ((id, scope) :: chain) ∧
      ∀ entry ∈ (id, scope) :: chain, t.scope entry.1 = .ok entry.2 := by
  -- Every parent stands further in front, so the walk is followed by induction on the place.
  induction hn : id.index using Nat.strongRecOn generalizing id scope with
  | ind n ih =>
    cases hp : scope.parent with
    | none =>
      refine ⟨[], ancestors_of_parent_eq_none hs hp, ?_⟩
      intro entry he
      rw [List.mem_singleton.mp he]
      exact hs
    | some around =>
      obtain ⟨hnames, hlt⟩ := ho.names_parent hs hp
      obtain ⟨outer, houter⟩ := hnames.exists_scope
      obtain ⟨chain, hchain, hall⟩ := ih around.index (hn ▸ hlt) houter rfl
      refine ⟨_, ancestors_of_parent_eq_some hs hp hlt hchain, ?_⟩
      intro entry he
      rcases List.mem_cons.mp he with rfl | he
      · exact hs
      · exact hall entry he

/-- A search outward from a scope of the tree comes to its end. -/
theorem exists_nearest (ho : t.Ordered) (hs : t.scope id = .ok scope) (p : Identifier → Bool) :
    ∃ found, t.nearest id p = .ok found := by
  induction hn : id.index using Nat.strongRecOn generalizing id scope with
  | ind n ih =>
    cases hc : scope.label.any p with
    | true => exact ⟨_, nearest_of_any hs hc⟩
    | false =>
      cases hp : scope.parent with
      | none => exact ⟨_, nearest_of_parent_eq_none hs hc hp⟩
      | some around =>
        obtain ⟨hnames, hlt⟩ := ho.names_parent hs hp
        obtain ⟨outer, houter⟩ := hnames.exists_scope
        obtain ⟨found, hfound⟩ := ih around.index (hn ▸ hlt) houter rfl
        exact ⟨found, by rw [nearest_of_parent_eq_some hs hc hp hlt, hfound]⟩

end Ordered

/-- **A tree accepts a name**, as the name of the given scope: every look-up gives an answer. -/
structure Accepts (t : ScopeTree) (id : ScopeId) (scope : Scope) : Prop where
  scope_eq : t.scope id = .ok scope
  parent_eq : t.parent id = .ok scope.parent
  ancestors_eq : ∃ chain, t.ancestors id = .ok ((id, scope) :: chain)
  resolve_eq : ∀ target m, ∃ found, t.resolve id target m = .ok found

/-- **A tree refuses a name**, with the given error: no look-up gives an answer, not even the part
of a walk. -/
structure Refuses (t : ScopeTree) (id : ScopeId) (error : ScopeError) : Prop where
  scope_eq : t.scope id = .error error
  parent_eq : t.parent id = .error error
  ancestors_eq : t.ancestors id = .error error
  resolve_eq : ∀ target m, t.resolve id target m = .error error

/-- A tree in order accepts the names of its scopes. -/
theorem Ordered.accepts {t : ScopeTree} {id : ScopeId} {scope : Scope} (ho : t.Ordered)
    (hs : t.scope id = .ok scope) : t.Accepts id scope := by
  refine ⟨hs, by rw [ScopeTree.parent, hs]; rfl, ?_, ?_⟩
  · obtain ⟨chain, hchain, _⟩ := ho.exists_ancestors hs
    exact ⟨chain, hchain⟩
  · intro target m
    rw [resolve_eq_nearest]
    exact ho.exists_nearest hs _

/-- Every look-up begins with the scope that is named, so it fails as that does. -/
theorem refuses_of_scope_eq_error {t : ScopeTree} {id : ScopeId} {error : ScopeError}
    (h : t.scope id = .error error) : t.Refuses id error := by
  refine ⟨h, by rw [ScopeTree.parent, h]; rfl, by rw [ancestors, h]; rfl, ?_⟩
  intro target m
  rw [resolve_eq_nearest, nearest, h]
  rfl

/-- A name under another stamp is foreign, whatever its place. -/
theorem refuses_foreign {t : ScopeTree} {id : ScopeId} (h : id.tree ≠ t.stamp) :
    t.Refuses id (.foreign id.index) :=
  refuses_of_scope_eq_error (if_neg h)

end ScopeTree

/-! ### Trees side by side -/

namespace Forest

/-- What can be done in a forest. -/
inductive Operation where
  /-- Build the tree of a body. -/
  | grow (body : Block)
  /-- Copy the tree with a number; without such a tree nothing is done. -/
  | copy (n : Nat)
  deriving DecidableEq, Repr

/-- One operation. -/
def step (f : Forest) : Operation → Forest
  | .grow body => (f.grow body).1
  | .copy n => f.copy n

/-- Operations one after the other, from no trees and any value of the counter. -/
def run (start : Stamp) (ops : List Operation) : Forest :=
  ops.foldl step { nextStamp := start }

/-- **Coming by a name.** The name `id` can be obtained through the tree `n`: as its root, as the
scope of a block, from its listing, or by going outward from a name that was obtained before,
through whichever tree. -/
inductive Obtained (f : Forest) : (n : Nat) → (id : ScopeId) → Prop where
  | root {n : Nat} {t : ScopeTree} (ht : f.trees[n]? = some t) : Obtained f n t.root
  | scopeOf {n : Nat} {t : ScopeTree} {id : ScopeId} (block : BlockId) (ht : f.trees[n]? = some t)
      (h : t.scopeOf block = some id) : Obtained f n id
  | listed {n : Nat} {t : ScopeTree} (entry : ScopeId × Scope) (ht : f.trees[n]? = some t)
      (h : entry ∈ t.toList) : Obtained f n entry.1
  | parent {n m : Nat} {t : ScopeTree} {id around : ScopeId} (ht : f.trees[n]? = some t)
      (hid : Obtained f m id) (h : t.parent id = .ok (some around)) : Obtained f n around
  | ancestor {n m : Nat} {t : ScopeTree} {id : ScopeId} {chain : List (ScopeId × Scope)}
      (entry : ScopeId × Scope) (ht : f.trees[n]? = some t) (hid : Obtained f m id)
      (h : t.ancestors id = .ok chain) (he : entry ∈ chain) : Obtained f n entry.1

/-- A tree that is there stays what it is, whatever is done next. -/
theorem getElem?_trees_step {f : Forest} {n : Nat} {t : ScopeTree} (ht : f.trees[n]? = some t)
    (op : Operation) : (f.step op).trees[n]? = some t := by
  have hlt : n < f.trees.size := (Array.getElem?_eq_some_iff.mp ht).1
  have hpush (t' : ScopeTree) : (f.trees.push t')[n]? = some t := by
    rw [Array.getElem?_push, if_neg (Nat.ne_of_lt hlt), ht]
  cases op with
  | grow body => exact hpush _
  | copy k =>
    rw [step, copy]
    cases f.trees[k]? with
    | none => exact ht
    | some t' => exact hpush t'

/-- A name that is obtained before an operation is obtained after it. -/
theorem Obtained.step {f : Forest} {n : Nat} {id : ScopeId} (h : f.Obtained n id)
    (op : Operation) : (f.step op).Obtained n id := by
  induction h with
  | root ht => exact .root (getElem?_trees_step ht op)
  | scopeOf block ht h => exact .scopeOf block (getElem?_trees_step ht op) h
  | listed entry ht h => exact .listed entry (getElem?_trees_step ht op) h
  | parent ht _ h ih => exact .parent (getElem?_trees_step ht op) ih h
  | ancestor entry ht _ h he ih => exact .ancestor entry (getElem?_trees_step ht op) ih h he

/-- A name that is obtained in the middle of a run is obtained at its end. -/
theorem Obtained.run_append {start : Stamp} {ops : List Operation} {n : Nat} {id : ScopeId}
    (h : (run start ops).Obtained n id) (later : List Operation) :
    (run start (ops ++ later)).Obtained n id := by
  rw [run, List.foldl_append]
  exact List.foldlRecOn (motive := fun f => f.Obtained n id) later Forest.step h
    fun _ hf op _ => hf.step op

/-- A name that is obtained through a tree is a name of that tree. -/
theorem Obtained.names {f : Forest} {n : Nat} {id : ScopeId}
    (hord : ∀ t ∈ f.trees, t.Ordered) (h : f.Obtained n id) :
    ∃ t, f.trees[n]? = some t ∧ t.Names id := by
  cases h with
  | @root _ t ht =>
    exact ⟨t, ht, ScopeTree.names_idAt (hord t (Array.mem_of_getElem? ht)).size_pos⟩
  | @scopeOf _ t _ block ht h => exact ⟨t, ht, ScopeTree.names_of_scopeOf_eq_some h⟩
  | @listed _ t entry ht h =>
    obtain ⟨index, hlt, rfl⟩ := List.mem_mapIdx.mp h
    exact ⟨t, ht, ScopeTree.names_idAt (by rwa [Array.length_toList] at hlt)⟩
  | @parent _ _ t inner outer ht _ h =>
    refine ⟨t, ht, ?_⟩
    unfold ScopeTree.parent at h
    cases hs : t.scope inner with
    | error e =>
      rw [hs] at h
      cases h
    | ok scope =>
      rw [hs] at h
      have hp : scope.parent = some id := Except.ok.inj h
      exact ((hord t (Array.mem_of_getElem? ht)).names_parent hs hp).1
  | @ancestor _ _ t id chain entry ht _ h he =>
    refine ⟨t, ht, ?_⟩
    have ho := hord t (Array.mem_of_getElem? ht)
    cases hs : t.scope id with
    | error e =>
      rw [(ScopeTree.refuses_of_scope_eq_error hs).ancestors_eq] at h
      cases h
    | ok scope =>
      obtain ⟨outer, hchain, hall⟩ := ho.exists_ancestors hs
      rw [hchain] at h
      cases h
      exact ScopeTree.names_of_scope_eq_ok (hall entry he)

end Forest

/-! ### Which building a tree goes back to -/

/-- What the operations alone say of the trees: the bodies that have been built, and for each tree
the number of the building it goes back to. -/
structure Lineage where
  bodies : List Block := []
  origins : List Nat := []
  deriving DecidableEq, Repr

namespace Lineage

/-- A building is the origin of its tree, and a copy has the origin of what is copied. -/
def step (l : Lineage) : Forest.Operation → Lineage
  | .grow body => { bodies := l.bodies ++ [body], origins := l.origins ++ [l.bodies.length] }
  | .copy n => { l with origins := l.origins ++ (l.origins[n]?).toList }

/-- The lineage of the trees of a run. -/
def of (ops : List Forest.Operation) : Lineage := ops.foldl step {}

/-- The tree of the building with number `o`, where the first building has taken the stamp
`start`. -/
def tree? (l : Lineage) (start : Stamp) (o : Nat) : Option ScopeTree :=
  (l.bodies[o]?).map (ScopeTree.build (start + .ofNat o))

/-- The forest holds at each place the tree of the building that the lineage names. -/
structure Describes (l : Lineage) (start : Stamp) (f : Forest) : Prop where
  nextStamp_eq : f.nextStamp = start + .ofNat l.bodies.length
  trees_eq : f.trees.toList.map some = l.origins.map (l.tree? start)

/-- The tree of a building stays what it is, whatever is done next. -/
theorem tree?_step {l : Lineage} {start : Stamp} {o : Nat} {t : ScopeTree}
    (h : l.tree? start o = some t) (op : Forest.Operation) :
    (l.step op).tree? start o = some t := by
  cases op with
  | copy n => exact h
  | grow body =>
    obtain ⟨b, hbody, rfl⟩ := Option.map_eq_some_iff.mp h
    have hlt : o < l.bodies.length := (List.getElem?_eq_some_iff.mp hbody).1
    have hbody' : (l.step (.grow body)).bodies[o]? = some b :=
      (List.getElem?_append_left hlt).trans hbody
    rw [tree?, hbody']
    rfl

/-- A body that is built next has the next number. -/
theorem tree?_step_grow (l : Lineage) (start : Stamp) (body : Block) :
    (l.step (.grow body)).tree? start l.bodies.length =
      some (.build (start + .ofNat l.bodies.length) body) := by
  have hbody : (l.step (.grow body)).bodies[l.bodies.length]? = some body :=
    List.getElem?_concat_length
  rw [tree?, hbody]
  rfl

/-- The tree at a place is the tree of the building that the lineage names there. -/
theorem Describes.getElem?_trees {l : Lineage} {start : Stamp} {f : Forest}
    (h : l.Describes start f) (n : Nat) :
    (f.trees[n]?).map some = (l.origins[n]?).map (l.tree? start) := by
  rw [← Array.getElem?_toList, ← List.getElem?_map, h.trees_eq, List.getElem?_map]

/-- The trees that are there stay what they are, whatever is done next. -/
theorem Describes.map_tree?_step {l : Lineage} {start : Stamp} {f : Forest}
    (h : l.Describes start f) (op : Forest.Operation) :
    f.trees.toList.map some = l.origins.map ((l.step op).tree? start) := by
  rw [h.trees_eq]
  apply List.map_congr_left
  intro o ho
  have hmem : l.tree? start o ∈ f.trees.toList.map some := by
    rw [h.trees_eq]
    exact List.mem_map_of_mem ho
  obtain ⟨t, _, ht⟩ := List.mem_map.mp hmem
  rw [← ht, tree?_step ht.symm]

/-- **The step lemma.** The lineage describes the forest after an operation if it did before. -/
theorem Describes.step {l : Lineage} {start : Stamp} {f : Forest} (h : l.Describes start f)
    (op : Forest.Operation) : (l.step op).Describes start (f.step op) := by
  cases op with
  | grow body =>
    constructor
    · show f.nextStamp + 1 = start + .ofNat (l.bodies ++ [body]).length
      rw [h.nextStamp_eq, List.length_append, List.length_singleton, UInt64.ofNat_add,
        UInt64.add_assoc]
      rfl
    · -- The new tree bears the stamp that its number among the buildings stands for.
      show ((f.trees.push (ScopeTree.build f.nextStamp body)).toList).map some =
        (l.origins ++ [l.bodies.length]).map ((l.step (.grow body)).tree? start)
      rw [Array.toList_push, List.map_append, List.map_append, h.map_tree?_step (.grow body),
        List.map_singleton, List.map_singleton, tree?_step_grow, h.nextStamp_eq]
  | copy n =>
    have hn := h.getElem?_trees n
    cases ht : f.trees[n]? with
    | none =>
      rw [ht] at hn
      have ho : l.origins[n]? = none := Option.map_eq_none_iff.mp hn.symm
      rw [Forest.step, Forest.copy, ht, Lineage.step, ho, Option.toList_none, List.append_nil]
      exact h
    | some t =>
      rw [ht] at hn
      obtain ⟨o, ho, htree⟩ := Option.map_eq_some_iff.mp hn.symm
      rw [Forest.step, Forest.copy, ht, Lineage.step, ho]
      refine ⟨h.nextStamp_eq, ?_⟩
      show ((f.trees.push t).toList).map some = (l.origins ++ [o]).map (l.tree? start)
      rw [Array.toList_push, List.map_append, List.map_append, h.trees_eq, List.map_singleton,
        List.map_singleton, htree]

/-- **The run lemma.** By induction on the operations, with the step lemma for each. -/
theorem Describes.foldl_step {l : Lineage} {start : Stamp} {f : Forest} (h : l.Describes start f)
    (ops : List Forest.Operation) :
    (ops.foldl Lineage.step l).Describes start (ops.foldl Forest.step f) := by
  induction ops generalizing l f with
  | nil => exact h
  | cons op ops ih => exact ih (h.step op)

theorem describes_run (start : Stamp) (ops : List Forest.Operation) :
    (of ops).Describes start (Forest.run start ops) := by
  have hempty : ({} : Lineage).Describes start { nextStamp := start } :=
    ⟨(UInt64.add_zero start).symm, rfl⟩
  exact hempty.foldl_step ops

/-- Buildings that take the same stamp are one, as long as there are no more of them than stamps. -/
theorem eq_of_stamp_eq {l : Lineage} {start : Stamp} (hstamps : l.bodies.length ≤ UInt64.size)
    {o o' : Nat} {t t' : ScopeTree} (ht : l.tree? start o = some t)
    (ht' : l.tree? start o' = some t') (h : t.stamp = t'.stamp) : o = o' := by
  obtain ⟨body, hbody, rfl⟩ := Option.map_eq_some_iff.mp ht
  obtain ⟨body', hbody', rfl⟩ := Option.map_eq_some_iff.mp ht'
  have hlt : o < UInt64.size :=
    Nat.lt_of_lt_of_le (List.getElem?_eq_some_iff.mp hbody).1 hstamps
  have hlt' : o' < UInt64.size :=
    Nat.lt_of_lt_of_le (List.getElem?_eq_some_iff.mp hbody').1 hstamps
  have hofNat : UInt64.ofNat o = UInt64.ofNat o' := (UInt64.add_right_inj start).mp h
  rw [← UInt64.toNat_ofNat_of_lt' hlt, hofNat, UInt64.toNat_ofNat_of_lt' hlt']

end Lineage

/-- The trees `m` and `n` of a run go back to the same building. -/
def SameBuild (ops : List Forest.Operation) (m n : Nat) : Prop :=
  ∃ o, (Lineage.of ops).origins[m]? = some o ∧ (Lineage.of ops).origins[n]? = some o

namespace Forest

variable {start : Stamp} {ops : List Operation}

theorem exists_origin {n : Nat} {t : ScopeTree} (ht : (run start ops).trees[n]? = some t) :
    ∃ o, (Lineage.of ops).origins[n]? = some o ∧ (Lineage.of ops).tree? start o = some t := by
  have hn := (Lineage.describes_run start ops).getElem?_trees n
  rw [ht] at hn
  exact Option.map_eq_some_iff.mp hn.symm

/-- Every tree of a run is in order, since it has been built at some time. -/
theorem ordered_of_mem_trees {t : ScopeTree} (ht : t ∈ (run start ops).trees) : t.Ordered := by
  obtain ⟨n, hn⟩ := Array.mem_iff_getElem?.mp ht
  obtain ⟨o, _, htree⟩ := exists_origin hn
  obtain ⟨body, _, rfl⟩ := Option.map_eq_some_iff.mp htree
  exact ScopeTree.ordered_build _ _

/-- Trees of one building are equal. -/
theorem eq_of_sameBuild {m n : Nat} {t t' : ScopeTree} (ht : (run start ops).trees[m]? = some t)
    (ht' : (run start ops).trees[n]? = some t') (h : SameBuild ops m n) : t = t' := by
  obtain ⟨o, ho, ho'⟩ := h
  obtain ⟨o₁, ho₁, htree⟩ := exists_origin ht
  obtain ⟨o₂, ho₂, htree'⟩ := exists_origin ht'
  rw [ho] at ho₁
  rw [ho'] at ho₂
  cases ho₁
  cases ho₂
  rw [htree] at htree'
  exact Option.some.inj htree'

/-- Trees of different buildings bear different stamps. -/
theorem stamp_ne_of_not_sameBuild (hstamps : (Lineage.of ops).bodies.length ≤ UInt64.size)
    {m n : Nat} {t t' : ScopeTree} (ht : (run start ops).trees[m]? = some t)
    (ht' : (run start ops).trees[n]? = some t') (h : ¬ SameBuild ops m n) :
    t.stamp ≠ t'.stamp := by
  intro hstamp
  obtain ⟨o, ho, htree⟩ := exists_origin ht
  obtain ⟨o', ho', htree'⟩ := exists_origin ht'
  have heq := Lineage.eq_of_stamp_eq hstamps htree htree' hstamp
  exact h ⟨o, ho, heq ▸ ho'⟩

/-- **Whom a name belongs to.** The name `id` is the name of `scope` to the trees that go back to
the building of the tree `m`, and foreign to all others. -/
structure BelongsTo (f : Forest) (ops : List Operation) (m : Nat) (id : ScopeId) (scope : Scope) :
    Prop where
  /-- A look-up gives an answer exactly in the trees of that building. -/
  exists_scope_iff : ∀ {n : Nat} {t : ScopeTree}, f.trees[n]? = some t →
    ((∃ s, t.scope id = .ok s) ↔ SameBuild ops m n)
  /-- These trees know the name, as the name of one and the same scope. -/
  accepts : ∀ {n : Nat} {t : ScopeTree}, f.trees[n]? = some t → SameBuild ops m n →
    t.Accepts id scope
  /-- All others refuse it before any walk, even if they have a scope at its place. -/
  refuses : ∀ {n : Nat} {t : ScopeTree}, f.trees[n]? = some t → ¬ SameBuild ops m n →
    t.Refuses id (.foreign id.index)
  message_eq : (ScopeError.foreign id.index).message =
    s!"scope id #{id.index} belongs to another scope tree"
  /-- A name under the stamp of a tree has a place in its table. -/
  index_lt : ∀ {n : Nat} {t : ScopeTree}, f.trees[n]? = some t → id.tree = t.stamp →
    id.index < t.size

/-- A name obtained in a run belongs to the trees of that run that go back to the building of the
tree it was obtained through. -/
theorem Obtained.exists_belongsTo (hstamps : (Lineage.of ops).bodies.length ≤ UInt64.size) {m : Nat}
    {id : ScopeId} (hid : (run start ops).Obtained m id) :
    ∃ scope, (run start ops).BelongsTo ops m id scope := by
  obtain ⟨t₀, ht₀, hnames⟩ := hid.names fun _ => ordered_of_mem_trees
  obtain ⟨scope, hscope⟩ := hnames.exists_scope
  have haccepts : ∀ {n : Nat} {t : ScopeTree}, (run start ops).trees[n]? = some t →
      SameBuild ops m n → t.Accepts id scope := by
    intro n t ht hsame
    rw [← eq_of_sameBuild ht₀ ht hsame]
    exact (ordered_of_mem_trees (Array.mem_of_getElem? ht₀)).accepts hscope
  have hforeign : ∀ {n : Nat} {t : ScopeTree}, (run start ops).trees[n]? = some t →
      ¬ SameBuild ops m n → id.tree ≠ t.stamp := by
    intro n t ht hother
    rw [hnames.1]
    exact stamp_ne_of_not_sameBuild hstamps ht₀ ht hother
  refine ⟨scope, ?_, haccepts, ?_, rfl, ?_⟩
  · intro n t ht
    constructor
    · rintro ⟨s, hs⟩
      exact Classical.byContradiction fun hother =>
        hforeign ht hother (ScopeTree.names_of_scope_eq_ok hs).1
    · intro hsame
      exact ⟨scope, (haccepts ht hsame).scope_eq⟩
  · intro n t ht hother
    exact ScopeTree.refuses_foreign (hforeign ht hother)
  · intro n t ht hstamp
    by_cases hsame : SameBuild ops m n
    · exact (ScopeTree.names_of_scope_eq_ok (haccepts ht hsame).scope_eq).2
    · exact absurd hstamp (hforeign ht hsame)

/-- **The trees that accept a name.** A name obtained at any time of a run belongs, among the trees
of the whole run, to those that go back to the building of the tree it was obtained through, if no
more trees are built than there are stamps. -/
theorem exists_belongsTo_of_obtained (start : Stamp) (ops later : List Operation)
    (hstamps : (Lineage.of (ops ++ later)).bodies.length ≤ UInt64.size) {m : Nat} {id : ScopeId}
    (hid : (run start ops).Obtained m id) :
    ∃ scope, (run start (ops ++ later)).BelongsTo (ops ++ later) m id scope :=
  (hid.run_append later).exists_belongsTo hstamps

/-- A block with another one inside it. -/
def nested : Block where
  header := { kind := .beginEnd, label := some (.regular "a") }
  statements := .block { kind := .loop } .nil .nil

/-- A tree and a copy of it. -/
def twins : List Operation := [.grow nested, .copy 0]

/-- The theorem at the root, as the copy gives it for the parent of a scope of the first tree. Then
the counter wraps around, and a second tree of that shape has a scope at this place too. -/
theorem exists_belongsTo_of_obtained_twins :
    (Lineage.of (twins ++ [.grow nested])).bodies.length ≤ UInt64.size ∧
      (run (-1) twins).Obtained 1 ⟨-1, 0⟩ ∧
      ∃ scope, (run (-1) (twins ++ [.grow nested])).BelongsTo (twins ++ [.grow nested]) 1 ⟨-1, 0⟩
        scope := by
  have hid : (run (-1) twins).Obtained 1 ⟨-1, 0⟩ :=
    .parent (t := .build (-1) nested) rfl
      (.scopeOf (n := 0) (t := .build (-1) nested) ⟨1⟩ rfl rfl) rfl
  exact ⟨by decide, hid, exists_belongsTo_of_obtained (-1) twins [.grow nested] (by decide) hid⟩

end Forest

end LabelCheck
