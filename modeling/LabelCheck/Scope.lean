import LabelCheck.Block.Walk
import LabelCheck.NameMatcher

/-!
# Scope trees

The nesting of the blocks of a body as a table with one scope per block. Scopes stand in
pre-order, so that a parent stands before its children and the place of a scope is the number of
its block. A scope is named by its place together with the stamp of its tree: a tree answers only
for its own scopes and for those of its copies.

* `ScopeTree.build`: the tree of a body under a stamp;
* `ScopeTree.scope`, `ScopeTree.parent`, `ScopeTree.ancestors`: look-ups, which refuse the scopes
  of other trees;
* `ScopeTree.nearest`: the nearest scope, going outward, whose label passes a test;
* `ScopeTree.resolve`: the nearest scope, going outward, whose label a name denotes;
* `ScopeTree.outline`: the tree as an indented text.
-/

namespace LabelCheck

/-- What tells one built tree from another. Stamps are handed out one after the other. -/
abbrev Stamp := UInt64

/-- A scope of the tree with the stamp `tree`. -/
structure ScopeId where
  tree : Stamp
  index : Nat
  deriving DecidableEq, Repr

/-- The place of one block in the nesting of a body. -/
structure Scope where
  block : BlockId
  /-- The scope of the block around it; only the outermost block has none. -/
  parent : Option ScopeId
  label : Option Identifier
  /-- Whether the block repeats its statements. -/
  iteration : Bool
  /-- The number of blocks around it. -/
  depth : Nat
  deriving DecidableEq, Repr

/-- The scope at a place, from what its block says of itself. -/
def Scope.of (index : Nat) (parent : Option ScopeId) (header : Header) (depth : Nat) : Scope where
  block := ⟨index⟩
  parent := parent
  label := header.label
  iteration := header.kind.isIteration
  depth := depth

/-- Why a scope cannot be looked up. -/
inductive ScopeError where
  /-- The scope belongs to a tree with another stamp. -/
  | foreign (index : Nat)
  /-- The tree has no scope at this place. -/
  | outOfRange (index size : Nat)
  /-- The chain of parents of the scope at this place does not lead outward. -/
  | notOutward (index : Nat)
  deriving DecidableEq, Repr

/-- The wording of a scope error. -/
def ScopeError.message : ScopeError → String
  | foreign index => s!"scope id #{index} belongs to another scope tree"
  | outOfRange index size => s!"scope id #{index} is beyond the {size} scopes of its tree"
  | notOutward index => s!"scope id #{index} does not lie inside its parent"

/-- The scopes of a body in pre-order, under the stamp of their tree. -/
structure ScopeTree where
  stamp : Stamp
  scopes : Array Scope
  deriving DecidableEq, Repr

/-- Add a scope for every block at all depths of a sequence that stands directly in the block
with scope `parent`, behind the scopes there are. -/
def Statements.addScopes (parent : ScopeId) (depth : Nat) :
    Statements → Array Scope → Array Scope
  | nil, scopes => scopes
  | sql _ _ rest, scopes => rest.addScopes parent depth scopes
  | transfer _ _ rest, scopes => rest.addScopes parent depth scopes
  | block header inner rest, scopes =>
    let id : ScopeId := ⟨parent.tree, scopes.size⟩
    let scope := Scope.of id.index (some parent) header depth
    rest.addScopes parent depth (inner.addScopes id (depth + 1) (scopes.push scope))

namespace ScopeTree

/-- The tree of a body: one scope for every block. -/
def build (stamp : Stamp) (body : Block) : ScopeTree :=
  { stamp, scopes := body.statements.addScopes ⟨stamp, 0⟩ 1 #[.of 0 none body.header 0] }

/-- The number of scopes. -/
def size (t : ScopeTree) : Nat := t.scopes.size

/-- Whether there are no scopes. -/
def isEmpty (t : ScopeTree) : Bool := t.scopes.isEmpty

/-- The name of the scope at a place. -/
def idAt (t : ScopeTree) (index : Nat) : ScopeId := ⟨t.stamp, index⟩

/-- The name of the scope of the outermost block. -/
def root (t : ScopeTree) : ScopeId := t.idAt 0

/-- The scope with a name, which has to be a name of this tree. -/
def scope (t : ScopeTree) (id : ScopeId) : Except ScopeError Scope :=
  if id.tree = t.stamp then
    match t.scopes[id.index]? with
    | some scope => .ok scope
    | none => .error (.outOfRange id.index t.size)
  else .error (.foreign id.index)

/-- The scope around a scope. -/
def parent (t : ScopeTree) (id : ScopeId) : Except ScopeError (Option ScopeId) :=
  return (← t.scope id).parent

/-- The scope of a block of the body. -/
def scopeOf (t : ScopeTree) (block : BlockId) : Option ScopeId :=
  match t.scopes[block.index]? with
  | some scope => if scope.block = block then some (t.idAt block.index) else none
  | none => none

/-- A scope and the scopes around it, going outward to the root. -/
def ancestors (t : ScopeTree) (id : ScopeId) : Except ScopeError (List (ScopeId × Scope)) := do
  let scope ← t.scope id
  match scope.parent with
  | none => return [(id, scope)]
  | some around =>
    if _h : around.index < id.index then
      return (id, scope) :: (← t.ancestors around)
    else throw (.notOutward id.index)
termination_by id.index

theorem scope_idAt {t : ScopeTree} {index : Nat} {scope : Scope}
    (h : t.scopes[index]? = some scope) : t.scope (t.idAt index) = .ok scope := by
  simp [ScopeTree.scope, idAt, h]

/-- A block has a scope if the table holds one for it at its number. -/
theorem scopeOf_eq_some_iff {t : ScopeTree} {block : BlockId} {id : ScopeId} :
    t.scopeOf block = some id ↔
      (∃ scope, t.scopes[block.index]? = some scope ∧ scope.block = block) ∧
        id = t.idAt block.index := by
  unfold scopeOf
  cases t.scopes[block.index]? with
  | none => simp
  | some scope =>
    by_cases h : scope.block = block
    · simp [h, eq_comm]
    · simp [h]

/-- The chain of a scope without a parent is that scope. -/
theorem ancestors_of_parent_eq_none {t : ScopeTree} {id : ScopeId} {scope : Scope}
    (hs : t.scope id = .ok scope) (hp : scope.parent = none) :
    t.ancestors id = .ok [(id, scope)] := by
  rw [ancestors, hs]
  simp [bind, Except.bind, pure, Except.pure, hp]

/-- The chain of any other scope goes on with the chain of its parent. -/
theorem ancestors_of_parent_eq_some {t : ScopeTree} {id around : ScopeId} {scope : Scope}
    {chain : List (ScopeId × Scope)} (hs : t.scope id = .ok scope)
    (hp : scope.parent = some around) (hlt : around.index < id.index)
    (hc : t.ancestors around = .ok chain) : t.ancestors id = .ok ((id, scope) :: chain) := by
  rw [ancestors, hs]
  simp [bind, Except.bind, pure, Except.pure, hp, hlt, hc]

/-- All scopes with their names, in pre-order. -/
def toList (t : ScopeTree) : List (ScopeId × Scope) :=
  t.scopes.toList.mapIdx fun index scope => (t.idAt index, scope)

/-- The block of the nearest scope, from `start` outward and `start` included, whose label passes
a test. Scopes without a label are passed over. -/
def nearest (t : ScopeTree) (start : ScopeId) (p : Identifier → Bool) :
    Except ScopeError (Option BlockId) := do
  let scope ← t.scope start
  if scope.label.any p then return some scope.block
  match scope.parent with
  | none => return none
  | some around =>
    if _h : around.index < start.index then t.nearest around p
    else throw (.notOutward start.index)
termination_by start.index

/-- A label that passes ends the search. -/
theorem nearest_of_any {t : ScopeTree} {start : ScopeId} {scope : Scope}
    {p : Identifier → Bool} (hs : t.scope start = .ok scope) (hp : scope.label.any p = true) :
    t.nearest start p = .ok (some scope.block) := by
  rw [nearest, hs]
  simp [bind, Except.bind, pure, Except.pure, hp]

/-- The search ends without a block at a scope without a parent. -/
theorem nearest_of_parent_eq_none {t : ScopeTree} {start : ScopeId} {scope : Scope}
    {p : Identifier → Bool} (hs : t.scope start = .ok scope) (hp : scope.label.any p = false)
    (hn : scope.parent = none) : t.nearest start p = .ok none := by
  rw [nearest, hs]
  simp [bind, Except.bind, pure, Except.pure, hp, hn]

/-- The search goes on at the parent of any other scope. -/
theorem nearest_of_parent_eq_some {t : ScopeTree} {start around : ScopeId} {scope : Scope}
    {p : Identifier → Bool} (hs : t.scope start = .ok scope) (hp : scope.label.any p = false)
    (ha : scope.parent = some around) (hlt : around.index < start.index) :
    t.nearest start p = t.nearest around p := by
  rw [nearest, hs]
  simp [bind, Except.bind, hp, ha, hlt]

/-- The block of the nearest scope, from `start` outward and `start` included, whose label the
name `target` denotes. An inner label hides an outer one with the same name. -/
def resolve (t : ScopeTree) (start : ScopeId) (target : Identifier) (m : NameMatcher) :
    Except ScopeError (Option BlockId) :=
  -- The form of the target is the same for all scopes.
  let wanted := m.canonical target
  t.nearest start fun label => m.canonical label == wanted

theorem resolve_eq_nearest (t : ScopeTree) (start : ScopeId) (target : Identifier)
    (m : NameMatcher) : t.resolve start target m = t.nearest start (m.accepts · target) := rfl

/-- One line of the outline: two blanks per level, the number of the block, its label, and a mark
on a block that repeats. -/
def outlineLine (scope : Scope) : String :=
  let label := match scope.label with
    | some label => s!" {label.text}:"
    | none => ""
  let mark := if scope.iteration then " (loop)" else ""
  String.join (List.replicate scope.depth "  ") ++ scope.block.text ++ label ++ mark ++ "\n"

/-- The tree as an indented text, one line per scope. -/
def outline (t : ScopeTree) : String := String.join (t.scopes.toList.map outlineLine)

instance : ToString ScopeTree := ⟨outline⟩

end ScopeTree

end LabelCheck
