import LabelCheck.Scope

/-!
# Forests

Scope trees that live side by side. Building a tree takes a fresh stamp, copying one keeps its
stamp: a name is accepted by the trees that go back to one building.

* `Forest`: the trees and the next stamp;
* `Forest.grow`, `Forest.copy`: the two ways to get a tree.
-/

namespace LabelCheck

/-- Scope trees in the order in which they were made, and the stamp of the next building. -/
structure Forest where
  nextStamp : Stamp := 0
  trees : Array ScopeTree := #[]
  deriving DecidableEq, Repr

namespace Forest

/-- Use up one stamp. -/
def takeStamp (f : Forest) : Stamp × Forest :=
  (f.nextStamp, { f with nextStamp := f.nextStamp + 1 })

/-- Build the tree of a body and add it. -/
def grow (f : Forest) (body : Block) : Forest × ScopeTree :=
  let (stamp, f) := f.takeStamp
  let tree := ScopeTree.build stamp body
  ({ f with trees := f.trees.push tree }, tree)

/-- Add a copy of the tree with a number; without such a tree nothing changes. -/
def copy (f : Forest) (n : Nat) : Forest :=
  match f.trees[n]? with
  | some tree => { f with trees := f.trees.push tree }
  | none => f

end Forest

end LabelCheck
