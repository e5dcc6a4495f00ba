import LabelCheck.Proofs.Address
import Mathlib.Data.List.Forall2

/-!
# Places of transfers

The transfers of a body are listed without a word of where they stand. This module lists their
places, each by the address of the block that holds the transfer and its place there, so that a
transfer is told from an equal one that stands elsewhere.

* `Address.Precedes`: source order, told by the tree alone;
* `Block.ListsTransfers`: places of statements that are those of all transfers, in source order;
* `Block.transferPlaces`: such a listing, made by one recursion over the body, with
  `Block.forall₂_transferPlaces` for the transfers that stand at its places.
-/

namespace LabelCheck

/-! ### Source order -/

/-- **Source order.** Of two statements that do not hold each other, one comes before the other if
they are in different statements of some block, and it is in the earlier one. -/
def Address.Precedes (x y : Address) : Prop :=
  ∃ (q : Address) (i j : Nat), i < j ∧ q ++ [i] <+: x ∧ q ++ [j] <+: y

/-- **The transfers of a body,** each by the address of the block that holds it and its place there.
They stand in source order, and none is left out. -/
structure Block.ListsTransfers (b : Block) (places : List (Address × Nat)) : Prop where
  mem_iff : ∀ a i, (a, i) ∈ places ↔ ∃ kind r, b.statement? a i = some (.transfer kind r)
  ascending : places.Pairwise fun x y => Address.Precedes (x.1 ++ [x.2]) (y.1 ++ [y.2])

/-- The places of the transfers of a sequence that stands in the block at an address, from the place
`i` on. -/
def Statements.transferPlaces : (a : Address) → (i : Nat) → Statements → List (Address × Nat)
  | _, _, nil => []
  | a, i, sql _ _ rest => rest.transferPlaces a (i + 1)
  | a, i, transfer _ _ rest => (a, i) :: rest.transferPlaces a (i + 1)
  | a, i, block _ inner rest =>
    inner.transferPlaces (a ++ [i]) 0 ++ rest.transferPlaces a (i + 1)

/-- The places of the transfers of a body. -/
def Block.transferPlaces (b : Block) : List (Address × Nat) := b.statements.transferPlaces [] 0

namespace Statements

/-- The places are those of the transfers, one by one. The sequence is what stands in the block
`outer` from the place `i` on. -/
theorem forall₂_transferPlaces {b outer : Block} (s : Statements) {a : Address} {i : Nat}
    (hat : b.at? a = some outer) (hs : StandsAt i s.toList outer.statements.toList) :
    List.Forall₂ (fun place t => b.statement? place.1 place.2 = some (.transfer t.1 t.2))
      (s.transferPlaces a i) s.transfers := by
  induction s generalizing outer a i with
  | nil => exact .nil
  | sql text span rest ih => exact ih hat hs.tail
  | transfer kind r rest ih =>
    exact .cons (Option.bind_eq_some_iff.mpr ⟨outer, hat, hs.getElem?⟩) (ih hat hs.tail)
  | block header inner rest ihInner ihRest =>
    have hhere : b.at? (a ++ [i]) = some ⟨header, inner⟩ :=
      Block.at?_concat_eq_some_iff.mpr ⟨outer, hat, hs.getElem?⟩
    -- Inside the block its statements are counted anew, behind it the count goes on.
    exact List.rel_append (ihInner hhere (.refl _)) (ihRest hat hs.tail)

variable {s : Statements} {a : Address} {i j : Nat}

/-- A transfer that is the statement `j` of a sequence has its place among those of the sequence. -/
theorem mem_transferPlaces {kind : TransferKind} {r : LabelReference}
    (h : s.toList[j]? = some (.transfer kind r)) : (a, i + j) ∈ s.transferPlaces a i := by
  -- What is behind the first statement stands one place further on.
  induction s generalizing i j with
  | nil => cases h
  | sql text span rest ih =>
    cases j with
    | zero => cases h
    | succ j => exact Nat.add_right_comm i 1 j ▸ ih (i := i + 1) h
  | transfer kind' r' rest ih =>
    cases j with
    | zero => exact List.mem_cons_self
    | succ j => exact List.mem_cons_of_mem _ (Nat.add_right_comm i 1 j ▸ ih (i := i + 1) h)
  | block header inner rest _ ih =>
    cases j with
    | zero => cases h
    | succ j => exact List.mem_append_right _ (Nat.add_right_comm i 1 j ▸ ih (i := i + 1) h)

/-- And so have all transfers inside a block that is the statement `j`. -/
theorem transferPlaces_subset {inner : Block} (h : s.toList[j]? = some (.block inner)) :
    inner.statements.transferPlaces (a ++ [i + j]) 0 ⊆ s.transferPlaces a i := by
  induction s generalizing i j with
  | nil => cases h
  | sql text span rest ih =>
    cases j with
    | zero => cases h
    | succ j => exact Nat.add_right_comm i 1 j ▸ ih (i := i + 1) h
  | transfer kind r rest ih =>
    cases j with
    | zero => cases h
    | succ j => exact List.subset_cons_of_subset _ (Nat.add_right_comm i 1 j ▸ ih (i := i + 1) h)
  | block header inside rest _ ih =>
    cases j with
    | zero =>
      cases h
      exact List.subset_append_left _ _
    | succ j =>
      exact List.subset_append_of_subset_right _ (Nat.add_right_comm i 1 j ▸ ih (i := i + 1) h)

/-- Every place of a sequence is at or inside one of its statements. -/
theorem exists_prefix_of_mem_transferPlaces {place : Address × Nat}
    (h : place ∈ s.transferPlaces a i) : ∃ j, i ≤ j ∧ a ++ [j] <+: place.1 ++ [place.2] := by
  induction s generalizing a i with
  | nil => cases h
  | sql text span rest ih =>
    obtain ⟨j, hj, hprefix⟩ := ih h
    exact ⟨j, by omega, hprefix⟩
  | transfer kind r rest ih =>
    rcases List.mem_cons.mp h with rfl | h
    · exact ⟨i, le_refl i, List.prefix_rfl⟩
    · obtain ⟨j, hj, hprefix⟩ := ih h
      exact ⟨j, by omega, hprefix⟩
  | block header inner rest ihInner ihRest =>
    rcases List.mem_append.mp h with h | h
    · obtain ⟨j, _, hprefix⟩ := ihInner h
      exact ⟨i, le_refl i, (List.prefix_append _ _).trans hprefix⟩
    · obtain ⟨j, hj, hprefix⟩ := ihRest h
      exact ⟨j, by omega, hprefix⟩

/-- What is at or inside a statement comes before all places behind that statement. -/
theorem precedes_of_mem_transferPlaces {x y : Address × Nat} (hx : a ++ [i] <+: x.1 ++ [x.2])
    (hy : y ∈ s.transferPlaces a (i + 1)) :
    Address.Precedes (x.1 ++ [x.2]) (y.1 ++ [y.2]) := by
  obtain ⟨j, hj, hprefix⟩ := exists_prefix_of_mem_transferPlaces hy
  exact ⟨a, i, j, hj, hx, hprefix⟩

/-- **The places are in source order.** -/
theorem pairwise_transferPlaces (s : Statements) (a : Address) (i : Nat) :
    (s.transferPlaces a i).Pairwise fun x y =>
      Address.Precedes (x.1 ++ [x.2]) (y.1 ++ [y.2]) := by
  induction s generalizing a i with
  | nil => exact .nil
  | sql text span rest ih => exact ih a (i + 1)
  | transfer kind r rest ih =>
    refine List.pairwise_cons.mpr ⟨fun y hy => ?_, ih a (i + 1)⟩
    exact precedes_of_mem_transferPlaces List.prefix_rfl hy
  | block header inner rest ihInner ihRest =>
    refine List.pairwise_append.mpr ⟨ihInner (a ++ [i]) 0, ihRest a (i + 1), fun x hx y hy => ?_⟩
    obtain ⟨j, _, hprefix⟩ := exists_prefix_of_mem_transferPlaces hx
    exact precedes_of_mem_transferPlaces ((List.prefix_append _ _).trans hprefix) hy

end Statements

namespace Block

variable {b : Block}

theorem forall₂_transferPlaces (b : Block) :
    List.Forall₂ (fun place t => b.statement? place.1 place.2 = some (.transfer t.1 t.2))
      b.transferPlaces b.transfers :=
  @Statements.forall₂_transferPlaces b b b.statements [] 0 rfl (.refl _)

/-- Every transfer has a place in the listing. The way to it is followed from the body inward, with
`outer` as the way that has been gone. -/
theorem mem_transferPlaces (outer : Address) {a : Address} {i : Nat} {kind : TransferKind}
    {r : LabelReference} (h : b.statement? a i = some (.transfer kind r)) :
    (outer ++ a, i) ∈ b.statements.transferPlaces outer 0 := by
  obtain ⟨c, hc, hi⟩ := Option.bind_eq_some_iff.mp h
  induction a generalizing b outer with
  | nil =>
    cases hc
    have hmem := Statements.mem_transferPlaces (a := outer) (i := 0) hi
    rw [Nat.zero_add] at hmem
    rw [List.append_nil]
    exact hmem
  | cons j a ih =>
    obtain ⟨inner, hj, hc⟩ := at?_cons_eq_some_iff.mp hc
    have hinner := ih (outer ++ [j]) (Option.bind_eq_some_iff.mpr ⟨c, hc, hi⟩) hc
    have hsubset := Statements.transferPlaces_subset (a := outer) (i := 0) hj
    rw [Nat.zero_add] at hsubset
    rw [List.append_cons]
    exact hsubset hinner

/-- **The listing of the transfers** is as it has to be. -/
theorem listsTransfers_transferPlaces (b : Block) : b.ListsTransfers b.transferPlaces := by
  refine ⟨fun a i => ⟨fun hmem => ?_, ?_⟩, b.statements.pairwise_transferPlaces [] 0⟩
  · -- The place with a number in the listing is that of the transfer with this number.
    obtain ⟨n, hn, hplace⟩ := List.mem_iff_getElem.mp hmem
    have hget := b.forall₂_transferPlaces.get hn (b.forall₂_transferPlaces.length_eq ▸ hn)
    rw [List.get_eq_getElem, hplace] at hget
    exact ⟨_, _, hget⟩
  · rintro ⟨kind, r, h⟩
    exact mem_transferPlaces [] h

end Block

end LabelCheck
