import LabelCheck.Proofs.Editing
import LabelCheck.Proofs.Resolution

/-!
# Places in a body

A place among the statements of a body is what stands before it and behind it, at every level from
the body inward. Filling the place with a sequence of statements gives a body, and every stretch of
statements of a block fills a place (`Block.exists_place`). What a validation says of the body is
then cut in three: what it says before the place, of the sequence, and behind the place.

* `Place.fill`, `Place.opened`, `Place.around`, `Place.written`: the sequence with the place filled,
  how many of its blocks begin before the place, the blocks around the place, and what is written
  down before it;
* `Place.at?_fill`, `Place.numberAt_fill`, `Place.enclosing_fill`, `Place.modifyAt_fill`: a filled
  place as what stands at an address.

A place is a place in a sequence rather than in a block, so that the recursion over a place meets
the same two cases as the recursion over statements: go on in the sequence, or go into a block.
-/

namespace LabelCheck

/-- A place among the statements of a sequence, at any depth. -/
inductive Place where
  /-- Between the statements `front` and `back` of the sequence itself. -/
  | here (front back : Statements)
  /-- Inside a block that stands between `front` and `back`. -/
  | inside (front : Statements) (header : Header) (place : Place) (back : Statements)

namespace Place

/-- The sequence with the statements `s` at the place. -/
def fill : Place → Statements → Statements
  | here front back, s => front ++ s ++ back
  | inside front header place back, s => front ++ .block header (place.fill s) back

/-- How many blocks of the sequence begin before the place. -/
def opened : Place → Nat
  | here front _ => front.blockCount
  | inside front _ place _ => front.blockCount + 1 + place.opened

/-- The blocks around the place, the innermost first, where the sequence stands inside the blocks
`outer` and its first block has the number `next`. -/
def around (outer : List (BlockId × Header)) (next : Nat) : Place → List (BlockId × Header)
  | here _ _ => outer
  | inside front header place _ =>
    place.around ((⟨next + front.blockCount⟩, header) :: outer) (next + front.blockCount + 1)

/-- The sequence as far as it is written down before the place: a block around the place is still
open, and there is no label behind it yet. -/
def written : Place → Statements
  | here front _ => front
  | inside front header place _ =>
    front ++ .block { header with endLabel := none } place.written .nil

/-! ### The address of a place -/

/-- The way from the block whose statements the sequence is to the block that directly holds the
place. -/
def address : Place → Address
  | here _ _ => []
  | inside front _ place _ => front.length :: place.address

/-- What the block that directly holds the place says of itself, where the sequence stands in a
block with the header `header`. -/
def holder (header : Header) : Place → Header
  | here _ _ => header
  | inside _ header place _ => place.holder header

/-- The statements before the place in the block that directly holds it. -/
def front : Place → Statements
  | here front _ => front
  | inside _ _ place _ => place.front

/-- The statements behind the place in the block that directly holds it. -/
def back : Place → Statements
  | here _ back => back
  | inside _ _ place _ => place.back

end Place

namespace Statements

theorem getElem?_toList_length_append (front : Statements) (header : Header)
    (inner back : Statements) :
    (front ++ block header inner back).toList[front.length]? = some (.block ⟨header, inner⟩) := by
  rw [toList_append, length, List.getElem?_append_right (Nat.le_refl _), Nat.sub_self]
  rfl

theorem ofList_set_length_append (front : Statements) (header : Header) (inner back : Statements)
    (c : Block) :
    ofList ((front ++ block header inner back).toList.set front.length (.block c)) =
      front ++ block c.header c.statements back := by
  rw [toList_append, length, List.set_append_right _ _ (Nat.le_refl _), Nat.sub_self, toList,
    List.set_cons_zero, ofList_append, ofList_cons, ofList_toList, ofList_toList]
  rfl

@[simp] theorem blocksBefore_length_append (front s : Statements) :
    (front ++ s).blocksBefore front.length = front.blockCount := by
  rw [blocksBefore, toList_append, length, List.take_left, ofList_toList]

end Statements

namespace Place

variable {q : Place} {header : Header} {s t : Statements}

/-- The block that directly holds the place has the sequence among its statements. -/
theorem at?_fill (q : Place) (header : Header) (s : Statements) :
    (⟨header, q.fill s⟩ : Block).at? q.address =
      some ⟨q.holder header, q.front ++ s ++ q.back⟩ := by
  induction q generalizing header with
  | here front back => rfl
  | inside front inner place back ih =>
    refine Block.at?_cons_eq_some_iff.mpr ⟨⟨inner, place.fill s⟩, ?_, ih inner⟩
    exact Statements.getElem?_toList_length_append front inner (place.fill s) back

/-- The number of the block that directly holds the place, and of the blocks up to the place. -/
theorem numberAt_fill (q : Place) (header : Header) (s : Statements) :
    (⟨header, q.fill s⟩ : Block).numberAt q.address + 1 + q.front.blockCount = 1 + q.opened := by
  induction q generalizing header with
  | here front back => simp [address, Place.front, opened]
  | inside front inner place back ih =>
    have hi := Statements.getElem?_toList_length_append front inner (place.fill s) back
    have hinner := ih inner
    simp only [address, Place.front, opened, fill]
    rw [Block.numberAt_cons hi, Statements.blocksBefore_length_append]
    omega

/-- The blocks on the way outward from the block that directly holds the place. -/
theorem enclosing_fill (q : Place) (header : Header) (s : Statements)
    (outer : List (BlockId × Header)) (next : Nat) :
    (⟨header, q.fill s⟩ : Block).enclosing next q.address ++ outer =
      q.around ((⟨next⟩, header) :: outer) (next + 1) := by
  induction q generalizing header outer next with
  | here front back => rfl
  | inside front inner place back ih =>
    have hi := Statements.getElem?_toList_length_append front inner (place.fill s) back
    have hinner := ih inner ((⟨next⟩, header) :: outer) (next + 1 + front.blockCount)
    simp only [address, fill, around]
    rw [Block.enclosing_cons hi, Statements.blocksBefore_length_append, List.append_assoc]
    exact hinner

/-- Another sequence at the place makes other statements in the block that directly holds it. -/
theorem modifyAt_fill (q : Place) (header : Header) (s t : Statements) :
    (⟨header, q.fill s⟩ : Block).modifyAt q.address
        (fun b => { b with statements := q.front ++ t ++ q.back }) =
      ⟨header, q.fill t⟩ := by
  induction q generalizing header with
  | here front back => rfl
  | inside front inner place back ih =>
    have hi := Statements.getElem?_toList_length_append front inner (place.fill s) back
    have hsome := Option.isSome_of_eq_some (place.at?_fill inner s)
    simp only [address, fill, Place.front, Place.back]
    rw [Block.modifyAt_cons hi hsome, ih inner, Statements.ofList_set_length_append]

end Place

/-- A sequence is what stands before one of its blocks, that block, and what stands behind it. -/
theorem Statements.exists_eq_append {s : Statements} {inner : Block} {i : Nat}
    (h : s.toList[i]? = some (.block inner)) :
    ∃ front back, s = front ++ block inner.header inner.statements back ∧ front.length = i := by
  obtain ⟨hi, hitem⟩ := List.getElem?_eq_some_iff.mp h
  refine ⟨ofList (s.toList.take i), ofList (s.toList.drop (i + 1)), ?_, ?_⟩
  · have hlist : s.toList = s.toList.take i ++ .block inner :: s.toList.drop (i + 1) := by
      rw [← hitem, List.cons_getElem_drop_succ, List.take_append_drop]
    calc s = ofList s.toList := (ofList_toList s).symm
      _ = ofList (s.toList.take i ++ .block inner :: s.toList.drop (i + 1)) := congrArg ofList hlist
      _ = _ := by rw [ofList_append, ofList_cons]; rfl
  · rw [length, toList_ofList, List.length_take]
    omega

/-- **Every stretch of statements of a block is at a place of the body.** -/
theorem Block.exists_place {b c : Block} {a : Address} {front s back : Statements}
    (hc : b.at? a = some c) (hs : c.statements = front ++ s ++ back) :
    ∃ q : Place, b.statements = q.fill s ∧ q.address = a ∧ q.front = front ∧ q.back = back := by
  induction a generalizing b with
  | nil =>
    cases hc
    exact ⟨.here front back, hs, rfl, rfl, rfl⟩
  | cons i a ih =>
    obtain ⟨inner, hi, hc⟩ := at?_cons_eq_some_iff.mp hc
    obtain ⟨before, behind, hb, hlength⟩ := Statements.exists_eq_append hi
    obtain ⟨q, hq, haddress, hfront, hback⟩ := ih hc
    refine ⟨.inside before inner.header q behind, ?_, ?_, hfront, hback⟩
    · rw [hb, hq]
      rfl
    · rw [← haddress, ← hlength]
      rfl

/-- A procedure whose body is a place that is filled gets other statements there. -/
theorem Procedure.body_withStatements_fill {p : Procedure} {q : Place} {header : Header}
    {s : Statements} (hbody : p.body = ⟨header, q.fill s⟩) (t : Statements) :
    (p.withStatements q.address (q.front ++ t ++ q.back)).body = ⟨header, q.fill t⟩ := by
  rw [← q.modifyAt_fill header s t, ← hbody]
  rfl

end LabelCheck
