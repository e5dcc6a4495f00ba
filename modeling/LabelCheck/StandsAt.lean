/-!
# Parts of a list

The listings of a body hold, one behind the other, the listings of its parts. `StandsAt` says where
a part stands in a whole, and its laws take a part of a part, the parts of a part, and a whole that
grows at its front.
-/

namespace LabelCheck

/-- The part `part` of a list stands at the place `n`. -/
def StandsAt {α : Type} (n : Nat) (part whole : List α) : Prop :=
  ∃ before after, whole = before ++ part ++ after ∧ before.length = n

namespace StandsAt

variable {α : Type} {n k : Nat} {part whole first second : List α}

theorem left (h : StandsAt n (first ++ second) whole) : StandsAt n first whole := by
  obtain ⟨before, after, rfl, rfl⟩ := h
  exact ⟨before, second ++ after, by simp, rfl⟩

theorem right (h : StandsAt n (first ++ second) whole) :
    StandsAt (n + first.length) second whole := by
  obtain ⟨before, after, rfl, rfl⟩ := h
  exact ⟨before ++ first, after, by simp, by simp⟩

theorem getElem? {a : α} (h : StandsAt n (a :: second) whole) : whole[n]? = some a := by
  obtain ⟨before, after, rfl, rfl⟩ := h
  simp

theorem tail {a : α} (h : StandsAt n (a :: second) whole) : StandsAt (n + 1) second whole := by
  rw [← List.singleton_append] at h
  exact h.right

theorem refl (whole : List α) : StandsAt 0 whole whole := ⟨[], [], by simp, rfl⟩

/-- A part of a part is a part. -/
theorem trans (h : StandsAt k part first) (hw : StandsAt n first whole) :
    StandsAt (n + k) part whole := by
  obtain ⟨before, after, rfl, rfl⟩ := h
  obtain ⟨outside, behind, rfl, rfl⟩ := hw
  refine ⟨outside ++ before, after ++ behind, ?_, by simp⟩
  simp only [List.append_assoc]

/-- The parts of the front are those of the whole. -/
theorem appendRight (h : StandsAt n part first) (second : List α) :
    StandsAt n part (first ++ second) := by
  obtain ⟨before, after, rfl, rfl⟩ := h
  exact ⟨before, after ++ second, by simp, rfl⟩

/-- The parts of the rest stand behind the front. -/
theorem appendLeft (first : List α) (h : StandsAt n part second) :
    StandsAt (first.length + n) part (first ++ second) := by
  obtain ⟨before, after, rfl, rfl⟩ := h
  exact ⟨first ++ before, after, by simp, by simp⟩

/-- A part is what comes behind its place, as far as it is long. -/
theorem take_drop (h : StandsAt n part whole) : (whole.drop n).take part.length = part := by
  obtain ⟨before, after, rfl, rfl⟩ := h
  rw [List.append_assoc, List.drop_left, List.take_left]

theorem length_le (h : StandsAt n part whole) : n + part.length ≤ whole.length := by
  obtain ⟨before, after, rfl, rfl⟩ := h
  simp only [List.length_append]
  omega

end StandsAt

end LabelCheck
