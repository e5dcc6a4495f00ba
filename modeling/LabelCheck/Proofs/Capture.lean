import LabelCheck.Proofs.Editing
import LabelCheck.Proofs.Resolution

/-!
# A new label captures what it shadows

A block without a label is given one. Of the references to this name inside the block, those that
were found further out, or nowhere, now name the block. Those that were found in a block inside it
are nearer to that one, and no other reference can see the label.

* `Block.Captures`: the references that come to name the block;
* `Block.Stays`: all others, by the three reasons for which a reference stays as it was;
* `Block.Shadowing`: what a reference holds before and after;
* `Procedure.validate_withLabel`: the validation of a procedure with the new label.

The argument compares addresses that lie on one way outward, of which one is always further out than
the other: that of the block with the new label, and that of the block which was found.
-/

namespace LabelCheck

namespace Block

/-- **The new label captures a reference.** The block at `q` is given the label, and a reference to
`target` that stands directly in the block at `a` held `res` before. -/
structure Captures (m : NameMatcher) (label target : Identifier) (b : Block) (q a : Address)
    (res : Resolution) : Prop where
  /-- The reference stands in the block, at any depth. -/
  inside : q <+: a
  named : m.accepts label target = true
  /-- It was not found, or found in a block around the one with the new label. -/
  shadowed : res = .notFound ∨ ∃ q', q' <+: q ∧ q' ≠ q ∧ res = .resolved ⟨b.numberAt q'⟩

/-- The reasons for which a reference does not come to name the block at `q`. -/
inductive Stays (m : NameMatcher) (label target : Identifier) (b : Block) (q a : Address)
    (res : Resolution) : Prop where
  /-- The reference stands outside the block. -/
  | outside (h : ¬ q <+: a)
  /-- The label is not its name. -/
  | unnamed (h : ¬ m.accepts label target = true)
  /-- It was found in a block inside the one with the new label. -/
  | nested {q' : Address} (hat : (b.at? q').isSome) (hinside : q <+: q') (hne : q' ≠ q)
    (h : res = .resolved ⟨b.numberAt q'⟩)

/-- **Shadowing.** What a reference held before and what it holds after the block at `q` has been
given the label. -/
structure Shadowing (m : NameMatcher) (label target : Identifier) (b : Block) (q a : Address)
    (res res' : Resolution) : Prop where
  captured : b.Captures m label target q a res → res' = .resolved ⟨b.numberAt q⟩
  kept : b.Stays m label target q a res → res' = res
  /-- There is no third case, and no reference is in both. -/
  others_iff : ¬ b.Captures m label target q a res ↔ b.Stays m label target q a res

variable {m : NameMatcher} {label target : Identifier} {b B : Block} {a q q' : Address}
  {res : Resolution}

/-! ### The blocks that carry a name -/

theorem not_carriesAt_of_unlabelled (hB : b.at? q = some B) (hl : B.label = none) :
    ¬ b.CarriesAt m target q := by
  rintro ⟨inner, label, hat, hlabel, _⟩
  rw [hB] at hat
  cases hat
  rw [hl] at hlabel
  cases hlabel

theorem carriesAt_iff_exists_header :
    b.CarriesAt m target a ↔
      ∃ h, (b.at? a).map header = some h ∧ h.carries m target = true := by
  rw [← carriesAt_eq_true_iff, carriesAt, Option.any_eq_true]
  simp

/-- Besides the blocks that carried a name before, the one with the new label may carry it. -/
theorem carriesAt_labelled_iff (hB : b.at? q = some B) (hl : B.label = none) :
    (b.modifyAt q (labelled label)).CarriesAt m target a ↔
      a = q ∧ m.accepts label target = true ∨ b.CarriesAt m target a := by
  have hheader := header_at?_modifyAt (statements_labelled label)
    (Option.isSome_of_eq_some hB) a
  rw [carriesAt_iff_exists_header, hheader]
  by_cases haq : a = q
  · subst haq
    have hno : ¬ b.CarriesAt m target a := not_carriesAt_of_unlabelled hB hl
    simp [hB, hno, labelled, Header.carries]
  · rw [carriesAt_iff_exists_header]
    simp only [haq, if_false, false_and, false_or]

/-! ### The first block on the way that carries a name -/

/-- The block with the new label is the first, if all others that carry the name are further out. -/
theorem nearestAt_labelled_self (hB : b.at? q = some B) (hl : B.label = none) (hqa : q <+: a)
    (hname : m.accepts label target = true)
    (hout : ∀ q', q' <+: a → b.CarriesAt m target q' → q' <+: q) :
    (b.modifyAt q (labelled label)).NearestAt m target a q := by
  refine ⟨hqa, (carriesAt_labelled_iff hB hl).mpr (.inl ⟨rfl, hname⟩), ?_⟩
  intro q' hq' hcarries
  rcases (carriesAt_labelled_iff hB hl).mp hcarries with ⟨rfl, _⟩ | hcarries
  · exact List.prefix_refl q'
  · exact hout q' hq' hcarries

/-- The block that was the first is it still, if the new label is further out or not on the way, or
is not the name. -/
theorem NearestAt.labelled (h : b.NearestAt m target a q') (hB : b.at? q = some B)
    (hl : B.label = none) (hout : q <+: a → m.accepts label target = true → q <+: q') :
    (b.modifyAt q (Block.labelled label)).NearestAt m target a q' := by
  refine ⟨h.encloses, (carriesAt_labelled_iff hB hl).mpr (.inr h.carries), ?_⟩
  intro q'' hq'' hcarries
  rcases (carriesAt_labelled_iff hB hl).mp hcarries with ⟨rfl, hname⟩ | hcarries
  · exact hout hq'' hname
  · exact h.first q'' hq'' hcarries

/-! ### What a reference holds before and after -/

/-- A resolution is the number of the first block, or there is none. -/
theorem ResolvesAt.cases (h : b.ResolvesAt m target a res) :
    (∃ q', b.NearestAt m target a q' ∧ res = .resolved ⟨b.numberAt q'⟩) ∨
      res = .notFound ∧ ∀ q', q' <+: a → ¬ b.CarriesAt m target q' := by
  cases res with
  | unresolved => exact absurd h.isSettled (by decide)
  | notFound => exact .inr ⟨rfl, h.notFound_iff.mp rfl⟩
  | resolved id =>
    obtain ⟨q', hnear, hid⟩ := (h.resolved_iff id).mp rfl
    exact .inl ⟨q', hnear, congrArg _ hid⟩

/-- The first block has the number that the resolution holds, and no other block has it. -/
theorem NearestAt.eq_of_resolved (h : b.NearestAt m target a q') (hq : (b.at? q).isSome)
    (hnumber : Resolution.resolved ⟨b.numberAt q'⟩ = .resolved ⟨b.numberAt q⟩) : q' = q := by
  obtain ⟨c, _, hc, _⟩ := h.carries
  injection hnumber with hnumber
  injection hnumber with hnumber
  exact numberAt_injective (Option.isSome_of_eq_some hc) hq hnumber

section

variable (hB : b.at? q = some B) (hl : B.label = none) (hres : b.ResolvesAt m target a res)

include hB hl hres

/-- A captured reference names the block with the new label. -/
theorem Captures.resolvesAt (h : b.Captures m label target q a res) :
    (b.modifyAt q (labelled label)).ResolvesAt m target a (.resolved ⟨b.numberAt q⟩) := by
  have hq := Option.isSome_of_eq_some hB
  have hnear : (b.modifyAt q (labelled label)).NearestAt m target a q := by
    refine nearestAt_labelled_self hB hl h.inside h.named ?_
    intro q'' hq'' hcarries
    rcases h.shadowed with hnone | ⟨q', hq', _, hout⟩
    · exact absurd hcarries (hres.notFound_iff.mp hnone q'' hq'')
    · -- What was found is further out than the block, and every other carrier further out still.
      obtain ⟨q₁, hfirst, hnumber⟩ := (hres.resolved_iff _).mp hout
      have hat := isSome_at?_of_prefix hq hq'
      have heq := hfirst.eq_of_resolved hat (congrArg _ hnumber.symm)
      subst heq
      exact (hfirst.first q'' hq'' hcarries).trans hq'
  have hnumber := numberAt_modifyAt (statements_labelled label) hq q
  rw [← hnumber]
  exact hnear.resolvesAt

/-- A reference that is not captured holds what it held. -/
theorem Stays.resolvesAt (h : b.Stays m label target q a res) :
    (b.modifyAt q (labelled label)).ResolvesAt m target a res := by
  have hnumber := numberAt_modifyAt (statements_labelled label)
    (Option.isSome_of_eq_some hB)
  rcases hres.cases with ⟨q', hnear, rfl⟩ | ⟨rfl, hnone⟩
  · -- The block that was found is further in than the label, where the label matters at all.
    have hout : q <+: a → m.accepts label target = true → q <+: q' := by
      intro hqa hname
      cases h with
      | outside h => exact absurd hqa h
      | unnamed h => exact absurd hname h
      | nested hat hinside hne hheld => rwa [hnear.eq_of_resolved hat hheld]
    have hafter := (hnear.labelled hB hl hout).resolvesAt
    rwa [hnumber] at hafter
  · refine resolvesAt_notFound ?_
    intro q' hq' hcarries
    rcases (carriesAt_labelled_iff hB hl).mp hcarries with ⟨rfl, hname⟩ | hcarries
    · cases h with
      | outside h => exact h hq'
      | unnamed h => exact absurd hname h
      | nested hat hinside hne hheld => cases hheld
    · exact hnone q' hq' hcarries

/-- Every reference that is not captured stays, for one of the reasons. -/
theorem stays_of_not_captures (hnot : ¬ b.Captures m label target q a res) :
    b.Stays m label target q a res := by
  by_cases hqa : q <+: a
  · by_cases hname : m.accepts label target = true
    · rcases hres.cases with ⟨q', hnear, rfl⟩ | ⟨rfl, _⟩
      · -- Of two blocks on the way one is around the other, and the unlabelled was not found.
        have hne : q' ≠ q := by
          rintro rfl
          exact not_carriesAt_of_unlabelled hB hl hnear.carries
        rcases List.prefix_or_prefix_of_prefix hqa hnear.encloses with hin | hout
        · obtain ⟨c, _, hc, _⟩ := hnear.carries
          exact .nested (Option.isSome_of_eq_some hc) hin hne rfl
        · exact absurd ⟨hqa, hname, .inr ⟨q', hout, hne, rfl⟩⟩ hnot
      · exact absurd ⟨hqa, hname, .inl rfl⟩ hnot
    · exact .unnamed hname
  · exact .outside hqa

end

/-- No reference that stays is captured. -/
theorem Stays.not_captures (hq : (b.at? q).isSome) (h : b.Stays m label target q a res) :
    ¬ b.Captures m label target q a res := by
  intro hcaptures
  cases h with
  | outside h => exact h hcaptures.inside
  | unnamed h => exact h hcaptures.named
  | nested hat hinside hne hheld =>
    rcases hcaptures.shadowed with hnone | ⟨q₁, hq₁, _, hheld₁⟩
    · rw [hnone] at hheld
      cases hheld
    · -- One block cannot be both around the other block and inside it.
      rw [hheld₁] at hheld
      injection hheld with hheld
      injection hheld with hnumber
      have hat₁ := isSome_at?_of_prefix hq hq₁
      have heq := numberAt_injective hat₁ hat hnumber
      subst heq
      exact hne (hq₁.eq_of_length_le hinside.length_le)

/-- What a reference at one place has to hold is one resolution. -/
theorem ResolvesAt.eq_of_resolvesAt {res' : Resolution} (h : b.ResolvesAt m target a res)
    (h' : b.ResolvesAt m target a res') : res' = res := by
  rcases h.cases with ⟨q, hq, rfl⟩ | ⟨rfl, hnone⟩
  · exact (h'.resolved_iff _).mpr ⟨q, hq, rfl⟩
  · exact h'.notFound_iff.mpr hnone

end Block

namespace Procedure

/-- **Label capture is shadowing.** The block `B` at the address `q` has no label and is given one.
Every transfer stays where it is. A reference that the label captures holds the number of the block
after that, and every other reference what it held before: those outside the block, those to another
name, and those that were found in a block inside it. -/
theorem validate_withLabel (p : Procedure) (c : Config) (stamp stamp' : Stamp) {q : Address}
    {B : Block} (hB : p.body.at? q = some B) (hl : B.label = none) (label : Identifier) :
    ∃ v w, p.validate c stamp = .ok v ∧ (p.withLabel q label).validate c stamp' = .ok w ∧
      ∀ a i kind r, p.body.statement? a i = some (.transfer kind r) →
        ∃ res res',
          v.procedure.body.statement? a i = some (.transfer kind { r with resolution := res }) ∧
          w.procedure.body.statement? a i = some (.transfer kind { r with resolution := res' }) ∧
          p.body.Shadowing c.matcher label r.target q a res res' := by
  refine ⟨_, _, p.validate_eq c stamp, (p.withLabel q label).validate_eq c stamp', ?_⟩
  intro a i kind r h
  have hres := Block.resolvesAt_lexicalOutcome c.matcher r.target p.body a
  have hres' := Block.resolvesAt_lexicalOutcome c.matcher r.target (p.withLabel q label).body a
  have h' : (p.withLabel q label).body.statement? a i = some (.transfer kind r) :=
    Block.statement?_modifyAt (Block.statements_labelled label) (Option.isSome_of_eq_some hB) h
  refine ⟨_, _, Block.statement?_settled h, Block.statement?_settled h', ?_, ?_, ?_⟩
  · intro hcaptures
    exact (hcaptures.resolvesAt hB hl hres).eq_of_resolvesAt hres'
  · intro hstays
    exact (hstays.resolvesAt hB hl hres).eq_of_resolvesAt hres'
  · constructor
    · exact Block.stays_of_not_captures hB hl hres
    · exact Block.Stays.not_captures (Option.isSome_of_eq_some hB)

/-- A loop without a label, from which a loop `l` is left. -/
def unnamedLoop : Block :=
  ⟨{ kind := .loop }, .transfer .leave { target := .regular "l" } .nil⟩

/-- The loop `l` around the other loop. -/
def leftOutside : Procedure where
  name := "leftOutside"
  body := ⟨{ kind := .loop, label := some (.regular "l") }, .ofList [.block unnamedLoop]⟩

/-- The theorem at the inner loop, which is given the label of the outer one. -/
theorem validate_withLabel_unnamedLoop :
    leftOutside.body.at? [0] = some unnamedLoop ∧ unnamedLoop.label = none ∧
      ∃ v w, leftOutside.validate {} 0 = .ok v ∧
        (leftOutside.withLabel [0] (.regular "L")).validate {} 1 = .ok w ∧
        ∀ a i kind r, leftOutside.body.statement? a i = some (.transfer kind r) →
          ∃ res res',
            v.procedure.body.statement? a i = some (.transfer kind { r with resolution := res }) ∧
            w.procedure.body.statement? a i = some (.transfer kind { r with resolution := res' }) ∧
            leftOutside.body.Shadowing .caseInsensitive (.regular "L") r.target [0] a res res' := by
  have hB : leftOutside.body.at? [0] = some unnamedLoop := rfl
  have hl : unnamedLoop.label = none := rfl
  exact ⟨hB, hl, validate_withLabel leftOutside {} 0 1 hB hl (.regular "L")⟩

end Procedure

end LabelCheck
