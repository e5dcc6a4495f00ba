import LabelCheck.Proofs.Diagnostics
import Mathlib.Data.List.Pairwise

/-!
# Diagnostics come in source order

The places of a body may say anything. Where they are those of a text, though, in which every block
stands around its statements and every statement behind the ones before it, the diagnostics of a
validation come in the order of the text. A diagnostic counts as standing where its place begins,
except for one of a label behind a block, which stands where the block ends.

* `Statements.StandsIn`, `Block.WellPlaced`, `Procedure.WellPlaced`: bodies whose places are those
  of a text;
* `Diagnostic.anchor?`: the position at which a diagnostic counts as standing;
* `StandBetween`: diagnostics that come in order, between two positions;
* `Procedure.validate_wellPlaced`: the diagnostics of a validation come in order.

A block is reported on before and behind what is inside it, each time with the place of the block.
That this is in order rests on bounds: what is reported inside a block stands between its two ends.
The induction over a sequence therefore carries the stretch of text in which the sequence stands,
which is cut off at the end of each statement that has been gone over.
-/

namespace LabelCheck

/-! ### Places of a text -/

/-- The places of the blocks and transfers of one level, as far as they are known. Where an SQL
statement stands does not matter. -/
def Statements.places : Statements → List (Option Span)
  | nil => []
  | sql _ _ rest => rest.places
  | transfer _ r rest => r.span :: rest.places
  | block header _ rest => header.span :: rest.places

/-- The blocks and transfers of one level stand inside `outer`, one behind the other. -/
structure Statements.StandsIn (outer : Span) (s : Statements) : Prop where
  inside : ∀ place ∈ s.places, ∃ span ∈ place, span.Ordered ∧ outer.Contains span
  /-- Of two of them the earlier ends no later than the later starts. -/
  apart : s.places.Pairwise fun earlier later =>
    ∀ span ∈ earlier, ∀ span' ∈ later, span.stop ≤ span'.start

instance (outer : Span) (s : Statements) : Decidable (s.StandsIn outer) :=
  decidable_of_iff (_ ∧ _) ⟨fun h => ⟨h.1, h.2⟩, fun h => ⟨h.inside, h.apart⟩⟩

/-- The place of the block is known, and the statements of the block stand inside it. -/
def Block.WellPlaced (b : Block) : Prop :=
  ∃ span ∈ b.header.span, span.Ordered ∧ b.statements.StandsIn span

instance (b : Block) : Decidable b.WellPlaced :=
  inferInstanceAs (Decidable (∃ span ∈ b.header.span, span.Ordered ∧ b.statements.StandsIn span))

/-- **A procedure whose places are those of a text:** this holds of every block of its body, at any
depth. -/
def Procedure.WellPlaced (p : Procedure) : Prop := ∀ entry ∈ p.body.blocks, entry.2.WellPlaced

namespace Statements.StandsIn

/-- The rest of a sequence stands in the stretch behind the first statement. -/
theorem rest_of_places {outer : Span} {s rest : Statements} {place : Option Span}
    (h : s.StandsIn outer) (hs : s.places = place :: rest.places) :
    ∃ span ∈ place, span.Ordered ∧ outer.Contains span ∧
      rest.StandsIn { outer with start := span.stop } := by
  obtain ⟨hinside, hapart⟩ := h
  rw [hs] at hinside hapart
  obtain ⟨span, hspan, hordered, hcontains⟩ := hinside place List.mem_cons_self
  obtain ⟨hfirst, hrest⟩ := List.pairwise_cons.mp hapart
  refine ⟨span, hspan, hordered, hcontains, ?_, hrest⟩
  intro later hlater
  obtain ⟨span', hspan', hordered', hcontains'⟩ := hinside later (List.mem_cons_of_mem _ hlater)
  -- A later statement starts no earlier than the first one ends, and ends inside as before.
  have hbehind : span.stop ≤ span'.start := hfirst later hlater span hspan span' hspan'
  exact ⟨span', hspan', hordered', hbehind, hcontains'.2⟩

end Statements.StandsIn

/-! ### Where a diagnostic stands -/

/-- **The anchor of a diagnostic.** The label behind a block closes it, so that a diagnostic of it
stands where the block ends. Every other diagnostic stands where its place begins. -/
def Diagnostic.anchor? (d : Diagnostic) : Option Nat :=
  match d.problem with
  | .labelMismatch .. => d.span.map Span.stop
  | .unresolvedLabel .. | .iterateTargetNotIteration .. | .labelNotAllowed .. =>
    d.span.map Span.start

/-- Every diagnostic has an anchor, the anchors do not decrease, and they lie between the positions
`low` and `high`. -/
def StandBetween (low high : Nat) (ds : List Diagnostic) : Prop :=
  ∃ anchors : List Nat, ds.map Diagnostic.anchor? = anchors.map some ∧
    anchors.Pairwise (· ≤ ·) ∧ ∀ anchor ∈ anchors, low ≤ anchor ∧ anchor ≤ high

namespace StandBetween

variable {low middle high position : Nat} {ds es : List Diagnostic}

theorem nil (low high : Nat) : StandBetween low high [] := ⟨[], rfl, .nil, by simp⟩

/-- What stands between two positions stands between two that are further apart. -/
theorem widen {low' high' : Nat} (h : StandBetween low high ds) (hlow : low' ≤ low)
    (hhigh : high ≤ high') : StandBetween low' high' ds := by
  obtain ⟨anchors, hds, hsorted, hbounds⟩ := h
  refine ⟨anchors, hds, hsorted, ?_⟩
  intro anchor hanchor
  obtain ⟨hge, hle⟩ := hbounds anchor hanchor
  exact ⟨Nat.le_trans hlow hge, Nat.le_trans hle hhigh⟩

/-- Diagnostics with one anchor stand at it. -/
theorem of_forall (h : ∀ d ∈ ds, d.anchor? = some position) (hlow : low ≤ position)
    (hhigh : position ≤ high) : StandBetween low high ds := by
  -- The anchors are one position, repeated.
  refine ⟨List.replicate ds.length position, ?_, ?_, ?_⟩
  · rw [List.map_replicate]
    exact List.map_eq_replicate_iff.mpr h
  · exact List.pairwise_replicate.mpr (.inr (Nat.le_refl position))
  · intro anchor hanchor
    rw [List.eq_of_mem_replicate hanchor]
    exact ⟨hlow, hhigh⟩

/-- Diagnostics up to a position and others from there on stand in order. -/
theorem append (h : StandBetween low middle ds) (h' : StandBetween middle high es)
    (hlow : low ≤ middle) (hhigh : middle ≤ high) : StandBetween low high (ds ++ es) := by
  obtain ⟨anchors, hds, hsorted, hbounds⟩ := h
  obtain ⟨anchors', hes, hsorted', hbounds'⟩ := h'
  refine ⟨anchors ++ anchors', ?_, ?_, ?_⟩
  · rw [List.map_append, List.map_append, hds, hes]
  · -- Whatever comes first stands no later than the middle, and the others no earlier.
    refine List.pairwise_append.mpr ⟨hsorted, hsorted', ?_⟩
    intro anchor hanchor anchor' hanchor'
    exact Nat.le_trans (hbounds anchor hanchor).2 (hbounds' anchor' hanchor').1
  · intro anchor hanchor
    rcases List.mem_append.mp hanchor with hanchor | hanchor
    · obtain ⟨hge, hle⟩ := hbounds anchor hanchor
      exact ⟨hge, Nat.le_trans hle hhigh⟩
    · obtain ⟨hge, hle⟩ := hbounds' anchor hanchor
      exact ⟨Nat.le_trans hlow hge, hle⟩

end StandBetween

/-! ### Where the pieces of the reference stand -/

section

variable {c : Config} {m : NameMatcher} {sourceId : Nat} {span : Span}

/-- What is wrong with the label before a block stands where the block begins. -/
theorem Header.anchor?_of_mem_labelDiagnostics {h : Header} (hspan : h.span = some span)
    {d : Diagnostic} (hd : d ∈ h.labelDiagnostics sourceId) : d.anchor? = some span.start := by
  obtain ⟨label, _, _, rfl⟩ := mem_labelDiagnostics_iff.mp hd
  rw [hspan]
  rfl

/-- What is wrong with the label behind a block stands where the block ends. -/
theorem Header.anchor?_of_mem_endLabelDiagnostics {h : Header} (hspan : h.span = some span)
    {d : Diagnostic} (hd : d ∈ h.endLabelDiagnostics m sourceId) : d.anchor? = some span.stop := by
  obtain ⟨stop, _, _, rfl⟩ := mem_endLabelDiagnostics_iff.mp hd
  rw [hspan]
  rfl

/-- What is wrong with a transfer stands where the transfer begins. If an `ITERATE` names a block
that does not repeat, the place of this block is a related one only. -/
theorem anchor?_of_mem_transferDiagnostics {around : List Header} {kind : TransferKind}
    {r : LabelReference} (hspan : r.span = some span) {d : Diagnostic}
    (hd : d ∈ transferDiagnostics c sourceId around kind r) : d.anchor? = some span.start := by
  rcases mem_transferDiagnostics_iff.mp hd with ⟨_, hd⟩ | ⟨_, _, _, hd⟩
  · obtain ⟨_, rfl⟩ := UnresolvedPolicy.mem_diagnostics_iff.mp hd
    rw [Diagnostic.anchor?]
    exact congrArg (Option.map Span.start) hspan
  · obtain ⟨_, rfl⟩ := Header.mem_iterateDiagnostics_iff.mp hd
    rw [Diagnostic.anchor?]
    exact congrArg (Option.map Span.start) hspan

/-- What is reported before, inside and behind a block stands between the two ends of the block, if
what is reported inside does. -/
theorem StandBetween.block {h : Header} {ds : List Diagnostic} (hspan : h.span = some span)
    (hordered : span.Ordered) (hinside : StandBetween span.start span.stop ds) :
    StandBetween span.start span.stop
      (h.labelDiagnostics sourceId ++ ds ++ h.endLabelDiagnostics m sourceId) := by
  -- The two labels of the block are reported at its two ends.
  have hlabel : StandBetween span.start span.start (h.labelDiagnostics sourceId) :=
    .of_forall (fun _ => Header.anchor?_of_mem_labelDiagnostics hspan) (Nat.le_refl _)
      (Nat.le_refl _)
  have hend : StandBetween span.stop span.stop (h.endLabelDiagnostics m sourceId) :=
    .of_forall (fun _ => Header.anchor?_of_mem_endLabelDiagnostics hspan) (Nat.le_refl _)
      (Nat.le_refl _)
  exact (hlabel.append hinside (Nat.le_refl _) hordered).append hend hordered (Nat.le_refl _)

/-- **What is reported of a sequence stands in the text of the sequence,** in order. -/
theorem Statements.standBetween_lexicalDiagnostics (s : Statements) (outer : Span)
    (houter : outer.Ordered) (hs : s.StandsIn outer) {next : Nat}
    (hblocks : ∀ entry ∈ s.numbered next, entry.2.WellPlaced) (around : List Header) :
    StandBetween outer.start outer.stop (s.lexicalDiagnostics c sourceId around) := by
  -- The stretch `outer` shrinks from the front as the statements are gone over, and is the place of
  -- the block when the way goes inside.
  induction s generalizing outer next around with
  | nil => exact .nil _ _
  | sql text span rest ih => exact ih outer houter ⟨hs.inside, hs.apart⟩ hblocks around
  | transfer kind r rest ih =>
    obtain ⟨span, hspan, hordered, hcontains, hrest⟩ := hs.rest_of_places rfl
    have hhere : StandBetween outer.start span.stop
        (transferDiagnostics c sourceId around kind r) :=
      .of_forall (fun _ => anchor?_of_mem_transferDiagnostics hspan) hcontains.1 hordered
    have hbehind : StandBetween span.stop outer.stop (rest.lexicalDiagnostics c sourceId around) :=
      ih { outer with start := span.stop } hcontains.2 hrest hblocks around
    exact hhere.append hbehind (Nat.le_trans hcontains.1 hordered) hcontains.2
  | block header inner rest ihInner ihRest =>
    obtain ⟨hblock, hblocks⟩ := List.forall_mem_cons.mp hblocks
    obtain ⟨hblocksInner, hblocksRest⟩ := List.forall_mem_append.mp hblocks
    obtain ⟨span, hspan, hordered, hcontains, hrest⟩ := hs.rest_of_places rfl
    -- The place at which the block stands is the one inside which its statements stand.
    obtain ⟨span', hspan', _, hinner⟩ := hblock
    obtain rfl : span = span' := Option.some.inj (hspan.symm.trans hspan')
    have hinside := ihInner span hordered hinner hblocksInner (header :: around)
    have hhere : StandBetween span.start span.stop (header.labelDiagnostics sourceId ++
        inner.lexicalDiagnostics c sourceId (header :: around) ++
        header.endLabelDiagnostics c.matcher sourceId) :=
      hinside.block hspan hordered
    have hbehind : StandBetween span.stop outer.stop (rest.lexicalDiagnostics c sourceId around) :=
      ihRest { outer with start := span.stop } hcontains.2 hrest hblocksRest around
    have hfront := hhere.widen hcontains.1 (Nat.le_refl _)
    exact hfront.append hbehind (Nat.le_trans hcontains.1 hordered) hcontains.2

/-- What is reported of a body stands in its text, in order. -/
theorem Block.exists_standBetween_lexicalDiagnostics (c : Config) (sourceId : Nat) {b : Block}
    (h : ∀ entry ∈ b.blocks, entry.2.WellPlaced) :
    ∃ span ∈ b.header.span,
      StandBetween span.start span.stop (b.lexicalDiagnostics c sourceId) := by
  rw [blocks_eq_numbered] at h
  obtain ⟨⟨span, hspan, hordered, hinner⟩, hblocks⟩ := List.forall_mem_cons.mp h
  have hinside : StandBetween span.start span.stop
      (b.statements.lexicalDiagnostics c sourceId [b.header]) :=
    b.statements.standBetween_lexicalDiagnostics span hordered hinner hblocks [b.header]
  exact ⟨span, hspan, hinside.block hspan hordered⟩

end

/-! ### The order of a validation -/

namespace Procedure

/-- **Diagnostics come in source order.** Where the places of a procedure are those of a text, every
diagnostic of a validation has an anchor, and the anchors do not decrease. -/
theorem validate_wellPlaced (p : Procedure) (h : p.WellPlaced) (c : Config) (stamp : Stamp) :
    ∃ v, p.validate c stamp = .ok v ∧ ∃ anchors : List Nat,
      v.diagnostics.map Diagnostic.anchor? = anchors.map some ∧ anchors.Pairwise (· ≤ ·) := by
  obtain ⟨span, _, hstand⟩ := Block.exists_standBetween_lexicalDiagnostics c p.sourceId h
  obtain ⟨anchors, hanchors, hsorted, _⟩ := hstand
  exact ⟨_, p.validate_eq c stamp, anchors, hanchors, hsorted⟩

/-- An `IF` under a label, with a loop inside that ends as another, and a transfer to nowhere behind
both. -/
def misnamed : Procedure where
  name := "misnamed"
  body :=
    { header :=
        { kind := .beginEnd, endLabel := some (.regular "b"), span := some ⟨0, 90⟩ }
      statements :=
        .block { kind := .ifThen, label := some (.regular "c"), span := some ⟨10, 60⟩ }
          (.block
            { kind := .loop, label := some (.regular "l"), endLabel := some (.regular "m"),
              span := some ⟨20, 50⟩ }
            (.transfer .leave { target := .regular "x", span := some ⟨30, 40⟩ } .nil) .nil)
          (.transfer .iterate { target := .regular "c", span := some ⟨60, 70⟩ } .nil) }

/-- The theorem at a body with a problem before, inside and behind its blocks. -/
theorem validate_wellPlaced_misnamed :
    misnamed.WellPlaced ∧
      ∃ v, misnamed.validate {} 0 = .ok v ∧ ∃ anchors : List Nat,
        v.diagnostics.map Diagnostic.anchor? = anchors.map some ∧ anchors.Pairwise (· ≤ ·) := by
  have h : misnamed.WellPlaced := by
    unfold WellPlaced
    rw [Block.blocks_eq_numbered]
    decide
  exact ⟨h, validate_wellPlaced misnamed h {} 0⟩

end Procedure

end LabelCheck
