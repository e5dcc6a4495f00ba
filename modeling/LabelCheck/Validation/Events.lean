import LabelCheck.Validation.Lexical

/-!
# What the walk comes to

The blocks that the walk of a validation enters and the transfers that it visits, one after the
other. The list is made along the steps of the walk itself, with the numbers and the state that
the walk has at hand, and it ends where a step meets a fault. It says what a validation does on its
way, whatever comes of it.

* `Walk.Event`: an entry or a visit;
* `Walk.events`, `Procedure.events`: those of a sequence and those of a validation;
* `Walk.exists_visited_of_error`: a fault of the walk is the fault of a visit in the list;
* `Walk.events_transfer`, `Walk.events_block`: one step of the list, from the invariant of the walk
  to the invariant of the walk;
* `Procedure.entries_eq_blocks`, `Procedure.visits_eq_transfers`: a validation enters the blocks of
  the body in the order and under the numbers of their listing, and visits every transfer once.
-/

namespace LabelCheck

namespace Walk

/-- A visit to a transfer. -/
structure Visit where
  /-- The block that directly holds the transfer. -/
  container : BlockId
  kind : TransferKind
  reference : LabelReference
  /-- What the walk has gathered when it comes to the transfer. -/
  state : State

/-- The transfer of a visit, as a body lists it. -/
def Visit.listed (v : Visit) : TransferKind × LabelReference := (v.kind, v.reference)

/-- What the walk comes to. -/
inductive Event where
  /-- A block is entered and takes a number. -/
  | entered (id : BlockId) (block : Block)
  | visited (visit : Visit)

namespace Event

/-- The block that is entered, with its number. -/
def entered? : Event → Option (BlockId × Block)
  | entered id block => some (id, block)
  | visited _ => none

/-- The visit to a transfer. -/
def visited? : Event → Option Visit
  | entered _ _ => none
  | visited v => some v

@[simp] theorem entered?_entered (id : BlockId) (b : Block) :
    (entered id b).entered? = some (id, b) := rfl

@[simp] theorem entered?_visited (v : Visit) : (visited v).entered? = none := rfl

@[simp] theorem visited?_entered (id : BlockId) (b : Block) : (entered id b).visited? = none := rfl

@[simp] theorem visited?_visited (v : Visit) : (visited v).visited? = some v := rfl

end Event

/-- What comes after a step. Nothing does if it meets a fault. -/
def after {α : Type} (step : Except Fault (α × State)) (next : α → State → List Event) :
    List Event :=
  match step with
  | .ok (a, st) => next a st
  | .error _ => []

/-- What the walk over the statements directly in the block `container` comes to. -/
def events (w : Setting) (container : BlockId) : Statements → State → List Event
  | .nil, _ => []
  | .sql _ _ rest, st => events w container rest st
  | .transfer kind r rest, st =>
    .visited ⟨container, kind, r, st⟩ ::
      after ((transfer w container kind r).run st) fun _ st => events w container rest st
  | .block header inner rest, st =>
    after ((enter w header).run st) fun id st =>
      .entered id ⟨header, inner⟩ :: events w id inner st ++
        after ((statements w id inner).run st) fun _ st =>
          after ((leave w header).run st) fun _ st => events w container rest st

/-- What the walk over a whole body comes to. -/
def bodyEvents (w : Setting) (b : Block) (st : State) : List Event :=
  after ((enter w b.header).run st) fun id st => .entered id b :: events w id b.statements st

/-! ### Faults -/

section Faults

variable {w : Setting}

theorem exists_run_enter (header : Header) (st : State) :
    ∃ st', (enter w header).run st = .ok (⟨st.nextBlock⟩, st') :=
  ⟨_, run_enter header st⟩

theorem exists_run_leave (header : Header) (st : State) :
    ∃ st', (leave w header).run st = .ok ((), st') := by
  have hm : ∃ c : Config, w.matcher = c.matcher := by
    cases hw : w.matcher with
    | caseSensitive => exact ⟨{ caseSensitive := some true }, rfl⟩
    | caseInsensitive => exact ⟨{ caseSensitive := some false }, rfl⟩
  obtain ⟨c, hm⟩ := hm
  exact ⟨_, run_leave hm header st⟩

/-- **A fault of the walk is the fault of a visit.** Blocks are entered and left without faults. -/
theorem exists_visited_of_error {s : Statements} {container : BlockId} {st : State} {f : Fault}
    (h : (statements w container s).run st = .error f) :
    ∃ v, .visited v ∈ events w container s st ∧
      (transfer w v.container v.kind v.reference).run v.state = .error f := by
  induction s generalizing container st with
  | nil => cases h
  | sql text span rest ih =>
    cases hrest : (statements w container rest).run st with
    | error f' =>
      simp only [statements, StateT.run_bind, hrest] at h
      cases h
      exact ih hrest
    | ok result =>
      simp only [statements, StateT.run_bind, hrest] at h
      cases h
  | transfer kind r rest ih =>
    cases hstep : (transfer w container kind r).run st with
    | error f' =>
      simp only [statements, StateT.run_bind, hstep] at h
      cases h
      exact ⟨⟨container, kind, r, st⟩, List.mem_cons_self, hstep⟩
    | ok result =>
      obtain ⟨r', st'⟩ := result
      cases hrest : (statements w container rest).run st' with
      | ok result =>
        simp only [statements, StateT.run_bind, hstep, ok_bind, hrest] at h
        cases h
      | error f' =>
        simp only [statements, StateT.run_bind, hstep, ok_bind, hrest] at h
        cases h
        obtain ⟨v, hmem, hv⟩ := ih hrest
        refine ⟨v, List.mem_cons_of_mem _ ?_, hv⟩
        rw [hstep]
        exact hmem
  | block header inner rest ihInner ihRest =>
    obtain ⟨st₁, henter⟩ := exists_run_enter (w := w) header st
    have hevents : events w container (.block header inner rest) st =
        .entered ⟨st.nextBlock⟩ ⟨header, inner⟩ :: events w ⟨st.nextBlock⟩ inner st₁ ++
          after ((statements w ⟨st.nextBlock⟩ inner).run st₁) fun _ st =>
            after ((leave w header).run st) fun _ st => events w container rest st := by
      rw [events, henter]
      rfl
    rw [hevents]
    -- The fault is met inside the block or behind it.
    cases hinner : (statements w ⟨st.nextBlock⟩ inner).run st₁ with
    | error f' =>
      simp only [statements, StateT.run_bind, henter, ok_bind, hinner] at h
      cases h
      obtain ⟨v, hmem, hv⟩ := ihInner hinner
      exact ⟨v, List.mem_append_left _ (List.mem_cons_of_mem _ hmem), hv⟩
    | ok result =>
      obtain ⟨inner', st₂⟩ := result
      obtain ⟨st₃, hleave⟩ := exists_run_leave (w := w) header st₂
      cases hrest : (statements w container rest).run st₃ with
      | ok result =>
        simp only [statements, StateT.run_bind, henter, ok_bind, hinner, hleave, hrest] at h
        cases h
      | error f' =>
        simp only [statements, StateT.run_bind, henter, ok_bind, hinner, hleave, hrest] at h
        cases h
        obtain ⟨v, hmem, hv⟩ := ihRest hrest
        refine ⟨v, List.mem_append_right _ ?_, hv⟩
        simp only [after, hleave]
        exact hmem

end Faults

/-! ### The list under the invariant of the walk -/

section Steps

variable {w : Setting} {c : Config} {index : Nat} {around : List (BlockId × Header)}
  {rest inner : Statements} {header : Header}

/-- A transfer is visited, and then the walk goes on under the invariant with the same number of
blocks. -/
theorem events_transfer (hm : w.matcher = c.matcher) (hp : w.policy = c.policy)
    {kind : TransferKind} {r : LabelReference} {st : State}
    (h : w.Fits index around st.nextBlock (.transfer kind r rest)) :
    ∃ st', st'.nextBlock = st.nextBlock ∧ w.Fits index around st'.nextBlock rest ∧
      events w ⟨index⟩ (.transfer kind r rest) st =
        .visited ⟨⟨index⟩, kind, r, st⟩ :: events w ⟨index⟩ rest st' := by
  let st' := st.told (transferDiagnostics c w.sourceId (around.map Prod.snd) kind r)
  refine ⟨st', rfl, h.transfer, ?_⟩
  rw [events, run_transfer hm hp h.leads h.facts_around kind h.fresh.1 st]
  rfl

/-- A block is entered under the next number. Then comes what is inside it, and then, with all the
blocks inside counted, the rest, both under the invariant. -/
theorem events_block (hm : w.matcher = c.matcher) (hp : w.policy = c.policy) {st : State}
    (h : w.Fits index around st.nextBlock (.block header inner rest)) :
    ∃ st₁ st₂, st₁.nextBlock = st.nextBlock + 1 ∧
      st₂.nextBlock = st.nextBlock + 1 + inner.blockCount ∧
      w.Fits st.nextBlock ((⟨st.nextBlock⟩, header) :: around) st₁.nextBlock inner ∧
      w.Fits index around st₂.nextBlock rest ∧
      events w ⟨index⟩ (.block header inner rest) st =
        .entered ⟨st.nextBlock⟩ ⟨header, inner⟩ ::
          (events w ⟨st.nextBlock⟩ inner st₁ ++ events w ⟨index⟩ rest st₂) := by
  let st₁ := { st with nextBlock := st.nextBlock + 1 }.told (header.labelDiagnostics w.sourceId)
  let st₂ := { st₁ with nextBlock := st₁.nextBlock + inner.blockCount }.told
    (inner.lexicalDiagnostics c w.sourceId (header :: around.map Prod.snd))
  let st₃ := st₂.told (header.endLabelDiagnostics c.matcher w.sourceId)
  have henter : (enter w header).run st = .ok (⟨st.nextBlock⟩, st₁) := run_enter header st
  have hinner : (statements w ⟨st.nextBlock⟩ inner).run st₁ = .ok (_, st₂) :=
    run_statements hm hp inner st₁ h.inside
  have hleave : (leave w header).run st₂ = .ok ((), st₃) := run_leave hm header st₂
  refine ⟨st₁, st₃, rfl, rfl, h.inside, h.behind, ?_⟩
  rw [events, henter]
  simp only [after, hinner, hleave]
  rfl

/-- The blocks that are entered are those of the listing, in its order and under its numbers. -/
theorem entries_events (hm : w.matcher = c.matcher) (hp : w.policy = c.policy) {s : Statements}
    {st : State} (h : w.Fits index around st.nextBlock s) :
    (events w ⟨index⟩ s st).filterMap Event.entered? = s.numbered st.nextBlock := by
  induction s generalizing index around st with
  | nil => rfl
  | sql text span rest ih => exact ih h.sql
  | transfer kind r rest ih =>
    obtain ⟨st', hnext, hrest, hevents⟩ := events_transfer hm hp h
    rw [hevents, List.filterMap_cons_none (Event.entered?_visited _), ih hrest, hnext]
    rfl
  | block header inner rest ihInner ihRest =>
    obtain ⟨st₁, st₂, hnext₁, hnext₂, hinner, hrest, hevents⟩ := events_block hm hp h
    rw [hevents, List.filterMap_cons_some (Event.entered?_entered _ _), List.filterMap_append,
      ihInner hinner, ihRest hrest, hnext₁, hnext₂]
    rfl

/-- The transfers that are visited are those of the sequence, in source order. -/
theorem visits_events (hm : w.matcher = c.matcher) (hp : w.policy = c.policy) {s : Statements}
    {st : State} (h : w.Fits index around st.nextBlock s) :
    ((events w ⟨index⟩ s st).filterMap Event.visited?).map Visit.listed = s.transfers := by
  induction s generalizing index around st with
  | nil => rfl
  | sql text span rest ih => exact ih h.sql
  | transfer kind r rest ih =>
    obtain ⟨st', _, hrest, hevents⟩ := events_transfer hm hp h
    rw [hevents, List.filterMap_cons_some (Event.visited?_visited _), List.map_cons, ih hrest]
    rfl
  | block header inner rest ihInner ihRest =>
    obtain ⟨st₁, st₂, _, _, hinner, hrest, hevents⟩ := events_block hm hp h
    rw [hevents, List.filterMap_cons_none (Event.visited?_entered _ _), List.filterMap_append,
      List.map_append, ihInner hinner, ihRest hrest]
    rfl

/-- **What holds of every visit.** A property that a visit has wherever the invariant holds is one
of all visits. -/
theorem forall_visited_mem_events (hm : w.matcher = c.matcher) (hp : w.policy = c.policy)
    {P : Visit → Prop}
    (hvisit : ∀ {index : Nat} {around : List (BlockId × Header)} {kind : TransferKind}
      {r : LabelReference} {rest : Statements} {st : State},
      w.Fits index around st.nextBlock (.transfer kind r rest) → P ⟨⟨index⟩, kind, r, st⟩)
    {s : Statements} {st : State} (h : w.Fits index around st.nextBlock s) {v : Visit}
    (hv : .visited v ∈ events w ⟨index⟩ s st) : P v := by
  induction s generalizing index around st with
  | nil => cases hv
  | sql text span rest ih => exact ih h.sql hv
  | transfer kind r rest ih =>
    obtain ⟨st', _, hrest, hevents⟩ := events_transfer hm hp h
    rw [hevents] at hv
    rcases List.mem_cons.mp hv with heq | hv
    · cases heq
      exact hvisit h
    · exact ih hrest hv
  | block header inner rest ihInner ihRest =>
    obtain ⟨st₁, st₂, _, _, hinner, hrest, hevents⟩ := events_block hm hp h
    rw [hevents] at hv
    rcases List.mem_cons.mp hv with heq | hv
    · cases heq
    · rcases List.mem_append.mp hv with hv | hv
      · exact ihInner hinner hv
      · exact ihRest hrest hv

end Steps

end Walk

/-! ### The list of a validation -/

namespace Procedure

open Walk

variable (p : Procedure) (c : Config) (stamp : Stamp)

/-- What a validation comes to, with a scope tree under the given stamp. -/
def events : List Event :=
  bodyEvents (p.resetResolutions.walkSetting c stamp) p.resetResolutions.body {}

/-- The visits of a validation. -/
def visits : List Visit := (p.events c stamp).filterMap Event.visited?

/-- A fault of a validation is the fault of a visit. -/
theorem exists_visit_of_validate_eq_error {f : Fault} (h : p.validate c stamp = .error f) :
    ∃ v ∈ p.visits c stamp, (transfer (p.resetResolutions.walkSetting c stamp) v.container v.kind
      v.reference).run v.state = .error f := by
  let w := p.resetResolutions.walkSetting c stamp
  let b := p.resetResolutions.body
  obtain ⟨st₁, henter⟩ := exists_run_enter (w := w) b.header {}
  cases hinner : (statements w ⟨0⟩ b.statements).run st₁ with
  | ok result =>
    obtain ⟨inner, st₂⟩ := result
    obtain ⟨st₃, hleave⟩ := exists_run_leave (w := w) b.header st₂
    have hbody : (Walk.body w b).run {} = .ok ({ b with statements := inner }, st₃) := by
      simp only [Walk.body, StateT.run_bind, henter, ok_bind, hinner, hleave]
      rfl
    simp only [validate] at h
    rw [hbody] at h
    cases h
  | error f' =>
    have hbody : (Walk.body w b).run {} = .error f' := by
      simp only [Walk.body, StateT.run_bind, henter, ok_bind, hinner]
      rfl
    simp only [validate] at h
    rw [hbody] at h
    cases h
    obtain ⟨v, hmem, hv⟩ := exists_visited_of_error hinner
    refine ⟨v, List.mem_filterMap.mpr ⟨.visited v, ?_, rfl⟩, hv⟩
    rw [events, bodyEvents, henter]
    exact List.mem_cons_of_mem _ hmem

/-- The outermost block is entered first, under the number 0. Then comes what is inside it, under
the invariant of the walk. -/
theorem events_eq : ∃ st, st.nextBlock = 1 ∧
    (p.resetResolutions.walkSetting c stamp).Fits 0 [(.root, p.body.header)] st.nextBlock
      p.body.statements.reset ∧
    p.events c stamp = .entered .root p.resetResolutions.body ::
      Walk.events (p.resetResolutions.walkSetting c stamp) ⟨0⟩ p.body.statements.reset st := by
  let st : State := { ({} : State) with nextBlock := 1 }.told
    (p.body.header.labelDiagnostics p.sourceId)
  refine ⟨st, rfl, p.fits_walkSetting c stamp, ?_⟩
  have henter : (enter (p.resetResolutions.walkSetting c stamp) p.resetResolutions.body.header).run
      {} = .ok (.root, st) := run_enter _ _
  rw [events, bodyEvents, henter]
  rfl

/-- **A validation enters the blocks of the body as they are listed,** in this order and under
these numbers. -/
theorem entries_eq_blocks :
    (p.events c stamp).filterMap Event.entered? = p.resetResolutions.body.blocks := by
  obtain ⟨st, hnext, h, hevents⟩ := p.events_eq c stamp
  rw [hevents, List.filterMap_cons_some (Event.entered?_entered _ _), entries_events rfl rfl h,
    hnext, Block.blocks_eq_numbered]
  rfl

/-- **A validation visits every transfer once,** in source order and before anything is known of
it. -/
theorem visits_eq_transfers :
    (p.visits c stamp).map Visit.listed = p.resetResolutions.transfers := by
  obtain ⟨st, _, h, hevents⟩ := p.events_eq c stamp
  rw [visits, hevents, List.filterMap_cons_none (Event.visited?_entered _ _),
    visits_events rfl rfl h]
  rfl

/-- What holds of a visit wherever the invariant of the walk holds is one of all visits of a
validation. -/
theorem forall_mem_visits {P : Visit → Prop}
    (hvisit : ∀ {index : Nat} {around : List (BlockId × Header)} {kind : TransferKind}
      {r : LabelReference} {rest : Statements} {st : State},
      (p.resetResolutions.walkSetting c stamp).Fits index around st.nextBlock
        (.transfer kind r rest) → P ⟨⟨index⟩, kind, r, st⟩) :
    ∀ v ∈ p.visits c stamp, P v := by
  intro v hv
  obtain ⟨st, _, h, hevents⟩ := p.events_eq c stamp
  obtain ⟨event, hmem, hevent⟩ := List.mem_filterMap.mp hv
  rw [hevents] at hmem
  rcases List.mem_cons.mp hmem with rfl | hmem
  · cases hevent
  · cases event with
    | entered id b => cases hevent
    | visited v' =>
      cases hevent
      exact forall_visited_mem_events rfl rfl hvisit h hmem

end Procedure

end LabelCheck
