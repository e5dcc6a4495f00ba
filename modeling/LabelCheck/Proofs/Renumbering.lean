import LabelCheck.Proofs.Place

/-!
# Validating around a place

Two bodies that differ at one place only have the same blocks elsewhere, under numbers that may
differ. A validation of the one then says of everything outside the place what a validation of the
other says, up to these numbers, whatever is at the place: the diagnostics tell no numbers at all,
and the references are settled by the renumbered blocks.

* `BlockId.shift`: the number of a block when some blocks are put in front of it;
* `NamesAlike`: the condition on the blocks around two places, that each name denotes at the one the
  renumbered block that it denotes at the other;
* `Statements.settledTransfers_renumber`: a sequence that is visited under such blocks, and under
  other numbers;
* `Place.exists_settledTransfers_fill`, `Place.exists_lexicalDiagnostics_fill`: what is said before
  and behind a place.

What stands before a place is visited under the same numbers in both bodies, so the two laws speak
of it through `Place.written`, without the place being filled.
-/

namespace LabelCheck

/-! ### Other numbers for the same blocks -/

namespace BlockId

/-- The number of a block when `k` more blocks begin where the block with the number `n` did. -/
def shift (n k : Nat) (id : BlockId) : BlockId :=
  if id.index < n then id else ⟨id.index + k⟩

variable {n k : Nat} {id : BlockId}

theorem shift_of_lt (h : id.index < n) : id.shift n k = id := if_pos h

theorem shift_of_le (h : n ≤ id.index) : id.shift n k = ⟨id.index + k⟩ :=
  if_neg (Nat.not_lt.mpr h)

end BlockId

/-- Behind some entries of a list others are put in: every entry is found under its new place. -/
theorem getElem?_append_shift {α : Type} (before new behind : List α) (id : BlockId) :
    (before ++ new ++ behind)[(id.shift before.length new.length).index]? =
      (before ++ behind)[id.index]? := by
  by_cases h : id.index < before.length
  · rw [BlockId.shift_of_lt h, List.append_assoc, List.getElem?_append_left h,
      List.getElem?_append_left h]
  · rw [Nat.not_lt] at h
    have hnew : (before ++ new).length ≤ id.index + new.length := by
      rw [List.length_append]
      omega
    rw [BlockId.shift_of_le h, List.getElem?_append_right hnew, List.getElem?_append_right h,
      List.length_append]
    congr 1
    omega

/-- The same resolution under other numbers. -/
def Resolution.renumber (ρ : BlockId → BlockId) : Resolution → Resolution
  | resolved id => resolved (ρ id)
  | unresolved => unresolved
  | notFound => notFound

theorem Resolution.renumber_ofOutcome (ρ : BlockId → BlockId) (outcome : Option BlockId) :
    (ofOutcome outcome).renumber ρ = ofOutcome (outcome.map ρ) := by
  cases outcome <;> rfl

/-- The same transfer with its reference under other numbers. -/
def renumberTransfer (ρ : BlockId → BlockId) (t : TransferKind × LabelReference) :
    TransferKind × LabelReference :=
  (t.1, { t.2 with resolution := t.2.resolution.renumber ρ })

/-! ### Blocks around a place that are named alike -/

/-- **Each name denotes inside the blocks `around'`** the block that it denotes inside `around`,
under the number that `ρ` gives it. -/
def NamesAlike (m : NameMatcher) (ρ : BlockId → BlockId)
    (around around' : List (BlockId × Header)) : Prop :=
  ∀ target, lexicalOutcome m around' target = (lexicalOutcome m around target).map ρ

namespace NamesAlike

variable {m : NameMatcher} {ρ : BlockId → BlockId} {around around' : List (BlockId × Header)}
  {header header' : Header}

/-- Blocks that keep their numbers are named alike. -/
theorem of_fixed (h : ∀ entry ∈ around, ρ entry.1 = entry.1) : NamesAlike m ρ around around := by
  intro target
  rw [lexicalOutcome, Option.map_map]
  refine Option.map_congr fun entry hentry => ?_
  exact (h entry (List.mem_of_find?_eq_some hentry)).symm

/-- Inside two blocks with one label, of which the second has the renumbered number. -/
theorem cons (h : NamesAlike m ρ around around') {id id' : BlockId} (hid : ρ id = id')
    (hlabel : header'.label = header.label) :
    NamesAlike m ρ ((id, header) :: around) ((id', header') :: around') := by
  intro target
  have hcarries : header'.carries m target = header.carries m target := by
    rw [Header.carries, Header.carries, hlabel]
  rw [lexicalOutcome_cons, lexicalOutcome_cons, hcarries, h target]
  cases header.carries m target with
  | true => exact congrArg some hid.symm
  | false => rfl

/-- A block without a label is passed over. -/
theorem unlabelled (h : NamesAlike m ρ around around') (id : BlockId)
    (hlabel : header.label = none) :
    NamesAlike m ρ around ((id, header) :: around') := by
  intro target
  have hcarries : header.carries m target = false := by
    rw [Header.carries, hlabel]
    rfl
  rw [lexicalOutcome_cons, hcarries, ← h target]
  rfl

/-- The label behind a block is no name of it. -/
theorem unended (entry : BlockId × Header) (around : List (BlockId × Header)) :
    NamesAlike m id (entry :: around) ((entry.1, { entry.2 with endLabel := none }) :: around) :=
  (of_fixed fun _ _ => rfl).cons rfl rfl

end NamesAlike

/-- What is wrong with a transfer does not depend on the label behind a block around it. -/
theorem transferDiagnostics_unended (c : Config) (sourceId : Nat) (header : Header)
    (around : List Header) :
    transferDiagnostics c sourceId ({ header with endLabel := none } :: around) =
      transferDiagnostics c sourceId (header :: around) := by
  funext kind r
  rw [transferDiagnostics_cons, transferDiagnostics_cons]
  rfl

/-! ### A sequence under other numbers -/

namespace Statements

/-- The transfers of a sequence inside the blocks `around` after a validation. -/
def settledTransfers (m : NameMatcher) (around : List (BlockId × Header)) (next : Nat)
    (s : Statements) : List (TransferKind × LabelReference) :=
  (s.settled m around next).transfers

variable {m : NameMatcher} {ρ : BlockId → BlockId} {around around' : List (BlockId × Header)}
  {next next' : Nat}

theorem settledTransfers_append (around : List (BlockId × Header)) (next : Nat)
    (s t : Statements) :
    (s ++ t).settledTransfers m around next =
      s.settledTransfers m around next ++ t.settledTransfers m around (next + s.blockCount) := by
  simp only [settledTransfers, settled_append, transfers_append]

theorem settledTransfers_block (around : List (BlockId × Header)) (next : Nat) (header : Header)
    (inner rest : Statements) :
    (block header inner rest).settledTransfers m around next =
      inner.settledTransfers m ((⟨next⟩, header) :: around) (next + 1) ++
        rest.settledTransfers m around (next + 1 + inner.blockCount) :=
  rfl

/-- **A sequence under other numbers.** Inside blocks that are named alike, with its own blocks
renumbered one by one, every reference is settled by the renumbered block. The induction goes into a
block with that block in front on both sides. -/
theorem settledTransfers_renumber (haround : NamesAlike m ρ around around') (s : Statements)
    (hnext : ∀ i < s.blockCount, ρ ⟨next + i⟩ = ⟨next' + i⟩) :
    s.settledTransfers m around' next' =
      (s.settledTransfers m around next).map (renumberTransfer ρ) := by
  induction s generalizing around around' next next' with
  | nil => rfl
  | sql text span rest ih => exact ih haround hnext
  | transfer kind r rest ih =>
    have hrest := ih haround hnext
    have houtcome : Resolution.ofOutcome (lexicalOutcome m around' r.target) =
        (Resolution.ofOutcome (lexicalOutcome m around r.target)).renumber ρ := by
      rw [Resolution.renumber_ofOutcome, haround r.target]
    simp only [settledTransfers, settled, transfers, List.map_cons] at hrest ⊢
    rw [hrest, houtcome]
    rfl
  | block header inner rest ihInner ihRest =>
    have hsplit : ∀ i, i < inner.blockCount + 1 + rest.blockCount → ρ ⟨next + i⟩ = ⟨next' + i⟩ :=
      hnext
    have hid : ρ ⟨next⟩ = ⟨next'⟩ := hsplit 0 (by omega)
    have hinner : ∀ i < inner.blockCount, ρ ⟨next + 1 + i⟩ = ⟨next' + 1 + i⟩ := by
      intro i hi
      rw [Nat.add_assoc, Nat.add_assoc]
      exact hsplit (1 + i) (by omega)
    have hrest : ∀ i < rest.blockCount,
        ρ ⟨next + 1 + inner.blockCount + i⟩ = ⟨next' + 1 + inner.blockCount + i⟩ := by
      intro i hi
      have hi := hsplit (1 + inner.blockCount + i) (by omega)
      simp only [← Nat.add_assoc] at hi
      exact hi
    rw [settledTransfers_block, settledTransfers_block, List.map_append,
      ihInner (haround.cons hid rfl) hinner, ihRest haround hrest]

/-- Behind `k` more blocks the same references are settled, under numbers that are moved by `k`. -/
theorem settledTransfers_moved {k : Nat} (hfixed : ∀ entry ∈ around, ρ entry.1 = entry.1)
    (next : Nat) (hmoved : ∀ i, next ≤ i → ρ ⟨i⟩ = ⟨i + k⟩) (s : Statements) :
    s.settledTransfers m around (next + k) =
      (s.settledTransfers m around next).map (renumberTransfer ρ) := by
  refine settledTransfers_renumber (NamesAlike.of_fixed hfixed) s ?_
  intro i _
  rw [hmoved (next + i) (Nat.le_add_right next i), Nat.add_right_comm]

/-- Blocks that are named alike under the same numbers make no difference. -/
theorem settledTransfers_congr (haround : NamesAlike m id around around') (s : Statements)
    (next : Nat) : s.settledTransfers m around' next = s.settledTransfers m around next := by
  have hid : renumberTransfer id = id := by
    funext ⟨kind, target, span, resolution⟩
    cases resolution <;> rfl
  rw [settledTransfers_renumber haround s (fun _ _ => rfl), hid, List.map_id]

/-- What is wrong inside some blocks depends on what is wrong with single transfers there. -/
theorem lexicalDiagnostics_congr {c : Config} {sourceId : Nat} {around around' : List Header}
    (haround : transferDiagnostics c sourceId around' = transferDiagnostics c sourceId around)
    (s : Statements) :
    s.lexicalDiagnostics c sourceId around' = s.lexicalDiagnostics c sourceId around := by
  induction s generalizing around around' with
  | nil => rfl
  | sql _ _ rest ih => exact ih haround
  | transfer kind r rest ih => simp only [lexicalDiagnostics, haround, ih haround]
  | block header inner rest ihInner ihRest =>
    have hinner : transferDiagnostics c sourceId (header :: around') =
        transferDiagnostics c sourceId (header :: around) := by
      funext kind r
      rw [transferDiagnostics_cons, transferDiagnostics_cons, haround]
    simp only [lexicalDiagnostics, ihInner hinner, ihRest haround]

end Statements

/-- The transfers of a body after a validation are those of its statements inside it. -/
theorem Block.transfers_settled (m : NameMatcher) (b : Block) :
    (b.settled m).transfers = b.statements.settledTransfers m [(.root, b.header)] 1 :=
  rfl

/-! ### What is said before and behind a place -/

namespace Place

variable {m : NameMatcher} {ρ : BlockId → BlockId} {s s' : Statements} {k : Nat}

theorem blockCount_fill (q : Place) (hk : s'.blockCount = s.blockCount + k) :
    (q.fill s').blockCount = (q.fill s).blockCount + k := by
  induction q with
  | here front back =>
    simp only [fill, Statements.blockCount_append, hk]
    omega
  | inside front header place back ih =>
    simp only [fill, Statements.blockCount_append, Statements.blockCount, ih]
    omega

/-- Up to the place and in it there are no more blocks than in all. -/
theorem opened_add_blockCount_le (q : Place) (s : Statements) :
    q.opened + s.blockCount ≤ (q.fill s).blockCount := by
  induction q with
  | here front back =>
    simp only [opened, fill, Statements.blockCount_append]
    omega
  | inside front header place back ih =>
    simp only [opened, fill, Statements.blockCount_append, Statements.blockCount]
    omega

/-- Every block that is written down before the place begins before it. -/
theorem blockCount_written (q : Place) : q.written.blockCount = q.opened := by
  induction q with
  | here front back => rfl
  | inside front header place back ih =>
    simp only [written, opened, Statements.blockCount_append, Statements.blockCount, ih]
    omega

/-- A block begins before what is inside it, and so do the blocks around it. -/
theorem index_lt_of_mem_cons {outer : List (BlockId × Header)} {next : Nat}
    (houter : ∀ entry ∈ outer, entry.1.index < next) (n : Nat) (header : Header) :
    ∀ entry ∈ (⟨next + n⟩, header) :: outer, entry.1.index < next + n + 1 := by
  refine List.forall_mem_cons.mpr ⟨Nat.lt_succ_self _, ?_⟩
  intro entry he
  have hlt := houter entry he
  omega

/-- The blocks around a place begin before it. -/
theorem index_lt_of_mem_around (q : Place) {outer : List (BlockId × Header)} {next : Nat}
    (houter : ∀ entry ∈ outer, entry.1.index < next) :
    ∀ entry ∈ q.around outer next, entry.1.index < next + q.opened := by
  induction q generalizing outer next with
  | here front back =>
    intro entry he
    exact Nat.lt_of_lt_of_le (houter entry he) (Nat.le_add_right _ _)
  | inside front header place back ih =>
    intro entry he
    have hlt := ih (index_lt_of_mem_cons houter front.blockCount header) entry he
    rw [opened]
    omega

/-- What is written down before a place inside a block: the statements before the block, and those
before the place in it. A label behind the block is not looked for, so it may be left out. -/
theorem settledTransfers_written_inside (front back : Statements) (header : Header)
    (place : Place) (outer : List (BlockId × Header)) (next : Nat) :
    (inside front header place back).written.settledTransfers m outer next =
      front.settledTransfers m outer next ++ place.written.settledTransfers m
        ((⟨next + front.blockCount⟩, header) :: outer) (next + front.blockCount + 1) := by
  have hunended := NamesAlike.unended (m := m) (⟨next + front.blockCount⟩, header) outer
  rw [written, Statements.settledTransfers_append, Statements.settledTransfers_block,
    Statements.settledTransfers_congr hunended]
  exact congrArg _ (List.append_nil _)

/-- **References before and behind a place.** Two sequences at the place, the second with `k` blocks
more, leave the references before the place as they are, and behind the place with the blocks there
moved by `k`. A renumbering may do to the blocks of the first sequence what it likes: no reference
outside names them. -/
theorem exists_settledTransfers_fill (q : Place) (hk : s'.blockCount = s.blockCount + k)
    {outer : List (BlockId × Header)} {next : Nat} (houter : ∀ entry ∈ outer, entry.1.index < next)
    (hbefore : ∀ i < next + q.opened, ρ ⟨i⟩ = ⟨i⟩)
    (hbehind : ∀ i, next + q.opened + s.blockCount ≤ i → ρ ⟨i⟩ = ⟨i + k⟩) :
    ∃ behind,
      (q.fill s).settledTransfers m outer next =
        q.written.settledTransfers m outer next ++
          s.settledTransfers m (q.around outer next) (next + q.opened) ++ behind ∧
      (q.fill s').settledTransfers m outer next =
        q.written.settledTransfers m outer next ++
          s'.settledTransfers m (q.around outer next) (next + q.opened) ++
            behind.map (renumberTransfer ρ) := by
  have hfixed : ∀ entry ∈ outer, ρ entry.1 = entry.1 := by
    intro entry he
    exact hbefore entry.1.index (Nat.lt_of_lt_of_le (houter entry he) (Nat.le_add_right _ _))
  induction q generalizing outer next with
  | here front back =>
    -- Behind the place stands the rest of the sequence.
    have hmoved : ∀ i, next + (front ++ s).blockCount ≤ i → ρ ⟨i⟩ = ⟨i + k⟩ := by
      intro i hi
      rw [Statements.blockCount_append, ← Nat.add_assoc] at hi
      exact hbehind i hi
    have hback := Statements.settledTransfers_moved (m := m) hfixed _ hmoved back
    have hnext : next + (front ++ s').blockCount = next + (front ++ s).blockCount + k := by
      rw [Statements.blockCount_append, Statements.blockCount_append, hk]
      omega
    refine ⟨back.settledTransfers m outer (next + (front ++ s).blockCount), ?_, ?_⟩
    · simp only [fill, written, around, opened, Statements.settledTransfers_append]
    · rw [← hback, ← hnext]
      simp only [fill, written, around, opened, Statements.settledTransfers_append]
  | inside front header place back ih =>
    -- The block takes the next number, and the place is a place inside it.
    have hnext : next + (front.blockCount + 1 + place.opened) =
        next + front.blockCount + 1 + place.opened := by omega
    simp only [opened, hnext] at hbefore hbehind
    have hinside := index_lt_of_mem_cons houter front.blockCount header
    have hkept : ∀ entry ∈ (⟨next + front.blockCount⟩, header) :: outer, ρ entry.1 = entry.1 :=
      List.forall_mem_cons.mpr ⟨hbefore _ (by omega), hfixed⟩
    obtain ⟨behind, hs, hs'⟩ := ih hinside hbefore hbehind hkept
    have hmoved : ∀ i, next + front.blockCount + 1 + (place.fill s).blockCount ≤ i →
        ρ ⟨i⟩ = ⟨i + k⟩ := by
      intro i hi
      have hle := place.opened_add_blockCount_le s
      exact hbehind i (by omega)
    have hback := Statements.settledTransfers_moved (m := m) hfixed _ hmoved back
    refine ⟨behind ++ back.settledTransfers m outer
      (next + front.blockCount + 1 + (place.fill s).blockCount), ?_, ?_⟩
    · rw [fill, Statements.settledTransfers_append, Statements.settledTransfers_block, hs,
        settledTransfers_written_inside, around, opened, hnext]
      simp only [List.append_assoc]
    · rw [fill, Statements.settledTransfers_append, Statements.settledTransfers_block, hs',
        settledTransfers_written_inside, around, opened, hnext, place.blockCount_fill hk,
        ← Nat.add_assoc, hback, List.map_append]
      simp only [List.append_assoc]

/-- **Misuses of labels before and behind a place** do not depend on what is there, and those of a
sequence at the place depend on nothing outside but the blocks around it. -/
theorem exists_lexicalDiagnostics_fill (q : Place) (c : Config) (sourceId : Nat)
    (outer : List (BlockId × Header)) (next : Nat) :
    ∃ behind, ∀ s,
      (q.fill s).lexicalDiagnostics c sourceId (outer.map Prod.snd) =
        q.written.lexicalDiagnostics c sourceId (outer.map Prod.snd) ++
          s.lexicalDiagnostics c sourceId ((q.around outer next).map Prod.snd) ++ behind := by
  induction q generalizing outer next with
  | here front back =>
    refine ⟨back.lexicalDiagnostics c sourceId (outer.map Prod.snd), fun s => ?_⟩
    simp only [fill, written, around, Statements.lexicalDiagnostics_append]
  | inside front header place back ih =>
    obtain ⟨behind, hs⟩ := ih ((⟨next + front.blockCount⟩, header) :: outer)
      (next + front.blockCount + 1)
    have hunended := transferDiagnostics_unended c sourceId header (outer.map Prod.snd)
    -- What is wrong with the label behind the block comes behind the place.
    refine ⟨behind ++ (header.endLabelDiagnostics c.matcher sourceId ++
      back.lexicalDiagnostics c sourceId (outer.map Prod.snd)), fun s => ?_⟩
    have hs := hs s
    rw [List.map_cons] at hs
    simp only [fill, written, around, Statements.lexicalDiagnostics_append,
      Statements.lexicalDiagnostics, hs, Statements.lexicalDiagnostics_congr hunended,
      Header.endLabelDiagnostics, List.append_assoc, List.append_nil]
    rfl

/-- What the blocks say of themselves that begin before and behind a place. -/
theorem exists_headers_fill (q : Place) :
    ∃ before behind, before.length = q.opened ∧
      ∀ s, (q.fill s).headers = before ++ s.headers ++ behind := by
  induction q with
  | here front back =>
    refine ⟨front.headers, back.headers, Statements.length_headers front, fun s => ?_⟩
    simp only [fill, Statements.headers_append]
  | inside front header place back ih =>
    obtain ⟨before, behind, hlength, hs⟩ := ih
    refine ⟨front.headers ++ header :: before, behind ++ back.headers, ?_, fun s => ?_⟩
    · rw [List.length_append, List.length_cons, Statements.length_headers, hlength, opened]
      omega
    · simp only [fill, Statements.headers_append, Statements.headers, hs, List.append_assoc,
        List.cons_append]

/-! ### A body with more blocks at a place -/

/-- What is written down before a place names blocks that keep their numbers. -/
theorem settledTransfers_written_fixed (q : Place) {outer : List (BlockId × Header)} {next : Nat}
    (houter : ∀ entry ∈ outer, entry.1.index < next)
    (hbefore : ∀ i < next + q.opened, ρ ⟨i⟩ = ⟨i⟩) :
    (q.written.settledTransfers m outer next).map (renumberTransfer ρ) =
      q.written.settledTransfers m outer next := by
  refine (Statements.settledTransfers_renumber (NamesAlike.of_fixed ?_) q.written ?_).symm
  · intro entry he
    exact hbefore entry.1.index (Nat.lt_of_lt_of_le (houter entry he) (Nat.le_add_right _ _))
  · intro i hi
    rw [q.blockCount_written] at hi
    exact hbefore (next + i) (Nat.add_lt_add_left hi next)

/-- The blocks around a place of a body begin before it. -/
theorem index_lt_of_mem_around_root (q : Place) (header : Header) :
    ∀ entry ∈ q.around [(.root, header)] 1, entry.1.index < 1 + q.opened :=
  q.index_lt_of_mem_around (List.forall_mem_singleton.mpr Nat.zero_lt_one)

/-- **References of a body with `k` more blocks at a place.** Outside the place each is settled by
the same block, which has grown by `k` if it begins behind the place. -/
theorem exists_settledTransfers_shift (q : Place) (m : NameMatcher) (header : Header)
    (hk : s'.blockCount = s.blockCount + k) :
    ∃ behind,
      (q.fill s).settledTransfers m [(.root, header)] 1 =
        q.written.settledTransfers m [(.root, header)] 1 ++
          s.settledTransfers m (q.around [(.root, header)] 1) (1 + q.opened) ++ behind ∧
      (q.fill s').settledTransfers m [(.root, header)] 1 =
        (q.written.settledTransfers m [(.root, header)] 1).map
            (renumberTransfer (.shift (1 + q.opened) k)) ++
          s'.settledTransfers m (q.around [(.root, header)] 1) (1 + q.opened) ++
            behind.map (renumberTransfer (.shift (1 + q.opened) k)) := by
  have hroot : ∀ entry ∈ [((.root : BlockId), header)], entry.1.index < 1 :=
    List.forall_mem_singleton.mpr Nat.zero_lt_one
  have hbefore : ∀ i < 1 + q.opened, BlockId.shift (1 + q.opened) k ⟨i⟩ = ⟨i⟩ :=
    fun _ hi => BlockId.shift_of_lt hi
  have hbehind : ∀ i, 1 + q.opened + s.blockCount ≤ i →
      BlockId.shift (1 + q.opened) k ⟨i⟩ = ⟨i + k⟩ :=
    fun _ hi => BlockId.shift_of_le (Nat.le_trans (Nat.le_add_right _ _) hi)
  rw [q.settledTransfers_written_fixed hroot hbefore]
  exact q.exists_settledTransfers_fill hk hroot hbefore hbehind

/-- **Misuses of labels in a body with a place.** Those of the body up to the place come first, then
those of the statements there. -/
theorem exists_lexicalDiagnostics_body (q : Place) (c : Config) (sourceId : Nat) (header : Header) :
    ∃ behind, ∀ s, (⟨header, q.fill s⟩ : Block).lexicalDiagnostics c sourceId =
      (⟨{ header with endLabel := none }, q.written⟩ : Block).lexicalDiagnostics c sourceId ++
        s.lexicalDiagnostics c sourceId ((q.around [(.root, header)] 1).map Prod.snd) ++
          behind := by
  obtain ⟨behind, hs⟩ := q.exists_lexicalDiagnostics_fill c sourceId [(.root, header)] 1
  have hunended := transferDiagnostics_unended c sourceId header []
  -- The label behind the body itself is looked at last.
  refine ⟨behind ++ header.endLabelDiagnostics c.matcher sourceId, fun s => ?_⟩
  have hs := hs s
  rw [List.map_singleton] at hs
  simp only [Block.lexicalDiagnostics, hs, Statements.lexicalDiagnostics_congr hunended,
    Header.endLabelDiagnostics, List.append_assoc, List.append_nil]
  rfl

/-- **Blocks of a body with `k` more blocks at a place,** before those that were there. Each says
the same of itself, and has grown by `k` if it begins behind the place. -/
theorem header_block?_shift (q : Place) (header : Header) {new : List Header}
    (hnew : s'.headers = new ++ s.headers) (hk : new.length = k) (id : BlockId) :
    ((⟨header, q.fill s'⟩ : Block).block? (id.shift (1 + q.opened) k)).map Block.header =
      ((⟨header, q.fill s⟩ : Block).block? id).map Block.header := by
  subst hk
  obtain ⟨before, behind, hlength, hs⟩ := q.exists_headers_fill
  have hshift := getElem?_append_shift (header :: before) new (s.headers ++ behind) id
  rw [List.length_cons, hlength, Nat.add_comm q.opened 1] at hshift
  rw [Block.header_block?, Block.header_block?]
  simpa [hs, hnew] using hshift

end Place

end LabelCheck
