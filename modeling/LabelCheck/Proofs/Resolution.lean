import LabelCheck.Proofs.Frame
import LabelCheck.Validation.Lexical

/-!
# Resolution along the way outward

A label reference is resolved by the blocks on the way from the block that directly holds the
statement outward to the body. The first of them whose label the target denotes is the one it
names, and without such a block the reference is not found. `Block.ResolvesAt` says so on the tree,
with addresses for the blocks and the pre-order for their numbers: neither a walk nor a table of
scopes occurs in it.

* `Address.outward`: the addresses on the way, the innermost first;
* `Block.enclosing`: what stands at them, as the lexical reading keeps it;
* `Block.at?_settledIn`: at every address the settled body holds the settled block, under exactly
  the blocks on the way to it;
* `Procedure.validate_resolves`: a validation resolves every transfer along its way outward.

Siblings and nested blocks are never chosen, for an address on the way is a prefix, and a number
belongs to one address only. A block without a label carries no name, so it is passed over, and
`Block.CarriesAt` asks for a label whatever the construct is.
-/

namespace LabelCheck

/-! ### The way outward -/

namespace Address

/-- The addresses of the blocks around a statement of the block at `a`: that block itself, the
block around it, and so on out to the body. -/
def outward (a : Address) : List Address := a.inits.reverse

theorem outward_cons (i : Nat) (a : Address) :
    outward (i :: a) = (outward a).map (i :: ·) ++ [[]] := by
  unfold outward
  rw [List.inits_cons, List.reverse_cons, List.map_reverse]

@[simp] theorem mem_outward {a q : Address} : q ∈ outward a ↔ q <+: a := by
  unfold outward
  rw [List.mem_reverse, List.mem_inits]

/-- On the way outward the search ends at the innermost address: every other address with the
property is further out. -/
theorem prefix_of_find?_outward {p : Address → Bool} {a q q' : Address}
    (h : (outward a).find? p = some q) (hq' : q' <+: a) (hp : p q' = true) : q' <+: q := by
  induction a generalizing p q q' with
  | nil =>
    rw [List.prefix_nil.mp hq']
    exact List.nil_prefix
  | cons i a ih =>
    cases q' with
    | nil => exact List.nil_prefix
    | cons j q' =>
      obtain ⟨rfl, hqa⟩ := List.cons_prefix_cons.mp hq'
      rw [outward_cons, List.find?_append, List.find?_map] at h
      cases hf : (outward a).find? (p ∘ (j :: ·)) with
      | some q₁ =>
        rw [hf] at h
        cases h
        -- Both addresses go into the same statement and are compared inside it.
        exact List.cons_prefix_cons.mpr ⟨rfl, ih hf hqa hp⟩
      | none => exact absurd hp (List.find?_eq_none.mp hf q' (mem_outward.mpr hqa))

/-- The first address with a property on the way outward is the longest prefix with it. -/
theorem find?_outward_eq_some_iff {p : Address → Bool} {a q : Address} :
    (outward a).find? p = some q ↔
      q <+: a ∧ p q = true ∧ ∀ q', q' <+: a → p q' = true → q' <+: q := by
  constructor
  · intro h
    refine ⟨mem_outward.mp (List.mem_of_find?_eq_some h), List.find?_some h, ?_⟩
    intro q' hq' hp
    exact prefix_of_find?_outward h hq' hp
  · rintro ⟨hq, hp, hfirst⟩
    cases hf : (outward a).find? p with
    | none => exact absurd hp (List.find?_eq_none.mp hf q (mem_outward.mpr hq))
    | some q' =>
      -- Each of the two is further out than the other.
      have hin := hfirst q' (mem_outward.mp (List.mem_of_find?_eq_some hf)) (List.find?_some hf)
      have hout := prefix_of_find?_outward hf hq hp
      rw [hin.eq_of_length_le hout.length_le]

theorem find?_outward_eq_none_iff {p : Address → Bool} {a : Address} :
    (outward a).find? p = none ↔ ∀ q, q <+: a → ¬ p q = true := by
  rw [List.find?_eq_none]
  simp only [mem_outward]

end Address

/-! ### What resolving along the way outward means -/

namespace Block

/-- The block at an address carries a label that the name `target` denotes. -/
def CarriesAt (m : NameMatcher) (target : Identifier) (b : Block) (q : Address) : Prop :=
  ∃ inner label, b.at? q = some inner ∧ inner.label = some label ∧ m.accepts label target = true

/-- Of the blocks on the way from the address `a` outward, the one at `q` is the first that carries
the name. -/
structure NearestAt (m : NameMatcher) (target : Identifier) (b : Block) (a q : Address) :
    Prop where
  /-- The block is on the way. -/
  encloses : q <+: a
  carries : b.CarriesAt m target q
  /-- Every other block on the way that carries the name is further out. -/
  first : ∀ q', q' <+: a → b.CarriesAt m target q' → q' <+: q

/-- **Lexical resolution.** What a reference to `target` that stands directly in the block at the
address `a` has to hold. -/
structure ResolvesAt (m : NameMatcher) (target : Identifier) (b : Block) (a : Address)
    (res : Resolution) : Prop where
  isSettled : res.isSettled = true
  resolved_iff : ∀ id, res = .resolved id ↔
    ∃ q, b.NearestAt m target a q ∧ id = ⟨b.numberAt q⟩
  notFound_iff : res = .notFound ↔ ∀ q, q <+: a → ¬ b.CarriesAt m target q
  /-- The number looks up the block on the way, and is the number of no other block. -/
  unique : ∀ id, res = .resolved id → ∃ q, q <+: a ∧ b.CarriesAt m target q ∧
    b.block? id = b.at? q ∧ ∀ q', (b.at? q').isSome → id = ⟨b.numberAt q'⟩ → q' = q

/-- The blocks on the way from an address outward with their numbers, as a list of the lexical
reading, where the body has the number `next`. -/
def enclosing (next : Nat) (b : Block) (a : Address) : List (BlockId × Header) :=
  (Address.outward a).filterMap fun q =>
    (b.at? q).map fun inner => (⟨next + b.numberAt q⟩, inner.header)

/-- Whether the block at an address carries a name. -/
def carriesAt (m : NameMatcher) (target : Identifier) (b : Block) (q : Address) : Bool :=
  (b.at? q).any fun inner => inner.header.carries m target

theorem carriesAt_eq_true_iff {m : NameMatcher} {target : Identifier} {b : Block} {q : Address} :
    b.carriesAt m target q = true ↔ b.CarriesAt m target q := by
  unfold carriesAt CarriesAt
  rw [Option.any_eq_true]
  constructor
  · rintro ⟨inner, hat, hcarries⟩
    obtain ⟨label, hl, hm⟩ := (Option.any_eq_true _ _).mp hcarries
    exact ⟨inner, label, hat, hl, hm⟩
  · rintro ⟨inner, label, hat, hl, hm⟩
    exact ⟨inner, hat, (Option.any_eq_true _ _).mpr ⟨label, hl, hm⟩⟩

/-- The lexical outcome under the blocks on the way is the number of the first of them that carries
the name. -/
theorem lexicalOutcome_enclosing (m : NameMatcher) (target : Identifier) (next : Nat) (b : Block)
    (a : Address) :
    lexicalOutcome m (b.enclosing next a) target =
      ((Address.outward a).find? (b.carriesAt m target)).map
        fun q => ⟨next + b.numberAt q⟩ := by
  unfold lexicalOutcome enclosing
  rw [List.find?_filterMap]
  have hcarries : (fun q => ((b.at? q).map fun inner =>
      ((⟨next + b.numberAt q⟩ : BlockId), inner.header)).any
        fun entry => entry.2.carries m target) = b.carriesAt m target := by
    funext q
    unfold carriesAt
    rw [Option.any_map]
  rw [hcarries]
  cases hf : (Address.outward a).find? (b.carriesAt m target) with
  | none => rfl
  | some q =>
    obtain ⟨inner, _, hat, _⟩ := carriesAt_eq_true_iff.mp (List.find?_some hf)
    simp [hat]

end Block

/-! ### The settled body, address by address -/

/-- A block inside the blocks `around`, with every reference settled by the block it names, where
`next` is the number of the block. -/
def Block.settledIn (m : NameMatcher) (around : List (BlockId × Header)) (next : Nat)
    (b : Block) : Block :=
  { b with statements := b.statements.settled m ((⟨next⟩, b.header) :: around) (next + 1) }

/-- A statement inside the blocks `around` with its references settled, where `next` is the number
of the first block that it holds. -/
def Statement.settled (m : NameMatcher) (around : List (BlockId × Header)) (next : Nat) :
    Statement → Statement
  | .sql text span => .sql text span
  | .transfer kind r =>
    .transfer kind { r with resolution := .ofOutcome (lexicalOutcome m around r.target) }
  | .block b => .block (b.settledIn m around next)

/-- A sequence is settled statement by statement. -/
theorem Statements.getElem?_toList_settled (m : NameMatcher) (around : List (BlockId × Header))
    (next : Nat) (s : Statements) (i : Nat) :
    (s.settled m around next).toList[i]? =
      s.toList[i]?.map (Statement.settled m around (next + s.blocksBefore i)) := by
  induction s generalizing next i with
  | nil => rfl
  | sql text span rest ih =>
    cases i with
    | zero => rfl
    | succ i => exact ih next i
  | transfer kind r rest ih =>
    cases i with
    | zero => rfl
    | succ i => exact ih next i
  | block header inside rest _ ih =>
    cases i with
    | zero => rfl
    | succ i =>
      have hnext : next + 1 + inside.blockCount + rest.blocksBefore i =
          next + (inside.blockCount + 1 + rest.blocksBefore i) := by omega
      have hrest := ih (next + 1 + inside.blockCount) i
      rw [hnext] at hrest
      exact hrest

namespace Block

variable {m : NameMatcher} {around : List (BlockId × Header)} {next : Nat} {b c inner : Block}
  {a : Address} {i : Nat}

/-- The way to a block inside begins in the block itself. -/
theorem enclosing_cons (hi : b.statements.toList[i]? = some (.block inner)) (next : Nat)
    (a : Address) :
    b.enclosing next (i :: a) =
      inner.enclosing (next + 1 + b.statements.blocksBefore i) a ++ [(⟨next⟩, b.header)] := by
  unfold enclosing
  rw [Address.outward_cons, List.filterMap_append, List.filterMap_map]
  congr 1
  refine List.filterMap_congr fun q _ => ?_
  have hnext : next + (1 + b.statements.blocksBefore i + inner.numberAt q) =
      next + 1 + b.statements.blocksBefore i + inner.numberAt q := by omega
  rw [Function.comp_apply, at?_cons, child?_eq_some_iff.mpr hi, numberAt_cons hi, hnext]
  rfl

/-- The block that is a statement is settled inside the block around it. -/
theorem child?_settledIn (around : List (BlockId × Header)) (next : Nat) (b : Block) (i : Nat) :
    (b.settledIn m around next).child? i = (b.child? i).map
      (settledIn m ((⟨next⟩, b.header) :: around) (next + 1 + b.statements.blocksBefore i)) := by
  unfold child? settledIn
  rw [Statements.getElem?_toList_settled]
  cases b.statements.toList[i]? with
  | none => rfl
  | some item => cases item <;> rfl

/-- **The settled block at an address.** It is settled under exactly the blocks on the way to it,
and under the number of its address. The induction is on the way inward; the blocks that have been
gone through make up the front of the list that the settled block is left with. -/
theorem at?_settledIn (around : List (BlockId × Header)) (next : Nat) (h : b.at? a = some c) :
    ∃ outer, (b.settledIn m around next).at? a =
        some (c.settledIn m outer (next + b.numberAt a)) ∧
      (⟨next + b.numberAt a⟩, c.header) :: outer = b.enclosing next a ++ around := by
  induction a generalizing b around next with
  | nil =>
    cases h
    exact ⟨around, rfl, rfl⟩
  | cons i a ih =>
    obtain ⟨inner, hi, hc⟩ := at?_cons_eq_some_iff.mp h
    obtain ⟨outer, hat, houter⟩ := ih ((⟨next⟩, b.header) :: around)
      (next + 1 + b.statements.blocksBefore i) hc
    have hnext : next + 1 + b.statements.blocksBefore i + inner.numberAt a =
        next + (1 + b.statements.blocksBefore i + inner.numberAt a) := by omega
    refine ⟨outer, ?_, ?_⟩
    · rw [at?_cons, child?_settledIn, child?_eq_some_iff.mpr hi, numberAt_cons hi, ← hnext]
      exact hat
    · rw [numberAt_cons hi, ← hnext, enclosing_cons hi, houter, List.append_assoc]
      rfl

theorem settled_eq_settledIn (m : NameMatcher) (b : Block) : b.settled m = b.settledIn m [] 0 :=
  rfl

/-- A transfer is settled by the blocks on the way outward from the block that holds it. -/
theorem statement?_settled {kind : TransferKind} {r : LabelReference}
    (h : b.statement? a i = some (.transfer kind r)) :
    (b.settled m).statement? a i = some (.transfer kind
      { r with resolution := .ofOutcome (lexicalOutcome m (b.enclosing 0 a) r.target) }) := by
  obtain ⟨c, hc, hi⟩ := Option.bind_eq_some_iff.mp h
  obtain ⟨outer, hat, houter⟩ := at?_settledIn (m := m) [] 0 hc
  rw [List.append_nil] at houter
  rw [settled_eq_settledIn, statement?, hat, Option.bind_some, settledIn,
    Statements.getElem?_toList_settled, hi, houter]
  rfl

end Block

/-! ### Settling keeps the places of all blocks -/

theorem Statements.sameFrame_settled (m : NameMatcher) (around : List (BlockId × Header))
    (next : Nat) (s : Statements) : s.SameFrame (s.settled m around next) := by
  induction s generalizing around next with
  | nil => exact .nil
  | sql text span rest ih => exact .sql text span (ih around next)
  | transfer kind r rest ih => exact .transfer kind r _ (ih around next)
  | block header inside rest ihInside ihRest =>
    exact .block header (ihInside ((⟨next⟩, header) :: around) (next + 1))
      (ihRest around (next + 1 + inside.blockCount))

namespace Block

variable {m : NameMatcher} {b : Block}

/-- A validation changes references and nothing else. -/
theorem sameFrame_settled (m : NameMatcher) (b : Block) : b.SameFrame (b.settled m) :=
  ⟨rfl, b.statements.sameFrame_settled m _ 1⟩

/-- Every transfer of a settled body has been settled by the blocks on the way outward. -/
theorem exists_of_statement?_settled {a : Address} {i : Nat} {kind : TransferKind}
    {r' : LabelReference} (h : (b.settled m).statement? a i = some (.transfer kind r')) :
    ∃ r, b.statement? a i = some (.transfer kind r) ∧
      r' = { r with resolution := .ofOutcome (lexicalOutcome m (b.enclosing 0 a) r.target) } := by
  obtain ⟨c', hc', hi'⟩ := Option.bind_eq_some_iff.mp h
  have hheader := (b.sameFrame_settled m).map_header_at?_eq a
  rw [hc'] at hheader
  obtain ⟨c, hc, _⟩ := Option.map_eq_some_iff.mp hheader.symm
  obtain ⟨outer, hat, _⟩ := at?_settledIn (m := m) [] 0 hc
  rw [← settled_eq_settledIn, hc'] at hat
  cases hat
  rw [settledIn, Statements.getElem?_toList_settled] at hi'
  obtain ⟨item, hi, hitem⟩ := Option.map_eq_some_iff.mp hi'
  -- Only a transfer is settled into a transfer.
  cases item with
  | sql text span => cases hitem
  | block inner => cases hitem
  | transfer kind' r =>
    have hr : b.statement? a i = some (.transfer kind' r) :=
      Option.bind_eq_some_iff.mpr ⟨c, hc, hi⟩
    rw [statement?_settled hr] at h
    cases h
    exact ⟨r, hr, rfl⟩

/-- The blocks on the way outward stay, with their numbers. -/
theorem enclosing_settled (m : NameMatcher) (b : Block) (a : Address) :
    (b.settled m).enclosing 0 a = b.enclosing 0 a := by
  unfold enclosing
  refine List.filterMap_congr fun q _ => ?_
  have hframe := b.sameFrame_settled m
  have hheader := congrArg (Option.map fun h : Header => ((⟨0 + b.numberAt q⟩ : BlockId), h))
    (hframe.map_header_at?_eq q)
  rw [Option.map_map, Option.map_map] at hheader
  rw [hframe.numberAt_eq]
  exact hheader

end Block

/-! ### Validation resolves along the way outward -/

namespace Block

/-- The first block on the way is one only. -/
theorem NearestAt.unique {m : NameMatcher} {target : Identifier} {b : Block} {a q q' : Address}
    (h : b.NearestAt m target a q) (h' : b.NearestAt m target a q') : q' = q := by
  have hin := h.first q' h'.encloses h'.carries
  have hout := h'.first q h.encloses h.carries
  exact hin.eq_of_length_le hout.length_le

/-- The number of the first block on the way that carries the name is the lexical resolution. -/
theorem NearestAt.resolvesAt {m : NameMatcher} {target : Identifier} {b : Block} {a q : Address}
    (h : b.NearestAt m target a q) : b.ResolvesAt m target a (.resolved ⟨b.numberAt q⟩) := by
  obtain ⟨c, _, hc, _⟩ := h.carries
  refine ⟨rfl, ?_, ?_, ?_⟩
  · intro id
    constructor
    · intro hid
      cases hid
      exact ⟨q, h, rfl⟩
    · rintro ⟨q', hq', rfl⟩
      rw [h.unique hq']
  · constructor
    · intro hid
      cases hid
    · intro hno
      exact absurd h.carries (hno q h.encloses)
  · intro id hid
    cases hid
    refine ⟨q, h.encloses, h.carries, ?_, ?_⟩
    · rw [block?_numberAt hc, hc]
    · intro q' hq' hnumber
      rw [BlockId.mk.injEq] at hnumber
      exact numberAt_injective hq' (Option.isSome_of_eq_some hc) hnumber.symm

/-- Without a block on the way that carries the name, it is not found. -/
theorem resolvesAt_notFound {m : NameMatcher} {target : Identifier} {b : Block} {a : Address}
    (h : ∀ q, q <+: a → ¬ b.CarriesAt m target q) : b.ResolvesAt m target a .notFound := by
  refine ⟨rfl, ?_, ⟨fun _ => h, fun _ => rfl⟩, ?_⟩
  · intro id
    constructor
    · intro hid
      cases hid
    · rintro ⟨q, hq, _⟩
      exact absurd hq.carries (h q hq.encloses)
  · intro id hid
    cases hid

/-- The lexical outcome under the blocks on the way outward is the lexical resolution. -/
theorem resolvesAt_lexicalOutcome (m : NameMatcher) (target : Identifier) (b : Block)
    (a : Address) :
    b.ResolvesAt m target a (.ofOutcome (lexicalOutcome m (b.enclosing 0 a) target)) := by
  rw [lexicalOutcome_enclosing]
  simp only [Nat.zero_add]
  cases hf : (Address.outward a).find? (b.carriesAt m target) with
  | none =>
    rw [Address.find?_outward_eq_none_iff] at hf
    simp only [carriesAt_eq_true_iff] at hf
    exact resolvesAt_notFound hf
  | some q =>
    rw [Address.find?_outward_eq_some_iff] at hf
    simp only [carriesAt_eq_true_iff] at hf
    obtain ⟨hq, hcarries, hfirst⟩ := hf
    exact NearestAt.resolvesAt ⟨hq, hcarries, hfirst⟩

end Block

/-- **Validation resolves every transfer along its way outward.** It never meets a fault. Every
transfer of the validated procedure stands at an address and holds the lexical resolution there, and
every transfer statement is still where it was, with nothing but its resolution changed and that
one read off the body as it was. Nothing is asked of what the references held before, and nothing of
whether the validation passes. -/
theorem Procedure.validate_resolves (p : Procedure) (c : Config) (stamp : Stamp) :
    ∃ v, p.validate c stamp = .ok v ∧
      (∀ kind r, (kind, r) ∈ v.procedure.transfers →
        ∃ a i, v.procedure.body.statement? a i = some (.transfer kind r) ∧
          v.procedure.body.ResolvesAt c.matcher r.target a r.resolution) ∧
      ∀ a i kind r, p.body.statement? a i = some (.transfer kind r) →
        ∃ res,
          v.procedure.body.statement? a i = some (.transfer kind { r with resolution := res }) ∧
          p.body.ResolvesAt c.matcher r.target a res := by
  refine ⟨_, p.validate_eq c stamp, ?_, ?_⟩
  · intro kind r' hmem
    obtain ⟨a, i, h⟩ := Block.mem_transfers_iff.mp hmem
    obtain ⟨r, _, rfl⟩ := Block.exists_of_statement?_settled h
    refine ⟨a, i, h, ?_⟩
    -- After the validation the same blocks stand on the way.
    rw [← Block.enclosing_settled c.matcher p.body a]
    exact Block.resolvesAt_lexicalOutcome _ _ _ _
  · intro a i kind r h
    exact ⟨_, Block.statement?_settled h, Block.resolvesAt_lexicalOutcome _ _ _ _⟩

end LabelCheck
