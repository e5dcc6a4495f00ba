import LabelCheck.Proofs.CheckCommand
import LabelCheck.Proofs.Resolution

/-!
# The report on transfers

A check can tell of every transfer which block it names. The block is looked up by its number, and
the look-up has answers for a missing block, for a block without a label and for a reference that is
not settled. After a validation none of them is ever given.

* `Procedure.Shows`: what is to be told of a reference, with what makes it true;
* `IsFallback`: what is told if a look-up fails;
* `CommandLine.runOn_resolutions`: a check tells of every transfer what is true of it.

The block is found by two numberings, that of the scopes in which the label is searched for and that
of the listing in which the number is looked up. Both give the number of the block's address.
-/

namespace LabelCheck

/-! ### What is told of a reference -/

/-- **What is to be told of a reference** that stands directly in the block at an address: that it
is not found, if no block around it has the label, or else the nearest block with the label, by its
number, its construct and its label. The number looks up that block. -/
inductive Procedure.Shows (m : NameMatcher) (p : Procedure) (a : Address) (r : LabelReference) :
    String → Prop where
  | notFound (hres : r.resolution = .notFound)
    (hnone : ∀ q, q <+: a → ¬ p.body.CarriesAt m r.target q) :
    Shows m p a r "not found"
  | block {id : BlockId} {q : Address} {inner : Block} {label : Identifier}
    (hres : r.resolution = .resolved id) (hnearest : p.body.NearestAt m r.target a q)
    (hid : id = ⟨p.body.numberAt q⟩) (hat : p.body.at? q = some inner)
    (hblock : p.block? id = some inner) (hlabel : inner.label = some label)
    (haccepts : m.accepts label r.target = true) :
    Shows m p a r s!"{id} {inner.kind.describe} {label}"

/-- **What is told if a look-up fails:** the reference is not settled, or there is no block with the
number, or the block has no label. -/
inductive IsFallback : String → Prop where
  | unresolved : IsFallback "unresolved"
  | noBlock (id : BlockId) : IsFallback id.text
  | noLabel (id : BlockId) (kind : BlockKind) : IsFallback s!"{id} {kind.describe}"

/-- There is no blank in the written form of a number. -/
theorem BlockId.blank_not_mem_text (id : BlockId) : ' ' ∉ id.text.toList :=
  id.not_mem_text (by decide) (by decide)

/-- What stands behind the first blank is the same. -/
theorem Text.eq_of_blank_eq {first first' rest rest' : List Char} (h : ' ' ∉ first)
    (h' : ' ' ∉ first') (heq : first ++ ' ' :: rest = first' ++ ' ' :: rest') : rest = rest' := by
  have hdrop : ∀ {word : List Char}, ' ' ∉ word → ∀ others,
      (word ++ ' ' :: others).dropWhile (· != ' ') = ' ' :: others := by
    intro word hword others
    rw [List.dropWhile_append_of_pos, List.dropWhile_cons_of_neg]
    · simp
    · intro c hc
      exact bne_iff_ne.mpr fun hblank => hword (hblank ▸ hc)
  have hrest := congrArg (List.dropWhile (· != ' ')) heq
  rw [hdrop h, hdrop h'] at hrest
  exact (List.cons.inj hrest).2

/-- No construct is described by the description of another one with more behind it. -/
theorem Construct.not_describe_blank_prefix (k k' : Construct) :
    ¬ k.describe.toList ++ [' '] <+: k'.describe.toList := by
  cases k <;> cases k' <;> decide

theorem IsFallback.toList_eq {text : String} (h : IsFallback text) :
    text = "unresolved" ∨ ∃ id : BlockId, text.toList = id.text.toList ∨
      ∃ kind : BlockKind, text.toList = id.text.toList ++ ' ' :: kind.describe.toList := by
  cases h with
  | unresolved => exact .inl rfl
  | noBlock id => exact .inr ⟨id, .inl rfl⟩
  | noLabel id kind =>
    refine .inr ⟨id, .inr ⟨kind, ?_⟩⟩
    show (id.text ++ " " ++ kind.describe).toList = _
    simp only [String.toList_append, List.append_assoc]
    rfl

theorem not_isFallback_notFound : ¬ IsFallback "not found" := by
  intro h
  -- What tells of a block begins with the sign of its number.
  have hsign {id : BlockId} {rest : List Char} : "not found".toList ≠ id.text.toList ++ rest := by
    rw [BlockId.toList_text]
    intro heq
    exact absurd (List.cons.inj heq).1 (by decide)
  rcases h.toList_eq with h | ⟨id, h | ⟨kind, h⟩⟩
  · exact absurd h (by decide)
  · exact hsign (h.trans (List.append_nil _).symm)
  · exact hsign h

/-- With a label a block is not told of as without one, since only the number is in front of the
first blank. -/
theorem not_isFallback_block (id : BlockId) (kind : BlockKind) (label : Identifier) :
    ¬ IsFallback s!"{id} {kind.describe} {label}" := by
  have htext : (s!"{id} {kind.describe} {label}").toList =
      id.text.toList ++ ' ' :: (kind.describe.toList ++ [' '] ++ label.text.toList) := by
    show (id.text ++ " " ++ kind.describe ++ " " ++ label.text).toList = _
    simp only [String.toList_append, List.append_assoc]
    rfl
  intro h
  rcases h.toList_eq with h | ⟨id', h | ⟨kind', h⟩⟩
  · rw [h, BlockId.toList_text] at htext
    exact absurd (List.cons.inj htext).1 (by decide)
  · -- A bare number has no blank in it.
    refine id'.blank_not_mem_text ?_
    rw [← h, htext]
    exact List.mem_append_right _ List.mem_cons_self
  · rw [htext] at h
    have hbehind := Text.eq_of_blank_eq id.blank_not_mem_text id'.blank_not_mem_text h
    exact Construct.not_describe_blank_prefix kind.construct kind'.construct ⟨_, hbehind⟩

/-- **What has to be told of a reference is nothing that a failed look-up tells.** -/
theorem Procedure.Shows.not_isFallback {m : NameMatcher} {p : Procedure} {a : Address}
    {r : LabelReference} {outcome : String} (h : p.Shows m a r outcome) : ¬ IsFallback outcome := by
  cases h with
  | notFound _ _ => exact not_isFallback_notFound
  | block _ _ _ _ _ _ _ => exact not_isFallback_block _ _ _

/-! ### What a check tells of its transfers -/

/-- **A line about a transfer,** which stands at the place of a block: its keyword, its target, and
behind the arrow what has to be told of it. -/
def Procedure.Tells (m : NameMatcher) (p : Procedure) (place : Address × Nat) (line : String) :
    Prop :=
  ∃ kind r outcome, p.body.statement? place.1 place.2 = some (.transfer kind r) ∧
    line = s!"{kind} {r.target} -> {outcome}" ∧ p.Shows m place.1 r outcome ∧ ¬ IsFallback outcome

namespace CommandLine

/-- A reference that is resolved along its way outward is told as it has to be. -/
theorem exists_shows_of_resolvesAt {m : NameMatcher} {p : Procedure} {a : Address}
    {r : LabelReference} (h : p.body.ResolvesAt m r.target a r.resolution) (kind : TransferKind) :
    ∃ outcome, resolutionLine p kind r.target r.resolution = s!"{kind} {r.target} -> {outcome}" ∧
      p.Shows m a r outcome := by
  cases hres : r.resolution with
  | unresolved =>
    have hsettled := h.isSettled
    rw [hres] at hsettled
    cases hsettled
  | notFound =>
    refine ⟨"not found", ?_, .notFound hres (h.notFound_iff.mp hres)⟩
    show kind.text ++ " " ++ r.target.text ++ " -> not found" =
      kind.text ++ " " ++ r.target.text ++ " -> " ++ "not found"
    rw [@String.append_assoc _ " -> " "not found"]
    rfl
  | resolved id =>
    obtain ⟨q, hnearest, hid⟩ := (h.resolved_iff id).mp hres
    obtain ⟨inner, label, hat, hlabel, haccepts⟩ := hnearest.carries
    -- The number that the search gave is that of the address, and so looks up the block there.
    have hblock : p.block? id = some inner := hid ▸ Block.block?_numberAt hat
    refine ⟨_, ?_, .block hres hnearest hid hat hblock hlabel haccepts⟩
    rw [resolutionLine, describeBlock, hblock]
    simp only [hlabel]

/-- The lines about a settled body tell of its transfers, one by one. -/
theorem forall₂_tells (p : Procedure) (m : NameMatcher) :
    List.Forall₂ (({ p with body := p.body.settled m } : Procedure).Tells m) p.body.transferPlaces
      (resolutionLines { p with body := p.body.settled m }) := by
  have hlines : resolutionLines { p with body := p.body.settled m } =
      (p.body.settled m).transfers.map fun t =>
        resolutionLine { p with body := p.body.settled m } t.1 t.2.target t.2.resolution :=
    List.map_map
  rw [hlines, List.forall₂_map_right_iff, ← (p.body.sameFrame_settled m).transferPlaces_eq]
  refine (Block.forall₂_transferPlaces _).imp fun place t hplace => ?_
  obtain ⟨r, _, hr⟩ := Block.exists_of_statement?_settled hplace
  -- After the validation the same blocks stand on the way outward.
  have hresolves := Block.resolvesAt_lexicalOutcome m t.2.target (p.body.settled m) place.1
  rw [Block.enclosing_settled] at hresolves
  have hres : t.2.resolution =
      .ofOutcome (lexicalOutcome m (p.body.enclosing 0 place.1) t.2.target) := by
    rw [hr]
  rw [← hres] at hresolves
  obtain ⟨outcome, hline, hshows⟩ :=
    exists_shows_of_resolvesAt (p := { p with body := p.body.settled m }) hresolves t.1
  exact ⟨t.1, t.2, outcome, hplace, hline, hshows, hshows.not_isFallback⟩

/-- **A check tells of every transfer what is true of it.** Whatever the procedure, the settings and
the outcome of the validation are, a check that is asked for resolutions shows one line for each
transfer, in source order. It says that no block around the transfer has the label, or names the
nearest one that has: by a number that looks up this block, with its construct and its label, which
the target denotes. No line tells of a reference that is not settled, of a missing block or of a
block without a label. -/
theorem runOn_resolutions (draw : Drawing) (noColor : Bool) (a : CheckArguments) (config : Config)
    (p : Procedure) :
    ∃ v places lines, p.validate config 1 = .ok v ∧ p.body.ListsTransfers places ∧
      ({ a with resolutions := true }.runOn draw noColor config p).stdout =
        (if a.tree then (ScopeTree.build 0 p.body).outline else "") ++ unlines lines ∧
      List.Forall₂ (v.procedure.Tells config.matcher) places lines := by
  have hv := p.validate_eq config 1
  refine ⟨_, p.body.transferPlaces, _, hv, p.body.listsTransfers_transferPlaces, ?_,
    forall₂_tells p config.matcher⟩
  unfold CheckArguments.runOn
  rw [hv]
  rfl

end CommandLine

end LabelCheck
