import LabelCheck.Proofs.HeadLines
import LabelCheck.Proofs.Nesting
import LabelCheck.Proofs.Spelling

/-!
# Outlines can be read back

The outline of a scope tree is a text for people, in which a label may look like any other part of a
line. It still tells everything: where the labels are those that are read from texts and none of
them breaks a line, two trees with one outline have the same scopes, up to their stamps.

* `Text.splitOn_ended`: the lines of an outline, found again;
* `Scope.line`, `Scope.eq_of_line_eq`: what a single line tells of its scope;
* `IndentedUnder`: the line around a line, read off the depths alone;
* `ScopeTree.indentedUnder_of_parent`: the line around the line of a scope is that of its parent;
* `ScopeTree.alike_of_outline_eq`: the outlines of two bodies.

A line does not show where its label ends. It is read from both ends instead: its number is known
from the place of the line, and only a mark ends with a parenthesis. That the parent can be told
from the depths rests on the pre-order, in which nothing but what is inside a block stands between
the block and its last statement.
-/

namespace LabelCheck

/-! ### Lines of a text -/

/-- Lines that are ended one by one are found again, with nothing behind the last of them. -/
theorem Text.splitOn_ended {lines : List (List Char)} (h : ∀ line ∈ lines, '\n' ∉ line) :
    (lines.flatMap (· ++ ['\n'])).splitOn '\n' = lines ++ [[]] := by
  induction lines with
  | nil => rfl
  | cons line lines ih =>
    obtain ⟨hline, hlines⟩ := List.forall_mem_cons.mp h
    -- The first line feed is the one behind the first line.
    rw [List.flatMap_cons, List.append_assoc, List.singleton_append,
      List.splitOn_append_cons_self_of_not_mem hline, ih hlines, List.cons_append]

theorem Text.toList_indentation (n : Nat) :
    (String.join (List.replicate n "  ")).toList = List.replicate (2 * n) ' ' := by
  rw [String.toList_join]
  induction n with
  | zero => rfl
  | succ n ih =>
    rw [List.replicate_succ, List.flatMap_cons, ih, Nat.mul_succ]
    rfl

/-- Blanks in front of another character are counted. -/
theorem Text.eq_of_indented_eq {c : Char} (hc : c ≠ ' ') {m n : Nat} {cs ds : List Char}
    (h : List.replicate m ' ' ++ c :: cs = List.replicate n ' ' ++ c :: ds) : m = n ∧ cs = ds := by
  -- The blanks in front are what is read up to the first character that is none.
  have hblanks : ∀ k (rest : List Char),
      (List.replicate k ' ' ++ c :: rest).takeWhile (· == ' ') = List.replicate k ' ' := by
    intro k rest
    rw [List.takeWhile_append_of_pos (by simp), List.takeWhile_cons_of_neg (by simpa using hc),
      List.append_nil]
  have hcount := congrArg (List.takeWhile (· == ' ')) h
  rw [hblanks, hblanks] at hcount
  obtain rfl : m = n := by simpa using congrArg List.length hcount
  exact ⟨rfl, (List.cons.inj (List.append_cancel_left h)).2⟩

/-! ### What a line tells -/

namespace Scope

/-- The label in the line of a scope, if there is one. -/
def labelPart (s : Scope) : List Char :=
  match s.label with
  | some label => ' ' :: label.text.toList ++ [':']
  | none => []

/-- The mark in the line of a scope whose block repeats. -/
def markPart (s : Scope) : List Char := if s.iteration then " (loop)".toList else []

/-- **The line of a scope** in an outline, without its end. -/
def line (s : Scope) : List Char :=
  List.replicate (2 * s.depth) ' ' ++ '#' :: (Nat.toDigits 10 s.block.index ++
    (s.labelPart ++ s.markPart))

variable {s s' : Scope}

theorem toList_outlineLine (s : Scope) : (ScopeTree.outlineLine s).toList = s.line ++ ['\n'] := by
  have hnumber := s.block.toList_text
  have hmark : (if s.iteration then " (loop)" else "").toList = s.markPart := by
    unfold markPart
    cases s.iteration <;> rfl
  have hend : "\n".toList = ['\n'] := rfl
  unfold ScopeTree.outlineLine line labelPart
  cases s.label with
  | none =>
    simp only [String.toList_append, Text.toList_indentation, hnumber, hmark, hend,
      String.toList_empty, List.append_assoc, List.cons_append, List.nil_append]
  | some label =>
    -- The label is put together of three texts of its own.
    have hlabel : (toString " " ++ toString label.text ++ toString ":").toList =
        ' ' :: (label.text.toList ++ [':']) := by
      show (" " ++ label.text ++ ":").toList = _
      rw [String.toList_append, String.toList_append]
      rfl
    rw [String.toList_append, String.toList_append, String.toList_append, String.toList_append]
    simp only [Text.toList_indentation, hnumber, hlabel, hmark, hend, List.append_assoc,
      List.cons_append]

/-- No part of a line breaks it, if the label does not. -/
theorem oneLine_line (h : ∀ label ∈ s.label, label.OneLine) : '\n' ∉ s.line := by
  -- The number is made of digits, the label is asked for, and the rest are fixed characters.
  have hnumber : '\n' ∉ Nat.toDigits 10 s.block.index := by
    have htext := s.block.not_mem_text (show '\n' ≠ '#' by decide) (by decide)
    rw [BlockId.toList_text] at htext
    exact List.not_mem_of_not_mem_cons htext
  have hlabel : '\n' ∉ s.labelPart := by
    unfold labelPart
    split
    case h_1 label hl =>
      have htext := (h label hl).text
      simpa using htext
    case h_2 => exact List.not_mem_nil
  have hmark : '\n' ∉ s.markPart := by
    unfold markPart
    split <;> decide
  simp [line, hnumber, hlabel, hmark]

/-- Only a mark ends with a parenthesis, for a label ends with a colon. -/
theorem getLast?_remarks (s : Scope) :
    (s.labelPart ++ s.markPart).getLast? = some ')' ↔ s.iteration = true := by
  have hcolon : s.labelPart.getLast? ≠ some ')' := by
    unfold labelPart
    split
    · rw [List.getLast?_concat]
      decide
    · decide
  -- The last character is that of the mark, or else that of the label.
  rw [List.getLast?_append, markPart]
  cases s.iteration with
  | true => exact iff_of_true rfl rfl
  | false => exact iff_of_false hcolon Bool.false_ne_true

/-- The label is all between the blank and the colon. -/
theorem label_eq_of_labelPart_eq (hs : ∀ label ∈ s.label, label.Stable)
    (hs' : ∀ label ∈ s'.label, label.Stable) (h : s.labelPart = s'.labelPart) :
    s.label = s'.label := by
  unfold labelPart at h
  -- Without a label there is nothing at all, not even the blank and the colon.
  cases hl : s.label with
  | none =>
    cases hl' : s'.label with
    | none => rfl
    | some label' => simp [hl, hl'] at h
  | some label =>
    cases hl' : s'.label with
    | none => simp [hl, hl'] at h
    | some label' =>
      simp only [hl, hl'] at h
      have htext := List.append_cancel_right h
      rw [List.cons.injEq, String.toList_inj] at htext
      rw [Identifier.Stable.eq_of_text_eq (hs label hl) (hs' label' hl') htext.2]

/-- **A line tells everything of its scope,** apart from the parent, once its number is known. -/
theorem eq_of_line_eq (hblock : s.block = s'.block) (hs : ∀ label ∈ s.label, label.Stable)
    (hs' : ∀ label ∈ s'.label, label.Stable) (h : s.line = s'.line) :
    s.depth = s'.depth ∧ s.label = s'.label ∧ s.iteration = s'.iteration := by
  -- From the left: the indentation ends at the number, and the number is the same.
  obtain ⟨hdepth, hrest⟩ := Text.eq_of_indented_eq (by decide) h
  rw [hblock] at hrest
  have hremarks := List.append_cancel_left hrest
  -- From the right: a mark is there in both lines or in neither, and can be taken off.
  have hiteration : s.iteration = s'.iteration := by
    rw [Bool.eq_iff_iff, ← getLast?_remarks, ← getLast?_remarks, hremarks]
  have hmark : s.markPart = s'.markPart := by
    unfold markPart
    rw [hiteration]
  rw [hmark] at hremarks
  exact ⟨by omega, label_eq_of_labelPart_eq hs hs' (List.append_cancel_right hremarks), hiteration⟩

end Scope

/-! ### Parents by indentation -/

/-- **The line around a line.** Among lines with the given depths, the one at the place `j` is the
last before the place `i` that is less deep. -/
structure IndentedUnder (depths : List Nat) (i j : Nat) : Prop where
  lt : j < i
  less : ∃ outer inner, depths[j]? = some outer ∧ depths[i]? = some inner ∧ outer < inner
  last : ∀ k, j < k → k < i → ∀ middle ∈ depths[k]?, ∀ inner ∈ depths[i]?, inner ≤ middle

/-- The last line is one only. -/
theorem IndentedUnder.unique {depths : List Nat} {i j j' : Nat} (h : IndentedUnder depths i j)
    (h' : IndentedUnder depths i j') : j = j' := by
  obtain ⟨outer, inner, houter, hinner, hless⟩ := h.less
  obtain ⟨outer', inner', houter', hinner', hless'⟩ := h'.less
  obtain rfl : inner = inner' := Option.some.inj (hinner.symm.trans hinner')
  -- Of two different lines the later one would have to be as deep as the line itself.
  rcases Nat.lt_trichotomy j j' with hlt | heq | hgt
  · have hle := h.last j' hlt h'.lt outer' houter' inner hinner
    omega
  · exact heq
  · have hle := h'.last j hgt h.lt outer houter inner hinner
    omega

/-- What comes in pre-order between a block and one of its statements lies inside the block. -/
theorem Address.length_lt_of_between {q x : Address} {i : Nat} (hq : q < x) (hx : x < q ++ [i]) :
    q.length < x.length := by
  -- The two ways have to be the same as far as `q` goes.
  induction q generalizing x with
  | nil =>
    cases x with
    | nil => exact absurd hq (List.not_lt_nil [])
    | cons j x => exact Nat.zero_lt_succ _
  | cons n q ih =>
    cases x with
    | nil => exact absurd hq (List.not_lt_nil _)
    | cons j x =>
      rw [List.cons_lt_cons_iff] at hq
      rw [List.cons_append, List.cons_lt_cons_iff] at hx
      -- The way goes into the same statement, as it cannot go into an earlier and a later one.
      rcases hq with hlt | ⟨rfl, hq⟩
      · rcases hx with hlt' | ⟨rfl, _⟩ <;> omega
      · rcases hx with hlt | ⟨_, hx⟩
        · exact absurd hlt (Nat.lt_irrefl _)
        · exact Nat.succ_lt_succ (ih hq hx)

/-- The order of the numbers is that of the addresses. -/
theorem Block.lt_of_numberAt_lt {b : Block} {a a' : Address} (ha : (b.at? a).isSome)
    (ha' : (b.at? a').isSome) (h : b.numberAt a < b.numberAt a') : a < a' := by
  rcases lt_trichotomy a a' with hlt | rfl | hgt
  · exact hlt
  · exact absurd h (Nat.lt_irrefl _)
  · have hlt := numberAt_lt_numberAt ha' ha hgt
    omega

namespace ScopeTree

/-- The depths of the scopes, in pre-order. -/
def depths (t : ScopeTree) : List Nat := t.scopes.toList.map Scope.depth

theorem getElem?_depths_eq_some_iff {t : ScopeTree} {i d : Nat} :
    t.depths[i]? = some d ↔ ∃ scope, t.scopes[i]? = some scope ∧ scope.depth = d := by
  rw [depths, List.getElem?_map, Array.getElem?_toList, Option.map_eq_some_iff]

section

variable {stamp stamp' : Stamp} {b b' : Block} {i : Nat} {scope : Scope}

/-- A scope stands at the number of the address of a block, and tells how deep this block lies. -/
theorem exists_address (h : (build stamp b).scopes[i]? = some scope) :
    ∃ a c, b.at? a = some c ∧ b.numberAt a = i ∧ scope.depth = a.length := by
  have hlt : i < b.size := by
    rw [← size_build stamp b]
    exact (Array.getElem?_eq_some_iff.mp h).1
  obtain ⟨a, c, hc, rfl⟩ := Block.exists_numberAt_eq hlt
  obtain ⟨scope', hscope', _, hdepth⟩ := exists_scope_at? stamp hc
  obtain rfl : scope' = scope := Option.some.inj (hscope'.symm.trans h)
  exact ⟨a, c, hc, rfl, hdepth⟩

/-- The first scope has no parent. Any other one stands at the number of an address, and its parent
at the number of the address one step further out. -/
theorem parent_cases (h : (build stamp b).scopes[i]? = some scope) :
    (i = 0 ∧ scope.parent = none) ∨
      ∃ q n c, b.at? (q ++ [n]) = some c ∧ b.numberAt (q ++ [n]) = i ∧ b.numberAt q < i ∧
        scope.parent = some ((build stamp b).idAt (b.numberAt q)) ∧
        scope.depth = q.length + 1 := by
  obtain ⟨a, c, hc, rfl, _⟩ := exists_address h
  rcases List.eq_nil_or_concat' a with rfl | ⟨q, n, rfl⟩
  · rw [getElem?_scopes_nil] at h
    cases h
    exact .inl ⟨rfl, rfl⟩
  · obtain ⟨hlt, hscope⟩ := getElem?_scopes_concat stamp hc
    rw [hscope] at h
    cases h
    exact .inr ⟨q, n, c, hc, rfl, hlt, rfl, rfl⟩

/-- **The parent of a scope is told by the depths.** -/
theorem indentedUnder_of_parent (h : (build stamp b).scopes[i]? = some scope) {around : ScopeId}
    (hparent : scope.parent = some around) :
    IndentedUnder (build stamp b).depths i around.index := by
  rcases parent_cases h with ⟨_, hnone⟩ | ⟨q, n, c, hc, rfl, hlt, hsome, hdepth⟩
  · rw [hnone] at hparent
    cases hparent
  obtain rfl := Option.some.inj (hsome.symm.trans hparent)
  -- The scope at `q` is one level further out, as depths are the lengths of addresses.
  obtain ⟨container, hq, _⟩ := Block.at?_concat_eq_some_iff.mp hc
  obtain ⟨outer, houter, _, houterDepth⟩ := exists_scope_at? stamp hq
  refine ⟨hlt, ⟨outer.depth, scope.depth, ?_, ?_, ?_⟩, ?_⟩
  · exact getElem?_depths_eq_some_iff.mpr ⟨outer, houter, rfl⟩
  · exact getElem?_depths_eq_some_iff.mpr ⟨scope, h, rfl⟩
  · omega
  · intro k hjk hki d hd e he
    obtain ⟨middle, hmiddle, rfl⟩ := getElem?_depths_eq_some_iff.mp hd
    obtain ⟨scope', hscope', rfl⟩ := getElem?_depths_eq_some_iff.mp he
    obtain rfl : scope = scope' := Option.some.inj (h.symm.trans hscope')
    -- The scope between belongs to a block whose address comes between the two.
    obtain ⟨x, between, hx, rfl, hmiddleDepth⟩ := exists_address hmiddle
    have hqx := Block.lt_of_numberAt_lt (Option.isSome_of_eq_some hq)
      (Option.isSome_of_eq_some hx) hjk
    have hxa := Block.lt_of_numberAt_lt (Option.isSome_of_eq_some hx)
      (Option.isSome_of_eq_some hc) hki
    have hlength := Address.length_lt_of_between hqx hxa
    omega

/-- Where the depths are the same, so are the parents. -/
theorem parent_eq_of_depths_eq (h : (build stamp b).depths = (build stamp' b').depths)
    {s s' : Scope} (hs : (build stamp b).scopes[i]? = some s)
    (hs' : (build stamp' b').scopes[i]? = some s') :
    s.parent.map ScopeId.index = s'.parent.map ScopeId.index := by
  -- Both scopes stand in front of their tables, or neither does.
  rcases parent_cases hs with ⟨hi, hp⟩ | ⟨_, _, _, _, _, hlt, hp, _⟩
  · rcases parent_cases hs' with ⟨_, hp'⟩ | ⟨_, _, _, _, _, hlt', _, _⟩
    · rw [hp, hp']
    · omega
  · rcases parent_cases hs' with ⟨hi', _⟩ | ⟨_, _, _, _, _, _, hp', _⟩
    · omega
    · -- Both parents are the line around the same line.
      have hunder := indentedUnder_of_parent hs hp
      have hunder' := indentedUnder_of_parent hs' hp'
      rw [h] at hunder
      rw [hp, hp']
      exact congrArg some (hunder.unique hunder')

end

end ScopeTree

/-! ### Reading an outline back -/

/-- The labels of a body are read from texts, and none of them breaks a line. -/
def Block.PlainLabels (b : Block) : Prop :=
  ∀ entry ∈ b.blocks, ∀ label ∈ entry.2.label, (∃ text, label = .parse text) ∧ label.OneLine

/-- It is enough to look at the labels themselves. -/
theorem Block.plainLabels_iff {b : Block} : b.PlainLabels ↔
    ∀ entry ∈ (.root, b) :: b.statements.numbered 1,
      ∀ label ∈ entry.2.label, label.Stable ∧ '\n' ∉ label.name.toList := by
  unfold PlainLabels
  rw [blocks_eq_numbered]
  simp only [Identifier.exists_eq_parse_iff, Identifier.OneLine]

instance (b : Block) : Decidable b.PlainLabels := decidable_of_iff _ Block.plainLabels_iff.symm

/-- **What two scopes have in common if their trees have one outline.** Parents are compared by
their places, for they are names of scopes of two trees. -/
structure Scope.Alike (s s' : Scope) : Prop where
  parent_eq : s.parent.map ScopeId.index = s'.parent.map ScopeId.index
  depth_eq : s.depth = s'.depth
  label_eq : s.label = s'.label
  iteration_eq : s.iteration = s'.iteration

namespace ScopeTree

variable {stamp stamp' : Stamp} {b b' : Block}

/-- The label of a scope is that of its block. -/
theorem stable_of_plainLabels (hb : b.PlainLabels) {i : Nat} {s : Scope}
    (hs : (build stamp b).scopes[i]? = some s) :
    ∀ label ∈ s.label, label.Stable ∧ label.OneLine := by
  -- The table and the listing of the blocks say the same of labels.
  have hmem : s.summary ∈ (build stamp b).scopes.toList.map Scope.summary := by
    rw [← Array.getElem?_toList] at hs
    exact List.mem_map_of_mem (List.mem_of_getElem? hs)
  rw [map_summary_scopes_build] at hmem
  obtain ⟨⟨id, inner⟩, hentry, hsummary⟩ := List.mem_map.mp hmem
  have hlabel : inner.label = s.label := congrArg (fun summary => summary.2.1) hsummary
  intro label hl
  obtain ⟨hparse, honeLine⟩ := hb _ hentry label (hlabel.trans hl)
  exact ⟨Identifier.exists_eq_parse_iff.mp hparse, honeLine⟩

theorem toList_outline (t : ScopeTree) :
    t.outline.toList = (t.scopes.toList.map Scope.line).flatMap (· ++ ['\n']) := by
  unfold outline
  rw [String.toList_join, List.flatMap_map, List.flatMap_map]
  exact congrArg (t.scopes.toList.flatMap ·) (funext Scope.toList_outlineLine)

/-- The lines of an outline are those of the scopes. -/
theorem splitOn_outline (hb : b.PlainLabels) (stamp : Stamp) :
    (build stamp b).outline.toList.splitOn '\n' =
      (build stamp b).scopes.toList.map Scope.line ++ [[]] := by
  rw [toList_outline]
  refine Text.splitOn_ended (List.forall_mem_map.mpr fun s hs => Scope.oneLine_line ?_)
  obtain ⟨i, hi⟩ := List.getElem?_of_mem hs
  rw [Array.getElem?_toList] at hi
  intro label hlabel
  exact (stable_of_plainLabels hb hi label hlabel).2

/-- Trees with one outline have the same line at every place. -/
theorem line_eq_of_outline_eq (hb : b.PlainLabels) (hb' : b'.PlainLabels)
    (h : (build stamp b).outline = (build stamp' b').outline) (i : Nat) :
    (build stamp b).scopes[i]?.map Scope.line = (build stamp' b').scopes[i]?.map Scope.line := by
  have hsplit := splitOn_outline hb stamp
  rw [h, splitOn_outline hb' stamp'] at hsplit
  have hlines := congrArg (fun lines => lines[i]?) (List.append_cancel_right hsplit)
  simp only [List.getElem?_map, Array.getElem?_toList] at hlines
  exact hlines.symm

/-- Two scopes at one place that have the same line. -/
theorem eq_of_line_eq (hb : b.PlainLabels) (hb' : b'.PlainLabels) {i : Nat} {s s' : Scope}
    (hs : (build stamp b).scopes[i]? = some s) (hs' : (build stamp' b').scopes[i]? = some s')
    (h : s.line = s'.line) :
    s.depth = s'.depth ∧ s.label = s'.label ∧ s.iteration = s'.iteration := by
  -- The numbers agree, as both scopes stand at the same place.
  have hblock : s.block = s'.block :=
    (block_of_getElem?_scopes_build hs).trans (block_of_getElem?_scopes_build hs').symm
  refine Scope.eq_of_line_eq hblock ?_ ?_ h
  · intro label hlabel
    exact (stable_of_plainLabels hb hs label hlabel).1
  · intro label hlabel
    exact (stable_of_plainLabels hb' hs' label hlabel).1

theorem depths_eq_of_outline_eq (hb : b.PlainLabels) (hb' : b'.PlainLabels)
    (h : (build stamp b).outline = (build stamp' b').outline) :
    (build stamp b).depths = (build stamp' b').depths := by
  -- The lines at a place are both missing, or they belong to scopes of the same depth.
  refine List.ext_getElem? fun i => ?_
  have hline := line_eq_of_outline_eq hb hb' h i
  rw [depths, depths, List.getElem?_map, List.getElem?_map, Array.getElem?_toList,
    Array.getElem?_toList]
  cases hs : (build stamp b).scopes[i]? with
  | none =>
    rw [hs] at hline
    rw [Option.map_eq_none_iff.mp hline.symm]
  | some s =>
    rw [hs] at hline
    obtain ⟨s', hs', hsame⟩ := Option.map_eq_some_iff.mp hline.symm
    rw [hs']
    exact congrArg some (eq_of_line_eq hb hb' hs hs' hsame.symm).1

/-- **An outline can be read back.** If the outlines of two bodies are the same, their trees have as
many scopes, and these are alike one by one. -/
theorem alike_of_outline_eq (stamp stamp' : Stamp) {b b' : Block} (hb : b.PlainLabels)
    (hb' : b'.PlainLabels) (h : (build stamp b).outline = (build stamp' b').outline) :
    (build stamp b).size = (build stamp' b').size ∧
      ∀ (i : Nat) (s s' : Scope), (build stamp b).scopes[i]? = some s →
        (build stamp' b').scopes[i]? = some s' → s.Alike s' := by
  have hdepths := depths_eq_of_outline_eq hb hb' h
  refine ⟨?_, ?_⟩
  · have hlength := congrArg List.length hdepths
    rw [depths, depths, List.length_map, List.length_map, Array.length_toList,
      Array.length_toList] at hlength
    exact hlength
  · intro i s s' hs hs'
    have hline := line_eq_of_outline_eq hb hb' h i
    rw [hs, hs'] at hline
    obtain ⟨hdepth, hlabel, hiteration⟩ := eq_of_line_eq hb hb' hs hs' (Option.some.inj hline)
    exact ⟨parent_eq_of_depths_eq hdepths hs hs', hdepth, hlabel, hiteration⟩

/-- A body with two levels, in which a label imitates the mark of a loop. -/
def disguised : Block where
  header := { kind := .beginEnd, label := some (.parse "a") }
  statements :=
    .block { kind := .ifThen, label := some (.parse "l: (loop)") }
      (.block { kind := .loop } .nil .nil)
      (.block { kind := .loop, label := some (.parse "\"#3\"") } .nil .nil)

/-- A body with other statements and constructs, and with the same nesting and the same labels. -/
def disguised' : Block where
  header := { kind := .ifThen, label := some (.parse " a ") }
  statements :=
    .sql "select 1" none
      (.block { kind := .beginEnd, label := some (.parse "l: (loop)") }
        (.block { kind := .repeatUntil "x" } .nil .nil)
        (.block { kind := .loop, label := some (.parse "\"#3\"") }
          (.transfer .leave { target := .parse "a" } .nil) .nil))

/-- The theorem at two bodies with one outline. -/
theorem alike_of_outline_eq_disguised :
    disguised.PlainLabels ∧ disguised'.PlainLabels ∧
      (build 0 disguised).outline = (build 1 disguised').outline ∧
      (build 0 disguised).size = (build 1 disguised').size ∧
      ∀ (i : Nat) (s s' : Scope), (build 0 disguised).scopes[i]? = some s →
        (build 1 disguised').scopes[i]? = some s' → s.Alike s' := by
  have hplain : disguised.PlainLabels := by decide +kernel
  have hplain' : disguised'.PlainLabels := by decide +kernel
  have houtline : (build 0 disguised).outline = (build 1 disguised').outline := by decide +kernel
  exact ⟨hplain, hplain', houtline, alike_of_outline_eq 0 1 hplain hplain' houtline⟩

end ScopeTree

end LabelCheck
