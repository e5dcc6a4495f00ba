import LabelCheck.CommandLine.Check
import LabelCheck.Proofs.Renaming

/-!
# Head lines

What a check writes about its diagnostics is a text, and a reader finds the diagnostics in it by
their head lines, which open with a severity. This module says which lines of a text these are. The
codes that colour a line have no part in how it opens, but they may stand in the middle of its
severity, so that lines are taken as they are seen: without the codes, if colours are in use.

* `seen`: a line without its colour codes;
* `headLines`, `Whole`: the head lines of a text, and texts that end their last line;
* `Diagnostic.head`: the head line of a diagnostic;
* `Block.oneLine_of_mem_lexicalDiagnostics`: diagnostics break no line if the identifiers do not.
-/

namespace LabelCheck

namespace CommandLine

/-! ### Colours -/

/-- Whether a character goes on with a colour code of which `held` has been read: an escape, an
opening bracket, numbers and semicolons. -/
def continuesCode : (held : List Char) → Char → Bool
  | [], c => c = '\x1b'
  | [_], c => c = '['
  | _, c => c.isDigit || c = ';'

/-- A line without its colour codes, which end with an `m`. What has been read of a code is held
back, and stands if it comes to nothing. -/
def dropCodes (held : List Char) : List Char → List Char
  | [] => held
  | c :: cs =>
    if continuesCode held c then dropCodes (held ++ [c]) cs
    else if 2 ≤ held.length ∧ c = 'm' then dropCodes [] cs
    else if c = '\x1b' then held ++ dropCodes [c] cs
    else held ++ c :: dropCodes [] cs

/-- A line as it is seen. -/
def seenLine (noColor : Bool) (line : List Char) : List Char :=
  if noColor then line else dropCodes [] line

/-- A line as it is seen. -/
def seen (noColor : Bool) (line : String) : String := .ofList (seenLine noColor line.toList)

/-- Without an escape no code begins. -/
theorem dropCodes_cons {c : Char} (hc : c ≠ '\x1b') (cs : List Char) :
    dropCodes [] (c :: cs) = c :: dropCodes [] cs := by
  have hcode : continuesCode [] c = false := decide_eq_false hc
  have hlength : ¬ (2 ≤ ([] : List Char).length ∧ c = 'm') := fun h => absurd h.1 (by decide)
  rw [dropCodes, hcode, if_neg Bool.false_ne_true, if_neg hlength, if_neg hc, List.nil_append]

theorem dropCodes_append {s : List Char} (hs : '\x1b' ∉ s) (t : List Char) :
    dropCodes [] (s ++ t) = s ++ dropCodes [] t := by
  induction s with
  | nil => rfl
  | cons c s ih =>
    obtain ⟨hc, hs⟩ := not_or.mp (mt List.mem_cons.mpr hs)
    rw [List.cons_append, dropCodes_cons (Ne.symm hc), ih hs, List.cons_append]

theorem seenLine_append {s : List Char} (hs : '\x1b' ∉ s) (noColor : Bool) (t : List Char) :
    seenLine noColor (s ++ t) = s ++ seenLine noColor t := by
  cases noColor with
  | true => rfl
  | false => exact dropCodes_append hs t

@[simp] theorem seenLine_nil (noColor : Bool) : seenLine noColor [] = [] := by
  cases noColor <;> rfl

/-! ### Lines of a text -/

/-- Whether a line opens as the head of a diagnostic or the end of a check does. -/
def isHead (line : List Char) : Bool :=
  "error: ".toList.isPrefixOf line || "warning: ".toList.isPrefixOf line ||
    "ok: ".toList.isPrefixOf line

/-- The lines of a text that open as heads, as they are seen and without their line feeds. -/
def headLines (noColor : Bool) (text : String) : List String :=
  (((text.toList.splitOn '\n').map (seenLine noColor)).filter isHead).map String.ofList

/-- A text of whole lines: the last one ends with a line feed as well. -/
def Whole (text : String) : Prop := text = "" ∨ ∃ t, text = t ++ "\n"

theorem whole_line (t : String) : Whole (t ++ "\n") := .inr ⟨t, rfl⟩

theorem Whole.append {s t : String} (hs : Whole s) (ht : Whole t) : Whole (s ++ t) := by
  rcases ht with rfl | ⟨t, rfl⟩
  · rwa [String.append_empty]
  · exact .inr ⟨s ++ t, String.append_assoc.symm⟩

theorem whole_join {texts : List String} (h : ∀ t ∈ texts, Whole t) :
    Whole (String.join texts) := by
  induction texts with
  | nil => exact .inl String.join_nil
  | cons t texts ih =>
    obtain ⟨ht, htexts⟩ := List.forall_mem_cons.mp h
    rw [String.join_cons]
    exact ht.append (ih htexts)

theorem whole_unlines (lines : List String) : Whole (unlines lines) := by
  refine whole_join fun t ht => ?_
  obtain ⟨line, _, rfl⟩ := List.mem_map.mp ht
  exact whole_line line

section HeadLines

variable (noColor : Bool)

@[simp] theorem headLines_empty : headLines noColor "" = [] := by cases noColor <;> decide

/-- Behind whole lines a new line begins. -/
theorem headLines_append {s : String} (hs : Whole s) (t : String) :
    headLines noColor (s ++ t) = headLines noColor s ++ headLines noColor t := by
  rcases hs with rfl | ⟨s, rfl⟩
  · rw [headLines_empty, String.empty_append, List.nil_append]
  · -- The line feed ends a line of the first text, with an empty one behind it that is no head.
    have hlines : (s ++ "\n" ++ t).toList.splitOn '\n' =
        s.toList.splitOn '\n' ++ t.toList.splitOn '\n' := by
      rw [String.toList_append, String.toList_append, List.append_assoc]
      exact List.splitOn_append_cons_self _ _
    have hfirst : (s ++ "\n").toList.splitOn '\n' = s.toList.splitOn '\n' ++ [[]] := by
      rw [String.toList_append]
      exact List.splitOn_append_cons_self _ _
    have hempty : isHead [] = false := by decide
    unfold headLines
    rw [hlines, hfirst]
    simp [hempty]

theorem headLines_join {texts : List String} (h : ∀ t ∈ texts, Whole t) :
    headLines noColor (String.join texts) = texts.flatMap (headLines noColor) := by
  induction texts with
  | nil => rw [String.join_nil, headLines_empty, List.flatMap_nil]
  | cons t texts ih =>
    obtain ⟨ht, htexts⟩ := List.forall_mem_cons.mp h
    rw [String.join_cons, headLines_append noColor ht, ih htexts, List.flatMap_cons]

/-- A line is its own only line. -/
theorem headLines_line {line : String} (h : '\n' ∉ line.toList) :
    headLines noColor (line ++ "\n") =
      if isHead (seenLine noColor line.toList) then [seen noColor line] else [] := by
  have hlines : (line ++ "\n").toList.splitOn '\n' = [line.toList, []] := by
    rw [String.toList_append]
    exact List.splitOn_append_cons_self_of_not_mem h []
  have hempty : isHead [] = false := by decide
  unfold headLines seen
  rw [hlines]
  by_cases hhead : isHead (seenLine noColor line.toList) = true
  · simp [hhead, hempty]
  · simp [hhead, hempty]

theorem headLines_unlines {lines : List String} (h : ∀ line ∈ lines, '\n' ∉ line.toList) :
    headLines noColor (unlines lines) =
      (lines.filter fun line => isHead (seenLine noColor line.toList)).map (seen noColor) := by
  have hwhole : ∀ t ∈ lines.map (· ++ "\n"), Whole t := by
    intro t ht
    obtain ⟨line, _, rfl⟩ := List.mem_map.mp ht
    exact whole_line line
  rw [unlines, headLines_join noColor hwhole]
  clear hwhole
  induction lines with
  | nil => rfl
  | cons line lines ih =>
    obtain ⟨hline, hlines⟩ := List.forall_mem_cons.mp h
    rw [List.map_cons, List.flatMap_cons, headLines_line noColor hline, ih hlines,
      List.filter_cons]
    by_cases hhead : isHead (seenLine noColor line.toList) = true
    · rw [if_pos hhead, if_pos hhead, List.map_cons, List.singleton_append]
    · rw [if_neg hhead, if_neg hhead, List.nil_append]

/-- What a line opens with is seen, if it has no escape. -/
theorem isHead_seenLine_append {opening : List Char} (hopening : '\x1b' ∉ opening)
    (hhead : isHead opening = true) (rest : List Char) :
    isHead (seenLine noColor (opening ++ rest)) = true := by
  rw [seenLine_append hopening]
  have hmono {opened : List Char} (h : opened.isPrefixOf opening = true) :
      opened.isPrefixOf (opening ++ seenLine noColor rest) = true :=
    List.isPrefixOf_iff_prefix.mpr
      ((List.isPrefixOf_iff_prefix.mp h).trans (List.prefix_append _ _))
  simp only [isHead, Bool.or_eq_true] at hhead ⊢
  exact hhead.imp (Or.imp hmono hmono) hmono

/-- A line that opens with a blank is no head. -/
theorem isHead_seenLine_blank (rest : List Char) :
    isHead (seenLine noColor (' ' :: rest)) = false := by
  rw [← List.singleton_append, seenLine_append (by decide)]
  rfl

end HeadLines

end CommandLine

/-! ### Texts of one line -/

/-- The name of the identifier breaks no line. -/
def Identifier.OneLine (i : Identifier) : Prop := '\n' ∉ i.name.toList

instance (i : Identifier) : Decidable i.OneLine :=
  inferInstanceAs (Decidable ('\n' ∉ i.name.toList))

/-- Nothing that a report has to say breaks a line. -/
structure Report.OneLine (r : Report) : Prop where
  message : '\n' ∉ r.message.toList
  notes : ∀ note ∈ r.notes, '\n' ∉ note.toList
  marks : ∀ mark ∈ r.marks, '\n' ∉ mark.message.toList

theorem Text.mem_double {c : Char} {cs : List Char} (h : c ∈ Text.double cs) : c ∈ cs := by
  induction cs with
  | nil => exact h
  | cons d rest ih =>
    rw [Text.double_cons] at h
    by_cases hd : d = '"'
    · rw [if_pos hd] at h
      rcases List.mem_cons.mp h with rfl | h
      · exact List.mem_cons.mpr (.inl hd.symm)
      · rcases List.mem_cons.mp h with rfl | h
        · exact List.mem_cons.mpr (.inl hd.symm)
        · exact List.mem_cons_of_mem _ (ih h)
    · rw [if_neg hd] at h
      rcases List.mem_cons.mp h with rfl | h
      · exact List.mem_cons_self
      · exact List.mem_cons_of_mem _ (ih h)

/-- Delimiters are quotes, so that the written form breaks no line either. -/
theorem Identifier.OneLine.text {i : Identifier} (h : i.OneLine) : '\n' ∉ i.text.toList := by
  obtain ⟨name, quoted⟩ := i
  cases quoted with
  | false => exact h
  | true =>
    show '\n' ∉ (String.ofList ('"' :: Text.double name.toList ++ ['"'])).toList
    rw [String.toList_ofList]
    intro hmem
    rcases List.mem_append.mp hmem with hmem | hmem
    · rcases List.mem_cons.mp hmem with hmem | hmem
      · exact absurd hmem (by decide)
      · exact h (Text.mem_double hmem)
    · exact absurd (List.mem_singleton.mp hmem) (by decide)

theorem Construct.oneLine_describe (c : Construct) : '\n' ∉ c.describe.toList := by
  cases c <;> decide

theorem TransferKind.oneLine_text (k : TransferKind) : '\n' ∉ k.text.toList := by
  cases k <;> decide

/-- The identifiers that a problem is about. -/
def Problem.identifiers : Problem → List Identifier
  | unresolvedLabel _ label => [label]
  | labelMismatch start stop => start.toList ++ [stop]
  | iterateTargetNotIteration label _ => [label]
  | labelNotAllowed label _ => [label]

theorem Problem.oneLine_message {problem : Problem} (h : ∀ i ∈ problem.identifiers, i.OneLine) :
    '\n' ∉ problem.message.toList := by
  cases problem with
  | unresolvedLabel statement label =>
    have hlabel := (h label List.mem_cons_self).text
    show '\n' ∉ ("label '" ++ label.text ++ "' not found for " ++ statement.text).toList
    simp only [String.toList_append, List.mem_append, not_or]
    exact ⟨⟨⟨by decide, hlabel⟩, by decide⟩, statement.oneLine_text⟩
  | labelMismatch start stop =>
    have hstop := (h stop (List.mem_append_right _ List.mem_cons_self)).text
    cases start with
    | none =>
      show '\n' ∉ ("end label '" ++ stop.text ++ "' does not match an unlabeled block").toList
      simp only [String.toList_append, List.mem_append, not_or]
      exact ⟨⟨by decide, hstop⟩, by decide⟩
    | some start =>
      have hstart := (h start List.mem_cons_self).text
      show '\n' ∉ ("end label '" ++ stop.text ++ "' does not match start label '" ++ start.text ++
        "'").toList
      simp only [String.toList_append, List.mem_append, not_or]
      exact ⟨⟨⟨⟨by decide, hstop⟩, by decide⟩, hstart⟩, by decide⟩
  | iterateTargetNotIteration label block =>
    have hlabel := (h label List.mem_cons_self).text
    show '\n' ∉ ("ITERATE label '" ++ label.text ++ "' names a " ++ block.describe ++
      ", not an iteration statement").toList
    simp only [String.toList_append, List.mem_append, not_or]
    exact ⟨⟨⟨⟨by decide, hlabel⟩, by decide⟩, block.oneLine_describe⟩, by decide⟩
  | labelNotAllowed label block =>
    have hlabel := (h label List.mem_cons_self).text
    show '\n' ∉ ("label '" ++ label.text ++ "' is not allowed on " ++ block.describe).toList
    simp only [String.toList_append, List.mem_append, not_or]
    exact ⟨⟨⟨by decide, hlabel⟩, by decide⟩, block.oneLine_describe⟩

/-! ### Diagnostics of one line -/

namespace Diagnostic

variable {sourceId : Nat} {d : Diagnostic}

/-- A diagnostic breaks no line if its problem, its notes and its related places do not. -/
theorem oneLine_report (hproblem : ∀ i ∈ d.problem.identifiers, i.OneLine)
    (hnotes : ∀ note ∈ d.notes, '\n' ∉ note.toList)
    (hsecondary : ∀ place ∈ d.secondary, '\n' ∉ place.2.toList) : d.report.OneLine := by
  refine ⟨Problem.oneLine_message hproblem, hnotes, ?_⟩
  intro mark hmark
  rcases List.mem_append.mp hmark with hmark | hmark
  · obtain ⟨span, _, rfl⟩ := List.mem_map.mp hmark
    exact List.not_mem_nil
  · obtain ⟨place, hplace, rfl⟩ := List.mem_map.mp hmark
    exact hsecondary place hplace

theorem oneLine_of_mem_labelDiagnostics {h : Header} (hids : ∀ i ∈ h.identifiers, i.OneLine)
    (hd : d ∈ h.labelDiagnostics sourceId) : d.report.OneLine := by
  obtain ⟨label, hlabel, _, rfl⟩ := Header.mem_labelDiagnostics_iff.mp hd
  refine oneLine_report ?_ nofun nofun
  intro i hi
  rw [List.mem_singleton.mp hi]
  exact hids label (Header.mem_identifiers_of_label hlabel)

theorem oneLine_of_mem_endLabelDiagnostics {m : NameMatcher} {h : Header}
    (hids : ∀ i ∈ h.identifiers, i.OneLine) (hd : d ∈ h.endLabelDiagnostics m sourceId) :
    d.report.OneLine := by
  obtain ⟨stop, hstop, _, rfl⟩ := Header.mem_endLabelDiagnostics_iff.mp hd
  refine oneLine_report ?_ nofun nofun
  intro i hi
  refine hids i ?_
  rcases List.mem_append.mp hi with hi | hi
  · exact List.mem_append_left _ hi
  · rw [List.mem_singleton.mp hi]
    exact Header.mem_identifiers_of_endLabel hstop

theorem oneLine_of_mem_transferDiagnostics {c : Config} {around : List Header}
    {kind : TransferKind} {r : LabelReference} (htarget : r.target.OneLine)
    (hd : d ∈ transferDiagnostics c sourceId around kind r) : d.report.OneLine := by
  have hids : ∀ i ∈ [r.target], i.OneLine := by
    intro i hi
    rwa [List.mem_singleton.mp hi]
  rcases mem_transferDiagnostics_iff.mp hd with ⟨_, hd⟩ | ⟨h, _, _, hd⟩
  · obtain ⟨_, rfl⟩ := UnresolvedPolicy.mem_diagnostics_iff.mp hd
    exact oneLine_report hids nofun nofun
  · -- The note is a fixed text, and the related place names a kind of block.
    obtain ⟨_, rfl⟩ := Header.mem_iterateDiagnostics_iff.mp hd
    refine oneLine_report hids ?_ ?_
    · intro note hnote
      rw [List.mem_singleton.mp hnote]
      decide
    · intro place hplace
      obtain ⟨span, _, rfl⟩ := List.mem_map.mp hplace
      show '\n' ∉ ("label declared by this " ++ h.kind.construct.describe).toList
      rw [String.toList_append, List.mem_append, not_or]
      exact ⟨by decide, h.kind.construct.oneLine_describe⟩

end Diagnostic

theorem Statements.oneLine_of_mem_lexicalDiagnostics {c : Config} {sourceId : Nat}
    {around : List Header} {s : Statements} (hids : ∀ i ∈ s.identifiers, i.OneLine)
    {d : Diagnostic} (hd : d ∈ s.lexicalDiagnostics c sourceId around) : d.report.OneLine := by
  induction s generalizing around with
  | nil => cases hd
  | sql _ _ rest ih => exact ih hids hd
  | transfer kind r rest ih =>
    obtain ⟨htarget, hrest⟩ := List.forall_mem_cons.mp hids
    rcases List.mem_append.mp hd with hd | hd
    · exact Diagnostic.oneLine_of_mem_transferDiagnostics htarget hd
    · exact ih hrest hd
  | block header inner rest ihInner ihRest =>
    obtain ⟨hheader, hids⟩ := List.forall_mem_append.mp hids
    obtain ⟨hinner, hrest⟩ := List.forall_mem_append.mp hids
    -- Before, inside, behind, and in the rest.
    simp only [lexicalDiagnostics, List.mem_append] at hd
    rcases hd with ((hd | hd) | hd) | hd
    · exact Diagnostic.oneLine_of_mem_labelDiagnostics hheader hd
    · exact ihInner hinner hd
    · exact Diagnostic.oneLine_of_mem_endLabelDiagnostics hheader hd
    · exact ihRest hrest hd

/-- **The diagnostics of a body break no line** if its identifiers do not. -/
theorem Block.oneLine_of_mem_lexicalDiagnostics {c : Config} {sourceId : Nat} {b : Block}
    (hids : ∀ i ∈ b.identifiers, i.OneLine) {d : Diagnostic}
    (hd : d ∈ b.lexicalDiagnostics c sourceId) : d.report.OneLine := by
  obtain ⟨hheader, hstatements⟩ := List.forall_mem_append.mp hids
  simp only [lexicalDiagnostics, List.mem_append] at hd
  rcases hd with (hd | hd) | hd
  · exact Diagnostic.oneLine_of_mem_labelDiagnostics hheader hd
  · exact Statements.oneLine_of_mem_lexicalDiagnostics hstatements hd
  · exact Diagnostic.oneLine_of_mem_endLabelDiagnostics hheader hd

/-- The head line of a diagnostic: its message with its severity. -/
def Diagnostic.head (d : Diagnostic) : String := s!"{d.severity}: {d.message}"

end LabelCheck
