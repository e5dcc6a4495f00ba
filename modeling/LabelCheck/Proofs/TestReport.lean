import LabelCheck.Suite.Run
import Mathlib.Data.List.Forall2

/-!
# What a test run prints

The error text of a test run, line by line: the results under the headings of their categories, the
reasons of those that failed, and in the end the counts. All of it is said of the results alone,
with one rule for each kind of line.

* `headingOf`, `Labelled`: how a category and a test are called;
* `PrintsResult`, `PrintsGroup`: the lines about a test and about a category, while tests are run;
* `PrintsReason`: the lines about a failure, after all tests have been run;
* `PrintsRun`: the whole text, which ends with the counts;
* `Summary.prints_pieces`: this is what is printed of a summary.

A line is one piece of the text. A description that breaks a line makes several lines of its piece.
-/

namespace LabelCheck.Suite

open CommandLine Files

/-! ### The lines -/

/-- A text in a colour of the terminal, by the code for it. -/
def inColor (noColor : Bool) (code text : String) : String :=
  if noColor then text else "\x1b[" ++ code ++ "m" ++ text ++ "\x1b[0m"

/-- What a run tells of a request that it warns about. -/
def missingLine (all : Categories) (name : String) : String :=
  let available := String.intercalate ", " (all.map fun group => categoryTitle group.1)
  s!"warning: category '{name}' not found (available: {available})"

/-- The heading of a category: its name, with one for that of the folder itself. -/
def headingOf (category : String) : String := if category = "" then "(root)" else category

/-- **How a test is called:** by its description, else by the name of its file without the ending of
test documents. -/
inductive Labelled (r : TestResult) : String → Prop where
  | described {text : String} (h : r.description = some text) : Labelled r text
  | named {stem : String} (h : r.description = none)
    (hname : r.path.fileName = .ofText (stem ++ ".test.toml")) : Labelled r stem
  | unnamed (h : r.description = none)
    (hname : ∀ stem : String, r.path.fileName ≠ .ofText (stem ++ ".test.toml")) : Labelled r "?"

/-- **What is printed of a result:** one line that tells whether the test passed, behind what it
logs. -/
inductive PrintsResult (noColor : Bool) (r : TestResult) : List Piece → Prop where
  | pass {label : String} (hlabel : Labelled r label) (h : r.verdict = .ok ()) :
    PrintsResult noColor r
      (r.log.map .logged ++ [.line ("  " ++ inColor noColor "32" "PASS" ++ "  " ++ label)])
  | fail {label : String} {reason : Failure} (hlabel : Labelled r label)
    (h : r.verdict = .error reason) :
    PrintsResult noColor r
      (r.log.map .logged ++ [.line ("  " ++ inColor noColor "31" "FAIL" ++ "  " ++ label)])

/-- **What is printed of a category:** an empty line, its heading and its results. A single document
has no heading. -/
inductive PrintsGroup (noColor : Bool) : Option String → List TestResult → List Piece → Prop where
  | single {results : List TestResult} {parts : List (List Piece)}
    (h : List.Forall₂ (PrintsResult noColor) results parts) :
    PrintsGroup noColor none results parts.flatten
  | headed {heading : String} {results : List TestResult} {parts : List (List Piece)}
    (h : List.Forall₂ (PrintsResult noColor) results parts) :
    PrintsGroup noColor (some heading) results
      (.line "" :: .line (inColor noColor "1" heading) :: parts.flatten)

/-- **What is printed of the reason for a failure:** an empty line, the path of the document and the
reason, indented. -/
inductive PrintsReason (noColor : Bool) (r : TestResult) : List Piece → Prop where
  | pass (h : r.verdict = .ok ()) : PrintsReason noColor r []
  | fail {reason : Failure} (h : r.verdict = .error reason) :
    PrintsReason noColor r
      (.line "" :: .line (inColor noColor "31" "failed:" ++ " " ++ r.path.shown) ::
        (Text.lines reason.message).map fun line => .line ("    " ++ line))

/-- The line with the counts. -/
def countsLine (noColor : Bool) (passed failed : Nat) : String :=
  let word := if failed = 0 then inColor noColor "32" "ok" else inColor noColor "31" "FAILED"
  s!"test result: {word}. {passed} passed, {failed} failed"

/-- **What is printed of a run** whose results stand in groups, each with its heading. Behind the
warnings come the groups in their order, then the reasons, and at the end an empty line and the
counts. -/
inductive PrintsRun (noColor : Bool) (warnings : List String)
    (groups : List (Option String × List TestResult)) : List Piece → Prop where
  | intro {results : List TestResult} {parts reasons : List (List Piece)} {passed failed : Nat}
    (hresults : results = groups.flatMap Prod.snd)
    (hparts : List.Forall₂ (fun g => PrintsGroup noColor g.1 g.2) groups parts)
    (hreasons : List.Forall₂ (PrintsReason noColor) results reasons)
    (hpassed : passed = results.countP fun r => r.verdict.isOk)
    (hfailed : failed = results.countP fun r => !r.verdict.isOk)
    (hall : passed + failed = results.length) :
    PrintsRun noColor warnings groups
      (warnings.map .line ++ parts.flatten ++ reasons.flatten ++
        [.line "", .line (countsLine noColor passed failed)])

/-! ### What is printed of a summary -/

theorem categoryTitle_eq (category : String) : categoryTitle category = headingOf category := by
  unfold categoryTitle headingOf
  simp only [String.isEmpty_iff]

theorem inColor_eq_paint (noColor : Bool) (code text : String) :
    inColor noColor code text = paint noColor code text := rfl

theorem TestResult.passes_eq_isOk (r : TestResult) : r.passes = r.verdict.isOk := by
  unfold passes
  cases r.verdict with
  | error _ => rfl
  | ok _ => rfl

/-- A name ends as a test document does just if something stands in front of the ending. -/
theorem isSuffixOf_testEnding_iff {name : String} :
    testEnding.toList.isSuffixOf name.toList = true ↔ ∃ stem, name = stem ++ ".test.toml" := by
  rw [List.isSuffixOf_iff_suffix]
  constructor
  · rintro ⟨stem, hstem⟩
    refine ⟨String.ofList stem, String.toList_injective ?_⟩
    rw [String.toList_append, String.toList_ofList]
    exact hstem.symm
  · rintro ⟨stem, rfl⟩
    exact ⟨stem.toList, (String.toList_append ..).symm⟩

theorem labelled_label (r : TestResult) : Labelled r r.label := by
  unfold TestResult.label
  cases hdescription : r.description with
  | some text => exact .described hdescription
  | none =>
    cases hname : r.path.fileName.text? with
    | none =>
      refine .unnamed hdescription fun stem hstem => ?_
      rw [hstem, RawText.text?_ofText] at hname
      cases hname
    | some name =>
      have hfile := RawText.text?_eq_some_iff.mp hname
      by_cases hending : testEnding.toList.isSuffixOf name.toList = true
      · obtain ⟨stem, rfl⟩ := isSuffixOf_testEnding_iff.mp hending
        have hstem : String.ofList ((stem ++ ".test.toml").toList.take
            ((stem ++ ".test.toml").length - testEnding.length)) = stem := by
          have hlength :
              (stem ++ ".test.toml").length - testEnding.length = stem.toList.length := by
            rw [String.length_append, String.length_toList]
            exact Nat.add_sub_cancel ..
          rw [hlength, String.toList_append, List.take_left, String.ofList_toList]
        simp only [if_pos hending, hstem]
        exact .named hdescription hfile
      · simp only [if_neg hending]
        refine .unnamed hdescription fun stem hstem => hending ?_
        rw [hfile] at hstem
        exact isSuffixOf_testEnding_iff.mpr ⟨stem, RawText.ofText_injective hstem⟩

theorem TestResult.prints_pieces (noColor : Bool) (r : TestResult) :
    PrintsResult noColor r (r.pieces noColor) := by
  cases hverdict : r.verdict with
  | ok =>
    have hline : r.line noColor = "  " ++ inColor noColor "32" "PASS" ++ "  " ++ r.label := by
      rw [line, passes, hverdict]
      rfl
    rw [pieces, hline]
    exact .pass (labelled_label r) hverdict
  | error reason =>
    have hline : r.line noColor = "  " ++ inColor noColor "31" "FAIL" ++ "  " ++ r.label := by
      rw [line, passes, hverdict]
      rfl
    rw [pieces, hline]
    exact .fail (labelled_label r) hverdict

theorem GroupResult.prints_pieces (noColor : Bool) (g : GroupResult) :
    PrintsGroup noColor g.heading g.results (g.pieces noColor) := by
  have hresults : List.Forall₂ (PrintsResult noColor) g.results
      (g.results.map (TestResult.pieces noColor)) := by
    rw [List.forall₂_map_right_iff, List.forall₂_same]
    exact fun r _ => r.prints_pieces noColor
  obtain ⟨heading, results⟩ := g
  cases heading with
  | none => exact .single hresults
  | some heading => exact .headed hresults

theorem TestResult.prints_details (noColor : Bool) (r : TestResult) :
    PrintsReason noColor r ((r.details noColor).map .line) := by
  cases hverdict : r.verdict with
  | ok =>
    rw [details, hverdict]
    exact .pass hverdict
  | error reason =>
    have hdetails : (r.details noColor).map Piece.line =
        .line "" :: .line (inColor noColor "31" "failed:" ++ " " ++ r.path.shown) ::
          (Text.lines reason.message).map fun line => .line ("    " ++ line) := by
      rw [details, hverdict]
      simp only [List.cons_append, List.nil_append, List.map_cons, List.map_map]
      rfl
    rw [hdetails]
    exact .fail hverdict

namespace Summary

/-- A result that passed has no details, so that those of the failures are those of all results. -/
theorem flatMap_details_failures (noColor : Bool) (s : Summary) :
    s.failures.flatMap (·.details noColor) = s.results.flatMap (·.details noColor) := by
  rw [failures]
  induction s.results with
  | nil => rfl
  | cons r results ih =>
    rw [List.flatMap_cons, ← ih]
    cases hverdict : r.verdict with
    | ok =>
      have hdetails : r.details noColor = [] := by rw [TestResult.details, hverdict]
      rw [List.filter_cons_of_neg (by simp [TestResult.passes, hverdict]), hdetails,
        List.nil_append]
    | error _ =>
      rw [List.filter_cons_of_pos (by simp [TestResult.passes, hverdict]), List.flatMap_cons]

theorem failed_eq_countP (s : Summary) :
    s.failed = s.results.countP fun r => !r.verdict.isOk := by
  rw [failed, failures, ← List.countP_eq_length_filter]
  simp only [TestResult.passes_eq_isOk]

theorem passed_eq_countP (s : Summary) : s.passed = s.results.countP fun r => r.verdict.isOk := by
  rw [passed, ← List.countP_eq_length_filter]
  simp only [TestResult.passes_eq_isOk]

/-- Every result is counted once. -/
theorem passed_add_failed (s : Summary) : s.passed + s.failed = s.results.length := by
  have hsplit := List.length_eq_countP_add_countP TestResult.passes (l := s.results)
  simp only [Bool.not_eq_true, Bool.decide_eq_false] at hsplit
  rw [passed, failed, failures, ← List.countP_eq_length_filter, ← List.countP_eq_length_filter]
  exact hsplit.symm

theorem closing_eq (noColor : Bool) (s : Summary) :
    s.closing noColor = countsLine noColor s.passed s.failed := by
  unfold closing countsLine
  simp only [inColor_eq_paint, beq_iff_eq]

/-- **What is printed of a summary** are the lines of its results. -/
theorem prints_pieces (noColor : Bool) (warnings : List String) (s : Summary) :
    PrintsRun noColor warnings (s.groups.map fun g => (g.heading, g.results))
      (warnings.map .line ++ s.pieces noColor) := by
  have hresults : s.results = (s.groups.map fun g => (g.heading, g.results)).flatMap Prod.snd := by
    rw [List.flatMap_map]
    rfl
  have hpieces : warnings.map .line ++ s.pieces noColor =
      warnings.map .line ++ (s.groups.map (·.pieces noColor)).flatten ++
        (s.results.map fun r => (r.details noColor).map .line).flatten ++
        [.line "", .line (countsLine noColor s.passed s.failed)] := by
    rw [pieces, flatMap_details_failures, closing_eq, List.map_append, List.map_flatMap]
    simp only [← List.flatMap_def, List.append_assoc, List.map_cons, List.map_nil]
  rw [hpieces]
  refine .intro hresults ?_ ?_ s.passed_eq_countP s.failed_eq_countP s.passed_add_failed
  · rw [List.forall₂_map_left_iff, List.forall₂_map_right_iff, List.forall₂_same]
    exact fun g _ => g.prints_pieces noColor
  · rw [List.forall₂_map_right_iff, List.forall₂_same]
    exact fun r _ => r.prints_details noColor

end Summary

end LabelCheck.Suite
