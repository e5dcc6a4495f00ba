import LabelCheck.CommandLine.Run
import LabelCheck.Proofs.CommandLines
import LabelCheck.Proofs.Grouping
import LabelCheck.Proofs.TestReport

/-!
# What a test run does

A test run asks whether its path is a file, lists what is below it if it is none, and then runs
documents one after the other. What it prints depends on their results alone. The law is an equation
between programs, so that it says what is run as well as what comes out, and it holds wherever files
are reached in a lawful monad.

* `shareOut`, `pairOut`: the results of the documents, group by group;
* `runTests_eq`: a run is one pass over the documents of all groups;
* `PrintsFolder`: what has to be printed of a run below a folder;
* `Concludes`: what a run has to leave behind, and with which code it has to end;
* `CommandLine.runWith_test`: what a command line that asks for a test run does.
-/

namespace LabelCheck.Suite

open CommandLine Files

/-! ### One pass over all groups -/

/-- Hand out results to groups, to each as many as it has documents. -/
def shareOut : List Group → List TestResult → List GroupResult
  | [], _ => []
  | g :: groups, results =>
    ⟨g.heading, results.take g.paths.length⟩ :: shareOut groups (results.drop g.paths.length)

theorem length_take_of_eq_add {α : Type} {l : List α} {m n : Nat} (h : l.length = m + n) :
    (l.take m).length = m :=
  List.length_take_of_le (h ▸ Nat.le_add_right m n)

theorem length_drop_of_eq_add {α : Type} {l : List α} {m n : Nat} (h : l.length = m + n) :
    (l.drop m).length = n := by
  rw [List.length_drop, h, Nat.add_sub_cancel_left]

/-- All of the results are handed out. -/
theorem flatMap_shareOut {groups : List Group} {results : List TestResult}
    (h : results.length = (groups.flatMap (·.paths)).length) :
    (shareOut groups results).flatMap (·.results) = results := by
  induction groups generalizing results with
  | nil => exact (List.eq_nil_of_length_eq_zero h).symm
  | cons g groups ih =>
    rw [List.flatMap_cons, List.length_append] at h
    rw [shareOut, List.flatMap_cons, ih (length_drop_of_eq_add h)]
    exact List.take_append_drop _ _

section

variable {m : Type → Type} [Monad m] [LawfulMonad m]

/-- A pass over two lists is a pass over the first and then one over the second. How many results
either of them gives is known only to what comes after the pass, hence the continuation `k`. -/
theorem mapM_append_bind {α β γ : Type} (f : α → m β) (xs ys : List α)
    (k : List β → List β → m γ) :
    ((xs ++ ys).mapM f >>= fun results => k (results.take xs.length) (results.drop xs.length)) =
      xs.mapM f >>= fun first => ys.mapM f >>= fun second => k first second := by
  induction xs generalizing k with
  | nil => simp
  | cons x xs ih =>
    simp only [List.cons_append, List.mapM_cons, bind_assoc, pure_bind, List.length_cons,
      List.take_succ_cons, List.drop_succ_cons]
    refine bind_congr fun result => ?_
    -- The result of the first element is handed on to what comes after.
    exact ih fun first second => k (result :: first) second

/-- **Running groups is running their documents one after the other.** -/
theorem mapM_run (files : Access m) (groups : List Group) :
    groups.mapM (·.run files) =
      shareOut groups <$> (groups.flatMap (·.paths)).mapM (runFile files) := by
  induction groups with
  | nil => simp [shareOut]
  | cons g groups ih =>
    rw [List.mapM_cons, ih, List.flatMap_cons]
    simp only [Group.run, shareOut, map_eq_pure_bind, bind_assoc, pure_bind]
    exact (mapM_append_bind (runFile files) g.paths (groups.flatMap (·.paths))
      fun first second => pure (⟨g.heading, first⟩ :: shareOut groups second)).symm

end

/-! ### What is run, and what is told of it -/

/-- The groups of a run and its warnings; there are none if nothing was found. -/
abbrev Plan := Option (List Group × List String)

/-- The documents of a plan. -/
def Plan.paths : Plan → List Path
  | none => []
  | some (groups, _) => groups.flatMap (·.paths)

/-- The plan for a file. -/
def filePlan (path : Path) : Plan := some ([⟨none, [path]⟩], [])

/-- The documents of a category below the folder at a path. -/
def groupOf (path : Path) (group : String × List (List Name)) : Group where
  heading := some (categoryTitle group.1)
  paths := group.2.map (·.foldl Path.join path)

theorem flatMap_paths_groupOf (path : Path) (c : Categories) :
    (c.map (groupOf path)).flatMap (·.paths) =
      (c.flatMap Prod.snd).map fun names => names.foldl Path.join path := by
  rw [List.flatMap_map, List.map_flatMap]
  rfl

/-- The plan for what is below a folder. -/
def folderPlan (path : Path) (requests : List String) (folder : Folder Unit) : Plan :=
  let all := discover folder
  if all.isEmpty then none
  else
    let chosen := select all requests
    some (chosen.1.map (groupOf path), chosen.2.map (missingLine all))

/-- What a run with a plan writes, given the results of its documents. -/
def Plan.transcript (noColor : Bool) (path : Path) (results : List TestResult) : Plan → Transcript
  | none => { exit := 1, stderr := [.line s!"no .test.toml files found in {path}"] }
  | some ([], warnings) =>
    { exit := 1, stderr := (warnings ++ ["none of the requested categories exist"]).map .line }
  | some (groups, warnings) =>
    let summary : Summary := ⟨shareOut groups results⟩
    { exit := summary.exit, stderr := warnings.map .line ++ summary.pieces noColor }

/-- The documents of the plan for a folder are those of the run on it, in its order. -/
theorem paths_folderPlan (path : Path) (requests : List String) (folder : Folder Unit) :
    (folderPlan path requests folder).paths =
      (runOrder folder requests).map fun names => names.foldl Path.join path := by
  rw [folderPlan]
  split
  · next hempty =>
    have hnil : (select (discover folder) requests).1 = [] := by
      rw [fst_select, List.isEmpty_iff.mp hempty, List.filter_nil]
    rw [runOrder_eq_nil_iff.mpr hnil]
    rfl
  · exact flatMap_paths_groupOf path _

/-- The groups at a path are those of its plan. -/
theorem groupsAt_eq {m : Type → Type} [Monad m] (files : Access m) (path : Path)
    (requests : List String) :
    groupsAt files path requests = (do
      if ← files.isFile path then return filePlan path
      return folderPlan path requests (← files.list path)) := by
  unfold groupsAt
  refine bind_congr fun isFile => ?_
  cases isFile with
  | true => rfl
  | false =>
    simp only [Bool.false_eq_true, if_false]
    refine bind_congr fun folder => ?_
    rw [folderPlan]
    split
    · rfl
    · rfl

/-- **A run is one pass over the documents of its plan.** -/
theorem runTests_eq {m : Type → Type} [Monad m] [LawfulMonad m] (files : Access m)
    (noColor : Bool) (path : Path) (requests : List String) :
    runTests files noColor path requests = (do
      let plan ← groupsAt files path requests
      let results ← (Plan.paths plan).mapM (runFile files)
      return Plan.transcript noColor path results plan) := by
  unfold runTests
  refine bind_congr fun plan => ?_
  match plan with
  | none => simp [Plan.paths, Plan.transcript]
  | some ([], warnings) => simp [Plan.paths, Plan.transcript]
  | some (g :: groups, warnings) =>
    simp only [Plan.paths, Plan.transcript]
    rw [mapM_run, bind_map_left]

/-! ### What is told of the results -/

/-- **The end of a run,** given the results of all that was run and what has to be printed. -/
structure Concludes (log : Logger) (manner : Manner) (results : List TestResult)
    (prints : List Piece → Prop) (out : Output) : Prop where
  /-- The code is 0 only if something was run and all of it passed. -/
  exit_eq : out.exit = if results ≠ [] ∧ ∀ r ∈ results, r.verdict.isOk = true then 0 else 1
  stdout_eq : out.stdout = ""
  stderr_eq : ∃ pieces, prints pieces ∧ out.stderr = written log manner pieces

/-- The lines about the requests that a run warns about. -/
def warningLines (folder : Folder Unit) (requests : List String) : List String :=
  (select (discover folder) requests).2.map (missingLine (discover folder))

/-- **What is printed of a run below a folder,** given the documents in their order and their
results. If there are any, they stand in groups: the categories ascend, and under the heading of
each of them stand the results of its documents. -/
inductive PrintsFolder (noColor : Bool) (path : Path) (requests : List String)
    (folder : Folder Unit) (order : List (List Name)) (results : List TestResult) :
    List Piece → Prop where
  | nothingFound (h : found folder = []) :
    PrintsFolder noColor path requests folder order results
      [.line ("no .test.toml files found in " ++ path.shown)]
  | noneChosen (h : found folder ≠ []) (horder : order = []) :
    PrintsFolder noColor path requests folder order results
      ((warningLines folder requests ++ ["none of the requested categories exist"]).map .line)
  | run {groups : List (String × List (List Name × TestResult))} {pieces : List Piece}
    (horder : order ≠ []) (hgroups : groups.flatMap Prod.snd = order.zip results)
    (hcategory : ∀ g ∈ groups, g.2 ≠ [] ∧ ∀ d ∈ g.2, categoryOf d.1 = g.1)
    (hascending : (groups.map Prod.fst).Pairwise (· < ·))
    (h : PrintsRun noColor (warningLines folder requests)
      (groups.map fun g => (some (headingOf g.1), g.2.map Prod.snd)) pieces) :
    PrintsFolder noColor path requests folder order results pieces

/-- Hand out results to the documents of groups. -/
def pairOut : Categories → List TestResult → List (String × List (List Name × TestResult))
  | [], _ => []
  | group :: rest, results =>
    (group.1, group.2.zip (results.take group.2.length)) ::
      pairOut rest (results.drop group.2.length)

section PairOut

variable {c : Categories} {results : List TestResult}

theorem map_fst_pairOut (c : Categories) (results : List TestResult) :
    (pairOut c results).map Prod.fst = c.map Prod.fst := by
  induction c generalizing results with
  | nil => rfl
  | cons group rest ih => rw [pairOut, List.map_cons, ih, List.map_cons]

/-- All documents have their results, one by one. -/
theorem flatMap_pairOut (h : results.length = (c.flatMap Prod.snd).length) :
    (pairOut c results).flatMap Prod.snd = (c.flatMap Prod.snd).zip results := by
  induction c generalizing results with
  | nil => rfl
  | cons group rest ih =>
    rw [List.flatMap_cons, List.length_append] at h
    rw [pairOut, List.flatMap_cons, ih (length_drop_of_eq_add h), List.flatMap_cons,
      ← List.zip_append (length_take_of_eq_add h).symm, List.take_append_drop]

/-- The results of the documents are those of the groups. -/
theorem map_pairOut (path : Path) (h : results.length = (c.flatMap Prod.snd).length) :
    (pairOut c results).map (fun g => (some (headingOf g.1), g.2.map Prod.snd)) =
      (shareOut (c.map (groupOf path)) results).map fun g => (g.heading, g.results) := by
  induction c generalizing results with
  | nil => rfl
  | cons group rest ih =>
    rw [List.flatMap_cons, List.length_append] at h
    have hpaths : (groupOf path group).paths.length = group.2.length := List.length_map _
    have hfirst : (group.2.zip (results.take group.2.length)).map Prod.snd =
        results.take group.2.length :=
      List.map_snd_zip (length_take_of_eq_add h).le
    have hheading : (groupOf path group).heading = some (headingOf group.1) :=
      congrArg some (categoryTitle_eq group.1)
    rw [pairOut, List.map_cons, List.map_cons, shareOut, List.map_cons, hpaths,
      ih (length_drop_of_eq_add h), hfirst, hheading]

/-- Every group has as many results as it has documents. -/
theorem map_length_pairOut (h : results.length = (c.flatMap Prod.snd).length) :
    (pairOut c results).map (fun g => (g.1, g.2.length)) = c.map fun g => (g.1, g.2.length) := by
  induction c generalizing results with
  | nil => rfl
  | cons group rest ih =>
    rw [List.flatMap_cons, List.length_append] at h
    have hfirst : (group.2.zip (results.take group.2.length)).length = group.2.length := by
      rw [List.length_zip, length_take_of_eq_add h, Nat.min_self]
    rw [pairOut, List.map_cons, ih (length_drop_of_eq_add h), hfirst, List.map_cons]

theorem exists_group_of_mem_pairOut (h : results.length = (c.flatMap Prod.snd).length)
    {g : String × List (List Name × TestResult)} (hg : g ∈ pairOut c results) :
    ∃ group ∈ c, group.1 = g.1 ∧ group.2 = g.2.map Prod.fst := by
  induction c generalizing results with
  | nil => cases hg
  | cons group rest ih =>
    rw [List.flatMap_cons, List.length_append] at h
    rcases List.mem_cons.mp hg with rfl | hg
    · have hfirst := List.map_fst_zip (length_take_of_eq_add h).ge
      exact ⟨group, List.mem_cons_self, rfl, hfirst.symm⟩
    · obtain ⟨group', hmem, hsame⟩ := ih (length_drop_of_eq_add h) hg
      exact ⟨group', List.mem_cons_of_mem _ hmem, hsame⟩

end PairOut

theorem Summary.exit_eq (s : Summary) :
    s.exit = if ∀ r ∈ s.results, r.verdict.isOk = true then 0 else 1 := by
  have hfailed : (s.failed == 0) = true ↔ ∀ r ∈ s.results, r.verdict.isOk = true := by
    rw [beq_iff_eq, failed_eq_countP, List.countP_eq_zero]
    simp
  rw [exit]
  exact if_congr hfailed rfl rfl

section Concludes

variable (log : Logger) (manner : Manner)

/-- What is printed of a summary concludes from its results, if there are any. -/
theorem concludes_summary {results : List TestResult} {s : Summary} (warnings : List String)
    {prints : List Piece → Prop} (hs : s.results = results) (hne : results ≠ [])
    (hprints : prints (warnings.map .line ++ s.pieces manner.noColor)) :
    Concludes log manner results prints
      (Transcript.output { exit := s.exit, stderr := warnings.map .line ++ s.pieces manner.noColor }
        log manner) where
  exit_eq := by
    show s.exit = _
    rw [s.exit_eq, hs]
    exact if_congr (and_iff_right hne).symm rfl rfl
  stdout_eq := rfl
  stderr_eq := ⟨_, hprints, rfl⟩

/-- Without results a run has to fail. -/
theorem concludes_nil {prints : List Piece → Prop} {pieces : List Piece} (hprints : prints pieces) :
    Concludes log manner [] prints
      (Transcript.output { exit := 1, stderr := pieces } log manner) where
  exit_eq := (if_neg fun h => h.1 rfl).symm
  stdout_eq := rfl
  stderr_eq := ⟨_, hprints, rfl⟩

theorem found_eq_nil_iff {folder : Folder Unit} : found folder = [] ↔ discover folder = [] := by
  have hperm := files_discover_perm folder
  constructor
  · intro h
    rw [h, List.map_nil] at hperm
    by_contra hne
    obtain ⟨group, hgroup⟩ := List.exists_mem_of_ne_nil _ hne
    obtain ⟨names, hnames⟩ :=
      List.exists_mem_of_ne_nil _ ((ordered_discover folder).ne_nil group hgroup)
    have hmem : (group.1, names) ∈ (discover folder).files :=
      List.mem_flatMap_of_mem hgroup (List.mem_map_of_mem hnames)
    exact List.not_mem_nil (hperm.mem_iff.mp hmem)
  · intro h
    rw [h] at hperm
    exact List.map_eq_nil_iff.mp hperm.nil_eq.symm

/-- What is printed of a run whose groups have been chosen is what has to be printed of it. -/
theorem printsFolder_of_chosen (noColor : Bool) (path : Path) {requests : List String}
    {folder : Folder Unit} {results : List TestResult} {chosen : Categories}
    (hchosen : (select (discover folder) requests).1 = chosen) (hne : chosen ≠ [])
    (hlength : results.length = (runOrder folder requests).length) :
    PrintsFolder noColor path requests folder (runOrder folder requests) results
      ((warningLines folder requests).map .line ++
        Summary.pieces noColor ⟨shareOut (chosen.map (groupOf path)) results⟩) := by
  have horder : runOrder folder requests ≠ [] := by
    rw [Ne, runOrder_eq_nil_iff, hchosen]
    exact hne
  have hflat : runOrder folder requests = chosen.flatMap Prod.snd := by
    rw [runOrder, hchosen]
  rw [hflat] at hlength
  -- Printed is the summary, in which every group has the results of its own documents.
  let s : Summary := ⟨shareOut (chosen.map (groupOf path)) results⟩
  refine .run horder (by rw [hflat]; exact flatMap_pairOut hlength) ?_ ?_
    (by rw [map_pairOut path hlength]; exact s.prints_pieces noColor _)
  · -- The groups that are chosen are groups that were found.
    have hmem : ∀ group ∈ chosen, group ∈ discover folder := by
      rw [← hchosen, fst_select]
      exact fun group hgroup => List.mem_of_mem_filter hgroup
    intro g hg
    obtain ⟨group, hgroup, hfst, hsnd⟩ := exists_group_of_mem_pairOut hlength hg
    have hdiscover := hmem group hgroup
    refine ⟨fun hnil => ?_, fun d hd => ?_⟩
    · rw [hnil] at hsnd
      exact (ordered_discover folder).ne_nil group hdiscover hsnd
    · rw [← hfst]
      refine categoryOf_of_mem_discover hdiscover ?_
      rw [hsnd]
      exact List.mem_map_of_mem hd
  · rw [map_fst_pairOut, ← hchosen, fst_select]
    exact List.pairwise_map.mpr
      ((List.pairwise_map.mp (ordered_discover folder).ascending).filter _)

/-- **A run below a folder concludes from the results of its documents.** -/
theorem concludes_folderPlan (path : Path) (requests : List String) (folder : Folder Unit)
    {results : List TestResult} (hlength : results.length = (runOrder folder requests).length) :
    Concludes log manner results
      (PrintsFolder manner.noColor path requests folder (runOrder folder requests) results)
      (((folderPlan path requests folder).transcript manner.noColor path results).output log
        manner) := by
  -- Without documents to run there are no results.
  have hnone (horder : runOrder folder requests = []) : results = [] :=
    List.eq_nil_of_length_eq_zero (by rw [hlength, horder, List.length_nil])
  by_cases hfound : discover folder = []
  · have horder : runOrder folder requests = [] := by
      rw [runOrder_eq_nil_iff, fst_select, hfound, List.filter_nil]
    obtain rfl := hnone horder
    rw [folderPlan, hfound]
    exact concludes_nil log manner (.nothingFound (found_eq_nil_iff.mpr hfound))
  · rw [folderPlan, if_neg fun hempty => hfound (List.isEmpty_iff.mp hempty)]
    show Concludes log manner results _
      (Transcript.output (Plan.transcript manner.noColor path results
        (some ((select (discover folder) requests).1.map (groupOf path),
          warningLines folder requests))) log manner)
    cases hchosen : (select (discover folder) requests).1 with
    | nil =>
      -- There are documents, but none in the categories that are asked for.
      have horder := runOrder_eq_nil_iff.mpr hchosen
      obtain rfl := hnone horder
      refine concludes_nil log manner (.noneChosen (fun hnothing => ?_) horder)
      exact hfound (found_eq_nil_iff.mp hnothing)
    | cons first rest =>
      have hresults : results ≠ [] := by
        rintro rfl
        have hnil := runOrder_eq_nil_iff.mp (List.eq_nil_of_length_eq_zero hlength.symm)
        exact absurd (hchosen.symm.trans hnil) (List.cons_ne_nil _ _)
      have hs : Summary.results ⟨shareOut ((first :: rest).map (groupOf path)) results⟩ =
          results := by
        refine flatMap_shareOut ?_
        rw [hlength, flatMap_paths_groupOf, List.length_map, runOrder, hchosen]
      exact concludes_summary log manner (warningLines folder requests) hs hresults
        (printsFolder_of_chosen manner.noColor path hchosen (List.cons_ne_nil _ _) hlength)

/-- What the run of a single document leaves behind. -/
def singleOutput (result : TestResult) : Output :=
  let summary : Summary := ⟨[⟨none, [result]⟩]⟩
  Transcript.output { exit := summary.exit, stderr := summary.pieces manner.noColor } log manner

/-- **A test run,** as a program. `order` gives the documents to be run below a folder, each by the
names that lead to it, and `single` and `report` tell of the results. -/
structure RunsTests {m : Type → Type} [Monad m] (files : Access m) (a : TestArguments)
    (order : Folder Unit → List (List Name)) (single : TestResult → Output)
    (report : Folder Unit → List TestResult → Output) (run : m Output) : Prop where
  /-- A file is run alone, whatever the requests. Below a folder the documents are run one after
  the other, and nothing else is. -/
  run_eq : run = do
    if ← files.isFile a.path then
      return single (← runFile files a.path)
    let folder ← files.list a.path
    let results ← (order folder).mapM fun names => runFile files (names.foldl Path.join a.path)
    return report folder results
  /-- They are the documents found whose category is asked for, each as often as it was found, -/
  order_perm : ∀ folder, (order folder).Perm
    ((found folder).filter fun names => Asked a.categories (categoryOf names))
  /-- in ascending order. -/
  order_pairwise : ∀ folder, (order folder).Pairwise Before
  /-- Whatever the results, they are printed and counted, and the code tells whether all of them
  are good. -/
  single_concludes : ∀ result,
    Concludes log manner [result] (PrintsRun manner.noColor [] [(none, [result])]) (single result)
  report_concludes : ∀ folder results, results.length = (order folder).length →
    Concludes log manner results
      (PrintsFolder manner.noColor a.path a.categories folder (order folder) results)
      (report folder results)

end Concludes

end LabelCheck.Suite

namespace LabelCheck.CommandLine

open Files Suite

section

variable {m : Type → Type} [Monad m] [LawfulMonad m]

/-- A test run, step by step. -/
theorem runWith_eq_of_testLine (draw : Drawing) (log : Logger) (files : Access m)
    {words : List String} {manner : Manner} {a : TestArguments} (hwords : TestLine words manner a)
    (hrun : a.listCategories = false) :
    runWith draw log files words = (do
      if ← files.isFile a.path then
        return singleOutput log manner (← runFile files a.path)
      let folder ← files.list a.path
      let results ← (runOrder folder a.categories).mapM fun names =>
        runFile files (names.foldl Path.join a.path)
      return ((folderPlan a.path a.categories folder).transcript manner.noColor a.path
        results).output log manner) := by
  have hrunWith : runWith draw log files words = (do
      let transcript ← runTests files manner.noColor a.path a.categories
      return transcript.output log manner) := by
    unfold runWith
    rw [Request.parse_eq_test_iff.mpr hwords]
    simp [hrun]
  rw [hrunWith, runTests_eq, groupsAt_eq]
  simp only [bind_assoc]
  refine bind_congr fun isFile => ?_
  cases isFile with
  | true => simp [filePlan, Plan.paths, Plan.transcript, singleOutput, shareOut]
  | false =>
    simp only [Bool.false_eq_true, if_false, bind_assoc, pure_bind, paths_folderPlan,
      List.mapM_map, Function.comp_def]

/-- **What a test run does,** for every command line that asks for one, every way of reaching files
and every outcome of the single documents. No other command lines ask for a test run. -/
theorem runWith_test (draw : Drawing) (log : Logger) (files : Access m) (words : List String)
    (manner : Manner) (a : TestArguments) :
    (Request.parse words = .ok (.test manner a) ↔ TestLine words manner a) ∧
      (TestLine words manner a → a.listCategories = false →
        ∃ order single report,
          RunsTests log manner files a order single report (runWith draw log files words)) := by
  refine ⟨Request.parse_eq_test_iff, fun hwords hrun => ⟨fun folder => runOrder folder a.categories,
    singleOutput log manner, fun folder results =>
      ((folderPlan a.path a.categories folder).transcript manner.noColor a.path results).output log
        manner, ?_⟩⟩
  constructor
  case run_eq => exact runWith_eq_of_testLine draw log files hwords hrun
  case order_perm => exact fun folder => runOrder_perm folder a.categories
  case order_pairwise => exact fun folder => pairwise_runOrder folder a.categories
  case single_concludes =>
    intro result
    let s : Summary := ⟨[⟨none, [result]⟩]⟩
    have hprints := s.prints_pieces manner.noColor []
    exact concludes_summary log manner [] rfl (List.cons_ne_nil _ _) hprints
  case report_concludes =>
    exact fun folder results hlength =>
      concludes_folderPlan log manner a.path a.categories folder hlength

end

/-- A folder with documents in three categories, in which no file can be read. The files that are
asked for are noted. -/
def notedFiles : Access (StateM (List Path)) where
  read path := do
    modify (· ++ [path])
    return .error .notFound
  isFile _ := pure false
  list _ := pure <|
    .folder "b" (.file "z.test.toml" () .nil) <|
    .folder "a" (.file "y.test.toml" () (.file "x.test.toml" () (.file "x.toml" () .nil))) <|
    .folder "ab" (.file "x.test.toml" () .nil) .nil

/-- A test run whose requests overlap. -/
def notedRun : TestArguments := { path := "t", categories := ["b", "/a/", "a"] }

theorem runWith_test_notedRun :
    TestLine ["test", "-c", "b", "--category=/a/", "-ca", "t"] {} notedRun ∧
      notedRun.listCategories = false ∧
      ∃ order single report, RunsTests silentLogger {} notedFiles notedRun order single report
        (runWith plainDrawing silentLogger notedFiles
          ["test", "-c", "b", "--category=/a/", "-ca", "t"]) := by
  have hwords : TestLine ["test", "-c", "b", "--category=/a/", "-ca", "t"] {} notedRun :=
    Request.parse_eq_test_iff.mp rfl
  exact ⟨hwords, rfl, (runWith_test plainDrawing silentLogger notedFiles _ _ _).2 hwords rfl⟩

end LabelCheck.CommandLine
