import LabelCheck.CommandLine.Run
import LabelCheck.Proofs.CommandLines
import LabelCheck.Proofs.Diagnostics
import LabelCheck.Proofs.LoadedFiles
import LabelCheck.Proofs.Numbering

/-!
# The command that checks a document

What a check leaves behind, for every way of reaching files and every command line that asks for a
check. Three things can happen: there are no settings, there is no procedure, or the procedure is
validated. The first of them that does decides.

* `SettingArguments.matcherOf`, `SettingArguments.policyOf`: the settings in force, option by
  option;
* `CheckArguments.shown`: what is shown of a body, which takes nothing but the body and the way in
  which names are compared;
* `CheckArguments.pieces`: what is told and logged, piece by piece;
* `Refused`, `Checked`, `Outcome`: what is left behind by a check that is given up, by one that is
  not, and in all cases;
* `runWith_check`: a check leaves behind what these rules say.

The head lines of the error text are counted only as far as nothing in it breaks a line. Of the
labels of the document this is asked outright; of its path and of the name of its procedure where
they are shown. Otherwise what stands behind the break may open as a head does, and
`headLines_brokenPath` has two paths that do it. How reports are drawn and events are worded has to
be known for the head lines alone.
-/

namespace LabelCheck

namespace CommandLine

open Files Document

/-- A block is described by what it says of itself. -/
theorem describeBlock_eq (p : Procedure) (id : BlockId) :
    describeBlock p id =
      match (p.body.block? id).map Block.header with
      | none => id.text
      | some h =>
        match h.label with
        | none => s!"{id} {h.kind.describe}"
        | some label => s!"{id} {h.kind.describe} {label}" := by
  unfold describeBlock
  rw [show p.block? id = p.body.block? id from rfl]
  cases p.body.block? id <;> rfl

theorem resolutionLine_congr {p q : Procedure}
    (h : ∀ id, (p.body.block? id).map Block.header = (q.body.block? id).map Block.header)
    (kind : TransferKind) (target : Identifier) (resolution : Resolution) :
    resolutionLine p kind target resolution = resolutionLine q kind target resolution := by
  cases resolution with
  | unresolved | notFound => rfl
  | resolved id =>
    have hblock : describeBlock p id = describeBlock q id := by
      rw [describeBlock_eq, describeBlock_eq, h]
    simp only [resolutionLine, hblock]

/-! ### The settings in force -/

/-- How names are compared: as an option about case says, else as the file says, else as the
conformance level does, which in turn is that of an option or else that of the file. -/
def SettingArguments.matcherOf (a : SettingArguments) (file : Config) : NameMatcher :=
  match a.caseSensitive, file.caseSensitive with
  | some sensitive, _ | none, some sensitive => .ofCaseSensitive sensitive
  | none, none => (a.conformance.getD file.conformance).matcher

/-- What becomes of an unresolved label, by the same rule. -/
def SettingArguments.policyOf (a : SettingArguments) (file : Config) : UnresolvedPolicy :=
  match a.unresolvedLabel, file.unresolvedLabel with
  | some policy, _ | none, some policy => policy
  | none, none => (a.conformance.getD file.conformance).policy

/-- **The settings in force,** given those of the file. -/
structure SettingArguments.InForce (a : SettingArguments) (file config : Config) : Prop where
  conformance : config.conformance = a.conformance.getD file.conformance
  matcher : config.matcher = a.matcherOf file
  policy : config.policy = a.policyOf file

theorem matcher_override (a : SettingArguments) (file : Config) :
    (a.override file).matcher = a.matcherOf file := by
  unfold SettingArguments.matcherOf SettingArguments.override Config.matcher
  cases a.caseSensitive <;> cases file.caseSensitive <;> rfl

theorem policy_override (a : SettingArguments) (file : Config) :
    (a.override file).policy = a.policyOf file := by
  unfold SettingArguments.policyOf SettingArguments.override Config.policy
  cases a.unresolvedLabel <;> cases file.unresolvedLabel <;> rfl

theorem inForce_override (a : SettingArguments) (file : Config) :
    a.InForce file (a.override file) :=
  ⟨rfl, matcher_override a file, policy_override a file⟩

/-! ### What is shown -/

/-- The line about each transfer of a body, in source order, when names are compared by `m`. -/
def transferLines (m : NameMatcher) (b : Block) : List String :=
  (b.transfers.zip (b.lexicalOutcomes m)).map fun ((kind, r), outcome) =>
    resolutionLine { name := "", body := b } kind r.target (.ofOutcome outcome)

/-- **What a check shows of a body:** its outline and the lines about its transfers, as far as they
are asked for. -/
def CheckArguments.shown (a : CheckArguments) (m : NameMatcher) (b : Block) : String :=
  (if a.tree then (ScopeTree.build 0 b).outline else "") ++
    if a.resolutions then unlines (transferLines m b) else ""

/-- The lines about a settled body say what its transfers name. -/
theorem resolutionLines_settled (p : Procedure) (m : NameMatcher) :
    resolutionLines { p with body := p.body.settled m } = transferLines m p.body := by
  have hline : resolutionLine { p with body := p.body.settled m } =
      resolutionLine { name := "", body := p.body } := by
    funext kind target resolution
    exact resolutionLine_congr (p.body.header_block?_settled m) kind target resolution
  have htransfers : (p.body.settled m).transfers = p.body.transfers.zipWith
      (fun t outcome => (t.1, { t.2 with resolution := .ofOutcome outcome }))
      (p.body.lexicalOutcomes m) :=
    Statements.transfers_settled m _ 1 p.body.statements
  calc resolutionLines { p with body := p.body.settled m }
      = (p.body.settled m).transfers.map fun t =>
          resolutionLine { p with body := p.body.settled m } t.1 t.2.target t.2.resolution :=
        List.map_map
    _ = transferLines m p.body := by
        rw [hline, htransfers, List.map_zipWith, transferLines, List.zip, List.map_zipWith]

/-! ### What is left behind -/

/-- The line that closes a check without errors. -/
def successLine (file : Path) : String := s!"ok: {file} validated successfully"

/-- What a check logs of a procedure: what has been loaded and built, and what happens in the
validation. -/
def CheckArguments.events (a : CheckArguments) (config : Config) (p : Procedure)
    (v : Validation) : List LogEvent :=
  [a.settingsEvent config, procedureEvent p] ++ (if a.tree then [.treeBuilt p.body.size] else []) ++
    validationEvents p config v

/-- **What a check tells and logs of a procedure,** piece by piece. Behind the log come the
diagnostics, and then the closing line if they are all warnings. -/
def CheckArguments.pieces (a : CheckArguments) (draw : Drawing) (noColor : Bool) (config : Config)
    (p : Procedure) (v : Validation) : List Piece :=
  (a.events config p v).map .logged ++
    (v.diagnostics.map (diagnosticText draw noColor (sourceName a.file p) p.source)).map .told ++
    if ∀ d ∈ v.diagnostics, d.isWarning = true then [.line (successLine a.file)] else []

/-- **What a check leaves behind that is given up,** after some events have been logged. -/
structure Refused (log : Logger) (m : Manner) (before : List LogEvent) (r : Refusal)
    (out : Output) : Prop where
  exit : out.exit = 1
  stdout : out.stdout = ""
  stderr : out.stderr = written log m (before.map .logged ++ [.line s!"error: {r.message}"])
  /-- If nobody asks for the log, the message is all there is. -/
  quiet : m.verbose = false → out.stderr = s!"error: {r.message}" ++ "\n"
  /-- The message has the only head line. So there is no `ok: ` among them. -/
  heads : log.Headless → r.Unbroken → (m.verbose = true → ∀ event ∈ before, event.OneLine) →
    headLines m.noColor out.stderr = [seen m.noColor s!"error: {r.line}"]

section

variable (draw : Drawing) (log : Logger) (m : Manner) (a : CheckArguments)

/-- **One head line for each diagnostic,** in their order, and one for the closing line. The path of
the document and the name of the procedure are shown in the log, and where a diagnostic is drawn;
the path is shown in the closing line too. -/
def TellsHeads (config : Config) (p : Procedure) (v : Validation) : Prop :=
  draw.Headed → log.Headless → (∀ i ∈ p.identifiers, i.OneLine) →
    (m.verbose = true ∨ (p.source ≠ none ∧ ∃ d ∈ v.diagnostics, d.span ≠ none) →
      '\n' ∉ (sourceName a.file p).toList) →
    ((∀ d ∈ v.diagnostics, d.isWarning = true) → '\n' ∉ a.file.shown.toList) →
    headLines m.noColor (written log m (a.pieces draw m.noColor config p v)) =
      (v.diagnostics.map fun d => seen m.noColor d.head) ++
        if ∀ d ∈ v.diagnostics, d.isWarning = true then [seen m.noColor (successLine a.file)]
        else []

/-- **What a check leaves behind of a procedure that has been read.** The settings in force are
those of the file with what the options override, and `v` is the validation under them. -/
structure Checked (file config : Config) (p : Procedure) (v : Validation) (out : Output) :
    Prop where
  inForce : a.settings.InForce file config
  validates : p.validate config 1 = .ok v
  exit : out.exit = if ∀ d ∈ v.diagnostics, d.isWarning = true then 0 else 1
  /-- Neither the policy nor the text of the procedure has a part in what is shown. -/
  stdout : out.stdout = a.shown (a.settings.matcherOf file) p.body
  stderr : out.stderr = written log m (a.pieces draw m.noColor config p v)
  /-- If nobody asks for the log, the diagnostics and the closing line are all there is. -/
  quiet : m.verbose = false → out.stderr =
    String.join
        (v.diagnostics.map (diagnosticText draw m.noColor (sourceName a.file p) p.source)) ++
      if ∀ d ∈ v.diagnostics, d.isWarning = true then successLine a.file ++ "\n" else ""
  heads : TellsHeads draw log m a config p v
  /-- The text of the procedure has no part in what is found, nor in the head lines. -/
  anyText : ∀ source, ∃ w, { p with source }.validate config 1 = .ok w ∧
    w.diagnostics = v.diagnostics ∧ TellsHeads draw log m a config { p with source } w

/-- **What a check leaves behind,** by the first of the three things that happens. -/
inductive Outcome : Except Refusal Config → Except Refusal Procedure → Output → Prop where
  | noSettings {r : Refusal} {document : Except Refusal Procedure} {out : Output}
    (h : Refused log m [] r out) : Outcome (.error r) document out
  | noDocument {file config : Config} {r : Refusal} {out : Output}
    (hconfig : a.settings.InForce file config)
    (h : Refused log m [a.settingsEvent config] r out) : Outcome (.ok file) (.error r) out
  | checked {file config : Config} {p : Procedure} {v : Validation} {out : Output}
    (h : Checked draw log m a file config p v out) : Outcome (.ok file) (.ok p) out

end

/-! ### Head lines of a check -/

/-- A closing line that its path does not break is one head line. -/
theorem headLines_successLine (noColor : Bool) {file : Path} (h : '\n' ∉ file.shown.toList) :
    headLines noColor (successLine file ++ "\n") = [seen noColor (successLine file)] := by
  have htext : (successLine file).toList =
      "ok: ".toList ++ (file.shown.toList ++ " validated successfully".toList) := by
    show ("ok: " ++ file.shown ++ " validated successfully").toList = _
    rw [String.toList_append, String.toList_append, List.append_assoc]
  have hline : '\n' ∉ (successLine file).toList := by
    rw [htext]
    simp only [List.mem_append, not_or]
    exact ⟨by decide, h, by decide⟩
  have hhead : isHead (seenLine noColor (successLine file).toList) = true := by
    rw [htext]
    exact isHead_seenLine_append noColor (by decide) (by decide) _
  rw [headLines_line noColor hline, if_pos hhead]

/-- The name under which a text is shown breaks no line if neither of its parts does. -/
theorem oneLine_sourceName_iff {file : Path} {p : Procedure} :
    '\n' ∉ (sourceName file p).toList ↔ '\n' ∉ file.shown.toList ∧ '\n' ∉ p.name.toList := by
  have htext : (sourceName file p).toList =
      file.shown.toList ++ " (procedure ".toList ++ p.name.toList ++ ")".toList := by
    show (file.shown ++ " (procedure " ++ p.name ++ ")").toList = _
    simp only [String.toList_append]
  have hopening : '\n' ∉ " (procedure ".toList := by decide
  have hclosing : '\n' ∉ ")".toList := by decide
  rw [htext]
  simp only [List.mem_append, hopening, hclosing, or_false, not_or]

section Validated

variable {config : Config} {p : Procedure} {v : Validation} (hv : p.validate config 1 = .ok v)
include hv

/-- The diagnostics of a validation break no line if the identifiers do not. -/
theorem oneLine_of_validate (hids : ∀ i ∈ p.identifiers, i.OneLine) :
    ∀ d ∈ v.diagnostics, d.report.OneLine := by
  rw [p.validate_eq config 1] at hv
  cases hv
  exact fun d hd => Block.oneLine_of_mem_lexicalDiagnostics hids hd

/-- No reference refuses to be settled, and only that would be logged unasked. -/
theorem isWarning_of_mem_events (a : CheckArguments) :
    ∀ event ∈ a.events config p v, event.isWarning = false := by
  rw [p.validate_eq config 1] at hv
  cases hv
  intro event hevent
  simp only [CheckArguments.events, validationEvents, List.map_nil, List.append_nil,
    List.mem_append, List.mem_cons, List.not_mem_nil, or_false] at hevent
  rcases hevent with ((rfl | rfl) | hevent) | (rfl | hevent) | rfl
  · rfl
  · rfl
  · split at hevent
    · rw [List.mem_singleton.mp hevent]
      rfl
    · cases hevent
  · rfl
  · split at hevent
    · obtain ⟨_, _, rfl⟩ := List.mem_map.mp hevent
      rfl
    · cases hevent
  · rfl

/-- The events of a check name its path, its procedure and the labels in that. -/
theorem oneLine_of_mem_events {a : CheckArguments} (hname : '\n' ∉ (sourceName a.file p).toList)
    (hids : ∀ i ∈ p.identifiers, i.OneLine) :
    ∀ event ∈ a.events config p v, event.OneLine := by
  rw [p.validate_eq config 1] at hv
  cases hv
  intro event hevent
  obtain ⟨hpath, hname⟩ := oneLine_sourceName_iff.mp hname
  simp only [CheckArguments.events, validationEvents, List.map_nil, List.append_nil,
    List.mem_append, List.mem_cons, List.not_mem_nil, or_false] at hevent
  rcases hevent with ((rfl | rfl) | hevent) | (rfl | hevent) | rfl
  · exact hpath
  · exact hname
  · split at hevent
    · rw [List.mem_singleton.mp hevent]
      trivial
    · cases hevent
  · trivial
  · split at hevent
    · obtain ⟨t, ht, rfl⟩ := List.mem_map.mp hevent
      exact hids _ (Block.target_mem_identifiers_of_settled (List.mem_of_mem_filter ht))
    · cases hevent
  · exact hname

/-- **A validated procedure is told of with one head line for each diagnostic.** -/
theorem tellsHeads_of_validate (draw : Drawing) (log : Logger) (m : Manner) (a : CheckArguments) :
    TellsHeads draw log m a config p v := by
  intro hdraw hlog hids hname hfile
  have hlines := oneLine_of_validate hv hids
  -- Every piece ends its line, so that the head lines of all are those of each.
  have hwell : WellTold m (a.pieces draw m.noColor config p v) := by
    refine .append (.append (wellTold_logged fun event hevent hshown => ?_)
      (wellTold_told fun text htext => ?_)) ?_
    · have hverbose := hshown.resolve_right (by simp [isWarning_of_mem_events hv a event hevent])
      exact oneLine_of_mem_events hv (hname (.inl hverbose)) hids event hevent
    · obtain ⟨d, _, rfl⟩ := List.mem_map.mp htext
      exact whole_diagnosticText hdraw _ _ _ d
    · split
      · exact @wellTold_told m [_] (List.forall_mem_singleton.mpr (whole_line _))
      · exact @wellTold_told m [] (List.forall_mem_nil _)
  have hclosing : (if ∀ d ∈ v.diagnostics, d.isWarning = true then
      [Piece.line (successLine a.file)] else []).flatMap (Piece.heads m.noColor) =
        if ∀ d ∈ v.diagnostics, d.isWarning = true then [seen m.noColor (successLine a.file)]
        else [] := by
    by_cases hpasses : ∀ d ∈ v.diagnostics, d.isWarning = true
    · rw [if_pos hpasses, if_pos hpasses, List.flatMap_singleton]
      exact headLines_successLine m.noColor (hfile hpasses)
    · rw [if_neg hpasses, if_neg hpasses]
      rfl
  rw [headLines_written hlog hwell, CheckArguments.pieces, List.flatMap_append,
    List.flatMap_append, flatMap_heads_logged, List.nil_append, hclosing,
    flatMap_heads_diagnosticText hdraw _ _ _ hlines fun h => hname (.inr h)]

end Validated

/-! ### Runs -/

/-- Nothing but the message is written of a check that is given up if nobody asks for the log. -/
theorem refused_error (log : Logger) (m : Manner) {before : List LogEvent}
    (hbefore : ∀ event ∈ before, event.isWarning = false) (r : Refusal) :
    Refused log m before r ((Transcript.error before r.message).output log m) where
  exit := rfl
  stdout := rfl
  stderr := rfl
  quiet hquiet := by
    show written log m (before.map .logged ++ [.line s!"error: {r.message}"]) = _
    rw [written_logged_append hquiet hbefore]
    exact String.append_empty
  heads hlog hunbroken hone := by
    have hwell : WellTold m (before.map .logged ++ [.line s!"error: {r.message}"]) := by
      refine .append (wellTold_logged fun event hevent hshown => ?_) ?_
      · refine hone (hshown.resolve_right ?_) event hevent
        simp [hbefore event hevent]
      · exact @wellTold_told m [_] (List.forall_mem_singleton.mpr (whole_line _))
    refine (headLines_written hlog hwell).trans ?_
    rw [List.flatMap_append, flatMap_heads_logged, List.nil_append, List.flatMap_singleton]
    exact r.headLines_message hunbroken m.noColor

section RunOn

variable {draw : Drawing} {log : Logger} {m : Manner} {a : CheckArguments} {p : Procedure}
  {v : Validation} {config : Config}

theorem runOn_eq (hv : p.validate config 1 = .ok v) :
    (a.runOn draw m.noColor config p).after [a.settingsEvent config, procedureEvent p] =
      { exit := if ∀ d ∈ v.diagnostics, d.isWarning = true then 0 else 1
        stdout := (if a.tree then (ScopeTree.build 0 p.body).outline else "") ++
          if a.resolutions then unlines (resolutionLines v.procedure) else ""
        stderr := a.pieces draw m.noColor config p v } := by
  have hpasses : v.passes = true ↔ ∀ d ∈ v.diagnostics, d.isWarning = true :=
    Validation.passes_iff
  have hbuilt : (if a.tree then [Piece.logged (.treeBuilt (ScopeTree.build 0 p.body).size)]
      else []) = (if a.tree then [LogEvent.treeBuilt p.body.size] else []).map .logged := by
    rw [ScopeTree.size_build]
    cases a.tree <;> rfl
  unfold CheckArguments.runOn
  rw [hv]
  simp only [Transcript.after, CheckArguments.pieces, CheckArguments.events, hbuilt, hpasses,
    List.map_append, List.append_assoc, List.map_map]
  rfl

/-- What is shown is the outline and the resolutions of the body as the validation settles it. -/
theorem shown_of_validate (hv : p.validate config 1 = .ok v) :
    ((if a.tree then (ScopeTree.build 0 p.body).outline else "") ++
        if a.resolutions then unlines (resolutionLines v.procedure) else "") =
      a.shown config.matcher p.body := by
  rw [p.validate_eq config 1] at hv
  cases hv
  show _ ++ (if a.resolutions then unlines (resolutionLines _) else "") = _
  rw [resolutionLines_settled]
  rfl

/-- **The check of a procedure,** whatever the settings of the file. -/
theorem checked_runOn (draw : Drawing) (log : Logger) (m : Manner) (a : CheckArguments)
    (file : Config) (hid : p.sourceId = 0) :
    let config := a.settings.override file
    ∃ v, Checked draw log m a file config p v
      (((a.runOn draw m.noColor config { p with sourceId := 0 }).after
        [a.settingsEvent config, procedureEvent { p with sourceId := 0 }]).output log m) := by
  intro config
  -- A document gives no other source id than the one that is put in.
  have hp : { p with sourceId := 0 } = p := by
    cases p
    cases hid
    rfl
  obtain ⟨v, hv, hdiagnostics⟩ : ∃ v, p.validate config 1 = .ok v ∧
      v.diagnostics = p.body.lexicalDiagnostics config p.sourceId :=
    ⟨_, p.validate_eq config 1, rfl⟩
  have hforce := inForce_override a.settings file
  rw [hp, runOn_eq hv, shown_of_validate hv, hforce.matcher]
  refine ⟨v, ?_⟩
  exact
    { inForce := hforce
      validates := hv
      exit := rfl
      stdout := rfl
      stderr := rfl
      quiet := by
        intro hquiet
        show written log m (a.pieces draw m.noColor config p v) = _
        unfold CheckArguments.pieces
        rw [List.append_assoc, written_logged_append hquiet (isWarning_of_mem_events hv a)]
        by_cases hpasses : ∀ d ∈ v.diagnostics, d.isWarning = true
        · rw [if_pos hpasses, if_pos hpasses]
          exact written_told_line log m _ _
        · rw [if_neg hpasses, if_neg hpasses, List.append_nil, written_told, String.append_empty]
      heads := tellsHeads_of_validate hv draw log m a
      anyText := by
        intro source
        let q : Procedure := { p with source }
        have hw := q.validate_eq config 1
        exact ⟨_, hw, hdiagnostics.symm, tellsHeads_of_validate hw draw log m a⟩ }

end RunOn

/-- A run of the command, given what it loads. -/
theorem run_eq (draw : Drawing) (noColor : Bool) (files : Access Id) (a : CheckArguments) :
    a.run draw noColor files =
      match a.settings.load files with
      | .error error => Transcript.error [] error.message
      | .ok config =>
        match Procedure.load files a.file with
        | .error error => Transcript.error [a.settingsEvent config] error.message
        | .ok p =>
          (a.runOn draw noColor config { p with sourceId := 0 }).after
            [a.settingsEvent config, procedureEvent { p with sourceId := 0 }] := rfl

/-- What a check leaves behind, by what it finds in its files. -/
theorem exists_outcome (draw : Drawing) (log : Logger) (files : Access Id) (m : Manner)
    (a : CheckArguments) :
    ∃ settings document, SettingsFrom files a.settings.config settings ∧
      DocumentFrom files a.file document ∧
      Outcome draw log m a settings document
        (Transcript.output (a.run draw m.noColor files) log m) := by
  rw [run_eq]
  rcases load_settings files a.settings with
    ⟨file, hsettings, hload⟩ | ⟨r, error, hsettings, hload, hmessage⟩
  · rcases load_document files a.file with
      ⟨p, hdocument, hp⟩ | ⟨r, error, hdocument, hp, hmessage⟩
    · refine ⟨.ok file, .ok p, hsettings, hdocument, ?_⟩
      obtain ⟨v, hv⟩ := checked_runOn draw log m a file hdocument.sourceId_eq
      rw [hload, hp]
      exact .checked hv
    · refine ⟨.ok file, .error r, hsettings, hdocument, ?_⟩
      rw [hload, hp]
      show Outcome draw log m a _ _ (Transcript.output (.error _ error.message) log m)
      rw [hmessage]
      exact .noDocument (inForce_override a.settings file)
        (refused_error log m (List.forall_mem_singleton.mpr rfl) r)
  · -- Without settings the document does not count, but what it is can still be said.
    obtain ⟨document, hdocument⟩ : ∃ document, DocumentFrom files a.file document := by
      rcases load_document files a.file with ⟨p, hdocument, _⟩ | ⟨r, _, hdocument, _⟩
      · exact ⟨_, hdocument⟩
      · exact ⟨_, hdocument⟩
    refine ⟨.error r, document, hsettings, hdocument, ?_⟩
    rw [hload]
    show Outcome draw log m a _ _ (Transcript.output (.error _ error.message) log m)
    rw [hmessage]
    exact .noSettings (refused_error log m (List.forall_mem_nil _) r)

/-- **What a check leaves behind,** for every command line that asks for one and every way of
reaching files. If there are no settings, that is told whatever the document; if there are and there
is no procedure, that is told; else the procedure is validated. No other command lines ask for a
check. -/
theorem runWith_check (draw : Drawing) (log : Logger) (files : Access Id) (words : List String)
    (m : Manner) (a : CheckArguments) :
    (Request.parse words = .ok (.check m a) ↔ CheckLine words m a) ∧
      (CheckLine words m a →
        ∃ settings document, SettingsFrom files a.settings.config settings ∧
          DocumentFrom files a.file document ∧
          Outcome draw log m a settings document (runWith draw log files words)) := by
  refine ⟨Request.parse_eq_check_iff, fun hwords => ?_⟩
  have hrun : runWith draw log files words =
      Transcript.output (a.run draw m.noColor files) log m := by
    unfold runWith
    rw [Request.parse_eq_check_iff.mpr hwords]
    rfl
  rw [hrun]
  exact exists_outcome draw log files m a

/-- Settings under which an unresolved label is a warning. -/
def driftSettings : Toml.Table := [("unresolved-label", .string "warn")]

/-- A loop with a text, from which a `LEAVE` wants to go nowhere. -/
def driftDocument : Toml.Table :=
  [("name", .string "p"), ("source", .string "LEAVE x"),
    ("body", .table [("kind", .string "loop"), ("statements", .array .bracketed [.table
      [("type", .string "leave"), ("target", .string "x"),
        ("span", .array .bracketed [.integer 0, .integer 7])]])])]

/-- The procedure of the document. -/
def drifting : Procedure where
  name := "p"
  source := some "LEAVE x"
  body := ⟨{ kind := .loop }, .transfer .leave { target := ⟨"x", false⟩, span := some ⟨0, 7⟩ } .nil⟩

/-- The two files, and no others. -/
def driftFiles : Access Id where
  read path :=
    if path = "s.toml" then .ok "unresolved-label='warn'"
    else if path = "p.toml" then
      .ok ("name='p'\nsource='LEAVE x'\nbody=\x7bkind='loop'," ++
        "statements=[\x7btype='leave',target='x',span=[0,7]\x7d]\x7d")
    else .error .notFound
  isFile _ := true
  list _ := .nil

theorem parse_driftSettings : Toml.parse "unresolved-label='warn'" = some driftSettings := by
  decide +kernel

theorem parse_driftDocument :
    Toml.parse ("name='p'\nsource='LEAVE x'\nbody=\x7bkind='loop'," ++
      "statements=[\x7btype='leave',target='x',span=[0,7]\x7d]\x7d") = some driftDocument := by
  decide +kernel

/-- A check with settings from a file. -/
def driftWords : List String :=
  ["--no-color", "check", "--config", "s.toml", "--resolutions", "p.toml"]

/-- What it asks for. -/
def driftArguments : CheckArguments where
  file := "p.toml"
  settings := { config := some "s.toml" }
  resolutions := true

theorem runWith_check_drawn :
    CheckLine driftWords { noColor := true } driftArguments ∧
      ∃ config v,
        Checked framedDrawing silentLogger { noColor := true } driftArguments
          { unresolvedLabel := some .warn } config drifting v
          (runWith framedDrawing silentLogger driftFiles driftWords) ∧
        v.diagnostics ≠ [] ∧
        headLines true (runWith framedDrawing silentLogger driftFiles driftWords).stderr =
          ["warning: label 'x' not found for LEAVE", "ok: p.toml validated successfully"] := by
  have hwords : CheckLine driftWords { noColor := true } driftArguments :=
    Request.parse_eq_check_iff.mp rfl
  obtain ⟨settings, document, hsettings, hdocument, hout⟩ :=
    (runWith_check framedDrawing silentLogger driftFiles driftWords _ _).2 hwords
  have hfile : settings = .ok { unresolvedLabel := some .warn } := by
    cases hsettings with
    | file h =>
      refine h.eq_ok rfl parse_driftSettings fun file => ?_
      rw [← readSettingsTable_eq_ok_iff (by decide)]
      exact ⟨fun h => (Except.ok.inj h).symm, fun h => h ▸ rfl⟩
  have hprocedure : document = .ok drifting := by
    refine FoundIn.eq_ok hdocument rfl parse_driftDocument fun p => ?_
    rw [← readProcedureValue_eq_ok_iff (Toml.keyed_of_parse parse_driftDocument)]
    exact ⟨fun h => (Except.ok.inj h).symm, fun h => h ▸ rfl⟩
  subst hfile hprocedure
  cases hout with
  | checked h =>
    have hheads : headLines true (runWith framedDrawing silentLogger driftFiles driftWords).stderr =
        ["warning: label 'x' not found for LEAVE", "ok: p.toml validated successfully"] := by
      decide +kernel
    refine ⟨hwords, _, _, h, fun hnone => ?_, hheads⟩
    -- Without diagnostics the closing line would be the only head line.
    have hcounted := h.heads headed_framedDrawing headless_silentLogger (by decide)
      (fun _ => by decide) fun _ => by decide
    rw [← h.stderr, hnone, hheads] at hcounted
    simpa using congrArg List.length hcounted

/-! ### Paths that break a line -/

/-- A loop, and nothing else. -/
def plainLoop : Procedure := { name := "p", body := ⟨{ kind := .loop }, .nil⟩ }

/-- The loop in a file whose name breaks a line, and no others. -/
def brokenFiles : Access Id where
  read path :=
    if path = "a\nerror: b" then .ok "name='p'\nbody.kind='loop'" else .error .notFound
  isFile _ := true
  list _ := .nil

theorem parse_plainLoop :
    Toml.parse "name='p'\nbody.kind='loop'" =
      some [("name", .string "p"), ("body", .table [("kind", .string "loop")])] := by
  decide +kernel

/-- **A path may look like a head line.** No name in the document breaks a line, and the validation
has nothing to report; yet behind the break in the path of the document stands an error. And where
there is no document, there is a line that opens as if all were well. -/
theorem headLines_brokenPath :
    (CheckLine ["--no-color", "check", "a\nerror: b"] { noColor := true }
        { file := "a\nerror: b" } ∧
      DocumentFrom brokenFiles "a\nerror: b" (.ok plainLoop) ∧
      (∀ i ∈ plainLoop.identifiers, i.OneLine) ∧
      (∃ v, plainLoop.validate {} 1 = .ok v ∧ v.diagnostics = []) ∧
      headLines true (run brokenFiles ["--no-color", "check", "a\nerror: b"]).stderr =
        ["ok: a", "error: b validated successfully"]) ∧
    (CheckLine ["--no-color", "check", "a\nok: b"] { noColor := true } { file := "a\nok: b" } ∧
      (∀ p, ¬ DocumentFrom brokenFiles "a\nok: b" (.ok p)) ∧
      headLines true (run brokenFiles ["--no-color", "check", "a\nok: b"]).stderr =
        ["error: cannot read 'a", "ok: b': No such file or directory (os error 2)"]) := by
  refine ⟨⟨Request.parse_eq_check_iff.mp rfl, ?_, List.forall_mem_nil _, ⟨_, rfl, rfl⟩, ?_⟩,
    Request.parse_eq_check_iff.mp rfl, fun p h => ?_, ?_⟩
  · refine .given rfl parse_plainLoop ?_
    exact (readProcedureValue_eq_ok_iff (Toml.keyed_of_parse parse_plainLoop)).mp rfl
  · decide +kernel
  · cases h with
    | given hread => cases hread
  · decide +kernel

end CommandLine

end LabelCheck
