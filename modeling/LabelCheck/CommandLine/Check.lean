import LabelCheck.CommandLine.Log
import LabelCheck.Load

/-!
# Checking one document

The command that validates the procedure of a document and tells what it found.

* `SettingArguments.load`: the settings of a check: those of a file, overridden by options;
* `resolutionLine`: what is told about one transfer;
* `diagnosticText`: what is told about one diagnostic, in lines or as a drawing;
* `CheckArguments.run`: the command.

How a report is drawn on the text it is about is left open (`Drawing`).
-/

namespace LabelCheck.CommandLine

open Files

/-- Why there are no settings. -/
inductive SettingsError where
  | file (path : Path) (error : FileError)
  | document (path : Path) (error : DocumentError)

/-- The wording of a settings error. -/
def SettingsError.message : SettingsError → String
  | file path error => cannotRead path error
  | document path error => s!"invalid config '{path}': {error.message}"

/-- The settings with what the options override. -/
def SettingArguments.override (a : SettingArguments) (c : Config) : Config where
  conformance := a.conformance.getD c.conformance
  caseSensitive := a.caseSensitive <|> c.caseSensitive
  unresolvedLabel := a.unresolvedLabel <|> c.unresolvedLabel

/-- The settings of a check. -/
def SettingArguments.load {m : Type → Type} [Monad m] (files : Access m)
    (a : SettingArguments) : m (Except SettingsError Config) := do
  match a.config with
  | none => return .ok (a.override {})
  | some path =>
    match ← files.read path with
    | .error error => return .error (.file path error)
    | .ok text =>
      match Config.ofText text with
      | .error error => return .error (.document path error)
      | .ok config => return .ok (a.override config)

/-- A block as it is named in a line about a resolution. -/
def describeBlock (p : Procedure) (id : BlockId) : String :=
  match p.block? id with
  | none => id.text
  | some b =>
    match b.label with
    | none => s!"{id} {b.kind.describe}"
    | some label => s!"{id} {b.kind.describe} {label}"

/-- What is told about one transfer. -/
def resolutionLine (p : Procedure) (kind : TransferKind) (target : Identifier) :
    Resolution → String
  | .resolved id => s!"{kind} {target} -> {describeBlock p id}"
  | .notFound => s!"{kind} {target} -> not found"
  | .unresolved => s!"{kind} {target} -> unresolved"

/-- What is told about all transfers, in source order. -/
def resolutionLines (p : Procedure) : List String :=
  p.resolutions.map fun (kind, target, resolution) => resolutionLine p kind target resolution

/-- What is told about one diagnostic: its message with its severity, and its notes. -/
def diagnosticLines (d : Diagnostic) : List String :=
  s!"{d.severity}: {d.message}" :: d.notes.map fun note => s!"  = {note}"

/-- How a report is drawn on the text that its marks point into: with or without colours, given the
name of the text and the text. -/
abbrev Drawing := (noColor : Bool) → (name source : String) → Report → String

/-- The drawing that leaves out the text and the marks. -/
def plainDrawing : Drawing := fun _ _ _ r =>
  unlines (s!"{r.severity}: {r.message}" :: r.notes.map fun note => s!"  = {note}")

/-- The name under which the text of a procedure is shown. -/
def sourceName (file : Path) (p : Procedure) : String := s!"{file} (procedure {p.name})"

/-- What is told about one diagnostic. It is drawn if its place and the text are known. -/
def diagnosticText (draw : Drawing) (noColor : Bool) (name : String) (source : Option String)
    (d : Diagnostic) : String :=
  match d.span, source with
  | some _, some source => draw noColor name source d.report
  | _, _ => unlines (diagnosticLines d)

/-- The check of a procedure under given settings. The outline is shown before the validation,
the resolutions after it, whatever it finds. -/
def CheckArguments.runOn (a : CheckArguments) (draw : Drawing) (noColor : Bool) (config : Config)
    (p : Procedure) : Transcript :=
  let tree := ScopeTree.build 0 p.body
  let outline := if a.tree then tree.outline else ""
  let built := if a.tree then [.logged (.treeBuilt tree.size)] else []
  match p.validate config 1 with
  | .error fault =>
    { exit := faultExit, stdout := outline, stderr := built ++ [.line fault.message] }
  | .ok v =>
    let resolutions := if a.resolutions then unlines (resolutionLines v.procedure) else ""
    let told := v.diagnostics.map fun d =>
      .told (diagnosticText draw noColor (sourceName a.file p) p.source d)
    let closing := if v.passes then [.line s!"ok: {a.file} validated successfully"] else []
    { exit := if v.passes then 0 else 1
      stdout := outline ++ resolutions
      stderr := built ++ (validationEvents p config v).map .logged ++ told ++ closing }

/-- What is logged when the settings of a check are known. -/
def CheckArguments.settingsEvent (a : CheckArguments) (config : Config) : LogEvent :=
  .settingsLoaded a.file config.conformance config.matcher config.policy

/-- What is logged when the procedure of a check is known. -/
def procedureEvent (p : Procedure) : LogEvent :=
  .procedureLoaded p.name p.source.isSome p.transfers.length

/-- What is written after some events have been logged. -/
def Transcript.after (before : List LogEvent) (t : Transcript) : Transcript :=
  { t with stderr := before.map .logged ++ t.stderr }

/-- The command. Settings that cannot be had are told before a document that cannot be read. -/
def CheckArguments.run {m : Type → Type} [Monad m] (draw : Drawing) (noColor : Bool)
    (files : Access m) (a : CheckArguments) : m Transcript := do
  match ← a.settings.load files with
  | .error error => return .error [] error.message
  | .ok config =>
    match ← Procedure.load files a.file with
    | .error error => return .error [a.settingsEvent config] error.message
    | .ok p =>
      let p := { p with sourceId := 0 }
      return (a.runOn draw noColor config p).after [a.settingsEvent config, procedureEvent p]

end LabelCheck.CommandLine
