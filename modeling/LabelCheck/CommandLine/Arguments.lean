import LabelCheck.CommandLine.Options
import LabelCheck.Config
import LabelCheck.Files.Path

/-!
# Arguments

What a command line asks for. The items of a command line are taken in their order; the first one
that is an error, or asks for help or the version, decides.

* `Request`: what is asked for;
* `Request.parse`: the request of a command line, or why it is none.
-/

namespace LabelCheck.CommandLine

open Files

/-- The settings that a command line can override. -/
structure SettingArguments where
  config : Option Path := none
  conformance : Option Conformance := none
  caseSensitive : Option Bool := none
  unresolvedLabel : Option UnresolvedPolicy := none
  deriving DecidableEq, Repr

/-- A check of one document. -/
structure CheckArguments where
  file : Path
  settings : SettingArguments := {}
  /-- Show what every transfer resolves to. -/
  resolutions : Bool := false
  /-- Show the nesting of the blocks. -/
  tree : Bool := false
  deriving DecidableEq, Repr

/-- A run of test documents. -/
structure TestArguments where
  path : Path
  /-- The categories to run; without any, all are run. -/
  categories : List String := []
  /-- Show the categories and run nothing. -/
  listCategories : Bool := false
  deriving DecidableEq, Repr

/-- The options that every command knows. -/
structure Manner where
  noColor : Bool := false
  verbose : Bool := false
  deriving DecidableEq, Repr

/-- What a command line asks for. -/
inductive Request where
  | check (manner : Manner) (arguments : CheckArguments)
  | test (manner : Manner) (arguments : TestArguments)
  deriving DecidableEq, Repr

/-- Why a command line does not ask for something to be run. -/
inductive Stop where
  | help
  | version
  /-- The command line is not well formed. -/
  | misuse
  deriving DecidableEq, Repr

/-- The options of every command. -/
def commonLong : List (String × Choice) :=
  [("no-color", .flag .noColor), ("verbose", .flag .verbose), ("help", .flag .help)]

/-- The short names of the options of every command. -/
def commonShort : List (Char × Choice) := [('v', .flag .verbose), ('h', .flag .help)]

/-- The options before the command. -/
def topLevel : Level where
  long := ("version", .flag .version) :: commonLong
  short := ('V', .flag .version) :: commonShort

/-- The options of a check. -/
def checkLevel : Level where
  long := [("config", .setting .config), ("conformance", .setting .conformance),
    ("case-sensitive", .setting .caseSensitive), ("unresolved-label", .setting .unresolvedLabel),
    ("resolutions", .flag .resolutions), ("tree", .flag .tree)] ++ commonLong
  short := commonShort

/-- The options of a test run. -/
def testLevel : Level where
  long := [("category", .setting .category), ("list-categories", .flag .listCategories)] ++
    commonLong
  short := ('c', .setting .category) :: commonShort

/-- Switch something on that may be switched on once. -/
def switchOn (on : Bool) : Except Stop Bool := if on then .error .misuse else .ok true

/-- Give a value to something that may have one. -/
def putOnce {α : Type} (old : Option α) (value : Except Stop α) : Except Stop (Option α) :=
  match old with
  | some _ => .error .misuse
  | none => some <$> value

/-- A path, which may not be empty. -/
def pathValue (text : String) : Except Stop Path :=
  if text.isEmpty then .error .misuse else .ok (.ofText text)

/-- A truth value. -/
def boolValue : String → Except Stop Bool
  | "true" => .ok true
  | "false" => .ok false
  | _ => .error .misuse

/-- A value by its name. -/
def namedValue {α : Type} (value : Except SettingError α) : Except Stop α :=
  value.mapError fun _ => .misuse

/-- Take one of the options of every command. -/
def Manner.take (m : Manner) : Flag → Except Stop Manner
  | .help => .error .help
  | .version => .error .version
  | .noColor => return { m with noColor := ← switchOn m.noColor }
  | .verbose => return { m with verbose := ← switchOn m.verbose }
  | _ => .error .misuse

/-- Take an option that overrides a setting. Only the value for case may be missing. -/
def SettingArguments.take (a : SettingArguments) (setting : Setting) (value : Option String) :
    Except Stop SettingArguments := do
  match setting, value with
  | .config, some text => return { a with config := ← putOnce a.config (pathValue text) }
  | .conformance, some text =>
    return { a with conformance := ← putOnce a.conformance (namedValue (Conformance.parse text)) }
  | .caseSensitive, value =>
    let value := boolValue (value.getD "true")
    return { a with caseSensitive := ← putOnce a.caseSensitive value }
  | .unresolvedLabel, some text =>
    let value := namedValue (UnresolvedPolicy.parse text)
    return { a with unresolvedLabel := ← putOnce a.unresolvedLabel value }
  | _, _ => .error .misuse

/-- The arguments of a check as far as they have been read. -/
structure CheckDraft where
  manner : Manner := {}
  file : Option Path := none
  settings : SettingArguments := {}
  resolutions : Bool := false
  tree : Bool := false

/-- Take one item of a check. -/
def CheckDraft.take (d : CheckDraft) : Item → Except Stop CheckDraft
  | .flag .resolutions => return { d with resolutions := ← switchOn d.resolutions }
  | .flag .tree => return { d with tree := ← switchOn d.tree }
  | .flag f => return { d with manner := ← d.manner.take f }
  | .setting s value => return { d with settings := ← d.settings.take s value }
  | .word text => return { d with file := ← putOnce d.file (pathValue text) }
  | .invalid => .error .misuse

/-- The arguments of a test run as far as they have been read. -/
structure TestDraft where
  manner : Manner := {}
  path : Option Path := none
  categories : List String := []
  listCategories : Bool := false

/-- Take one item of a test run. -/
def TestDraft.take (d : TestDraft) : Item → Except Stop TestDraft
  | .flag .listCategories => return { d with listCategories := ← switchOn d.listCategories }
  | .flag f => return { d with manner := ← d.manner.take f }
  | .setting .category (some text) => return { d with categories := d.categories ++ [text] }
  | .setting _ _ => .error .misuse
  | .word text => return { d with path := ← putOnce d.path (pathValue text) }
  | .invalid => .error .misuse

/-- An option of every command holds if it is given before or behind the command. -/
def Manner.or (m n : Manner) : Manner where
  noColor := m.noColor || n.noColor
  verbose := m.verbose || n.verbose

/-- The check that the words behind its command ask for. -/
def parseCheck (manner : Manner) (words : List String) : Except Stop Request := do
  let d ← (checkLevel.items words).foldlM CheckDraft.take {}
  match d.file with
  | none => .error .misuse
  | some file =>
    return .check (manner.or d.manner)
      { file, settings := d.settings, resolutions := d.resolutions, tree := d.tree }

/-- The test run that the words behind its command ask for. -/
def parseTest (manner : Manner) (words : List String) : Except Stop Request := do
  let d ← (testLevel.items words).foldlM TestDraft.take {}
  match d.path with
  | none => .error .misuse
  | some path =>
    return .test (manner.or d.manner)
      { path, categories := d.categories, listCategories := d.listCategories }

/-- Whether the words behind `help` name a command. -/
def isHelpTopic : List String → Bool
  | [] | ["check"] | ["test"] | ["help"] => true
  | _ => false

namespace Request

/-- The request of a command line, given the options before the command that have been read. -/
def parseFrom (manner : Manner) : List String → Except Stop Request
  | [] => .error .misuse
  | "check" :: words => parseCheck manner words
  | "test" :: words => parseTest manner words
  | "help" :: words => .error (if isHelpTopic words then .help else .misuse)
  | "--" :: _ => .error .misuse
  | word :: words => do
    let take (m : Manner) : Item → Except Stop Manner
      | .flag f => m.take f
      | _ => .error .misuse
    parseFrom (← (topLevel.wordItems word).1.foldlM take manner) words

/-- The request of a command line. -/
def parse (words : List String) : Except Stop Request := parseFrom {} words

end Request

end LabelCheck.CommandLine
