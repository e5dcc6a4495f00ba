import LabelCheck.Document.Procedure
import LabelCheck.Document.Settings
import LabelCheck.Files.Access
import LabelCheck.Toml.Parse

/-!
# Loading documents

From a text or a file to the procedure or the settings it holds.

* `DocumentError`, `LoadError`: what can go wrong with a text, and with a file;
* `Procedure.ofText`, `Config.ofText`: read a text;
* `Procedure.load`: read a file.
-/

namespace LabelCheck

open Files

/-- Why a text is not a document of the expected form. -/
inductive DocumentError where
  /-- The text is not TOML. -/
  | notToml
  | misfit (reason : Document.Misfit)

/-- The wording of a document error, without the place in the text. -/
def DocumentError.message : DocumentError → String
  | notToml => "TOML parse error"
  | misfit reason => "TOML parse error\n" ++ reason.message

/-- Why there is no procedure in a file. -/
inductive LoadError where
  | file (path : Path) (error : FileError)
  | document (error : DocumentError)

/-- The wording for a file that cannot be read. -/
def cannotRead (path : Path) (error : FileError) : String :=
  s!"cannot read '{path}': {error.message}"

/-- The wording of a load error. -/
def LoadError.message : LoadError → String
  | file path error => cannotRead path error
  | document error => s!"invalid procedure document: {error.message}"

/-- The content of a text, given how its table is read. -/
def readDocument {α : Type} (read : Toml.Table → Document.Read α) (text : String) :
    Except DocumentError α :=
  match Toml.parse text with
  | none => .error .notToml
  | some entries => (read entries).mapError .misfit

/-- The procedure in a text. -/
def Procedure.ofText (text : String) : Except DocumentError Procedure :=
  readDocument Document.readProcedure text

/-- The settings in a text. -/
def Config.ofText (text : String) : Except DocumentError Config :=
  readDocument Document.readSettingsTable text

/-- The procedure in a file. -/
def Procedure.load {m : Type → Type} [Monad m] (files : Access m) (path : Path) :
    m (Except LoadError Procedure) := do
  match ← files.read path with
  | .error error => return .error (.file path error)
  | .ok text => return (Procedure.ofText text).mapError .document

end LabelCheck
