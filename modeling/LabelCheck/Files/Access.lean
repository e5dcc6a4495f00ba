import LabelCheck.Files.Folder

/-!
# Access to files

The few questions that the program asks about files. What answers them is left open, so that the
same program runs on the files of a machine and on a folder that is given as a value.

* `Access`: the questions;
* `Folder.access`: the answers of a folder that is given as a value.
-/

namespace LabelCheck.Files

/-- The questions about files, answered in `m`. -/
structure Access (m : Type → Type) where
  /-- The text of a file. -/
  read : Path → m (Except FileError String)
  /-- Whether a path leads to a file. -/
  isFile : Path → m Bool
  /-- The names in a folder at all depths; what cannot be listed has none. -/
  list : Path → m (Folder Unit)

namespace Folder

/-- The text of a file in a folder. -/
def readText (t : Folder ByteArray) (path : Path) : Except FileError String :=
  match t.find path with
  | .error error => .error error
  | .ok (.folder _) => .error .isAFolder
  | .ok (.file bytes) =>
    match String.fromUTF8? bytes with
    | some text => .ok text
    | none => .error .invalidText

/-- Answer from a folder. -/
def access (t : Folder ByteArray) : Access Id where
  read := t.readText
  isFile path :=
    match t.find path with
    | .ok (.file _) => true
    | _ => false
  list path :=
    match t.find path with
    | .ok (.folder inner) => inner.shape path
    | _ => .nil

end Folder

end LabelCheck.Files
