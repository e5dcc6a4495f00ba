import LabelCheck.Files.Path

/-!
# Folders and files

The content of a folder: files, and folders with content of their own. A folder is one inductive
sequence of entries, in the order in which it lists them.

* `Folder`: the content of a folder, with contents of any type for its files;
* `Folder.addFile`, `Folder.addFolder`: make a file or a folder with all folders around it;
* `Folder.find`: what a path leads to;
* `Folder.shape`: the names without the contents, as they are listed.
-/

namespace LabelCheck.Files

/-- The content of a folder. -/
inductive Folder (α : Type) where
  | nil
  | file (name : Name) (content : α) (rest : Folder α)
  | folder (name : Name) (inner : Folder α) (rest : Folder α)
  deriving DecidableEq, Repr

/-- Why a path cannot be read. -/
inductive FileError where
  | notFound
  | notAFolder
  | isAFolder
  | nameTooLong
  | nulInPath
  | invalidText
  /-- Anything else that a machine reports, in its words. -/
  | other (text : String)
  deriving DecidableEq, Repr

/-- The wording of a file error. -/
def FileError.message : FileError → String
  | notFound => "No such file or directory (os error 2)"
  | notAFolder => "Not a directory (os error 20)"
  | isAFolder => "Is a directory (os error 21)"
  | nameTooLong => "File name too long (os error 36)"
  | nulInPath => "file name contained an unexpected NUL byte"
  | invalidText => "stream did not contain valid UTF-8"
  | other text => text

/-- What a path leads to. -/
inductive Target (α : Type) where
  | file (content : α)
  | folder (inner : Folder α)

namespace Folder

variable {α : Type}

/-- The entry with a name. -/
def entry? (name : Name) : Folder α → Option (Target α)
  | nil => none
  | file n content rest => if n = name then some (.file content) else rest.entry? name
  | folder n inner rest => if n = name then some (.folder inner) else rest.entry? name

/-- The folder with a name, changed; it is added at the end if there is none. -/
def modifyFolder (name : Name) (change : Folder α → Folder α) : Folder α → Folder α
  | nil => folder name (change nil) nil
  | file n content rest => file n content (rest.modifyFolder name change)
  | folder n inner rest =>
    if n = name then folder n (change inner) rest
    else folder n inner (rest.modifyFolder name change)

/-- The folder with a file, which replaces one of the same name. -/
def putFile (name : Name) (content : α) : Folder α → Folder α
  | nil => file name content nil
  | file n old rest =>
    if n = name then file n content rest else file n old (rest.putFile name content)
  | folder n inner rest => folder n inner (rest.putFile name content)

/-- Make a folder and the folders around it. -/
def addFolder : (names : List String) → Folder α → Folder α
  | [], t => t
  | name :: names, t => t.modifyFolder name (addFolder names)

/-- Make a file and the folders around it. -/
def addFile (content : α) : (names : List String) → Folder α → Folder α
  | [], t => t
  | [name], t => t.putFile name content
  | name :: names, t => t.modifyFolder name (addFile content names)

/-- The greatest number of bytes of a name. -/
def nameLimit : Nat := 255

/-- The number of bytes that every path has to stay below. -/
def pathLimit : Nat := 4096

/-- The names in the folder at a path, at all depths. An entry whose own path is too long is not
seen to be a folder. -/
def shape (path : Path) : Folder α → Folder Unit
  | nil => nil
  | file name _ rest => file name () (rest.shape path)
  | folder name inner rest =>
    let below := path.join name
    if below.bytes.length < pathLimit then folder name (inner.shape below) (rest.shape path)
    else file name () (rest.shape path)

/-- Follow the names of a path. `here` is the folder that has been reached and the folders around
it, the innermost first; beyond the outermost one nothing is found. -/
def follow : (names : List Name) → (here : List (Folder α)) → Except FileError (Target α)
  | [], [] => .ok (.folder nil)
  | [], inner :: _ => .ok (.folder inner)
  | name :: names, here =>
    if name = "" ∨ name = "." then follow names here
    else if name = ".." then follow names here.tail
    else if nameLimit < name.bytes.length then .error .nameTooLong
    else
      match here with
      | [] => .error .notFound
      | inner :: around =>
        match inner.entry? name with
        | none => .error .notFound
        | some (.folder t) => follow names (t :: inner :: around)
        | some (.file content) => if names.isEmpty then .ok (.file content) else .error .notAFolder

/-- What a path leads to from the folder with this content. Paths that start at the root of all
files lead outside of it. -/
def find (t : Folder α) (path : Path) : Except FileError (Target α) :=
  if path.bytes.isEmpty then .error .notFound
  else if path.bytes.contains 0 then .error .nulInPath
  else if pathLimit ≤ path.bytes.length then .error .nameTooLong
  else follow path.names (if path.isAbsolute then [] else [t])

end Folder

end LabelCheck.Files
