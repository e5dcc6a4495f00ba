import LabelCheck.Files.RawText

/-!
# Paths

Paths as they are given: names with slashes between them. An empty name and a single dot stand for
the folder that has been reached, two dots for the one above it.

* `Path.names`: what stands between the slashes, with `Path.parts` for texts;
* `Path.join`: a path taken from a folder;
* `Path.parent`, `Path.fileName`: a path without its last name, and that name.
-/

namespace LabelCheck.Files

/-- The name of a file or a folder. -/
abbrev Name := RawText

/-- A path. -/
abbrev Path := RawText

namespace Path

/-- The byte between the names of a path. -/
def slash : UInt8 := 0x2F

/-- What stands between the slashes of a path. -/
def names (path : Path) : List Name := (path.bytes.splitOn slash).map RawText.mk

/-- What stands between the slashes of a path that is a text. -/
def parts (path : String) : List String := (path.toList.splitOn '/').map String.ofList

/-- The path with the given names between its slashes. -/
def ofNames (names : List Name) : Path := ⟨List.intercalate [slash] (names.map RawText.bytes)⟩

/-- Whether a path starts at the root of all files. -/
def isAbsolute (path : Path) : Bool := path.bytes.head? == some slash

/-- A path taken from the folder `base`. -/
def join (base path : Path) : Path :=
  if path.isAbsolute || base.bytes.isEmpty then path
  else if base.bytes.getLast? == some slash then base ++ path
  else base ++ RawText.mk [slash] ++ path

/-- Drop the names at the end that lead nowhere, but not the first one. -/
def dropIdle (names : List Name) : List Name :=
  match names with
  | [] => []
  | first :: rest =>
    let isIdle (name : Name) : Bool := name == "" || name == "."
    first :: (rest.reverse.dropWhile isIdle).reverse

/-- The folder that holds what a path names, by the path without its last name. -/
def parent (path : Path) : Path :=
  let names := dropIdle path.names.dropLast
  if names = [RawText.ofText ""] then "/" else ofNames names

/-- The last name of a path. -/
def fileName (path : Path) : Name := path.names.getLastD ""

example : join "c" "p.toml" = "c/p.toml" ∧ join "c" "" = "c/" ∧ join "" "p" = "p" := by
  decide +kernel

example : parent "a/b" = "a" ∧ parent "a" = "" ∧ parent "./a" = "." ∧ parent "/a" = "/" := by
  decide +kernel

end Path

end LabelCheck.Files
