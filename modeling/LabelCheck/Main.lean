import LabelCheck.CommandLine.Run

/-!
# The program on a machine

Runs the program on the files of the machine and writes what it leaves behind. The machine is asked
by the texts of paths, so that a name that is none is out of its reach.
-/

namespace LabelCheck.CommandLine

open Files

/-- The number of an error of the machine, which may be given with either sign. -/
def errorNumber (code : UInt32) : Nat := min code.toNat (4294967296 - code.toNat)

/-- What an error of the machine says about a file. -/
def fileErrorOf : IO.Error → FileError
  | .noFileOrDirectory .. => .notFound
  | .inappropriateType _ code text =>
    match errorNumber code with
    | 20 => .notAFolder
    | 21 => .isAFolder
    | _ => .other text
  | .invalidArgument _ code text =>
    match errorNumber code with
    | 36 => .nameTooLong
    | _ => .other text
  | error => .other (toString error)

/-- The text of a file of the machine. -/
def readFile (path : Path) : IO (Except FileError String) := do
  if path.bytes.contains 0 then return .error .nulInPath
  try
    match String.fromUTF8? (← IO.FS.readBinFile path.shown) with
    | some text => return .ok text
    | none => return .error .invalidText
  catch error => return .error (fileErrorOf error)

/-- Whether a path leads to a file of the machine. -/
def isFile (path : Path) : IO Bool := do
  try
    let info ← (← IO.FS.realPath path.shown).metadata
    return info.type matches .file
  catch _ => return false

/-- The names in a folder of the machine, at all depths. -/
partial def listFolder (path : Path) : IO (Folder Unit) := do
  try
    let entries ← (← IO.FS.realPath path.shown).readDir
    entries.foldrM (fun entry rest => do
      if ← entry.path.isDir then
        return .folder entry.fileName (← listFolder (.ofText entry.path.toString)) rest
      else return .file entry.fileName () rest) .nil
  catch _ => return .nil

/-- The files of the machine. -/
def machine : Access IO where
  read := readFile
  isFile := isFile
  list := listFolder

end LabelCheck.CommandLine

/-- Run the program with the words of a command line. -/
def main (words : List String) : IO UInt32 := do
  let output ← LabelCheck.CommandLine.run LabelCheck.CommandLine.machine words
  IO.print output.stdout
  IO.eprint output.stderr
  return output.exit.toUInt32
