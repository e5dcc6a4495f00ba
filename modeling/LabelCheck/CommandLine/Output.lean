/-!
# Output of a command

What a run leaves behind: two texts and a code.
-/

namespace LabelCheck.CommandLine

/-- The two texts that a run writes, and the code with which it ends. -/
structure Output where
  exit : Nat
  stdout : String := ""
  stderr : String := ""
  deriving DecidableEq, Repr

/-- Text with a line feed behind every line. -/
def unlines (lines : List String) : String := String.join (lines.map (· ++ "\n"))

/-- The code of a run that met a fault. -/
def faultExit : Nat := 101

end LabelCheck.CommandLine
