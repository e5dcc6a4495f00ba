import LabelCheck.Config
import LabelCheck.Document.Reading

/-!
# Settings as documents

The settings of a validation as a table with the keys `conformance`, `case-sensitive` and
`unresolved-label`. Each key may be absent and other keys are passed over.

* `readSettings`: the settings a table stands for;
* `writeSettings`: the table of settings, which names only what is set.
-/

namespace LabelCheck.Document

open LabelCheck.Toml

/-- The conformance levels by name. -/
def conformances : List (String × Conformance) :=
  [("default", .default), ("lenient", .lenient), ("strict", .strict)]

/-- The policies by name. -/
def policies : List (String × UnresolvedPolicy) :=
  [("error", .error), ("warn", .warn), ("ignore", .ignore)]

/-- Read one setting. -/
def readSetting (c : Config) : String × Value → Read Config
  | ("conformance", v) => return { c with conformance := ← readChoice conformances v }
  | ("case-sensitive", v) => return { c with caseSensitive := some (← readBool v) }
  | ("unresolved-label", v) =>
    return { c with unresolvedLabel := some (← readChoice policies v) }
  | _ => .ok c

/-- The settings in a table. -/
def readSettingsTable (entries : Table) : Read Config := entries.foldlM readSetting {}

/-- Settings as a table, or as an array of the settings in their order. -/
def readSettings : Value → Read Config
  | .array _ items =>
    (["conformance", "case-sensitive", "unresolved-label"].zip items).foldlM readSetting {}
  | v =>
    match v.fields? with
    | some entries => readSettingsTable entries
    | none => mismatch v (.record "ValidatorConfig")

/-- The table of settings. -/
def writeSettings (c : Config) : Table :=
  [("conformance", .string c.conformance.text)] ++
    (c.caseSensitive.toList.map fun sensitive => ("case-sensitive", .boolean sensitive)) ++
    c.unresolvedLabel.toList.map fun policy => ("unresolved-label", .string policy.text)

end LabelCheck.Document
