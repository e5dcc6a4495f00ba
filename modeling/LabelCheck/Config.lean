import LabelCheck.NameMatcher

/-!
# Settings of a validation

Which names count as the same and what becomes of a reference without a target. A conformance
level sets both; either can be set on its own and then wins over the level.

* `Conformance`, `UnresolvedPolicy`: the named choices, each with `parse` and `text`;
* `SettingError`: a text that names no such choice;
* `Config`: a conformance level with what overrides it;
* `Config.matcher`, `Config.policy`: the settings in force.
-/

namespace LabelCheck

/-- A named pair of a name matcher and a policy for unresolved labels. -/
inductive Conformance where
  | default
  | lenient
  | strict
  deriving DecidableEq, Repr

/-- What becomes of a reference whose label no enclosing block carries. -/
inductive UnresolvedPolicy where
  | error
  | warn
  | ignore
  deriving DecidableEq, Repr

/-- A text that should name a setting and does not, in lower case as far as it is ASCII. -/
inductive SettingError where
  | unknownConformance (given : String)
  | unknownPolicy (given : String)
  deriving DecidableEq, Repr

/-- The wording of a setting error. -/
def SettingError.message : SettingError → String
  | unknownConformance given =>
    s!"unknown conformance '{given}' (expected default, lenient or strict)"
  | unknownPolicy given => s!"unknown policy '{given}' (expected error, warn or ignore)"

namespace UnresolvedPolicy

/-- The name of a policy. -/
def text : UnresolvedPolicy → String
  | error => "error"
  | warn => "warn"
  | ignore => "ignore"

instance : ToString UnresolvedPolicy := ⟨text⟩

/-- The policy with a name, whatever the case of its ASCII letters. -/
def parse (s : String) : Except SettingError UnresolvedPolicy :=
  match s.toLower with
  | "error" => .ok error
  | "warn" => .ok warn
  | "ignore" => .ok ignore
  | other => .error (.unknownPolicy other)

end UnresolvedPolicy

namespace Conformance

instance : Inhabited Conformance := ⟨default⟩

/-- The name of a conformance level. -/
def text : Conformance → String
  | default => "default"
  | lenient => "lenient"
  | strict => "strict"

instance : ToString Conformance := ⟨text⟩

/-- The level with a name, whatever the case of its ASCII letters. -/
def parse (s : String) : Except SettingError Conformance :=
  match s.toLower with
  | "default" => .ok default
  | "lenient" => .ok lenient
  | "strict" => .ok strict
  | other => .error (.unknownConformance other)

/-- Case counts only at the strict level. -/
def matcher : Conformance → NameMatcher
  | default | lenient => .caseInsensitive
  | strict => .caseSensitive

/-- An unresolved label passes only at the lenient level. -/
def policy : Conformance → UnresolvedPolicy
  | default | strict => .error
  | lenient => .ignore

end Conformance

/-- A conformance level and the settings that override it. -/
structure Config where
  conformance : Conformance := .default
  caseSensitive : Option Bool := none
  unresolvedLabel : Option UnresolvedPolicy := none
  deriving DecidableEq, Repr

namespace Config

instance : Inhabited Config := ⟨{}⟩

/-- The settings of a conformance level without overrides. -/
def ofConformance (conformance : Conformance) : Config := { conformance }

/-- How names are compared under these settings. -/
def matcher (c : Config) : NameMatcher :=
  match c.caseSensitive with
  | some sensitive => .ofCaseSensitive sensitive
  | none => c.conformance.matcher

/-- What becomes of an unresolved label under these settings. -/
def policy (c : Config) : UnresolvedPolicy := c.unresolvedLabel.getD c.conformance.policy

end Config

end LabelCheck
