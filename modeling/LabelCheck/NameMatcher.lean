import LabelCheck.Identifier
import LabelCheck.Text.UpperCase

/-!
# Matching names

When a label reference denotes a declared label. Two identifiers match when a matcher gives both
the same canonical form, so that matching is an equivalence relation for each matcher.

* `NameMatcher`: the two ways to compare;
* `NameMatcher.canonical`: the form that is compared;
* `NameMatcher.accepts`: whether a referenced identifier denotes a declared one.
-/

namespace LabelCheck

/-- How names are compared. -/
inductive NameMatcher where
  /-- As they are written. -/
  | caseSensitive
  /-- Regular names by their upper case, delimited names as they are written. -/
  | caseInsensitive
  deriving DecidableEq, Repr

namespace NameMatcher

instance : Inhabited NameMatcher := ⟨caseInsensitive⟩

/-- The matcher for which case counts or does not. -/
def ofCaseSensitive (sensitive : Bool) : NameMatcher :=
  if sensitive then caseSensitive else caseInsensitive

/-- Whether case counts in regular names. -/
def isCaseSensitive : NameMatcher → Bool
  | caseSensitive => true
  | caseInsensitive => false

/-- The form of an identifier that is compared. -/
def canonical (m : NameMatcher) (i : Identifier) : String :=
  match m with
  | caseSensitive => i.name
  | caseInsensitive =>
    if i.quoted then i.name else i.name.map Text.upper

/-- Whether `referenced` denotes the same name as `declared`. -/
def accepts (m : NameMatcher) (declared referenced : Identifier) : Bool :=
  m.canonical declared == m.canonical referenced

theorem accepts_iff {m : NameMatcher} {declared referenced : Identifier} :
    m.accepts declared referenced = true ↔ m.canonical declared = m.canonical referenced := by
  simp [accepts]

@[simp] theorem accepts_self (m : NameMatcher) (i : Identifier) : m.accepts i i = true := by
  simp [accepts]

theorem accepts_comm (m : NameMatcher) (i j : Identifier) : m.accepts i j = m.accepts j i := by
  simp only [accepts, Bool.beq_comm]

end NameMatcher

end LabelCheck
