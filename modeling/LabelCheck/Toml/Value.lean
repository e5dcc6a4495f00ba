import LabelCheck.Decimal.Shortest

/-!
# TOML values

A TOML document as the tree of its keys and values. The entries of a table stand in the order in
which the document gives them, and a key stands in a table at most once.

* `Value`: the tree, with `Table` for the entries of a table and `ArrayForm` for the two ways to
  write an array;
* `Value.fields?`: the entries of what can be read field by field;
* `Value.same`: whether two values are the same.
-/

namespace LabelCheck.Toml

/-- The two ways to write an array. -/
inductive ArrayForm where
  /-- Between brackets, item by item. -/
  | bracketed
  /-- As tables, each under a header of its own. -/
  | headed
  deriving DecidableEq, Repr, Inhabited

/-- A value. A moment (a date, a time or both) keeps the text it is written as. -/
inductive Value where
  | string (text : String)
  | integer (value : Int)
  | float (value : Float)
  | boolean (value : Bool)
  | moment (text : String)
  | array (form : ArrayForm) (items : List Value)
  | table (entries : List (String × Value))
  deriving Inhabited

/-- The entries of a table, in document order. -/
abbrev Table := List (String × Value)

namespace Value

/-- The key under which a moment shows its text where fields are expected. -/
def momentKey : String := "$__toml_private_datetime"

/-- The entries of a value that can be read field by field: a table, or a moment, which has its
text as its only field. -/
def fields? : Value → Option Table
  | table entries => some entries
  | moment text => some [(momentKey, string text)]
  | _ => none

/-- The name of the type of a value. -/
def typeName : Value → String
  | string _ => "string"
  | integer _ => "integer"
  | float _ => "float"
  | boolean _ => "boolean"
  | moment _ => "datetime"
  | array _ _ => "array"
  | table _ => "table"

/-! ### Comparing values -/

mutual

/-- Whether two values are the same. -/
def same : Value → Value → Bool
  | string s, string t => s = t
  | integer m, integer n => m = n
  | float x, float y => x = y
  | boolean b, boolean c => b = c
  | moment s, moment t => s = t
  | array form items, array form' items' => form = form' && sameItems items items'
  | table entries, table entries' => sameEntries entries entries'
  | _, _ => false

/-- Whether two lists of items are the same. -/
def sameItems : List Value → List Value → Bool
  | [], [] => true
  | v :: items, w :: items' => same v w && sameItems items items'
  | _, _ => false

/-- Whether two lists of entries are the same. -/
def sameEntries : List (String × Value) → List (String × Value) → Bool
  | [], [] => true
  | (key, v) :: entries, (key', w) :: entries' =>
    key = key' && same v w && sameEntries entries entries'
  | _, _ => false

end

mutual

theorem same_iff : ∀ {v w : Value}, same v w = true ↔ v = w
  | string _, w | integer _, w | float _, w | boolean _, w | moment _, w => by
    cases w <;> simp [same]
  | array _ items, w => by cases w <;> simp [same, sameItems_iff]
  | table entries, w => by cases w <;> simp [same, sameEntries_iff]

theorem sameItems_iff : ∀ {items items' : List Value},
    sameItems items items' = true ↔ items = items'
  | [], items' => by cases items' <;> simp [sameItems]
  | v :: items, items' => by cases items' <;> simp [sameItems, same_iff, sameItems_iff]

theorem sameEntries_iff : ∀ {entries entries' : List (String × Value)},
    sameEntries entries entries' = true ↔ entries = entries'
  | [], entries' => by cases entries' <;> simp [sameEntries]
  | (key, v) :: entries, entries' => by
    cases entries' <;> simp [sameEntries, same_iff, sameEntries_iff, Prod.ext_iff]

end

instance : DecidableEq Value := fun _ _ => decidable_of_iff _ same_iff

end Value

end LabelCheck.Toml
