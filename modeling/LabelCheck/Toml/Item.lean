import LabelCheck.Toml.Value

/-!
# Putting a document together

The lines of a document name values by paths of keys. This module puts such values into a tree and
refuses what would define something twice. Whether a table may be entered again depends on how it
came about, so the tree keeps that until it is complete.

* `Origin`, `Item`: the tree under construction;
* `insert`: put a value under a path of keys;
* `addTable`, `addElement`: put the entries of a section under the path of its header;
* `Item.value`: the finished value.
-/

namespace LabelCheck.Toml

/-- How a table came about. -/
inductive Origin where
  /-- It has a header of its own, or it is an element of an array of tables. -/
  | header
  /-- The header of a table inside it named it. -/
  | implied
  /-- A path of keys named it. -/
  | dotted
  deriving DecidableEq, Repr

/-- A part of a document under construction. -/
inductive Item where
  /-- A value, to which nothing can be added. -/
  | closed (value : Value)
  | table (origin : Origin) (entries : List (String × Item))
  /-- An array of tables, to which further tables can be added. The latest one stands first. -/
  | tables (latest : List (List (String × Item)))

/-- The entries of a table under construction, in document order. -/
abbrev Items := List (String × Item)

namespace Items

/-- The entries with another item under a key that is there. -/
def replace (key : String) (item : Item) : Items → Items
  | [] => []
  | (k, old) :: rest => if k = key then (k, item) :: rest else (k, old) :: replace key item rest

/-- The entries without a key. -/
def erase (key : String) : Items → Items
  | [] => []
  | (k, item) :: rest => if k = key then rest else (k, item) :: erase key rest

/-- Change the table that a path leads to from a table of the given origin. Tables on the way that
are missing are added with the origin `made`; the last element of an array of tables stands for
the array. A path of keys (`made` is `dotted`) does not lead through a table with a header. -/
def within (made : Origin) (change : Origin → Items → Option Items) :
    List String → Origin → Items → Option Items
  | [], origin, entries => change origin entries
  | key :: path, _, entries =>
    match entries.lookup key with
    | none => do
      let inner ← within made change path made []
      return entries ++ [(key, .table made inner)]
    | some (.closed _) => none
    | some (.table origin inner) =>
      if made = .dotted ∧ origin = .header then none
      else do
        let inner ← within made change path origin inner
        return entries.replace key (.table origin inner)
    | some (.tables []) => none
    | some (.tables (last :: earlier)) => do
      let last ← within made change path .header last
      return entries.replace key (.tables (last :: earlier))

/-- Put a value under a path of keys and a last key. The table that the path leads to has to be
the table at hand, or one that a path of keys named. -/
def insert (entries : Items) (path : List String) (key : String) (value : Value) :
    Option Items :=
  let put (origin : Origin) (entries : Items) : Option Items :=
    if (origin = .dotted) = path.isEmpty then none
    else if (entries.lookup key).isSome then none
    else some (entries ++ [(key, .closed value)])
  within .dotted put path .header entries

/-- Put values under their paths, one after the other. -/
def insertAll (entries : Items) (values : List (List String × String × Value)) : Option Items :=
  values.foldlM (fun entries (path, key, value) => insert entries path key value) entries

/-- Add a section with a table header. The table may be there already if only headers of tables
inside it have named it; it then moves to the end. -/
def addTable (root : Items) (path : List String) (key : String)
    (values : List (List String × String × Value)) : Option Items :=
  let put (_ : Origin) (entries : Items) : Option Items :=
    match entries.lookup key with
    | none => do return entries ++ [(key, .table .header (← insertAll [] values))]
    | some (.table .implied inner) => do
      return erase key entries ++ [(key, .table .header (← insertAll inner values))]
    | some _ => none
  within .implied put path .header root

/-- Add a section with the header of an array of tables. -/
def addElement (root : Items) (path : List String) (key : String)
    (values : List (List String × String × Value)) : Option Items :=
  let put (_ : Origin) (entries : Items) : Option Items :=
    match entries.lookup key with
    | none => do return entries ++ [(key, .tables [← insertAll [] values])]
    | some (.tables latest) => do
      return replace key (.tables ((← insertAll [] values) :: latest)) entries
    | some _ => none
  within .implied put path .header root

end Items

mutual

/-- The finished value of an item. -/
def Item.value : Item → Value
  | .closed value => value
  | .table _ entries => .table (Items.values entries)
  | .tables latest => .array .headed (Items.elementValues latest).reverse
termination_by structural item => item

/-- The finished entries of a table. -/
def Items.values : List (String × Item) → Table
  | [] => []
  | (key, item) :: rest => (key, item.value) :: Items.values rest
termination_by structural entries => entries

/-- The finished elements of an array of tables. -/
def Items.elementValues : List (List (String × Item)) → List Value
  | [] => []
  | entries :: rest => .table (Items.values entries) :: Items.elementValues rest
termination_by structural elements => elements

end

end LabelCheck.Toml
