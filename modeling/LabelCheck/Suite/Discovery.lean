import LabelCheck.Files.Access

/-!
# Finding test documents

The test documents below a folder, grouped by category. The category of a file is the way from the
folder to it, and categories and files stand in ascending order, so that the order in which
folders list their entries does not matter.

* `testFiles`: the test documents below a folder, each by the names that lead to it;
* `Categories`: groups of files under their category;
* `discover`: the groups below a folder;
* `select`: the groups that requests ask for.
-/

namespace LabelCheck.Suite

open Files

/-- The end of the name of a test document. -/
def testEnding : String := ".test.toml"

/-- Whether a file is a test document, by its name. A name that is no text is not that of one. -/
def isTestName (name : Name) : Bool :=
  match name.text? with
  | some text => testEnding.toList.isSuffixOf text.toList
  | none => false

/-- The test documents below a folder. Each is given by the folders that lead to it and its own
name; `above` leads to the folder at hand. -/
def testFiles {α : Type} (above : List Name) : Folder α → List (List Name × Name)
  | .nil => []
  | .file name _ rest =>
    if isTestName name then (above, name) :: testFiles above rest else testFiles above rest
  | .folder name inner rest => testFiles (above ++ [name]) inner ++ testFiles above rest

/-- The category of a file from the folders that lead to it, as they are shown. A backslash counts
as a slash. -/
def category (folders : List Name) : String :=
  String.intercalate "/" (folders.map (·.shown.map fun c => if c = '\\' then '/' else c))

/-- Files under their categories. -/
abbrev Categories := List (String × List (List Name))

namespace Categories

/-- Add a file to its category, which keeps its place in ascending order. -/
def insert (category : String) (file : List Name) : Categories → Categories
  | [] => [(category, [file])]
  | (other, files) :: rest =>
    if category = other then (other, files ++ [file]) :: rest
    else if category < other then (category, [file]) :: (other, files) :: rest
    else (other, files) :: insert category file rest

end Categories

/-- Whether a file stands before another or is the same one: the names that lead to them are
compared one by one. -/
def fileLe (a b : List Name) : Bool := !(b.lex a)

/-- The test documents below a folder by category, each by the names that lead to it. -/
def discover {α : Type} (folder : Folder α) : Categories :=
  let add (c : Categories) : List Name × Name → Categories := fun (folders, name) =>
    c.insert (category folders) (folders ++ [name])
  ((testFiles [] folder).foldl add []).map fun (name, files) => (name, files.mergeSort fileLe)

/-- The name of a category where it is shown. -/
def categoryTitle (category : String) : String := if category.isEmpty then "(root)" else category

/-- A text without the slashes at its two ends. -/
def trimSlashes (text : String) : String :=
  let drop (cs : List Char) := cs.dropWhile (· == '/')
  String.ofList (drop (drop text.toList).reverse).reverse

/-- Whether a request asks for a category: it names the category or one around it. -/
def asksFor (request category : String) : Bool :=
  category == request || (request.toList ++ ['/']).isPrefixOf category.toList

/-- What requests have asked for so far. -/
structure Selection where
  /-- The categories that are asked for. -/
  chosen : List String := []
  /-- The requests that asked for nothing new. -/
  idle : List String := []
  deriving DecidableEq, Repr

/-- Take one request. -/
def Selection.take (all : List String) (s : Selection) (request : String) : Selection :=
  let request := trimSlashes request
  let new := all.filter fun category => asksFor request category && !s.chosen.contains category
  if new.isEmpty then { s with idle := s.idle ++ [request] }
  else { s with chosen := s.chosen ++ new }

/-- What a list of requests asks for. -/
def selectNames (all : List String) (requests : List String) : Selection :=
  requests.foldl (Selection.take all) {}

/-- The groups that requests ask for, in ascending order, and the requests that asked for nothing
new. Without requests all groups are asked for. -/
def select (all : Categories) (requests : List String) : Categories × List String :=
  if requests.isEmpty then (all, [])
  else
    let s := selectNames (all.map Prod.fst) requests
    (all.filter fun (category, _) => s.chosen.contains category, s.idle)

end LabelCheck.Suite
