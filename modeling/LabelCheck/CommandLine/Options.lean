/-!
# Options on a command line

How the words of a command line are told apart: options by their long or short names, the values
that belong to them, and everything else. The meaning of an option is not looked at here.

* `Level`: the options that a command knows;
* `Item`: one thing said on the command line;
* `Level.items`: the words of a command line as a list of items.

### Rules

A value stands behind its option in the next word, or in the same word behind an equals sign or
directly behind a short name. A word that looks like an option is never the value in the next
word. Short names may share a word. Behind a word of two dashes nothing is an option.
-/

namespace LabelCheck.CommandLine

/-- Options without a value. -/
inductive Flag where
  | help
  | version
  | noColor
  | verbose
  | resolutions
  | tree
  | listCategories
  deriving DecidableEq, Repr

/-- Options with a value. -/
inductive Setting where
  | config
  | conformance
  | caseSensitive
  | unresolvedLabel
  | category
  deriving DecidableEq, Repr

/-- An option, with or without a value. -/
inductive Choice where
  | flag (flag : Flag)
  | setting (setting : Setting)
  deriving DecidableEq, Repr

/-- The options that a command knows, by their names. -/
structure Level where
  long : List (String × Choice)
  short : List (Char × Choice)

/-- One thing said on a command line. -/
inductive Item where
  | flag (flag : Flag)
  /-- An option with a value, which may be missing. -/
  | setting (setting : Setting) (value : Option String)
  /-- A word that is no option. -/
  | word (text : String)
  /-- An option that is not known, or a value where none belongs. -/
  | invalid
  deriving DecidableEq, Repr

/-- Whether a word is read as an option or ends the options. -/
def looksLikeOption (word : String) : Bool :=
  match word.toList with
  | '-' :: _ :: _ => true
  | _ => false

/-- A text up to its first equals sign, and the text behind the sign if there is one. -/
def splitEquals (cs : List Char) : List Char × Option (List Char) :=
  match cs.dropWhile (· != '=') with
  | [] => (cs, none)
  | _ :: value => (cs.takeWhile (· != '='), some value)

namespace Level

/-- The items of a word with a long name, and the option whose value is still to come. -/
def longItems (l : Level) (cs : List Char) : List Item × Option Setting :=
  let (name, value) := splitEquals cs
  match l.long.lookup (String.ofList name), value with
  | none, _ => ([.invalid], none)
  | some (.flag f), none => ([.flag f], none)
  | some (.flag _), some _ => ([.invalid], none)
  | some (.setting s), some value => ([.setting s (some (String.ofList value))], none)
  | some (.setting s), none => ([], some s)

/-- The items of a word with short names, and the option whose value is still to come. -/
def shortItems (l : Level) : List Char → List Item × Option Setting
  | [] => ([], none)
  | c :: rest =>
    match l.short.lookup c with
    | none => ([.invalid], none)
    | some (.flag f) =>
      let (items, pending) := l.shortItems rest
      (.flag f :: items, pending)
    | some (.setting s) =>
      match rest with
      | [] => ([], some s)
      | '=' :: value => ([.setting s (some (String.ofList value))], none)
      | value => ([.setting s (some (String.ofList value))], none)

/-- The items of one word before the end of the options, and the option whose value is still to
come. -/
def wordItems (l : Level) (word : String) : List Item × Option Setting :=
  match word.toList with
  | '-' :: '-' :: name => l.longItems name
  | '-' :: c :: names => l.shortItems (c :: names)
  | _ => ([.word word], none)

/-- The items of the words of a command line. -/
def items (l : Level) : (words : List String) → List Item
  | [] => []
  | "--" :: words => words.map .word
  | word :: words =>
    match l.wordItems word, words with
    | (items, none), words => items ++ l.items words
    | (items, some s), [] => items ++ [.setting s none]
    | (items, some s), next :: words =>
      if looksLikeOption next then items ++ .setting s none :: l.items (next :: words)
      else items ++ .setting s (some next) :: l.items words

end Level

end LabelCheck.CommandLine
