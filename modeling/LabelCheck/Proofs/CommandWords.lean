import LabelCheck.CommandLine.Arguments
import LabelCheck.Proofs.SettingsMeaning
import Mathlib.Data.List.Forall2

/-!
# What a command line says

The words of a command line say one thing after the other: that an option is chosen, with or without
a value, or what the command is about. The relations of this module have one rule for each way of
saying something, and know nothing of how a command line is taken apart.

* `Part`, `Topic`: what can be said, and what it is about;
* `Vocabulary`, `Spells`: the names of options, and the ways to write them;
* `checkWords`, `testWords`: the vocabularies of the two commands;
* `CheckLine`, `TestLine`: the command lines that ask for a check and for a test run.
-/

namespace LabelCheck.CommandLine

open Document Files

/-! ### What can be said -/

/-- One thing that a command line says. -/
inductive Part where
  | noColor
  | verbose
  | resolutions
  | tree
  | listCategories
  | config (path : Path)
  | conformance (level : Conformance)
  | caseSensitive (sensitive : Bool)
  | unresolvedLabel (policy : UnresolvedPolicy)
  | category (name : String)
  /-- What the command is about. -/
  | subject (path : Path)

/-- What a part of a command line is about. -/
inductive Topic where
  | noColor
  | verbose
  | resolutions
  | tree
  | listCategories
  | config
  | conformance
  | caseSensitive
  | unresolvedLabel
  | category
  | subject
  deriving DecidableEq

/-- The topic of a part. -/
def Part.topic : Part → Topic
  | noColor => .noColor
  | verbose => .verbose
  | resolutions => .resolutions
  | tree => .tree
  | listCategories => .listCategories
  | config _ => .config
  | conformance _ => .conformance
  | caseSensitive _ => .caseSensitive
  | unresolvedLabel _ => .unresolvedLabel
  | category _ => .category
  | subject _ => .subject

/-! ### The ways to say it -/

/-- The names of options, with what is said by them. -/
structure Vocabulary where
  /-- An option without a value, by its name. -/
  flag : String → Part → Prop
  /-- An option without a value, by its letter. -/
  letter : Char → Part → Prop
  /-- An option by its name, and its value. -/
  value : String → String → Part → Prop
  /-- An option by its letter, and its value. -/
  letterValue : Char → String → Part → Prop
  /-- An option by its name, without the value that could be there. -/
  bare : String → Part → Prop

/-- The word looks like an option; two dashes do as well. -/
def IsOption (word : String) : Prop := ∃ c rest, word.toList = '-' :: c :: rest

/-- The word says what the command is about. -/
def SaysSubject (word : String) (part : Part) : Prop := word ≠ "" ∧ part = .subject (.ofText word)

/-- Letters behind one dash: options without a value, and at the end there may be one with its
value, which may have an equals sign in front of it. -/
inductive Letters (v : Vocabulary) : List Char → List Part → Prop where
  | nil : Letters v [] []
  | flag {c : Char} {cs : List Char} {part : Part} {parts : List Part} (h : v.letter c part)
    (hrest : Letters v cs parts) : Letters v (c :: cs) (part :: parts)
  | joined {c : Char} {cs : List Char} {part : Part} (h : v.letterValue c (.ofList cs) part) :
    Letters v (c :: '=' :: cs) [part]
  | stuck {c : Char} {cs : List Char} {part : Part} (h : v.letterValue c (.ofList cs) part)
    (hne : cs ≠ []) (hsign : cs.head? ≠ some '=') : Letters v (c :: cs) [part]

/-- **What words say,** one thing after the other. -/
inductive Spells (v : Vocabulary) : List String → List Part → Prop where
  | nil : Spells v [] []
  /-- Behind two dashes nothing is an option. -/
  | subjects {words : List String} {parts : List Part} (h : List.Forall₂ SaysSubject words parts) :
    Spells v ("--" :: words) parts
  | subject {word : String} {words : List String} {part : Part} {parts : List Part}
    (hword : ¬ IsOption word) (h : SaysSubject word part) (hrest : Spells v words parts) :
    Spells v (word :: words) (part :: parts)
  | flag {name : String} {words : List String} {part : Part} {parts : List Part}
    (h : v.flag name part) (hrest : Spells v words parts) :
    Spells v (("--" ++ name) :: words) (part :: parts)
  | joined {name text : String} {words : List String} {part : Part} {parts : List Part}
    (h : v.value name text part) (hrest : Spells v words parts) :
    Spells v (("--" ++ (name ++ "=" ++ text)) :: words) (part :: parts)
  | apart {name text : String} {words : List String} {part : Part} {parts : List Part}
    (h : v.value name text part) (htext : ¬ IsOption text) (hrest : Spells v words parts) :
    Spells v (("--" ++ name) :: text :: words) (part :: parts)
  /-- A value is missing at the end, and where the next word looks like an option. -/
  | bare {name : String} {words : List String} {part : Part} {parts : List Part}
    (h : v.bare name part) (hnext : ∀ next ∈ words.head?, IsOption next)
    (hrest : Spells v words parts) : Spells v (("--" ++ name) :: words) (part :: parts)
  | letters {cs : List Char} {words : List String} {said parts : List Part} (hne : cs ≠ [])
    (h : Letters v cs said) (hrest : Spells v words parts) :
    Spells v (String.ofList ('-' :: cs) :: words) (said ++ parts)
  | lettersApart {cs : List Char} {c : Char} {text : String} {words : List String} {part : Part}
    {said parts : List Part} (hcs : List.Forall₂ v.letter cs said) (h : v.letterValue c text part)
    (htext : ¬ IsOption text) (hrest : Spells v words parts) :
    Spells v (String.ofList ('-' :: cs ++ [c]) :: text :: words) (said ++ part :: parts)

/-- The options of a check that have no value. -/
inductive CheckFlag : String → Part → Prop where
  | noColor : CheckFlag "no-color" .noColor
  | verbose : CheckFlag "verbose" .verbose
  | resolutions : CheckFlag "resolutions" .resolutions
  | tree : CheckFlag "tree" .tree

/-- The options of a check that have a value. -/
inductive CheckValue : String → String → Part → Prop where
  | config {text : String} (h : text ≠ "") : CheckValue "config" text (.config (.ofText text))
  | conformance {text : String} {level : Conformance} (h : LevelNamed text.toLower level) :
    CheckValue "conformance" text (.conformance level)
  | caseSensitive : CheckValue "case-sensitive" "true" (.caseSensitive true)
  | caseInsensitive : CheckValue "case-sensitive" "false" (.caseSensitive false)
  | unresolvedLabel {text : String} {policy : UnresolvedPolicy}
    (h : PolicyNamed text.toLower policy) :
    CheckValue "unresolved-label" text (.unresolvedLabel policy)

/-- The options of a check that can do without their value. -/
inductive CheckBare : String → Part → Prop where
  | caseSensitive : CheckBare "case-sensitive" (.caseSensitive true)

/-- The options of a test run that have no value. -/
inductive TestFlag : String → Part → Prop where
  | noColor : TestFlag "no-color" .noColor
  | verbose : TestFlag "verbose" .verbose
  | listCategories : TestFlag "list-categories" .listCategories

/-- The options of a test run that have a value, by their names and by their letters. -/
inductive TestValue : String → String → Part → Prop where
  | category {text : String} : TestValue "category" text (.category text)

@[inherit_doc TestValue]
inductive TestLetterValue : Char → String → Part → Prop where
  | category {text : String} : TestLetterValue 'c' text (.category text)

/-- The options of both commands that have a letter and no value. -/
inductive CommonLetter : Char → Part → Prop where
  | verbose : CommonLetter 'v' .verbose

/-- The options of a check. -/
def checkWords : Vocabulary where
  flag := CheckFlag
  letter := CommonLetter
  value := CheckValue
  letterValue _ _ _ := False
  bare := CheckBare

/-- The options of a test run. -/
def testWords : Vocabulary where
  flag := TestFlag
  letter := CommonLetter
  value := TestValue
  letterValue := TestLetterValue
  bare _ _ := False

/-! ### Whole command lines -/

/-- What is said to switch something on. -/
def switched (on : Bool) (part : Part) : List Part := if on then [part] else []

@[simp] theorem switched_true (part : Part) : switched true part = [part] := rfl

@[simp] theorem switched_false (part : Part) : switched false part = [] := rfl

/-- What is said to give something a value. -/
def given {α : Type} (value : Option α) (part : α → Part) : List Part := value.toList.map part

@[simp] theorem given_some {α : Type} (a : α) (part : α → Part) : given (some a) part = [part a] :=
  rfl

@[simp] theorem given_none {α : Type} (part : α → Part) : given none part = [] := rfl

/-- What has to be said, topic by topic, for a check to be asked for. -/
def CheckArguments.said (m : Manner) (a : CheckArguments) : Topic → List Part
  | .noColor => switched m.noColor .noColor
  | .verbose => switched m.verbose .verbose
  | .resolutions => switched a.resolutions .resolutions
  | .tree => switched a.tree .tree
  | .config => given a.settings.config .config
  | .conformance => given a.settings.conformance .conformance
  | .caseSensitive => given a.settings.caseSensitive .caseSensitive
  | .unresolvedLabel => given a.settings.unresolvedLabel .unresolvedLabel
  | .subject => [.subject a.file]
  | .listCategories | .category => []

/-- What has to be said, topic by topic, for a test run to be asked for. Categories may be named
more than once, and stand in the order in which they are. -/
def TestArguments.said (m : Manner) (a : TestArguments) : Topic → List Part
  | .noColor => switched m.noColor .noColor
  | .verbose => switched m.verbose .verbose
  | .listCategories => switched a.listCategories .listCategories
  | .category => a.categories.map .category
  | .subject => [.subject a.path]
  | .resolutions | .tree | .config | .conformance | .caseSensitive | .unresolvedLabel => []

/-- The parts of a command line about a topic, in their order. -/
def about (k : Topic) (parts : List Part) : List Part := parts.filter fun part => part.topic = k

/-- The words before the command: options of both commands, neither of them twice. -/
structure Precede (words : List String) (m : Manner) : Prop where
  known : ∀ word ∈ words, word = "--no-color" ∨ word = "--verbose" ∨ word = "-v"
  noColor : words.countP (fun word => word = "--no-color") = m.noColor.toNat
  verbose : words.countP (fun word => word = "--verbose" ∨ word = "-v") = m.verbose.toNat

/-- **The command lines that ask for a check.** The options of both commands may stand before the
command and behind it, and hold in either place. -/
inductive CheckLine : List String → Manner → CheckArguments → Prop where
  | intro {before behind : List String} {m n : Manner} {parts : List Part} {a : CheckArguments}
    (hbefore : Precede before m) (hbehind : Spells checkWords behind parts)
    (hsaid : ∀ k, about k parts = a.said n k) :
    CheckLine (before ++ "check" :: behind)
      { noColor := m.noColor || n.noColor, verbose := m.verbose || n.verbose } a

/-- **The command lines that ask for a test run.** -/
inductive TestLine : List String → Manner → TestArguments → Prop where
  | intro {before behind : List String} {m n : Manner} {parts : List Part} {a : TestArguments}
    (hbefore : Precede before m) (hbehind : Spells testWords behind parts)
    (hsaid : ∀ k, about k parts = a.said n k) :
    TestLine (before ++ "test" :: behind)
      { noColor := m.noColor || n.noColor, verbose := m.verbose || n.verbose } a

end LabelCheck.CommandLine
