import LabelCheck.Proofs.SettingsMeaning
import LabelCheck.Proofs.Told

/-!
# The files of a check

A check takes its settings and its procedure from two files. What it finds in them is stated here by
what the texts say as TOML, and where it finds nothing, by what it tells of that. Of the place at
which a text goes wrong nothing is told.

* `Refusal`: what is told of a file that gives nothing;
* `SettingsFrom`, `DocumentFrom`: what a run finds as its settings and as its procedure;
* `load_settings`, `load_document`: this is what a run loads.
-/

namespace LabelCheck

namespace CommandLine

open Files Document

/-! ### Refusals -/

/-- What is told of a file that gives nothing: one line, and the misfit of a document below it. -/
structure Refusal where
  line : String
  reason : Option Misfit := none

namespace Refusal

/-- The message of a refusal. -/
def message (r : Refusal) : String :=
  match r.reason with
  | none => r.line
  | some reason => r.line ++ "\n" ++ reason.message

/-- Neither of the two parts breaks a line. -/
structure Unbroken (r : Refusal) : Prop where
  line : '\n' ∉ r.line.toList
  reason : ∀ reason ∈ r.reason, '\n' ∉ reason.message.toList

end Refusal

/-- A line that opens in this way is no head, whatever follows. -/
def Harmless (opening : String) : Prop :=
  '\x1b' ∉ opening.toList ∧ ∀ rest, isHead (opening.toList ++ rest) = false

theorem Harmless.isHead_seenLine {opening rest : String} (h : Harmless opening) (noColor : Bool) :
    isHead (seenLine noColor (opening ++ rest).toList) = false := by
  rw [String.toList_append, seenLine_append h.1]
  exact h.2 _

theorem isHead_seenLine_message (noColor : Bool) (reason : Misfit) :
    isHead (seenLine noColor reason.message.toList) = false := by
  -- The message up to the first thing that it names.
  obtain ⟨opening, rest, hmessage, hopening⟩ : ∃ opening rest,
      reason.message = opening ++ rest ∧ Harmless opening := by
    cases reason with
    | missingField field =>
      refine ⟨"missing field `", field ++ "`", ?_, by decide, fun _ => rfl⟩
      show "missing field `" ++ field ++ "`" = _
      rw [String.append_assoc]
    | unknownField field known =>
      refine ⟨"unknown field `", field ++ "`, expected " ++ quoteAll known, ?_, by decide,
        fun _ => rfl⟩
      show "unknown field `" ++ field ++ "`, expected " ++ quoteAll known = _
      simp only [String.append_assoc]
    | unknownVariant given known =>
      refine ⟨"unknown variant `", given ++ "`, expected " ++ quoteAll known, ?_, by decide,
        fun _ => rfl⟩
      show "unknown variant `" ++ given ++ "`, expected " ++ quoteAll known = _
      simp only [String.append_assoc]
    | invalidType found expected =>
      refine ⟨"invalid type: ", found.text ++ ", expected " ++ expected.text, ?_, by decide,
        fun _ => rfl⟩
      show "invalid type: " ++ found.text ++ ", expected " ++ expected.text = _
      simp only [String.append_assoc]
    | negativeSize value =>
      refine ⟨"invalid value: integer `", toString value ++ "`, expected usize", ?_, by decide,
        fun _ => rfl⟩
      show "invalid value: integer `" ++ toString value ++ "`, expected usize" = _
      rw [String.append_assoc]
    | tooShort items expected =>
      refine ⟨"invalid length ", toString items ++ ", expected " ++ expected, ?_, by decide,
        fun _ => rfl⟩
      show "invalid length " ++ toString items ++ ", expected " ++ expected = _
      simp only [String.append_assoc]
    | tooLong items used =>
      let unit := if used == 1 then "element" else "elements"
      refine ⟨"invalid length ", toString items ++ ", expected " ++ toString used ++ " " ++ unit ++
        " in sequence", ?_, by decide, fun _ => rfl⟩
      show "invalid length " ++ toString items ++ ", expected " ++ toString used ++ " " ++ unit ++
        " in sequence" = _
      simp only [String.append_assoc]
    | plainContent typeName =>
      refine ⟨"expected table, found ", typeName, rfl, by decide, fun _ => rfl⟩
    | notAChoice | noChoice | severalChoices | headedContent | filledContent =>
      exact ⟨_, "", String.append_empty.symm, by decide, fun _ => rfl⟩
  rw [hmessage]
  exact hopening.isHead_seenLine noColor

theorem unlines_singleton (line : String) : unlines [line] = line ++ "\n" := by
  rw [unlines, List.map_singleton, String.join_cons, String.join_nil, String.append_empty]

/-- **A refusal has one head line,** which is an error: the misfit below it opens as no head
does. -/
theorem Refusal.headLines_message {r : Refusal} (h : r.Unbroken) (noColor : Bool) :
    headLines noColor (s!"error: {r.message}" ++ "\n") = [seen noColor s!"error: {r.line}"] := by
  have hline : '\n' ∉ (s!"error: {r.line}").toList := by
    show '\n' ∉ ("error: " ++ r.line).toList
    rw [String.toList_append, List.mem_append, not_or]
    exact ⟨by decide, h.line⟩
  have hhead : isHead (seenLine noColor (s!"error: {r.line}").toList) = true := by
    show isHead (seenLine noColor ("error: " ++ r.line).toList) = true
    rw [String.toList_append]
    exact isHead_seenLine_append noColor (by decide) (by decide) _
  obtain ⟨line, reason⟩ := r
  cases reason with
  | none =>
    rw [← unlines_singleton]
    exact headLines_cons noColor hline hhead (List.forall_mem_nil _)
  | some reason =>
    have htext : s!"error: {line}" ++ "\n" ++ (reason.message ++ "\n") =
        unlines [s!"error: {line}", reason.message] := by
      rw [← unlines_singleton reason.message]
      exact String.join_cons.symm
    have hplain : ∀ below ∈ [reason.message], IsPlain noColor below := by
      rw [List.forall_mem_singleton]
      exact ⟨h.reason reason rfl, isHead_seenLine_message noColor reason⟩
    have hmessage : s!"error: {Refusal.message ⟨line, some reason⟩}" ++ "\n" =
        s!"error: {line}" ++ "\n" ++ (reason.message ++ "\n") := by
      show "error: " ++ (line ++ "\n" ++ reason.message) ++ "\n" =
        "error: " ++ line ++ "\n" ++ (reason.message ++ "\n")
      simp only [String.append_assoc]
    rw [hmessage, htext, headLines_cons noColor hline hhead hplain]

/-! ### What the files give -/

section FoundIn

variable {α : Type} (means : Toml.Table → α → Prop) (read : Toml.Table → Read α) (failure : String)
  (files : Access Id) (path : Path)

/-- **What a run finds in a file,** given what a table has to say, how a table is read that does not
say it, and what a failure is called. -/
inductive FoundIn : Except Refusal α → Prop where
  | unreadable {error : FileError} (hread : files.read path = .error error) :
    FoundIn (.error { line := s!"cannot read '{path}': {error.message}" })
  /-- The text is not TOML. -/
  | malformed {text : String} (hread : files.read path = .ok text)
    (htoml : Toml.parse text = none) :
    FoundIn (.error { line := s!"{failure}: TOML parse error" })
  /-- The text is TOML and says nothing of the kind. -/
  | misfit {text : String} {entries : Toml.Table} {reason : Misfit}
    (hread : files.read path = .ok text) (htoml : Toml.parse text = some entries)
    (h : ∀ a, ¬ means entries a) (hreason : read entries = .error reason) :
    FoundIn (.error { line := s!"{failure}: TOML parse error", reason })
  | given {text : String} {entries : Toml.Table} {a : α} (hread : files.read path = .ok text)
    (htoml : Toml.parse text = some entries) (h : means entries a) : FoundIn (.ok a)

variable {means failure files path}

/-- A text that is read gives what a run finds, and one that is not what it tells of that. -/
theorem FoundIn.of_readDocument {text : String} (hread : files.read path = .ok text)
    (hmean : ∀ {entries}, Toml.parse text = some entries →
      ∀ a, read entries = .ok a ↔ means entries a) :
    (∃ a, FoundIn means read failure files path (.ok a) ∧ readDocument read text = .ok a) ∨
      ∃ r error, FoundIn means read failure files path (.error r) ∧
        readDocument read text = .error error ∧
        s!"{failure}: {error.message}" = r.message := by
  have hfailure : failure ++ ": " ++ "TOML parse error" = failure ++ ": TOML parse error" := by
    rw [String.append_assoc]
    rfl
  unfold readDocument
  cases htoml : Toml.parse text with
  | none => exact .inr ⟨_, _, .malformed hread htoml, rfl, hfailure⟩
  | some entries =>
    cases hentries : read entries with
    | ok a =>
      refine .inl ⟨a, .given hread htoml ((hmean htoml a).mp hentries), ?_⟩
      simp only [hentries]
      rfl
    | error reason =>
      have hnothing (a : α) (h : means entries a) : False := by
        rw [(hmean htoml a).mpr h] at hentries
        cases hentries
      refine .inr ⟨_, .misfit reason, .misfit hread htoml hnothing hentries, ?_, ?_⟩
      · simp only [hentries]
        rfl
      · show failure ++ ": " ++ ("TOML parse error\n" ++ reason.message) =
          failure ++ ": TOML parse error" ++ "\n" ++ reason.message
        rw [← hfailure]
        simp only [String.append_assoc]
        rfl

variable {read} in
/-- What the text of a file says is all that is found there. -/
theorem FoundIn.eq_ok {found : Except Refusal α} (h : FoundIn means read failure files path found)
    {text : String} {entries : Toml.Table} {a : α} (hread : files.read path = .ok text)
    (htoml : Toml.parse text = some entries) (hmean : ∀ b, means entries b ↔ b = a) :
    found = .ok a := by
  cases h with
  | unreadable hread' =>
    rw [hread] at hread'
    cases hread'
  | malformed hread' htoml' =>
    obtain rfl := Except.ok.inj (hread.symm.trans hread')
    rw [htoml] at htoml'
    cases htoml'
  | misfit hread' htoml' hnothing _ =>
    obtain rfl := Except.ok.inj (hread.symm.trans hread')
    obtain rfl := Option.some.inj (htoml.symm.trans htoml')
    exact absurd ((hmean a).mpr rfl) (hnothing a)
  | given hread' htoml' h =>
    obtain rfl := Except.ok.inj (hread.symm.trans hread')
    obtain rfl := Option.some.inj (htoml.symm.trans htoml')
    rw [(hmean _).mp h]

end FoundIn

/-- **What a run finds as its settings,** given the path of their file if there is one. -/
inductive SettingsFrom (files : Access Id) : Option Path → Except Refusal Config → Prop where
  | absent : SettingsFrom files none (.ok {})
  | file {path : Path} {found : Except Refusal Config}
    (h : FoundIn SaysSettings readSettingsTable s!"invalid config '{path}'" files path found) :
    SettingsFrom files (some path) found

/-- **What a run finds as its procedure.** -/
def DocumentFrom (files : Access Id) (path : Path) (found : Except Refusal Procedure) : Prop :=
  FoundIn (fun entries p => GivesProcedure (.table entries) p) readProcedure
    "invalid procedure document" files path found

/-- The number of a procedure is no field of its document; it is that of the only text of a run. -/
theorem DocumentFrom.sourceId_eq {files : Access Id} {path : Path} {p : Procedure}
    (h : DocumentFrom files path (.ok p)) : p.sourceId = 0 := by
  cases h with
  | given _ htoml h =>
    have hread := (readProcedureValue_eq_ok_iff (Toml.keyed_of_parse htoml)).mpr h
    obtain ⟨_, _, hread⟩ := bind_eq_ok_iff.mp hread
    obtain ⟨_, _, hread⟩ := bind_eq_ok_iff.mp hread
    obtain ⟨_, _, hread⟩ := bind_eq_ok_iff.mp hread
    cases hread
    rfl

/-- Without effects the answer to a question is at hand. -/
theorem id_bind {α β : Type} (x : Id α) (f : α → Id β) : (x >>= f) = f x := rfl

/-- **The settings that a run loads** are those of its file with what the options override. -/
theorem load_settings (files : Access Id) (a : SettingArguments) :
    (∃ file, SettingsFrom files a.config (.ok file) ∧ a.load files = .ok (a.override file)) ∨
      ∃ (r : Refusal) (error : SettingsError), SettingsFrom files a.config (.error r) ∧
        a.load files = .error error ∧ error.message = r.message := by
  unfold SettingArguments.load
  cases a.config with
  | none => exact .inl ⟨{}, .absent, rfl⟩
  | some path =>
    cases hread : files.read path with
    | error error =>
      refine .inr ⟨_, .file path error, .file (.unreadable hread), ?_, rfl⟩
      simp only [id_bind, hread]
      rfl
    | ok text =>
      simp only [id_bind, hread]
      rcases FoundIn.of_readDocument readSettingsTable hread fun htoml _ =>
        readSettingsTable_eq_ok_iff (Toml.keyed_of_parse htoml).nodup with
        ⟨file, hfound, htext⟩ | ⟨r, error, hfound, htext, hmessage⟩
      · refine .inl ⟨file, .file hfound, ?_⟩
        rw [show Config.ofText text = .ok file from htext]
        rfl
      · refine .inr ⟨r, .document path error, .file hfound, ?_, ?_⟩
        · rw [show Config.ofText text = .error error from htext]
          rfl
        · have hquote : "': " = "'" ++ ": " := rfl
          show "invalid config '" ++ path.shown ++ "': " ++ error.message = r.message
          rw [← hmessage, hquote, ← String.append_assoc]
          rfl

/-- **The procedure that a run loads** is that of its document. -/
theorem load_document (files : Access Id) (path : Path) :
    (∃ p, DocumentFrom files path (.ok p) ∧ Procedure.load files path = .ok p) ∨
      ∃ (r : Refusal) (error : LoadError), DocumentFrom files path (.error r) ∧
        Procedure.load files path = .error error ∧ error.message = r.message := by
  unfold Procedure.load
  cases hread : files.read path with
  | error error =>
    refine .inr ⟨_, .file path error, .unreadable hread, ?_, rfl⟩
    rfl
  | ok text =>
    simp only [id_bind]
    rcases FoundIn.of_readDocument readProcedure hread fun htoml _ =>
      readProcedureValue_eq_ok_iff (Toml.keyed_of_parse htoml) with
      ⟨p, hfound, htext⟩ | ⟨r, error, hfound, htext, hmessage⟩
    · refine .inl ⟨p, hfound, ?_⟩
      rw [show Procedure.ofText text = .ok p from htext]
      rfl
    · refine .inr ⟨r, .document error, hfound, ?_, hmessage⟩
      rw [show Procedure.ofText text = .error error from htext]
      rfl

end CommandLine

end LabelCheck
