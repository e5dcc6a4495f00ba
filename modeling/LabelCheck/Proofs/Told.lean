import LabelCheck.CommandLine.Log
import LabelCheck.Proofs.HeadLines

/-!
# What is told

A check writes its diagnostics, drawn or in lines, among the events that it logs. How reports are
drawn and how events are worded is left open; what is asked of the two is only that a drawing has
one head line and a logged event none. Then the head lines of the error text are those of what is
told, piece by piece.

Neither is asked of names and labels that break a line: what stands behind the break may open as a
head does.

* `Drawing.Headed`, `Logger.Headless`: what is asked of drawings and of the log;
* `framedDrawing`: a drawing with a frame, the name of the text and colours, which has it;
* `headLines_written`: the head lines of an error text;
* `headLines_diagnosticText`: a diagnostic is told with one head line.
-/

namespace LabelCheck

namespace CommandLine

open Files

/-! ### What is asked -/

/-- **Drawings with one head line.** A drawing is made of whole lines, and if nothing that it shows
breaks a line, one of them is the head line of the report and no other opens as one. -/
structure Drawing.Headed (draw : Drawing) : Prop where
  whole : ∀ noColor name source r, Whole (draw noColor name source r)
  heads : ∀ noColor name source r, '\n' ∉ name.toList → r.OneLine →
    headLines noColor (draw noColor name source r) = [seen noColor s!"{r.severity}: {r.message}"]

/-- Nothing that the event names breaks a line. -/
def LogEvent.OneLine : LogEvent → Prop
  | settingsLoaded file _ _ _ => '\n' ∉ file.shown.toList
  | procedureLoaded name _ _ => '\n' ∉ name.toList
  | treeBuilt _ => True
  | settleRefused label _ => label.OneLine
  | labelIgnored label => label.OneLine
  | validated name _ _ _ => '\n' ∉ name.toList

/-- **A log without head lines.** Events are worded in whole lines, and none of them opens as a head
does if nothing that the event names breaks a line. -/
structure Logger.Headless (log : Logger) : Prop where
  whole : ∀ noColor index event, Whole (log noColor index event)
  heads : ∀ noColor index event, event.OneLine → headLines noColor (log noColor index event) = []

theorem headless_silentLogger : silentLogger.Headless where
  whole _ _ _ := .inl rfl
  heads noColor _ _ _ := headLines_empty noColor

/-! ### Head lines of what is told -/

section Lines

variable (noColor : Bool)

/-- A severity opens a head line. -/
theorem isHead_severity (severity : Severity) (message : String) :
    isHead (seenLine noColor (s!"{severity}: {message}").toList) = true := by
  have hline : (s!"{severity}: {message}").toList =
      (severity.text ++ ": ").toList ++ message.toList := by
    show (severity.text ++ ": " ++ message).toList = _
    rw [String.toList_append]
  rw [hline]
  cases severity
  · exact isHead_seenLine_append noColor (by decide) (by decide) _
  · exact isHead_seenLine_append noColor (by decide) (by decide) _

theorem not_mem_severity {severity : Severity} {message : String} (h : '\n' ∉ message.toList) :
    '\n' ∉ (s!"{severity}: {message}").toList := by
  show '\n' ∉ (severity.text ++ ": " ++ message).toList
  simp only [String.toList_append, List.mem_append, not_or]
  exact ⟨⟨by cases severity <;> decide, by decide⟩, h⟩

/-- A line that is no head. -/
def IsPlain (line : String) : Prop :=
  '\n' ∉ line.toList ∧ isHead (seenLine noColor line.toList) = false

variable {noColor} in
/-- What opens with a blank is no head. -/
theorem isPlain_of_blank {opening rest : String}
    (hopening : opening.toList.head? = some ' ' ∧ '\n' ∉ opening.toList)
    (hrest : '\n' ∉ rest.toList) : IsPlain noColor (opening ++ rest) := by
  obtain ⟨hblank, hopening⟩ := hopening
  unfold IsPlain
  rw [String.toList_append]
  refine ⟨fun h => (List.mem_append.mp h).elim hopening hrest, ?_⟩
  obtain ⟨tail, htail⟩ := List.head?_eq_some_iff.mp hblank
  rw [htail, List.cons_append]
  exact isHead_seenLine_blank noColor _

variable {noColor} in
theorem isPlain_note {notes : List String} (h : ∀ note ∈ notes, '\n' ∉ note.toList) :
    ∀ line ∈ notes.map (fun note => s!"  = {note}"), IsPlain noColor line := by
  intro line hline
  obtain ⟨note, hnote, rfl⟩ := List.mem_map.mp hline
  show IsPlain noColor ("  = " ++ note)
  exact isPlain_of_blank (by decide) (h note hnote)

/-- Of a head and lines that are none there is one head line. -/
theorem headLines_cons {head : String} {lines : List String} (hhead : '\n' ∉ head.toList)
    (hishead : isHead (seenLine noColor head.toList) = true)
    (hlines : ∀ line ∈ lines, IsPlain noColor line) :
    headLines noColor (unlines (head :: lines)) = [seen noColor head] := by
  have hnone : lines.filter (fun line => isHead (seenLine noColor line.toList)) = [] := by
    rw [List.filter_eq_nil_iff]
    intro line hline
    rw [(hlines line hline).2]
    exact Bool.false_ne_true
  rw [headLines_unlines noColor (List.forall_mem_cons.mpr ⟨hhead, fun l hl => (hlines l hl).1⟩),
    List.filter_cons, if_pos hishead, hnone]
  rfl

/-- The lines about a report are its head line and its notes. -/
theorem headLines_plain {severity : Severity} {message : String} {notes : List String}
    (hmessage : '\n' ∉ message.toList) (hnotes : ∀ note ∈ notes, '\n' ∉ note.toList) :
    headLines noColor
        (unlines (s!"{severity}: {message}" :: notes.map fun note => s!"  = {note}")) =
      [seen noColor s!"{severity}: {message}"] :=
  headLines_cons noColor (not_mem_severity hmessage) (isHead_severity _ _ _) (isPlain_note hnotes)

end Lines

/-- The drawing without a picture has one head line. -/
theorem headed_plainDrawing : plainDrawing.Headed where
  whole _ _ _ _ := whole_unlines _
  heads noColor _ _ _ _ h := headLines_plain noColor h.message h.notes

/-! ### A drawing with a frame and colours -/

/-- A severity in colours, with the colon behind it. -/
def coloured : Severity → String
  | .error => "\x1b[0m\x1b[1m\x1b[38;5;9merror\x1b[0m\x1b[1m: "
  | .warning => "\x1b[0m\x1b[1m\x1b[38;5;11mwarning\x1b[0m\x1b[1m: "

/-- The severity of a report with its message, in colours if they are in use. -/
def framedHead (noColor : Bool) (r : Report) : String :=
  if noColor then s!"{r.severity}: {r.message}"
  else coloured r.severity ++ r.message ++ "\x1b[0m"

/-- The lines of a frame that belong to a mark: the name of the text, the text, and what is said
about the place. -/
def frame (name source : String) (mark : Mark) : List String :=
  let underline := String.ofList (List.replicate (mark.span.stop - mark.span.start) '^')
  s!"  ┌─ {name}" ::
    ((source.toList.splitOn '\n').map (fun line => "  │ " ++ .ofList line) ++
      ["  │ " ++ (underline ++ mark.message)])

/-- A drawing that shows each mark in a frame under the name of the text, and ends with an empty
line. -/
def framedDrawing : Drawing := fun noColor name source r =>
  unlines (framedHead noColor r ::
    (r.marks.flatMap (frame name source) ++ r.notes.map (fun note => s!"  = {note}") ++ [""]))

/-- A code at the end of a line is dropped. -/
theorem dropCodes_append_reset (held s : List Char) :
    dropCodes held (s ++ "\x1b[0m".toList) = dropCodes held s := by
  induction s generalizing held with
  | nil =>
    -- What is held back comes to nothing, for an escape goes on with no code.
    match held with
    | [] | [_] | _ :: _ :: _ => simp [dropCodes, continuesCode]
  | cons c s ih => simp only [List.cons_append, dropCodes, ih]

/-- Without the codes a severity in colours is the word for it. -/
theorem dropCodes_coloured (severity : Severity) (rest : List Char) :
    dropCodes [] ((coloured severity).toList ++ rest) =
      (severity.text ++ ": ").toList ++ dropCodes [] rest := by
  cases severity <;> rfl

theorem seenLine_framedHead (noColor : Bool) (r : Report) :
    seenLine noColor (framedHead noColor r).toList =
      seenLine noColor (s!"{r.severity}: {r.message}").toList := by
  cases noColor with
  | true => rfl
  | false =>
    have hhead : '\x1b' ∉ (r.severity.text ++ ": ").toList := by cases r.severity <;> decide
    have hline : (s!"{r.severity}: {r.message}").toList =
        (r.severity.text ++ ": ").toList ++ r.message.toList := by
      show (r.severity.text ++ ": " ++ r.message).toList = _
      rw [String.toList_append]
    show dropCodes [] (coloured r.severity ++ r.message ++ "\x1b[0m").toList = dropCodes [] _
    rw [String.toList_append, String.toList_append, List.append_assoc, dropCodes_coloured,
      dropCodes_append_reset, hline, dropCodes_append hhead]

/-- What stands between line feeds has none. -/
theorem not_mem_of_mem_splitOn {α : Type} [BEq α] [LawfulBEq α] {a : α} {as line : List α}
    (h : line ∈ as.splitOn a) : a ∉ line := by
  induction as generalizing line with
  | nil =>
    rw [List.splitOn_nil, List.mem_singleton] at h
    rw [h]
    exact List.not_mem_nil
  | cons b as ih =>
    rw [List.splitOn_cons_eq_if_modifyHead] at h
    obtain ⟨first, rest, hlines⟩ := List.exists_cons_of_ne_nil (List.splitOn_ne_nil a as)
    rw [hlines] at h ih
    by_cases hb : (b == a) = true
    · rw [if_pos hb] at h
      rcases List.mem_cons.mp h with rfl | h
      · exact List.not_mem_nil
      · exact ih h
    · rw [if_neg hb, List.modifyHead_cons] at h
      rcases List.mem_cons.mp h with rfl | h
      · rw [List.mem_cons, not_or]
        exact ⟨fun hab => hb (hab ▸ beq_self_eq_true a), ih List.mem_cons_self⟩
      · exact ih (List.mem_cons_of_mem _ h)

/-- No line of a frame opens as a head does. -/
theorem isPlain_of_mem_frame {noColor : Bool} {name source : String} {mark : Mark}
    (hname : '\n' ∉ name.toList) (hmark : '\n' ∉ mark.message.toList) {line : String}
    (hline : line ∈ frame name source mark) : IsPlain noColor line := by
  rcases List.mem_cons.mp hline with rfl | hline
  · exact isPlain_of_blank (by decide) hname
  · rcases List.mem_append.mp hline with hline | hline
    · obtain ⟨text, htext, rfl⟩ := List.mem_map.mp hline
      refine isPlain_of_blank (by decide) ?_
      rw [String.toList_ofList]
      exact not_mem_of_mem_splitOn htext
    · rw [List.mem_singleton.mp hline]
      refine isPlain_of_blank (by decide) ?_
      rw [String.toList_append, String.toList_ofList, List.mem_append, not_or]
      exact ⟨fun h => absurd (List.eq_of_mem_replicate h) (by decide), hmark⟩

/-- **A drawing with a frame has one head line,** in colours or without. -/
theorem headed_framedDrawing : framedDrawing.Headed where
  whole _ _ _ _ := whole_unlines _
  heads noColor name source r hname h := by
    have hhead : '\n' ∉ (framedHead noColor r).toList := by
      cases noColor with
      | true => exact not_mem_severity h.message
      | false =>
        show '\n' ∉ (coloured r.severity ++ r.message ++ "\x1b[0m").toList
        simp only [String.toList_append, List.mem_append, not_or]
        exact ⟨⟨by cases r.severity <;> decide, h.message⟩, by decide⟩
    have hishead : isHead (seenLine noColor (framedHead noColor r).toList) = true := by
      rw [seenLine_framedHead]
      exact isHead_severity noColor _ _
    have hlines : ∀ line ∈ r.marks.flatMap (frame name source) ++
        r.notes.map (fun note => s!"  = {note}") ++ [""], IsPlain noColor line := by
      intro line hline
      rcases List.mem_append.mp hline with hline | hline
      · rcases List.mem_append.mp hline with hline | hline
        · obtain ⟨mark, hmark, hline⟩ := List.mem_flatMap.mp hline
          exact isPlain_of_mem_frame hname (h.marks mark hmark) hline
        · exact isPlain_note h.notes line hline
      · rw [List.mem_singleton.mp hline]
        cases noColor <;> exact ⟨List.not_mem_nil, rfl⟩
    rw [framedDrawing, headLines_cons noColor hhead hishead hlines]
    show [String.ofList (seenLine noColor _)] = _
    rw [seenLine_framedHead]
    rfl

/-! ### The error text -/

/-- The head lines of a piece: those of what is told, for nothing that is logged is one. -/
def Piece.heads (noColor : Bool) : Piece → List String
  | told text => headLines noColor text
  | logged _ => []

/-- The pieces are made of whole lines, and nothing that is logged breaks one. -/
structure WellTold (m : Manner) (pieces : List Piece) : Prop where
  told : ∀ text, .told text ∈ pieces → Whole text
  logged : ∀ event, .logged event ∈ pieces → m.verbose = true ∨ event.isWarning = true →
    event.OneLine

theorem WellTold.append {m : Manner} {pieces pieces' : List Piece} (h : WellTold m pieces)
    (h' : WellTold m pieces') : WellTold m (pieces ++ pieces') where
  told text htext := (List.mem_append.mp htext).elim (h.told text) (h'.told text)
  logged event hevent := (List.mem_append.mp hevent).elim (h.logged event) (h'.logged event)

theorem wellTold_logged {m : Manner} {events : List LogEvent}
    (h : ∀ event ∈ events, m.verbose = true ∨ event.isWarning = true → event.OneLine) :
    WellTold m (events.map .logged) where
  told text htext := by simp at htext
  logged event hevent := by
    obtain ⟨event', hevent', heq⟩ := List.mem_map.mp hevent
    cases heq
    exact h event hevent'

theorem wellTold_told {m : Manner} {texts : List String} (h : ∀ text ∈ texts, Whole text) :
    WellTold m (texts.map .told) where
  told text htext := by
    obtain ⟨text', htext', heq⟩ := List.mem_map.mp htext
    cases heq
    exact h text htext'
  logged event hevent := by simp at hevent

/-- **The head lines of an error text** are those of its pieces, in their order. -/
theorem headLines_written {log : Logger} (hlog : log.Headless) {m : Manner} {pieces : List Piece}
    (h : WellTold m pieces) :
    headLines m.noColor (written log m pieces) = pieces.flatMap (Piece.heads m.noColor) := by
  -- The number of events logged before does not matter, so that it is any.
  unfold written
  generalize 0 = index
  induction pieces generalizing index with
  | nil => exact headLines_empty _
  | cons piece pieces ih =>
    have hrest : WellTold m pieces :=
      ⟨fun text htext => h.told text (List.mem_cons_of_mem _ htext),
        fun event hevent => h.logged event (List.mem_cons_of_mem _ hevent)⟩
    cases piece with
    | told text =>
      rw [writtenFrom, headLines_append _ (h.told text List.mem_cons_self), ih hrest]
      rfl
    | logged event =>
      rw [writtenFrom]
      by_cases hshown : (m.verbose || event.isWarning) = true
      · have hline := h.logged event List.mem_cons_self (Bool.or_eq_true _ _ ▸ hshown)
        rw [if_pos hshown, headLines_append _ (hlog.whole _ _ _), hlog.heads _ _ _ hline, ih hrest]
        rfl
      · rw [if_neg hshown, ih hrest]
        rfl

theorem flatMap_heads_logged (noColor : Bool) (events : List LogEvent) :
    (events.map Piece.logged).flatMap (Piece.heads noColor) = [] := by
  rw [List.flatMap_map]
  exact List.flatMap_eq_nil_iff.mpr fun _ _ => rfl

/-- Without events nothing but what is told is written. -/
theorem written_told (log : Logger) (m : Manner) (texts : List String) :
    written log m (texts.map .told) = String.join texts := by
  unfold written
  generalize 0 = index
  induction texts with
  | nil => exact String.join_nil.symm
  | cons text texts ih => rw [List.map_cons, writtenFrom, ih, String.join_cons]

theorem written_told_line (log : Logger) (m : Manner) (texts : List String) (line : String) :
    written log m (texts.map .told ++ [.line line]) = String.join texts ++ (line ++ "\n") := by
  have htexts : texts.map Piece.told ++ [.line line] = (texts ++ [line ++ "\n"]).map .told := by
    rw [List.map_append]
    rfl
  rw [htexts, written_told, String.join_append, String.join_cons, String.join_nil,
    String.append_empty]

/-- Events are passed over if nobody asks for them. -/
theorem written_logged_append {log : Logger} {m : Manner} (hm : m.verbose = false)
    {events : List LogEvent} (hevents : ∀ event ∈ events, event.isWarning = false)
    (pieces : List Piece) :
    written log m (events.map .logged ++ pieces) = written log m pieces := by
  induction events with
  | nil => rfl
  | cons event events ih =>
    obtain ⟨hevent, hevents⟩ := List.forall_mem_cons.mp hevents
    rw [List.map_cons, List.cons_append, written, writtenFrom, hm, hevent, Bool.or_false,
      if_neg Bool.false_ne_true]
    exact ih hevents

/-! ### Diagnostics -/

section Diagnostics

variable {draw : Drawing} (hdraw : draw.Headed) (noColor : Bool) (name : String)
  (source : Option String)
include hdraw

theorem whole_diagnosticText (d : Diagnostic) :
    Whole (diagnosticText draw noColor name source d) := by
  unfold diagnosticText
  split
  · exact hdraw.whole _ _ _ _
  · exact whole_unlines _

/-- **A diagnostic is told with one head line,** drawn or not. Where it is drawn, the name of the
text is shown. -/
theorem headLines_diagnosticText {d : Diagnostic} (h : d.report.OneLine)
    (hname : d.span ≠ none → source ≠ none → '\n' ∉ name.toList) :
    headLines noColor (diagnosticText draw noColor name source d) = [seen noColor d.head] := by
  unfold diagnosticText
  split
  · next span source hspan =>
    exact hdraw.heads _ _ _ _ (hname (by simp [hspan]) nofun) h
  · exact headLines_plain noColor h.message h.notes

/-- What is told about the diagnostics has their head lines. -/
theorem flatMap_heads_diagnosticText {ds : List Diagnostic}
    (hds : ∀ d ∈ ds, d.report.OneLine)
    (hname : source ≠ none ∧ (∃ d ∈ ds, d.span ≠ none) → '\n' ∉ name.toList) :
    ((ds.map (diagnosticText draw noColor name source)).map Piece.told).flatMap
        (Piece.heads noColor) = ds.map fun d => seen noColor d.head := by
  induction ds with
  | nil => rfl
  | cons d ds ih =>
    obtain ⟨hd, hds⟩ := List.forall_mem_cons.mp hds
    have hrest := ih hds fun ⟨hsource, d', hd', hspan⟩ =>
      hname ⟨hsource, d', List.mem_cons_of_mem _ hd', hspan⟩
    have hfirst := headLines_diagnosticText hdraw noColor name source hd fun hspan hsource =>
      hname ⟨hsource, d, List.mem_cons_self, hspan⟩
    rw [List.map_cons, List.map_cons, List.flatMap_cons, hrest, List.map_cons]
    show headLines noColor _ ++ _ = _
    rw [hfirst, List.singleton_append]

end Diagnostics

end CommandLine

end LabelCheck
