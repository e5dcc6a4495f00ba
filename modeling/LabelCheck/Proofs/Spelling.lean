import LabelCheck.Identifier

/-!
# Identifiers and their written forms

Writing an identifier and reading it again gives the identifier back, unless it is a regular one
whose name is not a regular name: one with blanks around it, or one that is delimited itself.
Reading never makes such an identifier, whatever the text.

* `Text.trim_trim`, `Text.trim_eq_self`: texts without blanks around them;
* `Identifier.Stable`: the identifiers that survive;
* `Identifier.parse_text_iff`, `Identifier.stable_parse`: they are the ones that are given back, and
  the only ones that are read;
* `Identifier.text_codec`: both together, with what it takes said of the text alone.
-/

namespace LabelCheck

namespace Text

variable {cs : List Char}

/-- Blanks at the start are gone when none is there. -/
theorem trimStart_eq_self (h : ∀ c, cs.head? = some c → isBlank c = false) :
    trimStart cs = cs := by
  cases cs with
  | nil => rfl
  | cons c rest => exact List.dropWhile_cons_of_neg (by simp [h c rfl])

theorem isBlank_head_trimStart (cs : List Char) {c : Char} (h : (trimStart cs).head? = some c) :
    isBlank c = false := by
  have hhead := List.head?_dropWhile_not isBlank cs
  rw [show cs.dropWhile isBlank = trimStart cs from rfl, h] at hhead
  exact hhead

/-- A text without blanks at its two ends is its own trimmed form. -/
theorem trim_eq_self (hfirst : ∀ c, cs.head? = some c → isBlank c = false)
    (hlast : ∀ c, cs.getLast? = some c → isBlank c = false) : trim cs = cs := by
  have hreverse : trimStart cs.reverse = cs.reverse := by
    refine trimStart_eq_self fun c hc => hlast c ?_
    rwa [List.head?_reverse] at hc
  calc trim cs
      = (trimStart cs.reverse).reverse := by rw [trim, trimStart_eq_self hfirst]
    _ = cs.reverse.reverse := by rw [hreverse]
    _ = cs := List.reverse_reverse cs

/-- Trimming leaves a beginning of what is left without the blanks at the start. -/
theorem trim_prefix_trimStart (cs : List Char) : trim cs <+: trimStart cs := by
  have hsuffix : trimStart (trimStart cs).reverse <:+ (trimStart cs).reverse :=
    List.dropWhile_suffix isBlank
  have hprefix := List.reverse_prefix.mpr hsuffix
  rwa [List.reverse_reverse] at hprefix

/-- **Trimming once is enough.** -/
theorem trim_trim (cs : List Char) : trim (trim cs) = trim cs := by
  refine trim_eq_self ?_ ?_
  · intro c hc
    obtain ⟨rest, hrest⟩ := trim_prefix_trimStart cs
    refine isBlank_head_trimStart cs ?_
    rw [← hrest, List.head?_append, hc]
    rfl
  · intro c hc
    refine isBlank_head_trimStart (trimStart cs).reverse ?_
    rwa [trim, List.getLast?_reverse] at hc

/-- **A text that is delimited itself:** it begins with a quote and ends with another one. -/
structure Delimited (cs : List Char) : Prop where
  /-- A quote alone is not two. -/
  two_le : 2 ≤ cs.length
  head?_eq : cs.head? = some '"'
  getLast?_eq : cs.getLast? = some '"'

/-- Nothing stands between delimiters exactly if the text is not delimited. -/
theorem delimited?_eq_none_iff (cs : List Char) : delimited? cs = none ↔ ¬ Delimited cs := by
  cases cs with
  | nil => exact iff_of_true rfl fun h => by cases h.head?_eq
  | cons c rest =>
    -- Behind the first character the last one is that of the rest, if there is a rest.
    have hlast : ∀ q : Char, rest.getLast? = some q →
        (c :: rest).getLast? = some q ∧ 2 ≤ (c :: rest).length := by
      intro q hq
      have hne : rest ≠ [] := by
        rintro rfl
        cases hq
      refine ⟨?_, ?_⟩
      · rw [List.getLast?_cons, hq]
        rfl
      · rw [List.length_cons]
        have hpos := List.length_pos_iff.mpr hne
        omega
    rw [delimited?, ite_eq_right_iff]
    constructor
    · rintro h ⟨htwo, hhead, hend⟩
      have hrest : rest.getLast? = some '"' := by
        cases rest with
        | nil => exact absurd htwo (by simp)
        | cons d rest => rwa [List.getLast?_cons_cons] at hend
      cases h ⟨Option.some.inj hhead, hrest⟩
    · rintro h ⟨rfl, hrest⟩
      obtain ⟨hend, htwo⟩ := hlast '"' hrest
      exact absurd ⟨htwo, rfl, hend⟩ h

/-- What stands between two quotes is found again. -/
theorem delimited?_quoted (inner : List Char) :
    delimited? ('"' :: inner ++ ['"']) = some inner := by
  simp [delimited?]

theorem trim_quoted (inner : List Char) : trim ('"' :: inner ++ ['"']) = '"' :: inner ++ ['"'] := by
  refine trim_eq_self ?_ ?_
  · intro c hc
    cases hc
    rfl
  · intro c hc
    rw [List.getLast?_append, List.getLast?_singleton] at hc
    cases hc
    rfl

end Text

namespace Identifier

/-- **Identifiers that survive writing and reading:** every delimited one, and a regular one whose
name has no blanks around it and does not stand between quotes. -/
def Stable (i : Identifier) : Prop :=
  i.quoted = true ∨
    (Text.trim i.name.toList = i.name.toList ∧ Text.delimited? i.name.toList = none)

instance (i : Identifier) : Decidable i.Stable := inferInstanceAs (Decidable (_ ∨ _ ∧ _))

theorem parse_of_delimited {text : String} {inner : List Char}
    (h : Text.delimited? (Text.trim text.toList) = some inner) :
    parse text = delimited (String.ofList (Text.undouble inner)) := by
  simp only [parse, h]

theorem parse_of_regular {text : String} (h : Text.delimited? (Text.trim text.toList) = none) :
    parse text = regular (String.ofList (Text.trim text.toList)) := by
  simp only [parse, h]

/-- A delimited identifier is given back. -/
theorem parse_text_delimited (name : String) : parse (delimited name).text = delimited name := by
  have htext : (delimited name).text.toList = '"' :: Text.double name.toList ++ ['"'] := by
    rw [text_delimited, String.toList_ofList]
  have hinner : Text.delimited? (Text.trim (delimited name).text.toList) =
      some (Text.double name.toList) := by
    rw [htext, Text.trim_quoted, Text.delimited?_quoted]
  rw [parse_of_delimited hinner, Text.undouble_double, String.ofList_toList]

/-- **The identifiers that are given back** when they are written and read. -/
theorem parse_text_iff (i : Identifier) : parse i.text = i ↔ i.Stable := by
  obtain ⟨name, quoted⟩ := i
  cases quoted with
  | true => exact ⟨fun _ => .inl rfl, fun _ => parse_text_delimited name⟩
  | false =>
    show parse name = regular name ↔ _
    constructor
    · intro h
      cases hd : Text.delimited? (Text.trim name.toList) with
      | some inner =>
        rw [parse_of_delimited hd] at h
        cases congrArg Identifier.quoted h
      | none =>
        rw [parse_of_regular hd] at h
        have hname : String.ofList (Text.trim name.toList) = name := congrArg Identifier.name h
        have htrim : Text.trim name.toList = name.toList := by
          rw [← String.ofList_inj, hname, String.ofList_toList]
        exact .inr ⟨htrim, by rwa [htrim] at hd⟩
    · rintro (h | ⟨htrim, hd⟩)
      · cases h
      · have hd' : Text.delimited? (Text.trim name.toList) = none := by rw [htrim, hd]
        rw [parse_of_regular hd', htrim, String.ofList_toList]

/-- **Reading gives identifiers that survive,** whatever the text. -/
theorem stable_parse (text : String) : (parse text).Stable := by
  cases hd : Text.delimited? (Text.trim text.toList) with
  | some inner =>
    rw [parse_of_delimited hd]
    exact .inl rfl
  | none =>
    rw [parse_of_regular hd]
    refine .inr ⟨?_, ?_⟩
    · show Text.trim (String.ofList _).toList = (String.ofList _).toList
      rw [String.toList_ofList, Text.trim_trim]
    · show Text.delimited? (String.ofList _).toList = none
      rw [String.toList_ofList, hd]

example : parse "\"a" = regular "\"a" := by decide

/-- Of the identifiers that survive no two are written alike. -/
theorem Stable.eq_of_text_eq {i j : Identifier} (hi : i.Stable) (hj : j.Stable)
    (h : i.text = j.text) : i = j := by
  calc i = parse i.text := ((parse_text_iff i).mpr hi).symm
    _ = parse j.text := by rw [h]
    _ = j := (parse_text_iff j).mpr hj

/-- The identifiers that survive are those that are read from texts. -/
theorem exists_eq_parse_iff {i : Identifier} : (∃ text, i = parse text) ↔ i.Stable := by
  constructor
  · rintro ⟨text, rfl⟩
    exact stable_parse text
  · intro h
    exact ⟨i.text, ((parse_text_iff i).mpr h).symm⟩

/-- **Writing and reading.** A delimited identifier is given back when it is written and read, and a
regular one exactly if its name has no blanks around it and is not delimited itself. Whatever the
text, the identifier that is read from it is given back, so that no two that are read are written
alike. -/
theorem text_codec :
    (∀ i : Identifier, parse i.text = i ↔
      i.quoted = true ∨ i.quoted = false ∧ Text.trim i.name.toList = i.name.toList ∧
        ¬ Text.Delimited i.name.toList) ∧
      (∀ text, parse (parse text).text = parse text) ∧
      ∀ text text', (parse text).text = (parse text').text → parse text = parse text' := by
  refine ⟨?_, ?_, ?_⟩
  · intro i
    rw [parse_text_iff, Stable, Text.delimited?_eq_none_iff]
    cases i.quoted with
    | true => simp
    | false => simp
  · intro text
    exact (parse_text_iff (parse text)).mpr (stable_parse text)
  · intro text text' h
    exact (stable_parse text).eq_of_text_eq (stable_parse text') h

end Identifier

end LabelCheck
