import LabelCheck.Text.Lossy

/-!
# Names of files

What a file system takes as a name or a path: any bytes. Most of them are texts in UTF-8; those that
are not can be shown only with replacement characters.

* `RawText`: bytes, with every text as its bytes in UTF-8;
* `RawText.text?`: the text that bytes are, if they are one;
* `RawText.shown`: the text by which they are shown.
-/

namespace LabelCheck.Files

/-- Any bytes, as a name or a path. -/
@[ext]
structure RawText where
  bytes : List UInt8
  deriving DecidableEq, Repr

namespace RawText

/-- A text by its bytes. -/
def ofText (text : String) : RawText := ⟨text.toByteArray.data.toList⟩

instance : Coe String RawText := ⟨ofText⟩

instance : Append RawText := ⟨fun a b => ⟨a.bytes ++ b.bytes⟩⟩

/-- The order of bytes, one after the other. -/
instance : LT RawText := ⟨fun a b => a.bytes < b.bytes⟩

instance : DecidableLT RawText := fun a b => inferInstanceAs (Decidable (a.bytes < b.bytes))

/-- The text in UTF-8 that the bytes are. -/
def text? (r : RawText) : Option String := String.fromUTF8? ⟨r.bytes.toArray⟩

/-- The text by which the bytes are shown. -/
def shown (r : RawText) : String :=
  match r.text? with
  | some text => text
  | none => Text.lossyText r.bytes

instance : ToString RawText := ⟨shown⟩

@[simp] theorem text?_ofText (text : String) : (ofText text).text? = some text := by
  have hbytes : (⟨(ofText text).bytes.toArray⟩ : ByteArray) = text.toByteArray := by simp [ofText]
  rw [text?, hbytes, String.fromUTF8?, dif_pos text.isValidUTF8]
  rfl

@[simp] theorem shown_ofText (text : String) : (ofText text).shown = text := by
  rw [shown, text?_ofText]

theorem ofText_injective {s t : String} (h : ofText s = ofText t) : s = t := by
  have htext := congrArg text? h
  rwa [text?_ofText, text?_ofText, Option.some.injEq] at htext

@[simp] theorem ofText_inj {s t : String} : ofText s = ofText t ↔ s = t :=
  ⟨ofText_injective, congrArg ofText⟩

/-- Bytes that are a text are the bytes of that text. -/
theorem text?_eq_some_iff {r : RawText} {text : String} :
    r.text? = some text ↔ r = ofText text := by
  constructor
  · intro h
    unfold text? String.fromUTF8? at h
    split at h
    · obtain rfl := Option.some.inj h
      ext1
      show r.bytes = r.bytes.toArray.toList
      rw [List.toList_toArray]
    · cases h
  · rintro rfl
    exact text?_ofText text

end RawText

end LabelCheck.Files
