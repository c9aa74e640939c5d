import DocTemplate.Text.Offset
import Mathlib.Data.String.Basic

/-!
# Slices of a text

A slice of a text is given by two offsets in its UTF-8 bytes. It is a text only if both offsets are
boundaries: neither is behind the end, and neither cuts a character in two. `slice?` asks for this
before it cuts, so that a slice that is none shows.

An offset is a boundary exactly if it is the length of a front part of the text
(`isBoundary_iff`), and between the ends of two front parts lies what one has more than the other
(`slice?_append`).
-/

namespace DocTemplate.Text

/-- An offset is not behind the end of a text, and what stands before it is UTF-8. -/
def IsBoundary (text : String) (offset : Nat) : Prop :=
  String.Pos.Raw.IsValid text ⟨offset⟩

instance (text : String) (offset : Nat) : Decidable (IsBoundary text offset) :=
  inferInstanceAs (Decidable (String.Pos.Raw.IsValid text ⟨offset⟩))

/-- The part of a text between two offsets, if these are boundaries in this order. -/
def slice? (text : String) (start stop : Nat) : Option String :=
  if start ≤ stop ∧ IsBoundary text start ∧ IsBoundary text stop then
    some (String.Pos.Raw.extract text ⟨start⟩ ⟨stop⟩)
  else none

theorem utf8Length_eq_utf8Len (text : List Char) : utf8Length text = String.utf8Len text := by
  induction text with
  | nil => rfl
  | cons c text ih => rw [utf8Length_cons, ih, String.utf8Len_cons, Nat.add_comm]

theorem utf8ByteSize_eq (text : String) : text.utf8ByteSize = utf8Length text.toList := by
  rw [utf8Length_eq_utf8Len, ← String.utf8ByteSize_ofList, String.ofList_toList]

theorem IsBoundary.le {text : String} {offset : Nat} (h : IsBoundary text offset) :
    offset ≤ text.utf8ByteSize :=
  h.le_utf8ByteSize

/-- **A boundary is the length of a front part.** -/
theorem isBoundary_iff {text : String} {offset : Nat} :
    IsBoundary text offset ↔
      ∃ before after, text.toList = before ++ after ∧ offset = utf8Length before := by
  rw [IsBoundary, String.Pos.Raw.isValid_iff_exists_append]
  constructor
  · rintro ⟨before, after, rfl, hoffset⟩
    refine ⟨before.toList, after.toList, String.toList_append, ?_⟩
    rw [← utf8ByteSize_eq]
    exact congrArg String.Pos.Raw.byteIdx hoffset
  · rintro ⟨before, after, htext, rfl⟩
    refine ⟨String.ofList before, String.ofList after, ?_, ?_⟩
    · rw [← String.ofList_append, ← htext, String.ofList_toList]
    · rw [String.Pos.Raw.ext_iff, String.byteIdx_rawEndPos, utf8ByteSize_eq, String.toList_ofList]

theorem isBoundary_zero (text : String) : IsBoundary text 0 :=
  isBoundary_iff.mpr ⟨[], text.toList, rfl, rfl⟩

/-- **A slice between front parts.** -/
theorem slice?_append {text : String} {before between after : List Char}
    (htext : text.toList = before ++ between ++ after) :
    slice? text (utf8Length before) (utf8Length (before ++ between)) =
      some (String.ofList between) := by
  have hstart : IsBoundary text (utf8Length before) :=
    isBoundary_iff.mpr ⟨before, between ++ after, by rw [htext, List.append_assoc], rfl⟩
  have hstop : IsBoundary text (utf8Length (before ++ between)) :=
    isBoundary_iff.mpr ⟨before ++ between, after, htext, rfl⟩
  have hle : utf8Length before ≤ utf8Length (before ++ between) := by
    rw [utf8Length_append]
    exact Nat.le_add_right _ _
  rw [slice?, if_pos ⟨hle, hstart, hstop⟩, utf8Length_append, utf8Length_eq_utf8Len,
    utf8Length_eq_utf8Len, ← String.ofList_toList (s := text), htext, String.extract_of_valid]

/-- What stands before an end of a front part. -/
theorem slice?_zero {text : String} {before after : List Char}
    (htext : text.toList = before ++ after) :
    slice? text 0 (utf8Length before) = some (String.ofList before) :=
  @slice?_append text [] before after htext

/-- And what stands behind it. -/
theorem slice?_utf8ByteSize {text : String} {before after : List Char}
    (htext : text.toList = before ++ after) :
    slice? text (utf8Length before) text.utf8ByteSize = some (String.ofList after) := by
  rw [utf8ByteSize_eq, htext]
  exact @slice?_append text before after [] (by rw [htext, List.append_nil])

end DocTemplate.Text
