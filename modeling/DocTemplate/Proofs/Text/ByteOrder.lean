import Mathlib.Data.List.Sort
import Mathlib.Data.String.Basic

/-!
# The order of texts

Texts are compared character by character. A character with a smaller number has an encoding in which
the first byte that differs is smaller, and whatever follows the encodings does not matter
(`encode_append_lt`). So the order of texts is also the order of their bytes in UTF-8
(`lt_iff_bytes_lt`), and a list is in the order of bytes (`InByteOrder`) exactly if it ascends.
-/

namespace DocTemplate.Text

/-- The bytes of a text in UTF-8. -/
def bytes (text : String) : List UInt8 :=
  text.toUTF8.data.toList

theorem bytes_eq_flatMap (text : String) :
    bytes text = text.toList.flatMap String.utf8EncodeChar := by
  rw [bytes, String.toUTF8, ← String.utf8Encode_toList, List.utf8Encode,
    List.toList_data_toByteArray]

/-! ### Characters -/

/-- A smaller byte in front decides; an equal one leaves it to what follows. -/
theorem ofNat_cons_lt {m n : Nat} {a b : List UInt8} (hm : m < 256) (hn : n < 256) (hle : m ≤ n)
    (h : m = n → a < b) : UInt8.ofNat m :: a < UInt8.ofNat n :: b := by
  rw [List.cons_lt_cons_iff, UInt8.lt_iff_toNat_lt, UInt8.toNat_ofNat_of_lt' hm,
    UInt8.toNat_ofNat_of_lt' hn]
  rcases Nat.lt_or_eq_of_le hle with hlt | rfl
  · exact Or.inl hlt
  · exact Or.inr ⟨rfl, h rfl⟩

/-- **Of two characters the one with the smaller number has the smaller encoding**, whatever follows
the encodings. -/
theorem encode_append_lt {c d : Char} (h : c < d) (a b : List UInt8) :
    String.utf8EncodeChar c ++ a < String.utf8EncodeChar d ++ b := by
  have hlt : c.val.toNat < d.val.toNat := UInt32.lt_iff_toNat_lt.mp (Char.lt_def.mp h)
  have hmax : d.val.toNat < 0x110000 := by
    have hvalid := d.valid
    simp only [UInt32.isValidChar, Nat.isValidChar] at hvalid
    omega
  -- The longer encoding is that of the larger number, and has the larger first byte. Two encodings
  -- of one length are compared as numerals with 64 for the base.
  simp only [String.utf8EncodeChar]
  split_ifs <;> try omega
  all_goals
    simp only [List.cons_append, List.nil_append]
    refine ofNat_cons_lt (by omega) (by omega) (by omega) fun _ => ?_
    repeat refine ofNat_cons_lt (by omega) (by omega) (by omega) fun _ => ?_
    omega

/-! ### Texts -/

theorem flatMap_encode_lt {s t : List Char} (h : s < t) :
    s.flatMap String.utf8EncodeChar < t.flatMap String.utf8EncodeChar := by
  induction s generalizing t with
  | nil =>
    cases t with
    | nil => exact absurd h (List.lt_irrefl [])
    | cons d t =>
      obtain ⟨first, rest, hencode⟩ := List.exists_cons_of_ne_nil (@String.utf8EncodeChar_ne_nil d)
      rw [List.flatMap_nil, List.flatMap_cons, hencode]
      exact List.nil_lt_cons _ _
  | cons c s ih =>
    cases t with
    | nil => exact absurd h (List.not_lt_nil _)
    | cons d t =>
      rw [List.flatMap_cons, List.flatMap_cons]
      rcases List.cons_lt_cons_iff.mp h with hlt | ⟨rfl, hrest⟩
      · exact encode_append_lt hlt _ _
      · exact List.append_left_lt (ih hrest)

/-- **Texts are ordered by their bytes.** -/
theorem lt_iff_bytes_lt {s t : String} : s < t ↔ bytes s < bytes t := by
  have hmono : ∀ {s t : String}, s < t → bytes s < bytes t := fun h => by
    rw [bytes_eq_flatMap, bytes_eq_flatMap]
    exact flatMap_encode_lt (String.lt_iff_toList_lt.mp h)
  refine ⟨hmono, fun h => ?_⟩
  rcases lt_trichotomy s t with hlt | rfl | hgt
  · exact hlt
  · exact absurd h (List.lt_irrefl _)
  · exact absurd h (List.lt_asymm (hmono hgt))

/-- Each text of a list has smaller bytes than those after it. -/
def InByteOrder (texts : List String) : Prop :=
  texts.Pairwise fun s t => bytes s < bytes t

theorem inByteOrder_iff (texts : List String) : InByteOrder texts ↔ texts.Pairwise (· < ·) := by
  simp only [InByteOrder, lt_iff_bytes_lt]

end DocTemplate.Text
