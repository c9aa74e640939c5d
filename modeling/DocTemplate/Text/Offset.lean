/-!
# Offsets in a text

A place in a text is the number of bytes before it in UTF-8. `splitAtOffset` cuts a text at an
offset, and cutting at the length of a front part gives that part and the rest back
(`splitAtOffset_length_append`). Lines are counted from one, each line feed beginning a new one.
-/

namespace DocTemplate.Text

/-- The number of bytes of a text in UTF-8. -/
def utf8Length : List Char → Nat
  | [] => 0
  | c :: text => c.utf8Size + utf8Length text

/-- The part of a text before an offset and the part from it on. An offset inside a character cuts
before that character. -/
def splitAtOffset : Nat → List Char → List Char × List Char
  | _, [] => ([], [])
  | offset, c :: rest =>
    if c.utf8Size ≤ offset then
      let (before, after) := splitAtOffset (offset - c.utf8Size) rest
      (c :: before, after)
    else ([], c :: rest)

/-- The line on which a text ends, counted from one. -/
def lineNumber (before : List Char) : Nat :=
  before.count '\n' + 1

theorem utf8Length_nil : utf8Length [] = 0 := rfl

theorem utf8Length_cons (c : Char) (text : List Char) :
    utf8Length (c :: text) = c.utf8Size + utf8Length text := rfl

theorem utf8Length_append (a b : List Char) :
    utf8Length (a ++ b) = utf8Length a + utf8Length b := by
  induction a with
  | nil => exact (Nat.zero_add _).symm
  | cons c a ih => rw [List.cons_append, utf8Length_cons, utf8Length_cons, ih, Nat.add_assoc]

/-- Nothing is lost by a cut. -/
theorem splitAtOffset_append (offset : Nat) (text : List Char) :
    (splitAtOffset offset text).1 ++ (splitAtOffset offset text).2 = text := by
  induction text generalizing offset with
  | nil => rfl
  | cons c rest ih =>
    rw [splitAtOffset]
    split
    · simpa using ih (offset - c.utf8Size)
    · rfl

/-- A cut at the length of a front part separates that part from the rest. -/
theorem splitAtOffset_length_append (a b : List Char) :
    splitAtOffset (utf8Length a) (a ++ b) = (a, b) := by
  induction a with
  | nil =>
    cases b with
    | nil => rfl
    | cons c b =>
      have h : ¬ c.utf8Size ≤ 0 := Nat.not_le.mpr c.utf8Size_pos
      rw [utf8Length_nil, List.nil_append, splitAtOffset, if_neg h]
  | cons c a ih =>
    rw [utf8Length_cons, List.cons_append, splitAtOffset, if_pos (Nat.le_add_right _ _),
      Nat.add_sub_cancel_left, ih]

/-- The front parts of a text are told apart by their lengths. -/
theorem eq_of_prefix_of_utf8Length_eq {a b text : List Char} (ha : a <+: text) (hb : b <+: text)
    (h : utf8Length a = utf8Length b) : a = b := by
  obtain ⟨rest, rfl⟩ := ha
  obtain ⟨rest', hrest'⟩ := hb
  have hcut := splitAtOffset_length_append b rest'
  rw [hrest', ← h, splitAtOffset_length_append] at hcut
  exact congrArg Prod.fst hcut

/-- The longer of two front parts of a text begins with the other. -/
theorem prefix_of_utf8Length_le {a b text : List Char} (ha : a <+: text) (hb : b <+: text)
    (h : utf8Length a ≤ utf8Length b) : a <+: b := by
  rcases List.prefix_or_prefix_of_prefix ha hb with hab | ⟨rest, rfl⟩
  · exact hab
  · rw [utf8Length_append] at h
    have heq : utf8Length (b ++ rest) = utf8Length b := by
      rw [utf8Length_append]
      omega
    exact (eq_of_prefix_of_utf8Length_eq ha hb heq).symm ▸ List.prefix_refl (b ++ rest)

end DocTemplate.Text
