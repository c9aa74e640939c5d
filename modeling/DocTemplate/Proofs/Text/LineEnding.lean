import DocTemplate.Proofs.Text.Run
import DocTemplate.Text.Offset
import Mathlib.Order.MinMax

/-!
# Both line endings

A text may end its lines with line feeds or with pairs of a carriage return and a line feed.
`crlf` turns the first into the second. All that is done with texts treats the pair as it treats the
line feed alone: on a text without carriage returns, taking a run of characters, splitting off a
terminator, trimming and counting lines commute with `crlf`.

A place in the text is at another offset afterwards (`crlfOffset`). What lies in front of it and
behind it is what lay there before, in the other form (`splitAtOffset_crlf`), and of two places the
later one stays the later one (`crlfOffset_monotone`).
-/

namespace DocTemplate.Text

/-- A character, a line feed with a carriage return in front of it. -/
def crlfChar (c : Char) : List Char :=
  if c = '\n' then ['\r', '\n'] else [c]

/-- A text with a carriage return in front of every line feed. -/
def crlf (text : List Char) : List Char :=
  text.flatMap crlfChar

/-- `crlf` on strings. -/
def crlfString (text : String) : String :=
  String.ofList (crlf text.toList)

/-! ### Characters and parts -/

section Parts

variable {c : Char} {a b text : List Char} {p : Char → Bool}

@[simp] theorem crlf_nil : crlf [] = [] := rfl

@[simp] theorem crlf_lineFeed_cons (text : List Char) :
    crlf ('\n' :: text) = '\r' :: '\n' :: crlf text := rfl

theorem crlf_cons_of_ne (h : c ≠ '\n') (text : List Char) : crlf (c :: text) = c :: crlf text := by
  rw [crlf, List.flatMap_cons, crlfChar, if_neg h]
  rfl

@[simp] theorem crlf_append (a b : List Char) : crlf (a ++ b) = crlf a ++ crlf b :=
  List.flatMap_append

/-- A text without line feeds is left alone. -/
theorem crlf_of_notMem (h : '\n' ∉ text) : crlf text = text := by
  induction text with
  | nil => rfl
  | cons c text ih =>
    rw [List.mem_cons, not_or] at h
    rw [crlf_cons_of_ne (Ne.symm h.1), ih h.2]

/-- What is not empty does not become empty. -/
theorem exists_crlf_cons_eq (c : Char) (text : List Char) :
    ∃ d rest, crlf (c :: text) = d :: rest := by
  by_cases hc : c = '\n'
  · exact ⟨_, _, hc ▸ crlf_lineFeed_cons text⟩
  · exact ⟨_, _, crlf_cons_of_ne hc text⟩

/-- A character other than a carriage return is at the front only if it was there before. -/
theorem exists_cons_of_crlf_eq_cons (hc : c ≠ '\r') (h : crlf text = c :: b) :
    ∃ rest, text = c :: rest := by
  cases text with
  | nil => cases h
  | cons d text =>
    by_cases hd : d = '\n'
    · rw [hd, crlf_lineFeed_cons] at h
      exact absurd (List.cons.inj h).1.symm hc
    · rw [crlf_cons_of_ne hd] at h
      exact ⟨text, by rw [(List.cons.inj h).1]⟩

/-- No text gets shorter. -/
theorem length_le_length_crlf (text : List Char) : text.length ≤ (crlf text).length := by
  induction text with
  | nil => exact Nat.le_refl 0
  | cons c text ih =>
    by_cases hc : c = '\n'
    · rw [hc, crlf_lineFeed_cons]
      simp only [List.length_cons]
      omega
    · rw [crlf_cons_of_ne hc]
      exact Nat.succ_le_succ ih

/-- A run of characters goes as far as before, if the class does not tell the two characters of a
terminator apart. -/
theorem takeWhile_crlf (h : p '\r' = p '\n') (text : List Char) :
    (crlf text).takeWhile p = crlf (text.takeWhile p) := by
  induction text with
  | nil => rfl
  | cons c text ih =>
    by_cases hc : c = '\n'
    · rw [hc, crlf_lineFeed_cons, List.takeWhile_cons, List.takeWhile_cons, List.takeWhile_cons, h,
        ih]
      split <;> rfl
    · rw [crlf_cons_of_ne hc, List.takeWhile_cons, List.takeWhile_cons, ih]
      split
      · exact (crlf_cons_of_ne hc _).symm
      · rfl

theorem dropWhile_crlf (h : p '\r' = p '\n') (text : List Char) :
    (crlf text).dropWhile p = crlf (text.dropWhile p) := by
  have hwhole : (crlf text).takeWhile p ++ (crlf text).dropWhile p =
      (crlf text).takeWhile p ++ crlf (text.dropWhile p) := by
    rw [List.takeWhile_append_dropWhile, takeWhile_crlf h, ← crlf_append,
      List.takeWhile_append_dropWhile]
  exact List.append_cancel_left hwhole

end Parts

/-! ### Terminators -/

section Terminators

variable {c : Char} {a text : List Char}

theorem splitTerminator_cons_of_ne (hfeed : c ≠ '\n') (hreturn : c ≠ '\r') (text : List Char) :
    splitTerminator (c :: text) = ([], c :: text) := by
  refine splitTerminator_of_not_beginsWithTerminator ?_
  rintro ⟨_, rfl | rfl, rest, hrest⟩
  · exact hfeed (List.cons.inj hrest).1.symm
  · exact hreturn (List.cons.inj hrest).1.symm

/-- **The pair is split off as the line feed is.** -/
theorem splitTerminator_crlf (h : '\r' ∉ text) :
    splitTerminator (crlf text) =
      (crlf (splitTerminator text).1, crlf (splitTerminator text).2) := by
  cases text with
  | nil => rfl
  | cons c text =>
    rw [List.mem_cons, not_or] at h
    by_cases hc : c = '\n'
    · subst hc
      rfl
    · rw [crlf_cons_of_ne hc, splitTerminator_cons_of_ne hc (Ne.symm h.1),
        splitTerminator_cons_of_ne hc (Ne.symm h.1), crlf_cons_of_ne hc, crlf_nil]

theorem dropLastTerminator_pair (a : List Char) :
    dropLastTerminator (a ++ ['\r', '\n']) = a := by
  rw [dropLastTerminator, List.reverse_append]
  exact List.reverse_reverse a

theorem dropLastTerminator_lineFeed (h : '\r' ∉ a) : dropLastTerminator (a ++ ['\n']) = a := by
  rw [dropLastTerminator, List.reverse_append, List.reverse_singleton, List.singleton_append]
  split
  next before heq =>
    -- the line feed would be the second half of a pair
    have hmem : '\r' ∈ a.reverse := (List.cons.inj heq).2 ▸ List.mem_cons_self
    exact absurd (List.mem_reverse.mp hmem) h
  next before _ heq => rw [← (List.cons.inj heq).2, List.reverse_reverse]
  next _ hne => exact absurd rfl (hne a.reverse)

theorem dropLastTerminator_of_ne (hc : c ≠ '\n') (a : List Char) :
    dropLastTerminator (a ++ [c]) = a ++ [c] := by
  rw [dropLastTerminator, List.reverse_append, List.reverse_singleton, List.singleton_append]
  split
  next before heq => exact absurd (List.cons.inj heq).1 hc
  next before _ heq => exact absurd (List.cons.inj heq).1 hc
  next => rfl

theorem dropLastTerminator_crlf (h : '\r' ∉ text) :
    dropLastTerminator (crlf text) = crlf (dropLastTerminator text) := by
  rcases List.eq_nil_or_concat text with rfl | ⟨a, c, rfl⟩
  · rfl
  · rw [List.concat_eq_append] at h ⊢
    rw [List.mem_append, not_or] at h
    by_cases hc : c = '\n'
    · rw [hc, dropLastTerminator_lineFeed h.1, crlf_append]
      exact dropLastTerminator_pair (crlf a)
    · rw [dropLastTerminator_of_ne hc, crlf_append, crlf_cons_of_ne hc, crlf_nil,
        dropLastTerminator_of_ne hc]

theorem mem_of_mem_dropLastTerminator (h : c ∈ dropLastTerminator text) : c ∈ text := by
  have hreverse : ∀ {before : List Char}, before <:+ text.reverse → c ∈ before.reverse →
      c ∈ text := fun hbefore hmem =>
    List.mem_reverse.mp (hbefore.subset (List.mem_reverse.mp hmem))
  rw [dropLastTerminator] at h
  split at h
  next before heq => exact hreverse ⟨['\n', '\r'], heq.symm⟩ h
  next before _ heq => exact hreverse ⟨['\n'], heq.symm⟩ h
  next => exact h

/-- **The pair is trimmed as the line feed is.** -/
theorem trim_crlf (h : '\r' ∉ text) : trim (crlf text) = crlf (trim text) := by
  have hcut := splitTerminator_append text
  rw [trim, trim, splitTerminator_crlf h]
  rcases hsplit : splitTerminator text with ⟨_ | ⟨c, cs⟩, rest⟩
  · rfl
  · have hrest : '\r' ∉ rest := by
      rw [hsplit] at hcut
      exact fun hmem => h (hcut ▸ List.mem_append_right _ hmem)
    obtain ⟨d, ds, hd⟩ := exists_crlf_cons_eq c cs
    simp only [hd]
    exact dropLastTerminator_crlf hrest

/-- Trimming adds no character. -/
theorem mem_of_mem_trim (h : c ∈ trim text) : c ∈ text := by
  have hcut := splitTerminator_append text
  rw [trim] at h
  split at h
  next => exact h
  next d ds rest hsplit =>
    rw [hsplit] at hcut
    exact hcut ▸ List.mem_append_right _ (mem_of_mem_dropLastTerminator h)

end Terminators

/-! ### Places -/

section Places

variable {a text : List Char} {offset offset' : Nat}

/-- No line is added. -/
theorem lineNumber_crlf (text : List Char) : lineNumber (crlf text) = lineNumber text := by
  rw [lineNumber, lineNumber]
  congr 1
  induction text with
  | nil => rfl
  | cons c text ih =>
    by_cases hc : c = '\n'
    · rw [hc, crlf_lineFeed_cons, List.count_cons_of_ne (by decide), List.count_cons_self,
        List.count_cons_self, ih]
    · rw [crlf_cons_of_ne hc, List.count_cons_of_ne hc, List.count_cons_of_ne hc, ih]

/-- The offset in the other form of a text of the place at an offset of the text. -/
def crlfOffset (text : List Char) (offset : Nat) : Nat :=
  utf8Length (crlf (splitAtOffset offset text).1)

theorem crlfOffset_utf8Length (h : a <+: text) :
    crlfOffset text (utf8Length a) = utf8Length (crlf a) := by
  obtain ⟨rest, rfl⟩ := h
  rw [crlfOffset, splitAtOffset_length_append]

/-- **What lies in front of a place and behind it stays there.** -/
theorem splitAtOffset_crlf (text : List Char) (offset : Nat) :
    splitAtOffset (crlfOffset text offset) (crlf text) =
      (crlf (splitAtOffset offset text).1, crlf (splitAtOffset offset text).2) := by
  have hcut := congrArg crlf (splitAtOffset_append offset text)
  rw [crlf_append] at hcut
  rw [crlfOffset, ← hcut, splitAtOffset_length_append]

theorem splitAtOffset_prefix_of_le (h : offset ≤ offset') (text : List Char) :
    (splitAtOffset offset text).1 <+: (splitAtOffset offset' text).1 := by
  induction text generalizing offset offset' with
  | nil => exact List.prefix_refl _
  | cons c rest ih =>
    rw [splitAtOffset]
    split
    next hc =>
      rw [splitAtOffset, if_pos (Nat.le_trans hc h)]
      exact List.cons_prefix_cons.mpr ⟨rfl, ih (Nat.sub_le_sub_right h _)⟩
    next => exact List.nil_prefix

/-- **Of two places the later one stays the later one.** -/
theorem crlfOffset_monotone (text : List Char) : Monotone (crlfOffset text) := by
  intro offset offset' h
  obtain ⟨more, hmore⟩ := splitAtOffset_prefix_of_le h text
  rw [crlfOffset, crlfOffset, ← hmore, crlf_append, utf8Length_append]
  exact Nat.le_add_right _ _

end Places

/-! ### Strings -/

section Strings

variable {c : Char}

@[simp] theorem toList_crlfString (text : String) :
    (crlfString text).toList = crlf text.toList :=
  String.toList_ofList

@[simp] theorem crlfString_ofList (text : List Char) :
    crlfString (String.ofList text) = String.ofList (crlf text) := by
  rw [crlfString, String.toList_ofList]

@[simp] theorem crlfString_append (a b : String) :
    crlfString (a ++ b) = crlfString a ++ crlfString b := by
  rw [crlfString, String.toList_append, crlf_append, String.ofList_append, crlfString, crlfString]

theorem trimString_crlfString {text : String} (h : '\r' ∉ text.toList) :
    trimString (crlfString text) = crlfString (trimString text) := by
  rw [trimString, trimString, toList_crlfString, trim_crlf h, crlfString_ofList]

theorem mem_of_mem_trimString {text : String} (h : c ∈ (trimString text).toList) :
    c ∈ text.toList := by
  rw [trimString, String.toList_ofList] at h
  exact mem_of_mem_trim h

/-- A string is the other form of a string without carriage returns. -/
structure IsCrlfOf (other text : String) : Prop where
  noReturn : '\r' ∉ text.toList
  eq : other = crlfString text

namespace IsCrlfOf

variable {other text other' text' : String}

theorem empty : IsCrlfOf "" "" := ⟨List.not_mem_nil, rfl⟩

theorem append (h : IsCrlfOf other text) (h' : IsCrlfOf other' text') :
    IsCrlfOf (other ++ other') (text ++ text') where
  noReturn := by
    rw [String.toList_append, List.mem_append, not_or]
    exact ⟨h.noReturn, h'.noReturn⟩
  eq := by rw [h.eq, h'.eq, crlfString_append]

/-- **Trimming commutes with the change of line endings.** -/
theorem trimString (h : IsCrlfOf other text) : IsCrlfOf (trimString other) (trimString text) where
  noReturn := fun hmem => h.noReturn (mem_of_mem_trimString hmem)
  eq := by rw [h.eq, trimString_crlfString h.noReturn]

end IsCrlfOf

end Strings

end DocTemplate.Text
