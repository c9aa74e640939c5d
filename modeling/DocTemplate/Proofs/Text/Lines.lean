/-!
# The lines of a text

A text is cut into lines behind its line feeds (`lines`). Every line keeps the feed that ends it, so
that the lines one after the other are the text (`flatten_lines`); the last one may have none.

**Two texts one after the other have the lines of the first and those of the second**
(`lines_append`), if the first one ends where a line does. Conversely a text can be cut behind any
of its lines, and the two parts have the lines on their side of the cut (`lines_flatten_left`,
`lines_flatten_right`).
-/

namespace DocTemplate.Text

/-- The lines of a text in order, each with the line feed that ends it. -/
def lines : List Char → List (List Char)
  | [] => []
  | c :: rest =>
    if c = '\n' then [c] :: lines rest
    else
      match lines rest with
      | [] => [[c]]
      | line :: more => (c :: line) :: more

/-- A text does not end inside a line: it is empty or ends with a line feed. -/
def EndsLine (text : List Char) : Prop :=
  text = [] ∨ ['\n'] <:+ text

variable {front text rest line : List Char} {before after more : List (List Char)}

theorem lines_lineFeed_cons (rest : List Char) : lines ('\n' :: rest) = ['\n'] :: lines rest := by
  rw [lines, if_pos rfl]

theorem lines_cons_of_nil {c : Char} (hc : c ≠ '\n') (h : lines rest = []) :
    lines (c :: rest) = [[c]] := by
  rw [lines, if_neg hc, h]

theorem lines_cons_of_cons {c : Char} (hc : c ≠ '\n') (h : lines rest = line :: more) :
    lines (c :: rest) = (c :: line) :: more := by
  rw [lines, if_neg hc, h]

/-- **Nothing is lost**: the lines one after the other are the text. -/
theorem flatten_lines (text : List Char) : (lines text).flatten = text := by
  induction text with
  | nil => rfl
  | cons c rest ih =>
    by_cases hc : c = '\n'
    · rw [hc, lines_lineFeed_cons, List.flatten_cons, ih, List.singleton_append]
    · cases hrest : lines rest with
      | nil =>
        rw [hrest] at ih
        rw [lines_cons_of_nil hc hrest, ← ih]
        rfl
      | cons line more =>
        rw [hrest] at ih
        rw [lines_cons_of_cons hc hrest, ← ih]
        rfl

/-- A text up to its first line feed is its first line. -/
theorem lines_append_lineFeed (h : '\n' ∉ front) (rest : List Char) :
    lines (front ++ '\n' :: rest) = (front ++ ['\n']) :: lines rest := by
  induction front with
  | nil => exact lines_lineFeed_cons rest
  | cons c front ih =>
    rw [List.mem_cons, not_or] at h
    exact lines_cons_of_cons (Ne.symm h.1) (ih h.2)

/-- A text without line feeds is one line. -/
theorem lines_of_notMem (h : '\n' ∉ text) (hne : text ≠ []) : lines text = [text] := by
  induction text with
  | nil => exact absurd rfl hne
  | cons c rest ih =>
    rw [List.mem_cons, not_or] at h
    cases rest with
    | nil => exact lines_cons_of_nil (Ne.symm h.1) rfl
    | cons d rest => exact lines_cons_of_cons (Ne.symm h.1) (ih h.2 (List.cons_ne_nil d rest))

/-- **The first line of a text** ends with the only line feed in it, and the lines behind it are
those of a text; or it has none and is the last one. -/
theorem exists_of_lines_eq_cons (h : lines text = line :: more) :
    ∃ front, '\n' ∉ front ∧
      ((line = front ++ ['\n'] ∧ lines more.flatten = more) ∨ (line = front ∧ more = [])) := by
  by_cases hmem : '\n' ∈ text
  · obtain ⟨front, rest, rfl, hfront⟩ := List.eq_append_cons_of_mem hmem
    rw [lines_append_lineFeed hfront] at h
    obtain ⟨rfl, rfl⟩ := List.cons.inj h
    exact ⟨front, hfront, Or.inl ⟨rfl, congrArg lines (flatten_lines rest)⟩⟩
  · have hne : text ≠ [] := by
      rintro rfl
      cases h
    rw [lines_of_notMem hmem hne] at h
    obtain ⟨rfl, rfl⟩ := List.cons.inj h
    exact ⟨text, hmem, Or.inr ⟨rfl, rfl⟩⟩

/-- Behind its first line a text goes on with the other lines. -/
theorem lines_flatten_tail (h : lines text = line :: more) : lines more.flatten = more := by
  obtain ⟨-, -, ⟨-, hmore⟩ | ⟨-, rfl⟩⟩ := exists_of_lines_eq_cons h
  · exact hmore
  · rfl

/-- In a line there is no line feed but at its end. -/
theorem exists_of_mem_lines (h : line ∈ lines text) :
    ∃ front, '\n' ∉ front ∧ (line = front ++ ['\n'] ∨ line = front) := by
  generalize hlines : lines text = all at h
  induction all generalizing text with
  | nil => cases h
  | cons first more ih =>
    rcases List.mem_cons.mp h with rfl | hmem
    · obtain ⟨front, hfront, hfirst⟩ := exists_of_lines_eq_cons hlines
      exact ⟨front, hfront, hfirst.imp And.left And.left⟩
    · exact ih (lines_flatten_tail hlines) hmem

/-- **Behind one of its lines** a text goes on with the lines that are left. -/
theorem lines_flatten_right (h : lines text = before ++ after) : lines after.flatten = after := by
  induction before generalizing text with
  | nil => rw [← List.nil_append after, ← h, flatten_lines]
  | cons line before ih => exact ih (lines_flatten_tail h)

/-- **Up to one of its lines** a text has the lines in front of that. -/
theorem lines_flatten_left (h : lines text = before ++ after) (hne : after ≠ []) :
    lines before.flatten = before := by
  induction before generalizing text with
  | nil => rfl
  | cons line before ih =>
    obtain ⟨front, hfront, ⟨rfl, hmore⟩ | ⟨-, hnil⟩⟩ := exists_of_lines_eq_cons h
    · rw [List.flatten_cons, List.append_assoc, List.singleton_append,
        lines_append_lineFeed hfront, ih hmore]
    · exact absurd (List.append_eq_nil_iff.mp hnil).2 hne

theorem EndsLine.of_append_lineFeed (h : EndsLine (front ++ '\n' :: rest)) : EndsLine rest := by
  rcases h with h | h
  · exact absurd h (List.append_ne_nil_of_right_ne_nil front (List.cons_ne_nil _ rest))
  · cases rest with
    | nil => exact Or.inl rfl
    | cons c rest =>
      refine Or.inr (List.suffix_of_suffix_length_le h ⟨front ++ ['\n'], by simp⟩ ?_)
      exact Nat.succ_le_succ (Nat.zero_le rest.length)

/-- **Texts one after the other** have their lines one after the other, if the first one does not
end inside a line. -/
theorem lines_append {text : List Char} (h : EndsLine text) (rest : List Char) :
    lines (text ++ rest) = lines text ++ lines rest := by
  by_cases hmem : '\n' ∈ text
  · obtain ⟨front, tail, htext, hfront⟩ := List.eq_append_cons_of_mem hmem
    have hlength : tail.length < text.length := by
      rw [htext, List.length_append, List.length_cons]
      omega
    rw [htext] at h
    rw [htext, List.append_assoc, List.cons_append, lines_append_lineFeed hfront,
      lines_append_lineFeed hfront, lines_append h.of_append_lineFeed, List.cons_append]
  · rcases h with rfl | h
    · rfl
    · exact absurd (h.subset List.mem_cons_self) hmem
termination_by text.length

end DocTemplate.Text
