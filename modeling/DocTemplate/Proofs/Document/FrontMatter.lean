import DocTemplate.Document.FrontMatter
import DocTemplate.Proofs.Text.Lines
import DocTemplate.Proofs.Text.Run

/-!
# Cutting off front matter

What front matter is can be said by the lines of a source (`FrontMatter.Splits`). The first line has
to be an opening one; the closing line is the first line behind it that can be one; between the two
stands the YAML and behind them the body. **A source is split exactly as this says**
(`FrontMatter.split_exact`): every line goes to one of the four parts, and no other outcome is
possible. Hence what is put between two such lines is found there again.

The code goes through the source character by character and collects lines on its way. It looks at
the content of a line by taking characters off its end. Neither is part of what is said here, so
two things are to be shown: that it sees the lines of the source (`firstLine_of_lines_eq`), and that
what it takes for an opening or closing line is one (`isOpening_iff`, `isClosing_iff`). The second
needs that it is given lines. A text with several line feeds at its end would pass as well.
-/

namespace DocTemplate.FrontMatter

open Text (lines EndsLine Stops)

/-! ### What front matter is -/

/-- A line has a text as its content: behind it there are only carriage returns and then, perhaps,
the line feed that ends the line. -/
def HasContent (line content : List Char) : Prop :=
  ∃ returns : Nat, line = content ++ List.replicate returns '\r' ∨
    line = content ++ List.replicate returns '\r' ++ ['\n']

/-- A line that can open front matter. The line feed may not be missing. -/
def IsOpeningLine (line : List Char) : Prop :=
  HasContent line ['-', '-', '-'] ∧ ['\n'] <:+ line

/-- A line that can close front matter. -/
def IsClosingLine (line : List Char) : Prop :=
  HasContent line ['-', '-', '-'] ∨ HasContent line ['.', '.', '.']

/-- The first line of a source can open front matter, and some lines are behind it. -/
def Opens (source : List Char) (behind : List (List Char)) : Prop :=
  ∃ opening, lines source = opening :: behind ∧ IsOpeningLine opening

/-- A source is made of an opening line, YAML, the first closing line and a body. -/
structure IsMadeOf (source opening yaml closing body : List Char) : Prop where
  source_eq : source = opening ++ yaml ++ closing ++ body
  /-- The two lines are lines of the source. -/
  lines_eq : lines source = opening :: (lines yaml ++ closing :: lines body)
  opening : IsOpeningLine opening
  closing : IsClosingLine closing
  /-- There is no closing line before it. -/
  closing_first : ∀ line ∈ lines yaml, ¬IsClosingLine line

/-- The outcomes of splitting a source. -/
inductive Splits (source : String) : Except DocumentError (Option String × String) → Prop
  /-- Without an opening line the source is all body. -/
  | plain (h : ∀ behind, ¬Opens source.toList behind) : Splits source (.ok (none, source))
  /-- Behind the opening line there has to be a closing one. -/
  | unterminated {behind : List (List Char)} (h : Opens source.toList behind)
      (hclosing : ∀ line ∈ behind, ¬IsClosingLine line) :
      Splits source (.error .unterminatedFrontMatter)
  /-- The YAML and the body are what stands between the two lines and behind them. -/
  | parts {opening closing : List Char} {yaml body : String}
      (h : IsMadeOf source.toList opening yaml.toList closing body.toList) :
      Splits source (.ok (some yaml, body))

/-! ### The content of a line -/

variable {line content front text opening closing : List Char}
  {before behind inside after : List (List Char)}

/-- What is left of a text when the carriage returns at its end are taken off. -/
theorem dropReturns_eq_iff (hcontent : Stops (· == '\r') content.reverse) :
    (front.reverse.dropWhile (· == '\r')).reverse = content ↔
      ∃ returns, front = content ++ List.replicate returns '\r' := by
  constructor
  · rintro rfl
    obtain ⟨returns, hreturns⟩ :
        ∃ returns, front.reverse.takeWhile (· == '\r') = List.replicate returns '\r' :=
      ⟨_, List.eq_replicate_of_mem fun c hc =>
        eq_of_beq (List.all_eq_true.mp List.all_takeWhile c hc)⟩
    refine ⟨returns, ?_⟩
    calc front
      _ = (front.reverse.takeWhile (· == '\r') ++ front.reverse.dropWhile (· == '\r')).reverse := by
        rw [List.takeWhile_append_dropWhile, List.reverse_reverse]
      _ = (front.reverse.dropWhile (· == '\r')).reverse ++ List.replicate returns '\r' := by
        rw [List.reverse_append, hreturns, List.reverse_replicate]
  · rintro ⟨returns, rfl⟩
    rw [List.reverse_append, List.reverse_replicate, List.dropWhile_append_of_pos,
      hcontent.dropWhile_eq, List.reverse_reverse]
    intro c hc
    exact beq_iff_eq.mpr (List.eq_of_mem_replicate hc)

/-- **The content of a line is what is computed.** -/
theorem lineContent_eq_iff (hline : line ∈ lines text)
    (hcontent : Stops (· == '\r') content.reverse) (hfeed : '\n' ∉ content) :
    lineContent line = content ↔ HasContent line content := by
  obtain ⟨front, hfront, hline⟩ := Text.exists_of_mem_lines hline
  have hstops : Stops (· == '\n') front.reverse := by
    refine .of_forall fun c hc => beq_eq_false_iff_ne.mpr ?_
    rintro rfl
    exact hfront (List.mem_reverse.mp hc)
  have hfeed (returns : Nat) : '\n' ∉ content ++ List.replicate returns '\r' := by
    intro hmem
    rcases List.mem_append.mp hmem with hmem | hmem
    · exact hfeed hmem
    · exact absurd (List.eq_of_mem_replicate hmem) (by decide)
  rw [lineContent]
  -- Taking off all line feeds takes off the one at the end, since in a line there is no other.
  rcases hline with rfl | rfl
  · rw [List.reverse_append, List.reverse_singleton, List.singleton_append,
      List.dropWhile_cons_of_pos rfl, hstops.dropWhile_eq, dropReturns_eq_iff hcontent]
    refine exists_congr fun returns => ⟨fun h => Or.inr (by rw [h]), ?_⟩
    rintro (h | h)
    · exact absurd (h ▸ List.mem_append_right front List.mem_cons_self) (hfeed returns)
    · exact List.append_cancel_right h
  · rw [hstops.dropWhile_eq, dropReturns_eq_iff hcontent]
    refine exists_congr fun returns => ⟨Or.inl, ?_⟩
    rintro (h | h)
    · exact h
    · exact absurd (h ▸ List.mem_append_right _ List.mem_cons_self) hfront

/-- A line has dashes as its content, if that is computed. -/
theorem lineContent_eq_dashes (hline : line ∈ lines text) :
    lineContent line = ['-', '-', '-'] ↔ HasContent line ['-', '-', '-'] :=
  have hstops : Stops (· == '\r') ['-', '-', '-'].reverse := rfl
  lineContent_eq_iff hline hstops (by decide)

theorem isClosing_iff (hline : line ∈ lines text) :
    isClosing line = true ↔ IsClosingLine line := by
  have hstops : Stops (· == '\r') ['.', '.', '.'].reverse := rfl
  rw [isClosing, Bool.or_eq_true, beq_iff_eq, beq_iff_eq, lineContent_eq_dashes hline,
    lineContent_eq_iff hline hstops (by decide), IsClosingLine]

theorem isOpening_iff (hline : line ∈ lines text) :
    isOpening line = true ↔ IsOpeningLine line := by
  rw [isOpening, Bool.and_eq_true, beq_iff_eq, beq_iff_eq, lineContent_eq_dashes hline,
    List.getLast?_eq_some_iff, IsOpeningLine]
  exact and_congr_right fun _ => exists_congr fun _ => eq_comm

/-! ### The lines that are seen -/

/-- **What is cut off as the first line is the first line.** -/
theorem firstLine_of_lines_eq (h : lines text = line :: behind) :
    firstLine text = (line, behind.flatten) := by
  have htext : text = line ++ behind.flatten := by
    rw [← Text.flatten_lines text, h, List.flatten_cons]
  obtain ⟨front, hfront, hline⟩ := Text.exists_of_lines_eq_cons h
  have hrun : ∀ c ∈ front, (c != '\n') = true := by
    intro c hc
    refine bne_iff_ne.mpr ?_
    rintro rfl
    exact hfront hc
  rcases hline with ⟨rfl, -⟩ | ⟨rfl, rfl⟩
  · rw [List.append_assoc] at htext
    subst htext
    rw [firstLine, List.dropWhile_append_of_pos hrun, List.takeWhile_append_of_pos hrun]
    simp
  · rw [List.flatten_nil, List.append_nil] at htext
    subst htext
    rw [firstLine, ← List.append_nil text, List.dropWhile_append_of_pos hrun]
    simp

/-! ### The first closing line -/

/-- A step of the search that does not end it. -/
theorem splitAtClosing_of_not_closing (h : lines text = line :: behind)
    (hline : ¬IsClosingLine line) (before : List (List Char)) :
    splitAtClosing before text = splitAtClosing (line :: before) behind.flatten := by
  have hmem : line ∈ lines text := h ▸ List.mem_cons_self
  cases text with
  | nil => cases h
  | cons c text =>
    rw [splitAtClosing, firstLine_of_lines_eq h]
    exact if_neg fun hclosing => hline ((isClosing_iff hmem).mp hclosing)

/-- A step of the search that ends it. -/
theorem splitAtClosing_of_closing (h : lines text = line :: behind) (hline : IsClosingLine line)
    (before : List (List Char)) :
    splitAtClosing before text = some (before.reverse.flatten, behind.flatten) := by
  have hmem : line ∈ lines text := h ▸ List.mem_cons_self
  cases text with
  | nil => cases h
  | cons c text =>
    rw [splitAtClosing, firstLine_of_lines_eq h]
    exact if_pos ((isClosing_iff hmem).mpr hline)

/-- **The search ends at the first closing line.** What was collected before stands in front of the
lines up to there. -/
theorem splitAtClosing_eq_some (h : lines text = inside ++ closing :: after)
    (hinside : ∀ line ∈ inside, ¬IsClosingLine line) (hclosing : IsClosingLine closing)
    (before : List (List Char)) :
    splitAtClosing before text = some (before.reverse.flatten ++ inside.flatten, after.flatten) := by
  -- Each line that is passed goes from the lines ahead to the collected ones.
  induction inside generalizing before text with
  | nil =>
    rw [splitAtClosing_of_closing h hclosing, List.flatten_nil, List.append_nil]
  | cons line inside ih =>
    obtain ⟨hline, hinside⟩ := List.forall_mem_cons.mp hinside
    rw [List.cons_append] at h
    rw [splitAtClosing_of_not_closing h hline, ih (Text.lines_flatten_tail h) hinside]
    simp

/-- Without a closing line the search comes to the end of the text. -/
theorem splitAtClosing_eq_none (h : ∀ line ∈ lines text, ¬IsClosingLine line)
    (before : List (List Char)) : splitAtClosing before text = none := by
  generalize hall : lines text = all at h
  induction all generalizing before text with
  | nil =>
    obtain rfl : text = [] := by rw [← Text.flatten_lines text, hall, List.flatten_nil]
    rw [splitAtClosing]
  | cons line behind ih =>
    obtain ⟨hline, hbehind⟩ := List.forall_mem_cons.mp h
    rw [splitAtClosing_of_not_closing hall hline]
    exact ih _ (Text.lines_flatten_tail hall) hbehind

/-! ### The outcomes -/

variable {source yaml body : String}

theorem split_of_not_opens (h : ∀ behind, ¬Opens source.toList behind) :
    split source = .ok (none, source) := by
  have hopening : isOpening (firstLine source.toList).1 = false := by
    cases hlines : lines source.toList with
    | nil =>
      rw [← Text.flatten_lines source.toList, hlines]
      rfl
    | cons line behind =>
      rw [firstLine_of_lines_eq hlines, Bool.eq_false_iff, Ne,
        isOpening_iff (hlines ▸ List.mem_cons_self)]
      exact fun hline => h behind ⟨line, hlines, hline⟩
  rw [split]
  exact if_neg (Bool.eq_false_iff.mp hopening)

/-- Behind an opening line a closing one is searched for. -/
theorem split_of_opens (h : Opens source.toList behind) :
    split source =
      match splitAtClosing [] behind.flatten with
      | some (yaml, body) => .ok (some (String.ofList yaml), String.ofList body)
      | none => .error .unterminatedFrontMatter := by
  obtain ⟨opening, hlines, hopening⟩ := h
  rw [split, firstLine_of_lines_eq hlines]
  exact if_pos ((isOpening_iff (hlines ▸ List.mem_cons_self)).mpr hopening)

/-- The lines behind an opening line are those of what is behind it. -/
theorem Opens.lines_flatten (h : Opens source.toList behind) : lines behind.flatten = behind :=
  have ⟨_, hlines, _⟩ := h
  Text.lines_flatten_tail hlines

theorem split_of_unterminated (h : Opens source.toList behind)
    (hclosing : ∀ line ∈ behind, ¬IsClosingLine line) :
    split source = .error .unterminatedFrontMatter := by
  rw [← h.lines_flatten] at hclosing
  rw [split_of_opens h, splitAtClosing_eq_none hclosing]

theorem split_of_isMadeOf (h : IsMadeOf source.toList opening yaml.toList closing body.toList) :
    split source = .ok (some yaml, body) := by
  have hopens : Opens source.toList (lines yaml.toList ++ closing :: lines body.toList) :=
    ⟨opening, h.lines_eq, h.opening⟩
  rw [split_of_opens hopens, splitAtClosing_eq_some hopens.lines_flatten h.closing_first h.closing]
  simp [Text.flatten_lines, String.ofList_toList]

/-- What stands between the opening line and the first closing one, and behind that, makes up the
source with the two. -/
theorem isMadeOf_of_lines_eq {source : List Char}
    (h : lines source = opening :: (inside ++ closing :: after)) (hopening : IsOpeningLine opening)
    (hinside : ∀ line ∈ inside, ¬IsClosingLine line) (hclosing : IsClosingLine closing) :
    IsMadeOf source opening inside.flatten closing after.flatten := by
  have hbehind := Text.lines_flatten_tail h
  have hyaml : lines inside.flatten = inside :=
    Text.lines_flatten_left hbehind (List.cons_ne_nil closing after)
  have hbody : lines after.flatten = after :=
    Text.lines_flatten_tail (Text.lines_flatten_right hbehind)
  refine ⟨?_, by rw [hyaml, hbody, h], hopening, hclosing, by rwa [hyaml]⟩
  rw [← Text.flatten_lines source, h]
  simp

/-- Lines either have no closing line or a first one. -/
theorem exists_first_closing (h : ∀ line ∈ behind, line ∈ lines text) :
    (∀ line ∈ behind, ¬IsClosingLine line) ∨
      ∃ inside closing after, behind = inside ++ closing :: after ∧ IsClosingLine closing ∧
        ∀ line ∈ inside, ¬IsClosingLine line := by
  cases hfind : behind.find? isClosing with
  | none =>
    refine Or.inl fun line hmem => ?_
    rw [← isClosing_iff (h line hmem)]
    exact List.find?_eq_none.mp hfind line hmem
  | some closing =>
    obtain ⟨hclosing, inside, after, rfl, hinside⟩ := List.find?_eq_some_iff_append.mp hfind
    have hmem : closing ∈ inside ++ closing :: after :=
      List.mem_append_right inside List.mem_cons_self
    refine Or.inr ⟨inside, closing, after, rfl, (isClosing_iff (h closing hmem)).mp hclosing, ?_⟩
    intro line hline
    rw [← isClosing_iff (h line (List.mem_append_left _ hline)), Bool.not_eq_true]
    exact (Bool.not_eq_true' _).mp (hinside line hline)

/-- **There is always an outcome.** -/
theorem exists_splits (source : String) : ∃ result, Splits source result := by
  by_cases hopens : ∃ behind, Opens source.toList behind
  · obtain ⟨behind, opening, hlines, hopening⟩ := hopens
    rcases exists_first_closing fun line hmem => hlines ▸ List.mem_cons_of_mem opening hmem with
      hclosing | ⟨inside, closing, after, rfl, hclosing, hinside⟩
    · exact ⟨_, .unterminated ⟨opening, hlines, hopening⟩ hclosing⟩
    · have hmade := isMadeOf_of_lines_eq hlines hopening hinside hclosing
      rw [← String.toList_ofList (l := inside.flatten),
        ← String.toList_ofList (l := after.flatten)] at hmade
      exact ⟨_, .parts hmade⟩
  · exact ⟨_, .plain fun behind h => hopens ⟨behind, h⟩⟩

/-- **There is no other outcome** than the one that is computed. -/
theorem Splits.split_eq {result : Except DocumentError (Option String × String)}
    (h : Splits source result) : split source = result := by
  cases h with
  | plain h => exact split_of_not_opens h
  | unterminated h hclosing => exact split_of_unterminated h hclosing
  | parts h => exact split_of_isMadeOf h

/-! ### What is put together -/

/-- The line `---`, as it is written most often. -/
def dashes : List Char := ['-', '-', '-', '\n']

theorem endsLine_dashes : EndsLine dashes :=
  Or.inr ⟨['-', '-', '-'], rfl⟩

theorem hasContent_dashes : HasContent dashes ['-', '-', '-'] :=
  ⟨0, Or.inr rfl⟩

/-- YAML with a line `---` on each side is front matter, whatever comes behind it. -/
theorem isMadeOf_dashes {yaml body : List Char} (hends : EndsLine yaml)
    (hyaml : ∀ line ∈ lines yaml, ¬IsClosingLine line) :
    IsMadeOf (dashes ++ yaml ++ dashes ++ body) dashes yaml dashes body where
  source_eq := rfl
  lines_eq := by
    have hlines : lines dashes = [dashes] := by decide
    rw [List.append_assoc, List.append_assoc, Text.lines_append endsLine_dashes,
      Text.lines_append hends, Text.lines_append endsLine_dashes, hlines]
    rfl
  opening := ⟨hasContent_dashes, ⟨['-', '-', '-'], rfl⟩⟩
  closing := Or.inl hasContent_dashes
  closing_first := hyaml

/-- **Front matter is cut off a source just so**: the code has the one outcome that there is. What
is put between an opening and a closing line is found there again, whatever comes behind. -/
theorem split_exact :
    (∀ source result, split source = result ↔ Splits source result) ∧
      ∀ yaml body : String, EndsLine yaml.toList →
        (∀ line ∈ lines yaml.toList, ¬IsClosingLine line) →
          split ("---\n" ++ yaml ++ "---\n" ++ body) = .ok (some yaml, body) := by
  refine ⟨fun source result => ⟨?_, Splits.split_eq⟩, fun yaml body hends hyaml => ?_⟩
  · rintro rfl
    obtain ⟨result, hresult⟩ := exists_splits source
    rwa [hresult.split_eq]
  · have hdashes : "---\n".toList = dashes := by decide
    have hmade : IsMadeOf ("---\n" ++ yaml ++ "---\n" ++ body).toList dashes yaml.toList dashes
        body.toList := by
      simp only [String.toList_append, hdashes]
      exact isMadeOf_dashes hends hyaml
    exact split_of_isMadeOf hmade

end DocTemplate.FrontMatter
