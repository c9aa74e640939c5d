import DocTemplate.Text.Blank
import DocTemplate.Yaml.Tree

/-!
# Blank texts as YAML

White space in any script is not white space in YAML: most of its characters begin a plain scalar there,
like letters do. Nothing else comes of them, since all indicators are visible. A text that holds nothing
but white space is therefore an empty document or a scalar, and **no blank text is a mapping**
(`Document.isBlankText_of_root`).

The invariant of the reading (`Scan.IsBlank`) is that the cells that are left are blank, that all tokens
are plain scalars, and that no collection is open.
-/

namespace DocTemplate.Yaml

open Text (isBlank)

/-! ### Cells -/

/-- All characters are white space, apart from the mark of the end. -/
def AreBlank (cells : List Cell) : Prop :=
  ∀ cell ∈ cells, isBlank cell.char ∨ cell.char = endMark

theorem AreBlank.subset {cells rest : List Cell} (h : AreBlank cells) (hrest : rest ⊆ cells) :
    AreBlank rest :=
  fun cell hcell => h cell (hrest hcell)

theorem AreBlank.charAt_zero {cells : List Cell} (h : AreBlank cells) :
    isBlank (charAt 0 cells) ∨ charAt 0 cells = endMark := by
  cases cells with
  | nil => exact Or.inr rfl
  | cons cell rest => exact h cell List.mem_cons_self

theorem areBlank_cellsFrom {cells : List Cell} (hcells : AreBlank cells) (line column offset : Nat)
    {chars : List Char} (h : ∀ c ∈ chars, isBlank c) :
    AreBlank (cellsFrom cells line column offset chars) := by
  have hcons {cell : Cell} {cells : List Cell} (hcell : isBlank cell.char ∨ cell.char = endMark)
      (hcells : AreBlank cells) : AreBlank (cell :: cells) :=
    List.forall_mem_cons.mpr ⟨hcell, hcells⟩
  have hbreak : isBlank '\n' ∨ '\n' = endMark := Or.inl (by decide)
  fun_induction cellsFrom cells line column offset chars with
  | case1 => exact (hcons (Or.inr rfl) hcells).subset (List.reverse_subset.mpr (List.Subset.refl _))
  | case2 _ _ _ _ _ ih =>
    exact ih (hcons hbreak hcells) (List.forall_mem_cons.mp (List.forall_mem_cons.mp h).2).2
  | case3 _ _ _ _ _ _ _ _ _ ih =>
    exact ih (hcons hbreak hcells) (List.forall_mem_cons.mp h).2
  | case4 _ _ _ _ _ _ _ _ _ _ ih | case5 _ _ _ _ _ _ _ _ _ _ ih =>
    obtain ⟨hc, hrest⟩ := List.forall_mem_cons.mp h
    exact ih (hcons (Or.inl hc) hcells) hrest

theorem skipToToken_subset (inFlow keyAllowed inComment : Bool) (cells : List Cell) :
    (Scan.skipToToken inFlow keyAllowed inComment cells).1 ⊆ cells := by
  fun_induction Scan.skipToToken inFlow keyAllowed inComment cells <;>
    first
    | exact List.Subset.refl _
    | exact List.subset_cons_of_subset _ ‹_›

theorem lexPlainFrom_subset {inFlow : Bool} {indent : Nat} {f f' : Folding} {afterSpace : Bool}
    {cells rest : List Cell} (h : lexPlainFrom inFlow indent f afterSpace cells = some (f', rest)) :
    rest ⊆ cells := by
  fun_induction lexPlainFrom inFlow indent f afterSpace cells
  all_goals first
    | cases h; exact List.Subset.refl _
    | exact List.subset_cons_of_subset _ (‹_ → _› h)
    | cases h

/-! ### Tokens -/

/-- A token is a scalar without quotes. -/
def Token.IsPlain (token : Token) : Prop :=
  ∃ text, token = .scalar text .plain

namespace Scan

/-- White space is left, scalars were read, and no collection is open. -/
structure IsBlank (s : Scan) : Prop where
  /-- The cells that are left. -/
  rest : AreBlank s.rest
  /-- The tokens. -/
  tokens : ∀ token ∈ s.tokens.toList, token.IsPlain
  /-- The columns of collections that are open. -/
  outer : s.outer = []

variable {s s' : Scan}

theorem IsBlank.dropKey (h : s.IsBlank) (hs : s.dropKey = some s') : s'.IsBlank := by
  rw [Scan.dropKey] at hs
  split at hs
  next =>
    split at hs
    · cases hs
    · cases hs
      exact ⟨h.rest, h.tokens, h.outer⟩
  next => exact Option.some.inj hs ▸ h

theorem IsBlank.noteKey (h : s.IsBlank) (hs : s.noteKey = some s') : s'.IsBlank := by
  rw [Scan.noteKey] at hs
  split at hs
  next =>
    obtain ⟨s'', hdrop, hs⟩ := Option.bind_eq_some_iff.mp hs
    cases hs
    have hs'' := h.dropKey hdrop
    exact ⟨hs''.rest, hs''.tokens, hs''.outer⟩
  next => exact Option.some.inj hs ▸ h

theorem IsBlank.dropStaleKeys (h : s.IsBlank) (hs : s.dropStaleKeys = some s') : s'.IsBlank := by
  obtain ⟨keys, -, hs⟩ := Option.bind_eq_some_iff.mp hs
  cases hs
  exact ⟨h.rest, h.tokens, h.outer⟩

theorem IsBlank.skip (h : s.IsBlank) : s.skip.IsBlank where
  rest := h.rest.subset (skipToToken_subset _ _ _ _)
  tokens := h.tokens
  outer := h.outer

theorem IsBlank.unindent (h : s.IsBlank) (column : Int) : (s.unindent column).IsBlank := by
  rw [Scan.unindent]
  split
  · exact h
  · rw [h.outer, closeIndents]
    exact ⟨h.rest, h.tokens, rfl⟩

theorem IsBlank.readEnd (h : s.IsBlank) (hs : s.readEnd = some s') : s'.IsBlank := by
  obtain ⟨s'', hdrop, hs⟩ := Option.bind_eq_some_iff.mp hs
  cases hs
  have hs'' := (h.unindent (-1)).dropKey hdrop
  exact ⟨hs''.rest, hs''.tokens, hs''.outer⟩

theorem IsBlank.readPlain (h : s.IsBlank) (hs : s.readPlain = some s') : s'.IsBlank := by
  obtain ⟨s'', hnote, hs⟩ := Option.bind_eq_some_iff.mp hs
  have hs'' := h.noteKey hnote
  obtain ⟨⟨⟨text, broken⟩, rest⟩, hlex, hs⟩ := Option.bind_eq_some_iff.mp hs
  obtain ⟨⟨f, rest'⟩, hfrom, heq⟩ := Option.map_eq_some_iff.mp hlex
  cases heq
  cases hs
  refine ⟨hs''.rest.subset (lexPlainFrom_subset hfrom), fun token htoken => ?_, hs''.outer⟩
  rw [Scan.emit, Array.toList_push] at htoken
  rcases List.mem_append.mp htoken with hmem | hmem
  · exact hs''.tokens token hmem
  · exact ⟨_, List.mem_singleton.mp hmem⟩

/-- **White space is no indicator**, so that nothing but a plain scalar begins with it. -/
theorem readToken_of_isBlank (s : Scan) {next : Char} (hc : isBlank (charAt 0 s.rest)) :
    s.readToken (charAt 0 s.rest) next =
      if beginsPlain s.inFlow (charAt 0 s.rest) next then s.readPlain else none := by
  have hne (x : Char) (hx : isBlank x = false) : charAt 0 s.rest ≠ x := by
    intro h
    rw [h, hx] at hc
    cases hc
  have hmark (x : Char) (hx : isBlank x = false) : atDocumentMark x s.rest = false := by
    simp [atDocumentMark, hne x hx]
  simp only [readToken, hmark '-' (by decide), hmark '.' (by decide), hne endMark (by decide),
    hne '%' (by decide), hne '[' (by decide), hne '\x7b' (by decide), hne ']' (by decide),
    hne '\x7d' (by decide), hne ',' (by decide), hne '-' (by decide), hne '?' (by decide),
    hne ':' (by decide), hne '*' (by decide), hne '&' (by decide), hne '!' (by decide),
    hne '|' (by decide), hne '>' (by decide), hne '\'' (by decide), hne '"' (by decide),
    false_and, if_false, Bool.false_eq_true]

theorem IsBlank.step (h : s.IsBlank) (hs : s.step = some s') : s'.IsBlank := by
  rw [Scan.step] at hs
  split at hs
  next => exact Option.some.inj hs ▸ h
  next =>
    obtain ⟨s₁, hstale, hs⟩ := Option.bind_eq_some_iff.mp hs
    have hs₁ := (h.skip.dropStaleKeys hstale).unindent s₁.next.column
    dsimp only at hs
    rcases hs₁.rest.charAt_zero with hc | hc
    · rw [readToken_of_isBlank _ hc] at hs
      split at hs
      · exact hs₁.readPlain hs
      · cases hs
    · rw [hc, readToken, if_pos rfl] at hs
      exact hs₁.readEnd hs

theorem IsBlank.run (h : s.IsBlank) {cells : List Cell}
    (hs : cells.foldlM (fun s _ => s.step) s = some s') : s'.IsBlank := by
  induction cells generalizing s with
  | nil => exact Option.some.inj hs ▸ h
  | cons cell cells ih =>
    rw [List.foldlM_cons] at hs
    obtain ⟨next, hstep, hs⟩ := Option.bind_eq_some_iff.mp hs
    exact ih (h.step hstep) hs

end Scan

theorem Token.isPlain_of_ofText? {text : String} (h : Text.isBlankText text)
    {tokens : List Token} (htokens : Token.ofText? text = some tokens) :
    ∀ token ∈ tokens, token.IsPlain := by
  obtain ⟨cells, hcells, htokens⟩ := Option.bind_eq_some_iff.mp htokens
  obtain ⟨s, hrun, hs⟩ := Option.bind_eq_some_iff.mp htokens
  have hstart : (Scan.start cells).IsBlank := by
    rw [cells?] at hcells
    split at hcells
    · cases hcells
      have hnil : AreBlank [] := List.forall_mem_nil _
      exact ⟨areBlank_cellsFrom hnil 0 0 0 (List.all_eq_true.mp h), List.forall_mem_nil _, rfl⟩
    · cases hcells
  split at hs
  · cases hs
    exact (hstart.run hrun).tokens
  · cases hs

/-! ### Documents -/

/-- A scalar in front of tokens is the whole document. -/
theorem Event.ofTokens?_scalar {text : String} {style : ScalarStyle} {rest : List Token}
    {events : List Event} (h : ofTokens? (.scalar text style :: rest) = some events) :
    events = [.scalar .none text style] := by
  have hrun : run standardHandles [] [.node .block] (.scalar text style :: rest) =
      some ([.scalar .none text style], rest) := by
    simp [run, splitProperties]
  have hevents : (if (rest.dropWhile isDocumentEnd).isEmpty then some [.scalar .none text style]
      else none) = some events := by
    rw [ofTokens?] at h
    simpa [beginsExplicitly, hrun] using h
  split at hevents
  · exact (Option.some.inj hevents).symm
  · cases hevents

/-- **A blank text is no mapping.** -/
theorem Document.isBlankText_of_root {text : String} {d : Document} (hd : ofText? text = some d)
    {tag : Option Tag} {entries : List (Tree × Tree)} (hroot : d.root = some (.mapping tag entries)) :
    Text.isBlankText text = false := by
  rw [Bool.eq_false_iff]
  intro h
  obtain ⟨tokens, htokens, hd⟩ := Option.bind_eq_some_iff.mp hd
  obtain ⟨events, hevents, hd⟩ := Option.bind_eq_some_iff.mp hd
  have hplain := Token.isPlain_of_ofText? h htokens
  cases tokens with
  | nil =>
    cases hevents
    cases hd
    cases hroot
  | cons token rest =>
    obtain ⟨scalar, rfl⟩ := hplain token List.mem_cons_self
    obtain rfl := Event.ofTokens?_scalar hevents
    cases hd
    cases hroot

end DocTemplate.Yaml
