import DocTemplate.Proofs.Template.Nesting

/-!
# Texts that can be completed

The beginning of a template need not be a template: blocks may be open at its end, or it may break
off inside a tag. It is *viable* if some text can be put behind it so that the whole derives nodes
(`Grammar.IsViable`). Two things make a text viable.

* **Open blocks can be closed** (`Grammar.Inside.exists_derives`): behind any place where elements
  may stand, the closing tags of the blocks around it are enough.
* **A tag that breaks off can be finished** (`Grammar.Place.isViable_opening` and those after it): a
  dollar, an opening tag or a variable up to any point where something may be missing.

There is one way to break off from which no text leads on (`Grammar.EndsInReservedPath`). A variable
must not begin with a reserved word, but this is seen only when its reference is at its end. So
behind the dot of `$else.` a component is missing, and no component helps.

A place is what a reader has reached: complete elements, opening tags and first branches stand before
it, and each of the elements has been read in front of what really follows it. Another text may stand
there if it resembles what follows (`Grammar.Resembles`); a tag always does where a tag follows. This
is what `Grammar.Place` says, and the lemmas on it follow the steps of a reader.
-/

namespace DocTemplate

open Text (Stops IsTerminator BeginsWithTerminator)

namespace Reference

/-- The reference with one more component. -/
def extend (r : Reference) (name : String) : Reference :=
  ⟨r.first, r.rest ++ [name]⟩

theorem chars_extend (r : Reference) (name : String) :
    (r.extend name).chars = r.chars ++ '.' :: name.toList := by
  simp [chars_eq, extend, dotted]

theorem IsWritable.extend {r : Reference} (hr : r.IsWritable) {name : String}
    (hname : Text.IsName name) : (r.extend name).IsWritable := by
  intro component hmem
  have hcases : component ∈ r.components ∨ component = name := by
    simpa [components, Reference.extend, or_assoc] using hmem
  rcases hcases with hmem | rfl
  · exact hr component hmem
  · exact hname

end Reference

theorem BlockKind.stops_closing (kind : BlockKind) : Stops (· != '$') kind.closing := by
  cases kind <;> rfl

namespace Grammar

variable {n : Nat} {kind : BlockKind} {r : Reference} {text other before rest front : List Char}
  {node : Node} {nodes : List Node}

/-! ### Closing what is open -/

/-- Some text can be put behind a text so that the whole derives nodes. -/
def IsViable (text : List Char) : Prop :=
  ∃ suffix nodes, Derives (text ++ suffix) nodes

mutual

/-- **Open blocks can be closed.** What closes them begins with a dollar, so that it changes nothing
in front of it. -/
theorem Inside.exists_derives {n : Nat} {text : List Char} (h : Inside n text) :
    ∃ suffix nodes, Stops (· != '$') suffix ∧ Derives (text ++ suffix) nodes := by
  match h with
  | .start => exact ⟨[], [], Text.stops_nil _, .nil⟩
  | .element helement hrest =>
    obtain ⟨suffix, nodes, hstops, hderives⟩ := hrest.exists_derives
    have hwhole := Derives.cons (helement.append hstops) hderives
    rw [← List.append_assoc] at hwhole
    exact ⟨suffix, _, hstops, hwhole⟩
  | .block hr hparts =>
    obtain ⟨suffix, first, second, hstops, hderives⟩ := hparts.exists_derives
    have hnot : ¬BeginsWithTerminator [] := by
      rintro ⟨terminator, hterm, hprefix⟩
      exact hterm.ne_nil (List.prefix_nil.mp hprefix)
    have hwhole := Derives.cons (.block hr (.unpaired (fun hboth => hnot hboth.2) hderives)) .nil
    rw [List.append_nil, ← List.append_assoc] at hwhole
    exact ⟨suffix, _, hstops, hwhole⟩

/-- The branches of a block can be finished, and the block closed. -/
theorem InsideParts.exists_derives {kind : BlockKind} {n : Nat} {text : List Char}
    (h : InsideParts kind n text) :
    ∃ suffix first second, Stops (· != '$') suffix ∧
      DerivesParts kind (text ++ suffix) first second := by
  match h with
  | .first htext =>
    obtain ⟨suffix, nodes, hstops, hderives⟩ := htext.exists_derives
    refine ⟨suffix ++ kind.closing, nodes, none, hstops.append kind.stops_closing, ?_⟩
    rw [← List.append_assoc]
    exact .one hderives
  | @InsideParts.second _ _ _ _ first hfront htext =>
    obtain ⟨suffix, nodes, hstops, hderives⟩ := htext.exists_derives
    refine ⟨suffix ++ kind.closing, first, some nodes, hstops.append kind.stops_closing, ?_⟩
    have hwhole : DerivesParts kind _ _ _ := .two hfront hderives
    simpa only [List.append_assoc] using hwhole

end

theorem Inside.isViable (h : Inside n text) : IsViable text := by
  obtain ⟨suffix, nodes, -, hderives⟩ := h.exists_derives
  exact ⟨suffix, nodes, hderives⟩

/-- A front part of a viable text is viable. -/
theorem IsViable.of_append (h : IsViable (text ++ rest)) : IsViable text := by
  obtain ⟨suffix, nodes, hderives⟩ := h
  rw [List.append_assoc] at hderives
  exact ⟨rest ++ suffix, nodes, hderives⟩

theorem Derives.inside {text : List Char} {nodes : List Node} (h : Derives text nodes) :
    Inside 0 text := by
  match h with
  | .nil => exact .start
  | .cons helement hrest => exact .element helement hrest.inside

/-! ### Places -/

/-- Where a dollar stands no line terminator does. -/
theorem not_beginsWithTerminator_of_stops (h : Stops (· != '$') text) :
    ¬BeginsWithTerminator text := by
  intro hterm
  obtain ⟨terminator, hterm', hprefix⟩ := BeginsWithTerminator.of_append (a := []) hterm h
  exact hterm'.ne_nil (List.prefix_nil.mp hprefix)

/-- A text that begins with a dollar, or is empty, can take the place of one that does. -/
theorem Resembles.of_stops (h : Stops (· != '$') text) : Resembles text rest where
  stops := fun _ => h
  terminator := fun hterm => absurd hterm (not_beginsWithTerminator_of_stops h)

/-- With an element in front, a text can take the place of what it can take the place of without. -/
theorem DerivesElement.resembles_append (h : DerivesElement text node rest)
    (hother : Resembles other rest) : Resembles (text ++ other) (text ++ rest) := by
  rcases h.run_or_stops with ⟨-, hrun, hstop⟩ | hdollar
  · constructor
    · intro hstops
      exact absurd hstops (Text.not_stops_append h.ne_nil (Text.bne_dollar_of_notMem hrun) rest)
    · intro hterm
      exact (hterm.of_append (hother.stops hstop)).append rest
  · exact .of_stops (hdollar other)

/-- Behind a text, and in front of another one, elements may stand: what resembles the text behind
can stand in its place. -/
def Place (before rest : List Char) : Prop :=
  ∀ n text, Inside n text → Resembles text rest → ∃ m, Inside m (before ++ text)

/-- Behind a text the branches of a block may stand. -/
def PartsPlace (kind : BlockKind) (before : List Char) : Prop :=
  ∀ n text, InsideParts kind n text → ∃ m, Inside m (before ++ text)

theorem Place.start (rest : List Char) : Place [] rest :=
  fun n _ h _ => ⟨n, h⟩

/-- Behind an element there is a place again. -/
theorem Place.element (h : Place before (text ++ rest)) (helement : DerivesElement text node rest) :
    Place (before ++ text) rest := by
  intro n other hother hresembles
  rw [List.append_assoc]
  exact h n (text ++ other) (.element (helement.of_resembles hresembles) hother)
    (helement.resembles_append hresembles)

/-- A tag may stand where a place is. -/
theorem Place.exists_inside (h : Place before rest) (htext : Inside n text)
    (hstops : Stops (· != '$') text) : ∃ m, Inside m (before ++ text) :=
  h n text htext (.of_stops hstops)

/-- Behind an opening tag there is a place for branches. -/
theorem Place.parts (h : Place before rest) (hr : r.IsWritable) :
    PartsPlace kind (before ++ kind.openTag r) := by
  intro n text hparts
  rw [List.append_assoc]
  exact h.exists_inside (.block hr hparts) (kind.openTag_stops r text)

/-- A line terminator in front of the branches belongs to the first one. -/
theorem PartsPlace.terminator (h : PartsPlace kind before) {opened : List Char}
    (hopened : IsTerminator opened) : PartsPlace kind (before ++ opened) := by
  intro n text hparts
  rw [List.append_assoc]
  exact h n (opened ++ text) (hparts.run_append hopened.ne_nil hopened.dollar_notMem)

/-- The first branch may begin where the branches do. -/
theorem PartsPlace.first (h : PartsPlace kind before) (rest : List Char) : Place before rest :=
  fun n text htext _ => h n text (.first htext)

/-- The second branch may begin behind the middle tag. -/
theorem PartsPlace.second (h : PartsPlace kind before) (hfront : Derives front nodes)
    (rest : List Char) : Place (before ++ (front ++ kind.middle)) rest := by
  intro n text htext _
  rw [List.append_assoc]
  exact h n (front ++ kind.middle ++ text) (.second hfront htext)

/-! ### Finishing a tag -/

/-- Elements may follow a place. -/
theorem Place.isViable_of_derives (h : Place before (text ++ rest)) (hderives : Derives text nodes) :
    IsViable (before ++ text) := by
  obtain ⟨m, hinside⟩ :=
    h 0 text hderives.inside (Resembles.of_prefix (List.prefix_append text rest))
  exact hinside.isViable

/-- What stands before a place is viable. -/
theorem Place.isViable (h : Place before rest) : IsViable before := by
  have hviable : IsViable (before ++ []) := Place.isViable_of_derives h .nil
  rwa [List.append_nil] at hviable

theorem Place.isViable_append (h : Place before rest) (htag : Inside n (text ++ other))
    (hstops : Stops (· != '$') (text ++ other)) : IsViable (before ++ text) := by
  obtain ⟨m, hinside⟩ := h.exists_inside htag hstops
  rw [← List.append_assoc] at hinside
  exact hinside.isViable.of_append

/-- **An opening tag may break off anywhere.** -/
theorem Place.isViable_of_prefix_openTag (h : Place before rest) (kind : BlockKind)
    (hr : r.IsWritable) (htext : text <+: kind.openTag r) : IsViable (before ++ text) := by
  obtain ⟨other, hother⟩ := htext
  have htag : Inside 1 (kind.openTag r ++ []) := .block hr (.first .start)
  have hstops := kind.openTag_stops r []
  rw [List.append_nil, ← hother] at htag hstops
  exact h.isViable_append htag hstops

/-- **A variable may break off anywhere.** -/
theorem Place.isViable_of_prefix_variableTag (h : Place before rest) (hr : r.IsWritable)
    (hreserved : r.isReserved = false) (htext : text <+: r.variableTag) :
    IsViable (before ++ text) := by
  obtain ⟨other, hother⟩ := htext
  have htag : Inside 0 (r.variableTag ++ []) :=
    .element (.leaf (.interpolation hr hreserved)) .start
  rw [List.append_nil, ← hother] at htag
  exact h.isViable_append htag (hother ▸ rfl)

/-- A text ends with the dot of a variable whose reference begins with a reserved word. -/
def EndsInReservedPath (text : List Char) : Prop :=
  ∃ (n : Nat) (before : List Char) (r : Reference), Inside n before ∧ r.IsWritable ∧
    r.isReserved = true ∧ text = before ++ ('$' :: r.chars ++ ['.'])

/-- Behind a text something may be missing: the text is viable, or it ends with the dot of a
reference that no variable can have. -/
def BreaksOff (text : List Char) : Prop :=
  IsViable text ∨ EndsInReservedPath text

/-- Behind the bracket of an opening tag a name may be missing. -/
theorem Place.breaksOff_opening (h : Place before rest) (kind : BlockKind) :
    BreaksOff (before ++ kind.opening) := by
  have hname : (Reference.key "x").IsWritable := by decide
  refine Or.inl (h.isViable_of_prefix_openTag kind hname ?_)
  rw [BlockKind.openTag, List.append_assoc]
  exact List.prefix_append kind.opening _

/-- Behind its reference a bracket. -/
theorem Place.breaksOff_opening_reference (h : Place before rest) (kind : BlockKind)
    (hr : r.IsWritable) : BreaksOff (before ++ (kind.opening ++ r.chars)) :=
  Or.inl (h.isViable_of_prefix_openTag kind hr (List.prefix_append _ [')', '$']))

/-- And behind a dot of its reference a name. -/
theorem Place.breaksOff_opening_dot (h : Place before rest) (kind : BlockKind)
    (hr : r.IsWritable) : BreaksOff (before ++ (kind.opening ++ (r.chars ++ ['.']))) := by
  have hname : Text.IsName "x" := by decide
  refine Or.inl (h.isViable_of_prefix_openTag kind (hr.extend hname) ?_)
  rw [BlockKind.openTag, Reference.chars_extend]
  exact ⟨['x', ')', '$'], by simp⟩

/-- Behind the dollar of a variable a name may be missing. -/
theorem Place.breaksOff_dollar (h : Place before rest) : BreaksOff (before ++ ['$']) :=
  Or.inl (h.isViable_of_prefix_variableTag (r := .key "x") (by decide) (by decide)
    ⟨['x', '$'], by decide⟩)

/-- Behind its reference a dollar, unless it begins with a reserved word. -/
theorem Place.breaksOff_dollar_reference (h : Place before rest) (hr : r.IsWritable)
    (hreserved : r.isReserved = false) : BreaksOff (before ++ ('$' :: r.chars)) :=
  Or.inl (h.isViable_of_prefix_variableTag hr hreserved (List.prefix_append _ ['$']))

/-- And behind a dot of its reference a name, though one that begins with a reserved word cannot be
completed. -/
theorem Place.breaksOff_dollar_dot (h : Place before rest) (hr : r.IsWritable) :
    BreaksOff (before ++ ('$' :: r.chars ++ ['.'])) := by
  cases hreserved : r.isReserved with
  | false =>
    have hname : Text.IsName "x" := by decide
    refine Or.inl (h.isViable_of_prefix_variableTag (hr.extend hname) hreserved ?_)
    rw [Reference.variableTag, Reference.chars_extend]
    exact ⟨['x', '$'], by simp⟩
  | true =>
    obtain ⟨m, hinside⟩ := h.exists_inside .start (Text.stops_nil _)
    rw [List.append_nil] at hinside
    exact Or.inr ⟨m, before, r, hinside, hr, hreserved, rfl⟩

end Grammar

end DocTemplate
