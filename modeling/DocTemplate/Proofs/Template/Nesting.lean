import DocTemplate.Proofs.Template.Recognition

/-!
# Where blocks open

The place of a block in a source is told by the text before it. That text need not be a template: it
may end inside blocks that are still open. `Grammar.Inside` says how many there are, without a word
about what follows the place: the text is made of complete elements, of opening tags whose blocks do
not end in it, and of first branches that such a block has left behind.

A reader of elements that meets a block inside as many blocks as the limit admits goes no further.
Two statements say that it meets the first such block, and each is proved as completeness is, with
one step less for the reader of branches.

* **Refusal** (`PartReader.Refuses`): a text whose nodes are nested deeper than the limit is not
  read, and the reader stops at a block that lies inside as many blocks as the limit admits.
* **No block is passed over** (`PartReader.Halts`): if an opening tag stands at such a place, the
  reader stops there or before it, whatever the tag belongs to.
-/

namespace DocTemplate

open Text (Stops IsTerminator BeginsWithTerminator utf8Length)
open Grammar (Derives DerivesElement DerivesContents DerivesParts)

namespace Grammar

variable {n : Nat} {kind : BlockKind} {r : Reference} {run text before rest after : List Char}
  {node : Node} {nodes first : List Node} {second : Option (List Node)}

/-! ### Places -/

mutual

/-- Behind a text a number of blocks are open. -/
inductive Inside : Nat → List Char → Prop
  /-- No block is open at the front. -/
  | start : Inside 0 []
  /-- A complete element leaves no block open. -/
  | element {n : Nat} {text rest : List Char} {node : Node}
      (helement : DerivesElement text node rest) (hrest : Inside n rest) : Inside n (text ++ rest)
  /-- The block of an opening tag is open if the place lies in its branches. -/
  | block {n : Nat} {kind : BlockKind} {r : Reference} {text : List Char} (hr : r.IsWritable)
      (hparts : InsideParts kind n text) : Inside (n + 1) (kind.openTag r ++ text)

/-- Behind a text that begins the branches of a block a number of further blocks are open. -/
inductive InsideParts : BlockKind → Nat → List Char → Prop
  | first {kind : BlockKind} {n : Nat} {text : List Char} (htext : Inside n text) :
      InsideParts kind n text
  | second {kind : BlockKind} {n : Nat} {front text : List Char} {nodes : List Node}
      (hfront : Derives front nodes) (htext : Inside n text) :
      InsideParts kind n (front ++ kind.middle ++ text)

end

/-- Behind a front part of a text a block stands. -/
def BlockBehind (text before : List Char) : Prop :=
  ∃ (block rest : List Char) (kind : BlockKind) (r : Reference) (first : List Node)
    (second : Option (List Node)), text = before ++ (block ++ rest) ∧
      DerivesElement block (.block kind r first second) rest

/-- Behind a front part of a text stands the first block that lies inside a number of others. -/
def FirstBlockInside (outer : Nat) (text before : List Char) : Prop :=
  Inside outer before ∧ BlockBehind text before ∧
    ∀ other, Inside outer other → BlockBehind text other → before <+: other

/-- A block begins with its opening tag. -/
theorem BlockBehind.exists_openTag (h : BlockBehind text before) :
    ∃ (kind : BlockKind) (r : Reference) (rest : List Char),
      r.IsWritable ∧ text = before ++ (kind.openTag r ++ rest) := by
  obtain ⟨block, rest, kind, r, first, second, rfl, hblock⟩ := h
  cases hblock with
  | leaf hleaf => cases hleaf
  | @block _ _ body _ _ _ hr _ =>
    exact ⟨kind, r, body ++ rest, hr, by rw [List.append_assoc (kind.openTag r)]⟩

theorem BlockBehind.append_left (h : BlockBehind text before) (front : List Char) :
    BlockBehind (front ++ text) (front ++ before) := by
  obtain ⟨block, rest, kind, r, first, second, rfl, hblock⟩ := h
  exact ⟨block, rest, kind, r, first, second, by rw [List.append_assoc], hblock⟩

/-! ### Plain text in front of a place -/

theorem Inside.run_append (h : Inside n text) (hne : run ≠ []) (hrun : '$' ∉ run) :
    Inside n (run ++ text) := by
  have hfront : ∀ {text : List Char}, Stops (· != '$') text → Inside n text →
      Inside n (run ++ text) := fun hstops h => .element (.leaf (.run hne hrun hstops)) h
  cases h with
  | start => exact hfront (Text.stops_nil _) .start
  | @element _ text rest node helement hrest =>
    rcases helement.run_or_stops with ⟨-, htext, hstop⟩ | hdollar
    · -- the two runs are one
      rw [← List.append_assoc]
      refine .element (.leaf (.run (by simp [hne]) ?_ hstop)) hrest
      exact fun hmem => (List.mem_append.mp hmem).elim hrun htext
    · exact hfront (hdollar rest) (.element helement hrest)
  | @block _ kind r text hr hparts => exact hfront (kind.openTag_stops r text) (.block hr hparts)

/-- Plain text can be taken away from the front of a text without closing or opening a block. -/
theorem Inside.of_run_append (h : Inside n (run ++ text)) (hne : run ≠ []) (hrun : '$' ∉ run) :
    Inside n text := by
  have hstart : ¬Stops (· != '$') (run ++ text) :=
    Text.not_stops_append hne (Text.bne_dollar_of_notMem hrun) text
  generalize hwhole : run ++ text = whole at h hstart
  cases h with
  | start => exact absurd (Text.stops_nil _) hstart
  | @element _ run' rest node helement hrest =>
    rcases helement.run_or_stops with ⟨-, hrun', hstop⟩ | hdollar
    · obtain ⟨tail, rfl⟩ : run <+: run' :=
        Text.prefix_of_prefix_append hrun hstop (hwhole ▸ List.prefix_append run text)
      obtain rfl : text = tail ++ rest := by simpa using hwhole
      cases tail with
      | nil => exact hrest
      | cons c tail =>
        refine .element (.leaf (.run (List.cons_ne_nil c tail) ?_ hstop)) hrest
        exact fun hmem => hrun' (List.mem_append_right run hmem)
    · exact absurd (hdollar rest) hstart
  | @block _ kind r text hr hparts => exact absurd (kind.openTag_stops r text) hstart

theorem InsideParts.run_append (h : InsideParts kind n text) (hne : run ≠ []) (hrun : '$' ∉ run) :
    InsideParts kind n (run ++ text) := by
  cases h with
  | first htext => exact .first (htext.run_append hne hrun)
  | second hfront htext =>
    simp only [← List.append_assoc]
    exact .second (hfront.run_append hne hrun) htext

theorem InsideParts.of_run_append (h : InsideParts kind n (run ++ text)) (hne : run ≠ [])
    (hrun : '$' ∉ run) : InsideParts kind n text := by
  generalize hwhole : run ++ text = whole at h
  cases h with
  | first htext => exact .first ((hwhole ▸ htext).of_run_append hne hrun)
  | @second _ _ front inner nodes hfront htext =>
    rw [List.append_assoc] at hwhole
    obtain ⟨tail, rfl⟩ : run <+: front :=
      Text.prefix_of_prefix_append hrun (kind.middle_stops inner)
        (hwhole ▸ List.prefix_append run text)
    obtain rfl : text = tail ++ (kind.middle ++ inner) := by simpa using hwhole
    obtain ⟨nodes', hfront', -⟩ := hfront.of_run_append hne hrun
    rw [← List.append_assoc]
    exact .second hfront' htext

end Grammar

/-! ### Where a reading stops -/

namespace Cursor

/-- The place a reading stops at lies behind a front part of a text. -/
structure StopsAt (s : Cursor) (text before : List Char) (e : TooDeep) : Prop where
  front : before <+: text
  offset : e.offset = s.pos + utf8Length before

/-- The place a reading stops at lies behind a front part of a text, and a block stands there. -/
structure RefusedAt (s : Cursor) (text before : List Char) (e : TooDeep) : Prop
    extends s.StopsAt text before e where
  block : Grammar.BlockBehind s.rest before

variable {s t : Cursor} {front text text' before : List Char} {e : TooDeep}

theorem StopsAt.mono (h : s.StopsAt text before e) (htext : text <+: text') :
    s.StopsAt text' before e :=
  ⟨h.front.trans htext, h.offset⟩

/-- What is read before comes before. -/
theorem StopsAt.of_reads (h : t.StopsAt text before e) (hst : s.Reads front t) :
    s.StopsAt (front ++ text) (front ++ before) e where
  front := (List.prefix_append_right_inj front).mpr h.front
  offset := by rw [h.offset, hst.pos, Text.utf8Length_append, Nat.add_assoc]

theorem RefusedAt.mono (h : s.RefusedAt text before e) (htext : text <+: text') :
    s.RefusedAt text' before e :=
  ⟨h.toStopsAt.mono htext, h.block⟩

theorem RefusedAt.of_reads (h : t.RefusedAt text before e) (hst : s.Reads front t) :
    s.RefusedAt (front ++ text) (front ++ before) e :=
  ⟨h.toStopsAt.of_reads hst, hst.rest ▸ h.block.append_left front⟩

end Cursor

namespace Parser

open Grammar (Inside InsideParts BlockBehind BranchEnd)

variable {limit bound n : Nat} {inner : PartReader} {kind : BlockKind} {r : Reference} {s : Cursor}
  {text after rest : List Char} {node : Node} {first : List Node} {second : Option (List Node)}

/-! ### Refusal -/

/-- A reader of branches that may open as many further blocks as a number says stops, on a text
whose nodes are nested deeper, at a block that lies inside as many blocks. -/
def PartReader.Refuses (limit bound : Nat) (inner : PartReader) : Prop :=
  ∀ text nodes, Derives text nodes → text.length < bound →
    ∀ s after n, s.rest = text ++ after → Stops (· != '$') after → s.depth + n = limit →
      n < Node.depthAll nodes →
        ∃ before e, inner s = .error e ∧ Inside n before ∧ s.RefusedAt text before e

theorem parts_refused (hcomplete : inner.Complete limit bound)
    (hrefuses : inner.Refuses limit bound)
    (h : DerivesParts kind text first second) (hlength : text.length ≤ bound)
    (hs : s.rest = text ++ after) (hn : s.depth + n = limit)
    (hdepth : n < max (Node.depthAll first) (Node.depthSecond second)) :
    ∃ before e, parts inner kind s = .error e ∧ InsideParts kind n before ∧
      s.RefusedAt text before e := by
  have hclosing : 0 < kind.closing.length := by cases kind <;> decide
  cases h with
  | @one _ front _ hfirst =>
    rw [List.append_assoc] at hs
    simp only [List.length_append, Node.depthSecond, Nat.max_zero] at hlength hdepth
    obtain ⟨before, e, he, hinside, hrefused⟩ := hrefuses front first hfirst (by omega) s _ n hs
      (kind.closing_stops after) hn hdepth
    exact ⟨before, e, by simp only [parts, he], .first hinside,
      hrefused.mono (List.prefix_append front _)⟩
  | @two _ front other _ second hfirst hsecond =>
    simp only [List.append_assoc] at hs
    simp only [List.length_append, Node.depthSecond] at hlength hdepth
    rcases Nat.lt_or_ge n (Node.depthAll first) with hdeep | hfits
    · obtain ⟨before, e, he, hinside, hrefused⟩ := hrefuses front first hfirst (by omega) s _ n hs
        (kind.middle_stops _) hn hdeep
      refine ⟨before, e, by simp only [parts, he], .first hinside, hrefused.mono ?_⟩
      simp only [List.append_assoc]
      exact List.prefix_append front _
    · obtain ⟨t, ht, hst⟩ := hcomplete front first hfirst (by omega) s _ hs
        (Grammar.branchEnd_middle kind _) (by omega)
      obtain ⟨u, hu, htu⟩ := eat_of_prefix (hst.rest_eq hs)
      have hsu := hst.trans htu
      obtain ⟨before, e, he, hinside, hrefused⟩ := hrefuses other second hsecond (by omega) u
        (kind.closing ++ after) n (hsu.rest_eq (by rw [hs]; simp)) (kind.closing_stops after)
        (by rw [hsu.depth]; exact hn) (by omega)
      exact ⟨_, e, by simp only [parts, ht, hu, he], .second hfirst hinside,
        (hrefused.of_reads hsu).mono (List.prefix_append _ _)⟩

theorem contents_refused (hcomplete : inner.Complete limit bound)
    (hrefuses : inner.Refuses limit bound) (h : DerivesContents kind text first second rest)
    (hlength : text.length ≤ bound) (hs : s.rest = text ++ rest) (hn : s.depth + n = limit)
    (hdepth : n < max (Node.depthAll first) (Node.depthSecond second)) :
    ∃ before e, contents inner kind s = .error e ∧ InsideParts kind n before ∧
      s.RefusedAt text before e := by
  -- whether a terminator goes with the block or stays, it comes before what is refused
  have hbehind : ∀ {opened text first}, IsTerminator opened →
      DerivesParts kind text first second → (opened ++ text).length ≤ bound →
      ∀ {after}, s.rest = opened ++ (text ++ after) →
      n < max (Node.depthAll first) (Node.depthSecond second) →
      ∃ before e, contents inner kind s = .error e ∧ InsideParts kind n before ∧
        s.RefusedAt (opened ++ text) before e := by
    intro opened text first hopened hparts hlength after hs hdepth
    rw [List.length_append] at hlength
    obtain ⟨t, ht, hst⟩ := eatTerminator_of_isTerminator hs hopened
    obtain ⟨before, e, he, hinside, hrefused⟩ := parts_refused hcomplete hrefuses hparts (by omega)
      (hst.rest_eq hs) (by rw [hst.depth]; exact hn) hdepth
    obtain ⟨c, cs, rfl⟩ := List.exists_cons_of_ne_nil hopened.ne_nil
    exact ⟨_, e, by simp only [contents, ht, he],
      hinside.run_append hopened.ne_nil hopened.dollar_notMem, hrefused.of_reads hst⟩
  cases h with
  | @paired _ opened text closed _ _ _ hopened hclosed hparts =>
    simp only [List.append_assoc] at hs
    rw [List.length_append] at hlength
    obtain ⟨before, e, he, hinside, hrefused⟩ := hbehind hopened hparts (by omega) hs hdepth
    exact ⟨before, e, he, hinside, hrefused.mono (List.prefix_append _ closed)⟩
  | unpaired hnot hparts =>
    by_cases hopened : BeginsWithTerminator text
    · obtain ⟨opened, hterm, tail, rfl⟩ := hopened
      obtain ⟨first', hparts', rfl⟩ := hparts.of_run_append hterm.ne_nil hterm.dollar_notMem
      rw [Node.depthAll_cons, Node.depth, Nat.zero_max] at hdepth
      exact hbehind hterm hparts' hlength (by rw [hs, List.append_assoc]) hdepth
    · have hs' : ¬BeginsWithTerminator s.rest := fun hterm =>
        hopened (hparts.beginsWithTerminator_of_append (hs ▸ hterm))
      obtain ⟨t, ht, hst⟩ := eatTerminator_of_not_beginsWithTerminator hs'
      obtain ⟨before, e, he, hinside, hrefused⟩ := parts_refused hcomplete hrefuses hparts hlength
        (hst.rest_of_nil.trans hs) (by rw [hst.depth]; exact hn) hdepth
      exact ⟨before, e, by simp only [contents, ht, he], hinside, hrefused.of_reads hst⟩

/-- At an opening tag an element is read by reading a block. -/
theorem exists_block_of_openTag (limit : Nat) (inner : PartReader)
    (hs : s.rest = kind.openTag r ++ after) :
    ∃ t, s.Reads [] t ∧
      ∀ e, block limit inner kind t = .error e → element limit inner s = .error e := by
  cases kind with
  | conditional => exact ⟨s, .refl s, fun e he => by simp only [element, he]⟩
  | loop =>
    -- the reader looks for a conditional first
    have hno : ∀ r' : Reference, ¬BlockKind.conditional.openTag r' <+: s.rest := fun r' =>
      hs ▸ BlockKind.not_openTag_prefix_openTag (by decide) r' r after
    obtain ⟨t, ht, hst⟩ := block_eq_of_not_prefix limit inner hno
    exact ⟨t, hst, fun e he => by simp only [element, ht, he]⟩

/-- No further block is read if as many are open as may be. -/
theorem element_eq_error_of_openTag (inner : PartReader) (hr : r.IsWritable)
    (hs : s.rest = kind.openTag r ++ after) (hdepth : limit ≤ s.depth) :
    element limit inner s = .error ⟨s.pos⟩ := by
  obtain ⟨t, hst, helement⟩ := exists_block_of_openTag limit inner hs
  obtain ⟨u, hu, htu⟩ := openTag_eq_of_openTag hr (hst.rest_of_nil.trans hs)
  have hpos : t.pos = s.pos := hst.pos
  rw [← hst.depth, ← htu.depth] at hdepth
  exact helement _ (by simp only [block, hu, if_pos hdepth, hpos])

/-- If the limit admits the block of an opening tag, what its contents are refused for, the element
is refused for. -/
theorem element_eq_error_of_contents (limit : Nat) (inner : PartReader) (hr : r.IsWritable)
    (hs : s.rest = kind.openTag r ++ after) (hdepth : s.depth < limit) :
    ∃ t, s.Reads (kind.openTag r) t ∧ ∀ e,
      contents inner kind { t with depth := t.depth + 1 } = .error e →
        element limit inner s = .error e := by
  obtain ⟨t, hst, helement⟩ := exists_block_of_openTag limit inner hs
  obtain ⟨u, hu, htu⟩ := openTag_eq_of_openTag hr (hst.rest_of_nil.trans hs)
  have hsu := hst.trans htu
  have hlimit : ¬limit ≤ u.depth := by
    rw [hsu.depth]
    omega
  exact ⟨u, hsu, fun e he => helement e (by simp only [block, hu, if_neg hlimit, he])⟩

theorem element_refused (hcomplete : inner.Complete limit bound)
    (hrefuses : inner.Refuses limit bound) (h : DerivesElement text node rest)
    (hlength : text.length ≤ bound) (hs : s.rest = text ++ rest) (hn : s.depth + n = limit)
    (hdepth : n < node.depth) :
    ∃ before e, element limit inner s = .error e ∧ Inside n before ∧ s.RefusedAt text before e := by
  have hwhole : DerivesElement text node rest := h
  cases h with
  | leaf hleaf =>
    rw [hleaf.depth_eq_zero] at hdepth
    omega
  | @block kind r text _ first second hr hcontents =>
    have hs' : s.rest = kind.openTag r ++ (text ++ rest) := by rw [hs, List.append_assoc]
    rw [Node.depth_block] at hdepth
    rw [List.length_append] at hlength
    cases n with
    | zero =>
      -- no further block may be opened, and this is one
      refine ⟨[], _, element_eq_error_of_openTag inner hr hs' (by omega), .start, ?_, ?_⟩
      · exact ⟨List.nil_prefix, rfl⟩
      · exact ⟨_, rest, kind, r, first, second, hs, hwhole⟩
    | succ n =>
      obtain ⟨t, hst, helement⟩ := element_eq_error_of_contents limit inner hr hs' (by omega)
      obtain ⟨before, e, he, hinside, hrefused⟩ := contents_refused
        (n := n) (s := { t with depth := t.depth + 1 }) hcomplete hrefuses hcontents (by omega)
        (hst.rest_eq hs') (by simp only [hst.depth]; omega) (by omega)
      have hrefused' : t.RefusedAt text before e :=
        ⟨⟨hrefused.front, hrefused.offset⟩, hrefused.block⟩
      exact ⟨_, e, helement e he, .block hr hinside, hrefused'.of_reads hst⟩

/-- **What is nested too deep is refused at a block** that lies inside as many blocks as the limit
admits. -/
theorem elements_refused (limit steps : Nat) :
    PartReader.Refuses limit steps (elements limit steps []) := by
  induction steps with
  | zero =>
    intro text nodes _ hlength
    omega
  | succ steps ih =>
    intro text nodes h hlength s after n hs hafter hn hdepth
    cases h with
    | nil => exact absurd hdepth (Nat.not_lt_zero n)
    | @cons text rest node nodes helement hrest =>
      rw [List.append_assoc] at hs
      rw [List.length_append] at hlength
      rw [Node.depthAll_cons] at hdepth
      have hpos : 0 < text.length := List.length_pos_iff.mpr helement.ne_nil
      have hcomplete := elements_complete limit steps
      -- the first element that is nested too deep is refused, and those before it are read
      rcases Nat.lt_or_ge n node.depth with hdeep | hfits
      · obtain ⟨before, e, he, hinside, hrefused⟩ := element_refused hcomplete ih
          (helement.append hafter) (by omega) hs hn hdeep
        exact ⟨before, e, by simp only [elements_succ_eq, he], hinside,
          hrefused.mono (List.prefix_append text rest)⟩
      · obtain ⟨t, ht, hst⟩ := element_complete hcomplete (helement.append hafter) (by omega) hs
          (by omega)
        obtain ⟨before, e, he, hinside, hrefused⟩ := ih rest nodes hrest (by omega) t after n
          (hst.rest_eq hs) hafter (by rw [hst.depth]; exact hn) (by omega)
        have hfront : before <+: rest := hrefused.front
        exact ⟨_, e, by simp only [elements_succ_eq, ht, he, Except.map],
          .element (helement.of_prefix hfront) hinside, hrefused.of_reads hst⟩

/-! ### No block is passed over -/

/-- A reader of branches that may open as many further blocks as a number says stops at an opening
tag that lies inside as many blocks, or before it. -/
def PartReader.Halts (limit bound : Nat) (inner : PartReader) : Prop :=
  ∀ n before, Inside n before → before.length < bound →
    ∀ (s : Cursor) (kind : BlockKind) (r : Reference) (after : List Char), r.IsWritable →
      s.rest = before ++ (kind.openTag r ++ after) → s.depth + n = limit →
        ∃ front e, inner s = .error e ∧ s.StopsAt before front e

section

variable {before : List Char} {kind' : BlockKind}

theorem parts_halts (hcomplete : inner.Complete limit bound) (hrefuses : inner.Refuses limit bound)
    (hhalts : inner.Halts limit bound) (h : InsideParts kind n before)
    (hlength : before.length < bound) (hr : r.IsWritable)
    (hs : s.rest = before ++ (kind'.openTag r ++ after)) (hn : s.depth + n = limit) :
    ∃ front e, parts inner kind s = .error e ∧ s.StopsAt before front e := by
  cases h with
  | first hinside =>
    obtain ⟨front, e, he, hstops⟩ := hhalts n before hinside hlength s kind' r after hr hs hn
    exact ⟨front, e, by simp only [parts, he], hstops⟩
  | @second _ _ branch text nodes hbranch hinside =>
    simp only [List.append_assoc] at hs
    simp only [List.length_append] at hlength
    rcases Nat.lt_or_ge n (Node.depthAll nodes) with hdeep | hfits
    · -- the first branch stops the reading already
      obtain ⟨front, e, he, -, hrefused⟩ := hrefuses branch nodes hbranch (by omega) s _ n hs
        (kind.middle_stops _) hn hdeep
      refine ⟨front, e, by simp only [parts, he], hrefused.toStopsAt.mono ?_⟩
      rw [List.append_assoc]
      exact List.prefix_append branch _
    · obtain ⟨t, ht, hst⟩ := hcomplete branch nodes hbranch (by omega) s _ hs
        (Grammar.branchEnd_middle kind _) (by omega)
      obtain ⟨u, hu, htu⟩ := eat_of_prefix (hst.rest_eq hs)
      have hsu := hst.trans htu
      obtain ⟨front, e, he, hstops⟩ := hhalts n text hinside (by omega) u kind' r after hr
        (hsu.rest_eq (by rw [hs, List.append_assoc])) (by rw [hsu.depth]; exact hn)
      exact ⟨_, e, by simp only [parts, ht, hu, he], hstops.of_reads hsu⟩

theorem contents_halts (hcomplete : inner.Complete limit bound)
    (hrefuses : inner.Refuses limit bound) (hhalts : inner.Halts limit bound)
    (h : InsideParts kind n before) (hlength : before.length < bound) (hr : r.IsWritable)
    (hs : s.rest = before ++ (kind'.openTag r ++ after)) (hn : s.depth + n = limit) :
    ∃ front e, contents inner kind s = .error e ∧ s.StopsAt before front e := by
  by_cases hopened : BeginsWithTerminator s.rest
  · -- the terminator stands before the place, since an opening tag begins with a dollar
    obtain ⟨opened, hterm, text, rfl⟩ :=
      (hs ▸ hopened).of_append (kind'.openTag_stops r after)
    rw [List.append_assoc] at hs
    rw [List.length_append] at hlength
    obtain ⟨t, ht, hst⟩ := eatTerminator_of_isTerminator hs hterm
    obtain ⟨front, e, he, hstops⟩ := parts_halts hcomplete hrefuses hhalts
      (h.of_run_append hterm.ne_nil hterm.dollar_notMem) (by omega) hr (hst.rest_eq hs)
      (by rw [hst.depth]; exact hn)
    obtain ⟨c, cs, rfl⟩ := List.exists_cons_of_ne_nil hterm.ne_nil
    exact ⟨_, e, by simp only [contents, ht, he], hstops.of_reads hst⟩
  · obtain ⟨t, ht, hst⟩ := eatTerminator_of_not_beginsWithTerminator hopened
    obtain ⟨front, e, he, hstops⟩ := parts_halts hcomplete hrefuses hhalts h hlength hr
      (hst.rest_of_nil.trans hs) (by rw [hst.depth]; exact hn)
    exact ⟨front, e, by simp only [contents, ht, he], hstops.of_reads hst⟩

end

/-- **No block is passed over** inside as many blocks as the limit admits. -/
theorem elements_halts (limit steps : Nat) :
    PartReader.Halts limit steps (elements limit steps []) := by
  induction steps with
  | zero =>
    intro n before _ hlength
    omega
  | succ steps ih =>
    intro n before h hlength s kind r after hr hs hn
    have hcomplete := elements_complete limit steps
    have hrefuses := elements_refused limit steps
    cases h with
    | start =>
      have herror :=
        element_eq_error_of_openTag (elements limit steps []) hr hs (Nat.le_of_eq hn.symm)
      exact ⟨[], ⟨s.pos⟩, by simp only [elements_succ_eq, herror], List.nil_prefix, rfl⟩
    | @element _ text rest node helement hinside =>
      rw [List.append_assoc] at hs
      rw [List.length_append] at hlength
      have hpos : 0 < text.length := List.length_pos_iff.mpr helement.ne_nil
      have helement' := helement.append (kind.openTag_stops r after)
      rcases Nat.lt_or_ge n node.depth with hdeep | hfits
      · obtain ⟨front, e, he, -, hrefused⟩ :=
          element_refused hcomplete hrefuses helement' (by omega) hs hn hdeep
        exact ⟨front, e, by simp only [elements_succ_eq, he],
          hrefused.toStopsAt.mono (List.prefix_append text rest)⟩
      · obtain ⟨t, ht, hst⟩ := element_complete hcomplete helement' (by omega) hs (by omega)
        obtain ⟨front, e, he, hstops⟩ := ih n rest hinside (by omega) t kind r after hr
          (hst.rest_eq hs) (by rw [hst.depth]; exact hn)
        exact ⟨_, e, by simp only [elements_succ_eq, ht, he, Except.map], hstops.of_reads hst⟩
    | @block n kind' r' text hr' hparts =>
      rw [List.append_assoc] at hs
      rw [List.length_append] at hlength
      have hpos : 0 < (kind'.openTag r').length :=
        List.length_pos_iff.mpr (by cases kind' <;> exact List.cons_ne_nil _ _)
      obtain ⟨t, hst, helement⟩ :=
        element_eq_error_of_contents limit (elements limit steps []) hr' hs (by omega)
      obtain ⟨front, e, he, hstops⟩ := contents_halts (n := n)
        (s := { t with depth := t.depth + 1 }) hcomplete hrefuses ih hparts (by omega) hr
        (hst.rest_eq hs) (by simp only [hst.depth]; omega)
      have hstops' : t.StopsAt text front e := ⟨hstops.front, hstops.offset⟩
      exact ⟨_, e, by simp only [elements_succ_eq, helement e he], hstops'.of_reads hst⟩

end Parser

end DocTemplate
