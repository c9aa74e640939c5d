import DocTemplate.Proofs.Template.Recognition
import DocTemplate.Proofs.Text.LineEnding

/-!
# Reading with either line ending

A source without carriage returns and the same source with pairs for its line feeds are read in
step (`Parser.elements_crlf`): each reader, at a place of the one and at the same place of the
other, returns the same thing in the two forms and ends at the same place again. So they compile to
the same template in the two forms, or fail in the same way on the same line
(`Template.compile_crlf`).

A place is carried over by its text, not by its number: `Cursor.crlf` puts `Text.crlfOffset` for
each offset. Most steps of a reader commute with it whatever the cursor is. Only a step over a text
has to know that the cursor stands in the source (`Cursor.StandsIn`), since it adds up lengths.

The reading of the longer form is given more steps. So the two readers of branches that are compared
are different ones, and they agree only as long as less text is left than both have steps
(`PartReader.Mirrors`).
-/

namespace DocTemplate

open Text (crlf crlfOffset crlfString utf8Length isNameChar splitTerminator)

/-! ### Templates in the other form -/

mutual

/-- A node with pairs for the line feeds in its literals. -/
def Node.crlf : Node → Node
  | .literal text => .literal (crlfString text)
  | .interpolation r => .interpolation r
  | .block kind r first none => .block kind r (Node.crlfAll first) none
  | .block kind r first (some second) =>
    .block kind r (Node.crlfAll first) (some (Node.crlfAll second))

/-- Nodes with pairs for the line feeds in their literals. -/
def Node.crlfAll : List Node → List Node
  | [] => []
  | node :: rest => Node.crlf node :: Node.crlfAll rest

end

/-- A template with pairs for the line feeds in its literals. -/
def Template.crlf (t : Template) : Template :=
  ⟨Node.crlfAll t.nodes⟩

namespace Node

theorem crlf_block (kind : BlockKind) (r : Reference) (first : List Node)
    (second : Option (List Node)) :
    Node.crlf (.block kind r first second) =
      .block kind r (crlfAll first) (second.map crlfAll) := by
  cases second <;> rfl

theorem crlfAll_cons (node : Node) (nodes : List Node) :
    crlfAll (cons node nodes) = cons node.crlf (crlfAll nodes) := by
  cases node with
  | literal text =>
    cases nodes with
    | nil => rfl
    | cons next rest =>
      cases next with
      | literal other =>
        simp only [cons, crlfAll, Node.crlf, Text.crlfString_append]
      | interpolation _ => rfl
      | block _ _ _ second => cases second <;> rfl
  | interpolation _ => rfl
  | block _ _ _ second => cases second <;> rfl

end Node

/-! ### Cursors -/

namespace Cursor

variable {source text rest : List Char} {bound : Nat} {s t : Cursor}

/-- A cursor at the same place of the other form of a source. -/
def crlf (source : List Char) (s : Cursor) : Cursor :=
  ⟨Text.crlf s.rest, crlfOffset source s.pos, crlfOffset source s.furthest, s.depth⟩

theorem rest_crlf (source : List Char) (s : Cursor) : (s.crlf source).rest = Text.crlf s.rest := rfl

theorem start_crlf (source : List Char) :
    (start source).crlf source = start (Text.crlf source) := by
  have hzero := Text.crlfOffset_utf8Length (List.nil_prefix (l := source))
  simp only [Text.utf8Length_nil, Text.crlf_nil] at hzero
  rw [crlf, start, hzero, start]

/-- A cursor stands in a source: its offset is that of the text in front of it. What is left has no
carriage returns and less than a number of characters. -/
structure StandsIn (source : List Char) (bound : Nat) (s : Cursor) : Prop where
  place : ∃ before, source = before ++ s.rest ∧ s.pos = utf8Length before
  noReturn : '\r' ∉ s.rest
  length : s.rest.length < bound

theorem StandsIn.start (h : '\r' ∉ source) : (start source).StandsIn source (source.length + 1) :=
  ⟨⟨[], rfl, rfl⟩, h, Nat.lt_succ_self _⟩

theorem StandsIn.of_reads (h : s.StandsIn source bound) (hst : s.Reads text t) :
    t.StandsIn source bound where
  place := by
    obtain ⟨before, hsource, hpos⟩ := h.place
    refine ⟨before ++ text, ?_, ?_⟩
    · rw [hsource, hst.rest, List.append_assoc]
    · rw [hst.pos, hpos, Text.utf8Length_append]
  noReturn := fun hmem => h.noReturn (hst.rest ▸ List.mem_append_right text hmem)
  length := by
    have hlength := h.length
    rw [hst.rest, List.length_append] at hlength
    omega

/-- Behind a text that is not empty less is left. -/
theorem StandsIn.of_reads_of_ne_nil (h : s.StandsIn source (bound + 1)) (hst : s.Reads text t)
    (hne : text ≠ []) : t.StandsIn source bound where
  place := (h.of_reads hst).place
  noReturn := (h.of_reads hst).noReturn
  length := by
    have hlength := h.length
    have hpos : 0 < text.length := List.length_pos_iff.mpr hne
    rw [hst.rest, List.length_append] at hlength
    omega

theorem miss_crlf (source : List Char) (s : Cursor) :
    (s.crlf source).miss = s.miss.crlf source := by
  have hmax := (Text.crlfOffset_monotone source).map_max (a := s.furthest) (b := s.pos)
  exact congrArg (fun furthest => (⟨_, _, furthest, _⟩ : Cursor)) hmax.symm

/-- **A step over a text is a step over its other form.** -/
theorem advance_crlf (hs : s.StandsIn source bound) (h : s.rest = text ++ rest) :
    (s.crlf source).advance (Text.crlf text) (Text.crlf rest) =
      (s.advance text rest).crlf source := by
  obtain ⟨before, hsource, hpos⟩ := hs.place
  rw [h] at hsource
  have hbefore : before <+: source := ⟨_, hsource.symm⟩
  have hfront : before ++ text <+: source := ⟨rest, by rw [hsource, List.append_assoc]⟩
  have hstep : crlfOffset source s.pos + utf8Length (Text.crlf text) =
      crlfOffset source (s.pos + utf8Length text) := by
    rw [hpos, Text.crlfOffset_utf8Length hbefore, ← Text.utf8Length_append,
      ← Text.utf8Length_append, Text.crlfOffset_utf8Length hfront, Text.crlf_append]
  exact congrArg (fun pos => (⟨_, pos, _, _⟩ : Cursor)) hstep

end Cursor

namespace Parser

variable {source : List Char} {bound : Nat} {s t : Cursor} {kind : BlockKind}

/-! ### Readers without parts -/

/-- A text has no line feeds and no carriage returns. -/
def IsOnOneLine (text : List Char) : Prop := '\n' ∉ text ∧ '\r' ∉ text

instance (text : List Char) : Decidable (IsOnOneLine text) := inferInstanceAs (Decidable (_ ∧ _))

theorem opening_isOnOneLine (kind : BlockKind) : IsOnOneLine kind.opening := by
  cases kind <;> decide

theorem middle_isOnOneLine (kind : BlockKind) : IsOnOneLine kind.middle := by
  cases kind <;> decide

theorem closing_isOnOneLine (kind : BlockKind) : IsOnOneLine kind.closing := by
  cases kind <;> decide

theorem afterToken?_crlf {token : List Char} (htoken : IsOnOneLine token) (text : List Char) :
    afterToken? token (crlf text) = (afterToken? token text).map crlf := by
  induction token generalizing text with
  | nil => rfl
  | cons d token ih =>
    obtain ⟨⟨hfeed, htoken⟩, hreturn, htoken'⟩ := htoken.imp
      (fun h => not_or.mp (mt List.mem_cons.mpr h)) (fun h => not_or.mp (mt List.mem_cons.mpr h))
    cases text with
    | nil => rfl
    | cons c text =>
      by_cases hc : c = '\n'
      · rw [hc, Text.crlf_lineFeed_cons, afterToken?, afterToken?, if_neg hreturn, if_neg hfeed]
        rfl
      · rw [Text.crlf_cons_of_ne hc, afterToken?, afterToken?]
        split
        · exact ih ⟨htoken, htoken'⟩ text
        · rfl

theorem eat_crlf (hs : s.StandsIn source bound) {token : List Char} (htoken : IsOnOneLine token) :
    eat token (s.crlf source) = (eat token s).map id (Cursor.crlf source) := by
  rw [eat, eat, Cursor.rest_crlf, afterToken?_crlf htoken]
  cases hrest : afterToken? token s.rest with
  | none => exact congrArg (Prod.mk false) (Cursor.miss_crlf source s)
  | some rest =>
    have hadvance := Cursor.advance_crlf hs (append_of_afterToken? hrest)
    rw [Text.crlf_of_notMem htoken.1] at hadvance
    exact congrArg (Prod.mk true) hadvance

theorem eatTerminator_crlf (hs : s.StandsIn source bound) :
    eatTerminator (s.crlf source) = (eatTerminator s).map crlf (Cursor.crlf source) := by
  have hadvance := Cursor.advance_crlf hs (Text.splitTerminator_append s.rest).symm
  rw [eatTerminator, Cursor.rest_crlf, Text.splitTerminator_crlf hs.noReturn]
  exact congrArg (Prod.mk _) hadvance

theorem name_crlf (hs : s.StandsIn source bound) :
    name (s.crlf source) = (name s).map id (Cursor.crlf source) := by
  have hclass : isNameChar '\r' = isNameChar '\n' :=
    Text.isNameChar_return.trans Text.isNameChar_lineFeed.symm
  have hcut := List.takeWhile_append_dropWhile (p := isNameChar) (l := s.rest)
  have hrun : crlf (s.rest.takeWhile isNameChar) = s.rest.takeWhile isNameChar := by
    refine Text.crlf_of_notMem fun hmem => ?_
    have hname := List.all_eq_true.mp (List.all_takeWhile (p := isNameChar) (l := s.rest)) _ hmem
    exact Bool.false_ne_true (Text.isNameChar_lineFeed.symm.trans hname)
  have hadvance := Cursor.advance_crlf hs hcut.symm
  rw [hrun] at hadvance
  rw [name, name, Cursor.rest_crlf, Text.takeWhile_crlf hclass, Text.dropWhile_crlf hclass, hrun]
  cases hname : s.rest.takeWhile isNameChar with
  | nil => exact congrArg (Prod.mk none) (Cursor.miss_crlf source s)
  | cons c cs =>
    rw [hname] at hadvance
    exact congrArg (Prod.mk _) hadvance

theorem furtherNames_crlf (hs : s.StandsIn source bound) (names : List String) :
    furtherNames names (s.crlf source) =
      (furtherNames names s).map id (Cursor.crlf source) := by
  -- behind the dot the other form goes on as the source does
  have hname : ∀ {s : Cursor} {rest : List Char}, s.StandsIn source bound →
      s.rest = '.' :: rest → (s.crlf source).rest = '.' :: crlf rest ∧
        name ((s.crlf source).advance ['.'] (crlf rest)) =
          (name (s.advance ['.'] rest)).map id (Cursor.crlf source) := by
    intro s rest hs hrest
    refine ⟨(congrArg crlf hrest).trans (Text.crlf_cons_of_ne (by decide) rest), ?_⟩
    rw [← name_crlf (hs.of_reads (.advance hrest)), ← Cursor.advance_crlf hs hrest]
    rfl
  fun_induction furtherNames names s with
  | case1 names s rest hrest n t hread ih =>
    obtain ⟨hdot, hname'⟩ := hname hs hrest
    rw [hread] at hname'
    rw [furtherNames_of_some hdot hname']
    refine ih ?_
    rcases name_outcome (s.advance ['.'] rest) with ⟨n', t', heq, hst, _⟩ | ⟨_, heq, _⟩
    · cases hread.symm.trans heq
      exact (hs.of_reads (.advance hrest)).of_reads hst
    · cases hread.symm.trans heq
  | case2 names s rest hrest t hread =>
    obtain ⟨hdot, hname'⟩ := hname hs hrest
    rw [hread] at hname'
    exact furtherNames_of_none hdot hname'
  | case3 names s hno =>
    refine furtherNames_of_ne fun rest hrest => ?_
    obtain ⟨rest', hrest'⟩ := Text.exists_cons_of_crlf_eq_cons (by decide) hrest
    exact hno rest' hrest'

theorem reference_crlf (hs : s.StandsIn source bound) :
    reference (s.crlf source) = (reference s).map id (Cursor.crlf source) := by
  rw [reference, reference, name_crlf hs]
  rcases name_outcome s with ⟨n, t, ht, hst, -⟩ | ⟨t, ht, -⟩
  · simp only [ht, Prod.map_apply, id_eq, furtherNames_crlf (hs.of_reads hst)]
    rfl
  · simp only [ht]
    rfl

theorem openTag_crlf (hs : s.StandsIn source bound) :
    openTag kind (s.crlf source) = (openTag kind s).map id (Cursor.crlf source) := by
  have hclose : IsOnOneLine [')', '$'] := by decide
  rw [openTag, openTag, eat_crlf hs (opening_isOnOneLine kind)]
  rcases eat_outcome kind.opening s with ⟨t, ht, hst⟩ | ⟨t, ht, -⟩
  · have ht' := hs.of_reads hst
    simp only [ht, Prod.map_apply, id_eq, reference_crlf ht']
    rcases reference_outcome t with ⟨r, u, hu, htu, -⟩ | ⟨u, hu, -⟩
    · simp only [hu, Prod.map_apply, id_eq, eat_crlf (ht'.of_reads htu) hclose]
      rcases eat [')', '$'] u with ⟨_ | _, v⟩ <;> rfl
    · simp only [hu]
      rfl
  · simp only [ht]
    rfl

theorem interpolation_crlf (hs : s.StandsIn source bound) :
    interpolation (s.crlf source) = (interpolation s).map id (Cursor.crlf source) := by
  have hdollar : IsOnOneLine ['$'] := by decide
  rw [interpolation, interpolation, eat_crlf hs hdollar]
  rcases eat_outcome ['$'] s with ⟨t, ht, hst⟩ | ⟨t, ht, -⟩
  · have ht' := hs.of_reads hst
    simp only [ht, Prod.map_apply, id_eq, reference_crlf ht']
    rcases reference_outcome t with ⟨r, u, hu, htu, -⟩ | ⟨u, hu, -⟩
    · simp only [hu, Prod.map_apply, id_eq, eat_crlf (ht'.of_reads htu) hdollar]
      split
      · rfl
      · rcases eat ['$'] u with ⟨_ | _, v⟩ <;> rfl
    · simp only [hu]
      rfl
  · simp only [ht]
    rfl

theorem literalRun_crlf (hs : s.StandsIn source bound) :
    literalRun (s.crlf source) =
      (literalRun s).map (Option.map crlfString) (Cursor.crlf source) := by
  have hclass : ('\r' != '$') = ('\n' != '$') := by decide
  have hcut := List.takeWhile_append_dropWhile (p := (· != '$')) (l := s.rest)
  have hadvance := Cursor.advance_crlf hs hcut.symm
  rw [literalRun, literalRun, Cursor.rest_crlf, Text.takeWhile_crlf (p := (· != '$')) hclass,
    Text.dropWhile_crlf (p := (· != '$')) hclass]
  cases hrun : s.rest.takeWhile (· != '$') with
  | nil => rfl
  | cons c cs =>
    obtain ⟨d, ds, hd⟩ := Text.exists_crlf_cons_eq c cs
    rw [hrun, hd] at hadvance
    simp only [hd, hadvance, Prod.map_apply, Option.map_some, Text.crlfString_ofList]

theorem leaf_crlf (hs : s.StandsIn source bound) :
    leaf (s.crlf source) = (leaf s).map (Option.map Node.crlf) (Cursor.crlf source) := by
  have hdollars : IsOnOneLine ['$', '$'] := by decide
  rw [leaf, leaf, interpolation_crlf hs]
  rcases interpolation_outcome s with ⟨r, t, ht, -⟩ | ⟨t, ht, hst, -⟩
  · simp only [ht]
    rfl
  · have ht' := hs.of_reads hst
    simp only [ht, Prod.map_apply, id_eq, eat_crlf ht' hdollars]
    rcases eat_outcome ['$', '$'] t with ⟨u, hu, -⟩ | ⟨u, hu, htu, -⟩
    · simp only [hu]
      rfl
    · simp only [hu, Prod.map_apply, id_eq, literalRun_crlf (ht'.of_reads htu)]
      rcases literalRun u with ⟨_ | text, v⟩ <;> rfl

/-! ### Blocks -/

/-- The two parts of a block in the other form. -/
def crlfParts : Parts → Parts
  | (first, second) => (Node.crlfAll first, second.map Node.crlfAll)

/-- What a reading gives, carried over to the other form of a source. -/
def crlfOutcome {α : Type} (source : List Char) (f : α → α) :
    Except TooDeep (α × Cursor) → Except TooDeep (α × Cursor)
  | .error e => .error ⟨crlfOffset source e.offset⟩
  | .ok (a, s) => .ok (f a, s.crlf source)

/-- A reader of branches does in the other form of a source what another one does in the source, if
less than a number of characters is left. -/
def PartReader.Mirrors (source : List Char) (bound : Nat) (inner' inner : PartReader) : Prop :=
  ∀ s, s.StandsIn source bound → inner' (s.crlf source) = crlfOutcome source Node.crlfAll (inner s)

variable {limit : Nat} {inner inner' : PartReader}

theorem parts_crlf (hsound : inner.Sound limit) (hinner : inner'.Mirrors source bound inner)
    (hs : s.StandsIn source bound) :
    parts inner' kind (s.crlf source) =
      crlfOutcome source (Option.map crlfParts) (parts inner kind s) := by
  rw [parts, parts, hinner s hs]
  cases hfirst : inner s with
  | error e => rfl
  | ok result =>
    obtain ⟨first, t⟩ := result
    obtain ⟨_, hst, -⟩ := hsound s first t hfirst
    have ht := hs.of_reads hst
    simp only [crlfOutcome, eat_crlf ht (middle_isOnOneLine kind)]
    rcases eat_outcome kind.middle t with ⟨u, hu, htu⟩ | ⟨u, hu, htu, -⟩
    · simp only [hu, Prod.map_apply, id_eq, hinner u (ht.of_reads htu)]
      cases hsecond : inner u with
      | error e => rfl
      | ok result =>
        obtain ⟨second, v⟩ := result
        obtain ⟨_, huv, -⟩ := hsound u second v hsecond
        have hv := (ht.of_reads htu).of_reads huv
        simp only [crlfOutcome, eat_crlf hv (closing_isOnOneLine kind)]
        rcases eat kind.closing v with ⟨_ | _, w⟩ <;> rfl
    · simp only [hu, Prod.map_apply, id_eq,
        eat_crlf (ht.of_reads htu) (closing_isOnOneLine kind)]
      rcases eat kind.closing u with ⟨_ | _, v⟩ <;> rfl

/-- Reading a terminator, or none, moves behind it. -/
theorem eatTerminator_reads (s : Cursor) : s.Reads (eatTerminator s).1 (eatTerminator s).2 :=
  .advance (Text.splitTerminator_append s.rest).symm

theorem contents_crlf (hsound : inner.Sound limit) (hinner : inner'.Mirrors source bound inner)
    (hs : s.StandsIn source bound) :
    contents inner' kind (s.crlf source) =
      crlfOutcome source (Option.map crlfParts) (contents inner kind s) := by
  have ht := hs.of_reads (eatTerminator_reads s)
  rw [contents, contents, eatTerminator_crlf hs]
  generalize eatTerminator s = opened at ht ⊢
  obtain ⟨_ | ⟨c, cs⟩, t⟩ := opened
  · exact parts_crlf hsound hinner ht
  · -- the terminator that was read is not empty in the other form, so both readers hold one back
    obtain ⟨d, ds, hd⟩ := Text.exists_crlf_cons_eq c cs
    simp only [Prod.map_apply, hd, parts_crlf hsound hinner ht]
    cases hparts : parts inner kind t with
    | error e => rfl
    | ok result =>
      obtain ⟨_ | ⟨first, second⟩, u⟩ := result
      · rfl
      · obtain ⟨_, htu, -⟩ := parts_sound hsound hparts
        simp only [crlfOutcome, Option.map_some, crlfParts, eatTerminator_crlf (ht.of_reads htu)]
        rcases eatTerminator u with ⟨_ | ⟨b, bs⟩, v⟩
        · simp only [Prod.map_apply, Text.crlf_nil, Option.map_some, crlfParts, Node.crlfAll_cons,
            Node.crlf, Text.crlfString_ofList, hd]
        · obtain ⟨e, es, he⟩ := Text.exists_crlf_cons_eq b bs
          simp only [Prod.map_apply, he, Option.map_some, crlfParts]

theorem block_crlf (hsound : inner.Sound limit) (hinner : inner'.Mirrors source bound inner)
    (hs : s.StandsIn source (bound + 1)) :
    block limit inner' kind (s.crlf source) =
      crlfOutcome source (Option.map Node.crlf) (block limit inner kind s) := by
  rw [block, block, openTag_crlf hs]
  rcases openTag_outcome kind s with ⟨r, t, ht, hst, -⟩ | ⟨t, ht, -⟩
  · have hne : kind.openTag r ≠ [] := by cases kind <;> exact List.cons_ne_nil _ _
    have hstands := hs.of_reads_of_ne_nil hst hne
    simp only [ht, Prod.map_apply, id_eq]
    change (if limit ≤ t.depth then _ else _) = _
    split
    · rfl
    · have hinside : Cursor.StandsIn source bound { t with depth := t.depth + 1 } :=
        ⟨hstands.place, hstands.noReturn, hstands.length⟩
      have hcontents : contents inner' kind { t.crlf source with depth := t.depth + 1 } = _ :=
        contents_crlf hsound hinner hinside
      simp only [Cursor.crlf] at hcontents ⊢
      rw [hcontents]
      rcases contents inner kind { t with depth := t.depth + 1 } with e | ⟨_ | ⟨first, second⟩, u⟩
      · rfl
      · rfl
      · simp only [crlfOutcome, Option.map_some, crlfParts, Node.crlf_block]
        rfl
  · simp only [ht]
    rfl

theorem element_crlf (hsound : inner.Sound limit) (hinner : inner'.Mirrors source bound inner)
    (hs : s.StandsIn source (bound + 1)) :
    element limit inner' (s.crlf source) =
      crlfOutcome source (Option.map Node.crlf) (element limit inner s) := by
  rw [element, element, block_crlf hsound hinner hs]
  cases hconditional : block limit inner .conditional s with
  | error e => rfl
  | ok result =>
    obtain ⟨_ | node, t⟩ := result
    · have ht := hs.of_reads (block_sound hsound hconditional)
      simp only [crlfOutcome, Option.map_none, block_crlf hsound hinner ht]
      cases hloop : block limit inner .loop t with
      | error e => rfl
      | ok result =>
        obtain ⟨_ | node, u⟩ := result
        · have hu := ht.of_reads (block_sound hsound hloop)
          simp only [Option.map_none]
          exact congrArg Except.ok (leaf_crlf hu)
        · rfl
    · rfl

/-- **A source and its other form are read in step**, if the reading of the other form has no fewer
steps. -/
theorem elements_crlf (source : List Char) (limit : Nat) {steps steps' : Nat}
    (hsteps : steps ≤ steps') :
    PartReader.Mirrors source steps (elements limit steps' []) (elements limit steps []) := by
  induction steps generalizing steps' with
  | zero => exact fun s hs => absurd hs.length (Nat.not_lt_zero _)
  | succ steps ih =>
    obtain ⟨steps', rfl⟩ : ∃ more, steps' = more + 1 := ⟨steps' - 1, by omega⟩
    have hinner := ih (Nat.le_of_succ_le_succ hsteps)
    intro s hs
    rw [elements_succ_eq, elements_succ_eq, element_crlf (elements_sound limit steps) hinner hs]
    cases helement : element limit (elements limit steps []) s with
    | error e => rfl
    | ok result =>
      obtain ⟨_ | node, t⟩ := result
      · rfl
      · -- an element takes a character at least, so that one step less is enough for the rest
        obtain ⟨text, hst, hderives, -⟩ := element_sound (elements_sound limit steps) helement
        simp only [crlfOutcome, Option.map_some,
          hinner t (hs.of_reads_of_ne_nil hst hderives.ne_nil)]
        rcases elements limit steps [] t with e | ⟨nodes, u⟩
        · rfl
        · simp only [Except.map, Node.crlfAll_cons]

end Parser

/-! ### Compiling -/

/-- Two errors have one cause on one line; what they show of the source may differ. -/
inductive TemplateError.Alike : TemplateError → TemplateError → Prop
  | unexpected (line : Nat) (excerpt excerpt' : String) :
      Alike (.unexpected line excerpt) (.unexpected line excerpt')
  | unexpectedEnd (line : Nat) : Alike (.unexpectedEnd line) (.unexpectedEnd line)
  | nestingTooDeep (line limit : Nat) :
      Alike (.nestingTooDeep line limit) (.nestingTooDeep line limit)

namespace Template

theorem failureAt_crlf (text : List Char) (offset : Nat) :
    (failureAt text offset).Alike (failureAt (Text.crlf text) (crlfOffset text offset)) := by
  rw [failureAt, failureAt, Text.splitAtOffset_crlf]
  rcases Text.splitAtOffset offset text with ⟨before, _ | ⟨c, after⟩⟩
  · simp only [Text.lineNumber_crlf, Text.crlf_nil, List.take_nil]
    exact .unexpectedEnd _
  · obtain ⟨d, after', hafter⟩ := Text.exists_crlf_cons_eq c after
    simp only [Text.lineNumber_crlf, hafter, excerptLength, List.take_succ_cons]
    exact .unexpected _ _ _

/-- **A source compiles in either form or in neither**, to templates that are each other's form, or
with errors of one cause on one line. -/
theorem compile_crlf {source : String} (h : '\r' ∉ source.toList) (limit : Nat) :
    (∀ t, compile source limit = .ok t → compile (crlfString source) limit = .ok t.crlf) ∧
      ∀ e, compile source limit = .error e →
        ∃ e', compile (crlfString source) limit = .error e' ∧ e.Alike e' := by
  have hread := Parser.elements_crlf source.toList limit
    (Nat.succ_le_succ (Text.length_le_length_crlf source.toList)) _ (Cursor.StandsIn.start h)
  rw [Cursor.start_crlf] at hread
  simp only [compile, Text.toList_crlfString]
  rw [hread]
  rcases Parser.elements limit (source.toList.length + 1) [] (Cursor.start source.toList) with
    e | ⟨nodes, s⟩
  · simp only [Parser.crlfOutcome, Text.splitAtOffset_crlf, Text.lineNumber_crlf]
    constructor
    · intro t ht
      cases ht
    · intro e' he
      cases he
      exact ⟨_, rfl, .nestingTooDeep _ _⟩
  · simp only [Parser.crlfOutcome, Cursor.rest_crlf]
    cases hrest : s.rest with
    | nil =>
      constructor
      · intro t ht
        cases ht
        rfl
      · intro e he
        cases he
    | cons c cs =>
      obtain ⟨d, ds, hd⟩ := Text.exists_crlf_cons_eq c cs
      simp only [hd]
      constructor
      · intro t ht
        cases ht
      · intro e he
        cases he
        exact ⟨_, rfl, failureAt_crlf _ _⟩

end Template

end DocTemplate
