import DocTemplate.Proofs.Template.Completion

/-!
# Where a source fails

A source that does not compile is reported at the furthest place at which something was missing. The
mark of that place is kept through everything that is tried and given up, so it may stem from a block
that turned out to be none, or from a variable that was an escaped dollar. It is a good place all the
same (`Template.compile_failure_located`): up to it the source can be completed to a template, and
what is missing there is missing from every template that begins in this way. There is one exception,
behind a dot of a reference that begins with a reserved word (`Grammar.EndsInReservedPath`).

What the readers keep is said by `Cursor.Tracks`: the cursor stands behind a front part of the
source, and the mark behind a front part that breaks off there (`Grammar.BreaksOff`). A reader begins
at a place where elements may stand. What it finds missing, it finds missing there or inside a tag
that begins there, so the mark stays what it was or becomes the place of a tag that breaks off. For
this it does not matter whether the reading comes to anything.
-/

namespace DocTemplate

open Text (Stops IsName IsTerminator BeginsWithTerminator isNameChar utf8Length)
open Grammar (Derives DerivesElement Place PartsPlace BreaksOff IsViable EndsInReservedPath)

/-! ### The mark -/

/-- Up to an offset a source is a text that breaks off. -/
def Grammar.BreaksOffAt (source : List Char) (offset : Nat) : Prop :=
  ∃ front, front <+: source ∧ offset = utf8Length front ∧ BreaksOff front

/-- A cursor stands behind a front part of a source, and its mark where the source breaks off. -/
structure Cursor.Tracks (source before : List Char) (s : Cursor) : Prop where
  text : source = before ++ s.rest
  pos : s.pos = utf8Length before
  mark : Grammar.BreaksOffAt source s.furthest

namespace Cursor.Tracks

variable {source before text : List Char} {s t : Cursor}

/-- Before anything is read, the mark is at the front of the source. -/
theorem start (source : List Char) : (Cursor.start source).Tracks source [] where
  text := rfl
  pos := rfl
  mark := ⟨[], List.nil_prefix, rfl, Or.inl (Place.start source).isViable⟩

/-- Behind a text that was read the cursor stands behind this text as well. -/
theorem of_reads (h : s.Tracks source before) (hst : s.Reads text t)
    (hmark : Grammar.BreaksOffAt source t.furthest) : t.Tracks source (before ++ text) where
  text := by rw [h.text, hst.rest, List.append_assoc]
  pos := by rw [hst.pos, h.pos, Text.utf8Length_append]
  mark := hmark

/-- Where nothing was read, the cursor stands where it stood. -/
theorem of_reads_nil (h : s.Tracks source before) (hst : s.Reads [] t)
    (hmark : Grammar.BreaksOffAt source t.furthest) : t.Tracks source before :=
  List.append_nil before ▸ h.of_reads hst hmark

/-- **What is missing where the source breaks off may be marked.** -/
theorem mark_miss (h : s.Tracks source before) (hbreak : BreaksOff before) :
    Grammar.BreaksOffAt source s.miss.furthest := by
  rcases Nat.le_total s.furthest s.pos with hle | hle
  · refine ⟨before, ⟨s.rest, h.text.symm⟩, ?_, hbreak⟩
    rw [Cursor.miss, Nat.max_eq_right hle, h.pos]
  · rw [Cursor.miss, Nat.max_eq_left hle]
    exact h.mark

end Cursor.Tracks

namespace Parser

variable {source before : List Char} {s t : Cursor} {kind : BlockKind}

/-! ### Readers without parts -/

theorem eat_mark {token : List Char} {found : Bool} (h : s.Tracks source before)
    (hbreak : BreaksOff before) (hread : eat token s = (found, t)) :
    Grammar.BreaksOffAt source t.furthest := by
  rw [eat] at hread
  split at hread
  · cases hread
    exact h.mark
  · cases hread
    exact h.mark_miss hbreak

theorem name_mark {name? : Option String} (h : s.Tracks source before)
    (hbreak : BreaksOff before) (hread : name s = (name?, t)) :
    Grammar.BreaksOffAt source t.furthest := by
  rw [name] at hread
  split at hread
  · cases hread
    exact h.mark_miss hbreak
  · cases hread
    exact h.mark

theorem furtherNames_mark (names : List String) (h : s.Tracks source before)
    (hdots : ∀ more, (∀ n ∈ more, IsName n) →
      BreaksOff (before ++ (Reference.dotted more ++ ['.']))) :
    Grammar.BreaksOffAt source (furtherNames names s).2.furthest := by
  -- behind a dot a name is read, or is missing
  have hdot : ∀ {before : List Char} {s : Cursor} {rest : List Char}, s.Tracks source before →
      s.rest = '.' :: rest → (s.advance ['.'] rest).Tracks source (before ++ ['.']) :=
    fun h hs => h.of_reads (.advance hs) h.mark
  fun_induction furtherNames names s generalizing before with
  | case1 names s rest hs n t hname ih =>
    have hbreak : BreaksOff (before ++ ['.']) := hdots [] (by simp)
    rcases name_outcome (s.advance ['.'] rest) with ⟨n', t', heq, hread, hn, -⟩ | ⟨_, heq, _⟩
    · cases hname.symm.trans heq
      refine ih ((hdot h hs).of_reads hread (name_mark (hdot h hs) hbreak hname)) ?_
      intro more hmore
      have hmore' : ∀ m ∈ n :: more, IsName m := fun m hm =>
        (List.mem_cons.mp hm).elim (fun heq => heq ▸ hn) (hmore m)
      simpa [Reference.dotted] using hdots (n :: more) hmore'
    · cases hname.symm.trans heq
  | case2 names s rest hs t hname =>
    have hmark := name_mark (hdot h hs) (hdots [] (by simp)) hname
    exact hmark
  | case3 names s hs => exact h.mark

theorem reference_mark {r? : Option Reference} (h : s.Tracks source before)
    (hbreak : BreaksOff before)
    (hdots : ∀ r : Reference, r.IsWritable → BreaksOff (before ++ (r.chars ++ ['.'])))
    (hread : reference s = (r?, t)) : Grammar.BreaksOffAt source t.furthest := by
  rw [reference] at hread
  rcases name_outcome s with ⟨n, u, hu, hsu, hn, -⟩ | ⟨u, hu, -⟩
  · simp only [hu] at hread
    cases hread
    refine furtherNames_mark [] (h.of_reads hsu (name_mark h hbreak hu)) fun more hmore => ?_
    have hdot := hdots ⟨n, more⟩ fun m hm => (List.mem_cons.mp hm).elim (fun h => h ▸ hn) (hmore m)
    rwa [Reference.chars_eq, List.append_assoc, ← List.append_assoc] at hdot
  · simp only [hu] at hread
    cases hread
    exact name_mark h hbreak hu

theorem openTag_mark {r? : Option Reference} (h : s.Tracks source before)
    (hplace : Place before s.rest) (hread : openTag kind s = (r?, t)) :
    Grammar.BreaksOffAt source t.furthest := by
  rw [openTag] at hread
  rcases eat_outcome kind.opening s with ⟨u, hu, hsu⟩ | ⟨u, hu, -⟩
  · have hu' := h.of_reads hsu (eat_mark h (Or.inl hplace.isViable) hu)
    have hdots : ∀ r : Reference, r.IsWritable →
        BreaksOff (before ++ kind.opening ++ (r.chars ++ ['.'])) := by
      intro r hr
      rw [List.append_assoc]
      exact hplace.breaksOff_opening_dot kind hr
    rcases reference_outcome u with ⟨r, v, hv, huv, hr, -⟩ | ⟨v, hv, -⟩
    · have hmark := reference_mark hu' (hplace.breaksOff_opening kind) hdots hv
      have hbreak : BreaksOff (before ++ kind.opening ++ r.chars) := by
        rw [List.append_assoc]
        exact hplace.breaksOff_opening_reference kind hr
      have hv' := hu'.of_reads huv hmark
      rcases hw : eat [')', '$'] v with ⟨_ | _, w⟩
      all_goals
        have hmark' := eat_mark hv' hbreak hw
        simp only [hu, hv, hw] at hread
        cases hread
        exact hmark'
    · have hmark := reference_mark hu' (hplace.breaksOff_opening kind) hdots hv
      simp only [hu, hv] at hread
      cases hread
      exact hmark
  · simp only [hu] at hread
    cases hread
    exact eat_mark h (Or.inl hplace.isViable) hu

theorem interpolation_mark {r? : Option Reference} (h : s.Tracks source before)
    (hplace : Place before s.rest) (hread : interpolation s = (r?, t)) :
    Grammar.BreaksOffAt source t.furthest := by
  rw [interpolation] at hread
  rcases eat_outcome ['$'] s with ⟨u, hu, hsu⟩ | ⟨u, hu, -⟩
  · have hu' := h.of_reads hsu (eat_mark h (Or.inl hplace.isViable) hu)
    have hdots : ∀ r : Reference, r.IsWritable →
        BreaksOff (before ++ ['$'] ++ (r.chars ++ ['.'])) := by
      intro r hr
      rw [List.append_assoc]
      exact hplace.breaksOff_dollar_dot hr
    rcases reference_outcome u with ⟨r, v, hv, huv, hr, -⟩ | ⟨v, hv, -⟩
    · have hmark := reference_mark hu' hplace.breaksOff_dollar hdots hv
      have hv' := hu'.of_reads huv hmark
      cases hreserved : r.isReserved with
      | true =>
        -- the reference is given up without a look at what follows it
        simp only [hu, hv, hreserved, if_true] at hread
        cases hread
        exact hmark
      | false =>
        have hbreak : BreaksOff (before ++ ['$'] ++ r.chars) := by
          rw [List.append_assoc]
          exact hplace.breaksOff_dollar_reference hr hreserved
        rcases hw : eat ['$'] v with ⟨_ | _, w⟩
        all_goals
          have hmark' := eat_mark hv' hbreak hw
          simp only [hu, hv, hreserved, hw] at hread
          cases hread
          exact hmark'
    · have hmark := reference_mark hu' hplace.breaksOff_dollar hdots hv
      simp only [hu, hv] at hread
      cases hread
      exact hmark
  · simp only [hu] at hread
    cases hread
    exact eat_mark h (Or.inl hplace.isViable) hu

/-- Where plain text is read nothing is found missing. -/
theorem literalRun_furthest {text? : Option String} (hread : literalRun s = (text?, t)) :
    t.furthest = s.furthest := by
  rw [literalRun] at hread
  split at hread
  all_goals
    cases hread
    rfl

theorem leaf_mark {node? : Option Node} (h : s.Tracks source before)
    (hplace : Place before s.rest) (hread : leaf s = (node?, t)) :
    Grammar.BreaksOffAt source t.furthest := by
  rw [leaf] at hread
  rcases interpolation_outcome s with ⟨r, u, hu, -⟩ | ⟨u, hu, hsu, -⟩
  · simp only [hu] at hread
    cases hread
    exact interpolation_mark h hplace hu
  · have hu' := h.of_reads_nil hsu (interpolation_mark h hplace hu)
    have hbreak : BreaksOff before := Or.inl hplace.isViable
    rcases eat_outcome ['$', '$'] u with ⟨v, hv, -⟩ | ⟨v, hv, -⟩
    · simp only [hu, hv] at hread
      cases hread
      exact eat_mark hu' hbreak hv
    · have hv' := eat_mark hu' hbreak hv
      rcases hw : literalRun v with ⟨_ | text, w⟩
      all_goals
        simp only [hu, hv, hw] at hread
        cases hread
        exact literalRun_furthest hw ▸ hv'

/-! ### Blocks -/

/-- At a place, a reader of branches marks a place where the source breaks off. -/
def PartReader.KeepsMark (inner : PartReader) : Prop :=
  ∀ source before s, s.Tracks source before → Place before s.rest →
    ∀ nodes t, inner s = .ok (nodes, t) → Grammar.BreaksOffAt source t.furthest

variable {limit : Nat} {inner : PartReader}

theorem parts_mark (hsound : inner.Sound limit) (hinner : inner.KeepsMark) {parts? : Option Parts}
    (h : s.Tracks source before) (hplace : PartsPlace kind before)
    (hread : parts inner kind s = .ok (parts?, t)) : Grammar.BreaksOffAt source t.furthest := by
  have hfront := hplace.first s.rest
  rw [parts] at hread
  split at hread
  next => cases hread
  next first u hfirst =>
    obtain ⟨text, hsu, hderives, -⟩ := hsound s first u hfirst
    have hu := h.of_reads hsu (hinner source before s h hfront first u hfirst)
    have hbreak : BreaksOff (before ++ text) :=
      Or.inl ((hsu.rest ▸ hfront).isViable_of_derives hderives)
    rcases eat_outcome kind.middle u with ⟨v, hv, huv⟩ | ⟨v, hv, huv, -⟩
    · have hv' := hu.of_reads huv (eat_mark hu hbreak hv)
      rw [List.append_assoc] at hv'
      have hsecond := hplace.second hderives v.rest
      simp only [hv] at hread
      split at hread
      next => cases hread
      next second w hread' =>
        obtain ⟨other, hvw, hderives', -⟩ := hsound v second w hread'
        have hw := hv'.of_reads hvw (hinner source _ v hv' hsecond second w hread')
        have hbreak' : BreaksOff (before ++ (text ++ kind.middle) ++ other) :=
          Or.inl ((hvw.rest ▸ hsecond).isViable_of_derives hderives')
        rcases hx : eat kind.closing w with ⟨_ | _, x⟩
        all_goals
          simp only [hx] at hread
          cases hread
          exact eat_mark hw hbreak' hx
    · have hv' := hu.of_reads_nil huv (eat_mark hu hbreak hv)
      simp only [hv] at hread
      rcases hw : eat kind.closing v with ⟨_ | _, w⟩
      all_goals
        simp only [hw] at hread
        cases hread
        exact eat_mark hv' hbreak hw

/-- Nor is a line terminator that is not there. -/
theorem eatTerminator_mark {terminator : List Char} (h : s.Tracks source before)
    (hread : eatTerminator s = (terminator, t)) : Grammar.BreaksOffAt source t.furthest := by
  rw [eatTerminator] at hread
  cases hread
  exact h.mark

theorem contents_mark (hsound : inner.Sound limit) (hinner : inner.KeepsMark)
    {parts? : Option Parts} (h : s.Tracks source before) (hplace : PartsPlace kind before)
    (hread : contents inner kind s = .ok (parts?, t)) : Grammar.BreaksOffAt source t.furthest := by
  rw [contents] at hread
  by_cases hopened : BeginsWithTerminator s.rest
  · obtain ⟨opened, hterm, rest, hrest⟩ := hopened
    obtain ⟨u, hu, hsu⟩ := eatTerminator_of_isTerminator hrest.symm hterm
    have hu' := h.of_reads hsu (eatTerminator_mark h hu)
    have hplace' := hplace.terminator hterm
    obtain ⟨c, cs, rfl⟩ := List.exists_cons_of_ne_nil hterm.ne_nil
    simp only [hu] at hread
    split at hread
    next => cases hread
    next v hparts =>
      cases hread
      exact parts_mark hsound hinner hu' hplace' hparts
    next first second v hparts =>
      obtain ⟨text, huv, -⟩ := parts_sound hsound hparts
      have hv := hu'.of_reads huv (parts_mark hsound hinner hu' hplace' hparts)
      split at hread
      next w hw =>
        cases hread
        exact hv.mark
      next w hw =>
        cases hread
        exact eatTerminator_mark hv hw
  · obtain ⟨u, hu, hsu⟩ := eatTerminator_of_not_beginsWithTerminator hopened
    simp only [hu] at hread
    exact parts_mark hsound hinner (h.of_reads_nil hsu (eatTerminator_mark h hu)) hplace hread

theorem block_mark (hsound : inner.Sound limit) (hinner : inner.KeepsMark) {node? : Option Node}
    (h : s.Tracks source before) (hplace : Place before s.rest)
    (hread : block limit inner kind s = .ok (node?, t)) :
    Grammar.BreaksOffAt source t.furthest := by
  rw [block] at hread
  rcases openTag_outcome kind s with ⟨r, u, hu, hsu, hr⟩ | ⟨u, hu, -⟩
  · have hu' := h.of_reads hsu (openTag_mark h hplace hu)
    have hinside : Cursor.Tracks source (before ++ kind.openTag r)
        { u with depth := u.depth + 1 } := ⟨hu'.text, hu'.pos, hu'.mark⟩
    simp only [hu] at hread
    split at hread
    next => cases hread
    next =>
      split at hread
      next => cases hread
      next first second v hcontents =>
        have hmark := contents_mark hsound hinner hinside (hplace.parts hr) hcontents
        cases hread
        exact hmark
      next v hcontents =>
        have hmark := contents_mark hsound hinner hinside (hplace.parts hr) hcontents
        cases hread
        exact hmark
  · simp only [hu] at hread
    cases hread
    exact openTag_mark h hplace hu

theorem element_mark (hsound : inner.Sound limit) (hinner : inner.KeepsMark)
    {node? : Option Node} (h : s.Tracks source before) (hplace : Place before s.rest)
    (hread : element limit inner s = .ok (node?, t)) : Grammar.BreaksOffAt source t.furthest := by
  rw [element] at hread
  split at hread
  next => cases hread
  next node u hblock =>
    cases hread
    exact block_mark hsound hinner h hplace hblock
  next u hblock =>
    have hsu : s.Reads [] u := block_sound hsound hblock
    have hu := h.of_reads_nil hsu (block_mark hsound hinner h hplace hblock)
    rw [← hsu.rest_of_nil] at hplace
    split at hread
    next => cases hread
    next node v hblock' =>
      cases hread
      exact block_mark hsound hinner hu hplace hblock'
    next v hblock' =>
      have huv : u.Reads [] v := block_sound hsound hblock'
      have hv := hu.of_reads_nil huv (block_mark hsound hinner hu hplace hblock')
      rw [← huv.rest_of_nil] at hplace
      exact leaf_mark hv hplace (Except.ok.inj hread)

/-- **What is found missing anywhere in a source is missing where the source breaks off.** -/
theorem elements_mark (limit steps : Nat) : PartReader.KeepsMark (elements limit steps []) := by
  induction steps with
  | zero =>
    intro source before s h _ nodes t hread
    cases hread
    exact h.mark
  | succ steps ih =>
    intro source before s h hplace nodes t hread
    have hsound := elements_sound limit steps
    rw [elements_succ_eq] at hread
    split at hread
    next => cases hread
    next u helement =>
      cases hread
      exact element_mark hsound ih h hplace helement
    next node u helement =>
      obtain ⟨text, hsu, hderives, -⟩ := element_sound hsound helement
      have hu := h.of_reads hsu (element_mark hsound ih h hplace helement)
      have hplace' := (hsu.rest ▸ hplace).element hderives
      cases hrest : elements limit steps [] u with
      | error e =>
        rw [hrest] at hread
        cases hread
      | ok result =>
        rw [hrest] at hread
        cases hread
        exact ih source _ u hu hplace' result.1 result.2 hrest

/-! ### Where a reading ends -/

/-- Where no leaf stands, the source is at its end or a dollar is there, and the mark is not before
this place. -/
theorem leaf_none (hread : leaf s = (none, t)) : Stops (· != '$') t.rest ∧ t.pos ≤ t.furthest := by
  rw [leaf] at hread
  rcases interpolation_outcome s with ⟨r, u, hu, -⟩ | ⟨u, hu, -⟩
  · simp only [hu] at hread
    cases hread
  · rcases eat_outcome ['$', '$'] u with ⟨v, hv, -⟩ | ⟨v, hv, -⟩
    · simp only [hu, hv] at hread
      cases hread
    · rcases literalRun_outcome v with ⟨run, w, hw, -⟩ | ⟨hw, hstops⟩
      · simp only [hu, hv, hw] at hread
        cases hread
      · simp only [hu, hv, hw] at hread
        cases hread
        refine ⟨hstops, ?_⟩
        rw [eat] at hv
        split at hv
        · cases hv
        · cases hv
          exact Nat.le_max_right _ _

theorem element_none (hread : element limit inner s = .ok (none, t)) :
    Stops (· != '$') t.rest ∧ t.pos ≤ t.furthest := by
  rw [element] at hread
  split at hread
  next => cases hread
  next => cases hread
  next u _ =>
    split at hread
    next => cases hread
    next => cases hread
    next v _ => exact leaf_none (Except.ok.inj hread)

/-- **A reading ends where no element stands**, if it has more steps than there are characters. -/
theorem elements_end (limit : Nat) {steps : Nat} {nodes : List Node} (hsteps : s.rest.length < steps)
    (hread : elements limit steps [] s = .ok (nodes, t)) :
    Stops (· != '$') t.rest ∧ t.pos ≤ t.furthest := by
  induction steps generalizing s nodes with
  | zero => exact absurd hsteps (Nat.not_lt_zero _)
  | succ steps ih =>
    rw [elements_succ_eq] at hread
    split at hread
    next => cases hread
    next u helement =>
      cases hread
      exact element_none helement
    next node u helement =>
      obtain ⟨text, hsu, hderives, -⟩ := element_sound (elements_sound limit steps) helement
      have hpos : 0 < text.length := List.length_pos_iff.mpr hderives.ne_nil
      rw [hsu.rest, List.length_append] at hsteps
      cases hrest : elements limit steps [] u with
      | error e =>
        rw [hrest] at hread
        cases hread
      | ok result =>
        rw [hrest] at hread
        cases hread
        exact ih (by omega) hrest

end Parser

/-! ### Failures -/

namespace Template

/-- What is told of a source that does not compile: behind `front` no element stands, and what is
missing is missing behind `before`, in front of `after`. -/
structure FailsAt (source : String) (limit : Nat) (e : TemplateError)
    (front before after : List Char) : Prop where
  /-- The place at which something is missing is the furthest one. -/
  mark : ∃ nodes s, Parser.elements limit (source.toList.length + 1) []
      (Cursor.start source.toList) = .ok (nodes, s) ∧ s.furthest = utf8Length before
  /-- It is a place of the source. -/
  place : source.toList = before ++ after
  /-- It does not lie before the place where no element stands. -/
  front_le : front <+: before
  /-- There a dollar stands. -/
  dollar : ∃ rest, source.toList = front ++ '$' :: rest
  /-- What stands before it is a template. -/
  compiles : ∃ t, compile (String.ofList front) limit = .ok t
  /-- The error tells the line of what is missing, and what stands there instead. -/
  error : e =
    if after = [] then .unexpectedEnd (Text.lineNumber before)
    else .unexpected (Text.lineNumber before) (String.ofList (after.take 40))
  /-- Up to what is missing the source can be completed, unless a reserved word prevents it. -/
  completion : EndsInReservedPath before ∨
    ∃ suffix limit' t, compile (String.ofList before ++ suffix) limit' = .ok t

/-- A text is viable exactly if it can be completed to a source that compiles. -/
theorem isViable_iff {text : List Char} :
    IsViable text ↔
      ∃ suffix limit t, compile (String.ofList text ++ suffix) limit = .ok t := by
  constructor
  · rintro ⟨suffix, nodes, hderives⟩
    refine ⟨String.ofList suffix, Node.depthAll nodes, ⟨nodes⟩, compile_eq_ok_iff.mpr ⟨?_, ?_⟩⟩
    · rwa [String.toList_append, String.toList_ofList, String.toList_ofList]
    · exact Nat.le_refl _
  · rintro ⟨suffix, limit, t, hcompile⟩
    have hderives := (compile_eq_ok_iff.mp hcompile).1
    rw [String.toList_append, String.toList_ofList] at hderives
    exact ⟨suffix.toList, t.nodes, hderives⟩

theorem failureAt_utf8Length (before after : List Char) :
    failureAt (before ++ after) (utf8Length before) =
      if after = [] then .unexpectedEnd (Text.lineNumber before)
      else .unexpected (Text.lineNumber before) (String.ofList (after.take 40)) := by
  rw [failureAt, Text.splitAtOffset_length_append]
  cases after with
  | nil => rfl
  | cons c after => rfl

/-- **Failures point at the right place.** -/
theorem compile_failure_located {source : String} {limit : Nat} {e : TemplateError}
    (h : compile source limit = .error e) (he : ∀ line n, e ≠ .nestingTooDeep line n) :
    ∃ front before after, FailsAt source limit e front before after := by
  rw [compile] at h
  split at h
  next =>
    cases h
    exact absurd rfl (he _ _)
  next nodes s hread =>
    split at h
    next => cases h
    next c rest hrest =>
      cases h
      -- what is read derives its nodes, whatever follows
      obtain ⟨front, hst, hderives, hdepth⟩ := Parser.elements_sound _ _ _ _ _ hread
      obtain ⟨hstops, hle⟩ := Parser.elements_end limit (Nat.lt_succ_self _) hread
      obtain ⟨before, ⟨after, hafter⟩, hfurthest, hbreak⟩ := Parser.elements_mark _ _ _ _ _
        (Cursor.Tracks.start source.toList) (Place.start _) _ _ hread
      have hsource : source.toList = front ++ s.rest := hst.rest
      have hpos : s.pos = utf8Length front := hst.pos.trans (Nat.zero_add _)
      refine ⟨front, before, after, ⟨nodes, s, hread, hfurthest⟩, hafter.symm, ?_, ?_, ?_, ?_, ?_⟩
      · rw [hpos, hfurthest] at hle
        exact Text.prefix_of_utf8Length_le ⟨s.rest, hsource.symm⟩ ⟨after, hafter⟩ hle
      · rw [hrest] at hsource hstops
        obtain rfl : c = '$' := by simpa [Stops] using hstops
        exact ⟨rest, hsource⟩
      · refine ⟨⟨nodes⟩, compile_eq_ok_iff.mpr ⟨?_, ?_⟩⟩
        · rwa [String.toList_ofList]
        · simpa [Cursor.start, depth] using hdepth
      · rw [hfurthest, ← hafter, failureAt_utf8Length]
      · exact hbreak.symm.imp_right isViable_iff.mp

/-- Behind a block, a loop whose tag breaks off behind a dot of its reference. -/
theorem compile_failure_located_dot :
    compile "$if(x)$\nb$endif$\n$for(y.$" 1 = .error (.unexpected 3 "$") ∧
      (∀ line n, TemplateError.unexpected 3 "$" ≠ .nestingTooDeep line n) ∧
      ∃ front before after, FailsAt "$if(x)$\nb$endif$\n$for(y.$" 1 (.unexpected 3 "$")
        front before after := by
  have h : compile "$if(x)$\nb$endif$\n$for(y.$" 1 = .error (.unexpected 3 "$") := by
    with_unfolding_all rfl
  have he : ∀ line n, TemplateError.unexpected 3 "$" ≠ .nestingTooDeep line n := nofun
  exact ⟨h, he, compile_failure_located h he⟩

end Template

end DocTemplate
