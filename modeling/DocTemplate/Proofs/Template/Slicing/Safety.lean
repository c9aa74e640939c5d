import DocTemplate.Proofs.Template.Slicing.Record

/-!
# No slice fails, and what is given up is undone

A reading by offsets goes step by step with the reading by cursors (`Slicing.Follows`). From the state
where a cursor in the source stands it comes, by the same reader, to the state where that cursor comes
to, with the same result and with a sound record, or it is refused at the same block. To follow is kept
when one reading is put behind another (`Slicing.Follows.bind`), so each reader by offsets follows its
namesake by one walk along its definition.

The offsets are wrong on the way. A reader that gives up passes through states where part of what it has
read is still passed, and the parts of a block return in such a state. There the cursor, too, stands
behind what was read, and `Cursor.rewind` takes it back where the reading assigns an offset
(`Slicing.Follows.goTo`). That the assigned offset is a boundary is known from the cursor at which the
reader began. Where bytes are counted, a text of so many bytes has been found at the cursor
(`Slicing.Follows.advance`).

The readers by cursors are known not to fail, and to leave what they do not read. Hence all slices are
there, and what has been tried is undone (`Template.attempts_undone`).
-/

namespace DocTemplate

open Text (utf8Length isNameChar lineNumber slice? IsBoundary)

namespace Slicing

/-! ### Readings that follow cursors -/

variable {source : String} {limit : Nat} {α β : Type}

theorem run_bind (x : Reading α) (f : α → Reading β) (source : String) (h : History) :
    (x >>= f) source h =
      match x source h with
      | .ok a h' => f a source h'
      | .error reason h' => .error reason h' := by
  change EStateM.bind (x source) (fun a => f a source) h = _
  rw [EStateM.bind]
  cases x source h <;> rfl

theorem slice_eq {text part : String} {start stop : Nat} (h : slice? text start stop = some part) :
    slice text start stop = pure part := by
  rw [slice, h]

/-- The error for a block that is one too many in a source. -/
def refusal (source : String) (limit : Nat) (e : TooDeep) : Abort :=
  .refused (.nestingTooDeep (lineNumber (Text.splitAtOffset e.offset source.toList).1) limit)

/-- A reading by offsets ends as one by cursors: with the same result in the state where the cursor
stands, or refused at the same block. -/
inductive Ends (source : String) (limit : Nat) :
    EStateM.Result Abort History α → Except TooDeep (α × Cursor) → Prop
  | read {h : History} (r : α × Cursor) (hsound : h.IsSound source limit)
      (hnow : h.now = r.2.offsets) (hin : r.2.IsIn source) : Ends source limit (.ok r.1 h) (.ok r)
  | refused {h : History} (e : TooDeep) (hsound : h.IsSound source limit) :
      Ends source limit (.error (refusal source limit e) h) (.error e)

/-- From the state where a cursor in a source stands, a reading by offsets ends as one by cursors. -/
def Follows (source : String) (limit : Nat) (s : Cursor) (x : Reading α)
    (y : Except TooDeep (α × Cursor)) : Prop :=
  s.IsIn source → ∀ h : History, h.IsSound source limit → h.now = s.offsets →
    Ends source limit (x source h) y

namespace Follows

variable {s t : Cursor} {x : Reading α} {f : α → Reading β} {r : α × Cursor}
  {y : Except TooDeep (α × Cursor)} {z : Except TooDeep (β × Cursor)}

/-- That the cursor stands in the source may be used. -/
theorem of_isIn (h : s.IsIn source → Follows source limit s x y) : Follows source limit s x y :=
  fun hin => h hin hin

theorem pure (a : α) (s : Cursor) : Follows source limit s (pure a) (.ok (a, s)) :=
  fun hin _ hsound hnow => .read (a, s) hsound hnow hin

/-- **Two readings in a row.** -/
theorem bind (hx : Follows source limit s x (.ok r)) (hf : Follows source limit r.2 (f r.1) z) :
    Follows source limit s (x >>= f) z := by
  intro hin h hsound hnow
  have hends := hx hin h hsound hnow
  rw [run_bind]
  generalize x source h = result at hends
  cases hends with
  | read _ hsound' hnow' hin' => exact hf hin' _ hsound' hnow'

/-- A reading that is refused goes no further. -/
theorem bind_error {e : TooDeep} (hx : Follows source limit s x (.error e)) (f : α → Reading β) :
    Follows source limit s (x >>= f) (.error e) := by
  intro hin h hsound hnow
  have hends := hx hin h hsound hnow
  rw [run_bind]
  generalize x source h = result at hends
  cases hends with
  | refused _ hsound' => exact .refused e hsound'

/-! ### Steps -/

theorem text (s : Cursor) : Follows source limit s Slicing.source (.ok (source, s)) :=
  fun hin _ hsound hnow => .read (source, s) hsound hnow hin

theorem here (s : Cursor) : Follows source limit s Slicing.here (.ok (s.offsets, s)) := by
  intro hin h hsound hnow
  rw [← hnow]
  exact .read (h.now, s) hsound hnow hin

theorem move {change : Offsets → Offsets} (hchange : change s.offsets = t.offsets)
    (hin : t.IsIn source) (hle : s.furthest ≤ t.furthest) :
    Follows source limit s (Slicing.move change) (.ok ((), t)) := by
  intro _ h hsound hnow
  have hmoved : (h.move change).now = t.offsets := by
    rw [← hchange, ← hnow]
    rfl
  refine .read ((), t) (hsound.move ?_ ?_ ?_) hmoved hin
  all_goals rw [hnow, hchange]
  · exact hin.pos
  · exact hin.furthest
  · exact hle

/-- Passing over the bytes of a text that stands there. -/
theorem advance {text rest : List Char} {bytes : Nat} (hs : s.rest = text ++ rest)
    (hbytes : utf8Length text = bytes) :
    Follows source limit s (Slicing.advance bytes) (.ok ((), s.advance text rest)) :=
  of_isIn fun hin => .move (hbytes ▸ rfl) (hin.of_reads (.advance hs) hin.furthest) (Nat.le_refl _)

theorem miss (s : Cursor) : Follows source limit s Slicing.miss (.ok ((), s.miss)) :=
  of_isIn fun hin => .move rfl hin.miss (Nat.le_max_left _ _)

/-- Going back to the place of another cursor. -/
theorem goTo {s : Cursor} (hs : s.IsIn source) (t : Cursor) :
    Follows source limit t (Slicing.goTo s.pos) (.ok ((), t.rewind s)) :=
  of_isIn fun hin => .move rfl (hs.rewind hin) (Nat.le_refl _)

/-- A slice that there is. -/
theorem slice {text part : String} {start stop : Nat} (h : slice? text start stop = some part)
    (s : Cursor) : Follows source limit s (Slicing.slice text start stop) (.ok (part, s)) := by
  rw [slice_eq h]
  exact .pure part s

/-- **The text that is left is that of the cursor.** -/
theorem rest (s : Cursor) :
    Follows source limit s Slicing.rest (.ok (String.ofList s.rest, s)) :=
  of_isIn fun hin => .bind (.text s) (.bind (.here s) (.slice hin.slice?_pos s))

/-- A block that is one too many is refused. -/
theorem refuse (e : TooDeep) (s : Cursor) :
    Follows source limit s (abort (α := α) (refusal source limit e)) (.error e) :=
  fun _ _ hsound _ => .refused e hsound

/-- Trying a reader is reading with it, if this is how the reader returns. -/
theorem call (steps : Nat) {attempt : Attempt} {x : Reading (Option α)}
    {y : Except TooDeep (Option α × Cursor)} (hx : Follows source limit s x y)
    (hresult : attempt.result limit steps s = y.map (Prod.map Option.isSome id)) :
    Follows source limit s (Slicing.call attempt x) y := by
  refine of_isIn fun hs => .bind (.here s) ?_
  rcases y with e | ⟨result?, t⟩
  · exact hx.bind_error _
  · refine .bind hx fun hin h hsound hnow => ?_
    exact .read (result?, t) (hsound.note hs hresult hnow) hnow hin

end Follows

/-! ### The readers -/

theorem eat_follows (token : List Char) (s : Cursor) :
    Follows source limit s (eat token) (.ok (Parser.eat token s)) := by
  refine .bind (.rest s) ?_
  rw [String.toList_ofList, Parser.eat]
  cases htoken : Parser.afterToken? token s.rest with
  | some rest =>
    have hs : s.rest = token ++ rest := Parser.append_of_afterToken? htoken
    rw [if_pos ⟨rest, hs.symm⟩]
    exact .bind (.advance hs rfl) (.pure true _)
  | none =>
    have hno : ¬token <+: s.rest := by
      rintro ⟨rest, hrest⟩
      rw [← hrest, Parser.afterToken?_append] at htoken
      cases htoken
    rw [if_neg hno]
    exact .bind (.miss s) (.pure false _)

/-- The bytes of a line terminator are counted rightly. -/
theorem eatTerminator_follows (s : Cursor) :
    Follows source limit s eatTerminator
      (.ok (!(Parser.eatTerminator s).1.isEmpty, (Parser.eatTerminator s).2)) := by
  refine .bind (.rest s) ?_
  rw [Parser.eatTerminator, String.toList_ofList]
  generalize hs : s.rest = text
  fun_cases Text.splitTerminator text with
  | case1 rest =>
    rw [if_pos ⟨rest, rfl⟩]
    exact .bind (.advance hs rfl) (.pure true _)
  | case2 rest =>
    have hnotPair : ¬['\r', '\n'] <+: '\n' :: rest := by
      rintro ⟨rest', hrest⟩
      cases hrest
    rw [if_neg hnotPair, if_pos ⟨rest, rfl⟩]
    exact .bind (.advance hs rfl) (.pure true _)
  | case3 _ hpair hsingle =>
    have hnotPair : ¬['\r', '\n'] <+: text := by
      rintro ⟨rest', hrest⟩
      exact hpair rest' hrest.symm
    have hnotSingle : ¬['\n'] <+: text := by
      rintro ⟨rest', hrest⟩
      exact hsingle rest' hrest.symm
    rw [if_neg hnotPair, if_neg hnotSingle]
    subst hs
    exact .pure false s

/-- The slice of a text up to where a run of characters ends is that run. -/
theorem slice?_takeWhile (p : Char → Bool) (text : List Char) :
    slice? (String.ofList text) 0 (utf8Length (text.takeWhile p)) =
      some (String.ofList (text.takeWhile p)) := by
  have hcut : (String.ofList text).toList = text.takeWhile p ++ text.dropWhile p := by
    rw [String.toList_ofList, List.takeWhile_append_dropWhile]
  exact Text.slice?_zero hcut

/-- A run of characters that stands there is passed over and cut out of the text that is left. -/
theorem run_follows (p : Char → Bool) {s : Cursor} {c : Char} {cs : List Char}
    (hrun : s.rest.takeWhile p = c :: cs) :
    Follows source limit s
      (do
        advance (utf8Length (c :: cs))
        return some (← slice (String.ofList s.rest) 0 (utf8Length (c :: cs))))
      (.ok (some (String.ofList (c :: cs)), s.advance (c :: cs) (s.rest.dropWhile p))) := by
  have hslice := slice?_takeWhile p s.rest
  have hcut := List.takeWhile_append_dropWhile (p := p) (l := s.rest)
  rw [hrun] at hslice hcut
  exact .bind (.advance hcut.symm rfl) (.bind (.slice hslice _) (.pure _ _))

theorem name_follows (s : Cursor) : Follows source limit s name (.ok (Parser.name s)) := by
  refine .call 0 (.bind (.rest s) ?_) rfl
  rw [Parser.name, String.toList_ofList]
  cases hrun : s.rest.takeWhile isNameChar with
  | nil => exact .bind (.miss s) (.pure none _)
  | cons c cs =>
    rw [if_neg (Text.utf8Length_pos (List.cons_ne_nil c cs)).ne']
    exact run_follows isNameChar hrun

theorem literalRun_follows (s : Cursor) :
    Follows source limit s literalRun (.ok (Parser.literalRun s)) := by
  refine .call 0 (.bind (.rest s) ?_) rfl
  rw [Parser.literalRun, String.toList_ofList]
  cases hrun : s.rest.takeWhile (· != '$') with
  | nil => exact .pure none s
  | cons c cs =>
    rw [if_neg (Text.utf8Length_pos (List.cons_ne_nil c cs)).ne']
    exact run_follows (· != '$') hrun

/-- With as many steps as there are characters left, names are read as far as they go. -/
theorem furtherNames_follows {steps : Nat} (names : List String) {s : Cursor}
    (hsteps : s.rest.length ≤ steps) :
    Follows source limit s (furtherNames steps names) (.ok (Parser.furtherNames names s)) := by
  induction steps generalizing names s with
  | zero =>
    have hnil : s.rest = [] := List.length_eq_zero_iff.mp (Nat.le_zero.mp hsteps)
    rw [Parser.furtherNames_of_ne (by simp [hnil])]
    exact .pure _ s
  | succ steps ih =>
    refine .of_isIn fun hin => .bind (.rest s) ?_
    rw [String.toList_ofList]
    by_cases hdot : ['.'] <+: s.rest
    · rw [if_pos hdot]
      obtain ⟨rest, hrest⟩ := hdot
      -- Where no name stands behind the dot, the cursor of before the dot is the one to go back to.
      have hs : s.rest = '.' :: rest := hrest.symm
      refine .bind (.here s) (.bind (.advance hrest.symm rfl) (.bind (name_follows _) ?_))
      rcases hname : Parser.name (s.advance ['.'] rest) with ⟨_ | n, t⟩
      · rw [Parser.furtherNames_of_none hs hname]
        exact .bind (.goTo hin t) (.pure _ _)
      · rw [Parser.furtherNames_of_some hs hname]
        have hlength : t.rest.length < rest.length := Parser.length_rest_name_lt hname
        rw [hs, List.length_cons] at hsteps
        exact ih (n :: names) (show t.rest.length ≤ steps by omega)
    · rw [if_neg hdot, Parser.furtherNames_of_ne fun rest hrest => hdot ⟨rest, hrest.symm⟩]
      exact .pure _ s

theorem reference_follows (s : Cursor) :
    Follows source limit s reference (.ok (Parser.reference s)) := by
  refine .call 0 (.of_isIn fun hs => .bind (name_follows s) ?_) rfl
  rw [Parser.reference]
  rcases hname : Parser.name s with ⟨_ | first, t⟩
  · exact .pure none t
  · refine .of_isIn fun ht => .bind (.text t) ?_
    have hlength : t.rest.length ≤ source.length := by
      obtain ⟨before, hsource, -⟩ := ht.rest
      rw [← String.length_toList, hsource, List.length_append]
      exact Nat.le_add_left _ _
    exact .bind (furtherNames_follows [] hlength) (.pure _ _)

theorem openTag_follows (kind : BlockKind) (s : Cursor) :
    Follows source limit s (openTag kind) (.ok (Parser.openTag kind s)) := by
  refine .call 0 (.of_isIn fun hs => .bind (.here s) (.bind (eat_follows kind.opening s) ?_)) rfl
  rw [Parser.openTag]
  rcases Parser.eat kind.opening s with ⟨_ | _, t⟩
  · exact .pure none t
  dsimp only
  refine .bind (reference_follows t) ?_
  rcases Parser.reference t with ⟨_ | r, u⟩
  · exact .bind (.goTo hs u) (.pure none _)
  dsimp only
  refine .bind (eat_follows [')', '$'] u) ?_
  rcases Parser.eat [')', '$'] u with ⟨_ | _, v⟩
  · exact .bind (.goTo hs v) (.pure none _)
  · exact .pure (some r) v

theorem interpolation_follows (s : Cursor) :
    Follows source limit s interpolation (.ok (Parser.interpolation s)) := by
  refine .call 0 (.of_isIn fun hs => .bind (.here s) (.bind (eat_follows ['$'] s) ?_)) rfl
  rw [Parser.interpolation]
  rcases Parser.eat ['$'] s with ⟨_ | _, t⟩
  · exact .pure none t
  dsimp only
  refine .bind (reference_follows t) ?_
  rcases Parser.reference t with ⟨_ | r, u⟩
  · exact .bind (.goTo hs u) (.pure none _)
  dsimp only
  cases r.isReserved with
  | true => exact .bind (.goTo hs u) (.pure none _)
  | false =>
    refine .bind (eat_follows ['$'] u) ?_
    rcases Parser.eat ['$'] u with ⟨_ | _, v⟩
    · exact .bind (.goTo hs v) (.pure none _)
    · exact .pure (some r) v

theorem leaf_follows (s : Cursor) : Follows source limit s leaf (.ok (Parser.leaf s)) := by
  refine .bind (interpolation_follows s) ?_
  rw [Parser.leaf]
  rcases Parser.interpolation s with ⟨_ | r, t⟩
  · dsimp only
    refine .bind (eat_follows ['$', '$'] t) ?_
    rcases Parser.eat ['$', '$'] t with ⟨_ | _, u⟩
    · dsimp only
      refine .bind (literalRun_follows u) ?_
      rcases Parser.literalRun u with ⟨_ | text, v⟩
      · exact .pure none v
      · exact .pure _ v
    · exact .pure _ u
  · exact .pure _ t

/-! ### Blocks -/

/-- A reader of branches by offsets follows one by cursors. -/
def PartReader.Follows (source : String) (limit : Nat) (inner : PartReader)
    (inner' : Parser.PartReader) : Prop :=
  ∀ s, Slicing.Follows source limit s inner (inner' s)

variable {inner : PartReader} {inner' : Parser.PartReader}

theorem parts_follows (hinner : inner.Follows source limit inner') (kind : BlockKind) (s : Cursor) :
    Follows source limit s (parts inner kind) (Parser.parts inner' kind s) := by
  rw [Parser.parts]
  rcases hfirst : inner' s with e | ⟨first, t⟩
  · exact .bind_error (hfirst ▸ hinner s) _
  dsimp only
  refine .bind (hfirst ▸ hinner s) (.bind (eat_follows kind.middle t) ?_)
  rcases Parser.eat kind.middle t with ⟨_ | _, u⟩
  · dsimp only
    refine .bind (eat_follows kind.closing u) ?_
    rcases Parser.eat kind.closing u with ⟨_ | _, v⟩
    · exact .pure none v
    · exact .pure _ v
  · dsimp only
    rcases hsecond : inner' u with e | ⟨second, v⟩
    · exact .bind_error (hsecond ▸ hinner u) _
    dsimp only
    refine .bind (hsecond ▸ hinner u) (.bind (eat_follows kind.closing v) ?_)
    rcases Parser.eat kind.closing v with ⟨_ | _, w⟩
    · exact .pure none w
    · exact .pure _ w

/-- A line terminator that is not there leaves the cursor as it is. -/
theorem eq_of_eatTerminator_nil {s t : Cursor} (h : Parser.eatTerminator s = ([], t)) : t = s := by
  have hcut := Text.splitTerminator_append s.rest
  rw [Parser.eatTerminator] at h
  generalize Text.splitTerminator s.rest = cut at h hcut
  obtain ⟨terminator, rest⟩ := cut
  cases h
  obtain rfl : rest = s.rest := hcut
  rfl

theorem contents_follows (hinner : inner.Follows source limit inner') (kind : BlockKind)
    (s : Cursor) :
    Follows source limit s (contents inner kind) (Parser.contents inner' kind s) := by
  have hread : s.Reads (Parser.eatTerminator s).1 (Parser.eatTerminator s).2 :=
    .advance (Text.splitTerminator_append s.rest).symm
  refine .of_isIn fun hin => .bind (.here s) (.bind (eatTerminator_follows s) ?_)
  refine .bind (.text _) (.bind (.here _) (.bind (.slice (hin.slice?_of_reads hread) _) ?_))
  rw [Parser.contents]
  rcases Parser.eatTerminator s with ⟨_ | ⟨c, cs⟩, t⟩
  all_goals
    dsimp only
    have hfollows := parts_follows hinner kind t
    rcases hparts : Parser.parts inner' kind t with e | ⟨_ | ⟨first, second⟩, u⟩
    all_goals rw [hparts] at hfollows
  · exact .bind_error hfollows _
  · exact .bind hfollows (.pure none u)
  · exact .bind hfollows (.pure _ u)
  · exact .bind_error hfollows _
  · exact .bind hfollows (.pure none u)
  · refine .bind hfollows (.bind (eatTerminator_follows u) ?_)
    dsimp only
    rcases hterm : Parser.eatTerminator u with ⟨_ | ⟨d, ds⟩, v⟩
    · obtain rfl := eq_of_eatTerminator_nil hterm
      exact .pure _ v
    · exact .pure _ v

/-- A block that is one too many is refused on the line on which it is opened. -/
theorem refusal_eq {before rest : List Char} (h : source.toList = before ++ rest) :
    refusal source limit ⟨utf8Length before⟩ =
      .refused (.nestingTooDeep (lineNumber before) limit) := by
  rw [refusal, h, Text.splitAtOffset_length_append]

theorem block_follows {steps : Nat}
    (hinner : inner.Follows source limit (Parser.elements limit steps [])) (kind : BlockKind)
    (s : Cursor) :
    Follows source limit s (block limit inner kind)
      (Parser.block limit (Parser.elements limit steps []) kind s) := by
  refine .call steps (.of_isIn fun hs => .bind (.here s) (.bind (openTag_follows kind s) ?_)) rfl
  rw [Parser.block]
  rcases Parser.openTag kind s with ⟨_ | r, t⟩
  · exact .pure none t
  refine .bind (.here t) ?_
  dsimp only [Cursor.offsets]
  by_cases hlimit : limit ≤ t.depth
  · rw [if_pos hlimit, if_pos hlimit]
    obtain ⟨before, hsource, hpos⟩ := hs.rest
    rw [hpos]
    refine .bind (.text t) (.bind (.slice (Text.slice?_zero hsource) t) ?_)
    rw [String.toList_ofList, ← refusal_eq hsource]
    exact .refuse _ t
  · rw [if_neg hlimit, if_neg hlimit]
    have hopen : Follows source limit t (move fun s => { s with depth := s.depth + 1 })
        (.ok ((), { t with depth := t.depth + 1 })) :=
      .of_isIn fun ht => .move rfl (ht.count _) (Nat.le_refl _)
    have hclose : ∀ u : Cursor, Follows source limit u
        (move fun s => { s with depth := s.depth - 1 }) (.ok ((), { u with depth := u.depth - 1 })) :=
      fun u => .of_isIn fun hu => .move rfl (hu.count _) (Nat.le_refl _)
    have hcontents := contents_follows hinner kind { t with depth := t.depth + 1 }
    rcases hread : Parser.contents (Parser.elements limit steps []) kind
      { t with depth := t.depth + 1 } with e | ⟨_ | ⟨first, second⟩, u⟩
    all_goals rw [hread] at hcontents
    · exact .bind hopen (.bind_error hcontents _)
    · exact .bind hopen (.bind hcontents (.bind (hclose u) (.bind (.goTo hs _) (.pure none _))))
    · exact .bind hopen (.bind hcontents (.bind (hclose u) (.pure _ _)))

theorem element_follows {steps : Nat}
    (hinner : inner.Follows source limit (Parser.elements limit steps [])) (s : Cursor) :
    Follows source limit s (element limit inner)
      (Parser.element limit (Parser.elements limit steps []) s) := by
  have hconditional := block_follows hinner .conditional s
  rw [Parser.element]
  rcases hread : Parser.block limit (Parser.elements limit steps []) .conditional s with
    e | ⟨_ | node, t⟩
  all_goals rw [hread] at hconditional
  · exact .bind_error hconditional _
  · refine .bind hconditional ?_
    have hloop := block_follows hinner .loop t
    dsimp only
    rcases hread' : Parser.block limit (Parser.elements limit steps []) .loop t with
      e | ⟨_ | node, u⟩
    all_goals rw [hread'] at hloop
    · exact .bind_error hloop _
    · exact .bind hloop (leaf_follows u)
    · exact .bind hloop (.pure _ u)
  · exact .bind hconditional (.pure _ t)

/-- **A reading of elements by offsets follows that by cursors.** -/
theorem elements_follows (limit steps : Nat) (nodes : List Node) (s : Cursor) :
    Follows source limit s (elements limit steps nodes) (Parser.elements limit steps nodes s) := by
  -- One step less is what the branches of a block are read with, and what the nodes behind it are.
  induction steps generalizing nodes s with
  | zero => exact .pure _ s
  | succ steps ih =>
    have helement := element_follows (ih []) s
    rw [Parser.elements]
    rcases hread : Parser.element limit (Parser.elements limit steps []) s with
      e | ⟨_ | node, t⟩
    all_goals rw [hread] at helement
    · exact .bind_error helement _
    · exact .bind helement (.pure _ t)
    · exact .bind helement (ih _ t)

/-! ### Templates -/

/-- Where something is missing the source is refused, and both slices at the mark are there. -/
theorem failure_eq {s : Cursor} {h : History} (hs : s.IsIn source) (hnow : h.now = s.offsets) :
    failure (α := α) source h =
      .error (.refused (Template.failureAt source.toList s.furthest)) h := by
  obtain ⟨before, after, hsource, hmark⟩ := Text.isBoundary_iff.mp hs.furthest
  have hbefore := Text.slice?_zero hsource
  have hafter := Text.slice?_utf8ByteSize hsource
  have hcut : Text.splitAtOffset s.furthest source.toList = (before, after) := by
    rw [hmark, hsource, Text.splitAtOffset_length_append]
  rw [Template.failureAt, hcut]
  rw [← hmark] at hbefore hafter
  have hfurthest : h.now.furthest = s.furthest := congrArg Offsets.furthest hnow
  simp only [failure, run_bind, Slicing.source, here, hfurthest, slice_eq hbefore, slice_eq hafter,
    String.toList_ofList, pure, ReaderT.pure, EStateM.pure]
  rcases after.take Template.excerptLength with _ | ⟨c, cs⟩ <;> rfl

/-- **A reading of a template by offsets** gives the template that the source compiles to, or the error
for which it does not, with a record that is as it should be. -/
theorem template_ends (source : String) (limit : Nat) :
    ∃ h : History, h.IsSound source limit ∧
      template limit source .start =
        match Template.compile source limit with
        | .ok t => .ok t h
        | .error e => .error (.refused e) h := by
  have hends := elements_follows limit (source.length + 1) [] (Cursor.start source.toList)
    (Cursor.IsIn.start source) .start (History.IsSound.start source limit) rfl
  rw [Template.compile, String.length_toList]
  simp only [template, run_bind, Slicing.source, here]
  generalize elements limit (source.length + 1) [] source .start = run at hends
  generalize Parser.elements limit (source.length + 1) [] (Cursor.start source.toList) = reading
    at hends
  cases hends with
  | refused e hsound => exact ⟨_, hsound, rfl⟩
  | @read h r hsound hnow hin =>
    obtain ⟨nodes, s⟩ := r
    have hpos : h.now.pos = s.pos := congrArg Offsets.pos hnow
    refine ⟨h, hsound, ?_⟩
    dsimp only
    rw [hpos]
    cases hrest : s.rest with
    | nil =>
      rw [if_neg fun hlt => hin.pos_lt_iff.mp hlt hrest]
      rfl
    | cons c rest =>
      rw [if_pos (hin.pos_lt_iff.mpr (by simp [hrest]))]
      exact failure_eq hin hnow

end Slicing

namespace Template

open Slicing (Abort Event History visited)

/-- A source read by offsets gives what it compiles to, with a record that is as it should be. -/
theorem exists_compileSlicing_eq (source : String) (limit : Nat) :
    ∃ h : History, h.IsSound source limit ∧
      compileSlicing source limit = ((compile source limit).mapError .refused, h.events) := by
  obtain ⟨h, hsound, htemplate⟩ := Slicing.template_ends source limit
  refine ⟨h, hsound, ?_⟩
  rw [compileSlicing, Slicing.run, htemplate]
  cases compile source limit <;> rfl

/-- **No slice fails, and what is given up is undone.** Whatever is tried at a cursor leaves no block
open, and leaves only a mark if nothing is read. The same source is read by offsets with the same
result, so that no slice fails. What is tried in that reading returns as it does at a cursor in the
source: the number of open blocks is what it was, and if nothing is read so is the offset. In every
state of the reading both offsets are boundaries of the source, and the mark never goes back. -/
theorem attempts_undone (source : String) (limit : Nat) :
    (∀ (attempt : Attempt) steps s found t, attempt.result limit steps s = .ok (found, t) →
      t.depth = s.depth ∧ (found = false → t = { s with furthest := t.furthest })) ∧
    (compileSlicing source limit).1 = (compile source limit).mapError .refused ∧
    (∀ attempt found entry exit,
      .returned attempt found entry exit ∈ (compileSlicing source limit).2 →
        (∃ steps s t, s.IsIn source ∧ attempt.result limit steps s = .ok (found, t) ∧
          entry = s.offsets ∧ exit = t.offsets) ∧
        exit.depth = entry.depth ∧
        (found = false → exit = { entry with furthest := exit.furthest })) ∧
    (∀ state ∈ visited (compileSlicing source limit).2,
      (state.pos ≤ source.utf8ByteSize ∧ IsBoundary source state.pos) ∧
        state.furthest ≤ source.utf8ByteSize ∧ IsBoundary source state.furthest) ∧
    (visited (compileSlicing source limit).2).Pairwise fun a b => a.furthest ≤ b.furthest := by
  obtain ⟨h, hsound, heq⟩ := exists_compileSlicing_eq source limit
  rw [heq]
  refine ⟨fun attempt steps s found t => Attempt.keeps, rfl, ?_, ?_, hsound.increasing⟩
  · intro attempt found entry exit hmem
    obtain ⟨steps, s, t, hs, hresult, rfl, rfl⟩ := hsound.events _ hmem
    obtain ⟨hdepth, hundone⟩ := Attempt.keeps hresult
    refine ⟨⟨steps, s, t, hs, hresult, rfl, rfl⟩, hdepth, fun hfound => ?_⟩
    exact congrArg Cursor.offsets (hundone hfound)
  · intro state hmem
    obtain ⟨hpos, hfurthest⟩ := hsound.events _ (Slicing.mem_visited.mp hmem)
    exact ⟨⟨hpos.le, hpos⟩, hfurthest.le, hfurthest⟩

/-- A block that is not closed, behind a letter of two bytes. Its tag is read, and then plain text with
such a letter and a variable that breaks off behind a dot. Variable and block are given up, and what
is left of them is the mark behind the dot. -/
theorem attempts_undone_unclosed :
    (Attempt.block .conditional).result 1 16 ⟨"$if(a)$\nß$b.$".toList, 2, 0, 0⟩ =
        .ok (false, ⟨"$if(a)$\nß$b.$".toList, 2, 15, 0⟩) ∧
      (⟨"$if(a)$\nß$b.$".toList, 2, 15, 0⟩ : Cursor) =
        { (⟨"$if(a)$\nß$b.$".toList, 2, 0, 0⟩ : Cursor) with furthest := 15 } ∧
      Event.returned (.block .conditional) false ⟨2, 0, 0⟩ ⟨2, 15, 0⟩ ∈
        (compileSlicing "é$if(a)$\nß$b.$" 1).2 ∧
      (⟨2, 15, 0⟩ : Offsets) = { (⟨2, 0, 0⟩ : Offsets) with furthest := 15 } ∧
      (⟨12, 15, 1⟩ : Offsets) ∈ visited (compileSlicing "é$if(a)$\nß$b.$" 1).2 ∧
      IsBoundary "é$if(a)$\nß$b.$" 12 ∧ ¬IsBoundary "é$if(a)$\nß$b.$" 11 := by
  obtain ⟨hkeeps, -, hreturned, hvisited, -⟩ := attempts_undone "é$if(a)$\nß$b.$" 1
  have hresult : (Attempt.block .conditional).result 1 16 ⟨"$if(a)$\nß$b.$".toList, 2, 0, 0⟩ =
      .ok (false, ⟨"$if(a)$\nß$b.$".toList, 2, 15, 0⟩) := by with_unfolding_all rfl
  have hevent : Event.returned (.block .conditional) false ⟨2, 0, 0⟩ ⟨2, 15, 0⟩ ∈
      (compileSlicing "é$if(a)$\nß$b.$" 1).2 := by decide +kernel
  have hstate : (⟨12, 15, 1⟩ : Offsets) ∈ visited (compileSlicing "é$if(a)$\nß$b.$" 1).2 := by
    decide +kernel
  refine ⟨hresult, (hkeeps _ _ _ _ _ hresult).2 rfl, hevent, (hreturned _ _ _ _ hevent).2.2 rfl,
    hstate, (hvisited _ hstate).1.2, by decide⟩

end Template

end DocTemplate
