import DocTemplate.Proofs.Template.Grammar
import DocTemplate.Template.Parser

/-!
# What the readers without parts read

For each reader of names, references, tags and plain text, one statement of all it can do: either it
reads a text of its kind, and then the cursor moves behind that text, or it reads nothing, and then
no text of its kind stands there. In both cases the cursor is accounted for by `Cursor.Reads`.

The second half needs that a text of a kind can be read in one way only. For a reference this is
`Reference.chars_append_inj`: two references that stand at the front of one text are the same, if
neither goes on behind its end (`Reference.Ends`). It is what keeps a variable from being taken for
the opening tag of a block that its name begins like, and a tag of a block from being taken for a
variable: the dollar or the bracket behind the reference tells them apart, or the reference is a
reserved word.
-/

namespace DocTemplate

open Text (Stops IsName IsTerminator BeginsWithTerminator isNameChar utf8Length)

/-! ### Cursors -/

/-- From one cursor to another a text is read: it stands between them, and on the way things may be
found missing. -/
structure Cursor.Reads (s : Cursor) (text : List Char) (t : Cursor) : Prop where
  rest : s.rest = text ++ t.rest
  pos : t.pos = s.pos + utf8Length text
  furthest : s.furthest ≤ t.furthest
  depth : t.depth = s.depth

namespace Cursor.Reads

variable {s t u : Cursor} {text other rest : List Char}

theorem refl (s : Cursor) : s.Reads [] s := ⟨rfl, rfl, Nat.le_refl _, rfl⟩

theorem trans (hst : s.Reads text t) (htu : t.Reads other u) : s.Reads (text ++ other) u where
  rest := by rw [hst.rest, htu.rest, List.append_assoc]
  pos := by rw [htu.pos, hst.pos, Text.utf8Length_append, Nat.add_assoc]
  furthest := Nat.le_trans hst.furthest htu.furthest
  depth := by rw [htu.depth, hst.depth]

/-- Going back to where the reading began, nothing is read. -/
theorem rewind (h : s.Reads text t) : s.Reads [] (t.rewind s) :=
  ⟨rfl, rfl, h.furthest, h.depth⟩

theorem miss (s : Cursor) : s.Reads [] s.miss :=
  ⟨rfl, rfl, Nat.le_max_left _ _, rfl⟩

theorem advance (h : s.rest = text ++ rest) : s.Reads text (s.advance text rest) :=
  ⟨h, rfl, Nat.le_refl _, rfl⟩

theorem rest_of_nil (h : s.Reads [] t) : t.rest = s.rest := h.rest.symm

theorem rest_eq (h : s.Reads text t) (hs : s.rest = text ++ rest) : t.rest = rest :=
  List.append_cancel_left (h.rest.symm.trans hs)

/-- What is read inside a block is read between cursors that do not count it. -/
theorem leave (h : Cursor.Reads { s with depth := s.depth + 1 } text t) :
    s.Reads text { t with depth := t.depth - 1 } where
  rest := h.rest
  pos := h.pos
  furthest := h.furthest
  depth := by rw [h.depth, Nat.add_sub_cancel]

end Cursor.Reads

/-! ### References -/

namespace Reference

/-- The written form of components, each after a dot. -/
def dotted (names : List String) : List Char :=
  names.flatMap fun name => '.' :: name.toList

theorem chars_eq (r : Reference) : r.chars = r.first.toList ++ dotted r.rest := by
  obtain ⟨first, rest⟩ := r
  simp only [chars, display, components]
  induction rest generalizing first with
  | nil => simp [dotted]
  | cons next rest ih =>
    rw [String.intercalate_cons_cons, String.toList_append, ih next]
    simp [dotted]

/-- A reference does not go on into a text. -/
def Ends (text : List Char) : Prop :=
  Stops isNameChar text ∧ ∀ rest, text = '.' :: rest → Stops isNameChar rest

theorem ends_cons {c : Char} (hname : isNameChar c = false) (hdot : c ≠ '.') (text : List Char) :
    Ends (c :: text) :=
  ⟨hname, fun _ h => absurd (List.cons.inj h).1 hdot⟩

theorem stops_dotted_append (names : List String) {text : List Char} (h : Ends text) :
    Stops isNameChar (dotted names ++ text) := by
  cases names with
  | nil => exact h.1
  | cons name names => exact Text.isNameChar_dot

/-- A name stands where a reference ends nowhere. -/
theorem not_ends_dotted_append {name : String} (hname : IsName name) (text : List Char) :
    ¬Ends ('.' :: (name.toList ++ text)) := by
  intro h
  refine Text.not_stops_append ?_ hname.2 text (h.2 _ rfl)
  exact fun hnil => hname.1 (String.toList_eq_nil_iff.mp hnil)

theorem dotted_append_inj {names names' : List String} {text text' : List Char}
    (hnames : ∀ name ∈ names, IsName name) (htext : Ends text)
    (hnames' : ∀ name ∈ names', IsName name) (htext' : Ends text')
    (h : dotted names ++ text = dotted names' ++ text') : names = names' ∧ text = text' := by
  induction names generalizing names' with
  | nil =>
    cases names' with
    | nil => exact ⟨rfl, h⟩
    | cons name' names' =>
      have htext'' : text = '.' :: (name'.toList ++ (dotted names' ++ text')) := by
        simpa [dotted] using h
      -- the first reference would go on with the name that the second has left
      exact absurd (htext'' ▸ htext) (not_ends_dotted_append (hnames' name' List.mem_cons_self) _)
  | cons name names ih =>
    cases names' with
    | nil =>
      have htext'' : text' = '.' :: (name.toList ++ (dotted names ++ text)) := by
        simpa [dotted] using h.symm
      exact absurd (htext'' ▸ htext') (not_ends_dotted_append (hnames name List.mem_cons_self) _)
    | cons name' names' =>
      have hcut : name.toList ++ (dotted names ++ text) =
          name'.toList ++ (dotted names' ++ text') := by
        simpa [dotted] using h
      obtain ⟨hname, hrest⟩ := Text.run_append_inj (hnames name List.mem_cons_self).2
        (stops_dotted_append names htext) (hnames' name' List.mem_cons_self).2
        (stops_dotted_append names' htext') hcut
      obtain ⟨rfl, rfl⟩ := ih (fun n hn => hnames n (List.mem_cons_of_mem _ hn))
        (fun n hn => hnames' n (List.mem_cons_of_mem _ hn)) hrest
      exact ⟨by rw [String.toList_inj.mp hname], rfl⟩

/-- **At the front of a text stands one reference**, if it has to end where it stops. -/
theorem chars_append_inj {r r' : Reference} {text text' : List Char} (hr : r.IsWritable)
    (htext : Ends text) (hr' : r'.IsWritable) (htext' : Ends text')
    (h : r.chars ++ text = r'.chars ++ text') : r = r' ∧ text = text' := by
  rw [chars_eq, chars_eq, List.append_assoc, List.append_assoc] at h
  obtain ⟨hfirst, hdotted⟩ := Text.run_append_inj (hr r.first List.mem_cons_self).2
    (stops_dotted_append r.rest htext) (hr' r'.first List.mem_cons_self).2
    (stops_dotted_append r'.rest htext') h
  obtain ⟨hrest, rfl⟩ := dotted_append_inj (fun n hn => hr n (List.mem_cons_of_mem _ hn)) htext
    (fun n hn => hr' n (List.mem_cons_of_mem _ hn)) htext' hdotted
  obtain ⟨first, rest⟩ := r
  obtain ⟨first', rest'⟩ := r'
  obtain rfl : first = first' := String.toList_inj.mp hfirst
  obtain rfl : rest = rest' := hrest
  exact ⟨rfl, rfl⟩

/-- A reference begins with a name character. -/
theorem IsWritable.not_stops {r : Reference} (hr : r.IsWritable) (text : List Char) :
    ¬Stops isNameChar (r.chars ++ text) := by
  rw [chars_eq, List.append_assoc]
  have hfirst : IsName r.first := hr r.first List.mem_cons_self
  refine Text.not_stops_append ?_ hfirst.2 _
  exact fun hnil => hfirst.1 (String.toList_eq_nil_iff.mp hnil)

/-- At the front of a text stands one reference between dollars. -/
theorem variableTag_append_inj {r r' : Reference} {rest rest' : List Char} (hr : r.IsWritable)
    (hr' : r'.IsWritable) (h : r.variableTag ++ rest = r'.variableTag ++ rest') :
    r = r' ∧ rest = rest' := by
  have hcut : r.chars ++ '$' :: rest = r'.chars ++ '$' :: rest' := by
    simpa [variableTag] using h
  obtain ⟨hrr, hrest⟩ := chars_append_inj hr
    (ends_cons Text.isNameChar_dollar (by decide) _) hr'
    (ends_cons Text.isNameChar_dollar (by decide) _) hcut
  exact ⟨hrr, (List.cons.inj hrest).2⟩

/-- A reference between dollars does not begin with a doubled dollar. -/
theorem IsWritable.variableTag_ne_doubled {r : Reference} (hr : r.IsWritable)
    {rest rest' : List Char} : r.variableTag ++ rest ≠ '$' :: '$' :: rest' := by
  intro h
  have hcut : r.chars ++ '$' :: rest = '$' :: rest' := by simpa [variableTag] using h
  exact hr.not_stops ('$' :: rest) (hcut ▸ Text.isNameChar_dollar)

end Reference

namespace Parser

/-! ### Tokens and terminators -/

theorem afterToken?_append (token rest : List Char) :
    afterToken? token (token ++ rest) = some rest := by
  induction token with
  | nil => rfl
  | cons t token ih => rw [List.cons_append, afterToken?, if_pos rfl, ih]

theorem append_of_afterToken? {token text rest : List Char}
    (h : afterToken? token text = some rest) : text = token ++ rest := by
  induction token generalizing text with
  | nil => exact Option.some.inj h
  | cons t token ih =>
    cases text with
    | nil => cases h
    | cons c text =>
      rw [afterToken?] at h
      split at h
      next hc => rw [hc, ih h, List.cons_append]
      next => cases h

/-- A token is read exactly if it stands there. -/
theorem eat_outcome (token : List Char) (s : Cursor) :
    (∃ t, eat token s = (true, t) ∧ s.Reads token t) ∨
      (∃ t, eat token s = (false, t) ∧ s.Reads [] t ∧ ¬token <+: s.rest) := by
  rw [eat]
  split
  next rest h => exact Or.inl ⟨_, rfl, .advance (append_of_afterToken? h)⟩
  next h =>
    refine Or.inr ⟨_, rfl, .miss s, ?_⟩
    rintro ⟨rest, hrest⟩
    rw [← hrest, afterToken?_append] at h
    cases h

theorem eat_of_prefix {token rest : List Char} {s : Cursor} (h : s.rest = token ++ rest) :
    ∃ t, eat token s = (true, t) ∧ s.Reads token t := by
  rcases eat_outcome token s with ⟨t, ht, hst⟩ | ⟨_, _, _, hno⟩
  · exact ⟨t, ht, hst⟩
  · exact absurd ⟨rest, h.symm⟩ hno

theorem eat_of_not_prefix {token : List Char} {s : Cursor} (h : ¬token <+: s.rest) :
    ∃ t, eat token s = (false, t) ∧ s.Reads [] t := by
  rcases eat_outcome token s with ⟨t, _, hst⟩ | ⟨t, ht, hst, _⟩
  · exact absurd ⟨t.rest, hst.rest.symm⟩ h
  · exact ⟨t, ht, hst⟩

/-- A terminator is read if there is one. -/
theorem eatTerminator_of_isTerminator {terminator rest : List Char} {s : Cursor}
    (h : s.rest = terminator ++ rest) (hterm : IsTerminator terminator) :
    ∃ t, eatTerminator s = (terminator, t) ∧ s.Reads terminator t := by
  refine ⟨s.advance terminator rest, ?_, .advance h⟩
  rw [eatTerminator, h, Text.splitTerminator_append_of_isTerminator hterm]

theorem eatTerminator_of_not_beginsWithTerminator {s : Cursor}
    (h : ¬BeginsWithTerminator s.rest) : ∃ t, eatTerminator s = ([], t) ∧ s.Reads [] t := by
  refine ⟨s.advance [] s.rest, ?_, .advance rfl⟩
  rw [eatTerminator, Text.splitTerminator_of_not_beginsWithTerminator h]

/-! ### Names and references -/

/-- A name is read as far as it goes. -/
theorem name_outcome (s : Cursor) :
    (∃ n t, name s = (some n, t) ∧ s.Reads n.toList t ∧ IsName n ∧ Stops isNameChar t.rest) ∨
      (∃ t, name s = (none, t) ∧ s.Reads [] t ∧ Stops isNameChar s.rest) := by
  have hcut := List.takeWhile_append_dropWhile (p := isNameChar) (l := s.rest)
  have hstop := Text.stops_dropWhile isNameChar s.rest
  rw [name]
  split
  next hrun =>
    rw [hrun, List.nil_append] at hcut
    exact Or.inr ⟨_, rfl, .miss s, hcut ▸ hstop⟩
  next c cs hrun =>
    have hall : ∀ d ∈ c :: cs, isNameChar d = true := hrun ▸ List.all_eq_true.mp List.all_takeWhile
    refine Or.inl ⟨_, _, rfl, ?_, ⟨?_, ?_⟩, hstop⟩
    · rw [String.toList_ofList]
      exact .advance (by rw [← hrun, hcut])
    · exact fun h => List.cons_ne_nil c cs (by simpa using congrArg String.toList h)
    · rw [String.toList_ofList]
      exact hall

theorem furtherNames_of_some {names : List String} {rest : List Char} {n : String} {s t : Cursor}
    (hs : s.rest = '.' :: rest) (h : name (s.advance ['.'] rest) = (some n, t)) :
    furtherNames names s = furtherNames (n :: names) t := by
  rw [furtherNames]
  split
  next rest' hs' =>
    obtain rfl := (List.cons.inj (hs.symm.trans hs')).2
    split
    next hn => cases h.symm.trans hn; rfl
    next hn => cases h.symm.trans hn
  next hno => exact absurd hs (hno rest)

theorem furtherNames_of_none {names : List String} {rest : List Char} {s t : Cursor}
    (hs : s.rest = '.' :: rest) (h : name (s.advance ['.'] rest) = (none, t)) :
    furtherNames names s = (names.reverse, t.rewind s) := by
  rw [furtherNames]
  split
  next rest' hs' =>
    obtain rfl := (List.cons.inj (hs.symm.trans hs')).2
    split
    next hn => cases h.symm.trans hn
    next hn => cases h.symm.trans hn; rfl
  next hno => exact absurd hs (hno rest)

theorem furtherNames_of_ne {names : List String} {s : Cursor}
    (hs : ∀ rest, s.rest ≠ '.' :: rest) :
    furtherNames names s = (names.reverse, s) := by
  rw [furtherNames]
  split
  next rest hs' => exact absurd hs' (hs rest)
  next => rfl

/-- The names after dots are read as far as they go. -/
theorem furtherNames_outcome (names : List String) (s : Cursor) (hs : Stops isNameChar s.rest) :
    ∃ more t, furtherNames names s = (names.reverse ++ more, t) ∧
      s.Reads (Reference.dotted more) t ∧ (∀ n ∈ more, IsName n) ∧ Reference.Ends t.rest := by
  fun_induction furtherNames names s with
  | case1 names s rest hdot n t hname ih =>
    rcases name_outcome (s.advance ['.'] rest) with ⟨n', t', heq, hread, hn, hstop⟩ | ⟨_, heq, _⟩
    · cases hname.symm.trans heq
      obtain ⟨more, u, hu, htu, hmore, hends⟩ := ih hstop
      refine ⟨n :: more, u, ?_, ?_, ?_, hends⟩
      · rw [hu, List.reverse_cons, List.append_assoc, List.singleton_append]
      · have hfirst : s.Reads ('.' :: n.toList) t := (Cursor.Reads.advance hdot).trans hread
        exact hfirst.trans htu
      · exact fun m hm => (List.mem_cons.mp hm).elim (fun h => h ▸ hn) (hmore m)
    · cases hname.symm.trans heq
  | case2 names s rest hdot t hname =>
    rcases name_outcome (s.advance ['.'] rest) with ⟨_, _, heq, _⟩ | ⟨t', heq, hread, hstop⟩
    · cases hname.symm.trans heq
    · cases hname.symm.trans heq
      -- the dot is given back, and no name stands behind it, so the reference ends before it
      have hback : s.Reads ['.'] t := (Cursor.Reads.advance hdot).trans hread
      refine ⟨[], _, by rw [List.append_nil], hback.rewind, by simp, hs, fun tail htail => ?_⟩
      rw [Cursor.rewind, hdot] at htail
      exact (List.cons.inj htail).2 ▸ hstop
  | case3 names s hdot =>
    exact ⟨[], s, by rw [List.append_nil], .refl s, by simp, hs, fun tail h => (hdot tail h).elim⟩

/-- A reference is read as far as it goes. -/
theorem reference_outcome (s : Cursor) :
    (∃ r t, reference s = (some r, t) ∧ s.Reads r.chars t ∧ r.IsWritable ∧
        Reference.Ends t.rest) ∨
      (∃ t, reference s = (none, t) ∧ s.Reads [] t ∧ Stops isNameChar s.rest) := by
  rw [reference]
  rcases name_outcome s with ⟨n, t, heq, hst, hn, hstop⟩ | ⟨t, heq, hst, hstop⟩
  · obtain ⟨more, u, hu, htu, hmore, hends⟩ := furtherNames_outcome [] t hstop
    refine Or.inl ⟨⟨n, more⟩, u, ?_, ?_, ?_, hends⟩
    · simp only [heq, hu, List.reverse_nil, List.nil_append]
    · rw [Reference.chars_eq]
      exact hst.trans htu
    · exact fun m hm => (List.mem_cons.mp hm).elim (fun h => h ▸ hn) (hmore m)
  · exact Or.inr ⟨t, by simp only [heq], hst, hstop⟩

/-! ### Tags -/

/-- An opening tag is read exactly if one stands there. -/
theorem openTag_outcome (kind : BlockKind) (s : Cursor) :
    (∃ r t, openTag kind s = (some r, t) ∧ s.Reads (kind.openTag r) t ∧ r.IsWritable) ∨
      (∃ t, openTag kind s = (none, t) ∧ s.Reads [] t ∧
        ∀ r : Reference, r.IsWritable → ¬kind.openTag r <+: s.rest) := by
  rw [openTag]
  rcases eat_outcome kind.opening s with ⟨t, ht, hst⟩ | ⟨t, ht, hst, hno⟩
  · rcases reference_outcome t with ⟨r, u, hu, htu, hr, hends⟩ | ⟨u, hu, htu, hstop⟩
    · rcases eat_outcome [')', '$'] u with ⟨v, hv, huv⟩ | ⟨v, hv, huv, hno⟩
      · exact Or.inl ⟨r, v, by simp only [ht, hu, hv], (hst.trans htu).trans huv, hr⟩
      · refine Or.inr ⟨v.rewind s, by simp only [ht, hu, hv], ?_, ?_⟩
        · exact ((hst.trans htu).trans huv).rewind
        -- no other reference can stand here, and the one that does is not followed by a bracket
        rintro r' hr' ⟨rest, hrest⟩
        have hcut : r.chars ++ u.rest = r'.chars ++ ')' :: '$' :: rest := by
          rw [← htu.rest]
          exact hst.rest_eq (by rw [← hrest]; simp [BlockKind.openTag])
        obtain ⟨-, hclose⟩ := Reference.chars_append_inj hr hends hr'
          (Reference.ends_cons Text.isNameChar_close (by decide) _) hcut
        exact hno ⟨rest, hclose.symm⟩
    · refine Or.inr ⟨u.rewind s, by simp only [ht, hu], (hst.trans htu).rewind, ?_⟩
      rintro r hr ⟨rest, hrest⟩
      have hcut : t.rest = r.chars ++ ')' :: '$' :: rest :=
        hst.rest_eq (by rw [← hrest]; simp [BlockKind.openTag])
      exact hr.not_stops _ (hcut ▸ hstop)
  · refine Or.inr ⟨t, by simp only [ht], hst, fun r _ hprefix => hno ?_⟩
    rw [BlockKind.openTag, List.append_assoc] at hprefix
    exact (List.prefix_append _ _).trans hprefix

/-- A variable is read exactly if one stands there. -/
theorem interpolation_outcome (s : Cursor) :
    (∃ r t, interpolation s = (some r, t) ∧ s.Reads r.variableTag t ∧ r.IsWritable ∧
        r.isReserved = false) ∨
      (∃ t, interpolation s = (none, t) ∧ s.Reads [] t ∧
        ∀ r : Reference, r.IsWritable → r.isReserved = false → ¬r.variableTag <+: s.rest) := by
  rw [interpolation]
  rcases eat_outcome ['$'] s with ⟨t, ht, hst⟩ | ⟨t, ht, hst, hno⟩
  · rcases reference_outcome t with ⟨r, u, hu, htu, hr, hends⟩ | ⟨u, hu, htu, hstop⟩
    · -- a variable that stands here has the reference that is read, with a dollar behind it
      have hunique : ∀ {r' : Reference} {rest : List Char}, r'.IsWritable →
          r'.variableTag ++ rest = s.rest → r = r' ∧ u.rest = '$' :: rest := by
        intro r' rest hr' hrest
        refine Reference.chars_append_inj hr hends hr'
          (Reference.ends_cons Text.isNameChar_dollar (by decide) _) ?_
        rw [← htu.rest]
        exact hst.rest_eq (by rw [← hrest]; simp [Reference.variableTag])
      cases hreserved : r.isReserved with
      | true =>
        refine Or.inr ⟨u.rewind s, by simp [ht, hu, hreserved], (hst.trans htu).rewind, ?_⟩
        rintro r' hr' hreserved' ⟨rest, hrest⟩
        obtain ⟨rfl, -⟩ := hunique hr' hrest
        exact Bool.false_ne_true (hreserved'.symm.trans hreserved)
      | false =>
        rcases eat_outcome ['$'] u with ⟨v, hv, huv⟩ | ⟨v, hv, huv, hno⟩
        · exact Or.inl ⟨r, v, by simp [ht, hu, hv, hreserved], (hst.trans htu).trans huv, hr,
            hreserved⟩
        · refine Or.inr ⟨v.rewind s, by simp [ht, hu, hv, hreserved], ?_, ?_⟩
          · exact ((hst.trans htu).trans huv).rewind
          rintro r' hr' - ⟨rest, hrest⟩
          obtain ⟨-, hclose⟩ := hunique hr' hrest
          exact hno ⟨rest, hclose.symm⟩
    · refine Or.inr ⟨u.rewind s, by simp only [ht, hu], (hst.trans htu).rewind, ?_⟩
      rintro r hr - ⟨rest, hrest⟩
      have hcut : t.rest = r.chars ++ '$' :: rest :=
        hst.rest_eq (by rw [← hrest]; simp [Reference.variableTag])
      exact hr.not_stops _ (hcut ▸ hstop)
  · refine Or.inr ⟨t, by simp only [ht], hst, fun r _ _ hprefix => hno ?_⟩
    exact (List.prefix_append ['$'] _).trans hprefix

end Parser

/-! ### Telling lexemes apart -/

namespace BlockKind

/-- What stands before the reference of an opening tag is a dollar, a word and a bracket. -/
theorem exists_opening_eq (kind : BlockKind) :
    ∃ r : Reference, r.IsWritable ∧ kind.opening = '$' :: r.chars ++ ['('] := by
  cases kind with
  | conditional => exact ⟨.key "if", by decide, by decide⟩
  | loop => exact ⟨.key "for", by decide, by decide⟩

/-- The tag between branches is a reserved word between dollars. -/
theorem exists_middle_eq (kind : BlockKind) :
    ∃ r : Reference, r.IsWritable ∧ r.isReserved = true ∧ kind.middle = r.variableTag := by
  cases kind with
  | conditional => exact ⟨.key "else", by decide, by decide, by decide⟩
  | loop => exact ⟨.key "sep", by decide, by decide, by decide⟩

/-- So is the closing tag. -/
theorem exists_closing_eq (kind : BlockKind) :
    ∃ r : Reference, r.IsWritable ∧ r.isReserved = true ∧ kind.closing = r.variableTag := by
  cases kind with
  | conditional => exact ⟨.key "endif", by decide, by decide, by decide⟩
  | loop => exact ⟨.key "endfor", by decide, by decide, by decide⟩

/-- **No opening tag begins like a reference between dollars**: behind its word stands a bracket. -/
theorem not_openTag_prefix_variableTag {kind : BlockKind} {r r' : Reference} (hr' : r'.IsWritable)
    (rest : List Char) : ¬kind.openTag r <+: r'.variableTag ++ rest := by
  rintro ⟨tail, htail⟩
  obtain ⟨word, hword, hopening⟩ := kind.exists_opening_eq
  have hcut : word.chars ++ '(' :: (r.chars ++ ')' :: '$' :: tail) = r'.chars ++ '$' :: rest := by
    simpa [openTag, hopening, Reference.variableTag] using htail
  obtain ⟨-, hbracket⟩ := Reference.chars_append_inj hword
    (Reference.ends_cons Text.isNameChar_open (by decide) _) hr'
    (Reference.ends_cons Text.isNameChar_dollar (by decide) _) hcut
  exact absurd (List.cons.inj hbracket).1 (by decide)

theorem not_openTag_prefix_openTag {kind kind' : BlockKind} (hne : kind ≠ kind')
    (r r' : Reference) (rest : List Char) : ¬kind.openTag r <+: kind'.openTag r' ++ rest := by
  rintro ⟨tail, htail⟩
  cases kind <;> cases kind' <;> simp [openTag, opening] at hne htail

/-- The tag between the branches of a block does not begin its closing tag. -/
theorem not_middle_prefix_closing (kind : BlockKind) (rest : List Char) :
    ¬kind.middle <+: kind.closing ++ rest := by
  rintro ⟨tail, htail⟩
  cases kind <;> simp [middle, closing] at htail

/-- At the front of a text stands one opening tag of a kind. -/
theorem openTag_append_inj {kind : BlockKind} {r r' : Reference} {rest rest' : List Char}
    (hr : r.IsWritable) (hr' : r'.IsWritable)
    (h : kind.openTag r ++ rest = kind.openTag r' ++ rest') : r = r' := by
  have hcut : r.chars ++ ')' :: '$' :: rest = r'.chars ++ ')' :: '$' :: rest' := by
    simpa [openTag] using h
  exact (Reference.chars_append_inj hr
    (Reference.ends_cons Text.isNameChar_close (by decide) _) hr'
    (Reference.ends_cons Text.isNameChar_close (by decide) _) hcut).1

end BlockKind

namespace Grammar

variable {text text' rest rest' : List Char} {node node' : Node}

/-- **At the front of a text stands one leaf.** -/
theorem Leaf.unique (h : Leaf text node rest) (h' : Leaf text' node' rest')
    (heq : text ++ rest = text' ++ rest') : text = text' ∧ node = node' := by
  cases h with
  | run hne hrun hstop =>
    cases h' with
    | run hne' hrun' hstop' =>
      obtain ⟨rfl, -⟩ := Text.run_append_inj (Text.bne_dollar_of_notMem hrun) hstop
        (Text.bne_dollar_of_notMem hrun') hstop' heq
      exact ⟨rfl, rfl⟩
    | dollar => exact (Text.append_ne_dollar_cons hne hrun heq).elim
    | interpolation _ _ => exact (Text.append_ne_dollar_cons hne hrun heq).elim
  | dollar =>
    cases h' with
    | run hne' hrun' _ => exact (Text.append_ne_dollar_cons hne' hrun' heq.symm).elim
    | dollar => exact ⟨rfl, rfl⟩
    | interpolation hr' _ => exact (hr'.variableTag_ne_doubled heq.symm).elim
  | interpolation hr _ =>
    cases h' with
    | run hne' hrun' _ => exact (Text.append_ne_dollar_cons hne' hrun' heq.symm).elim
    | dollar => exact (hr.variableTag_ne_doubled heq).elim
    | interpolation hr' _ =>
      obtain ⟨rfl, -⟩ := Reference.variableTag_append_inj hr hr' heq
      exact ⟨rfl, rfl⟩

/-- A leaf is no opening tag. -/
theorem Leaf.not_openTag (h : Leaf text node rest) (kind : BlockKind) (r : Reference) :
    ¬kind.openTag r <+: text ++ rest := by
  cases h with
  | run hne hrun hstop =>
    rintro ⟨tail, htail⟩
    refine Text.not_stops_append hne (Text.bne_dollar_of_notMem hrun) rest ?_
    rw [← htail]
    exact kind.openTag_stops r tail
  | dollar =>
    rintro ⟨tail, htail⟩
    cases kind <;> simp [BlockKind.openTag, BlockKind.opening] at htail
  | interpolation hr _ => exact BlockKind.not_openTag_prefix_variableTag hr rest

/-- A branch ends here: nothing follows, or a reserved word between dollars. -/
def BranchEnd (text : List Char) : Prop :=
  text = [] ∨ ∃ r : Reference, r.IsWritable ∧ r.isReserved = true ∧ r.variableTag <+: text

theorem branchEnd_nil : BranchEnd [] := Or.inl rfl

theorem branchEnd_middle (kind : BlockKind) (rest : List Char) :
    BranchEnd (kind.middle ++ rest) := by
  obtain ⟨r, hr, hreserved, heq⟩ := kind.exists_middle_eq
  exact Or.inr ⟨r, hr, hreserved, heq ▸ List.prefix_append _ rest⟩

theorem branchEnd_closing (kind : BlockKind) (rest : List Char) :
    BranchEnd (kind.closing ++ rest) := by
  obtain ⟨r, hr, hreserved, heq⟩ := kind.exists_closing_eq
  exact Or.inr ⟨r, hr, hreserved, heq ▸ List.prefix_append _ rest⟩

theorem BranchEnd.stops (h : BranchEnd text) : Stops (· != '$') text := by
  rcases h with rfl | ⟨r, _, _, rest, rfl⟩
  · exact Text.stops_nil _
  · rfl

theorem BranchEnd.not_openTag (h : BranchEnd text) (kind : BlockKind) (r : Reference) :
    ¬kind.openTag r <+: text := by
  rcases h with rfl | ⟨r', hr', _, rest, rfl⟩
  · rintro ⟨tail, htail⟩
    cases kind <;> simp [BlockKind.openTag, BlockKind.opening] at htail
  · exact BlockKind.not_openTag_prefix_variableTag hr' rest

/-- **No leaf stands where a branch ends**: a reserved word between dollars is none. -/
theorem BranchEnd.not_leaf (h : BranchEnd (text ++ rest)) : ¬Leaf text node rest := by
  intro hleaf
  rcases h with hnil | ⟨r, hr, hreserved, tail, htail⟩
  · cases hleaf with
    | run hne _ _ => exact hne (List.append_eq_nil_iff.mp hnil).1
    | dollar => cases hnil
    | interpolation _ _ => cases hnil
  · cases hleaf with
    | run hne hrun _ => exact Text.append_ne_dollar_cons hne hrun htail.symm
    | dollar => exact hr.variableTag_ne_doubled htail
    | interpolation hr' hreserved' =>
      obtain ⟨rfl, -⟩ := Reference.variableTag_append_inj hr hr' htail
      exact Bool.false_ne_true (hreserved'.symm.trans hreserved)

end Grammar

/-! ### Reading what stands there -/

namespace Parser

open Grammar (Leaf BranchEnd)

theorem openTag_eq_of_openTag {kind : BlockKind} {r : Reference} {rest : List Char} {s : Cursor}
    (hr : r.IsWritable) (hs : s.rest = kind.openTag r ++ rest) :
    ∃ t, openTag kind s = (some r, t) ∧ s.Reads (kind.openTag r) t := by
  rcases openTag_outcome kind s with ⟨r', t, ht, hst, hr'⟩ | ⟨_, _, _, hno⟩
  · obtain rfl := BlockKind.openTag_append_inj hr hr' (hs.symm.trans hst.rest)
    exact ⟨t, ht, hst⟩
  · exact absurd ⟨rest, hs.symm⟩ (hno r hr)

theorem openTag_eq_of_not_prefix {kind : BlockKind} {s : Cursor}
    (h : ∀ r : Reference, ¬kind.openTag r <+: s.rest) :
    ∃ t, openTag kind s = (none, t) ∧ s.Reads [] t := by
  rcases openTag_outcome kind s with ⟨r, t, _, hst, _⟩ | ⟨t, ht, hst, _⟩
  · exact absurd ⟨t.rest, hst.rest.symm⟩ (h r)
  · exact ⟨t, ht, hst⟩

/-- Plain text is read up to the next dollar. -/
theorem literalRun_outcome (s : Cursor) :
    (∃ run t, literalRun s = (some (String.ofList run), t) ∧ s.Reads run t ∧ run ≠ [] ∧
        '$' ∉ run ∧ Stops (· != '$') t.rest) ∨
      (literalRun s = (none, s) ∧ Stops (· != '$') s.rest) := by
  have hcut := List.takeWhile_append_dropWhile (p := (· != '$')) (l := s.rest)
  have hstop := Text.stops_dropWhile (· != '$') s.rest
  rw [literalRun]
  split
  next hrun =>
    rw [hrun, List.nil_append] at hcut
    exact Or.inr ⟨rfl, hcut ▸ hstop⟩
  next c cs hrun =>
    refine Or.inl ⟨c :: cs, _, rfl, .advance (by rw [← hrun, hcut]), List.cons_ne_nil c cs, ?_,
      hstop⟩
    intro hmem
    have hall := List.all_eq_true.mp (List.all_takeWhile (p := (· != '$')) (l := s.rest)) '$'
      (hrun ▸ hmem)
    exact absurd hall (by decide)

/-- A leaf is read exactly if one stands there. -/
theorem leaf_outcome (s : Cursor) :
    (∃ text node t, leaf s = (some node, t) ∧ s.Reads text t ∧ Leaf text node t.rest) ∨
      (∃ t, leaf s = (none, t) ∧ s.Reads [] t ∧
        ∀ text node rest, Leaf text node rest → s.rest ≠ text ++ rest) := by
  rw [leaf]
  rcases interpolation_outcome s with ⟨r, t, ht, hst, hr, hreserved⟩ | ⟨t, ht, hst, hnotag⟩
  · exact Or.inl ⟨_, _, t, by simp only [ht], hst, .interpolation hr hreserved⟩
  rcases eat_outcome ['$', '$'] t with ⟨u, hu, htu⟩ | ⟨u, hu, htu, hnodollars⟩
  · exact Or.inl ⟨_, _, u, by simp only [ht, hu], hst.trans htu, .dollar⟩
  rcases literalRun_outcome u with ⟨run, v, hv, huv, hne, hrun, hstop⟩ | ⟨hv, hstop⟩
  · exact Or.inl ⟨run, _, v, by simp only [ht, hu, hv], (hst.trans htu).trans huv,
      .run hne hrun hstop⟩
  · have hsu : s.Reads [] u := hst.trans htu
    refine Or.inr ⟨u, by simp only [ht, hu, hv], hsu, ?_⟩
    intro text node rest hleaf hs
    cases hleaf with
    | run hne hrun _ =>
      refine Text.not_stops_append hne (Text.bne_dollar_of_notMem hrun) rest ?_
      exact hs ▸ hsu.rest_of_nil ▸ hstop
    | dollar => exact hnodollars ⟨rest, hs.symm.trans hst.rest⟩
    | interpolation hr hreserved => exact hnotag _ hr hreserved ⟨rest, hs.symm⟩

theorem leaf_eq_of_leaf {text rest : List Char} {node : Node} {s : Cursor}
    (h : Leaf text node rest) (hs : s.rest = text ++ rest) :
    ∃ t, leaf s = (some node, t) ∧ s.Reads text t := by
  rcases leaf_outcome s with ⟨text', node', t, ht, hst, hleaf⟩ | ⟨_, _, _, hno⟩
  · obtain ⟨rfl, rfl⟩ := h.unique hleaf (hs.symm.trans hst.rest)
    exact ⟨t, ht, hst⟩
  · exact absurd hs (hno text node rest h)

theorem leaf_eq_of_branchEnd {s : Cursor} (h : BranchEnd s.rest) :
    ∃ t, leaf s = (none, t) ∧ s.Reads [] t := by
  rcases leaf_outcome s with ⟨text, node, t, _, hst, hleaf⟩ | ⟨t, ht, hst, _⟩
  · exact absurd hleaf (hst.rest ▸ h).not_leaf
  · exact ⟨t, ht, hst⟩

end Parser

end DocTemplate
