import DocTemplate.Proofs.Template.Lexeme

/-!
# Reading recognises the grammar

The parser returns nodes for a source exactly if the source derives them and their blocks are not
nested deeper than the limit (`Template.compile_eq_ok_iff`). Hence a source derives at most one list
of nodes (`Grammar.Derives.unique`).

Both directions are inductions on the number of steps that the reading of elements is given, and at
each step the reader of branches is that with one step less. So what is proved for the readers of
blocks takes a reader of branches with the property in question.

* **Soundness** (`PartReader.Sound`): what is read derives the nodes that are returned. Nothing has
  to be said about steps here. A reading that stops early has read less, but still derives it.
* **Completeness** (`PartReader.Complete`): a text that derives nodes is read if a place follows
  where a branch ends, and if it is shorter than the number of steps.

The reader of a block and the grammar take different ways to the line terminator after the opening
tag: the reader drops it and puts it back unless one follows the closing tag, while in the grammar
it is there or is not. `Grammar.DerivesParts.run_append` and its converse join the two ways.
-/

namespace DocTemplate

open Text (BeginsWithTerminator)
open Grammar (Derives DerivesElement DerivesContents DerivesParts BranchEnd)

/-! ### Joining behind -/

namespace Node

/-- Nodes behind others that are given last first, the literals that meet joined. -/
def rejoin : List Node → List Node → List Node
  | [], nodes => nodes
  | last :: before, nodes => before.reverse ++ cons last nodes

theorem rejoin_nil (before : List Node) : rejoin before [] = before.reverse := by
  cases before with
  | nil => rfl
  | cons last before => cases last <;> simp [rejoin, cons]

/-- A node added behind is a node put in front of what follows. -/
theorem rejoin_snoc (before : List Node) (node : Node) (nodes : List Node) :
    rejoin (snoc before node) nodes = rejoin before (cons node nodes) := by
  cases before with
  | nil => rfl
  | cons last before =>
    cases last with
    | literal previous =>
      cases node with
      | literal text => simp only [snoc, rejoin, cons_literal_cons_literal]
      | _ => simp [snoc, rejoin, cons]
    | _ => simp [snoc, rejoin]

end Node

/-! ### What a reading gives -/

namespace Cursor

/-- From one cursor to another an element is read, nested at most to a limit if this is not exceeded
already, or nothing is. -/
def ReadsElement (limit : Nat) (s : Cursor) : Option Node → Cursor → Prop
  | some node, t =>
    ∃ text, s.Reads text t ∧ DerivesElement text node t.rest ∧
      s.depth + node.depth ≤ max limit s.depth
  | none, t => s.Reads [] t

/-- From one cursor to another branches are read, in whatever sense they derive from a text with
another one behind it, or the reading fails somewhere on the way. -/
def ReadsParts (limit : Nat)
    (Derived : List Char → List Node → Option (List Node) → List Char → Prop) (s : Cursor) :
    Option Parser.Parts → Cursor → Prop
  | some (first, second), t =>
    ∃ text, s.Reads text t ∧ Derived text first second t.rest ∧
      s.depth + max (Node.depthAll first) (Node.depthSecond second) ≤ max limit s.depth
  | none, t => ∃ text, s.Reads text t

end Cursor

namespace Parser

variable {limit : Nat} {inner : PartReader} {kind : BlockKind} {s t : Cursor}

/-- The nodes read already only come before those that are read. -/
theorem elements_eq_map (limit steps : Nat) (before : List Node) (s : Cursor) :
    elements limit steps before s =
      (elements limit steps [] s).map fun result => (Node.rejoin before result.1, result.2) := by
  induction steps generalizing before s with
  | zero => simp only [elements, Except.map, Node.rejoin_nil, List.reverse_nil]
  | succ steps ih =>
    rw [elements, elements]
    rcases element limit (elements limit steps []) s with e | ⟨_ | node, t⟩
    · rfl
    · simp only [Except.map, Node.rejoin_nil, List.reverse_nil]
    · simp only [ih (Node.snoc before node), ih (Node.snoc [] node)]
      cases elements limit steps [] t with
      | error e => rfl
      | ok result =>
        simp only [Except.map, Node.rejoin_snoc]
        rfl

/-- Elements are an element and then elements. -/
theorem elements_succ_eq (limit steps : Nat) (s : Cursor) :
    elements limit (steps + 1) [] s =
      match element limit (elements limit steps []) s with
      | .error e => .error e
      | .ok (none, t) => .ok ([], t)
      | .ok (some node, t) =>
        (elements limit steps [] t).map fun result => (Node.cons node result.1, result.2) := by
  rw [elements]
  rcases element limit (elements limit steps []) s with e | ⟨_ | node, t⟩
  · rfl
  · rfl
  · exact elements_eq_map limit steps [node] t

/-! ### Soundness -/

/-- What a reader of branches reads derives the nodes it returns, and these are nested at most to
the limit, if this is not exceeded already. -/
def PartReader.Sound (limit : Nat) (inner : PartReader) : Prop :=
  ∀ s nodes t, inner s = .ok (nodes, t) →
    ∃ text, s.Reads text t ∧ Derives text nodes ∧
      s.depth + Node.depthAll nodes ≤ max limit s.depth

theorem parts_sound (hinner : inner.Sound limit) {parts? : Option Parts}
    (h : parts inner kind s = .ok (parts?, t)) :
    s.ReadsParts limit (fun text first second _ => DerivesParts kind text first second) parts? t := by
  rw [parts] at h
  split at h
  next => cases h
  next first t₁ hfirst =>
    obtain ⟨text, hst, hderives, hdepth⟩ := hinner s first t₁ hfirst
    rcases eat_outcome kind.middle t₁ with ⟨u, hu, htu⟩ | ⟨u, hu, htu, -⟩
    · simp only [hu] at h
      split at h
      next => cases h
      next second v hsecond =>
        obtain ⟨other, huv, hderives', hdepth'⟩ := hinner u second v hsecond
        have hsu := hst.trans htu
        have hsv := hsu.trans huv
        rcases eat_outcome kind.closing v with ⟨w, hw, hvw⟩ | ⟨w, hw, hvw, -⟩
        · simp only [hw] at h
          cases h
          refine ⟨_, hsv.trans hvw, .two hderives hderives', ?_⟩
          rw [hsu.depth] at hdepth'
          rw [Node.depthSecond]
          omega
        · simp only [hw] at h
          cases h
          exact ⟨_, hsv.trans hvw⟩
    · simp only [hu] at h
      have hsu := hst.trans htu
      rcases eat_outcome kind.closing u with ⟨v, hv, huv⟩ | ⟨v, hv, huv, -⟩
      · simp only [hv] at h
        cases h
        rw [List.append_nil] at hsu
        refine ⟨_, hsu.trans huv, .one hderives, ?_⟩
        rw [Node.depthSecond, Nat.max_zero]
        exact hdepth
      · simp only [hv] at h
        cases h
        exact ⟨_, hsu.trans huv⟩

theorem contents_sound (hinner : inner.Sound limit) {parts? : Option Parts}
    (h : contents inner kind s = .ok (parts?, t)) :
    s.ReadsParts limit (DerivesContents kind) parts? t := by
  rw [contents] at h
  by_cases hopened : BeginsWithTerminator s.rest
  · obtain ⟨opened, hterm, rest, hrest⟩ := hopened
    obtain ⟨t₁, ht₁, hst⟩ := eatTerminator_of_isTerminator hrest.symm hterm
    obtain ⟨c, cs, rfl⟩ := List.exists_cons_of_ne_nil hterm.ne_nil
    simp only [ht₁] at h
    split at h
    next => cases h
    next u hparts =>
      cases h
      obtain ⟨text, htu⟩ := parts_sound hinner hparts
      exact ⟨_, hst.trans htu⟩
    next first second u hparts =>
      obtain ⟨text, htu, hderives, hdepth⟩ := parts_sound hinner hparts
      rw [hst.depth] at hdepth
      have hsu := hst.trans htu
      by_cases hclosed : BeginsWithTerminator u.rest
      · obtain ⟨closed, hterm', rest', hrest'⟩ := hclosed
        obtain ⟨v, hv, huv⟩ := eatTerminator_of_isTerminator hrest'.symm hterm'
        obtain ⟨d, ds, rfl⟩ := List.exists_cons_of_ne_nil hterm'.ne_nil
        simp only [hv] at h
        cases h
        exact ⟨_, hsu.trans huv, .paired hterm hterm' hderives, hdepth⟩
      · -- the reader puts the terminator back into the first branch, and so does the grammar
        obtain ⟨v, hv, -⟩ := eatTerminator_of_not_beginsWithTerminator hclosed
        simp only [hv] at h
        cases h
        refine ⟨_, hsu, ?_, ?_⟩
        · exact .unpaired (fun hboth => hclosed hboth.2)
            (hderives.run_append hterm.ne_nil hterm.dollar_notMem)
        · rw [Node.depthAll_cons, Node.depth, Nat.zero_max]
          exact hdepth
  · obtain ⟨t₁, ht₁, hst⟩ := eatTerminator_of_not_beginsWithTerminator hopened
    simp only [ht₁] at h
    have hparts := parts_sound hinner h
    rcases parts? with _ | ⟨first, second⟩
    · obtain ⟨text, htu⟩ := hparts
      exact ⟨_, hst.trans htu⟩
    · obtain ⟨text, htu, hderives, hdepth⟩ := hparts
      rw [hst.depth] at hdepth
      have hsu : s.Reads text t := hst.trans htu
      refine ⟨text, hsu, .unpaired (fun hboth => ?_) hderives, hdepth⟩
      rw [hsu.rest] at hopened
      exact hopened (hboth.1.append t.rest)

theorem block_sound (hinner : inner.Sound limit) {node? : Option Node}
    (h : block limit inner kind s = .ok (node?, t)) : s.ReadsElement limit node? t := by
  rw [block] at h
  rcases openTag_outcome kind s with ⟨r, t₁, ht₁, hst, hr⟩ | ⟨t₁, ht₁, hst, -⟩
  · simp only [ht₁] at h
    split at h
    next => cases h
    next hlimit =>
      rw [hst.depth] at hlimit
      split at h
      next => cases h
      next first second u hcontents =>
        cases h
        obtain ⟨text, htu, hderives, hdepth⟩ := contents_sound hinner hcontents
        refine ⟨_, hst.trans htu.leave, .block hr hderives, ?_⟩
        rw [Node.depth_block]
        simp only [hst.depth] at hdepth
        omega
      next u hcontents =>
        cases h
        obtain ⟨text, htu⟩ := contents_sound hinner hcontents
        exact (hst.trans htu.leave).rewind
  · simp only [ht₁] at h
    cases h
    exact hst

theorem element_sound (hinner : inner.Sound limit) {node? : Option Node}
    (h : element limit inner s = .ok (node?, t)) : s.ReadsElement limit node? t := by
  rw [element] at h
  split at h
  next => cases h
  next node t₁ hblock =>
    cases h
    exact block_sound hinner hblock
  next t₁ hblock =>
    have hst : s.Reads [] t₁ := block_sound hinner hblock
    split at h
    next => cases h
    next node u hblock' =>
      cases h
      obtain ⟨text, htu, hderives, hdepth⟩ := block_sound hinner hblock'
      rw [hst.depth] at hdepth
      exact ⟨text, hst.trans htu, hderives, hdepth⟩
    next u hblock' =>
      have hsu : s.Reads [] u := hst.trans (block_sound hinner hblock')
      rcases leaf_outcome u with ⟨text, node, v, hv, huv, hleaf⟩ | ⟨v, hv, huv, -⟩
      · rw [hv] at h
        cases h
        refine ⟨text, hsu.trans huv, .leaf hleaf, ?_⟩
        rw [hleaf.depth_eq_zero]
        exact Nat.le_max_right limit s.depth
      · rw [hv] at h
        cases h
        exact hsu.trans huv

/-- **What is read derives the nodes that are returned.** -/
theorem elements_sound (limit steps : Nat) : PartReader.Sound limit (elements limit steps []) := by
  induction steps with
  | zero =>
    intro s nodes t h
    cases h
    exact ⟨[], .refl s, .nil, Nat.le_max_right limit s.depth⟩
  | succ steps ih =>
    intro s nodes t h
    rw [elements_succ_eq] at h
    split at h
    next => cases h
    next t₁ helement =>
      cases h
      exact ⟨[], element_sound ih helement, .nil, Nat.le_max_right limit s.depth⟩
    next node t₁ helement =>
      obtain ⟨text, hst, hderives, hdepth⟩ := element_sound ih helement
      cases hrest : elements limit steps [] t₁ with
      | error e =>
        rw [hrest] at h
        cases h
      | ok result =>
        obtain ⟨nodes', u⟩ := result
        rw [hrest] at h
        cases h
        obtain ⟨rest, htu, hderives', hdepth'⟩ := ih t₁ nodes' u hrest
        have hfront : rest <+: t₁.rest := ⟨u.rest, htu.rest.symm⟩
        refine ⟨text ++ rest, hst.trans htu, .cons (hderives.of_prefix hfront) hderives', ?_⟩
        rw [hst.depth] at hdepth'
        simp only [Node.depthAll_cons]
        omega

/-! ### Completeness -/

/-- A reader of branches reads every text that derives nodes, if it is shorter than a bound, if a
place follows where a branch ends, and if the nodes fit below the limit. -/
def PartReader.Complete (limit bound : Nat) (inner : PartReader) : Prop :=
  ∀ text nodes, Derives text nodes → text.length < bound →
    ∀ s after, s.rest = text ++ after → BranchEnd after →
      s.depth + Node.depthAll nodes ≤ limit → ∃ t, inner s = .ok (nodes, t) ∧ s.Reads text t

variable {bound : Nat} {text after rest : List Char} {node : Node} {first : List Node}
  {second : Option (List Node)}

theorem parts_complete (hinner : inner.Complete limit bound)
    (h : DerivesParts kind text first second) (hlength : text.length ≤ bound)
    (hs : s.rest = text ++ after)
    (hdepth : s.depth + max (Node.depthAll first) (Node.depthSecond second) ≤ limit) :
    ∃ t, parts inner kind s = .ok (some (first, second), t) ∧ s.Reads text t := by
  have hclosing : 0 < kind.closing.length := by cases kind <;> decide
  cases h with
  | @one _ front _ hfirst =>
    rw [List.append_assoc] at hs
    simp only [List.length_append, Node.depthSecond, Nat.max_zero] at hlength hdepth
    obtain ⟨t, ht, hst⟩ := hinner front first hfirst (by omega) s _ hs
      (Grammar.branchEnd_closing kind after) hdepth
    have hrest : t.rest = kind.closing ++ after := hst.rest_eq hs
    obtain ⟨u, hu, htu⟩ := eat_of_not_prefix (hrest ▸ kind.not_middle_prefix_closing after)
    obtain ⟨v, hv, huv⟩ := eat_of_prefix (htu.rest_of_nil.trans hrest)
    have hsu : s.Reads front u := by simpa using hst.trans htu
    exact ⟨v, by simp only [parts, ht, hu, hv], hsu.trans huv⟩
  | @two _ front other _ second hfirst hsecond =>
    simp only [List.append_assoc] at hs
    simp only [List.length_append, Node.depthSecond] at hlength hdepth
    obtain ⟨t, ht, hst⟩ := hinner front first hfirst (by omega) s _ hs
      (Grammar.branchEnd_middle kind _) (by omega)
    obtain ⟨u, hu, htu⟩ := eat_of_prefix (hst.rest_eq hs)
    have hsu := hst.trans htu
    obtain ⟨v, hv, huv⟩ := hinner other second hsecond (by omega) u (kind.closing ++ after)
      (hsu.rest_eq (by rw [hs]; simp)) (Grammar.branchEnd_closing kind after)
      (by rw [hsu.depth]; omega)
    have hsv := hsu.trans huv
    have hrest : v.rest = kind.closing ++ after := hsv.rest_eq (by rw [hs]; simp)
    obtain ⟨w, hw, hvw⟩ := eat_of_prefix hrest
    exact ⟨w, by simp only [parts, ht, hu, hv, hw], hsv.trans hvw⟩

theorem contents_complete (hinner : inner.Complete limit bound)
    (h : DerivesContents kind text first second rest) (hlength : text.length ≤ bound)
    (hs : s.rest = text ++ rest)
    (hdepth : s.depth + max (Node.depthAll first) (Node.depthSecond second) ≤ limit) :
    ∃ t, contents inner kind s = .ok (some (first, second), t) ∧ s.Reads text t := by
  cases h with
  | @paired _ opened text closed _ _ _ hopened hclosed hparts =>
    simp only [List.append_assoc] at hs
    simp only [List.length_append] at hlength
    obtain ⟨t, ht, hst⟩ := eatTerminator_of_isTerminator hs hopened
    obtain ⟨u, hu, htu⟩ := parts_complete hinner hparts (by omega) (hst.rest_eq hs)
      (by rw [hst.depth]; exact hdepth)
    have hsu := hst.trans htu
    have hrest : u.rest = closed ++ rest := hsu.rest_eq (by rw [hs]; simp)
    obtain ⟨v, hv, huv⟩ := eatTerminator_of_isTerminator hrest hclosed
    obtain ⟨c, cs, rfl⟩ := List.exists_cons_of_ne_nil hopened.ne_nil
    obtain ⟨d, ds, rfl⟩ := List.exists_cons_of_ne_nil hclosed.ne_nil
    exact ⟨v, by simp only [contents, ht, hu, hv], hsu.trans huv⟩
  | unpaired hnot hparts =>
    by_cases hopened : BeginsWithTerminator text
    · -- the terminator is dropped, found without a partner, and put back
      have hclosed : ¬BeginsWithTerminator rest := fun hrest => hnot ⟨hopened, hrest⟩
      obtain ⟨opened, hterm, tail, rfl⟩ := hopened
      obtain ⟨first', hparts', rfl⟩ := hparts.of_run_append hterm.ne_nil hterm.dollar_notMem
      rw [List.append_assoc] at hs
      rw [List.length_append] at hlength
      rw [Node.depthAll_cons, Node.depth, Nat.zero_max] at hdepth
      obtain ⟨t, ht, hst⟩ := eatTerminator_of_isTerminator hs hterm
      obtain ⟨u, hu, htu⟩ := parts_complete hinner hparts' (by omega) (hst.rest_eq hs)
        (by rw [hst.depth]; exact hdepth)
      have hsu := hst.trans htu
      have hrest : u.rest = rest := hsu.rest_eq (by rw [hs]; simp)
      obtain ⟨v, hv, -⟩ := eatTerminator_of_not_beginsWithTerminator (hrest ▸ hclosed)
      obtain ⟨c, cs, rfl⟩ := List.exists_cons_of_ne_nil hterm.ne_nil
      exact ⟨u, by simp only [contents, ht, hu, hv], hsu⟩
    · have hs' : ¬BeginsWithTerminator s.rest := fun hterm =>
        hopened (hparts.beginsWithTerminator_of_append (hs ▸ hterm))
      obtain ⟨t, ht, hst⟩ := eatTerminator_of_not_beginsWithTerminator hs'
      obtain ⟨u, hu, htu⟩ := parts_complete hinner hparts hlength (hst.rest_of_nil.trans hs)
        (by rw [hst.depth]; exact hdepth)
      exact ⟨u, by simp only [contents, ht, hu], hst.trans htu⟩

/-- A block of another kind, or none, is no block. -/
theorem block_eq_of_not_prefix (limit : Nat) (inner : PartReader)
    (h : ∀ r : Reference, ¬kind.openTag r <+: s.rest) :
    ∃ t, block limit inner kind s = .ok (none, t) ∧ s.Reads [] t := by
  obtain ⟨t, ht, hst⟩ := openTag_eq_of_not_prefix h
  exact ⟨t, by simp only [block, ht], hst⟩

theorem block_complete (hinner : inner.Complete limit bound) {r : Reference} (hr : r.IsWritable)
    (h : DerivesContents kind text first second rest) (hlength : text.length ≤ bound)
    (hs : s.rest = kind.openTag r ++ text ++ rest)
    (hdepth : s.depth + (Node.block kind r first second).depth ≤ limit) :
    ∃ t, block limit inner kind s = .ok (some (.block kind r first second), t) ∧
      s.Reads (kind.openTag r ++ text) t := by
  rw [List.append_assoc] at hs
  rw [Node.depth_block] at hdepth
  obtain ⟨t, ht, hst⟩ := openTag_eq_of_openTag hr hs
  have hdeptht : t.depth = s.depth := hst.depth
  have hlimit : ¬limit ≤ t.depth := by omega
  obtain ⟨u, hu, htu⟩ := contents_complete (s := { t with depth := t.depth + 1 }) hinner h hlength
    (hst.rest_eq hs) (by simp only; omega)
  exact ⟨_, by simp only [block, ht, if_neg hlimit, hu], hst.trans htu.leave⟩

theorem element_complete (hinner : inner.Complete limit bound) (h : DerivesElement text node rest)
    (hlength : text.length ≤ bound) (hs : s.rest = text ++ rest)
    (hdepth : s.depth + node.depth ≤ limit) :
    ∃ t, element limit inner s = .ok (some node, t) ∧ s.Reads text t := by
  cases h with
  | leaf hleaf =>
    obtain ⟨t, ht, hst⟩ := block_eq_of_not_prefix limit inner
      fun r => hs ▸ hleaf.not_openTag .conditional r
    have ht' : t.rest = text ++ rest := hst.rest_of_nil.trans hs
    obtain ⟨u, hu, htu⟩ := block_eq_of_not_prefix limit inner
      fun r => ht' ▸ hleaf.not_openTag .loop r
    obtain ⟨v, hv, huv⟩ := leaf_eq_of_leaf hleaf (htu.rest_of_nil.trans ht')
    exact ⟨v, by simp only [element, ht, hu, hv], (hst.trans htu).trans huv⟩
  | @block kind r text _ _ _ hr hcontents =>
    rw [List.length_append] at hlength
    cases kind with
    | conditional =>
      obtain ⟨t, ht, hst⟩ := block_complete hinner hr hcontents (by omega) hs hdepth
      exact ⟨t, by simp only [element, ht], hst⟩
    | loop =>
      -- the reader looks for a conditional first
      have hno : ∀ r' : Reference, ¬BlockKind.conditional.openTag r' <+: s.rest := by
        intro r'
        rw [hs, List.append_assoc]
        exact BlockKind.not_openTag_prefix_openTag (by decide) r' r (text ++ rest)
      obtain ⟨t, ht, hst⟩ := block_eq_of_not_prefix limit inner hno
      obtain ⟨u, hu, htu⟩ := block_complete hinner hr hcontents (by omega)
        (hst.rest_of_nil.trans hs) (by rw [hst.depth]; exact hdepth)
      exact ⟨u, by simp only [element, ht, hu], hst.trans htu⟩

/-- Where a branch ends there is no element. -/
theorem element_eq_of_branchEnd (limit : Nat) (inner : PartReader) (h : BranchEnd s.rest) :
    ∃ t, element limit inner s = .ok (none, t) ∧ s.Reads [] t := by
  obtain ⟨t, ht, hst⟩ := block_eq_of_not_prefix limit inner fun r => h.not_openTag .conditional r
  have ht' : BranchEnd t.rest := hst.rest_of_nil ▸ h
  obtain ⟨u, hu, htu⟩ := block_eq_of_not_prefix limit inner fun r => ht'.not_openTag .loop r
  obtain ⟨v, hv, huv⟩ := leaf_eq_of_branchEnd (htu.rest_of_nil ▸ ht')
  exact ⟨v, by simp only [element, ht, hu, hv], (hst.trans htu).trans huv⟩

/-- **A text that derives nodes is read**, and these nodes are returned. -/
theorem elements_complete (limit steps : Nat) :
    PartReader.Complete limit steps (elements limit steps []) := by
  induction steps with
  | zero =>
    intro text nodes _ hlength
    omega
  | succ steps ih =>
    intro text nodes h hlength s after hs hafter hdepth
    cases h with
    | nil =>
      obtain ⟨t, ht, hst⟩ := element_eq_of_branchEnd limit (elements limit steps [])
        (show BranchEnd s.rest from hs ▸ hafter)
      exact ⟨t, by simp only [elements_succ_eq, ht], hst⟩
    | @cons text rest node nodes helement hrest =>
      rw [List.append_assoc] at hs
      rw [List.length_append] at hlength
      rw [Node.depthAll_cons] at hdepth
      -- an element takes a character at least, so one step less is enough for the rest
      have hpos : 0 < text.length := List.length_pos_iff.mpr helement.ne_nil
      obtain ⟨t, ht, hst⟩ := element_complete ih (helement.append hafter.stops) (by omega) hs
        (by omega)
      obtain ⟨u, hu, htu⟩ := ih rest nodes hrest (by omega) t after (hst.rest_eq hs) hafter
        (by rw [hst.depth]; omega)
      exact ⟨u, by simp only [elements_succ_eq, ht, hu, Except.map], hst.trans htu⟩

end Parser

/-! ### Compiling -/

namespace Template

/-- **A source compiles to a template exactly if it derives its nodes**, and these are nested at
most to the limit. -/
theorem compile_eq_ok_iff {source : String} {limit : Nat} {t : Template} :
    compile source limit = .ok t ↔ Derives source.toList t.nodes ∧ t.depth ≤ limit := by
  rw [compile]
  constructor
  · intro h
    split at h
    next => cases h
    next nodes s hread =>
      split at h
      next hrest =>
        cases h
        obtain ⟨text, hst, hderives, hdepth⟩ := Parser.elements_sound _ _ _ _ _ hread
        have htext : source.toList = text := by
          simpa [Cursor.start, hrest] using hst.rest
        refine ⟨htext ▸ hderives, ?_⟩
        simpa [Cursor.start, depth] using hdepth
      next => cases h
  · rintro ⟨hderives, hdepth⟩
    obtain ⟨s, hs, hst⟩ := Parser.elements_complete limit (source.toList.length + 1) _ _ hderives
      (Nat.lt_succ_self _) (Cursor.start source.toList) [] (List.append_nil _).symm
      Grammar.branchEnd_nil (by simpa [Cursor.start, depth] using hdepth)
    have hrest : s.rest = [] := hst.rest_eq (List.append_nil _).symm
    simp only [hs, hrest]

end Template

/-- **A text derives one list of nodes**: reading it with a limit that admits two of them returns
both. -/
theorem Grammar.Derives.unique {text : List Char} {nodes nodes' : List Node}
    (h : Derives text nodes) (h' : Derives text nodes') : nodes = nodes' := by
  have hcompile : ∀ {nodes : List Node} {limit : Nat}, Derives text nodes →
      Node.depthAll nodes ≤ limit →
        Template.compile (String.ofList text) limit = .ok ⟨nodes⟩ := by
    intro nodes limit hderives hdepth
    refine Template.compile_eq_ok_iff.mpr ⟨?_, hdepth⟩
    rw [String.toList_ofList]
    exact hderives
  have hboth := (hcompile h (Nat.le_max_left _ (Node.depthAll nodes'))).symm.trans
    (hcompile h' (Nat.le_max_right (Node.depthAll nodes) _))
  exact congrArg Template.nodes (Except.ok.inj hboth)

/-- **Compiling is recognising the grammar.** The templates that a source compiles to under a limit
are those whose nodes it derives and whose blocks are nested at most to the limit, and there is at
most one list of nodes that a source derives. -/
theorem Template.compile_recognises (source : String) (limit : Nat) :
    (∀ t : Template, compile source limit = .ok t ↔
        Derives source.toList t.nodes ∧ t.depth ≤ limit) ∧
      ∀ nodes nodes', Derives source.toList nodes → Derives source.toList nodes' →
        nodes = nodes' :=
  ⟨fun _ => compile_eq_ok_iff, fun _ _ h h' => h.unique h'⟩

end DocTemplate
