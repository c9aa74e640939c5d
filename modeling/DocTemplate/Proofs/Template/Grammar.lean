import DocTemplate.Proofs.Text.Run
import DocTemplate.Template.Basic
import DocTemplate.Text.Name

/-!
# The grammar of templates

Which texts are templates, and with which nodes, without a word about how they are read. A text or a
branch of a block derives nodes (`Derives`) if it is made of elements one after the other; an
element (`DerivesElement`) is a leaf or a block; what follows the opening tag of a block
(`DerivesContents`) is its branches (`DerivesParts`), perhaps between line terminators.

Two conditions look at the text that follows.

* A run of plain text goes up to the next dollar. Were it allowed to stop earlier, a text would have
  many derivations, though all with the same nodes: literals that meet are joined (`Node.cons`).
* A block takes the line terminators after its opening and its closing tag with it if **both** are
  there. If one is missing the other stays: after the opening tag it begins the first branch, after
  the closing tag it begins the text behind the block.

The text behind a block is that of the branch the block stands in. This is enough to decide about
the terminator after the closing tag, since a branch is followed by a tag, which begins with a
dollar (`DerivesElement.append`).

What the parser relies on is `Derives.of_run_append` with its converse `Derives.run_append`: plain
text in front of a text adds a literal in front of its nodes and does nothing else. It is why the
parser can read a branch without its first terminator and put the terminator back afterwards.
-/

namespace DocTemplate

open Text (Stops IsTerminator BeginsWithTerminator isNameChar)

/-! ### The texts of references and tags -/

/-- A text that can stand for a component of a reference. -/
def Text.IsName (name : String) : Prop :=
  name ≠ "" ∧ ∀ c ∈ name.toList, isNameChar c = true

instance (name : String) : Decidable (Text.IsName name) :=
  -- the characters of the name are checked, not all characters there are
  have := List.decidableBAll (fun c => isNameChar c = true) name.toList
  inferInstanceAs (Decidable (_ ∧ _))

namespace Reference

/-- A reference that can be written in a template: each of its components is a name. -/
def IsWritable (r : Reference) : Prop :=
  ∀ name ∈ r.components, Text.IsName name

instance (r : Reference) : Decidable r.IsWritable := inferInstanceAs (Decidable (∀ _ ∈ _, _))

/-- The written form of a reference. -/
def chars (r : Reference) : List Char :=
  r.display.toList

/-- The written form of a variable. -/
def variableTag (r : Reference) : List Char :=
  '$' :: r.chars ++ ['$']

end Reference

namespace BlockKind

/-- The written form of the opening tag of a block. -/
def openTag (kind : BlockKind) (r : Reference) : List Char :=
  kind.opening ++ r.chars ++ [')', '$']

theorem openTag_stops (kind : BlockKind) (r : Reference) (text : List Char) :
    Stops (· != '$') (kind.openTag r ++ text) := by
  cases kind <;> rfl

theorem middle_stops (kind : BlockKind) (text : List Char) :
    Stops (· != '$') (kind.middle ++ text) := by
  cases kind <;> rfl

theorem closing_stops (kind : BlockKind) (text : List Char) :
    Stops (· != '$') (kind.closing ++ text) := by
  cases kind <;> rfl

end BlockKind

/-! ### Derivations -/

namespace Grammar

/-- A text, followed by another one, is an element without parts. -/
inductive Leaf : List Char → Node → List Char → Prop
  /-- Plain text up to the next dollar is a literal. -/
  | run {run rest : List Char} (hne : run ≠ []) (hrun : '$' ∉ run) (hstop : Stops (· != '$') rest) :
      Leaf run (.literal (String.ofList run)) rest
  /-- A doubled dollar is a literal dollar. -/
  | dollar {rest : List Char} : Leaf ['$', '$'] (.literal "$") rest
  /-- A reference between dollars is a variable, unless it begins with a reserved word. -/
  | interpolation {r : Reference} {rest : List Char} (hr : r.IsWritable)
      (hreserved : r.isReserved = false) : Leaf r.variableTag (.interpolation r) rest

mutual

/-- A text derives nodes: it is elements one after the other, with neighbouring literals joined. -/
inductive Derives : List Char → List Node → Prop
  | nil : Derives [] []
  | cons {text rest : List Char} {node : Node} {nodes : List Node}
      (helement : DerivesElement text node rest) (hrest : Derives rest nodes) :
      Derives (text ++ rest) (Node.cons node nodes)

/-- A text, followed by another one, derives an element. -/
inductive DerivesElement : List Char → Node → List Char → Prop
  | leaf {text rest : List Char} {node : Node} (hleaf : Leaf text node rest) :
      DerivesElement text node rest
  /-- An opening tag with what belongs to it is a block. Its reference may begin with a reserved
  word. -/
  | block {kind : BlockKind} {r : Reference} {text rest : List Char} {first : List Node}
      {second : Option (List Node)} (hr : r.IsWritable)
      (hcontents : DerivesContents kind text first second rest) :
      DerivesElement (kind.openTag r ++ text) (.block kind r first second) rest

/-- A text after the opening tag of a block, followed by another one, derives the branches of the
block. -/
inductive DerivesContents :
    BlockKind → List Char → List Node → Option (List Node) → List Char → Prop
  /-- The terminators after both outer tags go with the block. -/
  | paired {kind : BlockKind} {opened text closed rest : List Char} {first : List Node}
      {second : Option (List Node)} (hopened : IsTerminator opened) (hclosed : IsTerminator closed)
      (hparts : DerivesParts kind text first second) :
      DerivesContents kind (opened ++ text ++ closed) first second rest
  /-- Unless both are there, neither does. -/
  | unpaired {kind : BlockKind} {text rest : List Char} {first : List Node}
      {second : Option (List Node)}
      (hnot : ¬(BeginsWithTerminator text ∧ BeginsWithTerminator rest))
      (hparts : DerivesParts kind text first second) : DerivesContents kind text first second rest

/-- A text that ends with the closing tag of a block derives the branches of the block. -/
inductive DerivesParts : BlockKind → List Char → List Node → Option (List Node) → Prop
  | one {kind : BlockKind} {text : List Char} {first : List Node} (hfirst : Derives text first) :
      DerivesParts kind (text ++ kind.closing) first none
  | two {kind : BlockKind} {text other : List Char} {first second : List Node}
      (hfirst : Derives text first) (hsecond : Derives other second) :
      DerivesParts kind (text ++ kind.middle ++ other ++ kind.closing) first (some second)

end

end Grammar

/-! ### Joining literals -/

namespace Node

@[simp] theorem cons_interpolation (r : Reference) (nodes : List Node) :
    cons (.interpolation r) nodes = .interpolation r :: nodes := rfl

@[simp] theorem cons_block (kind : BlockKind) (r : Reference) (first : List Node)
    (second : Option (List Node)) (nodes : List Node) :
    cons (.block kind r first second) nodes = .block kind r first second :: nodes := rfl

/-- Literals put in front one after the other are one literal. -/
theorem cons_literal_cons_literal (a b : String) (nodes : List Node) :
    cons (.literal a) (cons (.literal b) nodes) = cons (.literal (a ++ b)) nodes := by
  cases nodes with
  | nil => rfl
  | cons node rest =>
    cases node with
    | literal text => simp only [cons, String.append_assoc]
    | _ => rfl

theorem depthAll_cons (node : Node) (nodes : List Node) :
    depthAll (cons node nodes) = max node.depth (depthAll nodes) := by
  cases node with
  | literal text =>
    cases nodes with
    | nil => rfl
    | cons next rest =>
      cases next with
      | literal _ => simp only [cons, depthAll, depth, Nat.zero_max]
      | _ => rfl
  | _ => rfl

/-- How deep blocks are nested in a branch that may be missing. -/
def depthSecond : Option (List Node) → Nat
  | none => 0
  | some second => depthAll second

theorem depth_block (kind : BlockKind) (r : Reference) (first : List Node)
    (second : Option (List Node)) :
    (block kind r first second).depth = 1 + max (depthAll first) (depthSecond second) := by
  cases second with
  | none => rw [depth, depthSecond, Nat.max_zero]
  | some second => rw [depth, depthSecond]

end Node

namespace Grammar

variable {run text rest : List Char} {node : Node} {nodes : List Node} {kind : BlockKind}
  {first : List Node} {second : Option (List Node)}

/-! ### What follows an element

An element depends on the text behind it only in what stands at its front (`Resembles`), so that the
text may break off anywhere (`of_prefix`) and may go on with a tag (`append`). -/

/-- A text can take the place of another one behind an element: it begins with a dollar or not at
all if the other does, and it does not begin with a line terminator unless the other does. -/
structure Resembles (text other : List Char) : Prop where
  stops : Stops (· != '$') other → Stops (· != '$') text
  terminator : BeginsWithTerminator text → BeginsWithTerminator other

theorem Resembles.of_prefix {front : List Char} (h : front <+: text) : Resembles front text where
  stops := fun hstops => hstops.of_prefix h
  terminator := fun hterm => by
    obtain ⟨tail, rfl⟩ := h
    exact hterm.append tail

theorem Resembles.append (text : List Char) {after : List Char} (h : Stops (· != '$') after) :
    Resembles (text ++ after) text where
  stops := fun hstops => hstops.append h
  terminator := fun hterm => hterm.of_append h

theorem Leaf.of_resembles (h : Leaf text node rest) {other : List Char}
    (hother : Resembles other rest) : Leaf text node other := by
  cases h with
  | run hne hrun hstop => exact .run hne hrun (hother.stops hstop)
  | dollar => exact .dollar
  | interpolation hr hreserved => exact .interpolation hr hreserved

theorem Leaf.depth_eq_zero (h : Leaf text node rest) : node.depth = 0 := by
  cases h <;> rw [Node.depth]

theorem DerivesContents.of_resembles (h : DerivesContents kind text first second rest)
    {other : List Char} (hother : Resembles other rest) :
    DerivesContents kind text first second other := by
  cases h with
  | paired hopened hclosed hparts => exact .paired hopened hclosed hparts
  | unpaired hnot hparts =>
    exact .unpaired (fun ⟨hopened, hclosed⟩ => hnot ⟨hopened, hother.terminator hclosed⟩) hparts

theorem DerivesElement.of_resembles (h : DerivesElement text node rest) {other : List Char}
    (hother : Resembles other rest) : DerivesElement text node other := by
  cases h with
  | leaf hleaf => exact .leaf (hleaf.of_resembles hother)
  | block hr hcontents => exact .block hr (hcontents.of_resembles hother)

theorem DerivesElement.of_prefix (h : DerivesElement text node rest) {front : List Char}
    (hfront : front <+: rest) : DerivesElement text node front :=
  h.of_resembles (Resembles.of_prefix hfront)

theorem DerivesElement.append (h : DerivesElement text node rest) {after : List Char}
    (hafter : Stops (· != '$') after) : DerivesElement text node (rest ++ after) :=
  h.of_resembles (.append rest hafter)

theorem DerivesElement.ne_nil (h : DerivesElement text node rest) : text ≠ [] := by
  cases h with
  | leaf hleaf =>
    cases hleaf with
    | run hne _ _ => exact hne
    | dollar => exact List.cons_ne_nil _ _
    | interpolation _ _ => exact List.cons_ne_nil _ _
  | @block kind _ _ _ _ _ _ _ => cases kind <;> exact List.cons_ne_nil _ _

/-- Whether branches begin with a line terminator does not depend on what follows them. -/
theorem DerivesParts.beginsWithTerminator_of_append (h : DerivesParts kind text first second)
    (hterm : BeginsWithTerminator (text ++ rest)) : BeginsWithTerminator text := by
  cases h with
  | @one _ front _ _ =>
    rw [List.append_assoc] at hterm
    exact (hterm.of_append (kind.closing_stops rest)).append kind.closing
  | @two _ front other _ _ _ _ =>
    simp only [List.append_assoc] at hterm ⊢
    exact (hterm.of_append (kind.middle_stops _)).append _

/-! ### Plain text in front of a derivation -/

/-- An element is a run of plain text, or else begins with a dollar. -/
theorem DerivesElement.run_or_stops (h : DerivesElement text node rest) :
    (node = .literal (String.ofList text) ∧ '$' ∉ text ∧ Stops (· != '$') rest) ∨
      ∀ after, Stops (· != '$') (text ++ after) := by
  cases h with
  | leaf hleaf =>
    cases hleaf with
    | run _ hrun hstop => exact Or.inl ⟨rfl, hrun, hstop⟩
    | dollar => exact Or.inr fun after => rfl
    | interpolation _ _ => exact Or.inr fun after => rfl
  | @block kind r text rest _ _ _ _ =>
    refine Or.inr fun after => ?_
    rw [List.append_assoc]
    exact kind.openTag_stops r (text ++ after)

/-- **Plain text in front of a text adds a literal in front of its nodes.** It joins the run that
the text begins with, if it does begin with one. -/
theorem Derives.run_append (h : Derives text nodes) (hne : run ≠ []) (hrun : '$' ∉ run) :
    Derives (run ++ text) (Node.cons (.literal (String.ofList run)) nodes) := by
  cases h with
  | nil => exact .cons (.leaf (.run hne hrun trivial)) .nil
  | @cons text rest node nodes helement hrest =>
    rcases helement.run_or_stops with ⟨rfl, htext, hstop⟩ | hdollar
    · -- the two runs are one
      rw [Node.cons_literal_cons_literal, ← String.ofList_append, ← List.append_assoc]
      refine .cons (.leaf (.run (by simp [hne]) ?_ hstop)) hrest
      exact fun hmem => (List.mem_append.mp hmem).elim hrun htext
    · exact .cons (.leaf (.run hne hrun (hdollar rest))) (.cons helement hrest)

/-- Conversely, it can be taken away again, with the literal. -/
theorem Derives.of_run_append (h : Derives (run ++ text) nodes) (hne : run ≠ [])
    (hrun : '$' ∉ run) :
    ∃ nodes', Derives text nodes' ∧ nodes = Node.cons (.literal (String.ofList run)) nodes' := by
  have hstart : ¬Stops (· != '$') (run ++ text) :=
    Text.not_stops_append hne (Text.bne_dollar_of_notMem hrun) text
  generalize hwhole : run ++ text = whole at h hstart
  cases h with
  | nil => exact absurd trivial hstart
  | @cons run' rest node nodes helement hrest =>
    rcases helement.run_or_stops with ⟨rfl, hrun', hstop⟩ | hdollar
    · -- the run that the derivation begins with does not stop before the dollar
      obtain ⟨tail, rfl⟩ : run <+: run' :=
        Text.prefix_of_prefix_append hrun hstop (hwhole ▸ List.prefix_append run text)
      obtain rfl : text = tail ++ rest := by simpa using hwhole
      cases tail with
      | nil => exact ⟨nodes, hrest, by rw [List.append_nil]⟩
      | cons c tail =>
        refine ⟨_, .cons (.leaf (.run (List.cons_ne_nil c tail) ?_ hstop)) hrest, ?_⟩
        · exact fun hmem => hrun' (List.mem_append_right run hmem)
        · rw [Node.cons_literal_cons_literal, String.ofList_append]
    · exact absurd (hdollar rest) hstart

/-- Plain text in front of the branches of a block belongs to the first. -/
theorem DerivesParts.run_append (h : DerivesParts kind text first second) (hne : run ≠ [])
    (hrun : '$' ∉ run) :
    DerivesParts kind (run ++ text) (Node.cons (.literal (String.ofList run)) first) second := by
  cases h with
  | one hfirst =>
    rw [← List.append_assoc]
    exact .one (hfirst.run_append hne hrun)
  | two hfirst hsecond =>
    simp only [← List.append_assoc]
    exact .two (hfirst.run_append hne hrun) hsecond

theorem DerivesParts.of_run_append (h : DerivesParts kind (run ++ text) first second)
    (hne : run ≠ []) (hrun : '$' ∉ run) :
    ∃ first', DerivesParts kind text first' second ∧
      first = Node.cons (.literal (String.ofList run)) first' := by
  generalize hwhole : run ++ text = whole at h
  cases h with
  | @one _ front first hfirst =>
    obtain ⟨tail, rfl⟩ : run <+: front := by
      refine Text.prefix_of_prefix_append hrun (kind.closing_stops []) ?_
      rw [List.append_nil, ← hwhole]
      exact List.prefix_append run text
    obtain rfl : text = tail ++ kind.closing := by simpa using hwhole
    obtain ⟨first', hfirst', rfl⟩ := hfirst.of_run_append hne hrun
    exact ⟨first', .one hfirst', rfl⟩
  | @two _ front other first second hfirst hsecond =>
    simp only [List.append_assoc] at hwhole
    obtain ⟨tail, rfl⟩ : run <+: front :=
      Text.prefix_of_prefix_append hrun (kind.middle_stops (other ++ kind.closing))
        (hwhole ▸ List.prefix_append run text)
    obtain rfl : text = tail ++ (kind.middle ++ (other ++ kind.closing)) := by simpa using hwhole
    obtain ⟨first', hfirst', rfl⟩ := hfirst.of_run_append hne hrun
    refine ⟨first', ?_, rfl⟩
    simpa only [List.append_assoc] using DerivesParts.two hfirst' hsecond

end Grammar

end DocTemplate
