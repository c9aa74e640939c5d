import DocTemplate.Proofs.Template.Recognition

/-!
# Printing templates

A template can be written back (`Template.written`): a literal with its dollars doubled, a variable
between dollars, a block with a line feed after its opening and after its closing tag. **Compiling
what is written gives the template again** (`Template.compile_written`), provided that it is
canonical (`Template.IsCanonical`): no literal is empty or next to another one, and references can
be written.

No care has to be taken about what a node is written next to. A doubled dollar in front of a tag and
a literal that begins with a line feed behind a block look as if they could be read otherwise, but
they derive what they were written for (`Grammar.Derives.doubleDollars_append`), and a text derives
one list of nodes only.
-/

namespace DocTemplate

open Grammar (Derives DerivesParts)

/-! ### Canonical nodes -/

namespace Node

/-- Whether a node and the first of the nodes after it are both literals. -/
def meets : Node → List Node → Bool
  | literal _, literal _ :: _ => true
  | _, _ => false

/-- Where no literals meet, putting a node in front joins nothing. -/
theorem cons_of_not_meets {node : Node} {nodes : List Node} (h : meets node nodes = false) :
    cons node nodes = node :: nodes := by
  cases node with
  | literal text =>
    cases nodes with
    | nil => rfl
    | cons next rest =>
      cases next with
      | literal _ => cases h
      | _ => rfl
  | _ => rfl

mutual

/-- A canonical node has a text if it is a literal, and otherwise a reference that can be written,
which for a variable does not begin with a reserved word. The nodes in it are canonical as well. -/
def IsCanonical : Node → Prop
  | literal text => text ≠ ""
  | interpolation r => r.IsWritable ∧ r.isReserved = false
  | block _ r first none => r.IsWritable ∧ AllCanonical first
  | block _ r first (some second) => r.IsWritable ∧ AllCanonical first ∧ AllCanonical second

/-- Nodes are canonical if each of them is and no two literals are neighbours. -/
def AllCanonical : List Node → Prop
  | [] => True
  | node :: rest => IsCanonical node ∧ meets node rest = false ∧ AllCanonical rest

end

mutual

/-- Whether a node is canonical can be computed. -/
def decidableIsCanonical : (node : Node) → Decidable (IsCanonical node)
  | literal text => inferInstanceAs (Decidable (text ≠ ""))
  | interpolation r => inferInstanceAs (Decidable (r.IsWritable ∧ r.isReserved = false))
  | block _ r first none =>
    have := decidableAllCanonical first
    inferInstanceAs (Decidable (r.IsWritable ∧ AllCanonical first))
  | block _ r first (some second) =>
    have := decidableAllCanonical first
    have := decidableAllCanonical second
    inferInstanceAs (Decidable (r.IsWritable ∧ AllCanonical first ∧ AllCanonical second))

/-- Whether nodes are canonical can be computed. -/
def decidableAllCanonical : (nodes : List Node) → Decidable (AllCanonical nodes)
  | [] => inferInstanceAs (Decidable True)
  | node :: rest =>
    have := decidableIsCanonical node
    have := decidableAllCanonical rest
    inferInstanceAs (Decidable (IsCanonical node ∧ meets node rest = false ∧ AllCanonical rest))

end

instance (nodes : List Node) : Decidable (AllCanonical nodes) := decidableAllCanonical nodes

end Node

namespace Template

/-- A template is canonical if its nodes are. -/
def IsCanonical (t : Template) : Prop :=
  Node.AllCanonical t.nodes

instance (t : Template) : Decidable t.IsCanonical :=
  inferInstanceAs (Decidable (Node.AllCanonical t.nodes))

end Template

/-! ### Writing -/

/-- A character, doubled if it is a dollar. -/
def Template.doubleDollar (c : Char) : List Char :=
  if c = '$' then ['$', '$'] else [c]

/-- A text with its dollars doubled. -/
def Template.doubleDollars (text : List Char) : List Char :=
  text.flatMap doubleDollar

mutual

/-- The written form of a node. -/
def Node.written : Node → List Char
  | .literal text => Template.doubleDollars text.toList
  | .interpolation r => r.variableTag
  | .block kind r first none =>
    kind.openTag r ++ (['\n'] ++ (Node.writtenAll first ++ kind.closing) ++ ['\n'])
  | .block kind r first (some second) =>
    kind.openTag r ++
      (['\n'] ++ (Node.writtenAll first ++ kind.middle ++ Node.writtenAll second ++ kind.closing) ++
        ['\n'])

/-- The written forms of nodes, one after the other. -/
def Node.writtenAll : List Node → List Char
  | [] => []
  | node :: rest => Node.written node ++ Node.writtenAll rest

end

/-- The source that a template is written as. -/
def Template.written (t : Template) : String :=
  String.ofList (Node.writtenAll t.nodes)

/-! ### What is written derives the nodes -/

namespace Grammar

variable {source : List Char} {nodes : List Node}

theorem Derives.doubleDollar_append (h : Derives source nodes) (c : Char) :
    Derives (Template.doubleDollar c ++ source)
      (Node.cons (.literal (String.ofList [c])) nodes) := by
  rw [Template.doubleDollar]
  split
  next hdollar =>
    subst hdollar
    exact .cons (.leaf .dollar) h
  next hdollar =>
    refine h.run_append (List.cons_ne_nil c []) fun hmem => hdollar ?_
    exact (List.mem_singleton.mp hmem).symm

/-- **A text with its dollars doubled, in front of a source, adds a literal** in front of the nodes.
What the source begins with does not matter: the literal of each character joins that of the
characters after it. -/
theorem Derives.doubleDollars_append (h : Derives source nodes) {text : List Char}
    (hne : text ≠ []) :
    Derives (Template.doubleDollars text ++ source)
      (Node.cons (.literal (String.ofList text)) nodes) := by
  induction text with
  | nil => exact absurd rfl hne
  | cons c text ih =>
    rw [Template.doubleDollars, List.flatMap_cons, List.append_assoc]
    cases text with
    | nil => exact h.doubleDollar_append c
    | cons d text =>
      have hall := (ih (List.cons_ne_nil d text)).doubleDollar_append c
      rwa [Node.cons_literal_cons_literal, ← String.ofList_append] at hall

/-- A block is written with a line feed after each of its outer tags, so that both go with it,
whatever its first branch and the source behind it begin with. -/
theorem Derives.block_append (h : Derives source nodes) {kind : BlockKind} {r : Reference}
    (hr : r.IsWritable) {text : List Char} {first : List Node} {second : Option (List Node)}
    (hparts : DerivesParts kind text first second) :
    Derives (kind.openTag r ++ (['\n'] ++ text ++ ['\n']) ++ source)
      (.block kind r first second :: nodes) :=
  .cons (.block hr (.paired (Or.inl rfl) (Or.inl rfl) hparts)) h

end Grammar

mutual

/-- A canonical node, written in front of a source, adds itself in front of the nodes. -/
theorem Node.derives_written_append (node : Node) (hnode : node.IsCanonical)
    {source : List Char} {nodes : List Node} (h : Derives source nodes) :
    Derives (node.written ++ source) (Node.cons node nodes) := by
  cases node with
  | literal text =>
    rw [Node.IsCanonical] at hnode
    have hne : text.toList ≠ [] := fun hnil => hnode (String.toList_eq_nil_iff.mp hnil)
    have hderives := h.doubleDollars_append hne
    rwa [String.ofList_toList] at hderives
  | interpolation r =>
    rw [Node.IsCanonical] at hnode
    exact .cons (.leaf (.interpolation hnode.1 hnode.2)) h
  | block kind r first second =>
    cases second with
    | none =>
      rw [Node.IsCanonical] at hnode
      obtain ⟨hr, hfirst⟩ := hnode
      rw [Node.written]
      exact h.block_append hr (.one (Node.derives_writtenAll first hfirst))
    | some second =>
      rw [Node.IsCanonical] at hnode
      obtain ⟨hr, hfirst, hsecond⟩ := hnode
      rw [Node.written]
      exact h.block_append hr
        (.two (Node.derives_writtenAll first hfirst) (Node.derives_writtenAll second hsecond))

/-- **Canonical nodes derive from what they are written as.** -/
theorem Node.derives_writtenAll (nodes : List Node) (hnodes : Node.AllCanonical nodes) :
    Derives (Node.writtenAll nodes) nodes := by
  cases nodes with
  | nil => exact .nil
  | cons node rest =>
    rw [Node.AllCanonical] at hnodes
    obtain ⟨hnode, hmeets, hrest⟩ := hnodes
    rw [Node.writtenAll, ← Node.cons_of_not_meets hmeets]
    exact Node.derives_written_append node hnode (Node.derives_writtenAll rest hrest)

end

/-- **Compiling what a template is written as gives the template again**, for every canonical
template and every limit that its blocks fit below. -/
theorem Template.compile_written (t : Template) (hcanonical : t.IsCanonical) {limit : Nat}
    (hdepth : t.depth ≤ limit) : compile t.written limit = .ok t := by
  refine compile_eq_ok_iff.mpr ⟨?_, hdepth⟩
  rw [written, String.toList_ofList]
  exact Node.derives_writtenAll t.nodes hcanonical

/-- A dollar in front of a variable, a block on a reserved word whose body spells its closing tag
after a line feed and whose separator is empty, and a line feed behind it. -/
theorem Template.compile_written_adjacent :
    (⟨[.literal "$", .interpolation ⟨"x", ["y"]⟩,
        .block .loop ⟨"if", []⟩ [.literal "\n$endfor$"] (some []), .literal "\n"]⟩ :
      Template).IsCanonical ∧
      compile "$$$x.y$$for(if)$\n\n$$endfor$$$sep$$endfor$\n\n" 1 =
        .ok ⟨[.literal "$", .interpolation ⟨"x", ["y"]⟩,
          .block .loop ⟨"if", []⟩ [.literal "\n$endfor$"] (some []), .literal "\n"]⟩ := by
  have hcanonical : (⟨[.literal "$", .interpolation ⟨"x", ["y"]⟩,
      .block .loop ⟨"if", []⟩ [.literal "\n$endfor$"] (some []), .literal "\n"]⟩ :
      Template).IsCanonical := by decide
  exact ⟨hcanonical, compile_written _ hcanonical (by decide)⟩

end DocTemplate
