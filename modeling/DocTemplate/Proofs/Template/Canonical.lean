import DocTemplate.Proofs.Template.Printing

/-!
# Compiled templates are canonical

The parser makes literals in four ways: of a run of text, of a doubled dollar, by joining two that
meet, and by putting back the line terminator after an opening tag. Whichever way they come about,
no literal is empty and no two are neighbours, in any branch; and references consist of names.
**The templates that are compiled from some source are the canonical ones**
(`Template.exists_compile_iff_isCanonical`), the converse being that a canonical template can be
written.

The grammar reduces the four ways to two, since there a terminator that stays is part of a run: a
literal is made by a leaf, and it joins the one behind it when it is put in front of nodes
(`Node.AllCanonical.cons`). What is left is one case for each rule of the grammar.
-/

namespace DocTemplate

open Grammar (Leaf Derives DerivesElement DerivesContents DerivesParts)

namespace Node

theorem allCanonical_nil : AllCanonical [] := by
  rw [AllCanonical]
  trivial

/-- A branch that is missing is as canonical as one without nodes. -/
theorem isCanonical_block_iff {kind : BlockKind} {r : Reference} {first : List Node}
    {second : Option (List Node)} :
    IsCanonical (.block kind r first second) ↔
      r.IsWritable ∧ AllCanonical first ∧ AllCanonical (second.getD []) := by
  cases second with
  | none => rw [IsCanonical, Option.getD_none, AllCanonical, and_true]
  | some nodes => rw [IsCanonical, Option.getD_some]

/-- What a literal meets does not depend on its text. -/
theorem meets_literal (text other : String) (nodes : List Node) :
    meets (.literal text) nodes = meets (.literal other) nodes := by
  cases nodes with
  | nil => rfl
  | cons next _ => cases next <;> rfl

/-- **Putting a canonical node in front keeps nodes canonical**: where two literals would meet, they
are joined. -/
theorem AllCanonical.cons {node : Node} {nodes : List Node} (hnodes : AllCanonical nodes)
    (hnode : node.IsCanonical) : AllCanonical (Node.cons node nodes) := by
  cases hmeets : meets node nodes with
  | false =>
    rw [cons_of_not_meets hmeets, AllCanonical]
    exact ⟨hnode, hmeets, hnodes⟩
  | true =>
    -- only literals meet
    match node, nodes, hmeets with
    | .literal text, .literal next :: rest, _ =>
      rw [AllCanonical, IsCanonical] at hnodes
      obtain ⟨-, hnext, hrest⟩ := hnodes
      rw [IsCanonical] at hnode
      rw [Node.cons, AllCanonical, IsCanonical, meets_literal _ next]
      refine ⟨fun hempty => hnode ?_, hnext, hrest⟩
      exact (String.append_eq_empty_iff.mp hempty).1

end Node

namespace Grammar

theorem Leaf.isCanonical {text rest : List Char} {node : Node} (h : Leaf text node rest) :
    node.IsCanonical := by
  cases h with
  | run hne _ _ =>
    rw [Node.IsCanonical]
    exact fun hempty => hne (String.ofList_eq_empty_iff.mp hempty)
  | dollar =>
    rw [Node.IsCanonical]
    decide
  | interpolation hr hreserved =>
    rw [Node.IsCanonical]
    exact ⟨hr, hreserved⟩

mutual

/-- **A text derives canonical nodes.** -/
theorem Derives.allCanonical {text : List Char} {nodes : List Node} (h : Derives text nodes) :
    Node.AllCanonical nodes := by
  match h with
  | .nil => exact Node.allCanonical_nil
  | .cons helement hrest => exact hrest.allCanonical.cons helement.isCanonical

theorem DerivesElement.isCanonical {text rest : List Char} {node : Node}
    (h : DerivesElement text node rest) : node.IsCanonical := by
  match h with
  | .leaf hleaf => exact hleaf.isCanonical
  | .block hr hcontents => exact Node.isCanonical_block_iff.mpr ⟨hr, hcontents.allCanonical⟩

theorem DerivesContents.allCanonical {kind : BlockKind} {text rest : List Char}
    {first : List Node} {second : Option (List Node)}
    (h : DerivesContents kind text first second rest) :
    Node.AllCanonical first ∧ Node.AllCanonical (second.getD []) := by
  match h with
  | .paired _ _ hparts => exact hparts.allCanonical
  | .unpaired _ hparts => exact hparts.allCanonical

theorem DerivesParts.allCanonical {kind : BlockKind} {text : List Char} {first : List Node}
    {second : Option (List Node)} (h : DerivesParts kind text first second) :
    Node.AllCanonical first ∧ Node.AllCanonical (second.getD []) := by
  match h with
  | .one hfirst => exact ⟨hfirst.allCanonical, Node.allCanonical_nil⟩
  | .two hfirst hsecond => exact ⟨hfirst.allCanonical, hsecond.allCanonical⟩

end

end Grammar

/-- **The templates that compiling gives are the canonical ones**: on no level is there an empty
literal or are two literals neighbours, all references consist of names, and no variable begins with
a reserved word. Every such template is given for some source. -/
theorem Template.exists_compile_iff_isCanonical (t : Template) :
    (∃ source limit, compile source limit = .ok t) ↔ t.IsCanonical := by
  constructor
  · rintro ⟨source, limit, h⟩
    exact (compile_eq_ok_iff.mp h).1.allCanonical
  · intro h
    refine ⟨t.written, t.depth, compile_eq_ok_iff.mpr ⟨?_, Nat.le_refl t.depth⟩⟩
    rw [written, String.toList_ofList]
    exact Node.derives_writtenAll t.nodes h

end DocTemplate
