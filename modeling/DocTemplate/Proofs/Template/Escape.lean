import DocTemplate.Proofs.Template.Printing
import DocTemplate.Proofs.Template.Scope
import DocTemplate.Template.Escape

/-!
# Texts without constructs

Whether a text uses the template language can be seen without reading it as a template: take its
doubled dollars out, from left to right, and see if a dollar is left (`Template.hasConstructs`). The
parser never sees a text this way. It looks for blocks and variables first, and for doubled dollars
only where there are none, so that `$x$$y$` has no doubled dollar for it and `$$$x$` has one.

**The two agree on every text** (`Template.hasConstructs_exact`), whatever the nesting limit: no
dollar is left exactly if the text is a template of literals. A template of literals renders as the
text with each doubled dollar replaced by a single one (`Template.halveDollars`).

Both directions rest on what is proved about written literals. A text in which no dollar is left is
the written form of the text that it is rendered as (`Template.doubleDollars_halveDollars`), so it
derives this literal. In a derivation of literals there are plain text and doubled dollars only, and
these leave no dollar.
-/

namespace DocTemplate

open Grammar (Derives DerivesElement)

/-- A node that is a text. -/
def Node.IsLiteral : Node → Prop
  | .literal _ => True
  | _ => False

/-- Nodes are literals if they are so before they are joined. -/
theorem Node.forall_isLiteral_cons {node : Node} {nodes : List Node} :
    (∀ m ∈ Node.cons node nodes, m.IsLiteral) ↔ node.IsLiteral ∧ ∀ m ∈ nodes, m.IsLiteral := by
  cases node with
  | literal text =>
    cases nodes with
    | nil => simp [Node.cons, Node.IsLiteral]
    | cons next rest => cases next <;> simp [Node.cons, Node.IsLiteral]
  | _ => simp [Node.IsLiteral]

namespace Template

/-! ### Doubled dollars -/

/-- A text with each doubled dollar, from left to right, replaced by a single one. -/
def halveDollars : List Char → List Char
  | '$' :: '$' :: rest => '$' :: halveDollars rest
  | c :: rest => c :: halveDollars rest
  | [] => []

/-- **A text without a single dollar is a written literal.** -/
theorem doubleDollars_halveDollars {text : List Char} (h : '$' ∉ dropEscapes text) :
    doubleDollars (halveDollars text) = text := by
  fun_induction dropEscapes text with
  | case1 rest ih =>
    rw [halveDollars, doubleDollars, List.flatMap_cons, doubleDollar, if_pos rfl]
    exact congrArg (['$', '$'] ++ ·) (ih h)
  | case2 c rest hpair ih =>
    have hc : c ≠ '$' := (List.ne_of_not_mem_cons h).symm
    rw [halveDollars, doubleDollars, List.flatMap_cons, doubleDollar, if_neg hc]
    · exact congrArg ([c] ++ ·) (ih (List.not_mem_of_not_mem_cons h))
    · exact hpair
  | case3 => rfl

theorem halveDollars_of_notMem {text : List Char} (h : '$' ∉ text) : halveDollars text = text := by
  fun_induction halveDollars text with
  | case1 rest ih => exact absurd List.mem_cons_self h
  | case2 c rest _ ih => rw [ih (List.not_mem_of_not_mem_cons h)]
  | case3 => rfl

/-- Plain text stays where doubled dollars are taken out behind it. -/
theorem dropEscapes_append_of_notMem {run : List Char} (hrun : '$' ∉ run) (rest : List Char) :
    dropEscapes (run ++ rest) = run ++ dropEscapes rest := by
  induction run with
  | nil => rfl
  | cons c run ih =>
    rw [List.cons_append, dropEscapes, ih (List.not_mem_of_not_mem_cons hrun), List.cons_append]
    rintro rest' rfl -
    exact List.ne_of_not_mem_cons hrun rfl

end Template

/-! ### Derivations of literals -/

namespace Grammar

/-- An element that is a literal adds no single dollar to the text behind it. -/
theorem DerivesElement.dollar_notMem_dropEscapes {text rest : List Char} {node : Node}
    (h : DerivesElement text node rest) (hnode : node.IsLiteral)
    (hrest : '$' ∉ Template.dropEscapes rest) : '$' ∉ Template.dropEscapes (text ++ rest) := by
  cases h with
  | leaf hleaf =>
    cases hleaf with
    | run hne hrun hstop =>
      rw [Template.dropEscapes_append_of_notMem hrun]
      exact fun hmem => (List.mem_append.mp hmem).elim hrun hrest
    | dollar => exact hrest
    | interpolation _ _ => exact hnode.elim
  | block _ _ => exact hnode.elim

/-- **A text that derives literals has no single dollar.** -/
theorem Derives.dollar_notMem_dropEscapes {text : List Char} {nodes : List Node}
    (h : Derives text nodes) (hnodes : ∀ node ∈ nodes, node.IsLiteral) :
    '$' ∉ Template.dropEscapes text := by
  match h with
  | .nil => exact List.not_mem_nil
  | .cons helement hrest =>
    obtain ⟨hnode, hnodes⟩ := Node.forall_isLiteral_cons.mp hnodes
    exact helement.dollar_notMem_dropEscapes hnode (hrest.dollar_notMem_dropEscapes hnodes)

/-- A text without a single dollar derives what is left of it when its doubled dollars are
halved. -/
theorem derives_of_dollar_notMem_dropEscapes {text : List Char}
    (h : '$' ∉ Template.dropEscapes text) (hne : text ≠ []) :
    Derives text [.literal (String.ofList (Template.halveDollars text))] := by
  have hhalved := Template.doubleDollars_halveDollars h
  have hne' : Template.halveDollars text ≠ [] := by
    intro hnil
    rw [hnil] at hhalved
    exact hne hhalved.symm
  -- the text is the written form of its halved text, with nothing behind it
  have hderives := Derives.nil.doubleDollars_append hne'
  rwa [List.append_nil, hhalved] at hderives

end Grammar

namespace Template

theorem hasConstructs_eq_false_iff {text : String} :
    hasConstructs text = false ↔ '$' ∉ dropEscapes text.toList := by
  rw [hasConstructs, List.contains_eq_mem, decide_eq_false_iff_not]

/-- A text without constructs is a template of literals, which renders as that text with its doubled
dollars halved. -/
theorem exists_compile_of_hasConstructs {text : String} (limit : Nat)
    (h : hasConstructs text = false) :
    ∃ t, compile text limit = .ok t ∧ (∀ node ∈ t.nodes, node.IsLiteral) ∧
      ∀ c, t.render c = (String.ofList (halveDollars text.toList), c) := by
  rw [hasConstructs_eq_false_iff] at h
  by_cases hnil : text.toList = []
  · refine ⟨⟨[]⟩, compile_eq_ok_iff.mpr ⟨hnil ▸ .nil, Nat.zero_le limit⟩, ?_, fun c => ?_⟩
    · exact fun node hnode => absurd hnode List.not_mem_nil
    · rw [hnil]
      rfl
  · refine ⟨⟨[.literal (String.ofList (halveDollars text.toList))]⟩, ?_, ?_, fun c => ?_⟩
    · exact compile_eq_ok_iff.mpr
        ⟨Grammar.derives_of_dollar_notMem_dropEscapes h hnil, Nat.zero_le limit⟩
    · rintro node hnode
      rw [List.mem_singleton.mp hnode]
      exact trivial
    · rw [render_eq, scopedText, Node.scopedTextAll_cons, Node.scopedTextAll_nil,
        String.append_empty, Node.scopedText_literal]

/-- **A text has no constructs exactly if it is a template of literals**, under every limit. Such a
text renders as itself with each doubled dollar replaced by a single one, and as itself if it has no
dollar at all. -/
theorem hasConstructs_exact (text : String) (limit : Nat) :
    (hasConstructs text = false ↔
        ∃ t, compile text limit = .ok t ∧ ∀ node ∈ t.nodes, node.IsLiteral) ∧
      (hasConstructs text = false →
        ∀ c, compileAndRender text limit c =
          .ok (String.ofList (halveDollars text.toList), c)) ∧
      ('$' ∉ text.toList → ∀ c, compileAndRender text limit c = .ok (text, c)) := by
  have hrender : hasConstructs text = false → ∀ c, compileAndRender text limit c =
      .ok (String.ofList (halveDollars text.toList), c) := by
    intro h c
    obtain ⟨t, ht, -, hrender⟩ := exists_compile_of_hasConstructs limit h
    rw [compileAndRender, ht, Except.map, hrender]
  refine ⟨⟨fun h => ?_, ?_⟩, hrender, fun h c => ?_⟩
  · obtain ⟨t, ht, hliteral, -⟩ := exists_compile_of_hasConstructs limit h
    exact ⟨t, ht, hliteral⟩
  · rintro ⟨t, ht, hliteral⟩
    exact hasConstructs_eq_false_iff.mpr
      ((compile_eq_ok_iff.mp ht).1.dollar_notMem_dropEscapes hliteral)
  · have hplain := dropEscapes_append_of_notMem h []
    rw [dropEscapes, List.append_nil] at hplain
    rw [hrender (hasConstructs_eq_false_iff.mpr (by rwa [hplain])), halveDollars_of_notMem h,
      String.ofList_toList]

end Template

end DocTemplate
