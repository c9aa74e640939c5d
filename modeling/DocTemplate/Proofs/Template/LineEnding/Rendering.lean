import DocTemplate.Proofs.Context.LineEnding
import DocTemplate.Proofs.Template.LineEnding.Reading
import DocTemplate.Proofs.Template.Printing
import DocTemplate.Proofs.Template.Scope

/-!
# Rendering with either line ending

Changing the line endings of a source, of the scalars of a context and of the text that is made of
the two comes to the same (`Template.line_endings_commute`).

Compiling is in `DocTemplate.Proofs.Template.LineEnding.Reading`. Rendering puts texts together and
trims them, and trimming is where a pair could be taken for one character too many or too few. It
commutes with the change of line endings on texts without carriage returns, whoever brought their
terminators along: a literal, or a scalar at the front or the end of an output. So what is proved of
a node is that its text has none, and that the text of the other form is the other form of the text
(`Node.scopedText_crlf`).

That the literals of a compiled template have no carriage returns is a fact of the grammar: every
character of a literal is one of the source (`Grammar.Derives.literalChars_subset`).
-/

namespace DocTemplate

open Text (crlfString IsCrlfOf)

/-! ### The literals of a template -/

mutual

/-- The characters of the literals of a node. -/
def Node.literalChars : Node → List Char
  | .literal text => text.toList
  | .interpolation _ => []
  | .block _ _ first none => Node.literalCharsAll first
  | .block _ _ first (some second) => Node.literalCharsAll first ++ Node.literalCharsAll second

/-- The characters of the literals of nodes. -/
def Node.literalCharsAll : List Node → List Char
  | [] => []
  | node :: rest => Node.literalChars node ++ Node.literalCharsAll rest

end

namespace Node

variable {kind : BlockKind} {r : Reference} {first : List Node} {second : Option (List Node)}

theorem literalChars_block :
    literalChars (.block kind r first second) =
      literalCharsAll first ++ literalCharsAll (second.getD []) := by
  cases second with
  | none => exact (List.append_nil _).symm
  | some nodes => rfl

theorem literalCharsAll_cons (node : Node) (nodes : List Node) :
    literalCharsAll (cons node nodes) = literalChars node ++ literalCharsAll nodes := by
  cases node with
  | literal text =>
    cases nodes with
    | nil => rfl
    | cons next rest =>
      cases next with
      | literal other =>
        simp only [cons, literalCharsAll, literalChars, String.toList_append, List.append_assoc]
      | _ => rfl
  | _ => rfl

end Node

namespace Grammar

theorem Leaf.literalChars_subset {text rest : List Char} {node : Node} (h : Leaf text node rest) :
    node.literalChars ⊆ text := by
  cases h with
  | run _ _ _ =>
    rw [Node.literalChars, String.toList_ofList]
    exact List.Subset.refl _
  | dollar => exact fun c hc => List.mem_cons_of_mem _ hc
  | interpolation _ _ => exact List.nil_subset _

mutual

/-- **Every character of a literal is one of the source.** -/
theorem Derives.literalChars_subset {text : List Char} {nodes : List Node}
    (h : Derives text nodes) : Node.literalCharsAll nodes ⊆ text := by
  match h with
  | .nil => exact List.Subset.refl _
  | .cons helement hrest =>
    rw [Node.literalCharsAll_cons]
    exact List.append_subset.mpr
      ⟨List.subset_append_of_subset_left _ helement.literalChars_subset,
        List.subset_append_of_subset_right _ hrest.literalChars_subset⟩

theorem DerivesElement.literalChars_subset {text rest : List Char} {node : Node}
    (h : DerivesElement text node rest) : node.literalChars ⊆ text := by
  match h with
  | .leaf hleaf => exact hleaf.literalChars_subset
  | .block _ hcontents =>
    rw [Node.literalChars_block]
    exact List.subset_append_of_subset_right _ hcontents.literalChars_subset

theorem DerivesContents.literalChars_subset {kind : BlockKind} {text rest : List Char}
    {first : List Node} {second : Option (List Node)}
    (h : DerivesContents kind text first second rest) :
    Node.literalCharsAll first ++ Node.literalCharsAll (second.getD []) ⊆ text := by
  match h with
  | .paired _ _ hparts =>
    exact List.subset_append_of_subset_left _
      (List.subset_append_of_subset_right _ hparts.literalChars_subset)
  | .unpaired _ hparts => exact hparts.literalChars_subset

theorem DerivesParts.literalChars_subset {kind : BlockKind} {text : List Char}
    {first : List Node} {second : Option (List Node)} (h : DerivesParts kind text first second) :
    Node.literalCharsAll first ++ Node.literalCharsAll (second.getD []) ⊆ text := by
  match h with
  | .one hfirst =>
    rw [Option.getD_none, Node.literalCharsAll, List.append_nil]
    exact List.subset_append_of_subset_left _ hfirst.literalChars_subset
  | .two hfirst hsecond =>
    refine List.subset_append_of_subset_left _ (List.append_subset.mpr ⟨?_, ?_⟩)
    · simp only [List.append_assoc]
      exact List.subset_append_of_subset_left _ hfirst.literalChars_subset
    · exact List.subset_append_of_subset_right _ hsecond.literalChars_subset

end

end Grammar

/-! ### Blocks -/

theorem Value.loopItems_crlf (v : Value) : v.crlf.loopItems = v.loopItems.map Value.crlf := by
  cases v with
  | sequence items => exact Value.crlfAll_eq_map items
  | mapping fields =>
    rw [Value.crlf_mapping]
    exact congrArg (fun value => [value]) (Value.crlf_mapping fields).symm
  | _ => rfl

/-- Texts interleaved are in the other form if each of them is. -/
theorem interleave_crlf {body body' separator separator' : Value → String} {items : List Value}
    (h : ∀ item ∈ items, IsCrlfOf (body' item.crlf) (body item) ∧
      IsCrlfOf (separator' item.crlf) (separator item)) :
    IsCrlfOf (interleave body' separator' (items.map Value.crlf))
      (interleave body separator items) := by
  induction items with
  | nil => exact .empty
  | cons item rest ih =>
    obtain ⟨hbody, hseparator⟩ := h item List.mem_cons_self
    cases rest with
    | nil => exact hbody
    | cons next rest =>
      rw [interleave_cons_cons, List.map_cons, List.map_cons, interleave_cons_cons]
      exact (hbody.append hseparator).append
        (ih fun other hmem => h other (List.mem_cons_of_mem _ hmem))

namespace Node

variable (r : Reference) (first : List Node) (second : Option (List Node)) (c : Context)

theorem getD_map_crlfAll : (second.map crlfAll).getD [] = crlfAll (second.getD []) := by
  cases second <;> rfl

theorem chosen_crlf :
    chosen r (crlfAll first) (second.map crlfAll) c.crlf = crlfAll (chosen r first second c) := by
  rw [chosen, chosen, c.resolve_crlf, Value.isTruthy_crlf, getD_map_crlfAll]
  split <;> rfl

end Node

/-! ### The text of a template -/

mutual

/-- **The text of the other form of a node is the other form of its text.** -/
theorem Node.scopedText_crlf (node : Node) (hnode : '\r' ∉ node.literalChars) {c : Context}
    (hc : c.IsReturnFree) : IsCrlfOf (node.crlf.scopedText c.crlf) (node.scopedText c) := by
  match node with
  | .literal text => exact ⟨hnode, rfl⟩
  | .interpolation r =>
    rw [Node.crlf, Node.scopedText_interpolation, Node.scopedText_interpolation, c.resolve_crlf]
    exact Value.text_crlf _ (hc.resolve r)
  | .block kind r first second =>
    rw [Node.literalChars_block, List.mem_append, not_or] at hnode
    have hfirst := fun {c : Context} (hc : c.IsReturnFree) =>
      Node.scopedTextAll_crlf first hnode.1 hc
    have hsecond := fun {c : Context} (hc : c.IsReturnFree) =>
      Node.scopedTextSecond_crlf second hnode.2 hc
    rw [Node.crlf_block]
    cases kind with
    | conditional =>
      rw [Node.scopedText_conditional, Node.scopedText_conditional, Node.chosen_crlf, Node.chosen]
      split
      · exact (hfirst hc).trimString
      · exact (hsecond hc).trimString
    | loop =>
      rw [Node.scopedText_loop, Node.scopedText_loop, c.resolve_crlf, Value.isTruthy_crlf,
        Value.loopItems_crlf, Node.getD_map_crlfAll]
      split
      · -- both sides bind an item to the slot, and the one item is the other form of the other
        refine (interleave_crlf fun item hitem => ?_).trimString
        have hbound := hc.bind
          (Value.inherited_isReturnFree.of_mem_loopItems (hc.resolve r) hitem) r
        rw [c.bind_crlf]
        exact ⟨hfirst hbound, hsecond hbound⟩
      · exact .empty

/-- **The text of the other form of nodes is the other form of their text.** -/
theorem Node.scopedTextAll_crlf (nodes : List Node) (hnodes : '\r' ∉ Node.literalCharsAll nodes)
    {c : Context} (hc : c.IsReturnFree) :
    IsCrlfOf (Node.scopedTextAll (Node.crlfAll nodes) c.crlf) (Node.scopedTextAll nodes c) := by
  match nodes with
  | [] => exact .empty
  | node :: rest =>
    rw [Node.literalCharsAll, List.mem_append, not_or] at hnodes
    rw [Node.crlfAll, Node.scopedTextAll_cons, Node.scopedTextAll_cons]
    exact (Node.scopedText_crlf node hnodes.1 hc).append
      (Node.scopedTextAll_crlf rest hnodes.2 hc)

/-- So it is for a second branch, which may be missing. -/
theorem Node.scopedTextSecond_crlf (second : Option (List Node))
    (hsecond : '\r' ∉ Node.literalCharsAll (second.getD [])) {c : Context} (hc : c.IsReturnFree) :
    IsCrlfOf (Node.scopedTextAll (Node.crlfAll (second.getD [])) c.crlf)
      (Node.scopedTextAll (second.getD []) c) := by
  match second with
  | none => exact .empty
  | some nodes => exact Node.scopedTextAll_crlf nodes hsecond hc

end

namespace Template

/-- A source without carriage returns compiles to a template whose text in the other form is the
other form of its text. -/
theorem render_crlf {source : String} (h : '\r' ∉ source.toList) {limit : Nat} {t : Template}
    (ht : compile source limit = .ok t) {c : Context} (hc : c.IsReturnFree) :
    (t.crlf.render c.crlf).1 = crlfString (t.render c).1 := by
  have hliterals : '\r' ∉ Node.literalCharsAll t.nodes := fun hmem =>
    h ((compile_eq_ok_iff.mp ht).1.literalChars_subset hmem)
  rw [render_eq, render_eq]
  exact (Node.scopedTextAll_crlf t.nodes hliterals hc).eq

/-- **The line endings of a source do not matter but for those of the text.** With pairs for its
line feeds, a source without carriage returns compiles exactly if it did before, and to the same
template with pairs in its literals; or else it fails for the same cause on the same line. Rendered
against a context with pairs for the line feeds in its scalars, that template makes the text it made
before, with pairs. -/
theorem line_endings_commute {source : String} (hsource : '\r' ∉ source.toList) (limit : Nat) :
    (∀ t', compile (crlfString source) limit = .ok t' ↔
        ∃ t, compile source limit = .ok t ∧ t' = t.crlf) ∧
      (∀ e, compile source limit = .error e →
        ∃ e', compile (crlfString source) limit = .error e' ∧ e.Alike e') ∧
      ∀ t, compile source limit = .ok t → ∀ c : Context, c.IsReturnFree →
        (t.crlf.render c.crlf).1 = crlfString (t.render c).1 := by
  obtain ⟨hok, herror⟩ := compile_crlf hsource limit
  refine ⟨fun t' => ⟨fun h => ?_, ?_⟩, herror, fun t ht c hc => render_crlf hsource ht hc⟩
  · cases hcompile : compile source limit with
    | error e =>
      obtain ⟨e', he', -⟩ := herror e hcompile
      cases he'.symm.trans h
    | ok t => exact ⟨t, rfl, Except.ok.inj (h.symm.trans (hok t hcompile))⟩
  · rintro ⟨t, ht, rfl⟩
    exact hok t ht

/-- A block on lines of its own around a scalar that ends with a line feed, and a dollar on the
second line behind which something is missing. -/
theorem line_endings_commute_block :
    '\r' ∉ "$if(a)$\n$a$\n$endif$\nb".toList ∧
      Context.IsReturnFree ⟨⟨[("a", .scalar "p\nq\n")]⟩⟩ ∧
      compile "$if(a)$\r\n$a$\r\n$endif$\r\nb" 1 =
        .ok ⟨[.block .conditional (.key "a") [.interpolation (.key "a"), .literal "\r\n"] none,
          .literal "b"]⟩ ∧
      (render ⟨[.block .conditional (.key "a") [.interpolation (.key "a"), .literal "\r\n"] none,
          .literal "b"]⟩ ⟨⟨[("a", .scalar "p\r\nq\r\n")]⟩⟩).1 = "p\r\nq\r\n\r\nb" ∧
      '\r' ∉ "a\n$".toList ∧ compile "a\r\n$" 1 = .error (.unexpectedEnd 2) := by
  have hsource : '\r' ∉ "$if(a)$\n$a$\n$endif$\nb".toList := by decide
  have hc : Context.IsReturnFree ⟨⟨[("a", .scalar "p\nq\n")]⟩⟩ :=
    .mapping (List.forall_mem_singleton.mpr (.scalar (by decide)))
  have hwritten : "$if(a)$\n$a$\n$endif$\nb".toList = Node.writtenAll
      [.block .conditional (.key "a") [.interpolation (.key "a"), .literal "\n"] none,
        .literal "b"] := by decide
  have hcompile : compile "$if(a)$\n$a$\n$endif$\nb" 1 =
      .ok ⟨[.block .conditional (.key "a") [.interpolation (.key "a"), .literal "\n"] none,
        .literal "b"]⟩ :=
    compile_eq_ok_iff.mpr ⟨hwritten ▸ Node.derives_writtenAll _ (by decide), by decide⟩
  obtain ⟨hok, -, hrender⟩ := line_endings_commute hsource 1
  have hsource' : '\r' ∉ "a\n$".toList := by decide
  have hcompile' : compile "a\n$" 1 = .error (.unexpectedEnd 2) := by rfl
  obtain ⟨e, he, halike⟩ := (line_endings_commute hsource' 1).2.1 _ hcompile'
  cases halike
  refine ⟨hsource, hc, ?_, ?_, hsource', he⟩
  · exact (hok _).mpr ⟨_, hcompile, by rfl⟩
  · exact (hrender _ hcompile _ hc).trans (by rfl)

end Template

end DocTemplate
