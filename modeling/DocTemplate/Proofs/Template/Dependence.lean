import DocTemplate.Proofs.Context.Agreement
import DocTemplate.Proofs.Template.Scope

/-!
# What a rendering depends on

A template names references, in its variables and in its blocks. Its text depends on nothing but
what these lead to, and of that not on the order in which mappings hold their entries
(`Template.render_depends`): two contexts that agree on every reference of a template give it one
text.

The statement is about two renderings at once, and each of them changes its context on the way. It
is proved of the scoped evaluation, which changes none: there a loop evaluates its body against its
context with the slot of its reference replaced, on both sides by items that agree. The contexts
still agree on every reference then (`Context.agrees_resolve_bind`), whether it lies around the
slot, inside it or elsewhere.
-/

namespace DocTemplate

/-! ### The references of a template -/

mutual

/-- The references that a node names. -/
def Node.references : Node → List Reference
  | .literal _ => []
  | .interpolation r => [r]
  | .block _ r first none => r :: Node.referencesAll first
  | .block _ r first (some second) => r :: (Node.referencesAll first ++ Node.referencesAll second)

/-- The references that nodes name. -/
def Node.referencesAll : List Node → List Reference
  | [] => []
  | node :: rest => Node.references node ++ Node.referencesAll rest

end

/-- The references that a template names. -/
def Template.references (t : Template) : List Reference :=
  Node.referencesAll t.nodes

namespace Node

variable {kind : BlockKind} {r q : Reference} {first : List Node} {second : Option (List Node)}
  {node : Node} {rest : List Node}

theorem mem_references_block :
    q ∈ references (.block kind r first second) ↔
      q = r ∨ q ∈ referencesAll first ∨ q ∈ referencesAll (second.getD []) := by
  cases second <;> simp [references, referencesAll]

theorem mem_referencesAll_cons :
    q ∈ referencesAll (node :: rest) ↔ q ∈ references node ∨ q ∈ referencesAll rest := by
  rw [referencesAll, List.mem_append]

end Node

/-! ### The items of a loop -/

namespace Value

/-- Agreeing values have as many items to run over, which agree in order. -/
theorem forall₂_loopItems_of_agrees {v w : Value} (h : v.agrees w = true) :
    List.Forall₂ (fun a b => a.agrees b = true) v.loopItems w.loopItems := by
  have hsingle : List.Forall₂ (fun a b => Value.agrees a b = true) [v] [w] := .cons h .nil
  cases v <;> cases w <;> try cases h
  case sequence.sequence => exact agreesAll_eq_true_iff.mp h
  all_goals exact hsingle

end Value

/-- Texts interleaved over items depend on the texts of the items only. -/
theorem interleave_congr {body body' separator separator' : Value → String}
    {items items' : List Value}
    (h : List.Forall₂ (fun a b => body a = body' b ∧ separator a = separator' b) items items') :
    interleave body separator items = interleave body' separator' items' := by
  induction h with
  | nil => rfl
  | cons hab hrest ih =>
    cases hrest with
    | nil => exact hab.1
    | cons _ _ => rw [interleave_cons_cons, interleave_cons_cons, hab.1, hab.2, ih]

/-! ### Contexts that agree on references -/

/-- Two contexts in which no key stands twice agree on references. -/
structure Context.AgreeOn (rs : List Reference) (c d : Context) : Prop where
  left : c.HasUniqueKeys
  right : d.HasUniqueKeys
  agrees : ∀ r ∈ rs, (c.resolve r).agrees (d.resolve r) = true

namespace Context.AgreeOn

variable {rs rs' : List Reference} {c d : Context} {r : Reference}

theorem mono (h : AgreeOn rs c d) (hsub : ∀ q ∈ rs', q ∈ rs) : AgreeOn rs' c d :=
  ⟨h.left, h.right, fun q hq => h.agrees q (hsub q hq)⟩

theorem isTruthy_eq (h : AgreeOn rs c d) (hr : r ∈ rs) :
    (c.resolve r).isTruthy = (d.resolve r).isTruthy :=
  Value.isTruthy_eq_of_agrees (h.agrees r hr)

/-- **What a loop does to its context keeps the agreement**: the contexts of one iteration agree on
the references again. -/
theorem bind (h : AgreeOn rs c d) (hr : r ∈ rs) (htruthy : (c.resolve r).isTruthy = true)
    {v w : Value} (hv : v.HasUniqueKeys) (hw : w.HasUniqueKeys) (hvw : v.agrees w = true) :
    AgreeOn rs (c.bind r v) (d.bind r w) where
  left := h.left.bind hv r
  right := h.right.bind hw r
  agrees := fun q hq => agrees_resolve_bind h.left h.right hv hw hvw htruthy
    ((h.isTruthy_eq hr).symm.trans htruthy) (h.agrees q hq)

/-- The iterations of a loop agree: its reference leads to as many items on both sides, and the
contexts of two iterations with the same number agree. -/
theorem forall₂_loopItems (h : AgreeOn rs c d) (hr : r ∈ rs)
    (htruthy : (c.resolve r).isTruthy = true) :
    List.Forall₂ (fun v w => AgreeOn rs (c.bind r v) (d.bind r w)) (c.resolve r).loopItems
      (d.resolve r).loopItems := by
  have hitems := Value.forall₂_loopItems_of_agrees (h.agrees r hr)
  have hleft : ∀ v ∈ (c.resolve r).loopItems, v.HasUniqueKeys := fun v hv =>
    Value.inherited_hasUniqueKeys.of_mem_loopItems (h.left.resolve r) hv
  have hright : ∀ w ∈ (d.resolve r).loopItems, w.HasUniqueKeys := fun w hw =>
    Value.inherited_hasUniqueKeys.of_mem_loopItems (h.right.resolve r) hw
  generalize (c.resolve r).loopItems = items at hitems hleft ⊢
  generalize (d.resolve r).loopItems = items' at hitems hright ⊢
  induction hitems with
  | nil => exact .nil
  | cons hvw _ ih =>
    refine .cons ?_ (ih ?_ ?_)
    · exact h.bind hr htruthy (hleft _ List.mem_cons_self) (hright _ List.mem_cons_self) hvw
    · exact fun v hv => hleft v (List.mem_cons_of_mem _ hv)
    · exact fun w hw => hright w (List.mem_cons_of_mem _ hw)

end Context.AgreeOn

/-! ### The text of a template -/

mutual

/-- A node has one text against contexts that agree on its references. -/
theorem Node.scopedText_eq_of_agreeOn (node : Node) {c d : Context}
    (h : Context.AgreeOn node.references c d) : node.scopedText c = node.scopedText d := by
  match node with
  | .literal text => rfl
  | .interpolation r => exact Value.text_eq_of_agrees (h.agrees r List.mem_cons_self)
  | .block .conditional r first second =>
    -- the reference counts as true against both contexts or against neither
    have hchosen : Node.chosen r first second c = Node.chosen r first second d := by
      rw [Node.chosen, Node.chosen, h.isTruthy_eq (Node.mem_references_block.mpr (Or.inl rfl))]
    rw [Node.scopedText_conditional, Node.scopedText_conditional, hchosen]
    refine congrArg Text.trimString ?_
    rw [Node.chosen]
    split
    · exact Node.scopedTextAll_eq_of_agreeOn first
        (h.mono fun q hq => Node.mem_references_block.mpr (Or.inr (Or.inl hq)))
    · exact Node.scopedTextSecond_eq_of_agreeOn second
        (h.mono fun q hq => Node.mem_references_block.mpr (Or.inr (Or.inr hq)))
  | .block .loop r first second =>
    have hr : r ∈ Node.references (.block .loop r first second) :=
      Node.mem_references_block.mpr (Or.inl rfl)
    rw [Node.scopedText_loop, Node.scopedText_loop, ← h.isTruthy_eq hr]
    split
    next htruthy =>
      refine congrArg Text.trimString (interleave_congr ?_)
      refine (h.forall₂_loopItems hr htruthy).imp fun v w hvw => ⟨?_, ?_⟩
      · exact Node.scopedTextAll_eq_of_agreeOn first
          (hvw.mono fun q hq => Node.mem_references_block.mpr (Or.inr (Or.inl hq)))
      · exact Node.scopedTextSecond_eq_of_agreeOn second
          (hvw.mono fun q hq => Node.mem_references_block.mpr (Or.inr (Or.inr hq)))
    next => rfl

/-- **Nodes have one text against contexts that agree on their references.** -/
theorem Node.scopedTextAll_eq_of_agreeOn (nodes : List Node) {c d : Context}
    (h : Context.AgreeOn (Node.referencesAll nodes) c d) :
    Node.scopedTextAll nodes c = Node.scopedTextAll nodes d := by
  match nodes with
  | [] => rfl
  | node :: rest =>
    rw [Node.scopedTextAll_cons, Node.scopedTextAll_cons,
      Node.scopedText_eq_of_agreeOn node
        (h.mono fun q hq => Node.mem_referencesAll_cons.mpr (Or.inl hq)),
      Node.scopedTextAll_eq_of_agreeOn rest
        (h.mono fun q hq => Node.mem_referencesAll_cons.mpr (Or.inr hq))]

/-- So does a second branch, which may be missing. -/
theorem Node.scopedTextSecond_eq_of_agreeOn (second : Option (List Node)) {c d : Context}
    (h : Context.AgreeOn (Node.referencesAll (second.getD [])) c d) :
    Node.scopedTextAll (second.getD []) c = Node.scopedTextAll (second.getD []) d := by
  match second with
  | none => rfl
  | some nodes => exact Node.scopedTextAll_eq_of_agreeOn nodes h

end

namespace Template

/-- The text of a template is the same against contexts that agree on its references. -/
theorem render_eq_of_agreeOn {t : Template} {c d : Context} (h : c.AgreeOn t.references d) :
    (t.render c).1 = (t.render d).1 := by
  rw [render_eq, render_eq]
  exact Node.scopedTextAll_eq_of_agreeOn t.nodes h

/-- **A rendering depends on what its template names**, and not on the order of keys. Contexts that
agree on every reference of a template give it one text. So a binding to a place that no reference
of the template leads to, into or through changes nothing, and neither does another order of the
keys, at any level. No key may stand twice in a mapping. -/
theorem render_depends (t : Template) (c : Context) (hc : c.HasUniqueKeys) :
    (∀ d : Context, d.HasUniqueKeys →
        (∀ r ∈ t.references, (c.resolve r).agrees (d.resolve r) = true) →
          (t.render c).1 = (t.render d).1) ∧
      (∀ (r : Reference) (value : Value), value.HasUniqueKeys →
        (∀ q ∈ t.references, ¬r.components <+: q.components ∧ ¬q.components <+: r.components) →
          (t.render (c.bind r value)).1 = (t.render c).1) ∧
      ∀ d : Context, d.HasUniqueKeys → c.agrees d = true → (t.render c).1 = (t.render d).1 := by
  refine ⟨fun d hd h => render_eq_of_agreeOn ⟨hc, hd, h⟩, fun r value hvalue h => ?_,
    fun d hd h => render_eq_of_agreeOn ⟨hc, hd, fun r _ => ?_⟩⟩
  · refine render_eq_of_agreeOn ⟨hc.bind hvalue r, hc, fun q hq => ?_⟩
    rw [c.resolve_bind_of_not_prefix value (h q hq).1 (h q hq).2]
    exact (hc.resolve q).agrees_self
  · exact Context.agrees_resolve_of_agrees hc hd h r

/-- A loop over a mapping whose keys are in another order, in a context that holds one more key. -/
theorem render_depends_reordered :
    Context.HasUniqueKeys ⟨⟨[("a", .mapping ⟨[("x", .scalar "1"), ("y", .null)]⟩)]⟩⟩ ∧
      Context.HasUniqueKeys
        ⟨⟨[("z", .null), ("a", .mapping ⟨[("y", .null), ("x", .scalar "1")]⟩)]⟩⟩ ∧
      (render ⟨[.block .loop (.key "a") [.interpolation ⟨"a", ["x"]⟩] none]⟩
          ⟨⟨[("a", .mapping ⟨[("x", .scalar "1"), ("y", .null)]⟩)]⟩⟩).1 =
        (render ⟨[.block .loop (.key "a") [.interpolation ⟨"a", ["x"]⟩] none]⟩
          ⟨⟨[("z", .null), ("a", .mapping ⟨[("y", .null), ("x", .scalar "1")]⟩)]⟩⟩).1 := by
  have hc : Context.HasUniqueKeys
      ⟨⟨[("a", .mapping ⟨[("x", .scalar "1"), ("y", .null)]⟩)]⟩⟩ := by
    refine .mapping (by decide) (List.forall_mem_singleton.mpr (.mapping (by decide) ?_))
    exact List.forall_mem_cons.mpr ⟨.scalar "1", List.forall_mem_singleton.mpr .null⟩
  have hd : Context.HasUniqueKeys
      ⟨⟨[("z", .null), ("a", .mapping ⟨[("y", .null), ("x", .scalar "1")]⟩)]⟩⟩ := by
    refine .mapping (by decide) (List.forall_mem_cons.mpr ⟨.null,
      List.forall_mem_singleton.mpr (.mapping (by decide) ?_)⟩)
    exact List.forall_mem_cons.mpr ⟨.null, List.forall_mem_singleton.mpr (.scalar "1")⟩
  exact ⟨hc, hd, (render_depends _ _ hc).1 _ hd (by decide)⟩

end Template

end DocTemplate
