import DocTemplate.Proofs.Context.Path
import DocTemplate.Template.Render

/-!
# Rendering reads its loops as scopes

Rendering threads one context through a template, and a loop writes to it: each item into the slot
of the loop's reference before its body is rendered, and the whole value back once all items are
done. In between, the bodies may hold loops of their own over the same slot, over one around it or
over one inside it.

The text can be said without any of that. `Node.scopedText` never changes a context: in a loop's
body it evaluates against the context of the loop with one slot replaced, as a scope would. The two
agree, and rendering leaves the context as it was (`Node.renderAll_adds`): a whole rendering only
adds a text. Two results follow.

* **A rendering restores its context** (`Template.render_restores`), so templates rendered one after
  the other against a shared context do not see each other.
* **Rendering is lexical scoping** (`Template.render_eq_scopedText`).

What makes the induction go through is weaker than "the context is unchanged", which fails between
two iterations: there the context is that of the loop *up to the slot of its reference*
(`Context.AgreesOff`). The next iteration overwrites just this slot, and so does the end of the
loop.
-/

namespace DocTemplate

/-! ### The scoped evaluation -/

/-- The texts that a body makes of items, one after the other, with the text of a separator after
each but the last. -/
def interleave (body separator : Value → String) : List Value → String
  | [] => ""
  | [item] => body item
  | item :: rest => body item ++ separator item ++ interleave body separator rest

theorem interleave_cons_cons (body separator : Value → String) (item next : Value)
    (rest : List Value) :
    interleave body separator (item :: next :: rest) =
      body item ++ separator item ++ interleave body separator (next :: rest) := rfl

/-- What a value passes on to the values in it, it passes on to the items that a loop runs over. -/
theorem Value.Inherited.of_mem_loopItems {P : Value → Prop} (hP : Value.Inherited P)
    {value item : Value} (h : P value) (hitem : item ∈ value.loopItems) : P item := by
  cases value with
  | sequence items => exact hP.item h hitem
  | _ => exact List.mem_singleton.mp hitem ▸ h

mutual

/-- The text of a node against a context that nothing changes. In the body of a loop the slot of its
reference holds the item, and all else is as around the loop. -/
def Node.scopedText : Node → Context → String
  | .literal text, _ => text
  | .interpolation r, c => (c.resolve r).text
  | .block .conditional r first second, c =>
    if (c.resolve r).isTruthy then Text.trimString (Node.scopedTextAll first c)
    else
      match second with
      | none => ""
      | some nodes => Text.trimString (Node.scopedTextAll nodes c)
  | .block .loop r first second, c =>
    if (c.resolve r).isTruthy then
      Text.trimString <|
        interleave (fun item => Node.scopedTextAll first (c.bind r item))
          (fun item =>
            match second with
            | none => ""
            | some nodes => Node.scopedTextAll nodes (c.bind r item))
          (c.resolve r).loopItems
    else ""

/-- The texts of nodes against one context, one after the other. -/
def Node.scopedTextAll : List Node → Context → String
  | [], _ => ""
  | node :: rest, c => Node.scopedText node c ++ Node.scopedTextAll rest c

end

/-- The text of a template by scopes. -/
def Template.scopedText (t : Template) (c : Context) : String :=
  Node.scopedTextAll t.nodes c

/-! ### Steps that only add a text -/

/-- A step adds the text that a function makes of the context, and leaves the context alone. -/
def RenderStep.Adds (step : RenderStep) (text : Context → String) : Prop :=
  ∀ out c, step out c = (out ++ text c, c)

/-- Two contexts agree off the slot of a reference: overwriting it makes them equal. -/
def Context.AgreesOff (r : Reference) (c d : Context) : Prop :=
  ∀ value, d.bind r value = c.bind r value

theorem Context.AgreesOff.refl (r : Reference) (c : Context) : c.AgreesOff r c := fun _ => rfl

/-- A context agrees with itself after a binding, off the slot that was bound. -/
theorem Context.agreesOff_bind (r : Reference) (c : Context) (value : Value) :
    Context.AgreesOff r c (c.bind r value) := fun other => c.bind_bind r value other

section Items

variable {r : Reference} {body separator : RenderStep} {bodyText separatorText : Context → String}

/-- **The invariant of a loop.** Started in a context that agrees with the loop's off its slot, the
iterations add the interleaved texts, each made in the loop's context with the item in the slot, and
they end in such a context again. -/
theorem renderItems_adds (hbody : body.Adds bodyText) (hseparator : separator.Adds separatorText)
    (c : Context) (items : List Value) (out : String) (d : Context) (hd : c.AgreesOff r d) :
    ∃ e, c.AgreesOff r e ∧ renderItems r body separator items out d =
      (out ++ interleave (fun item => bodyText (c.bind r item))
        (fun item => separatorText (c.bind r item)) items, e) := by
  induction items generalizing out d with
  | nil => exact ⟨d, hd, by rw [renderItems, interleave, String.append_empty]⟩
  | cons item rest ih =>
    -- `d` and `c` differ in the slot at most, and the item overwrites it
    have hitem : body out (d.bind r item) = (out ++ bodyText (c.bind r item), c.bind r item) := by
      rw [hd item, hbody out]
    cases rest with
    | nil =>
      refine ⟨c.bind r item, c.agreesOff_bind r item, ?_⟩
      simp only [renderItems, hitem, interleave]
    | cons next rest =>
      obtain ⟨e, he, heq⟩ :=
        ih (out ++ bodyText (c.bind r item) ++ separatorText (c.bind r item)) (c.bind r item)
          (c.agreesOff_bind r item)
      refine ⟨e, he, ?_⟩
      rw [renderItems, hitem]
      simp only [hseparator _ (c.bind r item), interleave]
      rw [heq, String.append_assoc, String.append_assoc, String.append_assoc]

/-- **A loop restores its context**: what the iterations leave differs in the slot only, the end of
the loop overwrites the slot, and a value that counts as true was in it before. -/
theorem renderItems_loopItems (hbody : body.Adds bodyText)
    (hseparator : separator.Adds separatorText) {c : Context}
    (htruthy : (c.resolve r).isTruthy = true) :
    ∃ e, e.bind r (c.resolve r) = c ∧
      renderItems r body separator (c.resolve r).loopItems "" c =
        (interleave (fun item => bodyText (c.bind r item))
          (fun item => separatorText (c.bind r item)) (c.resolve r).loopItems, e) := by
  obtain ⟨e, he, heq⟩ := renderItems_adds hbody hseparator c (c.resolve r).loopItems "" c
    (Context.AgreesOff.refl r c)
  refine ⟨e, (he _).trans (Context.bind_resolve_of_isTruthy htruthy), ?_⟩
  rw [heq, String.empty_append]

end Items

/-! ### One equation for each kind of node

A block without a second branch is as good as one whose second branch has no nodes: between two
items nothing is added either way, and trimming leaves an empty text as it is. -/

namespace Node

theorem renderAll_nil (out : String) (c : Context) : renderAll [] out c = (out, c) := rfl

theorem renderAll_cons (node : Node) (rest : List Node) (out : String) (c : Context) :
    renderAll (node :: rest) out c = renderAll rest (render node out c).1 (render node out c).2 :=
  rfl

theorem scopedTextAll_nil (c : Context) : scopedTextAll [] c = "" := rfl

theorem scopedTextAll_cons (node : Node) (rest : List Node) (c : Context) :
    scopedTextAll (node :: rest) c = scopedText node c ++ scopedTextAll rest c := rfl

theorem scopedText_literal (text : String) (c : Context) : scopedText (.literal text) c = text :=
  rfl

theorem scopedText_interpolation (r : Reference) (c : Context) :
    scopedText (.interpolation r) c = (c.resolve r).text := rfl

variable (r : Reference) (first : List Node) (second : Option (List Node)) (c : Context)

/-- The nodes of a conditional block that are used. -/
def chosen : List Node :=
  if (c.resolve r).isTruthy then first else second.getD []

theorem render_conditional (out : String) :
    render (.block .conditional r first second) out c =
      (out ++ Text.trimString (renderAll (chosen r first second c) "" c).1,
        (renderAll (chosen r first second c) "" c).2) := by
  rw [chosen]
  split
  next htruthy => cases second <;> exact if_pos htruthy
  next hfalsy =>
    cases second with
    | none => exact (if_neg hfalsy).trans (congrArg (·, c) String.append_empty.symm)
    | some nodes => exact if_neg hfalsy

theorem scopedText_conditional :
    scopedText (.block .conditional r first second) c =
      Text.trimString (scopedTextAll (chosen r first second c) c) := by
  rw [chosen]
  split
  next htruthy => cases second <;> exact if_pos htruthy
  next hfalsy => cases second <;> exact if_neg hfalsy

theorem render_loop (out : String) :
    render (.block .loop r first second) out c =
      if (c.resolve r).isTruthy then
        let done :=
          renderItems r (renderAll first) (renderAll (second.getD [])) (c.resolve r).loopItems "" c
        (out ++ Text.trimString done.1, done.2.bind r (c.resolve r))
      else (out, c) := by
  cases second <;> rfl

theorem scopedText_loop :
    scopedText (.block .loop r first second) c =
      if (c.resolve r).isTruthy then
        Text.trimString (interleave (fun item => scopedTextAll first (c.bind r item))
          (fun item => scopedTextAll (second.getD []) (c.bind r item)) (c.resolve r).loopItems)
      else "" := by
  cases second <;> rfl

end Node

/-! ### The agreement -/

mutual

/-- **Rendering a node only adds its scoped text.** -/
theorem Node.render_adds (node : Node) : RenderStep.Adds node.render node.scopedText := by
  intro out c
  match node with
  | .literal text => rfl
  | .interpolation r => rfl
  | .block .conditional r first second =>
    have hchosen : RenderStep.Adds (Node.renderAll (Node.chosen r first second c))
        (Node.scopedTextAll (Node.chosen r first second c)) := by
      rw [Node.chosen]
      split
      · exact Node.renderAll_adds first
      · exact Node.renderSecond_adds second
    rw [Node.render_conditional, Node.scopedText_conditional, hchosen, String.empty_append]
  | .block .loop r first second =>
    rw [Node.render_loop, Node.scopedText_loop]
    split
    next htruthy =>
      obtain ⟨e, he, heq⟩ := renderItems_loopItems (Node.renderAll_adds first)
        (Node.renderSecond_adds second) htruthy
      simp only [heq, he]
    next => rw [String.append_empty]

/-- **Rendering nodes only adds their scoped texts.** -/
theorem Node.renderAll_adds (nodes : List Node) :
    RenderStep.Adds (Node.renderAll nodes) (Node.scopedTextAll nodes) := by
  intro out c
  match nodes with
  | [] => rw [Node.renderAll_nil, Node.scopedTextAll_nil, String.append_empty]
  | node :: rest =>
    rw [Node.renderAll_cons, Node.render_adds node, Node.renderAll_adds rest,
      Node.scopedTextAll_cons, String.append_assoc]

/-- So does rendering a second branch, which may be missing. -/
theorem Node.renderSecond_adds (second : Option (List Node)) :
    RenderStep.Adds (Node.renderAll (second.getD [])) (Node.scopedTextAll (second.getD [])) := by
  match second with
  | none => exact Node.renderAll_adds []
  | some nodes => exact Node.renderAll_adds nodes

end

namespace Template

/-- What a rendering gives: the scoped text, and the context it was given. -/
theorem render_eq (t : Template) (c : Context) : t.render c = (t.scopedText c, c) := by
  rw [render, Node.renderAll_adds t.nodes "" c, String.empty_append, scopedText]

/-- **Rendering is lexical scoping**: binding each item into the shared context and restoring it
after the last one makes the text that the scoped evaluation makes. -/
theorem render_eq_scopedText (t : Template) (c : Context) : (t.render c).1 = t.scopedText c := by
  rw [render_eq]

/-! ### Renderings in a row -/

/-- Render templates one after the other against one context, each against what the rendering before
it left. The texts are given in order. -/
def renderEach : List Template → Context → List String × Context
  | [], c => ([], c)
  | t :: rest, c =>
    let (text, c) := t.render c
    let (texts, c) := renderEach rest c
    (text :: texts, c)

theorem renderEach_eq (ts : List Template) (c : Context) :
    renderEach ts c = (ts.map fun t => (t.render c).1, c) := by
  induction ts with
  | nil => rfl
  | cons t rest ih =>
    rw [renderEach]
    simp only [render_eq] at ih ⊢
    rw [ih, List.map_cons]

/-- **A rendering restores its context**, every value and the order of the keys at every level
included. Hence templates that are rendered one after the other against one context each make the
text that they make of that context alone. -/
theorem render_restores (c : Context) :
    (∀ t : Template, (t.render c).2 = c) ∧
      ∀ ts : List Template, renderEach ts c = (ts.map fun t => (t.render c).1, c) :=
  ⟨fun t => by rw [render_eq], fun ts => renderEach_eq ts c⟩

end Template

end DocTemplate
