import DocTemplate.Context
import DocTemplate.Template.Parser
import DocTemplate.Text.Line

/-!
# Rendering a template

Nodes are rendered one after the other against a context, each onto the text made so far. A loop
binds its reference to one item after the other while its body is rendered, and to the whole value
again at its end. The output of a block is trimmed, which offsets the line terminators that the
block's tags leave.
-/

namespace DocTemplate

/-- A step of a rendering: from the text made so far and the context to those after the step. -/
abbrev RenderStep := String → Context → String × Context

/-- The items that a loop runs over: those of a sequence, and any other value as a single one. -/
def Value.loopItems : Value → List Value
  | .sequence items => items
  | value => [value]

/-- Run a body for each of some items, with a reference bound to the item, and a separator after
each but the last. -/
def renderItems (r : Reference) (body separator : RenderStep) : List Value → RenderStep
  | [], out, c => (out, c)
  | item :: rest, out, c =>
    let (out, c) := body out (c.bind r item)
    match rest with
    | [] => (out, c)
    | _ :: _ =>
      let (out, c) := separator out c
      renderItems r body separator rest out c

mutual

/-- Render a node. -/
def Node.render : Node → RenderStep
  | .literal text, out, c => (out ++ text, c)
  | .interpolation r, out, c => (out ++ (c.resolve r).text, c)
  | .block .conditional r first second, out, c =>
    if (c.resolve r).isTruthy then
      let (text, c) := Node.renderAll first "" c
      (out ++ Text.trimString text, c)
    else
      match second with
      | none => (out, c)
      | some nodes =>
        let (text, c) := Node.renderAll nodes "" c
        (out ++ Text.trimString text, c)
  | .block .loop r first second, out, c =>
    let value := c.resolve r
    if value.isTruthy then
      let separator : RenderStep :=
        match second with
        | none => fun out c => (out, c)
        | some nodes => fun out c => Node.renderAll nodes out c
      let (text, c) :=
        renderItems r (fun out c => Node.renderAll first out c) separator value.loopItems "" c
      (out ++ Text.trimString text, c.bind r value)
    else (out, c)

/-- Render nodes in order. -/
def Node.renderAll : List Node → RenderStep
  | [], out, c => (out, c)
  | node :: rest, out, c =>
    let (out, c) := Node.render node out c
    Node.renderAll rest out c

end

namespace Template

/-- The text of a template against a context, and the context afterwards. -/
def render (t : Template) (c : Context) : String × Context :=
  Node.renderAll t.nodes "" c

/-- Render the template with a given source. -/
def compileAndRender (source : String) (limit : Nat) (c : Context) :
    Except TemplateError (String × Context) :=
  (compile source limit).map fun t => t.render c

end Template

end DocTemplate
