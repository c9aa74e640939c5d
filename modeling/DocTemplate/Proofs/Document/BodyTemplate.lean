import DocTemplate.Document.Converter
import DocTemplate.Proofs.Template.Recognition

/-!
# Converting without a template

A converter that is given no template uses the one that holds the body and nothing else. **The output
is then the rendered body, whatever the key of the body is and whatever the metadata hold**
(`Converter.body_without_template`): the body is put under its key after all hooks, and the template
refers to this key as a whole, so that a dot in it leads nowhere else and a reserved word is no harm.

The template is not compiled, and mostly it could not be. A source that compiles to one variable is the
written form of this variable (`Grammar.derives_variable_iff`). So the key between dollars compiles to
the template exactly if the key is a name and no reserved word; for any other key the source is refused
or is something else, be it several variables or a whole block.
-/

namespace DocTemplate

/-! ### Sources of one variable -/

namespace Node

variable {node : Node} {nodes : List Node}

theorem cons_ne_nil (node : Node) (nodes : List Node) : cons node nodes ≠ [] := by
  cases node with
  | literal text =>
    cases nodes with
    | nil => exact List.cons_ne_nil _ _
    | cons next rest => cases next <;> exact List.cons_ne_nil _ _
  | interpolation r => exact List.cons_ne_nil _ _
  | block kind r first second => exact List.cons_ne_nil _ _

/-- A single variable is not made by joining literals. -/
theorem eq_of_cons_eq_interpolation {r : Reference} (h : cons node nodes = [.interpolation r]) :
    node = .interpolation r ∧ nodes = [] := by
  cases node with
  | literal text =>
    cases nodes with
    | nil => cases h
    | cons next rest => cases next <;> cases h
  | interpolation r' =>
    cases h
    exact ⟨rfl, rfl⟩
  | block kind r' first second => cases h

end Node

namespace Reference

@[simp] theorem chars_key (name : String) : (key name).chars = name.toList := by
  rw [chars_eq, key, dotted, List.flatMap_nil, List.append_nil]

theorem isWritable_key_iff {name : String} : (key name).IsWritable ↔ Text.IsName name := by
  simp [IsWritable, key, components]

theorem isReserved_key_iff {name : String} :
    (key name).isReserved = false ↔ name ∉ reservedWords := by
  simp [isReserved, key]

end Reference

namespace Grammar

variable {text : List Char} {r : Reference}

theorem eq_nil_of_derives_nil (h : Derives text []) : text = [] := by
  generalize hnodes : ([] : List Node) = nodes at h
  cases h with
  | nil => rfl
  | @cons _ _ node nodes _ _ => exact absurd hnodes.symm (Node.cons_ne_nil node nodes)

/-- **One variable is written in one way.** -/
theorem derives_variable_iff :
    Derives text [.interpolation r] ↔
      text = r.variableTag ∧ r.IsWritable ∧ r.isReserved = false := by
  constructor
  · intro h
    generalize hnodes : [Node.interpolation r] = nodes at h
    cases h with
    | nil => cases hnodes
    | @cons front rest node nodes helement hrest =>
      obtain ⟨rfl, rfl⟩ := Node.eq_of_cons_eq_interpolation hnodes.symm
      obtain rfl := eq_nil_of_derives_nil hrest
      cases helement with
      | leaf hleaf =>
        cases hleaf with
        | interpolation hr hreserved => exact ⟨List.append_nil _, hr, hreserved⟩
  · rintro ⟨rfl, hr, hreserved⟩
    have h := Derives.cons (.leaf (.interpolation hr hreserved)) .nil
    rwa [List.append_nil] at h

end Grammar

/-- **A key between dollars compiles to the variable of the key** exactly if it is a name that is not
reserved. No block is needed for it, so the limit does not matter. -/
theorem Template.compile_key_eq_ok_iff (key : String) (limit : Nat) :
    compile ("$" ++ key ++ "$") limit = .ok ⟨[.interpolation (.key key)]⟩ ↔
      Text.IsName key ∧ key ∉ Reference.reservedWords := by
  have hsource : ("$" ++ key ++ "$").toList = (Reference.key key).variableTag := by
    simp [Reference.variableTag]
  have hdepth : depth ⟨[.interpolation (.key key)]⟩ ≤ limit := Nat.zero_le limit
  rw [compile_eq_ok_iff, and_iff_left hdepth, hsource, Grammar.derives_variable_iff,
    and_iff_right rfl, Reference.isWritable_key_iff, Reference.isReserved_key_iff]

/-! ### The body -/

namespace Converter

variable {k : Converter} {d : Document} {c : Context} {source body : String}

/-- The context of a document whose body is rendered. -/
theorem context_eq_ok (h : k.renderBody d.body = .ok body) :
    k.context d = .ok ⟨d.metadata.insert k.bodyKey (.scalar body)⟩ := by
  rw [context, h]
  rfl

/-- What is converted is rendered against the context of its document. -/
theorem convert_eq_ok (hd : k.parse source = .ok d) (hc : k.context d = .ok c) (t : Template) :
    k.convert source t = .ok (t.render c).1 := by
  simp only [convert, hd, hc, bind, Except.bind, pure, Except.pure]

/-- The template without a source has the text of what is under the key of the body. -/
theorem render_bodyTemplate (k : Converter) (c : Context) :
    (k.bodyTemplate.render c).1 = ((c.get? k.bodyKey).getD .null).text :=
  String.empty_append

/-- **Without a template the output is the body.** This holds for every key of the body, and nothing
that the metadata hold has a part in it. The template that is used is what the key between dollars
compiles to exactly if the key is a name that is not reserved. -/
theorem body_without_template (k : Converter) :
    (∀ source d body, k.parse source = .ok d → k.renderBody d.body = .ok body →
      k.convert source k.bodyTemplate = .ok body) ∧
    ∀ limit, Template.compile ("$" ++ k.bodyKey ++ "$") limit = .ok k.bodyTemplate ↔
      Text.IsName k.bodyKey ∧ k.bodyKey ∉ Reference.reservedWords := by
  refine ⟨fun source d body hd hbody => ?_, Template.compile_key_eq_ok_iff k.bodyKey⟩
  rw [convert_eq_ok hd (context_eq_ok hbody), render_bodyTemplate, Context.get?,
    OrderedMap.get?_insert_self]
  rfl

/-- The hooks give metadata under the key as well as along the path that it would be in a source. -/
theorem body_without_template_dotted :
    let k : Converter := { standard with
      renderBody := fun body => .ok ("<" ++ body ++ ">")
      hooks := [.defaults ⟨[("doc", .mapping ⟨[("$", .scalar "x")]⟩)]⟩,
        .overrides ⟨[("doc.$", .scalar "given")]⟩]
      bodyKey := "doc.$" }
    let d : Document :=
      ⟨⟨[("doc", .mapping ⟨[("$", .scalar "x")]⟩), ("doc.$", .scalar "given")]⟩, "Hi"⟩
    k.parse "---\n---\nHi" = .ok d ∧ k.renderBody d.body = .ok "<Hi>" ∧
      k.convert "---\n---\nHi" k.bodyTemplate = .ok "<Hi>" := by
  intro k d
  have hd : k.parse "---\n---\nHi" = .ok d := by with_unfolding_all rfl
  have hbody : k.renderBody d.body = .ok "<Hi>" := by with_unfolding_all rfl
  exact ⟨hd, hbody, k.body_without_template.1 _ d "<Hi>" hd hbody⟩

end Converter

end DocTemplate
