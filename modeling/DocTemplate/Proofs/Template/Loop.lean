import DocTemplate.Proofs.Context.Binding
import DocTemplate.Proofs.Template.Scope

/-!
# Loops beside conditionals and interpolations

Three kinds of node read the value of a reference. An interpolation writes its text, a conditional
asks whether it counts as true, and a loop does this as well and then runs over its items, each put
into the slot of the reference in its turn. Each of them treats the falsy values and those that are
not sequences in its own way, and a value has its text by a recursion on the sequences in it that no
loop makes. The three agree nevertheless (`Node.loop_coherent`).

* **A loop over anything but a sequence is a conditional without a second branch.** Its one item is
  the value itself, and putting back what a slot holds changes nothing for any body
  (`Context.bind_resolve_of_isTruthy`).
* **A loop that only writes its item interpolates.** The slot of a value that counts as true is
  there, so the body finds in it the item that was put there (`Context.resolve_bind_of_isTruthy`),
  and the texts of the items make up that of the value (`Value.textAll_loopItems`).
-/

namespace DocTemplate

/-! ### The items of a value -/

namespace Value

variable {v : Value}

theorem loopItems_of_ne_sequence (h : ∀ items, v ≠ .sequence items) : v.loopItems = [v] := by
  cases v with
  | sequence items => exact absurd rfl (h items)
  | _ => rfl

/-- A value that does not count as true has no text. -/
theorem text_of_not_isTruthy (h : ¬v.isTruthy) : v.text = "" := by
  cases v with
  | null => rfl
  | boolean truth =>
    cases truth with
    | false => rfl
    | true => exact absurd rfl h
  | scalar => exact absurd rfl h
  | sequence items =>
    cases items with
    | nil => rfl
    | cons => exact absurd rfl h
  | mapping => exact absurd rfl h

/-- **The texts of the items of a value make up its text**, whether it is a sequence or not. -/
theorem textAll_loopItems (v : Value) : textAll v.loopItems = v.text := by
  cases v with
  | sequence => rfl
  | _ => exact String.append_empty

end Value

/-- Items that are written as they are, with nothing between them. -/
theorem interleave_text (items : List Value) :
    interleave Value.text (fun _ => "") items = Value.textAll items := by
  induction items with
  | nil => rfl
  | cons item rest ih =>
    cases rest with
    | nil => exact String.append_empty.symm
    | cons next rest =>
      rw [interleave_cons_cons, String.append_empty, ih]
      rfl

/-! ### The slot of a truthy value -/

/-- **What is bound to a reference is what it leads to**, if it led to a value that counts as true:
such a value stands in a slot, and hence in a mapping that the parents lead to. -/
theorem Context.resolve_bind_of_isTruthy {c : Context} {r : Reference}
    (h : (c.resolve r).isTruthy = true) (v : Value) : (c.bind r v).resolve r = v := by
  cases hparent : c.root.inner? r.parents with
  | none =>
    rw [resolve_eq_slot?, slot?_eq, hparent] at h
    cases h
  | some parent => exact (isBound_bind hparent v).here

/-! ### The coherence -/

namespace Node

variable {r : Reference} {c : Context}

theorem scopedText_loop_of_ne_sequence (h : ∀ items, c.resolve r ≠ .sequence items)
    (first : List Node) (second : Option (List Node)) :
    scopedText (.block .loop r first second) c =
      scopedText (.block .conditional r first none) c := by
  rw [scopedText_loop, scopedText_conditional, chosen]
  split
  next htruthy =>
    rw [Value.loopItems_of_ne_sequence h, interleave, Context.bind_resolve_of_isTruthy htruthy]
  next => rfl

theorem scopedText_loop_interpolation (r : Reference) (c : Context) :
    scopedText (.block .loop r [.interpolation r] none) c =
      Text.trimString (scopedText (.interpolation r) c) := by
  rw [scopedText_loop, scopedText_interpolation]
  split
  next htruthy =>
    have hitem (item : Value) : scopedTextAll [.interpolation r] (c.bind r item) = item.text := by
      rw [scopedTextAll_cons, scopedText_interpolation, scopedTextAll_nil, String.append_empty,
        Context.resolve_bind_of_isTruthy htruthy]
    have hgap (item : Value) : scopedTextAll (Option.getD none []) (c.bind r item) = "" := rfl
    simp only [hitem, hgap]
    rw [interleave_text, Value.textAll_loopItems]
  next hfalsy =>
    rw [Value.text_of_not_isTruthy hfalsy]
    rfl

/-- **Loops, conditionals and interpolations are coherent.** A loop over a value that is not a
sequence is rendered as the conditional with its body and no second branch, whatever its separator.
A loop whose body interpolates its own reference adds the trimmed text of that interpolation,
whatever the value is. -/
theorem loop_coherent (r : Reference) (c : Context) (out : String) :
    ((∀ items, c.resolve r ≠ .sequence items) → ∀ first second,
      render (.block .loop r first second) out c =
        render (.block .conditional r first none) out c) ∧
      render (.block .loop r [.interpolation r] none) out c =
        (out ++ Text.trimString (render (.interpolation r) "" c).1, c) := by
  refine ⟨fun h first second => ?_, ?_⟩
  · rw [render_adds, render_adds, scopedText_loop_of_ne_sequence h]
  · rw [render_adds, render_adds, scopedText_loop_interpolation, String.empty_append]

/-- Both halves at a path of two keys: a text that ends a line, under a loop with a separator, and a
sequence with a sequence and values without a text in it, whose text begins and ends with a line
terminator. The loop leaves both out. -/
theorem loop_coherent_nested :
    let r : Reference := ⟨"a", ["b"]⟩
    let line : Context := ⟨⟨[("a", .mapping ⟨[("b", .scalar "x\n")]⟩)]⟩⟩
    let deep : Context := ⟨⟨[("a", .mapping ⟨[("b",
      .sequence [.sequence [.scalar "\nx", .null], .boolean false, .scalar "y\r\n"])]⟩)]⟩⟩
    (∀ items, line.resolve r ≠ .sequence items) ∧
      render (.block .loop r [.literal "<", .interpolation r] (some [.literal ","])) "" line =
        render (.block .conditional r [.literal "<", .interpolation r] none) "" line ∧
      (render (.interpolation r) "" deep).1 = "\nxy\r\n" ∧
      render (.block .loop r [.interpolation r] none) "" deep = ("xy", deep) := by
  intro r line deep
  have hline : ∀ items, line.resolve r ≠ .sequence items := nofun
  have htext : (render (.interpolation r) "" deep).1 = "\nxy\r\n" := by decide +kernel
  have htrim : "" ++ Text.trimString "\nxy\r\n" = "xy" := by decide +kernel
  refine ⟨hline, (loop_coherent r line "").1 hline _ _, htext, ?_⟩
  rw [(loop_coherent r deep "").2, htext, htrim]

end Node

end DocTemplate
