import DocTemplate.Proofs.Context.Path
import DocTemplate.Proofs.Text.LineEnding

/-!
# Values with either line ending

`Value.crlf` puts pairs for the line feeds in the scalars of a value and leaves its keys alone. So a
path leads to the image of what it led to (`Context.resolve_crlf`), a value bound to a reference
becomes its image bound to it (`Context.bind_crlf`), and a value counts as true or not as before
(`Value.isTruthy_crlf`).

The text of a value becomes its other form (`Value.text_crlf`). That this text has no carriage
returns takes a value whose scalars have none (`Value.IsReturnFree`), which is passed on to what a
path leads to and kept by a binding.
-/

namespace DocTemplate

open Text (crlfString)

/-! ### Values in the other form -/

mutual

/-- A value with pairs for the line feeds in its scalars. -/
def Value.crlf : Value → Value
  | .null => .null
  | .boolean truth => .boolean truth
  | .scalar text => .scalar (crlfString text)
  | .sequence items => .sequence (Value.crlfAll items)
  | .mapping ⟨entries⟩ => .mapping ⟨Value.crlfEntries entries⟩

/-- Values with pairs for the line feeds in their scalars. -/
def Value.crlfAll : List Value → List Value
  | [] => []
  | item :: rest => Value.crlf item :: Value.crlfAll rest

/-- Entries with pairs for the line feeds in the scalars of their values. -/
def Value.crlfEntries : List (String × Value) → List (String × Value)
  | [] => []
  | (key, value) :: rest => (key, Value.crlf value) :: Value.crlfEntries rest

end

/-- A context with pairs for the line feeds in its scalars. -/
def Context.crlf (c : Context) : Context :=
  ⟨c.root.map Value.crlf⟩

namespace Value

theorem crlfAll_eq_map (items : List Value) : crlfAll items = items.map crlf := by
  induction items with
  | nil => rfl
  | cons item rest ih => rw [crlfAll, ih, List.map_cons]

theorem crlf_mapping (fields : Mapping) : crlf (.mapping fields) = .mapping (fields.map crlf) := by
  obtain ⟨entries⟩ := fields
  simp only [crlf, OrderedMap.map, mapping.injEq, OrderedMap.mk.injEq]
  induction entries with
  | nil => rfl
  | cons entry rest ih => rw [crlfEntries, ih, List.map_cons]

theorem isTruthy_crlf (v : Value) : v.crlf.isTruthy = v.isTruthy := by
  cases v with
  | sequence items => cases items <;> rfl
  | mapping fields => rw [crlf_mapping, isTruthy, isTruthy]
  | _ => rfl

end Value

/-! ### Paths -/

namespace Mapping

theorem lookupPath_crlf (m : Mapping) (key : String) (path : List String) :
    lookupPath (m.map Value.crlf) key path = (lookupPath m key path).crlf := by
  induction path generalizing m key with
  | nil =>
    rw [lookupPath, lookupPath, OrderedMap.get?_map]
    cases m.get? key <;> rfl
  | cons next rest ih =>
    rw [lookupPath, lookupPath, OrderedMap.get?_map]
    cases m.get? key with
    | none => rfl
    | some value =>
      cases value with
      | mapping inner =>
        simp only [Option.map_some, Value.crlf_mapping]
        exact ih inner next
      | _ => rfl

theorem bindPath_crlf (m : Mapping) (key : String) (value : Value) (path : List String) :
    bindPath (m.map Value.crlf) key value.crlf path =
      (bindPath m key value path).map Value.crlf := by
  induction path generalizing m key with
  | nil => exact (OrderedMap.map_insert Value.crlf m key value).symm
  | cons next rest ih =>
    rw [bindPath, bindPath, OrderedMap.get?_map]
    cases m.get? key with
    | none => rfl
    | some found =>
      cases found with
      | mapping inner =>
        simp only [Option.map_some, Value.crlf_mapping, OrderedMap.map_insert, ih]
      | _ => rfl

end Mapping

namespace Context

/-- **A reference leads to the image of what it led to.** -/
theorem resolve_crlf (c : Context) (r : Reference) : c.crlf.resolve r = (c.resolve r).crlf :=
  Mapping.lookupPath_crlf c.root r.first r.rest

/-- **Binding commutes with the change of line endings.** -/
theorem bind_crlf (c : Context) (r : Reference) (value : Value) :
    c.crlf.bind r value.crlf = (c.bind r value).crlf :=
  congrArg Context.mk (Mapping.bindPath_crlf c.root r.first value r.rest)

end Context

/-! ### Scalars without carriage returns -/

/-- No scalar of a value has a carriage return. -/
inductive Value.IsReturnFree : Value → Prop
  | null : IsReturnFree .null
  | boolean (truth : Bool) : IsReturnFree (.boolean truth)
  | scalar {text : String} (htext : '\r' ∉ text.toList) : IsReturnFree (.scalar text)
  | sequence {items : List Value} (hitems : ∀ item ∈ items, IsReturnFree item) :
      IsReturnFree (.sequence items)
  | mapping {fields : Mapping} (hfields : ∀ entry ∈ fields.entries, IsReturnFree entry.2) :
      IsReturnFree (.mapping fields)

/-- No scalar of a context has a carriage return. -/
def Context.IsReturnFree (c : Context) : Prop := (Value.mapping c.root).IsReturnFree

/-- **The lack of carriage returns is passed on** to the values in a value, and insertions keep
it. -/
theorem Value.inherited_isReturnFree : Value.Inherited Value.IsReturnFree where
  null := .null
  item h hitem := by
    cases h with
    | sequence hitems => exact hitems _ hitem
  get? h hvalue := by
    cases h with
    | mapping hfields => exact hfields _ (OrderedMap.mem_entries_of_get? hvalue)
  insert h hvalue key := by
    cases h with
    | mapping hfields =>
      refine .mapping fun entry hentry => ?_
      rcases OrderedMap.mem_entries_insert hentry with rfl | hmem
      · exact hvalue
      · exact hfields entry hmem

namespace Context.IsReturnFree

variable {c : Context}

theorem resolve (hc : c.IsReturnFree) (r : Reference) : (c.resolve r).IsReturnFree :=
  Value.inherited_isReturnFree.lookupPath hc r.first r.rest

theorem bind (hc : c.IsReturnFree) {value : Value} (hvalue : value.IsReturnFree) (r : Reference) :
    (c.bind r value).IsReturnFree :=
  Value.inherited_isReturnFree.bindPath hc hvalue r.first r.rest

end Context.IsReturnFree

/-! ### The text of a value -/

/-- The text of a truth value and of a mapping ends no line. -/
theorem Value.isCrlfOf_true : Text.IsCrlfOf "true" "true" := ⟨by decide, by decide⟩

mutual

/-- **The text of a value becomes its other form**, and has no carriage returns. -/
theorem Value.text_crlf (v : Value) (h : v.IsReturnFree) :
    Text.IsCrlfOf v.crlf.text v.text := by
  match v with
  | .null => exact .empty
  | .boolean true => exact Value.isCrlfOf_true
  | .boolean false => exact .empty
  | .scalar text =>
    cases h with
    | scalar htext => exact ⟨htext, rfl⟩
  | .sequence items =>
    cases h with
    | sequence hitems => exact Value.textAll_crlf items hitems
  | .mapping fields =>
    rw [Value.crlf_mapping]
    exact Value.isCrlfOf_true

/-- So do the texts of values one after the other. -/
theorem Value.textAll_crlf (items : List Value) (h : ∀ item ∈ items, item.IsReturnFree) :
    Text.IsCrlfOf (Value.textAll (Value.crlfAll items)) (Value.textAll items) := by
  match items with
  | [] => exact .empty
  | item :: rest =>
    rw [Value.crlfAll, Value.textAll, Value.textAll]
    exact (Value.text_crlf item (h item List.mem_cons_self)).append
      (Value.textAll_crlf rest fun other hmem => h other (List.mem_cons_of_mem _ hmem))

end

end DocTemplate
