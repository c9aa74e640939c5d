import DocTemplate.Context

/-!
# Binding and resolving along a path

A reference names a slot of a context: the place under its last key in the mapping that the keys
before it lead to. Resolving reads the slot and binding writes it, and the two behave as reading and
writing a cell do. Of two values bound to one slot the second stays (`bindPath_bindPath`), and
binding the value that a slot holds changes nothing (`bindPath_of_lookupPath?`), not even the order
of the keys.

A slot may be missing, and resolving does not tell a missing slot from one that holds `null`. The
second law needs the difference: binding `null` to a missing slot would add a key. So the reading is
stated first with the difference kept (`lookupPath?`). A value that counts as true is not `null`,
hence a slot that resolves to one is present.

Properties of values that hold of all values in a value go along: what they hold of is passed on to
what a path leads to, and a binding keeps them (`Value.Inherited`).
-/

namespace DocTemplate

namespace Mapping

/-! ### The first step of a path

A path of two or more keys goes on in the mapping under the first one, and nowhere if there is
none. -/

section Step

variable {m inner : Mapping} {key : String}

theorem lookupPath_cons_of_get? (h : m.get? key = some (.mapping inner)) (next : String)
    (rest : List String) : lookupPath m key (next :: rest) = lookupPath inner next rest := by
  simp only [lookupPath, h]

theorem lookupPath_cons_of_ne (h : ∀ inner, m.get? key ≠ some (.mapping inner)) (next : String)
    (rest : List String) : lookupPath m key (next :: rest) = .null := by
  rw [lookupPath]
  split
  next inner hinner => exact absurd hinner (h inner)
  next => rfl

theorem bindPath_cons_of_get? (h : m.get? key = some (.mapping inner)) (next : String)
    (value : Value) (rest : List String) :
    bindPath m key value (next :: rest) =
      m.insert key (.mapping (bindPath inner next value rest)) := by
  simp only [bindPath, h]

theorem bindPath_cons_of_ne (h : ∀ inner, m.get? key ≠ some (.mapping inner)) (next : String)
    (value : Value) (rest : List String) : bindPath m key value (next :: rest) = m := by
  rw [bindPath]
  split
  next inner hinner => exact absurd hinner (h inner)
  next => rfl

/-- A binding leaves alone what is under another first key. -/
theorem lookupPath_bindPath_of_ne {other : String} (hne : other ≠ key) (value : Value)
    (path path' : List String) :
    lookupPath (bindPath m key value path) other path' = lookupPath m other path' := by
  have hget : (bindPath m key value path).get? other = m.get? other := by
    cases path with
    | nil => exact m.get?_insert_of_ne hne value
    | cons next rest =>
      rw [bindPath]
      split
      · exact m.get?_insert_of_ne hne _
      · rfl
  cases path' with
  | nil => rw [lookupPath, lookupPath, hget]
  | cons next rest => rw [lookupPath, lookupPath, hget]

end Step

/-- **A binding leaves alone what lies on a path that branches off** from the bound one. -/
theorem lookupPath_bindPath_of_not_prefix {m : Mapping} {key other : String}
    {path path' : List String} (value : Value) (h : ¬key :: path <+: other :: path')
    (h' : ¬other :: path' <+: key :: path) :
    lookupPath (bindPath m key value path) other path' = lookupPath m other path' := by
  induction path generalizing m key other path' with
  | nil =>
    refine lookupPath_bindPath_of_ne ?_ value [] path'
    rintro rfl
    exact h ⟨path', rfl⟩
  | cons next rest ih =>
    by_cases hne : other = key
    case neg => exact lookupPath_bindPath_of_ne hne value _ path'
    subst hne
    rw [List.cons_prefix_cons, and_iff_right rfl] at h h'
    cases path' with
    | nil => exact absurd List.nil_prefix h'
    | cons next' rest' =>
      by_cases hinner : ∃ inner, m.get? other = some (.mapping inner)
      · obtain ⟨inner, hinner⟩ := hinner
        rw [bindPath_cons_of_get? hinner, lookupPath_cons_of_get? hinner,
          lookupPath_cons_of_get? (OrderedMap.get?_insert_self ..)]
        exact ih h h'
      · rw [bindPath_cons_of_ne fun inner hget => hinner ⟨inner, hget⟩]

/-! ### Slots -/

/-- The value in the slot at the end of a path of keys, if there is such a slot. -/
def lookupPath? (m : Mapping) (key : String) : List String → Option Value
  | [] => m.get? key
  | next :: rest =>
    match m.get? key with
    | some (.mapping inner) => lookupPath? inner next rest
    | _ => none

/-- A path that leads to no slot stands for `null`. -/
theorem lookupPath_eq_getD (m : Mapping) (key : String) (path : List String) :
    lookupPath m key path = (lookupPath? m key path).getD .null := by
  induction path generalizing m key with
  | nil => rfl
  | cons next rest ih =>
    simp only [lookupPath, lookupPath?]
    cases m.get? key with
    | none => rfl
    | some v =>
      cases v with
      | mapping inner => exact ih inner next
      | _ => rfl

/-- **Of two values bound to one slot the second stays.** -/
theorem bindPath_bindPath (m : Mapping) (key : String) (value other : Value)
    (path : List String) :
    bindPath (bindPath m key value path) key other path = bindPath m key other path := by
  induction path generalizing m key with
  | nil => exact m.insert_insert_self key value other
  | cons next rest ih =>
    simp only [bindPath]
    cases hm : m.get? key with
    | none => simp only [hm]
    | some v =>
      cases v with
      | mapping inner =>
        -- the inner mapping found after the first binding is the one that binding left
        simp only [OrderedMap.get?_insert_self, OrderedMap.insert_insert_self, ih]
      | _ => simp only [hm]

/-- **Binding what a slot holds changes nothing.** -/
theorem bindPath_of_lookupPath? {m : Mapping} {key : String} {value : Value}
    {path : List String} (h : lookupPath? m key path = some value) :
    bindPath m key value path = m := by
  induction path generalizing m key with
  | nil => exact OrderedMap.insert_of_get? h
  | cons next rest ih =>
    rw [lookupPath?] at h
    split at h
    · next inner hm =>
      rw [bindPath, hm]
      simp only [ih h]
      exact OrderedMap.insert_of_get? hm
    · cases h

end Mapping

/-! ### What a path passes on -/

/-- A property of values that sequences and mappings pass on to the values in them, and that
mappings keep if a value with the property is inserted. -/
structure Value.Inherited (P : Value → Prop) : Prop where
  null : P .null
  item {items : List Value} {item : Value} (h : P (.sequence items)) (hitem : item ∈ items) : P item
  get? {m : Mapping} {key : String} {value : Value} (h : P (.mapping m))
    (hvalue : m.get? key = some value) : P value
  insert {m : Mapping} {value : Value} (h : P (.mapping m)) (hvalue : P value) (key : String) :
    P (.mapping (m.insert key value))

namespace Value.Inherited

variable {P : Value → Prop} {m : Mapping} {value : Value}

theorem lookupPath (hP : Inherited P) (hm : P (.mapping m)) (key : String) (path : List String) :
    P (Mapping.lookupPath m key path) := by
  induction path generalizing m key with
  | nil =>
    rw [Mapping.lookupPath]
    cases h : m.get? key with
    | none => exact hP.null
    | some value => exact hP.get? hm h
  | cons next rest ih =>
    rw [Mapping.lookupPath]
    split
    next inner h => exact ih (hP.get? hm h) next
    next => exact hP.null

theorem bindPath (hP : Inherited P) (hm : P (.mapping m)) (hvalue : P value) (key : String)
    (path : List String) : P (.mapping (Mapping.bindPath m key value path)) := by
  induction path generalizing m key with
  | nil => exact hP.insert hm hvalue key
  | cons next rest ih =>
    rw [Mapping.bindPath]
    split
    next inner h => exact hP.insert hm (ih (hP.get? hm h) next) key
    next => exact hm

end Value.Inherited

namespace Context

/-- A binding leaves alone what a reference leads to, if neither reference goes on behind the
other. -/
theorem resolve_bind_of_not_prefix {r q : Reference} (c : Context) (value : Value)
    (h : ¬r.components <+: q.components) (h' : ¬q.components <+: r.components) :
    (c.bind r value).resolve q = c.resolve q :=
  Mapping.lookupPath_bindPath_of_not_prefix value h h'

/-- Of two values bound to one reference the second stays. -/
@[simp] theorem bind_bind (c : Context) (r : Reference) (value other : Value) :
    (c.bind r value).bind r other = c.bind r other :=
  congrArg Context.mk (Mapping.bindPath_bindPath c.root r.first value other r.rest)

/-- **A slot that counts as true is present**, so that binding its own value to it changes
nothing. -/
theorem bind_resolve_of_isTruthy {c : Context} {r : Reference}
    (h : (c.resolve r).isTruthy = true) : c.bind r (c.resolve r) = c := by
  have hval : c.resolve r = (Mapping.lookupPath? c.root r.first r.rest).getD .null :=
    Mapping.lookupPath_eq_getD c.root r.first r.rest
  cases hslot : Mapping.lookupPath? c.root r.first r.rest with
  | none =>
    -- a missing slot resolves to `null`
    rw [hval, hslot] at h
    cases h
  | some value =>
    rw [hslot, Option.getD_some] at hval
    rw [hval]
    exact congrArg Context.mk (Mapping.bindPath_of_lookupPath? hslot)

end Context

end DocTemplate
