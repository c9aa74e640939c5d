import DocTemplate.Proofs.Context.Path

/-!
# What a binding changes

A reference is a way into nested mappings: its parents lead to a mapping, and its last key names a
slot in it. **Binding a value to a reference changes this slot and nothing else**
(`Context.bind_law`). If the parents do not lead to a mapping, it changes nothing at all.

How another reference fares depends on how its way runs (`Context.IsBound`). One that goes on behind
the slot is looked up in the bound value. One that stops before the slot leads to a mapping, and in
this the rest of the way is bound. One that branches off is left alone. The keys of all mappings on
the way and off it keep their order, and only a slot that was not there puts its key behind the
others of its mapping.

The walks of looking up and binding are recursions on the keys that remain, each with a step of its
own. Both are said by one walk, that to a mapping (`Mapping.inner?`): wherever a way is cut, looking
up and binding are walking the first part and then looking up and binding along the second
(`Context.resolve_of_components`, `Context.inner?_bind_of_components`).
-/

namespace DocTemplate

/-! ### Walking to a mapping -/

namespace Mapping

/-- The mapping under a key. -/
def child? (m : Mapping) (key : String) : Option Mapping :=
  (m.get? key).bind Value.mapping?

/-- The mapping that a path of keys leads to, if each key on the way has a mapping under it. The
empty path leads to the mapping that it starts from. -/
def inner? (m : Mapping) (path : List String) : Option Mapping :=
  path.foldlM child? m

variable {m inner : Mapping} {key : String} {value : Value}

theorem child?_eq_some_iff : m.child? key = some inner ↔ m.get? key = some (.mapping inner) := by
  rw [child?]
  cases m.get? key with
  | none => simp
  | some v => cases v <;> simp [Value.mapping?]

theorem get?_ne_of_child? (h : m.child? key = none) (inner : Mapping) :
    m.get? key ≠ some (.mapping inner) := by
  intro hget
  rw [child?_eq_some_iff.mpr hget] at h
  cases h

@[simp] theorem child?_insert_self (m : Mapping) (key : String) (value : Value) :
    Mapping.child? (m.insert key value) key = value.mapping? := by
  rw [child?, OrderedMap.get?_insert_self, Option.bind_some]

theorem child?_insert_of_ne {other : String} (h : other ≠ key) (m : Mapping) (value : Value) :
    Mapping.child? (m.insert key value) other = m.child? other := by
  rw [child?, child?, OrderedMap.get?_insert_of_ne m h]

@[simp] theorem inner?_nil (m : Mapping) : m.inner? [] = some m := rfl

@[simp] theorem inner?_cons (m : Mapping) (key : String) (path : List String) :
    m.inner? (key :: path) = (m.child? key).bind (·.inner? path) := rfl

/-- A path that is walked in two parts leads where it leads as a whole. -/
theorem inner?_append (m : Mapping) (path path' : List String) :
    m.inner? (path ++ path') = (m.inner? path).bind (·.inner? path') :=
  List.foldlM_append

/-! ### One step of looking up and of binding -/

theorem lookupPath?_cons (m : Mapping) (key next : String) (rest : List String) :
    lookupPath? m key (next :: rest) =
      (m.child? key).bind fun inner => lookupPath? inner next rest := by
  rw [lookupPath?, child?]
  cases m.get? key with
  | none => rfl
  | some v => cases v <;> rfl

theorem bindPath_cons_of_child? (h : m.child? key = some inner) (next : String) (value : Value)
    (rest : List String) :
    bindPath m key value (next :: rest) =
      m.insert key (.mapping (bindPath inner next value rest)) :=
  bindPath_cons_of_get? (child?_eq_some_iff.mp h) next value rest

theorem bindPath_cons_of_child?_eq_none (h : m.child? key = none) (next : String) (value : Value)
    (rest : List String) : bindPath m key value (next :: rest) = m :=
  bindPath_cons_of_ne (get?_ne_of_child? h) next value rest

/-- After a binding the mapping under the first of several keys is the old one with the rest
bound. -/
theorem child?_bindPath_cons (m : Mapping) (key next : String) (value : Value)
    (rest : List String) :
    (bindPath m key value (next :: rest)).child? key =
      (m.child? key).map fun inner => bindPath inner next value rest := by
  cases h : m.child? key with
  | none => rw [bindPath_cons_of_child?_eq_none h, h, Option.map_none]
  | some inner => rw [bindPath_cons_of_child? h, child?_insert_self, Value.mapping?, Option.map_some]

/-- A binding whose parents do not lead to a mapping changes nothing. -/
theorem bindPath_of_inner?_eq_none {path : List String}
    (h : m.inner? (key :: path).dropLast = none) (value : Value) :
    bindPath m key value path = m := by
  induction path generalizing m key with
  | nil => cases h
  | cons next rest ih =>
    cases hchild : m.child? key with
    | none => exact bindPath_cons_of_child?_eq_none hchild next value rest
    | some inner =>
      rw [List.dropLast_cons_cons, inner?_cons, hchild, Option.bind_some] at h
      rw [bindPath_cons_of_child? hchild, ih h]
      exact OrderedMap.insert_of_get? (child?_eq_some_iff.mp hchild)

/-- **A binding leaves alone the keys of every mapping** but the one with the slot, and those in the
bound value. -/
theorem keys_inner?_bindPath {path path' : List String} (hparent : path' ≠ (key :: path).dropLast)
    (hinside : ¬key :: path <+: path') (m : Mapping) (value : Value) :
    ((bindPath m key value path).inner? path').map OrderedMap.keys =
      (m.inner? path').map OrderedMap.keys := by
  induction path generalizing m key path' with
  | nil =>
    cases path' with
    | nil => exact absurd rfl hparent
    | cons other rest =>
      have hne : other ≠ key := by
        rintro rfl
        exact hinside ⟨rest, rfl⟩
      rw [bindPath, inner?_cons, inner?_cons, child?_insert_of_ne hne]
  | cons next rest ih =>
    cases hchild : m.child? key with
    | none => rw [bindPath_cons_of_child?_eq_none hchild]
    | some inner =>
      cases path' with
      | nil =>
        have hmem : key ∈ m.keys := by
          rw [← OrderedMap.contains_iff_mem_keys, OrderedMap.contains,
            child?_eq_some_iff.mp hchild]
          rfl
        rw [bindPath_cons_of_child? hchild, inner?_nil, inner?_nil, Option.map_some,
          OrderedMap.keys_insert_of_mem m hmem, Option.map_some]
      | cons other rest' =>
        by_cases hne : other = key
        · subst hne
          rw [inner?_cons, inner?_cons, child?_bindPath_cons, hchild]
          refine ih (fun heq => hparent ?_) (fun hprefix => hinside ?_) inner
          · rw [heq, List.dropLast_cons_cons]
          · exact List.cons_prefix_cons.mpr ⟨rfl, hprefix⟩
        · rw [bindPath_cons_of_child? hchild, inner?_cons, inner?_cons, child?_insert_of_ne hne]

end Mapping

/-! ### Ways in two parts -/

namespace Reference

theorem components_injective {r q : Reference} (h : r.components = q.components) : r = q := by
  obtain ⟨first, rest⟩ := r
  obtain ⟨first', rest'⟩ := q
  obtain ⟨rfl, rfl⟩ := List.cons.inj h
  rfl

/-- A reference leads to its parents and on with its last key. -/
theorem components_eq_parents_append (r : Reference) :
    r.components = r.parents ++ (key r.last).components :=
  (List.dropLast_concat_getLast (List.cons_ne_nil r.first r.rest)).symm

/-- The parents of a reference that goes on with another one go on with the parents of that. -/
theorem parents_of_components {r s : Reference} {front : List String}
    (h : r.components = front ++ s.components) : r.parents = front ++ s.parents := by
  have hne : s.components ≠ [] := List.cons_ne_nil s.first s.rest
  rw [parents, h, List.dropLast_append_of_ne_nil hne, parents]

/-- A reference that is cut behind its first key goes on as a reference. -/
theorem exists_of_components_eq_cons {r s : Reference} {next : String} {front : List String}
    (h : r.components = next :: (front ++ s.components)) :
    ∃ q : Reference, r = ⟨next, q.components⟩ ∧ q.components = front ++ s.components := by
  obtain ⟨first, rest⟩ := r
  obtain ⟨rfl, hrest⟩ := List.cons.inj h
  have hrest : rest = front ++ s.components := hrest
  cases rest with
  | nil => exact absurd (List.append_eq_nil_iff.mp hrest.symm).2 (List.cons_ne_nil _ _)
  | cons key rest => exact ⟨⟨key, rest⟩, rfl, hrest⟩

end Reference

/-- The value that a reference leads to from a value, `null` if that is not a mapping. -/
def Value.lookup : Value → Reference → Value
  | .mapping fields, s => Context.resolve ⟨fields⟩ s
  | _, _ => .null

namespace Context

variable {c : Context} {r q s : Reference} {front : List String} {parent : Mapping} {v : Value}

/-- What the slot of a reference holds, if there is such a slot. -/
def slot? (c : Context) (r : Reference) : Option Value :=
  Mapping.lookupPath? c.root r.first r.rest

/-- **Looking up is walking to a mapping and looking up there**, wherever the way is cut. -/
theorem slot?_of_components (c : Context) (h : q.components = front ++ s.components) :
    c.slot? q = (c.root.inner? front).bind fun m => Context.slot? ⟨m⟩ s := by
  induction front generalizing c q with
  | nil =>
    obtain rfl := Reference.components_injective h
    rfl
  | cons next front ih =>
    obtain ⟨q, rfl, hq⟩ := Reference.exists_of_components_eq_cons h
    rw [slot?, Reference.components, Mapping.lookupPath?_cons, Mapping.inner?_cons]
    cases c.root.child? next with
    | none => rfl
    | some inner => exact ih ⟨inner⟩ hq

theorem resolve_eq_slot? (c : Context) (q : Reference) : c.resolve q = (c.slot? q).getD .null :=
  Mapping.lookupPath_eq_getD c.root q.first q.rest

theorem resolve_of_components (c : Context) (h : q.components = front ++ s.components) :
    c.resolve q = ((c.root.inner? front).map fun m => Context.resolve ⟨m⟩ s).getD .null := by
  rw [resolve_eq_slot?, slot?_of_components c h]
  cases c.root.inner? front with
  | none => rfl
  | some m => exact (resolve_eq_slot? ⟨m⟩ s).symm

/-- The slot of a reference is that of its last key in the mapping of its parents. -/
theorem slot?_eq (c : Context) (r : Reference) :
    c.slot? r = (c.root.inner? r.parents).bind (·.get? r.last) :=
  c.slot?_of_components r.components_eq_parents_append

theorem inner?_components (c : Context) (r : Reference) :
    c.root.inner? r.components = (c.root.inner? r.parents).bind (·.child? r.last) := by
  rw [r.components_eq_parents_append, Mapping.inner?_append]
  congr
  funext m
  exact Option.bind_fun_some (m.child? r.last)

/-- A walk along a reference leads to the mapping that it resolves to. -/
theorem resolve_of_inner? {m : Mapping} (h : c.root.inner? r.components = some m) :
    c.resolve r = .mapping m := by
  rw [inner?_components] at h
  obtain ⟨parent, hparent, hchild⟩ := Option.bind_eq_some_iff.mp h
  rw [resolve_eq_slot?, slot?_eq, hparent, Option.bind_some,
    Mapping.child?_eq_some_iff.mp hchild, Option.getD_some]

/-- **After a binding a walk leads to the mapping it led to before, with the rest of the way
bound in it.** -/
theorem inner?_bind_of_components (c : Context) (h : r.components = front ++ s.components)
    (v : Value) :
    (c.bind r v).root.inner? front =
      (c.root.inner? front).map fun m => (Context.bind ⟨m⟩ s v).root := by
  induction front generalizing c r with
  | nil =>
    obtain rfl := Reference.components_injective h
    rfl
  | cons next front ih =>
    obtain ⟨r, rfl, hr⟩ := Reference.exists_of_components_eq_cons h
    rw [bind, Reference.components, Mapping.inner?_cons, Mapping.inner?_cons,
      Mapping.child?_bindPath_cons]
    cases c.root.child? next with
    | none => rfl
    | some inner => exact ih ⟨inner⟩ hr

/-- After a binding the parents of the reference lead to the same mapping, with the value inserted
under the last key. -/
theorem inner?_parents_bind (c : Context) (r : Reference) (v : Value) :
    (c.bind r v).root.inner? r.parents =
      (c.root.inner? r.parents).map fun m => m.insert r.last v :=
  c.inner?_bind_of_components r.components_eq_parents_append v

theorem slot?_bind (h : c.root.inner? r.parents = some parent) (v : Value) :
    (c.bind r v).slot? r = some v := by
  rw [slot?_eq, inner?_parents_bind, h, Option.map_some, Option.bind_some,
    OrderedMap.get?_insert_self]

/-- The bound reference leads to a mapping if the bound value is one. -/
theorem inner?_components_bind (h : c.root.inner? r.parents = some parent) (v : Value) :
    (c.bind r v).root.inner? r.components = v.mapping? := by
  rw [inner?_components, inner?_parents_bind, h, Option.map_some, Option.bind_some,
    Mapping.child?_insert_self]

/-! ### The law -/

/-- All that there is to say about a context that comes from another one by binding a value to a
reference. -/
structure IsBound (c : Context) (r : Reference) (v : Value) (bound : Context) : Prop where
  /-- The reference leads to the value. -/
  here : bound.resolve r = v
  /-- A reference that goes on behind it is looked up in the value. -/
  inside (q s : Reference) (h : q.components = r.components ++ s.components) :
    bound.resolve q = v.lookup s
  /-- One that stops on the way leads to the mapping that was there, with the rest of the way
  bound. -/
  around (q s : Reference) (h : r.components = q.components ++ s.components) :
    ∃ m : Mapping, c.resolve q = .mapping m ∧
      bound.resolve q = .mapping (Context.bind ⟨m⟩ s v).root
  /-- One that branches off leads to what it led to. -/
  beside (q : Reference) (h : ¬r.components <+: q.components) (h' : ¬q.components <+: r.components) :
    bound.resolve q = c.resolve q
  /-- The last key stands where it stood among the keys of its mapping, or behind them all. -/
  keys_parent : (bound.root.inner? r.parents).map OrderedMap.keys =
    (c.root.inner? r.parents).map fun m =>
      if r.last ∈ m.keys then m.keys else m.keys ++ [r.last]
  /-- No other mapping has its keys changed or moved. -/
  keys_elsewhere (path : List String) (h : path ≠ r.parents) (h' : ¬r.components <+: path) :
    (bound.root.inner? path).map OrderedMap.keys = (c.root.inner? path).map OrderedMap.keys

theorem isBound_bind (h : c.root.inner? r.parents = some parent) (v : Value) :
    c.IsBound r v (c.bind r v) where
  here := by rw [resolve_eq_slot?, slot?_bind h, Option.getD_some]
  inside q s hq := by
    rw [resolve_of_components _ hq, inner?_components_bind h]
    cases v <;> rfl
  around q s hr := by
    rw [Reference.parents_of_components hr, Mapping.inner?_append] at h
    obtain ⟨m, hm, -⟩ := Option.bind_eq_some_iff.mp h
    refine ⟨m, resolve_of_inner? hm, resolve_of_inner? ?_⟩
    rw [c.inner?_bind_of_components hr, hm, Option.map_some]
  beside q hq hr := c.resolve_bind_of_not_prefix v hq hr
  keys_parent := by
    rw [inner?_parents_bind, h, Option.map_some, Option.map_some, Option.map_some]
    split
    next hmem => rw [OrderedMap.keys_insert_of_mem _ hmem]
    next hnew => rw [OrderedMap.keys_insert_of_not_mem _ hnew]
  keys_elsewhere path hparent hinside := Mapping.keys_inner?_bindPath hparent hinside c.root v

/-- Binding what a slot holds changes nothing. -/
theorem bind_of_slot? (h : c.slot? r = some v) : c.bind r v = c :=
  congrArg Context.mk (Mapping.bindPath_of_lookupPath? h)

/-- **The law of binding and resolving.** If the parents of a reference do not lead to a mapping, a
binding changes nothing. If they do, it puts the value into the slot, with all that this means for
other references and for the order of keys, and it changes nothing if the slot is there and holds
the value. Of two values bound one after the other the second stays. -/
theorem bind_law (c : Context) (r : Reference) (v w : Value) :
    (c.root.inner? r.parents = none → c.bind r v = c) ∧
      (∀ parent, c.root.inner? r.parents = some parent →
        c.IsBound r v (c.bind r v) ∧ (parent.get? r.last = some v → c.bind r v = c)) ∧
      (c.bind r v).bind r w = c.bind r w := by
  refine ⟨fun h => ?_, fun parent h => ⟨isBound_bind h v, fun hslot => ?_⟩, c.bind_bind r v w⟩
  · exact congrArg Context.mk (Mapping.bindPath_of_inner?_eq_none h v)
  · refine bind_of_slot? ?_
    rw [slot?_eq, h, Option.bind_some, hslot]

end Context

end DocTemplate
