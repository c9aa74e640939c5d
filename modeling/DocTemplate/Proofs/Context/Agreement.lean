import DocTemplate.Proofs.Context.Path
import Mathlib.Data.List.Forall2
import Mathlib.Data.List.Nodup
import Mathlib.Data.List.Perm.Subperm

/-!
# Values that agree up to the order of keys

Two values agree (`Value.agrees`) if they are equal but for the order in which their mappings hold
their entries, at every level. The function compares numbers of entries and looks the entries of one
mapping up in the other. What agreement is good for is said by views instead: two mappings agree
exactly if they hold agreeing values under the same keys (`Value.agrees_mapping_iff`).

For this no key may stand twice in a mapping. Nothing in the type of a mapping prevents it, but an
insertion under a key that is present replaces its value, so that no mapping that is made by
insertions has such a key. `Value.HasUniqueKeys` says it of a value and of all values in it.

**A binding preserves agreement** (`Context.agrees_resolve_bind`). If two contexts agree on two
references and agreeing values are bound to one of them, they still agree on the other. The bound
reference may be the other one, lead to a place around it or inside it, or have nothing to do with
it. This is what a loop does to what its body names.
-/

namespace DocTemplate

/-! ### Mappings in which no key stands twice -/

namespace OrderedMap

variable {α : Type} {m : OrderedMap α} {key : String} {value : α}

/-- An entry is found under its key, if no other one stands under it. -/
theorem get?_of_mem_entries (hkeys : m.keys.Nodup) (h : (key, value) ∈ m.entries) :
    m.get? key = some value := by
  obtain ⟨entries⟩ := m
  rw [get?]
  induction entries with
  | nil => cases h
  | cons entry rest ih =>
    obtain ⟨k, v⟩ := entry
    obtain ⟨hk, hrest⟩ := List.nodup_cons.mp hkeys
    rw [lookup]
    rcases List.mem_cons.mp h with heq | hmem
    · rw [Prod.mk.injEq] at heq
      rw [if_pos heq.1.symm, heq.2]
    · have hne : k ≠ key := by
        rintro rfl
        exact hk (List.mem_map.mpr ⟨_, hmem, rfl⟩)
      rw [if_neg hne]
      exact ih hrest hmem

theorem get?_eq_none_iff : m.get? key = none ↔ key ∉ m.keys := by
  rw [← contains_iff_mem_keys, contains, Bool.not_eq_true, Option.isSome_eq_false_iff,
    Option.isNone_iff_eq_none]

/-- **An insertion makes no key stand twice.** -/
theorem nodup_keys_insert (hkeys : m.keys.Nodup) (key : String) (value : α) :
    (m.insert key value).keys.Nodup := by
  by_cases h : key ∈ m.keys
  · rwa [keys_insert_of_mem m h]
  · rw [keys_insert_of_not_mem m h, ← List.concat_eq_append]
    exact hkeys.concat h

end OrderedMap

/-- In a value and in all values in it no mapping has two entries under one key. -/
inductive Value.HasUniqueKeys : Value → Prop
  | null : HasUniqueKeys .null
  | boolean (truth : Bool) : HasUniqueKeys (.boolean truth)
  | scalar (text : String) : HasUniqueKeys (.scalar text)
  | sequence {items : List Value} (hitems : ∀ item ∈ items, HasUniqueKeys item) :
      HasUniqueKeys (.sequence items)
  | mapping {fields : Mapping} (hkeys : fields.keys.Nodup)
      (hfields : ∀ entry ∈ fields.entries, HasUniqueKeys entry.2) : HasUniqueKeys (.mapping fields)

/-- In a mapping and in all values in it no mapping has two entries under one key. -/
def Mapping.HasUniqueKeys (m : Mapping) : Prop := (Value.mapping m).HasUniqueKeys

/-- In a context no mapping has two entries under one key. -/
def Context.HasUniqueKeys (c : Context) : Prop := Mapping.HasUniqueKeys c.root

namespace Mapping

variable {m : Mapping} {key : String} {value : Value}

theorem HasUniqueKeys.nodup_keys (hm : HasUniqueKeys m) : m.keys.Nodup := by
  cases hm with
  | mapping hkeys _ => exact hkeys

theorem HasUniqueKeys.of_get? (hm : HasUniqueKeys m) (h : m.get? key = some value) :
    value.HasUniqueKeys := by
  cases hm with
  | mapping _ hfields => exact hfields _ (OrderedMap.mem_entries_of_get? h)

theorem HasUniqueKeys.insert (hm : HasUniqueKeys m) (hvalue : value.HasUniqueKeys) (key : String) :
    HasUniqueKeys (m.insert key value) := by
  cases hm with
  | mapping hkeys hfields =>
    refine .mapping (OrderedMap.nodup_keys_insert hkeys key value) fun entry hentry => ?_
    rcases OrderedMap.mem_entries_insert hentry with rfl | hmem
    · exact hvalue
    · exact hfields entry hmem

end Mapping

/-- **Unique keys are passed on** from a value to the values in it, and insertions keep them. -/
theorem Value.inherited_hasUniqueKeys : Value.Inherited Value.HasUniqueKeys where
  null := .null
  item h hitem := by
    cases h with
    | sequence hitems => exact hitems _ hitem
  get? h hvalue := Mapping.HasUniqueKeys.of_get? h hvalue
  insert h hvalue key := Mapping.HasUniqueKeys.insert h hvalue key

theorem Mapping.HasUniqueKeys.bindPath {m : Mapping} {value : Value} (hm : HasUniqueKeys m)
    (hvalue : value.HasUniqueKeys) (key : String) (path : List String) :
    HasUniqueKeys (bindPath m key value path) :=
  Value.inherited_hasUniqueKeys.bindPath hm hvalue key path

/-! ### Agreement as a matter of views -/

namespace Value

theorem agreesAll_eq_true_iff {as bs : List Value} :
    agreesAll as bs = true ↔ List.Forall₂ (fun a b => agrees a b = true) as bs := by
  induction as generalizing bs with
  | nil => cases bs <;> simp [agreesAll]
  | cons a as ih => cases bs <;> simp [agreesAll, ih]

theorem agreesWithin_eq_true_iff {entries : List (String × Value)} {other : Mapping} :
    agreesWithin entries other = true ↔
      ∀ entry ∈ entries, ∃ b, other.get? entry.1 = some b ∧ agrees entry.2 b = true := by
  induction entries with
  | nil => simp [agreesWithin]
  | cons entry rest ih =>
    obtain ⟨key, a⟩ := entry
    rw [agreesWithin, Bool.and_eq_true, ih, List.forall_mem_cons]
    refine and_congr_left' ?_
    cases other.get? key with
    | none => simp
    | some b => simp

end Value

/-- Two mappings hold agreeing values under the same keys. -/
def Mapping.Agrees (a b : Mapping) : Prop :=
  ∀ key, Option.Rel (fun v w => v.agrees w = true) (a.get? key) (b.get? key)

theorem Mapping.Agrees.exists_of_get? {a b : Mapping} (h : Mapping.Agrees a b) {key : String}
    {v : Value} (hv : a.get? key = some v) : ∃ w, b.get? key = some w ∧ v.agrees w = true := by
  have hrel := h key
  rw [hv] at hrel
  cases hw : b.get? key with
  | none =>
    rw [hw] at hrel
    cases hrel
  | some w =>
    rw [hw] at hrel
    cases hrel with
    | some hvw => exact ⟨w, rfl, hvw⟩

theorem Mapping.Agrees.get?_eq_none_iff {a b : Mapping} (h : Mapping.Agrees a b) (key : String) :
    a.get? key = none ↔ b.get? key = none := by
  have hrel := h key
  cases hv : a.get? key with
  | none =>
    rw [hv] at hrel
    generalize b.get? key = w at hrel ⊢
    cases hrel
    exact Iff.rfl
  | some v =>
    obtain ⟨w, hw, -⟩ := h.exists_of_get? hv
    rw [hw]
    exact iff_of_false (Option.some_ne_none v) (Option.some_ne_none w)

/-- **Mappings agree exactly if they hold agreeing values under the same keys.** -/
theorem Value.agrees_mapping_iff {a b : Mapping} (ha : a.keys.Nodup) (hb : b.keys.Nodup) :
    (mapping a).agrees (mapping b) = true ↔ Mapping.Agrees a b := by
  have hsize : ∀ m : Mapping, m.keys.length = m.size := fun m => List.length_map _
  obtain ⟨entries⟩ := a
  rw [agrees, Bool.and_eq_true, beq_iff_eq, agreesWithin_eq_true_iff]
  constructor
  · rintro ⟨hlength, hwithin⟩ key
    cases hkey : OrderedMap.get? ⟨entries⟩ key with
    | some v =>
      obtain ⟨w, hw, hvw⟩ := hwithin _ (OrderedMap.mem_entries_of_get? hkey)
      rw [hw]
      exact .some hvw
    | none =>
      -- as many keys, all of them present on the other side, are all keys there
      have hsubset : OrderedMap.keys ⟨entries⟩ ⊆ b.keys := by
        intro k hk
        obtain ⟨entry, hentry, rfl⟩ := List.mem_map.mp hk
        obtain ⟨w, hw, -⟩ := hwithin entry hentry
        exact (b.contains_iff_mem_keys _).mp (by rw [OrderedMap.contains, hw, Option.isSome_some])
      have hperm : (OrderedMap.keys ⟨entries⟩).Perm b.keys :=
        (List.subperm_of_subset ha hsubset).perm_of_length_le
          (by rw [hsize, hsize]; exact Nat.le_of_eq hlength.symm)
      rw [OrderedMap.get?_eq_none_iff, hperm.mem_iff, ← OrderedMap.get?_eq_none_iff] at hkey
      rw [hkey]
      exact .none
  · intro hagrees
    have hkeys : ∀ key, key ∈ OrderedMap.keys ⟨entries⟩ ↔ key ∈ b.keys := by
      intro key
      rw [← not_iff_not, ← OrderedMap.get?_eq_none_iff, ← OrderedMap.get?_eq_none_iff]
      exact hagrees.get?_eq_none_iff key
    refine ⟨?_, fun entry hentry => ?_⟩
    · have hperm := (List.perm_ext_iff_of_nodup ha hb).mpr hkeys
      have hlength := hperm.length_eq
      rwa [hsize, hsize] at hlength
    · exact hagrees.exists_of_get? (OrderedMap.get?_of_mem_entries ha hentry)

/-- A value in which no key stands twice agrees with itself. -/
theorem Value.HasUniqueKeys.agrees_self {v : Value} (hv : v.HasUniqueKeys) : v.agrees v = true := by
  induction hv with
  | null => rfl
  | boolean truth => exact beq_self_eq_true truth
  | scalar text => exact beq_self_eq_true text
  | sequence _ ih =>
    rw [agrees, agreesAll_eq_true_iff]
    exact List.forall₂_same.mpr ih
  | @mapping fields hkeys _ ih =>
    rw [agrees_mapping_iff hkeys hkeys]
    intro key
    cases hkey : fields.get? key with
    | none => exact .none
    | some v => exact .some (ih _ (OrderedMap.mem_entries_of_get? hkey))

/-! ### What is read from agreeing values -/

namespace Value

variable {v w : Value}

theorem isTruthy_eq_of_agrees (h : v.agrees w = true) : v.isTruthy = w.isTruthy := by
  cases v <;> cases w <;> try cases h
  case null.null => rfl
  case boolean.boolean => exact beq_iff_eq.mp h
  case scalar.scalar => rfl
  case sequence.sequence as bs =>
    rw [agrees, agreesAll_eq_true_iff] at h
    cases h <;> rfl
  case mapping.mapping => rfl

mutual

/-- Agreeing values have one text. -/
theorem text_eq_of_agrees : ∀ {v w : Value}, v.agrees w = true → v.text = w.text
  | .null, .null, _ => rfl
  | .boolean _, .boolean _, h => by rw [beq_iff_eq.mp h]
  | .scalar _, .scalar _, h => beq_iff_eq.mp h
  | .sequence as, .sequence bs, h => textAll_eq_of_agreesAll h
  | .mapping _, .mapping _, _ => rfl

theorem textAll_eq_of_agreesAll :
    ∀ {as bs : List Value}, agreesAll as bs = true → textAll as = textAll bs
  | [], [], _ => rfl
  | a :: as, b :: bs, h => by
    rw [agreesAll, Bool.and_eq_true] at h
    rw [textAll, textAll, text_eq_of_agrees h.1, textAll_eq_of_agreesAll h.2]

end

end Value

/-- Of two agreeing values both are mappings, which agree, or neither is one. -/
theorem Value.mapping_or_ne_of_agrees {v w : Value} (h : v.agrees w = true)
    (hv : v.HasUniqueKeys) (hw : w.HasUniqueKeys) :
    (∃ i j, v = .mapping i ∧ w = .mapping j ∧ Mapping.Agrees i j) ∨
      (∀ i, v ≠ .mapping i) ∧ ∀ j, w ≠ .mapping j := by
  cases v <;> cases w <;> try cases h
  case mapping.mapping i j =>
    have hi : Mapping.HasUniqueKeys i := hv
    have hj : Mapping.HasUniqueKeys j := hw
    exact Or.inl ⟨i, j, rfl, rfl, (agrees_mapping_iff hi.nodup_keys hj.nodup_keys).mp h⟩
  all_goals exact Or.inr ⟨fun i => by simp, fun j => by simp⟩

/-! ### Reading and binding along a path -/

namespace Mapping

variable {m n : Mapping} {v w : Value}

/-- Agreeing mappings hold agreeing mappings under a key, or none on either side. -/
theorem Agrees.mapping_or_ne (h : Agrees m n) (hm : HasUniqueKeys m) (hn : HasUniqueKeys n)
    (key : String) :
    (∃ i j, m.get? key = some (.mapping i) ∧ n.get? key = some (.mapping j) ∧ Agrees i j) ∨
      (∀ i, m.get? key ≠ some (.mapping i)) ∧ ∀ j, n.get? key ≠ some (.mapping j) := by
  cases hv : m.get? key with
  | none =>
    rw [(h.get?_eq_none_iff key).mp hv]
    exact Or.inr ⟨fun i => (Option.some_ne_none _).symm, fun j => (Option.some_ne_none _).symm⟩
  | some v =>
    obtain ⟨w, hw, hvw⟩ := h.exists_of_get? hv
    rw [hw]
    rcases Value.mapping_or_ne_of_agrees hvw (hm.of_get? hv) (hn.of_get? hw) with
      ⟨i, j, rfl, rfl, hij⟩ | ⟨hi, hj⟩
    · exact Or.inl ⟨i, j, rfl, rfl, hij⟩
    · exact Or.inr ⟨fun i h => hi i (Option.some.inj h), fun j h => hj j (Option.some.inj h)⟩

/-- **Agreeing mappings agree on every path.** -/
theorem Agrees.lookupPath (h : Agrees m n) (hm : HasUniqueKeys m) (hn : HasUniqueKeys n)
    (key : String) (path : List String) :
    (lookupPath m key path).agrees (lookupPath n key path) = true := by
  induction path generalizing m n key with
  | nil =>
    rw [Mapping.lookupPath, Mapping.lookupPath]
    cases hv : m.get? key with
    | none =>
      rw [(h.get?_eq_none_iff key).mp hv]
      rfl
    | some v =>
      obtain ⟨w, hw, hvw⟩ := h.exists_of_get? hv
      rw [hw]
      exact hvw
  | cons next rest ih =>
    rcases h.mapping_or_ne hm hn key with ⟨i, j, hi, hj, hij⟩ | ⟨hi, hj⟩
    · rw [lookupPath_cons_of_get? hi, lookupPath_cons_of_get? hj]
      exact ih hij (hm.of_get? hi) (hn.of_get? hj) next
    · rw [lookupPath_cons_of_ne hi, lookupPath_cons_of_ne hj]
      rfl

theorem Agrees.insert (h : Agrees m n) (hvw : v.agrees w = true) (key : String) :
    Agrees (m.insert key v) (n.insert key w) := by
  intro other
  by_cases hne : other = key
  · rw [hne, OrderedMap.get?_insert_self, OrderedMap.get?_insert_self]
    exact .some hvw
  · rw [m.get?_insert_of_ne hne, n.get?_insert_of_ne hne]
    exact h other

/-- Agreeing mappings still agree after agreeing values are bound to a path. -/
theorem Agrees.bindPath (h : Agrees m n) (hm : HasUniqueKeys m) (hn : HasUniqueKeys n)
    (hv : v.HasUniqueKeys) (hw : w.HasUniqueKeys) (hvw : v.agrees w = true) (key : String)
    (path : List String) : Agrees (bindPath m key v path) (bindPath n key w path) := by
  induction path generalizing m n key with
  | nil => exact h.insert hvw key
  | cons next rest ih =>
    rcases h.mapping_or_ne hm hn key with ⟨i, j, hi, hj, hij⟩ | ⟨hi, hj⟩
    · have hmi : HasUniqueKeys i := hm.of_get? hi
      have hnj : HasUniqueKeys j := hn.of_get? hj
      rw [bindPath_cons_of_get? hi, bindPath_cons_of_get? hj]
      refine h.insert ?_ key
      exact (Value.agrees_mapping_iff (hmi.bindPath hv next rest).nodup_keys
        (hnj.bindPath hw next rest).nodup_keys).mpr (ih hij hmi hnj next)
    · rwa [bindPath_cons_of_ne hi, bindPath_cons_of_ne hj]

/-- A path on which something counts as true goes on in a mapping. -/
theorem exists_get?_of_isTruthy {key next : String} {rest : List String}
    (h : (Mapping.lookupPath m key (next :: rest)).isTruthy = true) :
    ∃ inner, m.get? key = some (.mapping inner) ∧
      (Mapping.lookupPath inner next rest).isTruthy = true := by
  rw [Mapping.lookupPath] at h
  split at h
  next inner hinner => exact ⟨inner, hinner, h⟩
  next => cases h

/-- **Agreement on a path survives a binding.** Agreeing values are bound to a path that is present
on both sides. The path on which the mappings agree may end before it, go on behind it, be the same
or branch off. -/
theorem agrees_lookupPath_bindPath (hm : HasUniqueKeys m) (hn : HasUniqueKeys n)
    (hv : v.HasUniqueKeys) (hw : w.HasUniqueKeys) (hvw : v.agrees w = true)
    {key other : String} {path path' : List String}
    (hmkey : (Mapping.lookupPath m key path).isTruthy = true)
    (hnkey : (Mapping.lookupPath n key path).isTruthy = true)
    (h : (Mapping.lookupPath m other path').agrees (Mapping.lookupPath n other path') = true) :
    (Mapping.lookupPath (Mapping.bindPath m key v path) other path').agrees
      (Mapping.lookupPath (Mapping.bindPath n key w path) other path') = true := by
  induction path generalizing m n key other path' with
  | nil =>
    by_cases hne : other = key
    case neg => rwa [lookupPath_bindPath_of_ne hne, lookupPath_bindPath_of_ne hne]
    subst hne
    rw [Mapping.bindPath, Mapping.bindPath]
    have hmself : (m.insert other v).get? other = some v := OrderedMap.get?_insert_self ..
    have hnself : (n.insert other w).get? other = some w := OrderedMap.get?_insert_self ..
    cases path' with
    | nil =>
      rw [Mapping.lookupPath, Mapping.lookupPath, hmself, hnself]
      exact hvw
    | cons next' rest' =>
      rcases Value.mapping_or_ne_of_agrees hvw hv hw with ⟨i, j, rfl, rfl, hij⟩ | ⟨hi, hj⟩
      · rw [lookupPath_cons_of_get? hmself, lookupPath_cons_of_get? hnself]
        exact hij.lookupPath hv hw next' rest'
      · rw [lookupPath_cons_of_ne, lookupPath_cons_of_ne]
        · rfl
        · exact fun j h => hj j (Option.some.inj (hnself.symm.trans h))
        · exact fun i h => hi i (Option.some.inj (hmself.symm.trans h))
  | cons next rest ih =>
    by_cases hne : other = key
    case neg => rwa [lookupPath_bindPath_of_ne hne, lookupPath_bindPath_of_ne hne]
    subst hne
    obtain ⟨i, hi, hikey⟩ := exists_get?_of_isTruthy hmkey
    obtain ⟨j, hj, hjkey⟩ := exists_get?_of_isTruthy hnkey
    have hmi : HasUniqueKeys i := hm.of_get? hi
    have hnj : HasUniqueKeys j := hn.of_get? hj
    rw [bindPath_cons_of_get? hi, bindPath_cons_of_get? hj]
    cases path' with
    | nil =>
      -- the path on which they agree leads to the mappings that the bound slots lie in
      rw [Mapping.lookupPath, Mapping.lookupPath, hi, hj, Option.getD_some, Option.getD_some,
        Value.agrees_mapping_iff hmi.nodup_keys hnj.nodup_keys] at h
      rw [Mapping.lookupPath, Mapping.lookupPath, OrderedMap.get?_insert_self,
        OrderedMap.get?_insert_self, Option.getD_some, Option.getD_some,
        Value.agrees_mapping_iff (hmi.bindPath hv next rest).nodup_keys
          (hnj.bindPath hw next rest).nodup_keys]
      exact h.bindPath hmi hnj hv hw hvw next rest
    | cons next' rest' =>
      rw [lookupPath_cons_of_get? hi, lookupPath_cons_of_get? hj] at h
      rw [lookupPath_cons_of_get? (OrderedMap.get?_insert_self ..),
        lookupPath_cons_of_get? (OrderedMap.get?_insert_self ..)]
      exact ih hmi hnj hikey hjkey h

end Mapping

namespace Context

variable {c d : Context} {v w : Value} {r q : Reference}

theorem HasUniqueKeys.resolve (hc : c.HasUniqueKeys) (r : Reference) :
    (c.resolve r).HasUniqueKeys :=
  Value.inherited_hasUniqueKeys.lookupPath hc r.first r.rest

theorem HasUniqueKeys.bind (hc : c.HasUniqueKeys) (hv : v.HasUniqueKeys) (r : Reference) :
    (c.bind r v).HasUniqueKeys :=
  Mapping.HasUniqueKeys.bindPath hc hv r.first r.rest

/-- Contexts that agree up to the order of keys agree on every reference. -/
theorem agrees_resolve_of_agrees (hc : c.HasUniqueKeys) (hd : d.HasUniqueKeys)
    (h : c.agrees d = true) (r : Reference) : (c.resolve r).agrees (d.resolve r) = true := by
  have hroot : Mapping.Agrees c.root d.root :=
    (Value.agrees_mapping_iff (Mapping.HasUniqueKeys.nodup_keys hc)
      (Mapping.HasUniqueKeys.nodup_keys hd)).mp h
  exact hroot.lookupPath hc hd r.first r.rest

/-- **Agreement on a reference survives a binding** of agreeing values to a reference that counts as
true. -/
theorem agrees_resolve_bind (hc : c.HasUniqueKeys) (hd : d.HasUniqueKeys)
    (hv : v.HasUniqueKeys) (hw : w.HasUniqueKeys) (hvw : v.agrees w = true)
    (hcr : (c.resolve r).isTruthy = true) (hdr : (d.resolve r).isTruthy = true)
    (h : (c.resolve q).agrees (d.resolve q) = true) :
    ((c.bind r v).resolve q).agrees ((d.bind r w).resolve q) = true :=
  Mapping.agrees_lookupPath_bindPath hc hd hv hw hvw hcr hdr h

end Context

end DocTemplate
