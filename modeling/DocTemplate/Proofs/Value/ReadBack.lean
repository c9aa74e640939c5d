import DocTemplate.Proofs.Value.Yaml

/-!
# Reading back what was written

A value is written as data of the same shape (`Value.toJson`), in which numbers, truth values and
nothing look like themselves and a text stays a text, whatever it says. The same data can be written as
YAML (`Yaml.Datum.ofJson`). **To read the data gives the value back** (`Value.readBack_exact`). As JSON
the keys of every mapping come back in order, for an object is a set of fields; so the value agrees with
what was written but need not be equal to it. As YAML the order of keys is part of the data, and the
value is the same.

Both readings are recursions over the data, and what they do to a mapping is not the same: one orders
its fields, the other inserts them one after the other. On a mapping in which no key stands twice
neither does harm (`OrderedMap.get?_sorted`, `OrderedMap.ofList_entries`), and every mapping of a value
that is made by insertions is one of these.
-/

namespace DocTemplate

open Yaml (Datum)

/-! ### Images of mappings -/

namespace OrderedMap

variable {α β γ : Type}

@[simp] theorem keys_map (f : α → β) (m : OrderedMap α) : (m.map f).keys = m.keys := by
  simp [keys, map]

theorem map_map (f : α → β) (g : β → γ) (m : OrderedMap α) :
    (m.map f).map g = m.map fun a => g (f a) := by
  simp [map]

/-- Ordered by key, a mapping in which no key stands twice has its keys in the order of bytes. -/
theorem inByteOrder_keys_sorted {m : OrderedMap α} (hkeys : m.keys.Nodup) :
    Text.InByteOrder m.sorted.keys := by
  rw [Text.inByteOrder_iff]
  exact (m.pairwise_keys_sorted.and (nodup_keys_sorted.mpr hkeys)).imp
    fun ⟨hle, hne⟩ => lt_of_le_of_ne hle hne

end OrderedMap

/-! ### Data of one shape -/

namespace Yaml.Datum

mutual

/-- The YAML data of the same shape. -/
def ofJson : Json.Data → Datum
  | .null => null
  | .boolean truth => boolean truth
  | .number (.integer value) => integer value
  | .number (.float value) => float value
  | .string text => string text
  | .array items => sequence (ofJsonItems items)
  | .object ⟨fields⟩ => mapping (ofJsonFields fields)

/-- The YAML data of items. -/
def ofJsonItems : List Json.Data → List Datum
  | [] => []
  | item :: rest => ofJson item :: ofJsonItems rest

/-- The entries that fields are. -/
def ofJsonFields : List (String × Json.Data) → List (Datum × Datum)
  | [] => []
  | (key, value) :: rest => (string key, ofJson value) :: ofJsonFields rest

end

theorem ofJson_array (items : List Json.Data) :
    ofJson (.array items) = sequence (items.map ofJson) := by
  refine congrArg sequence ?_
  induction items with
  | nil => rfl
  | cons item rest ih => exact congrArg (ofJson item :: ·) ih

theorem ofJson_object (m : OrderedMap Json.Data) :
    ofJson (.object m) = mapping (m.entries.map fun entry => (string entry.1, ofJson entry.2)) := by
  obtain ⟨fields⟩ := m
  refine congrArg mapping ?_
  induction fields with
  | nil => rfl
  | cons field rest ih => exact congrArg ((string field.1, ofJson field.2) :: ·) ih

end Yaml.Datum

namespace Value

theorem toJson_sequence (items : List Value) : toJson (.sequence items) = .array (items.map toJson) := by
  refine congrArg Json.Data.array ?_
  induction items with
  | nil => rfl
  | cons item rest ih => exact congrArg (toJson item :: ·) ih

theorem toJson_mapping (m : Mapping) : toJson (.mapping m) = .object (m.map toJson) := by
  obtain ⟨fields⟩ := m
  refine congrArg (fun fields => Json.Data.object ⟨fields⟩) ?_
  induction fields with
  | nil => rfl
  | cons field rest ih => exact congrArg ((field.1, toJson field.2) :: ·) ih

theorem ofJson_array (items : List Json.Data) : ofJson (.array items) = .sequence (items.map ofJson) := by
  refine congrArg sequence ?_
  induction items with
  | nil => rfl
  | cons item rest ih => exact congrArg (ofJson item :: ·) ih

theorem ofJsonFields_eq_map (fields : List (String × Json.Data)) :
    ofJsonFields fields = fields.map fun field => (field.1, ofJson field.2) := by
  induction fields with
  | nil => rfl
  | cons field rest ih => exact congrArg ((field.1, ofJson field.2) :: ·) ih

theorem ofJson_object (m : OrderedMap Json.Data) :
    ofJson (.object m) = .mapping (m.map ofJson).sorted := by
  obtain ⟨fields⟩ := m
  rw [ofJson, ofJsonFields_eq_map]
  rfl

/-! ### One level of a value -/

theorem ofJson_toJson_sequence (items : List Value) :
    ofJson (toJson (.sequence items)) = .sequence (items.map fun item => ofJson item.toJson) := by
  rw [toJson_sequence, ofJson_array, List.map_map]
  rfl

theorem ofJson_toJson_mapping (m : Mapping) :
    ofJson (toJson (.mapping m)) = .mapping (m.map fun v => ofJson v.toJson).sorted := by
  rw [toJson_mapping, ofJson_object, OrderedMap.map_map]

theorem ofYaml_ofJson_sequence (items : List Value) :
    ofYaml (.ofJson (toJson (.sequence items))) =
      .sequence (items.map fun item => ofYaml (.ofJson item.toJson)) := by
  rw [toJson_sequence, Datum.ofJson_array, ofYaml_sequence, List.map_map, List.map_map]
  rfl

theorem ofYaml_ofJson_mapping (m : Mapping) :
    ofYaml (.ofJson (toJson (.mapping m))) =
      .mapping (OrderedMap.ofList (m.map fun v => ofYaml (.ofJson v.toJson)).entries) := by
  have hfields (entries : List (String × Value)) :
      Datum.fields (entries.map fun entry => (.string entry.1, .ofJson entry.2.toJson)) =
        entries.map fun entry => (entry.1, ofYaml (.ofJson entry.2.toJson)) := by
    rw [Datum.fields, List.filterMap_map, ← List.filterMap_eq_map]
    rfl
  rw [toJson_mapping, Datum.ofJson_object, ofYaml_mapping, OrderedMap.map, List.map_map]
  exact congrArg (fun entries => mapping (OrderedMap.ofList entries)) (hfields m.entries)

/-! ### All levels -/

/-- A mapping agrees with its image if the values in it agree with theirs. -/
theorem agrees_map {m : Mapping} {f : Value → Value}
    (h : ∀ entry ∈ m.entries, (f entry.2).agrees entry.2 = true) : Mapping.Agrees (m.map f) m := by
  intro key
  rw [OrderedMap.get?_map]
  cases hkey : m.get? key with
  | none => exact .none
  | some value => exact .some (h _ (OrderedMap.mem_entries_of_get? hkey))

/-- In a value and in all values in it mappings have their keys in the order of bytes. -/
inductive IsOrdered : Value → Prop
  | null : IsOrdered .null
  | boolean (truth : Bool) : IsOrdered (.boolean truth)
  | scalar (text : String) : IsOrdered (.scalar text)
  | sequence {items : List Value} (hitems : ∀ item ∈ items, IsOrdered item) :
      IsOrdered (.sequence items)
  | mapping {fields : Mapping} (hkeys : Text.InByteOrder fields.keys)
      (hfields : ∀ entry ∈ fields.entries, IsOrdered entry.2) : IsOrdered (.mapping fields)

variable {v : Value}

/-- **A value read back from JSON agrees with the one that was written**, by induction on the value. -/
theorem agrees_ofJson_toJson (hv : v.HasUniqueKeys) : (ofJson v.toJson).agrees v = true := by
  induction hv with
  | null => rfl
  | boolean truth => exact beq_self_eq_true truth
  | scalar text => exact beq_self_eq_true text
  | sequence _ ih =>
    rw [ofJson_toJson_sequence, agrees, agreesAll_eq_true_iff, List.forall₂_map_left_iff]
    exact List.forall₂_same.mpr ih
  | @mapping fields hkeys _ ih =>
    rw [ofJson_toJson_mapping, agrees_mapping_iff (by simpa [OrderedMap.nodup_keys_sorted]) hkeys]
    intro key
    rw [OrderedMap.get?_sorted]
    exact agrees_map ih key

/-- **A value read back from JSON is ordered** at every level. -/
theorem isOrdered_ofJson_toJson (hv : v.HasUniqueKeys) : (ofJson v.toJson).IsOrdered := by
  induction hv with
  | null => exact .null
  | boolean truth => exact .boolean truth
  | scalar text => exact .scalar text
  | sequence _ ih =>
    rw [ofJson_toJson_sequence]
    exact .sequence (List.forall_mem_map.mpr ih)
  | @mapping fields hkeys _ ih =>
    rw [ofJson_toJson_mapping]
    refine .mapping (OrderedMap.inByteOrder_keys_sorted (by simpa)) fun entry hentry => ?_
    have hmem := (OrderedMap.sortedEntries_perm _).mem_iff.mp hentry
    obtain ⟨field, hfield, rfl⟩ := List.mem_map.mp hmem
    exact ih field hfield

/-- **A value read back from YAML is the one that was written.** -/
theorem ofYaml_ofJson_toJson (hv : v.HasUniqueKeys) : ofYaml (.ofJson v.toJson) = v := by
  induction hv with
  | null => rfl
  | boolean truth => rfl
  | scalar text => rfl
  | sequence _ ih => rw [ofYaml_ofJson_sequence, List.map_congr_left ih, List.map_id']
  | @mapping fields hkeys _ ih =>
    have hentries : (fields.map fun v => ofYaml (.ofJson v.toJson)).entries = fields.entries := by
      refine Eq.trans (List.map_congr_left fun entry hentry => ?_) (List.map_id fields.entries)
      exact congrArg (fun v => (entry.1, v)) (ih entry hentry)
    rw [ofYaml_ofJson_mapping, hentries, OrderedMap.ofList_entries hkeys]

end Value

/-! ### Contexts -/

namespace Context

variable {c : Context}

theorem ofValue_ofJson_toJson (c : Context) :
    Value.mapping (ofValue (Value.ofJson c.toJson)).root =
      Value.ofJson (Value.mapping c.root).toJson := by
  rw [toJson, Value.ofJson_toJson_mapping]
  rfl

theorem ofValue_ofYaml_toJson (hc : c.HasUniqueKeys) :
    ofValue (Value.ofYaml (.ofJson c.toJson)) = c := by
  rw [toJson, Value.ofYaml_ofJson_toJson hc]
  rfl

/-- A context that is read as such keeps the order of its own keys. -/
theorem ofJson?_toJson (c : Context) :
    ofJson? c.toJson = some ⟨c.root.map fun v => Value.ofJson v.toJson⟩ := by
  rw [toJson, Value.toJson_mapping]
  simp only [OrderedMap.map, ofJson?, Value.ofJsonFields_eq_map, List.map_map]
  rfl

theorem agrees_map_toJson (hc : c.HasUniqueKeys) :
    agrees ⟨c.root.map fun v => Value.ofJson v.toJson⟩ c = true := by
  cases hc with
  | mapping hkeys hfields =>
    rw [agrees, Value.agrees_mapping_iff (by simpa) hkeys]
    exact Value.agrees_map fun entry hentry => Value.agrees_ofJson_toJson (hfields entry hentry)

theorem isOrdered_map_toJson (hc : c.HasUniqueKeys) :
    ∀ entry ∈ (c.root.map fun v => Value.ofJson v.toJson).entries, entry.2.IsOrdered := by
  cases hc with
  | mapping hkeys hfields =>
    exact List.forall_mem_map.mpr fun entry hentry =>
      Value.isOrdered_ofJson_toJson (hfields entry hentry)

end Context

namespace Value

/-- **What was written is read back.** A value comes back from JSON data as a value that agrees with it
and in which all keys are in the order of bytes, and from YAML data as it was. So does a context through
its own mapping; if JSON data is read as a context, its own keys stay in place, and only those in the
values below them are ordered. -/
theorem readBack_exact {v : Value} (hv : v.HasUniqueKeys) {c : Context} (hc : c.HasUniqueKeys) :
    ((ofJson v.toJson).agrees v = true ∧ (ofJson v.toJson).IsOrdered) ∧
    ofYaml (.ofJson v.toJson) = v ∧
    ((Context.ofValue (ofJson c.toJson)).agrees c = true ∧
      (mapping (Context.ofValue (ofJson c.toJson)).root).IsOrdered) ∧
    Context.ofValue (ofYaml (.ofJson c.toJson)) = c ∧
    ∃ c', Context.ofJson? c.toJson = some c' ∧ c'.agrees c = true ∧ c'.root.keys = c.root.keys ∧
      ∀ entry ∈ c'.root.entries, entry.2.IsOrdered := by
  refine ⟨⟨agrees_ofJson_toJson hv, isOrdered_ofJson_toJson hv⟩, ofYaml_ofJson_toJson hv, ?_,
    Context.ofValue_ofYaml_toJson hc, _, Context.ofJson?_toJson c, Context.agrees_map_toJson hc,
    OrderedMap.keys_map _ _, Context.isOrdered_map_toJson hc⟩
  rw [Context.agrees, Context.ofValue_ofJson_toJson]
  exact ⟨agrees_ofJson_toJson hc, isOrdered_ofJson_toJson hc⟩

/-- Texts that look like something else, keys out of order, and a mapping in a sequence in a mapping. -/
theorem readBack_exact_lookalikes :
    let m : Mapping := ⟨[("b", .sequence [.scalar "1", .scalar "true", .scalar "null", .null,
        .boolean true, .mapping ⟨[("é", .scalar ""), ("Z", .sequence [])]⟩]), ("a", .scalar "~")]⟩
    Mapping.HasUniqueKeys m ∧ (ofJson (toJson (mapping m))).agrees (mapping m) = true ∧
      (ofJson (toJson (mapping m))).IsOrdered ∧ ofYaml (.ofJson (toJson (mapping m))) = mapping m := by
  intro m
  have hinner : Mapping.HasUniqueKeys ⟨[("é", .scalar ""), ("Z", .sequence [])]⟩ := by
    refine .mapping (by decide) ?_
    simp only [List.forall_mem_cons]
    exact ⟨.scalar _, .sequence (List.forall_mem_nil _), List.forall_mem_nil _⟩
  have hm : Mapping.HasUniqueKeys m := by
    refine .mapping (by decide) ?_
    simp only [m, List.forall_mem_cons]
    refine ⟨.sequence ?_, .scalar _, List.forall_mem_nil _⟩
    simp only [List.forall_mem_cons]
    exact ⟨.scalar _, .scalar _, .scalar _, .null, .boolean _, hinner, List.forall_mem_nil _⟩
  have h := readBack_exact hm (c := ⟨m⟩) hm
  exact ⟨hm, h.1.1, h.1.2, h.2.1⟩

end Value

end DocTemplate
