import DocTemplate.Document.FrontMatter
import DocTemplate.Proofs.OrderedMap.Insertion

/-!
# What YAML data becomes

Of a datum a value keeps everything but its tags, the keys that are no texts, and of entries whose keys
have one text all but the last. Tags do not count at all: a datum becomes what it becomes without them
(`Value.ofYaml_untagged`), be they on values or on keys, one or many. An item of a sequence becomes an
item (`Value.ofYaml_sequence`).

The entries of a mapping are inserted one after the other (`Value.ofYamlEntries_eq_insertMany`), so that
**the texts of their keys become the keys, each where it first occurs, and each with the value of the
last entry that has it** (`Value.isRead_ofYaml`). Distinct keys may have one text, as the number `1` and
the text `1` do. Nothing of that is left in the value: at no level do two of its entries stand under one
key (`Value.hasUniqueKeys_ofYaml`).

Metadata are read as a datum and converted, so all this holds of them (`FrontMatter.metadata_exact`).
-/

namespace DocTemplate

open Yaml (Datum)

/-! ### Data without tags -/

namespace Yaml.Datum

mutual

/-- The datum without its tags, those of keys included. The entries of a mapping stay as many as they
are and in order, even if two keys differed by their tags alone. -/
def untagged : Datum → Datum
  | null => null
  | boolean truth => boolean truth
  | integer value => integer value
  | float value => float value
  | string text => string text
  | sequence items => sequence (untaggedItems items)
  | mapping entries => mapping (untaggedEntries entries)
  | tagged _ datum => datum.untagged

/-- Items without tags. -/
def untaggedItems : List Datum → List Datum
  | [] => []
  | item :: rest => item.untagged :: untaggedItems rest

/-- Entries without tags. -/
def untaggedEntries : List (Datum × Datum) → List (Datum × Datum)
  | [] => []
  | (key, value) :: rest => (key.untagged, value.untagged) :: untaggedEntries rest

end

/-- What a datum without tags is, if it is neither a mapping nor nothing. -/
def otherKind? : Datum → Option FoundKind
  | boolean _ => some .boolean
  | integer _ => some .scalar
  | float _ => some .scalar
  | string _ => some .scalar
  | sequence _ => some .sequence
  | _ => none

/-- The tags of a key do not count for its text. -/
theorem key?_untagged : ∀ key : Datum, key.untagged.key? = key.key?
  | null => rfl
  | boolean _ => rfl
  | integer _ => rfl
  | float _ => rfl
  | string _ => rfl
  | sequence _ => rfl
  | mapping _ => rfl
  | tagged _ datum => key?_untagged datum

/-- What has no text as a key is nothing, a sequence or a mapping. -/
theorem key?_eq_none_iff : ∀ key : Datum, key.key? = none ↔
    key.untagged = null ∨ (∃ items, key.untagged = sequence items) ∨
      ∃ entries, key.untagged = mapping entries
  | null => by simp [key?, untagged]
  | boolean _ => by simp [key?, untagged]
  | integer _ => by simp [key?, untagged]
  | float _ => by simp [key?, untagged]
  | string _ => by simp [key?, untagged]
  | sequence _ => by simp [key?, untagged]
  | mapping _ => by simp [key?, untagged]
  | tagged _ datum => key?_eq_none_iff datum

/-- A key has the text of the scalar that it would become as a value, or that of the truth value. -/
theorem key?_eq_some_iff (name : String) : ∀ key : Datum, key.key? = some name ↔
    Value.ofYaml key = .scalar name ∨ ∃ truth, Value.ofYaml key = .boolean truth ∧
      name = toString truth
  | null => by simp [key?, Value.ofYaml]
  | boolean truth => by cases truth <;> simp [key?, Value.ofYaml, eq_comm, toString]
  | integer _ => by simp [key?, Value.ofYaml]
  | float _ => by simp [key?, Value.ofYaml]
  | string _ => by simp [key?, Value.ofYaml]
  | sequence _ => by simp [key?, Value.ofYaml]
  | mapping _ => by simp [key?, Value.ofYaml]
  | tagged _ datum => key?_eq_some_iff name datum

/-- The fields that entries give one after the other. -/
def fields (entries : List (Datum × Datum)) : List (String × Value) :=
  entries.filterMap fun entry => entry.1.key?.map fun name => (name, Value.ofYaml entry.2)

theorem fields_append (a b : List (Datum × Datum)) : fields (a ++ b) = fields a ++ fields b :=
  List.filterMap_append

theorem map_fst_fields (entries : List (Datum × Datum)) :
    (fields entries).map Prod.fst = entries.filterMap fun entry => entry.1.key? := by
  rw [fields, List.map_filterMap]
  refine List.filterMap_congr fun entry _ => ?_
  rw [Option.map_map]
  exact Option.map_id'

end Yaml.Datum

theorem Mapping.hasUniqueKeys_empty : Mapping.HasUniqueKeys OrderedMap.empty :=
  .mapping List.nodup_nil (List.forall_mem_nil _)

namespace Value

open Yaml.Datum (fields untaggedItems untaggedEntries)

mutual

/-- **Tags do not count**, at any level. -/
theorem ofYaml_untagged : ∀ datum : Datum, ofYaml datum.untagged = ofYaml datum
  | .null => rfl
  | .boolean _ => rfl
  | .integer _ => rfl
  | .float _ => rfl
  | .string _ => rfl
  | .sequence items => congrArg sequence (ofYamlItems_untagged items)
  | .mapping entries => congrArg mapping (ofYamlEntries_untagged OrderedMap.empty entries)
  | .tagged _ datum => ofYaml_untagged datum

theorem ofYamlItems_untagged : ∀ items : List Datum,
    ofYamlItems (untaggedItems items) = ofYamlItems items
  | [] => rfl
  | item :: rest => congrArg₂ List.cons (ofYaml_untagged item) (ofYamlItems_untagged rest)

theorem ofYamlEntries_untagged : ∀ (m : Mapping) (entries : List (Datum × Datum)),
    ofYamlEntries m (untaggedEntries entries) = ofYamlEntries m entries
  | _, [] => rfl
  | m, (key, value) :: rest => by
    rw [untaggedEntries, ofYamlEntries, ofYamlEntries, key.key?_untagged, ofYaml_untagged value]
    cases key.key? with
    | none => exact ofYamlEntries_untagged m rest
    | some name => exact ofYamlEntries_untagged _ rest

end

mutual

/-- **Keys are unique at every level** of a value that a datum becomes. -/
theorem hasUniqueKeys_ofYaml : ∀ datum : Datum, (ofYaml datum).HasUniqueKeys
  | .null => .null
  | .boolean truth => .boolean truth
  | .integer _ => .scalar _
  | .float _ => .scalar _
  | .string text => .scalar text
  | .sequence items => .sequence (hasUniqueKeys_ofYamlItems items)
  | .mapping entries =>
    hasUniqueKeys_ofYamlEntries Mapping.hasUniqueKeys_empty entries
  | .tagged _ datum => hasUniqueKeys_ofYaml datum

theorem hasUniqueKeys_ofYamlItems : ∀ items : List Datum,
    ∀ value ∈ ofYamlItems items, value.HasUniqueKeys
  | [] => List.forall_mem_nil _
  | item :: rest =>
    List.forall_mem_cons.mpr ⟨hasUniqueKeys_ofYaml item, hasUniqueKeys_ofYamlItems rest⟩

theorem hasUniqueKeys_ofYamlEntries : ∀ {m : Mapping} (_ : Mapping.HasUniqueKeys m)
    (entries : List (Datum × Datum)), Mapping.HasUniqueKeys (ofYamlEntries m entries)
  | _, hm, [] => hm
  | m, hm, (key, value) :: rest => by
    rw [ofYamlEntries]
    cases key.key? with
    | none => exact hasUniqueKeys_ofYamlEntries hm rest
    | some name => exact hasUniqueKeys_ofYamlEntries (hm.insert (hasUniqueKeys_ofYaml value) name) rest

end

theorem ofYamlItems_eq_map (items : List Datum) : ofYamlItems items = items.map ofYaml := by
  induction items with
  | nil => rfl
  | cons item rest ih => rw [ofYamlItems, ih, List.map_cons]

/-- **Every item becomes an item.** -/
theorem ofYaml_sequence (items : List Datum) :
    ofYaml (.sequence items) = .sequence (items.map ofYaml) := by
  rw [ofYaml, ofYamlItems_eq_map]

/-- Entries are inserted one after the other, but for those whose keys have no text. -/
theorem ofYamlEntries_eq_insertMany (m : Mapping) (entries : List (Datum × Datum)) :
    ofYamlEntries m entries = m.insertMany (fields entries) := by
  induction entries generalizing m with
  | nil => rfl
  | cons entry rest ih =>
    obtain ⟨key, value⟩ := entry
    rw [ofYamlEntries, fields, List.filterMap_cons]
    cases key.key? with
    | none => exact ih m
    | some name => exact ih _

theorem ofYaml_mapping (entries : List (Datum × Datum)) :
    ofYaml (.mapping entries) = .mapping (OrderedMap.ofList (fields entries)) :=
  congrArg mapping (ofYamlEntries_eq_insertMany OrderedMap.empty entries)

end Value

/-! ### Mappings -/

/-- What a mapping is that some entries become. Its keys are the texts of theirs, each where it first
occurs, and under a key stands what the value of the last entry with this text becomes. -/
structure Mapping.IsRead (entries : List (Datum × Datum)) (m : Mapping) : Prop where
  keys_eq : m.keys = (entries.filterMap fun entry => entry.1.key?).eraseDups
  get?_eq {before after : List (Datum × Datum)} {key value : Datum} {name : String}
    (hentries : entries = before ++ (key, value) :: after) (hname : key.key? = some name)
    (hlast : ∀ entry ∈ after, entry.1.key? ≠ some name) : m.get? name = some (Value.ofYaml value)

/-- **Of the entries with one text the first gives the place and the last the value.** -/
theorem Mapping.isRead_ofList (entries : List (Datum × Datum)) :
    Mapping.IsRead entries (OrderedMap.ofList (Datum.fields entries)) where
  keys_eq := by
    have hempty : (OrderedMap.empty : Mapping).keys = [] := rfl
    rw [OrderedMap.ofList, OrderedMap.keys_insertMany, Datum.map_fst_fields, hempty,
      List.nil_append, OrderedMap.newKeys_eq_eraseDups]
    simp
  get?_eq := by
    rintro before after key value name rfl hname hlast
    have hfields : Datum.fields ((key, value) :: after) =
        (name, Value.ofYaml value) :: Datum.fields after := by
      rw [Datum.fields, List.filterMap_cons, hname]
      rfl
    -- no entry that comes later is found in front of this one
    have hafter : OrderedMap.lookup name (Datum.fields after).reverse = none := by
      refine OrderedMap.get?_eq_none_iff (m := ⟨(Datum.fields after).reverse⟩) |>.mpr fun hmem => ?_
      rw [OrderedMap.keys, List.map_reverse, List.mem_reverse, Datum.map_fst_fields] at hmem
      obtain ⟨entry, hentry, hkey⟩ := List.mem_filterMap.mp hmem
      exact hlast entry hentry hkey
    rw [OrderedMap.get?_ofList, Datum.fields_append, hfields, List.reverse_append,
      List.reverse_cons, OrderedMap.lookup_append, OrderedMap.lookup_append, hafter]
    simp [OrderedMap.lookup]

/-! ### Metadata -/

namespace FrontMatter

/-- A text is read as a datum. A blank one is not read at all. -/
def Reads (yaml : String) (datum : Datum) : Prop :=
  Text.isBlankText yaml = false ∧ Datum.ofText? yaml = some datum

theorem ofValue_ofYaml_eq_error_iff (found : FoundKind) : ∀ datum : Datum,
    ofValue (Value.ofYaml datum) = .error (.frontMatterNotMapping found) ↔
      datum.untagged.otherKind? = some found
  | .null => by simp [Value.ofYaml, ofValue, Datum.untagged, Datum.otherKind?]
  | .boolean _ => by simp [Value.ofYaml, ofValue, Datum.untagged, Datum.otherKind?]
  | .integer _ => by simp [Value.ofYaml, ofValue, Datum.untagged, Datum.otherKind?]
  | .float _ => by simp [Value.ofYaml, ofValue, Datum.untagged, Datum.otherKind?]
  | .string _ => by simp [Value.ofYaml, ofValue, Datum.untagged, Datum.otherKind?]
  | .sequence _ => by simp [Value.ofYaml, ofValue, Datum.untagged, Datum.otherKind?]
  | .mapping _ => by simp [Value.ofYaml, ofValue, Datum.untagged, Datum.otherKind?]
  | .tagged _ datum => ofValue_ofYaml_eq_error_iff found datum

theorem Reads.metadata_eq {yaml : String} {datum : Datum} (h : Reads yaml datum) :
    metadata yaml = ofValue (Value.ofYaml datum) := by
  rw [metadata, if_neg (by rw [h.1]; exact Bool.false_ne_true), h.2]

/-- A text that is not read gives no metadata, or none are to be had from it. -/
theorem metadata_eq_of_not_reads {yaml : String} (h : ∀ datum, ¬Reads yaml datum) :
    metadata yaml = .ok OrderedMap.empty ∨ metadata yaml = .error .frontMatter := by
  rw [metadata]
  split
  · exact Or.inl rfl
  next hblank =>
    cases hdatum : Datum.ofText? yaml with
    | none => exact Or.inr rfl
    | some datum => exact absurd ⟨Bool.not_eq_true _ ▸ hblank, hdatum⟩ (h datum)

theorem hasUniqueKeys_of_ofValue {value : Value} {m : Mapping} (hvalue : value.HasUniqueKeys)
    (h : ofValue value = .ok m) : Mapping.HasUniqueKeys m := by
  cases hvalue with
  | null =>
    cases h
    exact Mapping.hasUniqueKeys_empty
  | mapping hkeys hfields =>
    cases h
    exact .mapping hkeys hfields
  | _ => cases h

/-- **Metadata have unique keys** at every level. -/
theorem hasUniqueKeys_of_metadata {yaml : String} {m : Mapping} (h : metadata yaml = .ok m) :
    Mapping.HasUniqueKeys m := by
  by_cases hreads : ∃ datum, Reads yaml datum
  · obtain ⟨datum, hdatum⟩ := hreads
    rw [hdatum.metadata_eq] at h
    exact hasUniqueKeys_of_ofValue (Value.hasUniqueKeys_ofYaml datum) h
  · rcases metadata_eq_of_not_reads (not_exists.mp hreads) with hempty | herror
    · cases hempty.symm.trans h
      exact Mapping.hasUniqueKeys_empty
    · cases herror.symm.trans h

/-- **Metadata are said not to be a mapping** exactly if what is read is neither a mapping nor nothing,
whatever its tags. -/
theorem metadata_eq_notMapping_iff {yaml : String} {found : FoundKind} :
    metadata yaml = .error (.frontMatterNotMapping found) ↔
      ∃ datum, Reads yaml datum ∧ datum.untagged.otherKind? = some found := by
  constructor
  · intro h
    by_cases hreads : ∃ datum, Reads yaml datum
    · obtain ⟨datum, hdatum⟩ := hreads
      rw [hdatum.metadata_eq, ofValue_ofYaml_eq_error_iff] at h
      exact ⟨datum, hdatum, h⟩
    · rcases metadata_eq_of_not_reads (not_exists.mp hreads) with hempty | herror
      · cases hempty.symm.trans h
      · cases herror.symm.trans h
  · rintro ⟨datum, hdatum, hkind⟩
    rw [hdatum.metadata_eq, ofValue_ofYaml_eq_error_iff]
    exact hkind

/-- **YAML is converted exactly.** The laws are about all data, and so about every level of a datum.
Tags make no difference, and keys are unique. A sequence becomes one of as many items in order. A
mapping becomes one whose keys are the texts of its keys, each where it first occurs, and the value of
the last entry with a text counts; a key without a text is nothing, a sequence or a mapping, and any
other key has the text that it would have as a value. So metadata hold no field twice, and what is read
is said not to be a mapping exactly if without its tags it is a truth value, a number, a text or a
sequence. -/
theorem metadata_exact :
    (∀ datum : Datum, Value.ofYaml datum.untagged = Value.ofYaml datum ∧
      (Value.ofYaml datum).HasUniqueKeys) ∧
    (∀ items, Value.ofYaml (.sequence items) = .sequence (items.map Value.ofYaml)) ∧
    (∀ entries, ∃ m, Value.ofYaml (.mapping entries) = .mapping m ∧ Mapping.IsRead entries m) ∧
    (∀ key : Datum, (key.key? = none ↔ key.untagged = .null ∨
        (∃ items, key.untagged = .sequence items) ∨ ∃ entries, key.untagged = .mapping entries) ∧
      ∀ name, key.key? = some name ↔ Value.ofYaml key = .scalar name ∨
        ∃ truth, Value.ofYaml key = .boolean truth ∧ name = toString truth) ∧
    (∀ yaml m, metadata yaml = .ok m → Mapping.HasUniqueKeys m) ∧
    ∀ yaml found, metadata yaml = .error (.frontMatterNotMapping found) ↔
      ∃ datum, Reads yaml datum ∧ datum.untagged.otherKind? = some found :=
  ⟨fun datum => ⟨Value.ofYaml_untagged datum, Value.hasUniqueKeys_ofYaml datum⟩,
    Value.ofYaml_sequence,
    fun entries => ⟨_, Value.ofYaml_mapping entries, Mapping.isRead_ofList entries⟩,
    fun key => ⟨key.key?_eq_none_iff, fun name => key.key?_eq_some_iff name⟩,
    fun _ _ => hasUniqueKeys_of_metadata, fun _ _ => metadata_eq_notMapping_iff⟩

/-- The number `1` and the text `1`, with a tag or two, are one key, and a key that is nothing is none. -/
theorem metadata_exact_same_text :
    ∃ m, Value.ofYaml (.mapping [(.integer 1, .string "a"), (.null, .string "b"),
        (.string "lang", .tagged "t" (.boolean true)),
        (.tagged "t" (.tagged "u" (.string "1")), .string "c")]) = .mapping m ∧
      m.keys = ["1", "lang"] ∧ m.get? "1" = some (.scalar "c") := by
  obtain ⟨m, hm, hkeys, hget⟩ := metadata_exact.2.2.1 [(.integer 1, .string "a"),
    (.null, .string "b"), (.string "lang", .tagged "t" (.boolean true)),
    (.tagged "t" (.tagged "u" (.string "1")), .string "c")]
  refine ⟨m, hm, hkeys.trans (by decide), ?_⟩
  exact @hget [_, _, _] [] _ _ _ rfl rfl (List.forall_mem_nil _)

end FrontMatter

end DocTemplate
