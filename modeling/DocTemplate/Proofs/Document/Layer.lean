import DocTemplate.Proofs.Document.Hook

/-!
# Layers of metadata

Values that a hook puts into metadata are a layer. One of defaults lies below the metadata and one of
overrides above it, and what is on top counts. So two layers of one kind are one layer, whose values
are those of both together (`Hook.replaceAll_replaceAll`, `Hook.addMissing_addMissing`), to put a layer
a second time changes nothing, and two layers of different kinds may be put in either order but for
the order of keys (`Hook.perm_addMissing_replaceAll`).

A layer is described by the two facts that `Layer.keys_apply` and `Layer.get?_apply` state: the keys
that are there stay in front, and the value under a key is that of the overrides, then that of the
metadata, then that of the defaults. Both compose, so that they describe any number of layers, in any
order (`Layer.run`): under a key stands the value of the last override that names it, else that of the
document, else that of the first default that names it.

The laws about order are equations of mappings. They are proved from the two facts, for a mapping in
which no key stands twice is told by its keys and its view.
-/

namespace DocTemplate

open OrderedMap (newKeys)

variable {m : Mapping} {v w : Mapping}

/-! ### Two layers -/

namespace Hook

theorem nodup_keys_addMissing (hm : m.keys.Nodup) (v : Mapping) : (addMissing m v).keys.Nodup := by
  rw [keys_addMissing]
  exact OrderedMap.nodup_append_newKeys hm v.keys

theorem nodup_keys_replaceAll (hm : m.keys.Nodup) (v : Mapping) : (replaceAll m v).keys.Nodup := by
  rw [keys_replaceAll]
  exact OrderedMap.nodup_append_newKeys hm v.keys

/-- **Layers of both kinds may be put in either order**, up to the order of keys. -/
theorem perm_addMissing_replaceAll (hm : m.keys.Nodup) (v : Mapping) (hw : w.keys.Nodup) :
    (replaceAll (addMissing m v) w).entries.Perm (addMissing (replaceAll m w) v).entries := by
  refine OrderedMap.perm_of_get? (nodup_keys_replaceAll (nodup_keys_addMissing hm v) w)
    (nodup_keys_addMissing (nodup_keys_replaceAll hm w) v) fun key => ?_
  rw [get?_replaceAll _ hw, get?_addMissing, get?_addMissing, get?_replaceAll _ hw, Option.or_assoc]

/-- The keys of two layers are those of the one put into the other. -/
theorem newKeys_after (present first second : List String) :
    present ++ newKeys present (first ++ newKeys first second) =
      present ++ newKeys present first ++ newKeys (present ++ newKeys present first) second := by
  rw [OrderedMap.newKeys_append, OrderedMap.newKeys_newKeys, List.append_assoc]
  intro key hkey
  by_cases h : key ∈ present
  · exact List.mem_append_left _ h
  · exact List.mem_append_right _ (OrderedMap.mem_newKeys.mpr ⟨hkey, h⟩)

/-- **Two layers of overrides are one**, the first with the second put into it. -/
theorem replaceAll_replaceAll (hm : m.keys.Nodup) (hv : v.keys.Nodup) (hw : w.keys.Nodup) :
    replaceAll (replaceAll m v) w = replaceAll m (replaceAll v w) := by
  refine OrderedMap.eq_of_keys_of_get?
    (nodup_keys_replaceAll (nodup_keys_replaceAll hm v) w) ?_ fun key => ?_
  · simp only [keys_replaceAll, newKeys_after]
  · rw [get?_replaceAll _ hw, get?_replaceAll _ hv, get?_replaceAll _ (nodup_keys_replaceAll hv w),
      get?_replaceAll _ hw, Option.or_assoc]

/-- **Two layers of defaults are one**, the first with what the second adds to it. -/
theorem addMissing_addMissing (hm : m.keys.Nodup) (v w : Mapping) :
    addMissing (addMissing m v) w = addMissing m (addMissing v w) := by
  refine OrderedMap.eq_of_keys_of_get?
    (nodup_keys_addMissing (nodup_keys_addMissing hm v) w) ?_ fun key => ?_
  · simp only [keys_addMissing, newKeys_after]
  · simp only [get?_addMissing, Option.or_assoc]

theorem newKeys_self (keys : List String) : newKeys keys keys = [] :=
  List.eq_nil_iff_forall_not_mem.mpr fun _ h =>
    (OrderedMap.mem_newKeys.mp h).2 (OrderedMap.mem_newKeys.mp h).1

theorem replaceAll_self (hv : v.keys.Nodup) : replaceAll v v = v := by
  refine OrderedMap.eq_of_keys_of_get? (nodup_keys_replaceAll hv v) ?_ fun key => ?_
  · rw [keys_replaceAll, newKeys_self, List.append_nil]
  · rw [get?_replaceAll _ hv, Option.or_self]

theorem addMissing_self (hv : v.keys.Nodup) : addMissing v v = v := by
  refine OrderedMap.eq_of_keys_of_get? (nodup_keys_addMissing hv v) ?_ fun key => ?_
  · rw [keys_addMissing, newKeys_self, List.append_nil]
  · rw [get?_addMissing, Option.or_self]

/-- To put overrides a second time changes nothing. -/
theorem replaceAll_replaceAll_self (hm : m.keys.Nodup) (hv : v.keys.Nodup) :
    replaceAll (replaceAll m v) v = replaceAll m v := by
  rw [replaceAll_replaceAll hm hv hv, replaceAll_self hv]

/-- To put defaults a second time changes nothing. -/
theorem addMissing_addMissing_self (hm : m.keys.Nodup) (hv : v.keys.Nodup) :
    addMissing (addMissing m v) v = addMissing m v := by
  rw [addMissing_addMissing hm, addMissing_self hv]

end Hook

/-! ### Any number of layers -/

/-- Values that one of the two hooks puts into metadata. -/
inductive Layer where
  /-- Values under the keys that the metadata lacks. -/
  | defaults (values : Mapping)
  /-- Values under their keys in any case. -/
  | overrides (values : Mapping)

namespace Layer

/-- The values of a layer. -/
def values : Layer → Mapping
  | defaults values => values
  | overrides values => values

/-- The hook that puts a layer into the metadata of a document. -/
def hook : Layer → Hook
  | defaults values => Hook.defaults values
  | overrides values => Hook.overrides values

/-- The value that a layer gives a key whatever the metadata holds. -/
def override? (key : String) : Layer → Option Value
  | defaults _ => none
  | overrides values => values.get? key

/-- The value that a layer gives a key for want of another. -/
def default? (key : String) : Layer → Option Value
  | defaults values => values.get? key
  | overrides _ => none

/-- Metadata with a layer put into it. -/
def apply (m : Mapping) : Layer → Mapping
  | defaults values => Hook.addMissing m values
  | overrides values => Hook.replaceAll m values

/-- **The keys that are there stay in front** of those that a layer adds. -/
theorem keys_apply (m : Mapping) (layer : Layer) :
    (layer.apply m).keys = m.keys ++ newKeys m.keys layer.values.keys := by
  cases layer with
  | defaults values => exact Hook.keys_addMissing m values
  | overrides values => exact Hook.keys_replaceAll m values

/-- **What is on top counts.** -/
theorem get?_apply (m : Mapping) {layer : Layer} (hkeys : layer.values.keys.Nodup) (key : String) :
    (layer.apply m).get? key =
      (layer.override? key).or ((m.get? key).or (layer.default? key)) := by
  cases layer with
  | defaults values => exact Hook.get?_addMissing m values key
  | overrides values =>
    rw [override?, default?, Option.or_none]
    exact Hook.get?_replaceAll m hkeys key

/-- A run of layers changes nothing but the metadata, and does not fail. -/
theorem runAll_hooks (layers : List Layer) (document : Document) :
    Hook.runAll (layers.map hook) document =
      .ok { document with metadata := layers.foldl apply document.metadata } := by
  induction layers generalizing document with
  | nil => rfl
  | cons layer layers ih =>
    have hrun : layer.hook.run document =
        .ok { document with metadata := layer.apply document.metadata } := by
      cases layer <;> rfl
    rw [List.map_cons, Hook.runAll, List.foldlM_cons, hrun]
    exact ih _

/-- Runs of layers that make the same of the metadata are the same. -/
theorem runAll_congr {document : Document} {a b : List Layer}
    (h : a.foldl apply document.metadata = b.foldl apply document.metadata) :
    Hook.runAll (a.map hook) document = Hook.runAll (b.map hook) document := by
  rw [runAll_hooks, runAll_hooks, h]

theorem keys_prefix_foldl (m : Mapping) (layers : List Layer) :
    m.keys <+: (layers.foldl apply m).keys := by
  induction layers generalizing m with
  | nil => exact List.prefix_rfl
  | cons layer layers ih =>
    refine List.IsPrefix.trans ?_ (ih (layer.apply m))
    rw [keys_apply]
    exact List.prefix_append _ _

/-- The value under a key, by induction on the layers: those above the metadata are looked through
from the last one on, those below it from the first one on. -/
theorem get?_foldl (m : Mapping) {layers : List Layer}
    (hkeys : ∀ layer ∈ layers, layer.values.keys.Nodup) (key : String) :
    (layers.foldl apply m).get? key = (layers.reverse.findSome? (override? key)).or
      ((m.get? key).or (layers.findSome? (default? key))) := by
  induction layers generalizing m with
  | nil => simp
  | cons layer layers ih =>
    obtain ⟨hlayer, hlayers⟩ := List.forall_mem_cons.mp hkeys
    have hdefault : (layer :: layers).findSome? (default? key) =
        (layer.default? key).or (layers.findSome? (default? key)) := by
      cases h : layer.default? key <;> simp [h]
    have hoverride : (layer :: layers).reverse.findSome? (override? key) =
        (layers.reverse.findSome? (override? key)).or (layer.override? key) := by
      rw [List.reverse_cons, List.findSome?_append]
      cases h : layer.override? key <;> simp [h]
    rw [List.foldl_cons, ih _ hlayers, get?_apply m hlayer, hdefault, hoverride]
    simp only [Option.or_assoc]

end Layer

/-! ### The laws of the hooks -/

namespace Hook

/-- **The algebra of the hooks on metadata.** Hooks of both kinds may be applied in either order but
for the order of keys, and a hook that is applied twice is applied once. Two hooks of one kind are one,
whose values are those of the first, each in its place, and then the further ones of the second, where
of two values under one key the second counts for overrides and the first for defaults. A list of hooks
of these kinds, however long, leaves the body alone and the keys of a document in front as they are,
and gives each key the value of the last override that names it, else that of the document, else that
of the first default that names it. -/
theorem metadata_laws (document : Document) (d d₁ d₂ o o₁ o₂ : Mapping) (layers : List Layer)
    (hkeys : ∀ m ∈ [document.metadata, d, d₁, d₂, o, o₁, o₂], m.keys.Nodup)
    (hlayers : ∀ layer ∈ layers, layer.values.keys.Nodup) :
    (∃ a b, runAll [defaults d, overrides o] document = .ok a ∧
      runAll [overrides o, defaults d] document = .ok b ∧
      a.metadata.entries.Perm b.metadata.entries) ∧
    runAll [defaults d, defaults d] document = runAll [defaults d] document ∧
    runAll [overrides o, overrides o] document = runAll [overrides o] document ∧
    (∃ both : Mapping, both.keys = o₁.keys ++ o₂.keys.filter (· ∉ o₁.keys) ∧
      (∀ key, both.get? key = (o₂.get? key).or (o₁.get? key)) ∧
      runAll [overrides o₁, overrides o₂] document = runAll [overrides both] document) ∧
    (∃ both : Mapping, both.keys = d₁.keys ++ d₂.keys.filter (· ∉ d₁.keys) ∧
      (∀ key, both.get? key = (d₁.get? key).or (d₂.get? key)) ∧
      runAll [defaults d₁, defaults d₂] document = runAll [defaults both] document) ∧
    ∃ final, runAll (layers.map Layer.hook) document = .ok final ∧
      final.body = document.body ∧ document.metadata.keys <+: final.metadata.keys ∧
      ∀ key, final.metadata.get? key = (layers.reverse.findSome? (Layer.override? key)).or
        ((document.metadata.get? key).or (layers.findSome? (Layer.default? key))) := by
  simp only [List.forall_mem_cons, List.not_mem_nil, false_implies, implies_true, and_true] at hkeys
  obtain ⟨hm, hd, hd₁, hd₂, ho, ho₁, ho₂⟩ := hkeys
  refine ⟨⟨_, _, Layer.runAll_hooks [.defaults d, .overrides o] document,
    Layer.runAll_hooks [.overrides o, .defaults d] document, perm_addMissing_replaceAll hm d ho⟩,
    ?_, ?_, ⟨replaceAll o₁ o₂, ?_, get?_replaceAll o₁ ho₂, ?_⟩, ⟨addMissing d₁ d₂, ?_,
    get?_addMissing d₁ d₂, ?_⟩, _, Layer.runAll_hooks layers document, rfl,
    Layer.keys_prefix_foldl document.metadata layers, Layer.get?_foldl document.metadata hlayers⟩
  · exact Layer.runAll_congr (a := [.defaults d, .defaults d]) (b := [.defaults d])
      (addMissing_addMissing_self hm hd)
  · exact Layer.runAll_congr (a := [.overrides o, .overrides o]) (b := [.overrides o])
      (replaceAll_replaceAll_self hm ho)
  · rw [keys_replaceAll, OrderedMap.newKeys_eq_filter ho₂]
  · exact Layer.runAll_congr (a := [.overrides o₁, .overrides o₂]) (b := [.overrides _])
      (replaceAll_replaceAll hm ho₁ ho₂)
  · rw [keys_addMissing, OrderedMap.newKeys_eq_filter hd₂]
  · exact Layer.runAll_congr (a := [.defaults d₁, .defaults d₂]) (b := [.defaults _])
      (addMissing_addMissing hm d₁ d₂)

/-- Every layer meets a key of another one or of the document. In the list an override stands between
two others and below a default, and under `lang` the last override counts, under `title` the document
and under `date` the first default. -/
theorem metadata_laws_overlapping :
    let document : Document := ⟨⟨[("title", .scalar "Notes"), ("lang", .null)]⟩, "Hello"⟩
    let layers : List Layer := [.defaults ⟨[("date", .scalar "today"), ("title", .null)]⟩,
      .overrides ⟨[("lang", .scalar "en"), ("tag", .null)]⟩,
      .defaults ⟨[("date", .scalar "never")]⟩, .overrides ⟨[("lang", .scalar "de")]⟩]
    (∀ m ∈ [document.metadata, ⟨[("date", .null), ("lang", .null)]⟩, ⟨[("lang", .null)]⟩,
        ⟨[("date", .null), ("lang", .scalar "en")]⟩, ⟨[("lang", .scalar "de"), ("date", .null)]⟩,
        ⟨[("tag", .null), ("lang", .scalar "en")]⟩, ⟨[("lang", .scalar "de")]⟩],
      m.keys.Nodup) ∧
    (∀ layer ∈ layers, layer.values.keys.Nodup) ∧
    ∃ final, runAll (layers.map Layer.hook) document = .ok final ∧
      final.metadata.get? "lang" = some (.scalar "de") ∧
      final.metadata.get? "title" = some (.scalar "Notes") ∧
      final.metadata.get? "date" = some (.scalar "today") := by
  intro document layers
  have hkeys : ∀ m ∈ [document.metadata, ⟨[("date", .null), ("lang", .null)]⟩, ⟨[("lang", .null)]⟩,
      ⟨[("date", .null), ("lang", .scalar "en")]⟩, ⟨[("lang", .scalar "de"), ("date", .null)]⟩,
      ⟨[("tag", .null), ("lang", .scalar "en")]⟩, ⟨[("lang", .scalar "de")]⟩],
      m.keys.Nodup := by
    simp [document, OrderedMap.keys]
  have hlayers : ∀ layer ∈ layers, layer.values.keys.Nodup := by
    simp [layers, Layer.values, OrderedMap.keys]
  obtain ⟨final, hfinal, -, -, hget⟩ :=
    (metadata_laws document _ _ _ _ _ _ layers hkeys hlayers).2.2.2.2.2
  exact ⟨hkeys, hlayers, final, hfinal, hget "lang", hget "title", hget "date"⟩

end Hook

end DocTemplate
