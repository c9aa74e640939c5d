import DocTemplate.Document.Converter
import DocTemplate.Proofs.OrderedMap.Insertion

/-!
# What hooks make of metadata

Both hooks insert their values one after the other, so a key that is there keeps its place and new
ones come last in order. They differ in the value that counts: with `addMissing` it is that of the
metadata, with `replaceAll` it is the inserted one.
-/

namespace DocTemplate

namespace Hook

/-- **What is missing is added.** -/
theorem get?_addMissing (metadata values : Mapping) (key : String) :
    (addMissing metadata values).get? key = (metadata.get? key).or (values.get? key) :=
  OrderedMap.get?_foldl_insertIfNew metadata values.entries key

theorem keys_addMissing (metadata values : Mapping) :
    (addMissing metadata values).keys =
      metadata.keys ++ OrderedMap.newKeys metadata.keys values.keys :=
  OrderedMap.keys_foldl (fun m entry => m.keys_insertIfNew entry.1 entry.2) metadata values.entries

/-- **What is there is replaced**, where no key of the values stands twice. -/
theorem get?_replaceAll (metadata : Mapping) {values : Mapping} (hkeys : values.keys.Nodup)
    (key : String) :
    (replaceAll metadata values).get? key = (values.get? key).or (metadata.get? key) := by
  rw [replaceAll, OrderedMap.get?_insertMany, OrderedMap.lookup_reverse hkeys]

theorem keys_replaceAll (metadata values : Mapping) :
    (replaceAll metadata values).keys =
      metadata.keys ++ OrderedMap.newKeys metadata.keys values.keys :=
  OrderedMap.keys_insertMany metadata values.entries

end Hook

end DocTemplate
