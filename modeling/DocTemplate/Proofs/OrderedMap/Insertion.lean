import DocTemplate.Proofs.Context.Agreement
import DocTemplate.Proofs.Text.ByteOrder

/-!
# Insertions one after the other

Entries are inserted into a mapping one after the other. Of the entries under one key the last one
counts (`get?_insertMany`). The keys that are there stay where they are, and those that are not come
after them, each once and in the order in which they first occur (`newKeys`, `keys_foldl`); so they
ascend if the inserted keys do (`inByteOrder_newKeys`).

To order a mapping by key changes no view of it (`get?_sorted`), whether or not a key occurs twice,
since entries with one key keep their order. If no key does, the outcome depends only on which entries
there are (`sorted_eq_of_perm`).

A mapping in which no key occurs twice is told by its keys and its view (`eq_of_keys_of_get?`), and up
to order by its view alone (`perm_of_get?`). So two runs of insertions are compared by the laws on keys
and values above, and insertions of the entries of a mapping into an empty one make that mapping
(`ofList_entries`).
-/

namespace DocTemplate.OrderedMap

variable {α : Type} {m n : OrderedMap α}

/-! ### Looking up in a list -/

theorem lookup_eq_find? (key : String) (entries : List (String × α)) :
    lookup key entries = (entries.find? fun entry => entry.1 = key).map Prod.snd := by
  induction entries with
  | nil => rfl
  | cons entry rest ih =>
    obtain ⟨k, v⟩ := entry
    by_cases h : k = key <;> simp [lookup, h, ih]

theorem lookup_append (key : String) (a b : List (String × α)) :
    lookup key (a ++ b) = (lookup key a).or (lookup key b) := by
  simp only [lookup_eq_find?, List.find?_append, Option.map_or]

/-- Where no key occurs twice, the order of the entries does not matter. -/
theorem get?_eq_of_perm (hkeys : m.keys.Nodup) (h : m.entries.Perm n.entries) (key : String) :
    m.get? key = n.get? key := by
  have hkeys' : n.keys.Nodup := (h.map Prod.fst).nodup_iff.mp hkeys
  refine Option.ext fun value => ⟨fun hget => ?_, fun hget => ?_⟩
  · exact get?_of_mem_entries hkeys' (h.mem_iff.mp (mem_entries_of_get? hget))
  · exact get?_of_mem_entries hkeys (h.mem_iff.mpr (mem_entries_of_get? hget))

theorem lookup_reverse (hkeys : m.keys.Nodup) (key : String) :
    lookup key m.entries.reverse = m.get? key :=
  (get?_eq_of_perm (n := ⟨m.entries.reverse⟩) hkeys (List.reverse_perm m.entries).symm key).symm

/-! ### Keys -/

/-- The keys of a list that are not among some others, each once. -/
def newKeys (present : List String) : List String → List String
  | [] => []
  | key :: rest =>
    if key ∈ present then newKeys present rest else key :: newKeys (present ++ [key]) rest

theorem mem_newKeys {present keys : List String} {key : String} :
    key ∈ newKeys present keys ↔ key ∈ keys ∧ key ∉ present := by
  induction keys generalizing present with
  | nil => simp [newKeys]
  | cons k rest ih =>
    rw [newKeys]
    split <;> grind

theorem newKeys_sublist (present keys : List String) : (newKeys present keys).Sublist keys := by
  induction keys generalizing present with
  | nil => exact List.Sublist.slnil
  | cons k rest ih =>
    rw [newKeys]
    split
    · exact (ih present).cons k
    · exact (ih (present ++ [k])).cons_cons k

/-- Keys that are new after others are those that are new after both. -/
theorem newKeys_append (present a b : List String) :
    newKeys present (a ++ b) = newKeys present a ++ newKeys (present ++ newKeys present a) b := by
  induction a generalizing present with
  | nil => rw [List.nil_append, newKeys, List.nil_append, List.append_nil]
  | cons key rest ih =>
    rw [List.cons_append, newKeys, newKeys]
    split
    · exact ih present
    · rw [ih, List.cons_append, List.append_assoc, List.singleton_append]

/-- To leave out what is there anyway makes no difference. -/
theorem newKeys_newKeys {seen present : List String} (h : ∀ key ∈ seen, key ∈ present)
    (keys : List String) : newKeys present (newKeys seen keys) = newKeys present keys := by
  induction keys generalizing seen present with
  | nil => rfl
  | cons key rest ih =>
    by_cases hseen : key ∈ seen
    · rw [newKeys, if_pos hseen, newKeys, if_pos (h key hseen), ih h]
    · rw [newKeys, if_neg hseen, newKeys, newKeys]
      split
      next hpresent => exact ih fun k hk => (List.mem_append.mp hk).elim (h k) (by grind)
      next => exact congrArg _ (ih fun k hk => by grind)

/-- Of keys that differ the new ones are those that are not there. -/
theorem newKeys_eq_filter {keys : List String} (hkeys : keys.Nodup) (present : List String) :
    newKeys present keys = keys.filter (· ∉ present) := by
  induction keys generalizing present with
  | nil => rfl
  | cons key rest ih =>
    obtain ⟨hkey, hrest⟩ := List.nodup_cons.mp hkeys
    rw [newKeys, ih hrest, ih hrest, List.filter_cons]
    split
    next h => simp [h]
    next h =>
      have hcongr : rest.filter (· ∉ present ++ [key]) = rest.filter (· ∉ present) :=
        List.filter_congr fun k hk => by grind
      rw [hcongr]
      simp [h]

/-- The new keys are those that are not there, each where it first occurs. -/
theorem newKeys_eq_eraseDups (present keys : List String) :
    newKeys present keys = (keys.filter (· ∉ present)).eraseDups := by
  induction keys generalizing present with
  | nil => rfl
  | cons key rest ih =>
    by_cases hkey : key ∈ present
    · rw [newKeys, if_pos hkey, ih, List.filter_cons_of_neg (by simpa using hkey)]
    · rw [newKeys, if_neg hkey, ih, List.filter_cons_of_pos (by simpa using hkey),
        List.eraseDups_cons, List.filter_filter]
      refine congrArg (fun keys => key :: List.eraseDups keys) (List.filter_congr fun k _ => ?_)
      simp [Bool.and_comm, beq_eq_decide]

theorem nodup_newKeys (present keys : List String) : (newKeys present keys).Nodup := by
  induction keys generalizing present with
  | nil => exact List.nodup_nil
  | cons k rest ih =>
    rw [newKeys]
    split
    · exact ih present
    · refine List.nodup_cons.mpr ⟨fun hmem => ?_, ih (present ++ [k])⟩
      exact (mem_newKeys.mp hmem).2 (List.mem_append_right _ List.mem_cons_self)

/-- **New keys ascend** if the keys do that they are taken from. -/
theorem inByteOrder_newKeys {keys : List String} (h : keys.Pairwise (· ≤ ·))
    (present : List String) : Text.InByteOrder (newKeys present keys) := by
  rw [Text.inByteOrder_iff]
  have hle := h.sublist (newKeys_sublist present keys)
  exact (hle.and (nodup_newKeys present keys)).imp fun ⟨hle, hne⟩ => lt_of_le_of_ne hle hne

theorem keys_insert (m : OrderedMap α) (key : String) (value : α) :
    (m.insert key value).keys = if key ∈ m.keys then m.keys else m.keys ++ [key] := by
  split
  next h => exact keys_insert_of_mem m h value
  next h => exact keys_insert_of_not_mem m h value

theorem keys_insertIfNew (m : OrderedMap α) (key : String) (value : α) :
    (m.insertIfNew key value).keys = if key ∈ m.keys then m.keys else m.keys ++ [key] := by
  simp only [insertIfNew, contains_iff_mem_keys]
  split
  · rfl
  next h => exact keys_insert_of_not_mem m h value

/-- **The keys after a run of steps**, each of which puts its key last unless it is there. -/
theorem keys_foldl {step : OrderedMap α → String × α → OrderedMap α}
    (hstep : ∀ m entry,
      (step m entry).keys = if entry.1 ∈ m.keys then m.keys else m.keys ++ [entry.1])
    (m : OrderedMap α) (entries : List (String × α)) :
    (entries.foldl step m).keys = m.keys ++ newKeys m.keys (entries.map Prod.fst) := by
  induction entries generalizing m with
  | nil => exact (List.append_nil _).symm
  | cons entry rest ih =>
    rw [List.foldl_cons, ih, hstep, List.map_cons, newKeys]
    split
    · rfl
    · rw [List.append_assoc, List.singleton_append]

theorem keys_insertMany (m : OrderedMap α) (entries : List (String × α)) :
    (m.insertMany entries).keys = m.keys ++ newKeys m.keys (entries.map Prod.fst) :=
  keys_foldl (fun m entry => keys_insert m entry.1 entry.2) m entries

theorem nodup_keys_ofList (entries : List (String × α)) : (ofList entries).keys.Nodup := by
  rw [ofList, keys_insertMany]
  exact nodup_newKeys _ _

theorem nodup_append_newKeys {present : List String} (h : present.Nodup) (keys : List String) :
    (present ++ newKeys present keys).Nodup :=
  List.nodup_append.mpr ⟨h, nodup_newKeys present keys, fun _ hkey _ hkey' heq =>
    (mem_newKeys.mp hkey').2 (heq ▸ hkey)⟩

/-! ### Values -/

/-- **Of the entries under one key the last one counts**, and where there is none the mapping stays. -/
theorem get?_insertMany (m : OrderedMap α) (entries : List (String × α)) (key : String) :
    (m.insertMany entries).get? key = (lookup key entries.reverse).or (m.get? key) := by
  induction entries generalizing m with
  | nil => rfl
  | cons entry rest ih =>
    obtain ⟨k, v⟩ := entry
    rw [insertMany, List.foldl_cons, ← insertMany, ih, List.reverse_cons, lookup_append,
      Option.or_assoc]
    -- what is left is the view of the first insertion
    congr 1
    by_cases h : k = key
    · subst h
      simp [lookup]
    · simp [lookup, h, get?_insert_of_ne m (Ne.symm h)]

theorem get?_ofList (entries : List (String × α)) (key : String) :
    (ofList entries).get? key = lookup key entries.reverse := by
  rw [ofList, get?_insertMany, get?_empty, Option.or_none]

theorem get?_insertIfNew (m : OrderedMap α) (k : String) (v : α) (key : String) :
    (m.insertIfNew k v).get? key = (m.get? key).or (lookup key [(k, v)]) := by
  rw [insertIfNew, contains]
  by_cases h : k = key
  · subst h
    cases hget : m.get? k <;> simp [hget, lookup]
  · split <;> simp [lookup, h, get?_insert_of_ne m (Ne.symm h)]

/-- **Of insertions that replace nothing the first one counts**, after what the mapping holds. -/
theorem get?_foldl_insertIfNew (m : OrderedMap α) (entries : List (String × α)) (key : String) :
    (entries.foldl (fun m entry => m.insertIfNew entry.1 entry.2) m).get? key =
      (m.get? key).or (lookup key entries) := by
  induction entries generalizing m with
  | nil => exact Option.or_none.symm
  | cons entry rest ih =>
    rw [List.foldl_cons, ih, get?_insertIfNew, Option.or_assoc, ← lookup_append,
      List.singleton_append]

/-! ### Ordering by key -/

theorem key_le_trans (a b c : String × α) (hab : decide (a.1 ≤ b.1) = true)
    (hbc : decide (b.1 ≤ c.1) = true) : decide (a.1 ≤ c.1) = true :=
  decide_eq_true (le_trans (of_decide_eq_true hab) (of_decide_eq_true hbc))

theorem key_le_total (a b : String × α) : (decide (a.1 ≤ b.1) || decide (b.1 ≤ a.1)) = true := by
  simpa using le_total a.1 b.1

theorem sortedEntries_perm (m : OrderedMap α) : m.sortedEntries.Perm m.entries :=
  List.mergeSort_perm _ _

theorem pairwise_sortedEntries (m : OrderedMap α) :
    m.sortedEntries.Pairwise fun a b => a.1 ≤ b.1 :=
  (List.pairwise_mergeSort key_le_trans key_le_total m.entries).imp fun h => of_decide_eq_true h

/-- Ordered by key, the keys ascend. -/
theorem pairwise_keys_sorted (m : OrderedMap α) : m.sorted.keys.Pairwise (· ≤ ·) :=
  List.pairwise_map.mpr m.pairwise_sortedEntries

theorem mem_keys_sorted {key : String} : key ∈ m.sorted.keys ↔ key ∈ m.keys :=
  (m.sortedEntries_perm.map Prod.fst).mem_iff

theorem nodup_keys_sorted : m.sorted.keys.Nodup ↔ m.keys.Nodup :=
  (m.sortedEntries_perm.map Prod.fst).nodup_iff

/-- The entries under one key stay in order. -/
theorem filter_sortedEntries (m : OrderedMap α) (key : String) :
    m.sortedEntries.filter (fun entry => entry.1 = key) =
      m.entries.filter fun entry => entry.1 = key := by
  -- they are in order already, so a stable sort keeps them as they are
  have hpairwise : (m.entries.filter fun entry => entry.1 = key).Pairwise
      fun a b => decide (a.1 ≤ b.1) = true := by
    refine List.pairwise_of_forall_mem_list fun a ha b hb => ?_
    have ha : a.1 = key := of_decide_eq_true (List.mem_filter.mp ha).2
    have hb : b.1 = key := of_decide_eq_true (List.mem_filter.mp hb).2
    exact decide_eq_true (le_of_eq (ha.trans hb.symm))
  have hsublist := (List.sublist_mergeSort key_le_trans key_le_total hpairwise
    List.filter_sublist).filter fun entry => entry.1 = key
  rw [List.filter_filter] at hsublist
  simp only [Bool.and_self] at hsublist
  exact (hsublist.eq_of_length (m.sortedEntries_perm.filter _).length_eq.symm).symm

/-- **To order by key changes no view.** -/
theorem get?_sorted (m : OrderedMap α) (key : String) : m.sorted.get? key = m.get? key := by
  rw [get?, get?, sorted, lookup_eq_find?, lookup_eq_find?, ← List.head?_filter, ← List.head?_filter,
    filter_sortedEntries]

/-- **Ordered by key, mappings with the same entries are the same**, if no key occurs twice. -/
theorem sorted_eq_of_perm (hkeys : m.keys.Nodup) (h : m.entries.Perm n.entries) :
    m.sorted = n.sorted := by
  refine congrArg OrderedMap.mk (List.Perm.eq_of_pairwise (fun a b ha hb hab hba => ?_)
    m.pairwise_sortedEntries n.pairwise_sortedEntries
    (m.sortedEntries_perm.trans (h.trans n.sortedEntries_perm.symm)))
  -- of two entries with one key the keys tell that they are one entry
  have ha : a ∈ m.entries := m.sortedEntries_perm.mem_iff.mp ha
  have hb : b ∈ m.entries := h.mem_iff.mpr (n.sortedEntries_perm.mem_iff.mp hb)
  exact List.inj_on_of_nodup_map hkeys ha hb (le_antisymm hab hba)

/-! ### Keys and view -/

/-- The entries are what is found under the keys. -/
theorem filterMap_keys (hkeys : m.keys.Nodup) :
    (m.keys.filterMap fun key => (m.get? key).map fun value => (key, value)) = m.entries := by
  rw [keys, List.filterMap_map]
  refine (List.filterMap_congr fun entry hentry => ?_).trans List.filterMap_some
  rw [Function.comp_apply, get?_of_mem_entries hkeys hentry]
  rfl

/-- **Keys and view tell a mapping** in which no key occurs twice. -/
theorem eq_of_keys_of_get? (hm : m.keys.Nodup) (hkeys : m.keys = n.keys)
    (hget : ∀ key, m.get? key = n.get? key) : m = n := by
  refine congrArg OrderedMap.mk ?_
  rw [← filterMap_keys hm, ← filterMap_keys (hkeys ▸ hm), hkeys]
  simp only [hget]

/-- **The view tells a mapping up to order.** -/
theorem perm_of_get? (hm : m.keys.Nodup) (hn : n.keys.Nodup)
    (hget : ∀ key, m.get? key = n.get? key) : m.entries.Perm n.entries := by
  refine (List.perm_ext_iff_of_nodup (hm.of_map _) (hn.of_map _)).mpr fun entry => ?_
  obtain ⟨key, value⟩ := entry
  exact ⟨fun h => mem_entries_of_get? ((hget key).symm.trans (get?_of_mem_entries hm h)),
    fun h => mem_entries_of_get? ((hget key).trans (get?_of_mem_entries hn h))⟩

/-- The entries of a mapping make it again. -/
theorem ofList_entries (hkeys : m.keys.Nodup) : ofList m.entries = m := by
  refine eq_of_keys_of_get? (nodup_keys_ofList m.entries) ?_ fun key => ?_
  · rw [ofList, keys_insertMany, ← keys, newKeys_eq_filter hkeys]
    exact List.filter_eq_self.mpr fun key _ => by simp [empty, keys]
  · rw [get?_ofList, lookup_reverse hkeys]

end DocTemplate.OrderedMap
