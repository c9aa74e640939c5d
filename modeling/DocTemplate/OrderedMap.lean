/-!
# Mappings that keep the order of insertion

An `OrderedMap` is a list of entries with text keys. Inserting under a key that is present replaces
the value where it stands; inserting under a new key adds an entry at the end. The view of a mapping
is `get?`, and the two laws that determine it are `get?_insert_self` and `get?_insert_of_ne`; the
order is determined by `keys_insert_of_mem` and `keys_insert_of_not_mem`. Overwriting twice is
overwriting once (`insert_insert_self`), and writing back what was read changes nothing
(`insert_of_get?`).
-/

namespace DocTemplate

/-- A mapping from texts that keeps its entries in the order of insertion. -/
structure OrderedMap (α : Type) where
  /-- The entries, first inserted first. -/
  entries : List (String × α)

namespace OrderedMap

variable {α β : Type}

/-- The mapping without entries. -/
def empty : OrderedMap α := ⟨[]⟩

instance : Inhabited (OrderedMap α) := ⟨empty⟩

/-- The keys in order. -/
def keys (m : OrderedMap α) : List String :=
  m.entries.map Prod.fst

/-- The number of entries. -/
def size (m : OrderedMap α) : Nat :=
  m.entries.length

/-- Whether there is no entry. -/
def isEmpty (m : OrderedMap α) : Bool :=
  m.entries.isEmpty

/-- The value of the first entry with a key. -/
def lookup (key : String) : List (String × α) → Option α
  | [] => none
  | (k, v) :: rest => if k = key then some v else lookup key rest

/-- The value under a key. -/
def get? (m : OrderedMap α) (key : String) : Option α :=
  lookup key m.entries

/-- Whether a key is present. -/
def contains (m : OrderedMap α) (key : String) : Bool :=
  (m.get? key).isSome

/-- The entries with the value of the first one of a key replaced, or with a new entry at the end. -/
def replaceOrAdd (key : String) (value : α) : List (String × α) → List (String × α)
  | [] => [(key, value)]
  | (k, v) :: rest => if k = key then (k, value) :: rest else (k, v) :: replaceOrAdd key value rest

/-- The mapping with a value under a key: in the place of the old value if there is one, and as the
last entry otherwise. -/
def insert (m : OrderedMap α) (key : String) (value : α) : OrderedMap α :=
  ⟨replaceOrAdd key value m.entries⟩

/-- The mapping with a value under a key that has none; a key that is present keeps its value. -/
def insertIfNew (m : OrderedMap α) (key : String) (value : α) : OrderedMap α :=
  if m.contains key then m else m.insert key value

/-- The mapping with the entries of a list inserted one after the other. -/
def insertMany (m : OrderedMap α) (entries : List (String × α)) : OrderedMap α :=
  entries.foldl (fun m entry => m.insert entry.1 entry.2) m

/-- The mapping that a list of entries inserted one after the other makes. -/
def ofList (entries : List (String × α)) : OrderedMap α :=
  empty.insertMany entries

/-- The mapping with every value replaced by its image. -/
def map (f : α → β) (m : OrderedMap α) : OrderedMap β :=
  ⟨m.entries.map fun entry => (entry.1, f entry.2)⟩

/-- The entries ordered by key. -/
def sortedEntries (m : OrderedMap α) : List (String × α) :=
  m.entries.mergeSort fun a b => decide (a.1 ≤ b.1)

/-- The mapping with its entries ordered by key. -/
def sorted (m : OrderedMap α) : OrderedMap α :=
  ⟨m.sortedEntries⟩

/-! ### The view of an insertion -/

theorem lookup_replaceOrAdd_self (key : String) (value : α) (entries : List (String × α)) :
    lookup key (replaceOrAdd key value entries) = some value := by
  induction entries with
  | nil => simp [replaceOrAdd, lookup]
  | cons entry rest ih =>
    obtain ⟨k, v⟩ := entry
    by_cases h : k = key <;> simp [replaceOrAdd, lookup, h, ih]

theorem lookup_replaceOrAdd_of_ne {key other : String} (h : other ≠ key) (value : α)
    (entries : List (String × α)) :
    lookup other (replaceOrAdd key value entries) = lookup other entries := by
  induction entries with
  | nil => simp [replaceOrAdd, lookup, h.symm]
  | cons entry rest ih =>
    obtain ⟨k, v⟩ := entry
    by_cases hk : k = key
    · subst hk
      simp [replaceOrAdd, lookup, h.symm]
    · simp [replaceOrAdd, lookup, hk, ih]

@[simp] theorem get?_empty (key : String) : (empty : OrderedMap α).get? key = none := rfl

/-- What is inserted is found. -/
@[simp] theorem get?_insert_self (m : OrderedMap α) (key : String) (value : α) :
    (m.insert key value).get? key = some value :=
  lookup_replaceOrAdd_self key value m.entries

/-- An insertion leaves every other key alone. -/
theorem get?_insert_of_ne (m : OrderedMap α) {key other : String} (h : other ≠ key) (value : α) :
    (m.insert key value).get? other = m.get? other :=
  lookup_replaceOrAdd_of_ne h value m.entries

theorem lookup_isSome_iff (key : String) (entries : List (String × α)) :
    (lookup key entries).isSome ↔ key ∈ entries.map Prod.fst := by
  induction entries with
  | nil => simp [lookup]
  | cons entry rest ih =>
    obtain ⟨k, v⟩ := entry
    by_cases h : k = key
    · simp [lookup, h]
    · have hne : key ≠ k := fun e => h e.symm
      simp only [lookup, if_neg h, ih, List.map_cons, List.mem_cons, hne, false_or]

/-- A key is found exactly if it is one of the keys. -/
theorem contains_iff_mem_keys (m : OrderedMap α) (key : String) :
    m.contains key ↔ key ∈ m.keys :=
  lookup_isSome_iff key m.entries

/-- Replacing a value moves no key. -/
theorem keys_insert_of_mem (m : OrderedMap α) {key : String} (h : key ∈ m.keys) (value : α) :
    (m.insert key value).keys = m.keys := by
  obtain ⟨entries⟩ := m
  simp only [keys, insert] at h ⊢
  induction entries with
  | nil => simp at h
  | cons entry rest ih =>
    obtain ⟨k, v⟩ := entry
    by_cases hk : k = key
    · simp [replaceOrAdd, hk]
    · have hmem : key ∈ rest.map Prod.fst :=
        (List.mem_cons.mp h).resolve_left fun e => hk e.symm
      simp [replaceOrAdd, hk, ih hmem]

/-- A new key goes to the end. -/
theorem keys_insert_of_not_mem (m : OrderedMap α) {key : String} (h : key ∉ m.keys) (value : α) :
    (m.insert key value).keys = m.keys ++ [key] := by
  obtain ⟨entries⟩ := m
  simp only [keys, insert] at h ⊢
  induction entries with
  | nil => simp [replaceOrAdd]
  | cons entry rest ih =>
    obtain ⟨k, v⟩ := entry
    simp only [List.map_cons, List.mem_cons, not_or] at h
    have hk : k ≠ key := fun e => h.1 e.symm
    simp [replaceOrAdd, hk, ih h.2]

/-! ### Insertions under a key that is present -/

theorem replaceOrAdd_replaceOrAdd (key : String) (value other : α)
    (entries : List (String × α)) :
    replaceOrAdd key other (replaceOrAdd key value entries) = replaceOrAdd key other entries := by
  induction entries with
  | nil => simp [replaceOrAdd]
  | cons entry rest ih =>
    obtain ⟨k, v⟩ := entry
    by_cases h : k = key <;> simp [replaceOrAdd, h, ih]

theorem replaceOrAdd_of_lookup {key : String} {value : α} {entries : List (String × α)}
    (h : lookup key entries = some value) : replaceOrAdd key value entries = entries := by
  induction entries with
  | nil => simp [lookup] at h
  | cons entry rest ih =>
    obtain ⟨k, v⟩ := entry
    by_cases hk : k = key
    · rw [lookup, if_pos hk, Option.some.injEq] at h
      rw [replaceOrAdd, if_pos hk, h]
    · rw [lookup, if_neg hk] at h
      rw [replaceOrAdd, if_neg hk, ih h]

/-- Of two insertions under one key the second one counts. -/
@[simp] theorem insert_insert_self (m : OrderedMap α) (key : String) (value other : α) :
    (m.insert key value).insert key other = m.insert key other :=
  congrArg OrderedMap.mk (replaceOrAdd_replaceOrAdd key value other m.entries)

/-- Inserting what is there changes nothing, the order of the entries included. -/
theorem insert_of_get? {m : OrderedMap α} {key : String} {value : α}
    (h : m.get? key = some value) : m.insert key value = m :=
  congrArg OrderedMap.mk (replaceOrAdd_of_lookup h)

/-! ### Entries -/

/-- What is found is in an entry. -/
theorem mem_entries_of_get? {m : OrderedMap α} {key : String} {value : α}
    (h : m.get? key = some value) : (key, value) ∈ m.entries := by
  obtain ⟨entries⟩ := m
  rw [get?] at h
  induction entries with
  | nil => cases h
  | cons entry rest ih =>
    obtain ⟨k, v⟩ := entry
    rw [lookup] at h
    split at h
    next hk =>
      rw [hk, Option.some.inj h]
      exact List.mem_cons_self
    next => exact List.mem_cons_of_mem _ (ih h)

/-- An insertion adds no entry but its own. -/
theorem mem_entries_insert {m : OrderedMap α} {key : String} {value : α} {entry : String × α}
    (h : entry ∈ (m.insert key value).entries) :
    entry = (key, value) ∨ entry ∈ m.entries := by
  obtain ⟨entries⟩ := m
  simp only [insert] at h ⊢
  induction entries with
  | nil => exact Or.inl (List.mem_singleton.mp h)
  | cons first rest ih =>
    obtain ⟨k, v⟩ := first
    rw [replaceOrAdd] at h
    split at h
    next hk =>
      rcases List.mem_cons.mp h with heq | hmem
      · exact Or.inl (hk ▸ heq)
      · exact Or.inr (List.mem_cons_of_mem _ hmem)
    next =>
      rcases List.mem_cons.mp h with heq | hmem
      · exact Or.inr (heq ▸ List.mem_cons_self)
      · exact (ih hmem).imp_right (List.mem_cons_of_mem _)

/-! ### The view of an image -/

/-- In an image the image of what was there is found. -/
theorem get?_map (f : α → β) (m : OrderedMap α) (key : String) :
    (m.map f).get? key = (m.get? key).map f := by
  obtain ⟨entries⟩ := m
  simp only [get?, map]
  induction entries with
  | nil => rfl
  | cons entry rest ih =>
    obtain ⟨k, v⟩ := entry
    by_cases h : k = key <;> simp [lookup, h, ih]

/-- The image of an insertion is an insertion of the image. -/
theorem map_insert (f : α → β) (m : OrderedMap α) (key : String) (value : α) :
    (m.insert key value).map f = (m.map f).insert key (f value) := by
  obtain ⟨entries⟩ := m
  simp only [insert, map, OrderedMap.mk.injEq]
  induction entries with
  | nil => rfl
  | cons entry rest ih =>
    obtain ⟨k, v⟩ := entry
    by_cases h : k = key <;> simp [replaceOrAdd, h, ih]

end OrderedMap

end DocTemplate
