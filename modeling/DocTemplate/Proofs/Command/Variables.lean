import DocTemplate.Command.Variables
import DocTemplate.Proofs.Except
import DocTemplate.Proofs.OrderedMap.Insertion
import Mathlib.Data.List.TakeWhile

/-!
# What the texts of variables give

A text gives a variable if it has an equals sign and something before the first one. Texts are read in
order, so it is the first one that gives none which is reported (`ofEntries_eq_error_iff`). If all
give one, the last text for a key decides (`get?_ofEntries`). As values the variables are ordered by
key, and the order in which they are held before does not matter (`toMapping_eq_of_perm`).
-/

namespace DocTemplate

namespace Variables

/-! ### One text -/

/-- The text before the first equals sign. -/
def keyOf (entry : String) : String :=
  String.ofList (entry.toList.takeWhile (· != '='))

/-- The text after the first equals sign. -/
def valueOf (entry : String) : String :=
  String.ofList (entry.toList.dropWhile (· != '=')).tail

/-- A text that gives a variable has an equals sign, and something before the first one. -/
def IsEntry (entry : String) : Prop :=
  '=' ∈ entry.toList ∧ keyOf entry ≠ ""

/-- What is wrong with a text that gives no variable. -/
inductive Fault (entry : String) : VariableError → Prop
  | noValue (h : '=' ∉ entry.toList) : Fault entry (.noValue entry)
  | noName (h : '=' ∈ entry.toList) (hkey : keyOf entry = "") : Fault entry (.noName entry)

variable {entry : String} {entries : List String} {e : VariableError}

theorem dropWhile_eq_nil_iff :
    entry.toList.dropWhile (· != '=') = [] ↔ '=' ∉ entry.toList := by
  rw [List.dropWhile_eq_nil_iff]
  refine ⟨fun h hmem => absurd (h '=' hmem) (by simp), fun h c hc => ?_⟩
  simpa using ne_of_mem_of_not_mem hc h

theorem ofEntry_of_isEntry (h : IsEntry entry) : ofEntry entry = .ok (keyOf entry, valueOf entry) := by
  obtain ⟨hmem, hkey⟩ := h
  rw [ofEntry]
  split
  next hdrop => exact absurd hmem (dropWhile_eq_nil_iff.mp hdrop)
  next hdrop =>
    split
    next htake => exact absurd (congrArg String.ofList htake) hkey
    next => rw [keyOf, valueOf, hdrop, List.tail_cons]

theorem ofEntry_of_fault (h : Fault entry e) : ofEntry entry = .error e := by
  cases h with
  | noValue hmem => rw [ofEntry, dropWhile_eq_nil_iff.mpr hmem]
  | noName hmem hkey =>
    rw [ofEntry]
    split
    next hdrop => exact absurd hmem (dropWhile_eq_nil_iff.mp hdrop)
    next =>
      have htake : entry.toList.takeWhile (· != '=') = [] :=
        String.ofList_injective hkey
      rw [htake]

/-- A text gives a variable, or something is wrong with it. -/
theorem isEntry_or_fault (entry : String) : IsEntry entry ∨ ∃ e, Fault entry e := by
  by_cases hmem : '=' ∈ entry.toList
  · by_cases hkey : keyOf entry = ""
    · exact Or.inr ⟨_, .noName hmem hkey⟩
    · exact Or.inl ⟨hmem, hkey⟩
  · exact Or.inr ⟨_, .noValue hmem⟩

theorem ofEntry_eq_error_iff : ofEntry entry = .error e ↔ Fault entry e := by
  refine ⟨fun h => ?_, ofEntry_of_fault⟩
  rcases isEntry_or_fault entry with hentry | ⟨e', hfault⟩
  · cases (ofEntry_of_isEntry hentry).symm.trans h
  · cases (ofEntry_of_fault hfault).symm.trans h
    exact hfault

theorem isEntry_iff_exists : IsEntry entry ↔ ∃ given, ofEntry entry = .ok given := by
  refine ⟨fun h => ⟨_, ofEntry_of_isEntry h⟩, fun ⟨given, h⟩ => ?_⟩
  refine (isEntry_or_fault entry).resolve_right fun ⟨e, hfault⟩ => ?_
  cases h.symm.trans (ofEntry_of_fault hfault)

/-! ### All texts -/

/-- The value that the last text for a key gives. -/
def lastValue? (entries : List String) (key : String) : Option String :=
  (entries.reverse.find? fun entry => keyOf entry = key).map valueOf

/-- **What is reported is wrong with the first text that gives no variable.** -/
theorem ofEntries_eq_error_iff :
    ofEntries entries = .error e ↔ ∃ before entry after, entries = before ++ entry :: after ∧
      (∀ earlier ∈ before, IsEntry earlier) ∧ Fault entry e := by
  have hread : ofEntries entries = .error e ↔ entries.mapM ofEntry = .error e := by
    rw [ofEntries]
    cases entries.mapM ofEntry <;> simp [bind, Except.bind, pure, Except.pure]
  simp only [hread, mapM_eq_error_iff, isEntry_iff_exists, ofEntry_eq_error_iff]

/-- Texts of which each gives a variable are the entries of a mapping, in order. -/
theorem ofEntries_of_forall (h : ∀ entry ∈ entries, IsEntry entry) :
    ofEntries entries =
      .ok (OrderedMap.ofList (entries.map fun entry => (keyOf entry, valueOf entry))) := by
  rw [ofEntries, mapM_eq_ok_of_forall fun entry hentry => ofEntry_of_isEntry (h entry hentry)]
  rfl

theorem forall_isEntry_of_ofEntries {given : OrderedMap String} (h : ofEntries entries = .ok given) :
    ∀ entry ∈ entries, IsEntry entry := by
  intro entry hentry
  cases hread : entries.mapM ofEntry with
  | error e => rw [ofEntries, hread] at h; cases h
  | ok pairs => exact isEntry_iff_exists.mpr (exists_of_mapM_eq_ok hread hentry)

variable {given : OrderedMap String}

/-- **The last text for a key decides.** -/
theorem get?_ofEntries (h : ofEntries entries = .ok given) (key : String) :
    given.get? key = lastValue? entries key := by
  rw [ofEntries_of_forall (forall_isEntry_of_ofEntries h)] at h
  cases h
  rw [OrderedMap.get?_ofList, OrderedMap.lookup_eq_find?, ← List.map_reverse, List.find?_map,
    lastValue?, Option.map_map]
  rfl

/-- The keys are those that the texts give. -/
theorem mem_keys_ofEntries (h : ofEntries entries = .ok given) {key : String} :
    key ∈ given.keys ↔ ∃ entry ∈ entries, keyOf entry = key := by
  rw [← OrderedMap.contains_iff_mem_keys, OrderedMap.contains, get?_ofEntries h, lastValue?,
    Option.isSome_map, List.find?_isSome]
  simp

theorem nodup_keys_ofEntries (h : ofEntries entries = .ok given) : given.keys.Nodup := by
  rw [ofEntries_of_forall (forall_isEntry_of_ofEntries h)] at h
  cases h
  exact OrderedMap.nodup_keys_ofList _

/-! ### Texts as values -/

theorem keys_toMapping (texts : OrderedMap String) : (toMapping texts).keys = texts.sorted.keys := by
  rw [toMapping, OrderedMap.keys, OrderedMap.map, List.map_map]
  rfl

theorem get?_toMapping (texts : OrderedMap String) (key : String) :
    (toMapping texts).get? key = (texts.get? key).map .scalar := by
  rw [toMapping, OrderedMap.get?_map, OrderedMap.get?_sorted]

/-- **The order in which variables are held does not matter.** -/
theorem toMapping_eq_of_perm {texts texts' : OrderedMap String} (hkeys : texts.keys.Nodup)
    (h : texts.entries.Perm texts'.entries) : toMapping texts = toMapping texts' :=
  congrArg (OrderedMap.map Value.scalar) (OrderedMap.sorted_eq_of_perm hkeys h)

end Variables

end DocTemplate
