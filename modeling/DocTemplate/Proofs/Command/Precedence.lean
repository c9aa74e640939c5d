import DocTemplate.Command.Config
import DocTemplate.Proofs.Command.Variables
import DocTemplate.Proofs.Document.Hook

/-!
# Which layer gives a value

The values of a context come from four layers. The body stands under its key in any case; the
variables of the command line come before the front matter, and the front matter before the variables
of the configuration. `Layers` says so by the view of the context and by its keys, and
`Config.converter_layers` that this is what a converter makes of a document.
-/

namespace DocTemplate

/-- The mapping is what comes of a document, the variables of a configuration, the texts of
variables, and a key for the body. -/
structure Layers (d : Document) (defaults : OrderedMap String) (entries : List String)
    (key : String) (m : Mapping) : Prop where
  /-- The body decides, then the last text for a key, then the document, then the configuration. -/
  get? : ∀ x, m.get? x =
    if x = key then some (.scalar d.body)
    else ((Variables.lastValue? entries x).map .scalar).or
      ((d.metadata.get? x).or ((defaults.get? x).map .scalar))
  /-- Keys stay where the document has them, and every layer adds its new ones in order. -/
  keys : ∃ added given,
    m.keys = d.metadata.keys ++ added ++ given ++
      (if key ∈ d.metadata.keys ++ added ++ given then [] else [key]) ∧
    Text.InByteOrder added ∧
    (∀ x, x ∈ added ↔ x ∈ defaults.keys ∧ x ∉ d.metadata.keys) ∧
    Text.InByteOrder given ∧
    (∀ x, x ∈ given ↔ (∃ entry ∈ entries, Variables.keyOf entry = x) ∧
      x ∉ d.metadata.keys ∧ x ∉ defaults.keys)

variable {d : Document} {c : Config} {entries : List String} {bodyKey : Option String}
  {given : OrderedMap String}

/-- Metadata that both hooks have changed, with the body added, is made of all layers. -/
theorem layers_insert (hgiven : Variables.ofEntries entries = .ok given) (d : Document)
    (defaults : OrderedMap String) (key : String) :
    Layers d defaults entries key
      ((Hook.replaceAll (Hook.addMissing d.metadata (Variables.toMapping defaults))
        (Variables.toMapping given)).insert key (.scalar d.body)) where
  get? x := by
    have hkeys : (Variables.toMapping given).keys.Nodup := by
      rw [Variables.keys_toMapping, OrderedMap.nodup_keys_sorted]
      exact Variables.nodup_keys_ofEntries hgiven
    split
    next hx => rw [hx, OrderedMap.get?_insert_self]
    next hx =>
      rw [OrderedMap.get?_insert_of_ne _ hx, Hook.get?_replaceAll _ hkeys, Hook.get?_addMissing,
        Variables.get?_toMapping, Variables.get?_toMapping, Variables.get?_ofEntries hgiven]
  keys := by
    have hsorted (texts : OrderedMap String) :
        (Variables.toMapping texts).keys.Pairwise (· ≤ ·) := by
      rw [Variables.keys_toMapping]
      exact texts.pairwise_keys_sorted
    -- what the second hook finds are the keys of the document and those of the first hook
    have hadded := Hook.keys_addMissing d.metadata (Variables.toMapping defaults)
    refine ⟨OrderedMap.newKeys d.metadata.keys (Variables.toMapping defaults).keys,
      OrderedMap.newKeys (Hook.addMissing d.metadata (Variables.toMapping defaults)).keys
        (Variables.toMapping given).keys, ?_,
      OrderedMap.inByteOrder_newKeys (hsorted defaults) _, fun x => ?_,
      OrderedMap.inByteOrder_newKeys (hsorted given) _, fun x => ?_⟩
    · rw [OrderedMap.keys_insert, Hook.keys_replaceAll, hadded]
      split
      · exact (List.append_nil _).symm
      · rfl
    · rw [OrderedMap.mem_newKeys, Variables.keys_toMapping, OrderedMap.mem_keys_sorted]
    · rw [OrderedMap.mem_newKeys, Variables.keys_toMapping, OrderedMap.mem_keys_sorted,
        Variables.mem_keys_ofEntries hgiven, hadded, List.mem_append, OrderedMap.mem_newKeys,
        Variables.keys_toMapping, OrderedMap.mem_keys_sorted]
      tauto

/-! ### The converter of a configuration -/

namespace Config

theorem converter_eq_error_iff {e : VariableError} :
    c.converter entries bodyKey = .error e ↔ Variables.ofEntries entries = .error e := by
  rw [converter]
  cases Variables.ofEntries entries <;> simp [bind, Except.bind, pure, Except.pure]

/-- A converter is made of the variables that the texts give. -/
theorem converter_eq_ok_iff {k : Converter} :
    c.converter entries bodyKey = .ok k ↔ ∃ given, Variables.ofEntries entries = .ok given ∧
      k = { Converter.standard with
        hooks := [Hook.defaults (Variables.toMapping c.defaults),
          Hook.overrides (Variables.toMapping given)]
        bodyKey := bodyKey.getD c.bodyKey
        limit := c.maxNesting } := by
  rw [converter]
  cases Variables.ofEntries entries <;> simp [bind, Except.bind, pure, Except.pure, eq_comm]

/-- There is no converter exactly if a text gives no variable. -/
theorem exists_converter_eq_error_iff :
    (∃ e, c.converter entries bodyKey = .error e) ↔
      ∃ entry ∈ entries, ¬ Variables.IsEntry entry := by
  simp only [converter_eq_error_iff]
  refine ⟨fun ⟨e, h⟩ => ?_, fun ⟨entry, hmem, hentry⟩ => ?_⟩
  · obtain ⟨before, entry, after, rfl, -, hfault⟩ := Variables.ofEntries_eq_error_iff.mp h
    refine ⟨entry, by simp, fun hentry => ?_⟩
    cases (Variables.ofEntry_of_isEntry hentry).symm.trans (Variables.ofEntry_of_fault hfault)
  · cases h : Variables.ofEntries entries with
    | error e => exact ⟨e, rfl⟩
    | ok given => exact absurd (Variables.forall_isEntry_of_ofEntries h entry hmem) hentry

/-- **The layers of a context.** A configuration with texts of variables has no converter exactly if
one of the texts gives no variable, and the first such text is reported. Otherwise every source of
which a document is read has a context, and it is made of all layers. The orders in which the variables
of the configuration and of the command line are held have no part in it. -/
theorem converter_layers (c : Config) (entries : List String) (bodyKey : Option String) :
    ((∃ e, c.converter entries bodyKey = .error e) ↔
      ∃ entry ∈ entries, ¬ Variables.IsEntry entry) ∧
    (∀ e, c.converter entries bodyKey = .error e ↔
      ∃ before entry after, entries = before ++ entry :: after ∧
        (∀ earlier ∈ before, Variables.IsEntry earlier) ∧ Variables.Fault entry e) ∧
    (∀ k source d, c.converter entries bodyKey = .ok k → k.extract source = .ok d →
      ∃ context, (do k.context (← k.parse source)) = .ok context ∧
        Layers d c.defaults entries (bodyKey.getD c.bodyKey) context.root) ∧
    (∀ k given, c.converter entries bodyKey = .ok k → Variables.ofEntries entries = .ok given →
      c.defaults.keys.Nodup → ∀ defaults overrides, c.defaults.entries.Perm defaults.entries →
        given.entries.Perm overrides.entries →
        k.hooks = [Hook.defaults (Variables.toMapping defaults),
          Hook.overrides (Variables.toMapping overrides)]) := by
  refine ⟨exists_converter_eq_error_iff,
    fun e => converter_eq_error_iff.trans Variables.ofEntries_eq_error_iff,
    fun k source d hk hd => ?_,
    fun k given hk hgiven hkeys defaults overrides hdefaults hoverrides => ?_⟩
  · obtain ⟨given, hgiven, rfl⟩ := converter_eq_ok_iff.mp hk
    refine ⟨_, ?_, layers_insert hgiven d c.defaults (bodyKey.getD c.bodyKey)⟩
    rw [Converter.parse, hd]
    rfl
  · obtain ⟨given', hgiven', rfl⟩ := converter_eq_ok_iff.mp hk
    cases hgiven.symm.trans hgiven'
    rw [Variables.toMapping_eq_of_perm hkeys hdefaults,
      Variables.toMapping_eq_of_perm (Variables.nodup_keys_ofEntries hgiven) hoverrides]

/-- Of two texts for one key the second one counts, and the body replaces what a text gives for its
key. The same hooks come of the variables in another order. -/
theorem converter_layers_overlapping :
    let c : Config := { standard with defaults := ⟨[("title", "none"), ("lang", "en")]⟩ }
    let entries := ["title=x", "body=none", "title=a=b"]
    ∃ k context, c.converter entries none = .ok k ∧
      (do k.context (← k.parse "---\n---\nHello")) = .ok context ∧
      Layers ⟨OrderedMap.empty, "Hello"⟩ c.defaults entries "body" context.root ∧
      k.hooks = [Hook.defaults (Variables.toMapping ⟨[("lang", "en"), ("title", "none")]⟩),
        Hook.overrides (Variables.toMapping ⟨[("body", "none"), ("title", "a=b")]⟩)] := by
  intro c entries
  have hgiven : Variables.ofEntries entries = .ok ⟨[("title", "a=b"), ("body", "none")]⟩ := by
    with_unfolding_all rfl
  have hk := (@converter_eq_ok_iff c entries none _).mpr ⟨_, hgiven, rfl⟩
  have hd : Document.ofSource "---\n---\nHello" = .ok ⟨OrderedMap.empty, "Hello"⟩ := by
    with_unfolding_all rfl
  obtain ⟨context, hcontext, hlayers⟩ := (converter_layers c entries none).2.2.1 _ _ _ hk hd
  exact ⟨_, context, hk, hcontext, hlayers, (converter_layers c entries none).2.2.2 _ _ hk hgiven
    (by decide) _ _ (List.Perm.swap _ _ _) (List.Perm.swap _ _ _)⟩

end Config

end DocTemplate
