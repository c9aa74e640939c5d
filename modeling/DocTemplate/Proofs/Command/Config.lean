import DocTemplate.Command.Config
import DocTemplate.Proofs.Except
import DocTemplate.Proofs.OrderedMap.Insertion
import DocTemplate.Proofs.Yaml.Decoding

/-!
# The variables of a configuration

A configuration that is loaded names no variable twice (`Config.nodup_keys_of_load`), for its variables
are inserted one after the other. What a reading of YAML ensures is put together from what its parts
ensure (`Decoding.Ensures`).
-/

namespace DocTemplate

open Yaml (Tree)
open Yaml.Decoding

/-! ### Settings of a file -/

namespace FileSettings

variable {d : Yaml.Document}

/-- No variable is named twice. -/
def HasUniqueVariables (s : FileSettings) : Prop :=
  ∀ m, s.defaults = some m → m.keys.Nodup

theorem ensures_texts (tree : Tree) : Ensures (texts d tree) fun m => m.keys.Nodup := by
  have hempty : (OrderedMap.empty : OrderedMap String).keys.Nodup := List.nodup_nil
  refine (ensures_true _).bind fun entries _ =>
    ensures_foldlM (p := fun m : OrderedMap String => m.keys.Nodup) (fun m entry hm => ?_) hempty
      entries
  refine (ensures_true _).bind fun key _ => (ensures_true _).bind fun value _ => ?_
  exact ensures_pure (OrderedMap.nodup_keys_insert hm key value)

theorem ensures_once {α : Type} {p : α → Prop} (old : Option α) {new : Yaml.Decoding α}
    (hnew : Ensures new p) : Ensures (once old new) fun value => ∀ a, value = some a → p a := by
  cases old with
  | some _ => exact ensures_failure
  | none =>
    refine hnew.bind fun a ha => ensures_pure fun b hb => ?_
    exact Option.some.inj hb ▸ ha

theorem HasUniqueVariables.ensures_add {s : FileSettings} (hs : s.HasUniqueVariables)
    (key value : Tree) : Ensures (add d s key value) HasUniqueVariables := by
  refine (ensures_true _).bind fun name _ => ?_
  -- Only one of the settings is the variables, and the others leave them alone.
  split
  case h_4 =>
    refine (ensures_once s.defaults (ensures_texts value)).bind fun defaults h => ?_
    exact ensures_pure (p := HasUniqueVariables) h
  case h_6 => exact ensures_pure hs
  all_goals exact (ensures_true _).bind fun _ _ => ensures_pure (p := HasUniqueVariables) hs

theorem hasUniqueVariables_none : none.HasUniqueVariables := by
  rintro m ⟨⟩

theorem hasUniqueVariables_of_ofText? {text : String} {s : FileSettings}
    (h : ofText? text = some s) : s.HasUniqueVariables := by
  rw [ofText?] at h
  split at h
  · exact Option.some.inj h ▸ hasUniqueVariables_none
  · obtain ⟨d, -, h⟩ := Option.bind_eq_some_iff.mp h
    split at h
    · exact Option.some.inj h ▸ hasUniqueVariables_none
    · next tree =>
      obtain ⟨⟨s', n⟩, hrun, rfl⟩ := Option.map_eq_some_iff.mp h
      exact ((ensures_true _).bind fun entries _ => ensures_foldlM
        (fun s entry hs => hs.ensures_add entry.1 entry.2) hasUniqueVariables_none _) 0 s' n hrun

end FileSettings

/-! ### Configurations -/

namespace Config

variable {c : Config} {env : String → Option String}

theorem nodup_keys_of_ofText? {text : String} (h : ofText? text = some c) :
    c.defaults.keys.Nodup := by
  obtain ⟨s, hs, rfl⟩ := Option.map_eq_some_iff.mp h
  change (s.defaults.getD OrderedMap.empty).keys.Nodup
  cases hdefaults : s.defaults with
  | none => exact List.nodup_nil
  | some m => exact FileSettings.hasUniqueVariables_of_ofText? hs m hdefaults

/-- The environment has no part in the variables. -/
theorem defaults_of_withEnvironment {c' : Config} (h : c.withEnvironment env = .ok c') :
    c'.defaults = c.defaults := by
  rw [withEnvironment] at h
  split at h
  next text _ =>
    obtain ⟨maxNesting, -, h⟩ := exists_of_bind_eq_ok h
    exact (Except.ok.inj h).symm ▸ rfl
  next => exact (Except.ok.inj h).symm ▸ rfl

/-- **A configuration that is loaded names no variable twice.** -/
theorem nodup_keys_of_load {file : Option String} (h : load file env = .ok c) :
    c.defaults.keys.Nodup := by
  have hlayers (c' : Config) (hc' : c'.defaults.keys.Nodup)
      (h : (c'.withEnvironment env).mapError ConfigError.maxNesting = .ok c) :
      c.defaults.keys.Nodup := by
    cases henv : c'.withEnvironment env with
    | error e => rw [henv] at h; cases h
    | ok c'' =>
      rw [henv] at h
      cases h
      rwa [defaults_of_withEnvironment henv]
  simp only [load] at h
  split at h
  next => exact hlayers standard List.nodup_nil h
  next text =>
    split at h
    next c' hc' => exact hlayers c' (nodup_keys_of_ofText? hc') h
    next => cases h

end Config

end DocTemplate
