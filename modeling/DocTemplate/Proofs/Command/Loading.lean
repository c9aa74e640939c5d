import DocTemplate.Proofs.Command.Coherence
import DocTemplate.Proofs.Command.Settings

/-!
# Layers of a configuration

A configuration is found on a file tree at the first of some paths at which something is
(`FileTree.result_find`), and the environment is laid over what the file there gives. **Each setting
comes from the first layer that has it** (`FileTree.find_layered`), on its own, as `Config.layered` says.

For one setting this is not so. The logging of a file is one value with two parts, and it stands in for
the standard one as a whole: a file that gives the logging without both parts of it has no configuration
at all, and the environment, which has the two parts apart, comes too late to help.
-/

namespace DocTemplate

/-! ### Numbers in the environment -/

/-- A text is a number of at most 64 bits: digits, with an optional plus. -/
def IsWord (text : String) (n : Nat) : Prop :=
  ∃ digits, (text.toList = digits ∨ text.toList = '+' :: digits) ∧ digits ≠ [] ∧
    (∀ c ∈ digits, c.isDigit) ∧ Decimal.ofDigits digits = n ∧ n ≤ maxWord

theorem le_foldl_digits (n : Nat) (digits : List Char) :
    n ≤ digits.foldl (fun n c => 10 * n + (c.toNat - '0'.toNat)) n := by
  induction digits generalizing n with
  | nil => exact Nat.le_refl n
  | cons c rest ih =>
    have hle : n ≤ 10 * n + (c.toNat - '0'.toNat) := by omega
    exact Nat.le_trans hle (ih _)

/-- No more digits make a number smaller, so that it is enough to look at the last one. -/
theorem numberFrom_eq_ok_iff {n m : Nat} (hn : n ≤ maxWord) {digits : List Char} :
    numberFrom n digits = .ok m ↔
      (∀ c ∈ digits, c.isDigit) ∧
        digits.foldl (fun n c => 10 * n + (c.toNat - '0'.toNat)) n = m ∧ m ≤ maxWord := by
  induction digits generalizing n with
  | nil =>
    simp only [numberFrom, Except.ok.injEq, List.not_mem_nil, false_implies, implies_true,
      List.foldl_nil, true_and]
    exact ⟨fun h => ⟨h, h ▸ hn⟩, And.left⟩
  | cons c rest ih =>
    rw [numberFrom, List.forall_mem_cons, List.foldl_cons]
    by_cases hc : c.isDigit
    · by_cases hlarge : maxWord < 10 * n + (c.toNat - '0'.toNat)
      · have hle := le_foldl_digits (10 * n + (c.toNat - '0'.toNat)) rest
        simp only [hc, hlarge, if_true, reduceCtorEq, true_and, false_iff]
        rintro ⟨-, rfl, h⟩
        omega
      · simp only [hc, hlarge, if_true, if_false, true_and]
        exact ih (Nat.le_of_not_lt hlarge)
    · simp [hc]

theorem numberOf_eq_ok_iff {text : String} {n : Nat} : numberOf text = .ok n ↔ IsWord text n := by
  have hdigits {digits : List Char} (htext : text.toList = digits ∨ text.toList = '+' :: digits)
      (hne : digits ≠ []) : numberFrom 0 digits = .ok n → IsWord text n := fun h =>
    have hnumber := (numberFrom_eq_ok_iff (Nat.zero_le maxWord)).mp h
    ⟨digits, htext, hne, hnumber⟩
  constructor
  · intro h
    rw [numberOf] at h
    split at h
    next => cases h
    next => cases h
    next digits hne htext => exact hdigits (Or.inr htext) hne h
    next hne _ _ => exact hdigits (Or.inl rfl) hne h
  · rintro ⟨digits, htext, hne, hnumber⟩
    have hread : numberFrom 0 digits = .ok n :=
      (numberFrom_eq_ok_iff (Nat.zero_le maxWord)).mpr hnumber
    obtain ⟨c, rest, rfl⟩ := List.exists_cons_of_ne_nil hne
    have hc : c.isDigit := hnumber.1 c List.mem_cons_self
    rw [numberOf]
    rcases htext with htext | htext
    · rw [htext]
      split
      next h => cases h
      next h =>
        cases h
        exact absurd hc (by decide)
      next h =>
        cases h
        exact absurd hc (by decide)
      next => exact hread
    · rw [htext]
      exact hread

/-! ### Layers -/

namespace Config

variable {env : Environment} {limit : Option Nat} {g : PartialSettings}

/-- Each setting apart from the others is the one of the environment, of a file, or the standard one,
the first of these that there is. The environment gives no variables. -/
def layered (env : Environment) (limit : Option Nat) (g : PartialSettings) : Config where
  defaultTemplate := env "QUILL_TEMPLATE" <|> g.defaultTemplate.getD standard.defaultTemplate
  bodyKey := (env "QUILL_BODY_KEY").getD (g.bodyKey.getD standard.bodyKey)
  maxNesting := limit.getD (g.maxNesting.getD standard.maxNesting)
  defaults := g.defaults.getD OrderedMap.empty
  logging :=
    { level := (env "QUILL_LOG_LEVEL").getD
        ((g.logging.bind PartialLogging.level).getD standard.logging.level)
      format := (env "QUILL_LOG_FORMAT").getD
        ((g.logging.bind PartialLogging.format).getD standard.logging.format) }

theorem withEnvironment_ofFile (hlimit : Option.Rel IsWord (env "QUILL_MAX_NESTING") limit)
    (s : FileSettings) :
    (ofFile s).withEnvironment env.text? = .ok (layered env limit (.ofWhole s)) := by
  -- the file has both parts of the logging or none of them, and so has what stands in for it
  obtain ⟨_, _, _, _, _ | logging⟩ := s
  all_goals
    rw [withEnvironment]
    generalize env.text? "QUILL_MAX_NESTING" = number at hlimit ⊢
    cases hlimit with
    | some hword =>
      simp only [numberOf_eq_ok_iff.mpr hword]
      rfl
    | none => rfl

section Load

variable {text : String} {d : Yaml.Document} {tag : Option Yaml.Tag}
  {entries : List (Yaml.Tree × Yaml.Tree)} (hd : Yaml.Document.ofText? text = some d)
  (hroot : d.root = some (.mapping tag entries)) (hg : PartialSettings.none.Adds d entries g)

include hd hroot hg

/-- **A file that gives its logging whole or not at all loads.** -/
theorem load_of_isWhole (hwhole : g.IsWhole)
    (hlimit : Option.Rel IsWord (env "QUILL_MAX_NESTING") limit) :
    load (some text) env.text? = .ok (layered env limit g) := by
  obtain ⟨s, rfl⟩ := hwhole.exists_eq_ofWhole
  simp only [load, ofText?, (FileSettings.ofText?_eq hd hroot hg).1 s rfl, Option.map_some]
  change ((ofFile s).withEnvironment env.text?).mapError ConfigError.maxNesting = _
  rw [withEnvironment_ofFile hlimit]
  rfl

/-- One that gives it with only one part or with none does not load, whatever the environment is. -/
theorem load_of_not_isWhole (hpart : ¬ g.IsWhole) :
    load (some text) env.text? = .error .file := by
  simp only [load, ofText?, (FileSettings.ofText?_eq hd hroot hg).2 hpart, Option.map_none]
  rfl

end Load

end Config

/-! ### Files -/

/-- The paths at which a configuration is looked for, in order. -/
def Config.candidates (env : Environment) : Option String → List String
  | some path => [path]
  | none => Config.paths env

namespace FileTree

variable {t : FileTree}

theorem run_firstPresent (t : FileTree) (paths : List String) :
    ((World.host.firstPresent paths).run ⟨t, ""⟩).1 = paths.find? t.present := by
  induction paths with
  | nil => rfl
  | cons path rest ih =>
    rw [List.find?_cons, Host.firstPresent, StateT.run_bind]
    change ((if t.present path then pure (some path) else World.host.firstPresent rest :
      StateM World (Option String)).run ⟨t, ""⟩).1 = _
    cases t.present path with
    | true => rfl
    | false => exact ih

/-- The first path at which something is decides, and it must lead to a text. -/
theorem result_find {env : Environment} {path : Option String} {first text : String}
    (hfirst : (Config.candidates env path).find? t.present = some first)
    (hread : t.read first = .ok text) :
    t.result (Config.find World.host env path) =
      (Config.load (some text) env.text?).mapError .config := by
  have hpresent : t.result (liftM (World.host.firstPresent (Config.candidates env path))) =
      .ok (some first) := by
    rw [← hfirst, ← run_firstPresent]
    rfl
  have hrequire : LeavesWorld (some <$> World.host.require CommandError.configFile first).run :=
    (LeavesWorld.require first _).bind_run fun _ => LeavesWorld.of_pure _
  have htext : t.result (some <$> World.host.require CommandError.configFile first) =
      .ok (some text) := by
    refine (result_bind (LeavesWorld.require first _) _).trans ?_
    rw [result_require, hread]
    rfl
  refine (result_bind (LeavesWorld.firstPresent (Config.candidates env path)).lift_run _).trans ?_
  rw [hpresent]
  refine (result_bind hrequire _).trans ?_
  rw [htext]
  rfl

/-- **The layers of a configuration.** Let the first path at which something is lead to a mapping of
YAML that gives any of the settings, each with a value of its kind, and let the limit of nesting in the
environment be a number or not set. If the file gives the logging with both of its parts or not at all,
then there is a configuration, and each of its settings is the one of the environment, else the one of
the file, else the standard one. If the file gives the logging with only one of the parts or with
neither, there is no configuration, even if the environment gives what is missing. -/
theorem find_layered {t : FileTree} {env : Environment} {path : Option String}
    {first text : String} {d : Yaml.Document} {tag : Option Yaml.Tag}
    {entries : List (Yaml.Tree × Yaml.Tree)} {g : PartialSettings} {limit : Option Nat}
    (hfirst : (Config.candidates env path).find? t.present = some first)
    (hread : t.read first = .ok text) (hd : Yaml.Document.ofText? text = some d)
    (hroot : d.root = some (.mapping tag entries)) (hg : PartialSettings.none.Adds d entries g)
    (hlimit : Option.Rel IsWord (env "QUILL_MAX_NESTING") limit) :
    (g.IsWhole → t.result (Config.find World.host env path) = .ok (Config.layered env limit g)) ∧
    (¬ g.IsWhole → t.result (Config.find World.host env path) = .error (.config .file)) := by
  rw [result_find hfirst hread]
  refine ⟨fun hwhole => ?_, fun hpart => ?_⟩
  · rw [Config.load_of_isWhole hd hroot hg hwhole hlimit]
    rfl
  · rw [Config.load_of_not_isWhole hd hroot hg hpart]
    rfl

/-- A file with an alias for the value of a variable, in the home directory that the list of users has
because the variable for it is empty, under an environment that gives the limit, with a plus, and one
part of the logging. -/
theorem find_layered_aliased :
    let word (text : String) : Yaml.Tree := .scalar none text .plain
    let text := "body_key: &k x\nvariables: {a: *k}\n"
    let entries := [(word "body_key", word "x"),
      (word "variables", .mapping none [(word "a", .alias 0)])]
    let d : Yaml.Document := ⟨some (.mapping none entries), [(0, 2, word "x")], 9⟩
    let g : PartialSettings := ⟨none, some "x", none, some ⟨[("a", "x")]⟩, none⟩
    let t : FileTree :=
      (FileTree.empty []).putFile ["u", ".quill", "config.yaml"] text.toUTF8
    let env : Environment :=
      { text? := fun name =>
          [("HOME", ""), ("QUILL_MAX_NESTING", "+12"), ("QUILL_LOG_LEVEL", "trace")].lookup name
        account := some "/u" }
    (Config.candidates env none).find? t.present = some "/u/.quill/config.yaml" ∧
      t.read "/u/.quill/config.yaml" = .ok text ∧ Yaml.Document.ofText? text = some d ∧
      d.root = some (.mapping none entries) ∧ PartialSettings.none.Adds d entries g ∧
      Option.Rel IsWord (env "QUILL_MAX_NESTING") (some 12) ∧ g.IsWhole ∧
      t.result (Config.find World.host env none) =
        .ok ⟨none, "x", 12, ⟨[("a", "x")]⟩, ⟨"trace", "pretty"⟩⟩ := by
  intro word text entries d g t env
  have hfirst : (Config.candidates env none).find? t.present = some "/u/.quill/config.yaml" := by
    decide +kernel
  have hread : t.read "/u/.quill/config.yaml" = .ok text := by decide +kernel
  have hd : Yaml.Document.ofText? text = some d := by
    dsimp only [text, d, entries, word]
    with_unfolding_all rfl
  have hpairs : d.IsTexts (.mapping none [(word "a", .alias 0)]) ⟨[("a", "x")]⟩ :=
    ⟨_, [("a", "x")], rfl, .cons ⟨rfl, rfl⟩ .nil, rfl⟩
  have hg : PartialSettings.none.Adds d entries g :=
    { names := List.forall_mem_cons.mpr ⟨⟨_, rfl⟩, List.forall_mem_singleton.mpr ⟨_, rfl⟩⟩
      defaultTemplate := .kept none
      bodyKey := .given rfl
      maxNesting := .kept none
      defaults := .given hpairs
      logging := .kept none }
  have hlimit : Option.Rel IsWord (env "QUILL_MAX_NESTING") (some 12) :=
    .some (numberOf_eq_ok_iff.mp (by decide +kernel))
  have hwhole : g.IsWhole := nofun
  exact ⟨hfirst, hread, hd, rfl, hg, hlimit, hwhole,
    (find_layered hfirst hread hd rfl hg hlimit).1 hwhole⟩

/-- A file that gives the logging in part has no configuration, though what it gives is a value of its
kind: the standard logging does not stand in for the part that is missing. -/
theorem not_find_layered_of_part :
    ¬ ∀ (t : FileTree) (env : Environment) (path : Option String) (first text : String)
      (d : Yaml.Document) (tag : Option Yaml.Tag) (entries : List (Yaml.Tree × Yaml.Tree))
      (g : PartialSettings) (limit : Option Nat),
      (Config.candidates env path).find? t.present = some first → t.read first = .ok text →
      Yaml.Document.ofText? text = some d → d.root = some (.mapping tag entries) →
      PartialSettings.none.Adds d entries g →
      Option.Rel IsWord (env "QUILL_MAX_NESTING") limit →
      t.result (Config.find World.host env path) = .ok (Config.layered env limit g) := by
  intro h
  let word (text : String) : Yaml.Tree := .scalar none text .plain
  let text := "logging:\n  level: debug\n"
  let logging := [(word "level", word "debug")]
  let entries := [(word "logging", Yaml.Tree.mapping none logging)]
  let d : Yaml.Document := ⟨some (.mapping none entries), [], 7⟩
  let l : PartialLogging := ⟨some "debug", none⟩
  let g : PartialSettings := ⟨none, none, none, none, some l⟩
  let t : FileTree := ⟨[(["quill.yaml"], .file text.toUTF8)], []⟩
  let env : Environment := ⟨fun _ => none, none⟩
  have hl : l.IsGiven d (.mapping none logging) :=
    ⟨logging, rfl, List.forall_mem_singleton.mpr ⟨_, rfl⟩, .given rfl, .kept none⟩
  have hg : PartialSettings.none.Adds d entries g :=
    { names := List.forall_mem_singleton.mpr ⟨_, rfl⟩
      defaultTemplate := .kept none
      bodyKey := .kept none
      maxNesting := .kept none
      defaults := .kept none
      logging := .given hl }
  have hfirst : (Config.candidates env none).find? t.present = some "quill.yaml" := by
    decide +kernel
  have hread : t.read "quill.yaml" = .ok text := by decide +kernel
  have hd : Yaml.Document.ofText? text = some d := by
    dsimp only [text, d, entries, logging, word]
    with_unfolding_all rfl
  have hpart : ¬ g.IsWhole := fun hg => Bool.false_ne_true (hg l rfl).2
  have herror : t.result (Config.find World.host env none) = .error (.config .file) := by
    rw [result_find hfirst hread, Config.load_of_not_isWhole hd rfl hg hpart]
    rfl
  cases herror.symm.trans (h t env none _ text d none entries g none hfirst hread hd rfl hg .none)

end FileTree

end DocTemplate
