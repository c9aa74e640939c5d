import DocTemplate.Proofs.Command.Config
import DocTemplate.Proofs.Yaml.Blank
import DocTemplate.Proofs.Yaml.Extent

/-!
# The settings that a partial file gives

A file may give any of the settings, and of the logging any part. What the entries of a mapping give is
said for each name apart (`PartialSettings.Adds`): the values under the name, at most one of them, and
what this value stands for. The order of the entries and unknown names have no part in it.

**A file that gives its logging whole or not at all is read** with exactly what it gives, and one that
gives a part of the logging only is not read at all (`FileSettings.ofText?_eq`): a part of the logging
that is missing in the file is not made up for by the standard one. Both come from one induction on the
entries (`FileSettings.gives_add`), with the entries of the logging read in the same way one level below.
That aliases are followed to the end on the way is due to the extent of mappings
(`Yaml.Document.Fits.length_entries_le`).
-/

namespace DocTemplate

open Yaml (Tree)
open Yaml.Decoding

/-! ### Values of settings -/

namespace Yaml

/-- The text of a scalar, or nothing if the scalar is a word for nothing. A tag decides which of the
two a scalar without quotes is. -/
def Tree.optionalText? : Tree → Option (Option String)
  | .scalar none text .plain =>
    some (if text.isEmpty || isNullWord text then none else some text)
  | .scalar (some .null) text .plain => if isNullWord text then some none else none
  | .scalar _ text _ => some (some text)
  | _ => none

/-- The number of at most 64 bits that a scalar without quotes is, or a literal one with the tag of
integers. -/
def Tree.number? : Tree → Option Nat
  | .scalar tag text style =>
    if style = .plain ∨ (style = .literal ∧ tag = some .integer) then word64? text else none
  | _ => none

namespace Document

/-- The text of a scalar. -/
def text? (d : Document) (tree : Tree) : Option String :=
  d.view? Tree.text? tree

/-- An entry is a pair of texts. -/
def IsPair (d : Document) (entry : Tree × Tree) (pair : String × String) : Prop :=
  d.text? entry.1 = some pair.1 ∧ d.text? entry.2 = some pair.2

/-- A node is a mapping of texts, in which the last text under a name counts. -/
def IsTexts (d : Document) (tree : Tree) (m : OrderedMap String) : Prop :=
  ∃ entries pairs, d.view? Tree.entries? tree = some entries ∧
    List.Forall₂ d.IsPair entries pairs ∧ m = OrderedMap.ofList pairs

/-- The values under a name. -/
def under (d : Document) (name : String) (entries : List (Tree × Tree)) : List Tree :=
  (entries.filter fun entry => d.text? entry.1 = some name).map Prod.snd

theorem under_cons (d : Document) (name : String) (entry : Tree × Tree)
    (entries : List (Tree × Tree)) :
    d.under name (entry :: entries) =
      if d.text? entry.1 = some name then entry.2 :: d.under name entries
      else d.under name entries := by
  rw [under, List.filter_cons]
  split <;> simp_all [under]

theorem mem_of_mem_under {d : Document} {name : String} {entries : List (Tree × Tree)}
    {value : Tree} (h : value ∈ d.under name entries) :
    ∃ entry ∈ entries, d.text? entry.1 = some name ∧ entry.2 = value := by
  obtain ⟨entry, hmem, rfl⟩ := List.mem_map.mp h
  obtain ⟨hentry, hname⟩ := List.mem_filter.mp hmem
  exact ⟨entry, hentry, of_decide_eq_true hname, rfl⟩

end Document

end Yaml

/-- A setting before and after it is given the values of some nodes: at most one, and none if it has a
value. -/
inductive Once {α : Type} (P : Tree → α → Prop) : Option α → List Tree → Option α → Prop
  /-- It is not given any. -/
  | kept (value : Option α) : Once P value [] value
  /-- It is given one. -/
  | given {node : Tree} {value : α} (h : P node value) : Once P none [node] (some value)

namespace Once

variable {α : Type} {P : Tree → α → Prop} {old new : Option α} {node : Tree} {nodes : List Tree}

theorem eq_of_nil (h : Once P old [] new) : old = new := by
  cases h
  rfl

theorem eq_of_some {value : α} (h : Once P (some value) nodes new) : new = some value := by
  cases h
  rfl

theorem cons (h : Once P old (node :: nodes) new) :
    old = none ∧ ∃ value, P node value ∧ Once P (some value) nodes new := by
  cases h with
  | given h => exact ⟨rfl, _, h, .kept _⟩

/-- A setting that has no value at first and one in the end was given it by a node. -/
theorem exists_of_none {value : α} (h : Once P none nodes (some value)) :
    ∃ node ∈ nodes, P node value := by
  cases h with
  | given h => exact ⟨_, List.mem_cons_self, h⟩

end Once

/-- A logging that need not be whole. -/
structure PartialLogging where
  /-- The least severity that is logged. -/
  level : Option String
  /-- The layout of a log line. -/
  format : Option String

/-- Settings with a logging that need not be whole. -/
structure PartialSettings where
  /-- The path of a template, possibly said to be none. -/
  defaultTemplate : Option (Option String)
  /-- The key of the body. -/
  bodyKey : Option String
  /-- The limit of nesting. -/
  maxNesting : Option Nat
  /-- The metadata of documents that give none of their own. -/
  defaults : Option (OrderedMap String)
  /-- The logging, if there is any. -/
  logging : Option PartialLogging

/-- The entries of a mapping add to a logging what makes another. -/
structure PartialLogging.Adds (d : Yaml.Document) (s : PartialLogging)
    (entries : List (Tree × Tree)) (t : PartialLogging) : Prop where
  /-- All keys are names. -/
  names : ∀ entry ∈ entries, ∃ name, d.text? entry.1 = some name
  /-- The least severity. -/
  level : Once (fun node text => d.text? node = some text) s.level (d.under "level" entries) t.level
  /-- The layout. -/
  format : Once (fun node text => d.text? node = some text) s.format (d.under "format" entries)
    t.format

/-- A node is a mapping that gives a logging. -/
def PartialLogging.IsGiven (l : PartialLogging) (d : Yaml.Document) (node : Tree) : Prop :=
  ∃ entries, d.view? Tree.entries? node = some entries ∧ Adds d ⟨none, none⟩ entries l

/-- No settings. -/
def PartialSettings.none : PartialSettings :=
  ⟨.none, .none, .none, .none, .none⟩

/-- The entries of a mapping add to settings what makes others. -/
structure PartialSettings.Adds (d : Yaml.Document) (s : PartialSettings)
    (entries : List (Tree × Tree)) (t : PartialSettings) : Prop where
  /-- All keys are names. -/
  names : ∀ entry ∈ entries, ∃ name, d.text? entry.1 = some name
  /-- The path of a template. -/
  defaultTemplate : Once (fun node path => d.view? Tree.optionalText? node = some path)
    s.defaultTemplate (d.under "default_template" entries) t.defaultTemplate
  /-- The key of the body. -/
  bodyKey : Once (fun node text => d.text? node = some text) s.bodyKey (d.under "body_key" entries)
    t.bodyKey
  /-- The limit of nesting. -/
  maxNesting : Once (fun node number => d.view? Tree.number? node = some number) s.maxNesting
    (d.under "max_nesting_depth" entries) t.maxNesting
  /-- The metadata of documents. -/
  defaults : Once d.IsTexts s.defaults (d.under "variables" entries) t.defaults
  /-- The logging. -/
  logging : Once (fun node l => l.IsGiven d node) s.logging (d.under "logging" entries) t.logging

theorem PartialSettings.Adds.eq_of_nil {d : Yaml.Document} {s t : PartialSettings}
    (h : s.Adds d [] t) : s = t := by
  obtain ⟨_, _, _, _, _⟩ := s
  obtain ⟨_, _, _, _, _⟩ := t
  rw [PartialSettings.mk.injEq]
  exact ⟨h.defaultTemplate.eq_of_nil, h.bodyKey.eq_of_nil, h.maxNesting.eq_of_nil,
    h.defaults.eq_of_nil, h.logging.eq_of_nil⟩

/-! ### What is whole -/

/-- A whole logging. -/
def PartialLogging.ofWhole (l : Logging) : PartialLogging :=
  ⟨some l.level, some l.format⟩

/-- Settings of a file with a whole logging or none. -/
def PartialSettings.ofWhole (s : FileSettings) : PartialSettings :=
  ⟨s.defaultTemplate, s.bodyKey, s.maxNesting, s.defaults, s.logging.map .ofWhole⟩

/-- Both parts of the logging are given. -/
def PartialLogging.IsWhole (l : PartialLogging) : Prop :=
  l.level.isSome ∧ l.format.isSome

/-- If there is a logging, it is whole. -/
def PartialSettings.IsWhole (g : PartialSettings) : Prop :=
  ∀ l, g.logging = some l → l.IsWhole

theorem PartialLogging.IsWhole.exists_eq_ofWhole {l : PartialLogging} (h : l.IsWhole) :
    ∃ whole, l = ofWhole whole := by
  obtain ⟨level, hlevel⟩ := Option.isSome_iff_exists.mp h.1
  obtain ⟨format, hformat⟩ := Option.isSome_iff_exists.mp h.2
  obtain ⟨_, _⟩ := l
  exact ⟨⟨level, format⟩, by rw [ofWhole, ← hlevel, ← hformat]⟩

theorem PartialSettings.IsWhole.exists_eq_ofWhole {g : PartialSettings} (h : g.IsWhole) :
    ∃ s, g = ofWhole s := by
  obtain ⟨defaultTemplate, bodyKey, maxNesting, defaults, logging⟩ := g
  cases logging with
  | none => exact ⟨⟨defaultTemplate, bodyKey, maxNesting, defaults, .none⟩, rfl⟩
  | some l =>
    obtain ⟨whole, rfl⟩ := (h l rfl).exists_eq_ofWhole
    exact ⟨⟨defaultTemplate, bodyKey, maxNesting, defaults, some whole⟩, rfl⟩

theorem PartialSettings.ofWhole_injective : Function.Injective ofWhole := by
  have hlogging : Function.Injective PartialLogging.ofWhole := by
    rintro ⟨level, format⟩ ⟨level', format'⟩ ⟨⟩
    rfl
  rintro ⟨_, _, _, _, logging⟩ ⟨_, _, _, _, logging'⟩ h
  obtain ⟨rfl, rfl, rfl, rfl, h⟩ := PartialSettings.mk.inj h
  cases Option.map_injective hlogging h
  rfl

/-! ### Reading values -/

namespace FileSettings

variable {d : Yaml.Document} {tree : Tree}

theorem optionalText_eq_read (d : Yaml.Document) (tree : Tree) :
    optionalText d tree = d.read Tree.optionalText? tree := by
  refine congrArg _ (funext fun node => ?_)
  cases node with
  | scalar tag text style =>
    by_cases hstyle : style = .plain
    · subst hstyle
      rcases tag with _ | (_ | _ | _ | _ | _ | _ | _)
      case some.null =>
        by_cases h : Yaml.isNullWord text <;> simp [Tree.optionalText?, h] <;> rfl
      all_goals rfl
    · rcases tag with _ | (_ | _ | _ | _ | _ | _ | _) <;>
        simp [Tree.optionalText?, hstyle] <;> rfl
  | sequence | mapping | «alias» => rfl

theorem number_eq_read (d : Yaml.Document) (tree : Tree) :
    number d tree = d.read Tree.number? tree := by
  refine congrArg _ (funext fun node => ?_)
  cases node with
  | scalar tag text style =>
    dsimp only [Tree.number?]
    split <;> rfl
  | sequence | mapping | «alias» => rfl

theorem gives_scalarText {text : String} (h : d.text? tree = some text) :
    Gives d.aliasLimit (d.scalarText tree) text 1 :=
  d.scalarText_eq_read tree ▸ gives_read h

theorem gives_optionalText {path : Option String}
    (h : d.view? Tree.optionalText? tree = some path) :
    Gives d.aliasLimit (optionalText d tree) path 1 :=
  optionalText_eq_read d tree ▸ gives_read h

theorem gives_number {n : Nat} (h : d.view? Tree.number? tree = some n) :
    Gives d.aliasLimit (number d tree) n 1 :=
  number_eq_read d tree ▸ gives_read h

/-- A setting that has no value yet is given the one that is read. -/
theorem gives_once {α σ : Type} {limit cost : Nat} {old : Option α} {new : Yaml.Decoding α} {a : α}
    (hold : old = .none) (h : Gives limit new a cost) (f : Option α → σ) :
    Gives limit (once old new >>= fun value => pure (f value)) (f (some a)) cost := by
  subst hold
  have hsome : Gives limit (once .none new) (some a) cost := h.bind_pure some
  exact hsome.bind_pure f

/-! ### Mappings of texts -/

theorem gives_texts {m : OrderedMap String} {n : Nat} (h : d.IsTexts tree m)
    (hlength : ∀ entries, d.view? Tree.entries? tree = some entries → entries.length ≤ n) :
    Gives d.aliasLimit (texts d tree) m (2 * n + 1) := by
  obtain ⟨entries, pairs, hentries, hpairs, rfl⟩ := h
  refine Gives.bind (d.entries_eq_read tree ▸ gives_read hentries) ?_
  refine (gives_foldlM_foldl (fun m ⟨key, value⟩ pair hpair => ?_) hpairs OrderedMap.empty).mono
    (Nat.mul_le_mul_left 2 (hlength entries hentries))
  change Gives _ (d.scalarText key >>= fun key => d.scalarText value >>= fun value =>
    pure (m.insert key value)) _ _
  refine (gives_scalarText hpair.1).bind ?_
  exact (gives_scalarText hpair.2).bind_pure fun value => m.insert pair.1 value

/-! ### Logging -/

/-- The parts of the logging after an entry. -/
def addLogging (d : Yaml.Document) :
    Option String × Option String → Tree × Tree → Yaml.Decoding (Option String × Option String) :=
  fun (level, format) (key, value) => do
    match ← d.scalarText key with
    | "level" => return (← once level (d.scalarText value), format)
    | "format" => return (level, ← once format (d.scalarText value))
    | _ => return (level, format)

/-- All entries are read before it is seen whether the logging is whole. -/
theorem loggingOf_eq (d : Yaml.Document) (tree : Tree) :
    loggingOf d tree =
      (d.entries tree >>= fun entries => entries.foldlM (addLogging d) (.none, .none)) >>=
        fun (level, format) =>
          match level, format with
          | some level, some format => pure ⟨level, format⟩
          | _, _ => failure := by
  rw [bind_assoc]
  rfl

theorem gives_addLogging {l : PartialLogging} {n : Nat} (h : l.IsGiven d tree)
    (hlength : ∀ entries, d.view? Tree.entries? tree = some entries → entries.length ≤ n) :
    Gives d.aliasLimit
      (d.entries tree >>= fun entries => entries.foldlM (addLogging d) (.none, .none))
      (l.level, l.format) (2 * n + 1) := by
  obtain ⟨entries, hentries, hadds⟩ := h
  refine Gives.bind (d.entries_eq_read tree ▸ gives_read hentries) ?_
  refine (gives_foldlM (fun entries s => PartialLogging.Adds d ⟨s.1, s.2⟩ entries l) (fun _ => 0) 2
      ?_ ?_ hadds).mono (Nat.mul_le_mul_left 2 (hlength entries hentries))
  · rintro ⟨level, format⟩ h
    exact Prod.ext h.level.eq_of_nil h.format.eq_of_nil
  rintro ⟨key, value⟩ entries ⟨level, format⟩ ⟨hnames, hlevel, hformat⟩
  obtain ⟨⟨name, hname⟩, hnames⟩ := List.forall_mem_cons.mp hnames
  simp only [Yaml.Document.under_cons, hname, Option.some.injEq] at hlevel hformat
  refine (gives_scalarText hname).exists_bind ?_
  split
  · simp only [reduceIte, String.reduceEq] at hlevel hformat
    obtain ⟨rfl, text, htext, hlevel⟩ := hlevel.cons
    refine ⟨(some text, format), 1, ?_, Nat.le_refl 2, hnames, hlevel, hformat⟩
    exact gives_once rfl (gives_scalarText htext) fun level => (level, format)
  · simp only [reduceIte, String.reduceEq] at hlevel hformat
    obtain ⟨rfl, text, htext, hformat⟩ := hformat.cons
    refine ⟨(level, some text), 1, ?_, Nat.le_refl 2, hnames, hlevel, hformat⟩
    exact gives_once rfl (gives_scalarText htext) fun format => (level, format)
  next hne hne' =>
    rw [if_neg hne] at hlevel
    rw [if_neg hne'] at hformat
    exact ⟨(level, format), 0, gives_pure _ _, Nat.le_succ 1, hnames, hlevel, hformat⟩

theorem gives_loggingOf {l : Logging} {n : Nat} (h : (PartialLogging.ofWhole l).IsGiven d tree)
    (hlength : ∀ entries, d.view? Tree.entries? tree = some entries → entries.length ≤ n) :
    Gives d.aliasLimit (loggingOf d tree) l (2 * n + 1) := by
  rw [loggingOf_eq]
  refine ((gives_addLogging h hlength).bind ?_).mono (Nat.le_of_eq (Nat.zero_add _))
  exact gives_pure _ l

/-- A logging that is not whole is not read. -/
theorem ensures_loggingOf_false {l : PartialLogging} (h : l.IsGiven d tree) (hl : ¬ l.IsWhole) :
    Ensures (loggingOf d tree) fun _ => False := by
  obtain ⟨entries, hentries, hadds⟩ := h
  have hread := gives_addLogging ⟨entries, hentries, hadds⟩ fun entries' hentries' =>
    Nat.le_of_eq (congrArg List.length (Option.some.inj (hentries'.symm.trans hentries)))
  rw [loggingOf_eq]
  refine hread.ensures.bind ?_
  rintro _ rfl
  obtain ⟨_ | level, _ | format⟩ := l
  case some.some => exact absurd ⟨rfl, rfl⟩ hl
  all_goals exact ensures_failure

/-! ### All settings -/

/-- How many aliases more than for its name and value the settings that are not there yet may cost. -/
def room (d : Yaml.Document) (s : FileSettings) : Nat :=
  (if s.defaults.isNone then 2 * d.eventCount else 0) +
    if s.logging.isNone then 2 * d.eventCount else 0

/-- **An entry** of a mapping adds what it gives. -/
theorem gives_add (hd : d.Fits) {s t : FileSettings} {entry : Tree × Tree}
    {entries : List (Tree × Tree)} (hentry : entry.2.Fits d.eventCount)
    (h : (PartialSettings.ofWhole s).Adds d (entry :: entries) (.ofWhole t)) :
    ∃ s' cost, Gives d.aliasLimit (add d s entry.1 entry.2) s' cost ∧
      cost + room d s' ≤ 2 + room d s ∧ (PartialSettings.ofWhole s').Adds d entries (.ofWhole t) := by
  obtain ⟨hnames, htemplate, hbody, hnesting, hdefaults, hlogging⟩ := h
  obtain ⟨⟨name, hname⟩, hnames⟩ := List.forall_mem_cons.mp hnames
  simp only [Yaml.Document.under_cons, hname, Option.some.injEq]
    at htemplate hbody hnesting hdefaults hlogging
  refine (gives_scalarText hname).exists_bind ?_
  have hlength (entries : List (Tree × Tree))
      (hentries : d.view? Tree.entries? entry.2 = some entries) : entries.length ≤ d.eventCount :=
    hd.length_entries_le hentry hentries
  split
  case h_6 h₁ h₂ h₃ h₄ h₅ =>
    rw [if_neg h₁] at htemplate
    rw [if_neg h₂] at hbody
    rw [if_neg h₃] at hnesting
    rw [if_neg h₄] at hdefaults
    rw [if_neg h₅] at hlogging
    exact ⟨s, 0, gives_pure _ _, by omega, hnames, htemplate, hbody, hnesting, hdefaults, hlogging⟩
  -- with a known name, the value is the first one under this name and under no other
  all_goals simp only [reduceIte, String.reduceEq] at htemplate hbody hnesting hdefaults hlogging
  · obtain ⟨hold, path, hpath, htemplate⟩ := htemplate.cons
    refine ⟨{ s with defaultTemplate := some path }, 1, ?_, Nat.le_refl _,
      hnames, htemplate, hbody, hnesting, hdefaults, hlogging⟩
    exact gives_once hold (gives_optionalText hpath) fun path => { s with defaultTemplate := path }
  · obtain ⟨hold, text, htext, hbody⟩ := hbody.cons
    refine ⟨{ s with bodyKey := some text }, 1, ?_, Nat.le_refl _,
      hnames, htemplate, hbody, hnesting, hdefaults, hlogging⟩
    exact gives_once hold (gives_scalarText htext) fun text => { s with bodyKey := text }
  · obtain ⟨hold, number, hnumber, hnesting⟩ := hnesting.cons
    refine ⟨{ s with maxNesting := some number }, 1, ?_, Nat.le_refl _,
      hnames, htemplate, hbody, hnesting, hdefaults, hlogging⟩
    exact gives_once hold (gives_number hnumber) fun number => { s with maxNesting := number }
  · obtain ⟨hold, m, hm, hdefaults⟩ := hdefaults.cons
    refine ⟨{ s with defaults := some m }, 2 * d.eventCount + 1, ?_, ?_,
      hnames, htemplate, hbody, hnesting, hdefaults, hlogging⟩
    · exact gives_once hold (gives_texts hm hlength) fun m => { s with defaults := m }
    · have hnone : s.defaults = .none := hold
      simp only [room, hnone, Option.isNone_none, Option.isNone_some, reduceIte, Bool.false_eq_true]
      omega
  · obtain ⟨hold, l, hl, hlogging⟩ := hlogging.cons
    have hnone : s.logging = .none := Option.map_eq_none_iff.mp hold
    -- what is read must be whole, since the settings in the end are those of a file
    obtain ⟨whole, -, rfl⟩ := Option.map_eq_some_iff.mp hlogging.eq_of_some
    refine ⟨{ s with logging := some whole }, 2 * d.eventCount + 1, ?_, ?_,
      hnames, htemplate, hbody, hnesting, hdefaults, hlogging⟩
    · exact gives_once hnone (gives_loggingOf hl hlength) fun l => { s with logging := l }
    · simp only [room, hnone, Option.isNone_none, Option.isNone_some, reduceIte, Bool.false_eq_true]
      omega

/-- What the entries of the outermost mapping give is read. -/
theorem gives_ofTree (hd : d.Fits) {tag : Option Yaml.Tag} {entries : List (Tree × Tree)}
    (hroot : d.root = some (.mapping tag entries)) {s : FileSettings}
    (h : PartialSettings.none.Adds d entries (.ofWhole s)) :
    Gives d.aliasLimit (ofTree d (.mapping tag entries)) s d.aliasLimit := by
  cases hd.root _ hroot with
  | mapping hlength _ hvalues =>
    have hread : Gives d.aliasLimit (d.entries (.mapping tag entries)) entries 1 :=
      d.entries_eq_read _ ▸ gives_read rfl
    have hstart : (PartialSettings.ofWhole none).Adds d entries (.ofWhole s) := h
    refine (hread.bind (gives_foldlM (fun entries s' =>
      (∀ entry ∈ entries, entry.2.Fits d.eventCount) ∧
        (PartialSettings.ofWhole s').Adds d entries (.ofWhole s)) (room d) 2 ?_ ?_
      ⟨hvalues, hstart⟩)).mono ?_
    · exact fun s' ⟨_, h⟩ => PartialSettings.ofWhole_injective h.eq_of_nil
    · rintro entry entries s' ⟨hvalues, h⟩
      obtain ⟨hentry, hvalues⟩ := List.forall_mem_cons.mp hvalues
      obtain ⟨next, cost, hstep, hroom, hnext⟩ := gives_add hd hentry h
      exact ⟨next, cost, hstep, hroom, hvalues, hnext⟩
    · simp only [room, none, Option.isNone_none, reduceIte, Yaml.Document.aliasLimit,
        Yaml.aliasesPerEvent]
      omega

theorem ensures_once_false {α : Type} (old : Option α) {new : Yaml.Decoding α}
    (h : Ensures new fun _ => False) : Ensures (once old new) fun _ => False := by
  cases old with
  | some _ => exact ensures_failure
  | none =>
    change Ensures (new >>= fun a => pure (some a)) _
    exact h.bind fun _ h => h.elim

/-- Settings with a logging that is not whole are not read. -/
theorem ensures_ofTree_false {tag : Option Yaml.Tag} {entries : List (Tree × Tree)}
    {g : PartialSettings} (h : PartialSettings.none.Adds d entries g) (hg : ¬ g.IsWhole) :
    Ensures (ofTree d (.mapping tag entries)) fun _ => False := by
  obtain ⟨l, hl, hwhole⟩ : ∃ l, g.logging = some l ∧ ¬ l.IsWhole := by
    simpa [PartialSettings.IsWhole] using hg
  obtain ⟨node, hmem, hgiven⟩ := (hl ▸ h.logging).exists_of_none
  obtain ⟨⟨key, value⟩, hentry, hname, rfl⟩ := Yaml.Document.mem_of_mem_under hmem
  have hread : Gives d.aliasLimit (d.entries (.mapping tag entries)) entries 1 :=
    d.entries_eq_read _ ▸ gives_read rfl
  refine hread.ensures.bind ?_
  rintro _ rfl
  refine ensures_foldlM_false hentry (fun s => ?_) none
  refine (gives_scalarText hname).ensures.bind ?_
  rintro _ rfl
  exact (ensures_once_false s.logging (ensures_loggingOf_false hgiven hwhole)).bind fun _ h => h.elim

/-- **A file that gives its logging whole or not at all is read with what it gives**, and one that gives
a part of it is not read. -/
theorem ofText?_eq {text : String} (hd : Yaml.Document.ofText? text = some d) {tag : Option Yaml.Tag}
    {entries : List (Tree × Tree)} (hroot : d.root = some (.mapping tag entries))
    {g : PartialSettings} (h : PartialSettings.none.Adds d entries g) :
    (∀ s, g = .ofWhole s → ofText? text = some s) ∧ (¬ g.IsWhole → ofText? text = .none) := by
  have htext : ¬ Text.isBlankText text = true :=
    Bool.eq_false_iff.mp (Yaml.Document.isBlankText_of_root hd hroot)
  have hrun : ofText? text = (ofTree d (.mapping tag entries)).run' 0 := by
    rw [ofText?, if_neg htext, hd, Option.bind_some, hroot]
  rw [hrun]
  refine ⟨?_, fun hg => (ensures_ofTree_false h hg).run_eq_none 0⟩
  rintro s rfl
  exact (gives_ofTree (Yaml.Document.fits_of_ofText? hd) hroot h).run (Nat.le_of_eq (Nat.zero_add _))

end FileSettings

end DocTemplate
