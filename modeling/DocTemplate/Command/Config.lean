import DocTemplate.Command.Variables

/-!
# Configuration

Settings come from three layers: the environment, a YAML file, and defaults, the first that gives a
setting deciding. The variables of the configuration come from the file alone. In a file the names of
settings and the values are the texts of scalars, whatever their tags; unknown names are passed over,
and a known name may be given once.
-/

namespace DocTemplate

/-- What is logged and how. -/
structure Logging where
  /-- The least severity that is logged. -/
  level : String
  /-- The layout of a log line. -/
  format : String
deriving DecidableEq

/-- All settings. -/
structure Config where
  /-- The path of the template that is used if none is given. -/
  defaultTemplate : Option String
  /-- The key under which a context holds the body. -/
  bodyKey : String
  /-- The number of levels that blocks of a template may be nested. -/
  maxNesting : Nat
  /-- Metadata that documents have unless they give their own. -/
  defaults : OrderedMap String
  /-- What is logged and how. -/
  logging : Logging

/-- The largest number that a setting can be. -/
def maxWord : Nat := Nat.pow 2 64 - 1

/-- The causes for which a text is no number. -/
inductive NumberError where
  /-- There is no text. -/
  | empty
  /-- A character is no digit. -/
  | invalidDigit
  /-- The number has more than 64 bits. -/
  | tooLarge
deriving DecidableEq

/-- The wording of a cause. -/
def NumberError.message : NumberError → String
  | empty => "cannot parse integer from empty string"
  | invalidDigit => "invalid digit found in string"
  | tooLarge => "number too large to fit in target type"

/-- The number with some digits after those of another. -/
def numberFrom (n : Nat) : List Char → Except NumberError Nat
  | [] => .ok n
  | c :: rest =>
    if c.isDigit then
      let next := 10 * n + (c.toNat - '0'.toNat)
      if maxWord < next then .error .tooLarge else numberFrom next rest
    else .error .invalidDigit

/-- The number that a text is: digits, with an optional plus. -/
def numberOf (text : String) : Except NumberError Nat :=
  match text.toList with
  | [] => .error .empty
  | ['+'] => .error .invalidDigit
  | '+' :: digits => numberFrom 0 digits
  | digits => numberFrom 0 digits

/-! ### Files -/

/-- The settings that a file gives. -/
structure FileSettings where
  /-- The path of a template, possibly said to be none. -/
  defaultTemplate : Option (Option String)
  /-- The key of the body. -/
  bodyKey : Option String
  /-- The limit of nesting. -/
  maxNesting : Option Nat
  /-- The metadata of documents that give none of their own. -/
  defaults : Option (OrderedMap String)
  /-- The logging. -/
  logging : Option Logging

namespace FileSettings

/-- No settings. -/
def none : FileSettings := ⟨.none, .none, .none, .none, .none⟩

open Yaml (Decoding Tree)

/-- The text of a scalar, or nothing if the scalar is a word for nothing. -/
def optionalText (d : Yaml.Document) (tree : Tree) : Decoding (Option String) := do
  match ← d.follow tree with
  | .scalar tag text style =>
    if style ≠ .plain then return some text
    match tag with
    | .none => return if text.isEmpty || Yaml.isNullWord text then .none else some text
    | some .null => if Yaml.isNullWord text then return .none else failure
    | some _ => return some text
  | _ => failure

/-- The number that a scalar without quotes is. -/
def number (d : Yaml.Document) (tree : Tree) : Decoding Nat := do
  match ← d.follow tree with
  | .scalar tag text style =>
    if style = .plain ∨ (style = .literal ∧ tag = some .integer) then
      StateT.lift (Yaml.word64? text)
    else failure
  | _ => failure

/-- The texts under the keys of a mapping. -/
def texts (d : Yaml.Document) (tree : Tree) : Decoding (OrderedMap String) := do
  (← d.entries tree).foldlM (fun m (key, value) => do
    let key ← d.scalarText key
    let value ← d.scalarText value
    return m.insert key value) OrderedMap.empty

/-- A value for a setting that has none yet. -/
def once {α : Type} (old : Option α) (new : Decoding α) : Decoding (Option α) :=
  match old with
  | some _ => failure
  | .none => some <$> new

/-- The logging that a mapping gives, which must be complete. -/
def loggingOf (d : Yaml.Document) (tree : Tree) : Decoding Logging := do
  let start : Option String × Option String := (.none, .none)
  let (level, format) ← (← d.entries tree).foldlM (fun (level, format) (key, value) => do
    match ← d.scalarText key with
    | "level" => return (← once level (d.scalarText value), format)
    | "format" => return (level, ← once format (d.scalarText value))
    | _ => return (level, format)) start
  match level, format with
  | some level, some format => return ⟨level, format⟩
  | _, _ => failure

/-- Settings with the one that an entry gives. -/
def add (d : Yaml.Document) (s : FileSettings) (key value : Tree) : Decoding FileSettings := do
  match ← d.scalarText key with
  | "default_template" =>
    return { s with defaultTemplate := ← once s.defaultTemplate (optionalText d value) }
  | "body_key" => return { s with bodyKey := ← once s.bodyKey (d.scalarText value) }
  | "max_nesting_depth" => return { s with maxNesting := ← once s.maxNesting (number d value) }
  | "variables" => return { s with defaults := ← once s.defaults (texts d value) }
  | "logging" => return { s with logging := ← once s.logging (loggingOf d value) }
  | _ => return s

/-- The settings that a node gives. -/
def ofTree (d : Yaml.Document) (tree : Tree) : Decoding FileSettings := do
  (← d.entries tree).foldlM (fun s (key, value) => add d s key value) none

/-- The settings that the text of a file gives; a blank text gives none. -/
def ofText? (text : String) : Option FileSettings :=
  if Text.isBlankText text then some none
  else
    (Yaml.Document.ofText? text).bind fun d =>
      match d.root with
      | .none => some none
      | some tree => (ofTree d tree).run' 0

end FileSettings

/-! ### Layers -/

namespace Config

/-- The settings that hold if nothing else is said. -/
def standard : Config where
  defaultTemplate := none
  bodyKey := Converter.defaultBodyKey
  maxNesting := Template.defaultLimit
  defaults := OrderedMap.empty
  logging := ⟨"warn", "pretty"⟩

/-- The settings of a file over the standard ones. -/
def ofFile (s : FileSettings) : Config where
  defaultTemplate := s.defaultTemplate.getD standard.defaultTemplate
  bodyKey := s.bodyKey.getD standard.bodyKey
  maxNesting := s.maxNesting.getD standard.maxNesting
  defaults := s.defaults.getD standard.defaults
  logging := s.logging.getD standard.logging

/-- The configuration that the text of a file gives. -/
def ofText? (text : String) : Option Config :=
  (FileSettings.ofText? text).map ofFile

/-- The settings of an environment over others. -/
def withEnvironment (env : String → Option String) (c : Config) : Except NumberError Config := do
  let maxNesting ←
    match env "QUILL_MAX_NESTING" with
    | some text => numberOf text
    | none => pure c.maxNesting
  return {
    defaultTemplate := env "QUILL_TEMPLATE" <|> c.defaultTemplate
    bodyKey := (env "QUILL_BODY_KEY").getD c.bodyKey
    maxNesting := maxNesting
    defaults := c.defaults
    logging := ⟨(env "QUILL_LOG_LEVEL").getD c.logging.level,
      (env "QUILL_LOG_FORMAT").getD c.logging.format⟩ }

end Config

/-- The causes for which there is no configuration. -/
inductive ConfigError where
  /-- The file is not a configuration. -/
  | file
  /-- The limit of nesting in the environment is not a number. -/
  | maxNesting (error : NumberError)
deriving DecidableEq

/-- The wording of a cause. What is wrong with a file is not told. -/
def ConfigError.message : ConfigError → String
  | file => "Failed to parse configuration"
  | maxNesting error => error.message

/-- The configuration of a file, if there is one, and an environment. -/
def Config.load (file : Option String) (env : String → Option String) :
    Except ConfigError Config := do
  let c ←
    match file with
    | none => pure Config.standard
    | some text =>
      match Config.ofText? text with
      | some c => pure c
      | none => throw .file
  (c.withEnvironment env).mapError .maxNesting

/-- The converter that a configuration makes with variables and possibly a key for the body. -/
def Config.converter (c : Config) (entries : List String) (bodyKey : Option String) :
    Except VariableError Converter := do
  let overrides ← Variables.ofEntries entries
  return { Converter.standard with
    hooks := [Hook.defaults (Variables.toMapping c.defaults),
      Hook.overrides (Variables.toMapping overrides)]
    bodyKey := bodyKey.getD c.bodyKey
    limit := c.maxNesting }

end DocTemplate
