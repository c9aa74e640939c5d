/-!
# The tokens of a YAML text

Tokens are the indicators, names and scalars of a text, together with marks for the beginning and
the end of collections that indentation alone shows.
-/

namespace DocTemplate.Yaml

/-- How a scalar is written. -/
inductive ScalarStyle where
  /-- Without quotes. -/
  | plain
  /-- Between single quotes. -/
  | singleQuoted
  /-- Between double quotes. -/
  | doubleQuoted
  /-- As lines that keep their breaks. -/
  | literal
  /-- As lines that are folded. -/
  | folded
deriving DecidableEq

/-- A token. -/
inductive Token where
  /-- A directive with the version of the language. -/
  | versionDirective (major minor : Nat)
  /-- A directive that gives a handle a meaning. -/
  | tagDirective (handle : String) (meaning : List UInt8)
  /-- `---` -/
  | documentStart
  /-- `...` -/
  | documentEnd
  /-- The beginning of an indented sequence. -/
  | blockSequenceStart
  /-- The beginning of an indented mapping. -/
  | blockMappingStart
  /-- The end of an indented collection. -/
  | blockEnd
  /-- `[` -/
  | flowSequenceStart
  /-- `]` -/
  | flowSequenceEnd
  /-- `{` -/
  | flowMappingStart
  /-- `}` -/
  | flowMappingEnd
  /-- `-` -/
  | blockEntry
  /-- `,` -/
  | flowEntry
  /-- `?`, written or understood. -/
  | key
  /-- `:` -/
  | value
  /-- `*name` -/
  | alias (name : String)
  /-- `&name` -/
  | anchor (name : String)
  /-- `!handle!suffix`; a tag that is given whole has no handle. -/
  | tag (handle : String) (suffix : List UInt8)
  /-- A scalar. -/
  | scalar (text : String) (style : ScalarStyle)

end DocTemplate.Yaml
