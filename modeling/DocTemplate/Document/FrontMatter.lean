import DocTemplate.Document.Basic
import DocTemplate.Text.Blank
import DocTemplate.Yaml.Value

/-!
# Front matter

A source may begin with front matter: a first line `---`, YAML, and a closing line `---` or `...`.
What follows is the body; a source without front matter is all body. Line terminators do not matter
to the two lines, except that the first one must have one.
-/

namespace DocTemplate

namespace FrontMatter

/-- The first line of a text with the line feed that ends it, and the rest. -/
def firstLine (text : List Char) : List Char × List Char :=
  match text.dropWhile (· != '\n') with
  | [] => (text, [])
  | feed :: rest => (text.takeWhile (· != '\n') ++ [feed], rest)

/-- A line without the line feeds at its end, and then without the carriage returns at its end. -/
def lineContent (line : List Char) : List Char :=
  ((line.reverse.dropWhile (· == '\n')).dropWhile (· == '\r')).reverse

/-- Whether a line opens front matter. -/
def isOpening (line : List Char) : Bool :=
  lineContent line == ['-', '-', '-'] && line.getLast? == some '\n'

/-- Whether a line closes front matter. -/
def isClosing (line : List Char) : Bool :=
  lineContent line == ['-', '-', '-'] || lineContent line == ['.', '.', '.']

theorem length_firstLine_lt (c : Char) (text : List Char) :
    (firstLine (c :: text)).2.length < (c :: text).length := by
  have hsub := (List.dropWhile_sublist (· != '\n') (l := c :: text)).length_le
  rw [firstLine]
  split
  · simp
  · next feed rest h =>
    rw [h, List.length_cons] at hsub
    simp only
    omega

/-- The text before the first closing line of a text and the text after it; the lines before the text
are given last first. -/
def splitAtClosing (before : List (List Char)) (text : List Char) :
    Option (List Char × List Char) :=
  match text with
  | [] => none
  | c :: text =>
    let line := (firstLine (c :: text)).1
    let rest := (firstLine (c :: text)).2
    if isClosing line then some (before.reverse.flatten, rest)
    else splitAtClosing (line :: before) rest
termination_by text.length
decreasing_by exact length_firstLine_lt c text

/-- The YAML of the front matter of a source, if it has some, and its body. -/
def split (source : String) : Except DocumentError (Option String × String) :=
  let (line, rest) := firstLine source.toList
  if isOpening line then
    match splitAtClosing [] rest with
    | some (yaml, body) => .ok (some (String.ofList yaml), String.ofList body)
    | none => .error .unterminatedFrontMatter
  else .ok (none, source)

/-- The metadata that a value is: a mapping, or none at all. -/
def ofValue : Value → Except DocumentError Mapping
  | .null => .ok OrderedMap.empty
  | .mapping fields => .ok fields
  | .boolean _ => .error (.frontMatterNotMapping .boolean)
  | .scalar _ => .error (.frontMatterNotMapping .scalar)
  | .sequence _ => .error (.frontMatterNotMapping .sequence)

/-- The metadata in the YAML of front matter. -/
def metadata (yaml : String) : Except DocumentError Mapping :=
  if Text.isBlankText yaml then .ok OrderedMap.empty
  else
    match Yaml.Datum.ofText? yaml with
    | none => .error .frontMatter
    | some datum => ofValue (Value.ofYaml datum)

end FrontMatter

/-- The document of a source that may begin with front matter. -/
def Document.ofSource (source : String) : Except DocumentError Document := do
  let (yaml, body) ← FrontMatter.split source
  match yaml with
  | none => return ⟨OrderedMap.empty, body⟩
  | some yaml => return ⟨← FrontMatter.metadata yaml, body⟩

end DocTemplate
