import DocTemplate.Decimal.Notation
import DocTemplate.Json.Value
import DocTemplate.Yaml.Datum

/-!
# Values from YAML

YAML data is read as a value without its tags. A key of a mapping becomes a text if it is a text, a
number or a truth value; any other key is dropped with its value, for no path leads to it. Two keys
that become the same text make one field, which stands where the first stands and has the value of
the last.

Where a document is wanted as a context and not as data, keys are the texts of scalars as they are
written, a tag of an application is an error, and what is not a finite number is nothing; the fields
of every mapping but the outermost are ordered.
-/

namespace DocTemplate

/-- The text of a floating point number in front matter. -/
def Yaml.floatText (x : Float) : String :=
  Decimal.frontMatterStyle.write x

/-- The text that a key becomes. -/
def Yaml.Datum.key? : Yaml.Datum → Option String
  | .string text => some text
  | .integer value => some (toString value)
  | .float value => some (Yaml.floatText value)
  | .boolean truth => some (if truth then "true" else "false")
  | .tagged _ datum => datum.key?
  | _ => none

namespace Value

mutual

/-- The value that data stands for. -/
def ofYaml : Yaml.Datum → Value
  | .null => .null
  | .boolean truth => .boolean truth
  | .integer value => .scalar (toString value)
  | .float value => .scalar (Yaml.floatText value)
  | .string text => .scalar text
  | .sequence items => .sequence (ofYamlItems items)
  | .mapping entries => .mapping (ofYamlEntries OrderedMap.empty entries)
  | .tagged _ datum => ofYaml datum

/-- The values that items stand for. -/
def ofYamlItems : List Yaml.Datum → List Value
  | [] => []
  | item :: rest => ofYaml item :: ofYamlItems rest

/-- A mapping with the fields that entries stand for inserted. -/
def ofYamlEntries (fields : Mapping) : List (Yaml.Datum × Yaml.Datum) → Mapping
  | [] => fields
  | (key, value) :: rest =>
    match key.key? with
    | some name => ofYamlEntries (fields.insert name (ofYaml value)) rest
    | none => ofYamlEntries fields rest

end

end Value

/-! ### Documents as contexts -/

namespace Yaml

/-- The data of a scalar without the tag of an application. -/
def Datum.toJsonScalar : Datum → Json.Data
  | .boolean truth => .boolean truth
  | .integer value => .number (.integer value)
  | .float value => if value.isFinite then .number (.float value) else .null
  | .string text => .string text
  | _ => .null

/-- The data of a node whose keys are texts, given how to read the nodes in it unless they are nested
too deep. -/
def Document.decodeNode (d : Document) (inner : Option (Tree → Decoding Json.Data))
    (tree : Tree) : Decoding Json.Data := do
  match ← d.follow tree with
  | .scalar tag text style =>
    if (Tag.application? tag).isSome then failure
    return (← Datum.ofScalar? tag text style).toJsonScalar
  | .sequence tag items =>
    let some decode := inner | failure
    if (Tag.application? tag).isSome then failure
    return .array (← items.mapM decode)
  | .mapping tag entries =>
    if (Tag.application? tag).isSome then failure
    return .object (← fields inner entries)
  | .alias _ => failure
where
  /-- The fields of a mapping. -/
  fields (inner : Option (Tree → Decoding Json.Data)) (entries : List (Tree × Tree)) :
      Decoding (OrderedMap Json.Data) := do
    let some decode := inner | failure
    entries.foldlM (fun fields (key, value) => do
      let key ← d.scalarText key
      let value ← decode value
      return fields.insert key value) OrderedMap.empty

/-- The data of a node in which collections may be nested to some depth. -/
def Document.decode (d : Document) : Nat → Tree → Decoding Json.Data
  | 0 => d.decodeNode none
  | depth + 1 => d.decodeNode (some (d.decode depth))

/-- The data of a document whose keys are texts. -/
def Document.toJson? (d : Document) : Option Json.Data :=
  match d.root with
  | none => some .null
  | some tree => (d.decode maxNesting tree).run' 0

/-- The fields of a document that is a mapping, whatever its tag, or counts as one. -/
def Document.fields? (d : Document) : Option (OrderedMap Json.Data) :=
  match d.root with
  | none => some OrderedMap.empty
  | some tree => (outermost tree).run' 0
where
  /-- The fields of the outermost node. -/
  outermost (tree : Tree) : Decoding (OrderedMap Json.Data) := do
    Document.decodeNode.fields d (some (d.decode (maxNesting - 1))) (← d.entries tree)

end Yaml

/-- The value of a document whose keys are texts. -/
def Value.ofYamlDocument? (text : String) : Option Value :=
  (Yaml.Document.ofText? text).bind fun d => d.toJson?.map Value.ofJson

/-- The context that a document is. -/
def Context.ofYamlDocument? (text : String) : Option Context :=
  (Yaml.Document.ofText? text).bind fun d =>
    d.fields?.bind fun fields => Context.ofJson? (.object fields)

end DocTemplate
