import DocTemplate.Yaml.Plain
import DocTemplate.Yaml.Tree

/-!
# YAML data

What a YAML document says: data with tags, in which the keys of a mapping may be any data. Two keys
of a mapping must differ, an integer and a floating point number always do, and a mapping is equal to
one with the same entries in another order.

A tag of an application stays with the datum, and the datum under it is read as if there were no tag.
This extends to the keys of a mapping with such a tag, whose own tags do not count, but not to its
values.
-/

namespace DocTemplate.Yaml

/-- What a YAML document says. -/
inductive Datum where
  /-- Nothing. -/
  | null
  /-- A truth value. -/
  | boolean (truth : Bool)
  /-- An integer. -/
  | integer (value : Int)
  /-- A floating point number. -/
  | float (value : Float)
  /-- A text. -/
  | string (text : String)
  /-- Data in order. -/
  | sequence (items : List Datum)
  /-- Pairs of a key and a value, in order. -/
  | mapping (entries : List (Datum × Datum))
  /-- Data with a tag. -/
  | tagged (tag : String) (datum : Datum)

instance : Inhabited Datum := ⟨.null⟩

namespace Datum

mutual

/-- Equality of data up to the order of the entries of mappings. -/
def same : Datum → Datum → Bool
  | null, null => true
  | boolean a, boolean b => a == b
  | integer a, integer b => a == b
  | float a, float b => (a.isNaN && b.isNaN) || a == b
  | string a, string b => a == b
  | sequence a, sequence b => sameAll a b
  | mapping a, mapping b => a.length == b.length && sameWithin a b
  | tagged s a, tagged t b => s == t && same a b
  | _, _ => false

/-- Item by item equality. -/
def sameAll : List Datum → List Datum → Bool
  | [], [] => true
  | a :: as, b :: bs => same a b && sameAll as bs
  | _, _ => false

/-- Whether every one of some entries is among others. -/
def sameWithin : List (Datum × Datum) → List (Datum × Datum) → Bool
  | [], _ => true
  | (key, a) :: rest, other =>
    (other.any fun entry => same key entry.1 && same a entry.2) && sameWithin rest other

end

/-! ### Scalars -/

/-- The datum of a plain scalar. -/
def ofPlain? (text : String) : Option Datum :=
  match plain text with
  | .null => some null
  | .boolean truth => some (boolean truth)
  | .integer value => some (integer value)
  | .tooLarge => none
  | .float value => some (float value)
  | .text => some (string text)

/-- The datum of an integer. -/
def ofInteger? (text : String) : Option Datum :=
  match integer? text.toList with
  | some (.integer value) => some (integer value)
  | _ => none

/-- The datum of a scalar without a tag. -/
def ofUntagged? (text : String) (style : ScalarStyle) : Option Datum :=
  if style = .plain then ofPlain? text else some (string text)

/-- The datum of a scalar. Its tag says how the text is to be read; a tag of an application does not,
but stays with the datum. -/
def ofScalar? (tag : Option Tag) (text : String) (style : ScalarStyle) : Option Datum :=
  match tag with
  | none => ofUntagged? text style
  | some .unreadable => ofUntagged? text style
  | some (.application name) => (ofUntagged? text style).map (tagged name)
  | some .boolean => (truth? text).map boolean
  | some .integer => ofInteger? text
  | some .float => (float? text).map float
  | some .null => if isNullWord text then some null else none
  | some .other => some (string text)

/-- Data with the tag of an application, if there is one. -/
def withTag (tag : Option Tag) (datum : Datum) : Datum :=
  match Tag.application? tag with
  | some name => tagged name datum
  | none => datum

/-! ### Documents -/

/-- Some entries with another one at the end, whose key must be new. -/
def addEntry (entries : List (Datum × Datum)) (key value : Datum) :
    Option (List (Datum × Datum)) :=
  if entries.any fun entry => same key entry.1 then none else some (entries ++ [(key, value)])

/-- The datum of a node, given how to read the nodes in it unless they are nested too deep. The tag of
a node that is read bare does not count, except where an alias stands for the node. -/
def decodeNode (d : Document) (inner : Option (Bool → Tree → Decoding Datum)) (bare : Bool)
    (tree : Tree) : Decoding Datum := do
  let bare := bare && !tree.isAlias
  let counted (tag : Option Tag) : Option Tag := if bare then none else tag
  match ← d.follow tree with
  | .scalar tag text style => StateT.lift (ofScalar? (counted tag) text style)
  | .sequence tag items =>
    let some decode := inner | failure
    return withTag (counted tag) (sequence (← items.mapM (decode false)))
  | .mapping tag entries =>
    let some decode := inner | failure
    let data ← entries.foldlM (fun data (key, value) => do
      let key ← decode (bare || (Tag.application? tag).isSome) key
      let value ← decode false value
      StateT.lift (addEntry data key value)) []
    return withTag (counted tag) (mapping data)
  | .alias _ => failure

/-- The datum of a node in which collections may be nested to some depth. -/
def decode (d : Document) : Nat → Bool → Tree → Decoding Datum
  | 0 => decodeNode d none
  | depth + 1 => decodeNode d (some (decode d depth))

/-- The datum of a document. -/
def ofDocument? (d : Document) : Option Datum :=
  match d.root with
  | none => some null
  | some tree => (decode d maxNesting false tree).run' 0

/-- What a text says, if it is a YAML text with one document. -/
def ofText? (text : String) : Option Datum :=
  (Document.ofText? text).bind ofDocument?

end Datum

end DocTemplate.Yaml
