/-!
# The tags of YAML nodes

A tag says what a node is. It is made of ASCII characters and of bytes given by number, so that it is
a sequence of bytes and need not be a text; a byte that is zero ends it. A tag that begins with an
exclamation mark belongs to an application. Of all others the four that name a type of scalars other
than texts say how a scalar is to be read.
-/

namespace DocTemplate.Yaml

/-- A tag with its handle resolved. -/
inductive Tag where
  /-- The tag of nothing. -/
  | null
  /-- The tag of truth values. -/
  | boolean
  /-- The tag of integers. -/
  | integer
  /-- The tag of floating point numbers. -/
  | float
  /-- A tag of an application, by its name. -/
  | application (name : String)
  /-- A tag of an application whose bytes are no text. -/
  | unreadable
  /-- Any other tag. -/
  | other
deriving DecidableEq

namespace Tag

/-- The bytes of a text of ASCII characters. -/
def asciiBytes (text : String) : List UInt8 :=
  text.toList.map Char.toUInt8

/-- The bytes at the front that are not zero. -/
def beforeZero (bytes : List UInt8) : List UInt8 :=
  bytes.takeWhile (· != 0)

/-- The bytes that the tags of types begin with. -/
def standardBytes : List UInt8 :=
  asciiBytes "tag:yaml.org,2002:"

/-- The mark of an application. -/
def mark : Char := '!'

/-- A text without the mark at its front, unless it is the mark alone. -/
def dropMark : List Char → List Char
  | c :: d :: rest => if c = mark then d :: rest else c :: d :: rest
  | text => text

/-- The name in the text of a tag of an application: a mark or two at the front do not belong to
it. -/
def applicationName (text : String) : String :=
  String.ofList (dropMark (dropMark text.toList))

/-- The tag with some bytes. -/
def ofBytes (bytes : List UInt8) : Tag :=
  if bytes.head? = some mark.toUInt8 then
    match String.fromUTF8? ⟨bytes.toArray⟩ with
    | some text => application (applicationName text)
    | none => unreadable
  else if bytes = standardBytes ++ asciiBytes "null" then null
  else if bytes = standardBytes ++ asciiBytes "bool" then boolean
  else if bytes = standardBytes ++ asciiBytes "int" then integer
  else if bytes = standardBytes ++ asciiBytes "float" then float
  else other

/-- The name in a tag of an application. -/
def application? : Option Tag → Option String
  | some (application name) => some name
  | _ => none

end Tag

end DocTemplate.Yaml
