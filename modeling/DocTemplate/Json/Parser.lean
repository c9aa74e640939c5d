import DocTemplate.Json.Token

/-!
# Reading JSON texts

The tokens of a text are put together with a stack of the arrays and objects that are open. A text
holds exactly one value, and arrays and objects are nested less than 128 deep. If a key occurs twice
in an object, the field stands where it occurs first and has the value that occurs last.
-/

namespace DocTemplate.Json

/-- An array or object that is open. -/
inductive Frame where
  /-- An array with the items so far, last first. -/
  | array (items : List Data)
  /-- An object with the fields so far. -/
  | object (fields : OrderedMap Data)
  /-- An object with the fields so far, after the key of the next. -/
  | field (fields : OrderedMap Data) (key : String)

/-- What may come next. -/
inductive Expecting where
  /-- A value. -/
  | value
  /-- A value or the end of an array that is still empty. -/
  | valueOrEnd
  /-- A key. -/
  | key
  /-- A key or the end of an object that is still empty. -/
  | keyOrEnd
  /-- A colon. -/
  | colon
  /-- A comma or the end of what is open. -/
  | commaOrEnd
  /-- Nothing. -/
  | nothing

/-- The state of the reading. -/
structure Building where
  /-- What is open, innermost first. -/
  open_ : List Frame
  /-- What may come next. -/
  expecting : Expecting
  /-- The value of the whole text, once it is complete. -/
  done : Option Data

/-- The number of arrays and objects that may not be open at once. -/
def maxDepth : Nat := 128

namespace Building

/-- Put a complete value where it belongs. -/
def add (b : Building) (data : Data) : Option Building :=
  match b.open_ with
  | [] => some ⟨[], .nothing, some data⟩
  | .array items :: outer => some { b with open_ := .array (data :: items) :: outer,
                                           expecting := .commaOrEnd }
  | .field fields key :: outer => some { b with open_ := .object (fields.insert key data) :: outer,
                                                expecting := .commaOrEnd }
  | .object _ :: _ => none

/-- Open an array or an object. -/
def push (b : Building) (frame : Frame) (expecting : Expecting) : Option Building :=
  if b.open_.length + 1 < maxDepth then
    some { b with open_ := frame :: b.open_, expecting := expecting }
  else none

/-- Whether a value may come next. -/
def expectsValue (b : Building) : Bool :=
  match b.expecting with
  | .value => true
  | .valueOrEnd => true
  | _ => false

/-- Take in a token. -/
def step (b : Building) (token : Token) : Option Building :=
  match token, b.expecting, b.open_ with
  | .atom data, _, _ => if b.expectsValue then b.add data else none
  | .openArray, _, _ => if b.expectsValue then b.push (.array []) .valueOrEnd else none
  | .openObject, _, _ =>
    if b.expectsValue then b.push (.object OrderedMap.empty) .keyOrEnd else none
  | .string key, .key, .object fields :: outer =>
    some { b with open_ := .field fields key :: outer, expecting := .colon }
  | .string key, .keyOrEnd, .object fields :: outer =>
    some { b with open_ := .field fields key :: outer, expecting := .colon }
  | .string text, _, _ => if b.expectsValue then b.add (.string text) else none
  | .colon, .colon, _ => some { b with expecting := .value }
  | .comma, .commaOrEnd, .array _ :: _ => some { b with expecting := .value }
  | .comma, .commaOrEnd, .object _ :: _ => some { b with expecting := .key }
  | .closeArray, .valueOrEnd, .array items :: outer =>
    { b with open_ := outer }.add (.array items.reverse)
  | .closeArray, .commaOrEnd, .array items :: outer =>
    { b with open_ := outer }.add (.array items.reverse)
  | .closeObject, .keyOrEnd, .object fields :: outer =>
    { b with open_ := outer }.add (.object fields)
  | .closeObject, .commaOrEnd, .object fields :: outer =>
    { b with open_ := outer }.add (.object fields)
  | _, _, _ => none

end Building

/-- What a text says, if it is a JSON text. -/
def Data.ofText? (text : String) : Option Data := do
  let tokens ← Token.ofText? text.toList
  let b ← tokens.foldlM Building.step ⟨[], .value, none⟩
  b.done

end DocTemplate.Json
