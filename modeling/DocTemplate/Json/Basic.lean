import DocTemplate.OrderedMap
import DocTemplate.Decimal.Notation

/-!
# JSON data

What a JSON text says. A number is an integer of at most 64 bits or a floating point number, and the
fields of an object keep the order of the text.
-/

namespace DocTemplate.Json

/-- A number. -/
inductive Number where
  /-- An integer. -/
  | integer (value : Int)
  /-- A floating point number. -/
  | float (value : Float)

/-- What a JSON text says. -/
inductive Data where
  /-- The word `null`. -/
  | null
  /-- The word `true` or the word `false`. -/
  | boolean (truth : Bool)
  /-- A number. -/
  | number (value : Number)
  /-- A text. -/
  | string (text : String)
  /-- Data in order. -/
  | array (items : List Data)
  /-- Data under keys. -/
  | object (fields : OrderedMap Data)

instance : Inhabited Data := ⟨.null⟩

/-- The text of a number: of an integer its digits, and of another one the data style. -/
def Number.text : Number → String
  | .integer value => toString value
  | .float value => Decimal.dataStyle.write value

end DocTemplate.Json
