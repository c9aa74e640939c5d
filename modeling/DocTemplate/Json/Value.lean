import DocTemplate.Context
import DocTemplate.Json.Basic

/-!
# Values and JSON data

JSON data is read as a value with the fields of every object ordered by key and with numbers as their
text; the fields of a context's own object keep their order. A value is written as the data of the
same shape, so that reading what was written gives the value back with its mappings ordered.
-/

namespace DocTemplate

namespace Value

mutual

/-- The value that data stands for. -/
def ofJson : Json.Data → Value
  | .null => .null
  | .boolean truth => .boolean truth
  | .number value => .scalar value.text
  | .string text => .scalar text
  | .array items => .sequence (ofJsonItems items)
  | .object ⟨fields⟩ => .mapping (OrderedMap.sorted ⟨ofJsonFields fields⟩)

/-- The values that items stand for. -/
def ofJsonItems : List Json.Data → List Value
  | [] => []
  | item :: rest => ofJson item :: ofJsonItems rest

/-- The values that fields stand for. -/
def ofJsonFields : List (String × Json.Data) → List (String × Value)
  | [] => []
  | (key, value) :: rest => (key, ofJson value) :: ofJsonFields rest

end

mutual

/-- The data of the same shape. -/
def toJson : Value → Json.Data
  | .null => .null
  | .boolean truth => .boolean truth
  | .scalar text => .string text
  | .sequence items => .array (toJsonItems items)
  | .mapping ⟨fields⟩ => .object ⟨toJsonFields fields⟩

/-- The data of items. -/
def toJsonItems : List Value → List Json.Data
  | [] => []
  | item :: rest => toJson item :: toJsonItems rest

/-- The data of fields. -/
def toJsonFields : List (String × Value) → List (String × Json.Data)
  | [] => []
  | (key, value) :: rest => (key, toJson value) :: toJsonFields rest

end

/-- The text of an integer as a value. -/
def ofInt (n : Int) : Value :=
  .scalar (toString n)

/-- The text of a floating point number as a value, written out. -/
def ofFloat (x : Float) : Value :=
  .scalar (Decimal.plainStyle.write x)

end Value

namespace Context

/-- The context that data stands for: an object with its fields in order. -/
def ofJson? : Json.Data → Option Context
  | .object ⟨fields⟩ => some ⟨⟨Value.ofJsonFields fields⟩⟩
  | _ => none

/-- The data of a context. -/
def toJson (c : Context) : Json.Data :=
  (Value.mapping c.root).toJson

end Context

end DocTemplate
