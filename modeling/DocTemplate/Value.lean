import DocTemplate.OrderedMap

/-!
# Values

A value is what a template can refer to: nothing, a truth value, a text, a sequence of values or a
mapping from texts to values. Numbers are texts. Three readings matter to a template: whether a value
counts as true (`Value.isTruthy`), the text it is interpolated as (`Value.text`), and whether it is
a sequence to iterate over. None of them depends on the order of a mapping's entries, and neither
does `Value.agrees`, the equality of values.
-/

namespace DocTemplate

/-- A value that a template can refer to. -/
inductive Value where
  /-- No value. -/
  | null
  /-- A truth value. -/
  | boolean (truth : Bool)
  /-- A text; numbers are kept as their text. -/
  | scalar (text : String)
  /-- Values in order. -/
  | sequence (items : List Value)
  /-- Values under keys. -/
  | mapping (fields : OrderedMap Value)

/-- A mapping of values. -/
abbrev Mapping := OrderedMap Value

namespace Value

instance : Inhabited Value := ⟨null⟩

/-- Whether a value counts as true: everything but `null`, `false` and the empty sequence does, the
empty text included. -/
def isTruthy : Value → Bool
  | null => false
  | boolean truth => truth
  | scalar _ => true
  | sequence items => !items.isEmpty
  | mapping _ => true

/-- Whether a value is `null`. -/
def isNull : Value → Bool
  | null => true
  | _ => false

/-- The text of a scalar. -/
def scalar? : Value → Option String
  | scalar text => some text
  | _ => none

/-- The items of a sequence. -/
def sequence? : Value → Option (List Value)
  | sequence items => some items
  | _ => none

/-- The fields of a mapping. -/
def mapping? : Value → Option Mapping
  | mapping fields => some fields
  | _ => none

mutual

/-- The text a value is interpolated as: nothing for one that does not count as true, the texts of
its items one after the other for a sequence, and `true` for a mapping, which has no text form. -/
def text : Value → String
  | null => ""
  | boolean truth => if truth then "true" else ""
  | scalar text => text
  | sequence items => textAll items
  | mapping _ => "true"

/-- The texts of values one after the other. -/
def textAll : List Value → String
  | [] => ""
  | item :: rest => item.text ++ textAll rest

end

mutual

/-- Equality of values up to the order of the entries of mappings, at every level. -/
def agrees : Value → Value → Bool
  | null, null => true
  | boolean a, boolean b => a == b
  | scalar a, scalar b => a == b
  | sequence a, sequence b => agreesAll a b
  | mapping ⟨a⟩, mapping b => a.length == b.size && agreesWithin a b
  | _, _ => false

/-- Item by item agreement of two sequences. -/
def agreesAll : List Value → List Value → Bool
  | [], [] => true
  | a :: as, b :: bs => agrees a b && agreesAll as bs
  | _, _ => false

/-- Whether a mapping holds an agreeing value for every one of some entries. -/
def agreesWithin : List (String × Value) → OrderedMap Value → Bool
  | [], _ => true
  | (key, a) :: rest, other =>
    (match other.get? key with
      | some b => agrees a b
      | none => false) && agreesWithin rest other

end

end Value

end DocTemplate
