import DocTemplate.Decimal.Numeral
import DocTemplate.Text.Blank

/-!
# The meaning of plain scalars

A scalar without quotes stands for nothing, a truth value, an integer, a floating point number or a
text, whichever of these it is first a written form of. An integer has an optional sign and may be
written in base sixteen, eight or two; one that needs more than 64 bits but not more than 128 has no
meaning at all. Decimal digits with a zero before them are a text.
-/

namespace DocTemplate.Yaml

/-- What a plain scalar stands for. -/
inductive Plain where
  /-- Nothing. -/
  | null
  /-- A truth value. -/
  | boolean (truth : Bool)
  /-- An integer of at most 64 bits. -/
  | integer (value : Int)
  /-- An integer that is too large. -/
  | tooLarge
  /-- A floating point number. -/
  | float (value : Float)
  /-- The text itself. -/
  | text

/-- Whether a text is a word for nothing. -/
def isNullWord (text : String) : Bool :=
  text == "~" || text == "null" || text == "Null" || text == "NULL"

/-- The truth value that a text is a word for. -/
def truth? (text : String) : Option Bool :=
  if text == "true" || text == "True" || text == "TRUE" then some true
  else if text == "false" || text == "False" || text == "FALSE" then some false
  else none

/-! ### Integers -/

/-- The value of a digit in a base of at most sixteen. -/
def digitIn? (base : Nat) (c : Char) : Option Nat :=
  let n :=
    if '0' ≤ c ∧ c ≤ '9' then c.toNat - '0'.toNat
    else if 'a' ≤ c ∧ c ≤ 'f' then c.toNat - 'a'.toNat + 10
    else if 'A' ≤ c ∧ c ≤ 'F' then c.toNat - 'A'.toNat + 10
    else 16
  if n < base then some n else none

/-- The natural number with some digits in a base, at least one. -/
def natIn? (base : Nat) (digits : List Char) : Option Nat :=
  if digits.isEmpty then none
  else digits.foldlM (fun n c => (digitIn? base c).map (base * n + ·)) 0

/-- The base that begins an integer and the text after it. -/
def splitBase : List Char → Option (Nat × List Char)
  | '0' :: 'x' :: rest => some (16, rest)
  | '0' :: 'o' :: rest => some (8, rest)
  | '0' :: 'b' :: rest => some (2, rest)
  | _ => none

/-- Whether a text is decimal digits with a zero before them and an optional sign. -/
def isPaddedNumber (text : List Char) : Bool :=
  let unsigned :=
    match text with
    | '-' :: rest => rest
    | '+' :: rest => rest
    | rest => rest
  match unsigned with
  | '0' :: c :: rest => (c :: rest).all Char.isDigit
  | _ => false

/-- A text without a plus at its front. -/
def dropPlus : List Char → List Char
  | '+' :: rest => rest
  | rest => rest

/-- The natural number that a text is, with an optional plus. -/
def natural? (text : List Char) : Option Nat :=
  let unsigned := dropPlus text
  let inBase := (splitBase unsigned).bind fun (base, digits) => natIn? base digits
  match inBase with
  | some n => some n
  | none => if isPaddedNumber text then none else natIn? 10 unsigned

/-- The natural number whose negative a text is. -/
def negated? : List Char → Option Nat
  | '-' :: unsigned =>
    let inBase := (splitBase unsigned).bind fun (base, digits) => natIn? base digits
    match inBase with
    | some n => some n
    | none => if isPaddedNumber unsigned then none else natIn? 10 unsigned
  | _ => none

/-- The integer that a text is, if it is one of at most 128 bits. -/
def integer? (text : List Char) : Option Plain :=
  match natural? text, negated? text with
  | some n, _ =>
    if n < Nat.pow 2 64 then some (.integer n) else if n < Nat.pow 2 128 then some .tooLarge else none
  | none, some n =>
    if n ≤ Nat.pow 2 63 then some (.integer (-(n : Int)))
    else if n ≤ Nat.pow 2 127 then some .tooLarge
    else none
  | none, none => none

/-- The natural number of at most 64 bits that a text is. -/
def word64? (text : String) : Option Nat :=
  (natural? text.toList).filter (· < Nat.pow 2 64)

/-! ### Floating point numbers -/

/-- The finite floating point number that a numeral in a text is nearest to. -/
def finite? (text : List Char) : Option Float :=
  (Decimal.Numeral.ofText? text).map Decimal.Numeral.toFloat |>.filter Float.isFinite

/-- The floating point number that a text is. -/
def float? (text : String) : Option Float :=
  let chars := text.toList
  let unsigned := dropPlus chars
  let word := String.ofList unsigned
  if chars.head? == some '+' && (unsigned.head? == some '+' || unsigned.head? == some '-') then none
  else if word == ".inf" || word == ".Inf" || word == ".INF" then some (1.0 / 0.0)
  else if text == "-.inf" || text == "-.Inf" || text == "-.INF" then some (-(1.0 / 0.0))
  else if text == ".nan" || text == ".NaN" || text == ".NAN" then some (0.0 / 0.0)
  else finite? unsigned

/-- What a plain scalar stands for. -/
def plain (text : String) : Plain :=
  if text.isEmpty || isNullWord text then .null
  else
    match truth? text with
    | some truth => .boolean truth
    | none =>
      match integer? text.toList with
      | some number => number
      | none =>
        if isPaddedNumber text.toList then .text
        else
          match float? text with
          | some x => .float x
          | none => .text

end DocTemplate.Yaml
