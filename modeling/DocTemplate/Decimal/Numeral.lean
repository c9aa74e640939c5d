/-!
# Reading decimal numerals

A numeral is a sign, digits with at most one point among or around them, and an exponent. It is read
as the floating point number nearest to it.
-/

namespace DocTemplate.Decimal

/-- The natural number with some digits. -/
def ofDigits (digits : List Char) : Nat :=
  digits.foldl (fun n c => 10 * n + (c.toNat - '0'.toNat)) 0

/-- A numeral by its parts. -/
structure Numeral where
  /-- Whether a minus stands before it. -/
  negative : Bool
  /-- The digits before the point. -/
  whole : List Char
  /-- The digits after the point. -/
  fraction : List Char
  /-- The power of ten it is multiplied by. -/
  exponent : Int

/-- A sign at the front of a text, if there is one, and the rest. -/
def splitSign : List Char → Bool × List Char
  | '-' :: rest => (true, rest)
  | '+' :: rest => (false, rest)
  | rest => (false, rest)

/-- The exponent that a text after the digits of a numeral gives. -/
def exponent? : List Char → Option Int
  | [] => some 0
  | 'e' :: rest => signed rest
  | 'E' :: rest => signed rest
  | _ => none
where
  /-- A number with a sign and at least one digit. -/
  signed (text : List Char) : Option Int :=
    let (negative, digits) := splitSign text
    if digits.isEmpty || !digits.all Char.isDigit then none
    else
      let n : Int := ofDigits digits
      some (if negative then -n else n)

/-- The numeral that a text is: digits with an optional point before, among or after them. -/
def Numeral.ofText? (text : List Char) : Option Numeral :=
  let (negative, unsigned) := splitSign text
  let whole := unsigned.takeWhile Char.isDigit
  let afterWhole := unsigned.dropWhile Char.isDigit
  let (fraction, tail) :=
    match afterWhole with
    | '.' :: rest => (rest.takeWhile Char.isDigit, rest.dropWhile Char.isDigit)
    | rest => ([], rest)
  if whole.isEmpty && fraction.isEmpty then none
  else (exponent? tail).map fun exponent => ⟨negative, whole, fraction, exponent⟩

/-- An exponent beyond which every numeral with few digits is zero or infinite. -/
def exponentBound : Int := 400

/-- The floating point number nearest to a numeral. -/
def Numeral.toFloat (n : Numeral) : Float :=
  let digits := (n.whole ++ n.fraction).dropWhile (· == '0')
  let exponent := n.exponent - (n.fraction.length : Int)
  let magnitude : Float :=
    if digits.isEmpty then 0.0
    else
      let leading := exponent + (digits.length : Int)
      if leading < -exponentBound then 0.0
      else if exponentBound < leading then 1.0 / 0.0
      else if exponent < 0 then Float.ofScientific (ofDigits digits) true exponent.natAbs
      else Float.ofScientific (ofDigits digits) false exponent.natAbs
  if n.negative then -magnitude else magnitude

end DocTemplate.Decimal
