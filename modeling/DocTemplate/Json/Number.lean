import DocTemplate.Json.Basic
import DocTemplate.Decimal.Numeral

/-!
# Reading JSON numbers

The digits of a number are gathered into a significand of at most 64 bits. A number without a point
and an exponent whose digits all fit is an integer, if it is in range. Of any other number the
significand is taken as a floating point number and scaled by a power of ten, which rounds twice;
digits that no longer fit only move the scale, or are dropped if they stand after the point.
-/

namespace DocTemplate.Json

open Decimal (ofDigits splitSign)

/-- The largest significand. -/
def maxSignificand : Nat := Nat.pow 2 64 - 1

/-- The largest exponent that is read digit by digit. -/
def maxExponent : Nat := Nat.pow 2 31 - 1

/-- A significand with as many further digits as fit, and the digits that do not. -/
def gather (significand : Nat) : List Char → Nat × List Char
  | [] => (significand, [])
  | c :: digits =>
    let next := 10 * significand + (c.toNat - '0'.toNat)
    if maxSignificand < next then (significand, c :: digits) else gather next digits

/-- The floating point number of a power of ten of at most 308. -/
def powerOfTen (n : Nat) : Float :=
  Float.ofScientific 1 false n

/-- A floating point number scaled by a negative power of ten; beyond the smallest power there is, it
is scaled in steps. -/
def scaleDown (x : Float) (n : Nat) : Float :=
  if _h : n ≤ 308 then x / powerOfTen n
  else if x == 0.0 then x
  else scaleDown (x / powerOfTen 308) (n - 308)
termination_by n
decreasing_by omega

/-- A significand scaled by a power of ten, if that is finite. -/
def scale? (significand : Nat) (exponent : Int) : Option Float :=
  let x := significand.toUInt64.toFloat
  if exponent < 0 then some (scaleDown x exponent.natAbs)
  else if exponent ≤ 308 then
    let y := x * powerOfTen exponent.toNat
    if y.isInf then none else some y
  else if significand = 0 then some x
  else none

/-- The integer with a sign and a significand. A negative one that is out of range, and a negative
zero, is a floating point number. -/
def signedInteger (negative : Bool) (significand : Nat) : Number :=
  if negative then
    if significand = 0 ∨ Nat.pow 2 63 < significand then .float (-(significand.toUInt64.toFloat))
    else .integer (-(significand : Int))
  else .integer significand

/-- The digits of an exponent with its sign, if a text after the digits of a number is one. -/
def exponentDigits? : List Char → Option (Bool × List Char)
  | 'e' :: rest => signed rest
  | 'E' :: rest => signed rest
  | _ => none
where
  /-- At least one digit after an optional sign. -/
  signed (text : List Char) : Option (Bool × List Char) :=
    let (negative, digits) := splitSign text
    if digits.isEmpty || !digits.all Char.isDigit then none else some (negative, digits)

/-- The digits after the point of a number, if a text goes on with some, and what follows; without a
point there are none. A point needs at least one digit. -/
def fraction? : List Char → Option (List Char × List Char)
  | '.' :: rest =>
    match rest.takeWhile Char.isDigit with
    | [] => none
    | digits => some (digits, rest.dropWhile Char.isDigit)
  | rest => some ([], rest)

/-- The number with a sign and a significand, scaled by a power of ten and by an exponent that is
given by its digits. -/
def scaled? (negative : Bool) (significand : Nat) (exponent : Int)
    (further : Bool × List Char) : Option Number :=
  let (down, digits) := further
  let shift := ofDigits digits
  let magnitude :=
    if maxExponent < shift then
      if significand = 0 ∨ down then some 0.0 else none
    else scale? significand (if down then exponent - shift else exponent + shift)
  magnitude.map fun x => .float (if negative then -x else x)

/-- The number that a word is. -/
def Number.ofWord? (word : List Char) : Option Number := do
  let (negative, unsigned) :=
    match word with
    | '-' :: rest => (true, rest)
    | rest => (false, rest)
  let whole := unsigned.takeWhile Char.isDigit
  let afterWhole := unsigned.dropWhile Char.isDigit
  guard (!whole.isEmpty && (whole.length = 1 || whole.head? != some '0'))
  let (fraction, afterFraction) ← fraction? afterWhole
  let (significand, excess) := gather 0 whole
  if fraction.isEmpty && afterFraction.isEmpty && excess.isEmpty then
    return signedInteger negative significand
  let (significand, dropped) := gather significand fraction
  let exponent := (excess.length : Int) - ((fraction.length - dropped.length : Nat) : Int)
  if afterFraction.isEmpty then scaled? negative significand exponent (false, [])
  else scaled? negative significand exponent (← exponentDigits? afterFraction)

end DocTemplate.Json
