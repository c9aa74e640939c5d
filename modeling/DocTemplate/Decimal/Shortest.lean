/-!
# The shortest decimal of a binary number

A floating point number stands for every real that rounds to it. Among the decimals in that interval
`shortest` picks one with the fewest digits, and of those the nearest to the number itself. All
comparisons are made on natural numbers: a grid of decimals with a given last place is searched by
its two points next to the number, and the first grid from the coarsest on with a point in the
interval is taken.
-/

namespace DocTemplate.Decimal

/-- The reals that round to a positive floating point number, as fractions with one denominator. -/
structure Interval where
  /-- The numerator of the lower end. -/
  low : Nat
  /-- The numerator of the number. -/
  value : Nat
  /-- The numerator of the upper end. -/
  high : Nat
  /-- The common denominator. -/
  denominator : Nat
  /-- Whether the two ends belong to the interval. -/
  closed : Bool

/-- A positive decimal: the natural number `digits` times ten to the power `exponent`. -/
structure Digits where
  /-- The digits as a natural number. -/
  digits : Nat
  /-- The place of the last digit. -/
  exponent : Int

/-- The interval of `mantissa * 2 ^ exponent`. The gap below a power of two is half as wide as the gap
above it, unless the number is among the smallest. -/
def Interval.ofBinary (mantissa : Nat) (exponent : Int) (narrowBelow : Bool) : Interval :=
  let low := 4 * mantissa - (if narrowBelow then 1 else 2)
  let value := 4 * mantissa
  let high := 4 * mantissa + 2
  let scale := Nat.pow 2 (exponent - 2).natAbs
  if 2 ≤ exponent then
    ⟨low * scale, value * scale, high * scale, 1, mantissa % 2 == 0⟩
  else
    ⟨low, value, high, scale, mantissa % 2 == 0⟩

namespace Interval

/-- The ends and the number with the unit moved to ten to the power `place`. -/
def atPlace (i : Interval) (place : Int) : Interval :=
  let scale := Nat.pow 10 place.natAbs
  if 0 ≤ place then { i with denominator := i.denominator * scale }
  else { i with low := i.low * scale, value := i.value * scale, high := i.high * scale }

/-- Whether a natural number lies in the interval. -/
def holds (i : Interval) (n : Nat) : Bool :=
  let n := n * i.denominator
  if i.closed then i.low ≤ n && n ≤ i.high else i.low < n && n < i.high

/-- The place of the leading digit of the number, found by counting up or down from an estimate. -/
def leadingPlace (i : Interval) : Int :=
  let quotient := i.value / i.denominator
  if quotient = 0 then
    let estimate := ((i.denominator / i.value).log2 * 3 / 10 : Nat)
    climb i (-(estimate : Int) - 4) 10
  else
    let estimate := (quotient.log2 * 3 / 10 : Nat)
    climb i ((estimate : Int) - 1) 10
where
  /-- The last place from `place` on, within some steps, with a grid point not above the number. -/
  climb (i : Interval) (place : Int) : Nat → Int
    | 0 => place
    | steps + 1 =>
      let next := i.atPlace (place + 1)
      if next.denominator ≤ next.value then climb i (place + 1) steps else place

/-- The point of the grid of a place that lies in the interval and is nearest to the number, with
`up` deciding between two that are equally near. -/
def nearest? (i : Interval) (up : Nat → Bool) (place : Int) : Option Nat :=
  let j := i.atPlace place
  let below := j.value / j.denominator
  let above := below + 1
  let distance := 2 * (j.value % j.denominator)
  match j.holds below, j.holds above with
  | false, false => none
  | true, false => some below
  | false, true => some above
  | true, true =>
    if distance < j.denominator then some below
    else if j.denominator < distance then some above
    else if up below then some above
    else some below

end Interval

/-- A decimal without zeros at its end. -/
def Digits.trimZeros (digits : Nat) (exponent : Int) : Nat → Digits
  | 0 => ⟨digits, exponent⟩
  | steps + 1 =>
    if digits % 10 == 0 then trimZeros (digits / 10) (exponent + 1) steps else ⟨digits, exponent⟩

/-- The greatest number of digits that can be needed. -/
def maxDigits : Nat := 17

/-- The shortest decimal in an interval, nearest to the number. Of two that are equally near, with
`n` and `n + 1` on the grid, the upper one is taken if `up n`. -/
def shortest (up : Nat → Bool) (i : Interval) : Digits :=
  let leading := i.leadingPlace
  search leading maxDigits
where
  /-- Search the grids from the one with a given last place on. -/
  search (place : Int) : Nat → Digits
    | 0 => ⟨(i.atPlace place).value / (i.atPlace place).denominator, place⟩
    | steps + 1 =>
      match i.nearest? up place with
      | some n => Digits.trimZeros n place maxDigits
      | none => search (place - 1) steps

end DocTemplate.Decimal
