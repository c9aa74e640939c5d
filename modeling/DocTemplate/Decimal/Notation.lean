import DocTemplate.Decimal.Shortest

/-!
# Writing floating point numbers

How a number is written is fixed by a `Style`: between which places of its leading digit it is
written positionally, whether a whole number keeps a zero after its point, whether a positive
exponent has a sign, how two equally short decimals are told apart, and what stands for the numbers
that are not finite.
-/

namespace DocTemplate.Decimal

/-- The decisions that fix how a number is written. -/
structure Style where
  /-- Whether a number whose leading digit has a place is written positionally. -/
  positional : Int → Bool
  /-- Whether a whole number in positional notation ends in a point and a zero. -/
  keepsPoint : Bool
  /-- The sign of a positive exponent. -/
  exponentSign : String
  /-- Of two equally near decimals, whether the one above a number of units is taken. -/
  tieUp : Nat → Bool
  /-- What stands for infinity. -/
  infinity : String
  /-- What stands for what is not a number. -/
  notANumber : String

namespace Style

/-- The decimal of digits with a leading place, without a sign. -/
def writeDigits (style : Style) (d : Digits) : String :=
  let digits := toString d.digits
  let count := digits.length
  let leading := d.exponent + (count : Int) - 1
  if style.positional leading then
    if 0 ≤ d.exponent then
      digits ++ "".pushn '0' d.exponent.toNat ++ (if style.keepsPoint then ".0" else "")
    else if 0 ≤ leading then
      let whole := leading.toNat + 1
      String.ofList (digits.toList.take whole) ++ "." ++ String.ofList (digits.toList.drop whole)
    else
      "0." ++ "".pushn '0' (-leading - 1).toNat ++ digits
  else
    let fraction := digits.toList.drop 1
    String.ofList (digits.toList.take 1) ++
      (if fraction.isEmpty then "" else "." ++ String.ofList fraction) ++
      "e" ++ (if 0 ≤ leading then style.exponentSign else "-") ++ toString leading.natAbs

/-- The text of a number with a given pattern of bits in the double format. -/
def writeBits (style : Style) (bits : Nat) : String :=
  let sign := if bits / Nat.pow 2 63 = 1 then "-" else ""
  let exponent : Nat := bits / Nat.pow 2 52 % Nat.pow 2 11
  let fraction : Nat := bits % Nat.pow 2 52
  if exponent = 2047 then
    if fraction = 0 then sign ++ style.infinity else style.notANumber
  else if exponent = 0 ∧ fraction = 0 then
    sign ++ (if style.keepsPoint then "0.0" else "0")
  else
    let interval :=
      if exponent = 0 then Interval.ofBinary fraction (-1074) false
      else Interval.ofBinary (Nat.pow 2 52 + fraction) ((exponent : Int) - 1075)
        (fraction == 0 && exponent != 1)
    sign ++ style.writeDigits (shortest style.tieUp interval)

/-- The text of a number. -/
def write (style : Style) (x : Float) : String :=
  style.writeBits x.toBits.toNat

end Style

/-- Of two equally near decimals the one with an even last digit. -/
def tieToEven (below : Nat) : Bool :=
  below % 2 == 1

/-- Numbers in data texts: positional from a hundred thousandth up to a thousand million million,
with a point always and a sign before every exponent. -/
def dataStyle : Style where
  positional := fun leading => -5 ≤ leading && leading ≤ 15
  keepsPoint := true
  exponentSign := "+"
  tieUp := tieToEven
  infinity := "inf"
  notANumber := "nan"

/-- Numbers in front matter: as in data texts, but a positive exponent has no sign, and a dot stands
before the names of the numbers that are not finite. -/
def frontMatterStyle : Style where
  positional := fun leading => -5 ≤ leading && leading ≤ 15
  keepsPoint := true
  exponentSign := ""
  tieUp := tieToEven
  infinity := ".inf"
  notANumber := ".nan"

/-- Numbers written out: positional whatever their size, without a point if whole. -/
def plainStyle : Style where
  positional := fun _ => true
  keepsPoint := false
  exponentSign := ""
  tieUp := fun _ => true
  infinity := "inf"
  notANumber := "NaN"

end DocTemplate.Decimal
