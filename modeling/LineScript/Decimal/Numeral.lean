import LineScript.Decimal.Digits

/-!
# Numerals

Writing and reading numbers as text. A double is written positionally with the fewest digits that
read back (`positional`), or with an exponent when it is very large or very small (`exact`).
Reading accepts whole numbers that fit in 64 bits (`readInteger?`) and decimal numerals with an
optional fraction and exponent (`readDecimal?`).
-/

namespace LineScript.Decimal

/-- The decimal digits of a natural number. -/
def digitsOf (n : Nat) : List Char := Nat.toDigits 10 n

/-- Digits with a decimal point: `point` of them stand in front of it, zeros filling up either
side. -/
def placed (digits : List Char) (point : Int) : List Char :=
  if point ≤ 0 then
    '0' :: '.' :: (List.replicate (-point).toNat '0' ++ digits)
  else if (digits.length : Int) ≤ point then
    digits ++ List.replicate (point.toNat - digits.length) '0'
  else
    digits.take point.toNat ++ '.' :: digits.drop point.toNat

/-- A minus sign in front of the text of a negative number. -/
def withSign (negative : Bool) (text : List Char) : List Char :=
  if negative then '-' :: text else text

/-- The text of an infinity or a NaN. -/
def unbounded (x : Float) : String :=
  if x.isNaN then "NaN" else if x < 0 then "-inf" else "inf"

/-- Positional text with the fewest digits that read back. -/
def positional (x : Float) : String :=
  match Binary.ofFloat? x with
  | none => unbounded x
  | some value =>
    if value.mantissa = 0 then String.ofList (withSign value.negative ['0'])
    else
      let scaled := shortest value.mantissa value.exponent
      let digits := digitsOf scaled.digits
      String.ofList (withSign value.negative (placed digits (digits.length + scaled.exponent)))

/-- Text that shows a double to be one: always a point or an exponent, the exponent from `1e16`
up and below `1e-4`. -/
def exact (x : Float) : String :=
  match Binary.ofFloat? x with
  | none => unbounded x
  | some value =>
    if value.mantissa = 0 then String.ofList (withSign value.negative ['0', '.', '0'])
    else
      let scaled := shortest value.mantissa value.exponent
      let digits := digitsOf scaled.digits
      let point : Int := digits.length + scaled.exponent
      let body :=
        if -3 ≤ point ∧ point ≤ 16 then
          placed digits point ++ (if (digits.length : Int) ≤ point then ['.', '0'] else [])
        else
          digits.take 1 ++ (if digits.length = 1 then [] else '.' :: digits.drop 1) ++
            'e' :: (toString (point - 1)).toList
      String.ofList (withSign value.negative body)

/-- The double nearest to `x` among those with at most fifteen significant digits. -/
def toFifteenDigits (x : Float) : Float :=
  match Binary.ofFloat? x with
  | none => x
  | some value =>
    if value.mantissa = 0 then x
    else
      let scaled := significant 15 value.mantissa value.exponent
      let size := Float.ofScientific scaled.digits (scaled.exponent < 0) scaled.exponent.natAbs
      if value.negative then -size else size

/-- Removes one sign and tells whether it was a minus. -/
def splitSign : List Char → Bool × List Char
  | '-' :: rest => (true, rest)
  | '+' :: rest => (false, rest)
  | chars => (false, chars)

/-- The value of a text of decimal digits. -/
def digitsValue (digits : List Char) : Nat :=
  digits.foldl (fun value c => value * 10 + (c.toNat - '0'.toNat)) 0

/-- A whole number with an optional sign that fits in 64 bits. -/
def readInteger? (chars : List Char) : Option Int64 :=
  let (negative, digits) := splitSign chars
  if digits ≠ [] ∧ digits.all Char.isDigit then
    let value : Int := if negative then -(digitsValue digits : Int) else digitsValue digits
    if Int64.minValue.toInt ≤ value ∧ value ≤ Int64.maxValue.toInt then some (Int64.ofInt value)
    else none
  else none

/-- `digits * 10 ^ exponent` as the nearest double, for a number of `length` digits; exponents far
outside the range of doubles give zero or infinity without being computed. -/
def nearestDouble (digits : Nat) (length : Nat) (exponent : Int) : Float :=
  if digits = 0 then 0.0
  else if 400 < exponent + length then 1.0 / 0.0
  else if exponent + length < -400 then 0.0
  else Float.ofScientific digits (exponent < 0) exponent.natAbs

/-- The exponent part of a numeral, when the whole of what is left is one. -/
def readExponent? : List Char → Option Int
  | [] => some 0
  | mark :: rest =>
    if mark = 'e' ∨ mark = 'E' then
      let (negative, digits) := splitSign rest
      if digits ≠ [] ∧ digits.all Char.isDigit then
        some (if negative then -(digitsValue digits : Int) else digitsValue digits)
      else none
    else none

/-- A numeral without sign: digits with an optional point, at least one digit in all, and an
optional exponent. -/
def readUnsigned? (chars : List Char) : Option Float := do
  let whole := chars.takeWhile Char.isDigit
  let afterWhole := chars.dropWhile Char.isDigit
  let (fraction, rest) :=
    match afterWhole with
    | '.' :: tail => (tail.takeWhile Char.isDigit, tail.dropWhile Char.isDigit)
    | _ => ([], afterWhole)
  if whole.isEmpty && fraction.isEmpty then none
  else
    let exponent ← readExponent? rest
    let digits := (whole ++ fraction).dropWhile (· == '0')
    return nearestDouble (digitsValue digits) digits.length (exponent - fraction.length)

/-- The words for values that are no numerals, in letters of either case. -/
def readWord? (chars : List Char) : Option Float :=
  let word := String.ofList (chars.map Char.toLower)
  if word == "inf" || word == "infinity" then some (1.0 / 0.0)
  else if word == "nan" then some (0.0 / 0.0)
  else none

/-- A decimal numeral, an infinity or a NaN, with an optional sign. -/
def readDecimal? (chars : List Char) : Option Float := do
  let (negative, rest) := splitSign chars
  let size ← (readUnsigned? rest).or (readWord? rest)
  return if negative then -size else size

end LineScript.Decimal
