/-!
# Doubles as exact numbers

A finite double is a sign, a natural mantissa and a binary exponent. Everything that needs the
exact value of a double starts here: its whole part, whether it is whole, rounding to a neighbour
among the integers, and the remainder of a division.
-/

namespace LineScript.Decimal

/-- The exact value of a finite double: `mantissa * 2 ^ exponent`, negated when `negative`. -/
structure Binary where
  /-- The sign bit. -/
  negative : Bool
  /-- The digits, as one natural number. -/
  mantissa : Nat
  /-- The power of two that scales them. -/
  exponent : Int
deriving Repr, DecidableEq

namespace Binary

/-- The exact value of a double, or nothing for an infinity or a NaN. -/
def ofFloat? (x : Float) : Option Binary :=
  let bits := x.toBits.toNat
  let negative := 1 <<< 63 ≤ bits
  let biased : Nat := (bits >>> 52) % 2048
  let fraction : Nat := bits % (1 <<< 52)
  if biased = 2047 then none
  else if biased = 0 then some ⟨negative, fraction, -1074⟩
  else some ⟨negative, (1 <<< 52) + fraction, (biased : Int) - 1075⟩

/-- The size of the whole part. -/
def wholeSize (value : Binary) : Nat :=
  if 0 ≤ value.exponent then value.mantissa <<< value.exponent.toNat
  else value.mantissa >>> (-value.exponent).toNat

/-- The value has no fraction. -/
def isWhole (value : Binary) : Bool :=
  0 ≤ value.exponent || value.mantissa % (1 <<< (-value.exponent).toNat) == 0

/-- The fraction is at least one half. -/
def fractionAtLeastHalf (value : Binary) : Bool :=
  value.exponent < 0 &&
    1 <<< (-value.exponent).toNat ≤
      2 * (value.mantissa % (1 <<< (-value.exponent).toNat))

/-- Puts the sign of the value on a size. -/
def signed (value : Binary) (size : Nat) : Int :=
  if value.negative then -(size : Int) else size

end Binary

/-- The whole part of a double, the fraction dropped; zero for an infinity or a NaN. -/
def truncated (x : Float) : Int :=
  match Binary.ofFloat? x with
  | some value => value.signed value.wholeSize
  | none => 0

/-- The double is finite and has no fraction. -/
def isWhole (x : Float) : Bool :=
  match Binary.ofFloat? x with
  | some value => value.isWhole
  | none => false

/-- A natural number with a sign in front, so that a negative zero stays one. -/
def signedFloat (negative : Bool) (size : Nat) : Float :=
  if negative then -Float.ofNat size else Float.ofNat size

/-- The nearest whole double; a half goes away from zero. -/
def rounded (x : Float) : Float :=
  match Binary.ofFloat? x with
  | some value =>
    if value.isWhole then x
    else signedFloat value.negative
      (value.wholeSize + if value.fractionAtLeastHalf then 1 else 0)
  | none => x

/-- The greatest integer that is not above a finite double. -/
def floored (value : Binary) : Int :=
  if value.isWhole || !value.negative then value.signed value.wholeSize
  else -(value.wholeSize + 1 : Nat)

/-- The least integer that is not below a finite double. -/
def ceiled (value : Binary) : Int :=
  if value.isWhole || value.negative then value.signed value.wholeSize
  else (value.wholeSize + 1 : Nat)

/-- `size * 2 ^ exponent` as a double, for a size and exponent that a double can hold. -/
def scaledFloat (negative : Bool) (size : Nat) (exponent : Int) : Float :=
  let power := Float.ofBits (((exponent / 2 + 1023).toNat <<< 52).toUInt64)
  let rest := Float.ofBits (((exponent - exponent / 2 + 1023).toNat <<< 52).toUInt64)
  signedFloat negative size * power * rest

/-- What is left of `x` after taking away `y` as often as the truncated quotient says, with the
sign of `x`. The remainder of two doubles is a double, so nothing is rounded. -/
def remainder (x y : Float) : Float :=
  match Binary.ofFloat? x, Binary.ofFloat? y with
  | some dividend, some divisor =>
    if divisor.mantissa = 0 then 0.0 / 0.0
    else
      let exponent := min dividend.exponent divisor.exponent
      let left := dividend.mantissa <<< (dividend.exponent - exponent).toNat
      let right := divisor.mantissa <<< (divisor.exponent - exponent).toNat
      scaledFloat dividend.negative (left % right) exponent
  | some _, none => if y.isNaN then y else x
  | none, _ => 0.0 / 0.0

end LineScript.Decimal
