import LineScript.Decimal.Binary

/-!
# Decimal digits of a double

A positive number `mantissa * 2 ^ exponent` is measured against decimal grids in exact integer
arithmetic. `significant` rounds it to a given number of digits, a half to the even digit.
`shortest` finds the fewest digits that are nearer to this double than to any other, and among
those the ones nearest to its value.
-/

namespace LineScript.Decimal

/-- A positive decimal number `digits * 10 ^ exponent`. -/
structure Scaled where
  /-- The digits as one natural number. -/
  digits : Nat
  /-- The power of ten that scales them. -/
  exponent : Int
deriving Repr, DecidableEq

namespace Scaled

/-- Takes zeros off the end of the digits; `fuel` bounds how many. -/
def trimBounded : (fuel : Nat) → Scaled → Scaled
  | 0, value => value
  | fuel + 1, value =>
    if value.digits ≠ 0 ∧ value.digits % 10 = 0 then
      trimBounded fuel ⟨value.digits / 10, value.exponent + 1⟩
    else
      value

/-- The same number with no zero at the end of its digits. -/
def trim (value : Scaled) : Scaled := trimBounded value.digits.log2 value

end Scaled

/-- How `mantissa * 2 ^ exponent` stands on the grid of multiples of `10 ^ grid`: it is
`numerator / denominator` steps from zero. -/
structure OnGrid where
  /-- Steps, before division. -/
  numerator : Nat
  /-- What to divide the steps by. -/
  denominator : Nat

/-- Places a binary number on a decimal grid. -/
def onGrid (mantissa : Nat) (exponent grid : Int) : OnGrid :=
  { numerator := (mantissa <<< exponent.toNat) * Nat.pow 10 (-grid).toNat
    denominator := (1 <<< (-exponent).toNat) * Nat.pow 10 grid.toNat }

/-- `mantissa * 2 ^ exponent` is at least `10 ^ power`. -/
def reachesPower (mantissa : Nat) (exponent power : Int) : Bool :=
  let place := onGrid mantissa exponent power
  place.denominator ≤ place.numerator

/-- The number of digits in front of the decimal point, or minus the number of zeros after it:
`10 ^ (k - 1) ≤ mantissa * 2 ^ exponent < 10 ^ k`. -/
def magnitude (mantissa : Nat) (exponent : Int) : Int :=
  let guess := Int.fdiv ((mantissa.log2 + exponent) * 30103) 100000
  match [guess + 2, guess + 1, guess, guess - 1].find? (reachesPower mantissa exponent ·) with
  | some power => power + 1
  | none => guess - 1

/-- The number rounded to `count` significant digits, a half to the even digit. -/
def significant (count mantissa : Nat) (exponent : Int) : Scaled :=
  let grid := magnitude mantissa exponent - count
  let place := onGrid mantissa exponent grid
  let below := place.numerator / place.denominator
  let rest := 2 * (place.numerator % place.denominator)
  let up := place.denominator < rest ∨ (place.denominator = rest ∧ below % 2 = 1)
  ⟨if up then below + 1 else below, grid⟩

/-- The numbers that read back as this double lie between these two, in quarters of its last
place; the flag says whether the two ends do too. -/
def readBack (mantissa : Nat) (exponent : Int) : Nat × Nat × Bool :=
  let narrow := mantissa = 1 <<< 52 ∧ exponent ≠ -1074
  (4 * mantissa - (if narrow then 1 else 2), 4 * mantissa + 2, mantissa % 2 = 0)

/-- The nearest multiple of `10 ^ grid` that reads back as this double, if one of the two
multiples beside its value does. -/
def gridPoint? (mantissa : Nat) (exponent grid : Int) : Option Nat :=
  let (low, high, closed) := readBack mantissa exponent
  let lowPlace := (onGrid low (exponent - 2) grid).numerator
  let highPlace := (onGrid high (exponent - 2) grid).numerator
  let place := onGrid (4 * mantissa) (exponent - 2) grid
  let inside (steps : Nat) : Bool :=
    let at' := steps * place.denominator
    if closed then lowPlace ≤ at' && at' ≤ highPlace else lowPlace < at' && at' < highPlace
  let below := place.numerator / place.denominator
  let rest := place.numerator % place.denominator
  match inside below, inside (below + 1) with
  | true, true => some (if 2 * rest ≤ place.denominator then below else below + 1)
  | true, false => some below
  | false, true => some (below + 1)
  | false, false => none

/-- The fewest digits that read back as this double. Seventeen always do. -/
def shortest (mantissa : Nat) (exponent : Int) : Scaled :=
  let size := magnitude mantissa exponent
  let found := (List.range 17).findSome? fun less =>
    let grid := size - (less + 1 : Nat)
    (gridPoint? mantissa exponent grid).map fun steps => Scaled.mk steps grid
  (found.getD (significant 17 mantissa exponent)).trim

end LineScript.Decimal
