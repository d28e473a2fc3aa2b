import LineScript.Library.Args
import LineScript.Machine.Variables
import LineScript.Value.Operation

/-!
# Library: numbers
-/

namespace LineScript.Library

open Decimal

/-- The size of a number; the least whole number has none of 64 bits and becomes a double. -/
def abs : Value → Value
  | .number n =>
    match Value.fitInt64? n.toInt.natAbs with
    | some size => .number size
    | none => .double (Value.floatOfInt64 n).abs
  | other => Value.ofFloat other.asNumber.abs

/-- A number rounded to at most fifteen decimals; a half goes away from zero. -/
def round (args : Args) : Value :=
  let decimals := max 0 (min 15 (args.int 1).toInt)
  let factor := Float.ofNat (Nat.pow 10 decimals.toNat)
  Value.ofFloat (rounded (args.number 0 * factor) / factor)

/-- The square root; a negative number has none. -/
def sqrt (args : Args) : Exec Value := do
  let x := args.number 0
  if x < 0 then
    Machine.setError 1
    return .number 0
  return Value.ofFloat x.sqrt

/-- The remainder of the truncated division, with the sign of the dividend. -/
def mod (args : Args) : Exec Value := do
  if (args.value 1).asNumber == 0 then
    Machine.setError 1
    return .number 0
  match args.value 0, args.value 1 with
  | .number a, .number b => return .number (Int64.ofInt (Int.tmod a.toInt b.toInt))
  | left, right => return Value.ofFloat (remainder left.asNumber right.asNumber)

/-- The least whole number of 64 bits that is not below a double. -/
def ceilInt64 (x : Float) : Int64 :=
  match Binary.ofFloat? x with
  | some value => Value.clampInt64 (ceiled value)
  | none => if x.isNaN then 0 else if x < 0 then Int64.minValue else Int64.maxValue

/-- The greatest whole number of 64 bits that is not above a double. -/
def floorInt64 (x : Float) : Int64 :=
  match Binary.ofFloat? x with
  | some value => Value.clampInt64 (floored value)
  | none => if x.isNaN then 0 else if x < 0 then Int64.minValue else Int64.maxValue

/-- What the generator of the host draws next. -/
def draw {α : Type} (next : Generator → UInt64 → α × UInt64) : Exec α := do
  let machine ← get
  let (drawn, random) := next machine.host.generator machine.host.random
  set { machine with host := { machine.host with random } }
  return drawn

/-- A random double between two, the lower one included. There is none when one of them is no number
or they are too far apart. -/
def drawDouble (low high : Float) : Exec Value := do
  if low < high ∧ (high - low).isFinite then
    return .double (← draw fun generator => generator.double low high)
  else Exec.crash .range

/-- A random number. One argument is the upper end; with flag one the number is whole. -/
def random (args : Args) : Exec Value := do
  let (low, high) :=
    if args.supplied = 1 then (0, args.number 0) else (args.number 0, args.number 1)
  if high < low then
    Machine.setError 1
    return .number 0
  if args.int 2 = 1 then
    let (first, last) := (ceilInt64 low, floorInt64 high)
    if last < first then
      Machine.setError 1
      return .number 0
    return .number (← draw fun generator => generator.integer first last)
  else if low == high then return .double low
  else drawDouble low high

end LineScript.Library
