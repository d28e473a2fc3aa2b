import LineScript.Fault.Report
import LineScript.Text.Case
import LineScript.Value.Basic

/-!
# Operations on values

The binary operators of the language, negation, and the two comparisons that operators and case
selection share. Whole numbers are added, subtracted and multiplied exactly while the result fits
in 64 bits; every other arithmetic goes through doubles. Equality and order are numeric or by
text without regard to case.
-/

namespace LineScript

open Text

/-- Operators that assign. -/
def isAssignment (operator : String) : Bool :=
  ["=", "+=", "-=", "*=", "/=", "&="].contains operator

/-- The operator that an assignment applies before it stores. -/
def compoundBase? (operator : String) : Option String :=
  match operator with
  | "+=" => some "+"
  | "-=" => some "-"
  | "*=" => some "*"
  | "/=" => some "/"
  | "&=" => some "&"
  | _ => none

namespace Value

/-- An integer as a whole number of 64 bits, if it fits. -/
def fitInt64? (n : Int) : Option Int64 :=
  if Int64.minValue.toInt ≤ n ∧ n ≤ Int64.maxValue.toInt then some (Int64.ofInt n) else none

/-- The exact result of an arithmetic operator on whole numbers, if it is defined without doubles
and fits. -/
def exactArithmetic? (operator : String) (a b : Int64) : Option Int64 :=
  match operator with
  | "+" => fitInt64? (a.toInt + b.toInt)
  | "-" => fitInt64? (a.toInt - b.toInt)
  | "*" => fitInt64? (a.toInt * b.toInt)
  | _ => none

/-- An arithmetic operator on doubles; any operator but the first three divides. -/
def floatArithmetic (operator : String) (a b : Float) (line : Nat) : Except Fault Value :=
  match operator with
  | "+" => .ok (ofFloat (a + b))
  | "-" => .ok (ofFloat (a - b))
  | "*" => .ok (ofFloat (a * b))
  | _ =>
    if b == 0 then .error (.running .divisionByZero line [])
    else .ok (ofFloat (a / b))

/-- Addition, subtraction, multiplication and division. -/
def arithmetic (operator : String) (left right : Value) (line : Nat) : Except Fault Value :=
  match left, right with
  | number a, number b =>
    match exactArithmetic? operator a b with
    | some n => .ok (number n)
    | none => floatArithmetic operator left.asNumber right.asNumber line
  | _, _ => floatArithmetic operator left.asNumber right.asNumber line

/-- The value with the other sign. -/
def negate : Value → Value
  | number n =>
    match fitInt64? (-n.toInt) with
    | some negated => number negated
    | none => double (-floatOfInt64 n)
  | other => ofFloat (-other.asNumber)

/-- The value after a plus sign: numbers stay as they are, everything else becomes a number. -/
def signed : Value → Value
  | number n => number n
  | double x => double x
  | other => ofFloat other.asNumber

/-- Equality: of numbers when both values are numeric, else of texts without regard to case. -/
def looseEquals (left right : Value) : Bool :=
  if left.isNumeric && right.isNumeric then left.asNumber == right.asNumber
  else lower left.display == lower right.display

/-- The order of two doubles; a NaN counts as equal to everything. -/
def compareFloats (a b : Float) : Ordering :=
  if a < b then .lt else if b < a then .gt else .eq

/-- The order of two texts, character by character. -/
def compareTexts (a b : String) : Ordering :=
  if a < b then .lt else if b < a then .gt else .eq

/-- Order: of numbers when one of the values is numeric, else of texts without regard to case. -/
def compare (left right : Value) : Ordering :=
  if left.isNumeric || right.isNumeric then compareFloats left.asNumber right.asNumber
  else compareTexts (lower left.display) (lower right.display)

/-- What a binary operator makes of two values. -/
def combine (operator : String) (left right : Value) (line : Nat) : Except Fault Value :=
  match operator with
  | "&" => .ok (string (left.display ++ right.display))
  | "+" | "-" | "*" | "/" => arithmetic operator left right line
  | "=" => .ok (bool (looseEquals left right))
  | "==" => .ok (bool (left.display == right.display))
  | "<>" => .ok (bool (!looseEquals left right))
  | "<" => .ok (bool (compare left right == .lt))
  | ">" => .ok (bool (compare left right == .gt))
  | "<=" => .ok (bool (compare left right != .gt))
  | ">=" => .ok (bool (compare left right != .lt))
  | _ => .error (.running (.operatorUnknown operator) line [])

end Value

end LineScript
