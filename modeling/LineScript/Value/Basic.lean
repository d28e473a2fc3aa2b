import LineScript.Decimal.Numeral
import LineScript.Text.Hex

/-!
# Values of a script

A value is a text, a whole number of 64 bits, a double, a truth value, bytes, a handle to an
object of the heap, a function's name or one of the two keywords. Any value can be read as a
number, a whole number, a truth value, bytes or text; these readings are defined here.
-/

namespace LineScript

open Text Decimal

/-- The number of an object of the heap. -/
abbrev HandleId := Nat

/-- How a handle is shown: at least eight hexadecimal digits. -/
def HandleId.display (id : HandleId) : String := "0x" ++ Hex.ofNat 8 id

/-- A value of a script. -/
inductive Value where
  /-- A text. -/
  | string (text : String)
  /-- A whole number. -/
  | number (n : Int64)
  /-- A floating-point number. -/
  | double (x : Float)
  /-- A truth value. -/
  | bool (b : Bool)
  /-- Raw bytes. -/
  | binary (bytes : Bytes)
  /-- An object of the heap. -/
  | handle (id : HandleId)
  /-- A function named without being called. -/
  | function (name : String)
  /-- The keyword that asks for a parameter's default. -/
  | defaultWord
  /-- The keyword for no value. -/
  | null
deriving DecidableEq

namespace Value

/-- Doubles from here on are not turned into whole numbers. -/
def wholeLimit : Float := 9.0e15

/-- A whole number that keeps within the limit of exact conversion. -/
def isPlainWhole (x : Float) : Bool :=
  isWhole x && x.abs < wholeLimit

/-- The whole number nearest to an integer among those of 64 bits. -/
def clampInt64 (n : Int) : Int64 :=
  if n < Int64.minValue.toInt then Int64.minValue
  else if Int64.maxValue.toInt < n then Int64.maxValue
  else Int64.ofInt n

/-- The whole part of a double as a whole number of 64 bits, the nearest one when it does not
fit. -/
def toInt64 (x : Float) : Int64 := clampInt64 (truncated x)

/-- The double nearest to a whole number. -/
def floatOfInt64 (n : Int64) : Float := Float.ofInt n.toInt

/-- The result of an arithmetic operation: a whole number where it is one, a double otherwise. -/
def ofFloat (x : Float) : Value :=
  if isPlainWhole x then number (toInt64 x) else double x

/-- Blanks, tabs and line ends are dropped from a text before it is read as a number. -/
def isNumberNoise (c : Char) : Bool :=
  c == '\r' || c == '\n' || c == '\t' || c == ' '

/-- The number a text stands for: a whole number where it is one of 64 bits, else a double, and
zero for a text that is no numeral. -/
def parseNumber (text : String) : Value :=
  let chars := text.toList.filter fun c => !isNumberNoise c
  match readInteger? chars with
  | some n => number n
  | none =>
    match readDecimal? chars with
    | some x => double x
    | none => number 0

/-- The number a text stands for, as a double. -/
def parseFloat (text : String) : Float :=
  match parseNumber text with
  | number n => floatOfInt64 n
  | double x => x
  | _ => 0

/-- Numbers and truth values. -/
def isNumeric : Value → Bool
  | number _ | double _ | bool _ => true
  | _ => false

/-- The value as a number. Texts and bytes are read as numerals; handles, functions and keywords
are zero. -/
def asNumber : Value → Float
  | number n => floatOfInt64 n
  | double x => x
  | bool b => if b then 1 else 0
  | string text => parseFloat text
  | binary bytes => parseFloat (Utf8.decode bytes)
  | handle _ | function _ | defaultWord | null => 0

/-- The value as a whole number: the whole part of its number, zero when that is not finite. -/
def asInt : Value → Int64
  | number n => n
  | other => toInt64 other.asNumber

/-- Whether the value counts as true: positive numbers, texts and bytes that are not empty, handles,
functions and the default keyword do. -/
def asBool : Value → Bool
  | bool b => b
  | number n => 0 < n
  | double x => 0 < x
  | binary bytes => !bytes.isEmpty
  | string text => !text.isEmpty
  | null => false
  | handle _ | function _ | defaultWord => true

/-- The text of a double: as a whole number where it is one, else with fifteen significant digits,
which hide the noise of binary fractions. -/
def displayFloat (x : Float) : String :=
  if isPlainWhole x then toString (truncated x) else positional (toFifteenDigits x)

/-- The text of a value. -/
def display : Value → String
  | string text => text
  | number n => toString n.toInt
  | double x => displayFloat x
  | bool b => if b then "True" else "False"
  | binary bytes => Utf8.decode bytes
  | handle id => id.display
  | function name => name
  | defaultWord => "Default"
  | null => ""

/-- The bytes of a value: its own, or those of its text. -/
def asBytes : Value → Bytes
  | binary bytes => bytes
  | other => Utf8.encode other.display

/-- The object that a value refers to. -/
def asHandle? : Value → Option HandleId
  | handle id => some id
  | _ => none

/-- The name of a value's type; whole numbers are told apart by the width they need. -/
def typeName : Value → String
  | string _ => "String"
  | number n => if -2147483648 ≤ n.toInt ∧ n.toInt ≤ 2147483647 then "Int32" else "Int64"
  | double _ => "Double"
  | bool _ => "Bool"
  | binary _ => "Binary"
  | handle _ => "Ptr"
  | function _ => "Function"
  | defaultWord | null => "Keyword"

end Value

end LineScript
