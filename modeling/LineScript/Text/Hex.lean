import LineScript.Text.Utf8

/-!
# Hexadecimal digits

Bytes are written as two capital hexadecimal digits each. Reading accepts digits of both cases, and
an odd number of them, which then stand for a text with a zero in front.
-/

namespace LineScript.Text.Hex

/-- The value of a hexadecimal digit of either case. -/
def digit? (c : Char) : Option Nat :=
  if '0' ≤ c ∧ c ≤ '9' then some (c.toNat - '0'.toNat)
  else if 'a' ≤ c ∧ c ≤ 'f' then some (c.toNat - 'a'.toNat + 10)
  else if 'A' ≤ c ∧ c ≤ 'F' then some (c.toNat - 'A'.toNat + 10)
  else none

/-- A hexadecimal digit of either case. -/
def isDigit (c : Char) : Bool := (digit? c).isSome

/-- The capital digit of a value below sixteen. -/
def digitChar (value : Nat) : Char :=
  if value < 10 then Char.ofNat ('0'.toNat + value) else Char.ofNat ('A'.toNat + (value - 10))

/-- Bytes from consecutive pairs of digits. -/
def decodePairs : List Char → Option Bytes
  | [] => some []
  | high :: low :: rest => do
    let h ← digit? high
    let l ← digit? low
    let bytes ← decodePairs rest
    return UInt8.ofNat (h * 16 + l) :: bytes
  | [_] => none

/-- The bytes that a text of digits stands for. An odd number of digits is read with a zero in
front; a character that is no digit makes the whole text unreadable. -/
def decode? (digits : String) : Option Bytes :=
  let chars := digits.toList
  decodePairs (if chars.length % 2 = 1 then '0' :: chars else chars)

/-- Two capital digits for each byte. -/
def encode (bytes : Bytes) : String :=
  String.ofList (bytes.flatMap fun byte =>
    [digitChar (byte.toNat / 16), digitChar (byte.toNat % 16)])

/-- A number in capital digits, last digit first. -/
def reversedDigits (value : Nat) : List Char :=
  if value < 16 then [digitChar value]
  else digitChar (value % 16) :: reversedDigits (value / 16)
termination_by value

/-- A number in capital digits, with zeros in front up to `width` digits. -/
def ofNat (width value : Nat) : String :=
  let digits := (reversedDigits value).reverse
  String.ofList (List.replicate (width - digits.length) '0' ++ digits)

end LineScript.Text.Hex
