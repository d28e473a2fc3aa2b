import LineScript.Text.Property

/-!
# Quoted text

The form in which a text is shown inside a diagnostic: between double quotes, with a backslash in
front of a quote or backslash, and with every character that cannot be seen by itself written as an
escape.
-/

namespace LineScript.Text

/-- Small hexadecimal digits of a number, last digit first. -/
def smallHexReversed (value : Nat) : List Char :=
  if value < 16 then [Nat.digitChar value]
  else Nat.digitChar (value % 16) :: smallHexReversed (value / 16)
termination_by value

/-- An escape that names a code point. -/
def codeEscape (c : Char) : List Char :=
  ['\\', 'u', '\x7b'] ++ (smallHexReversed c.toNat).reverse ++ ['\x7d']

/-- How one character stands inside quotes. -/
def quotedChar (c : Char) : List Char :=
  match c with
  | '\x00' => ['\\', '0']
  | '\t' => ['\\', 't']
  | '\r' => ['\\', 'r']
  | '\n' => ['\\', 'n']
  | '"' => ['\\', '"']
  | '\\' => ['\\', '\\']
  | c => if isAttached c || isInvisible c then codeEscape c else [c]

/-- The text between double quotes. -/
def quoted (text : String) : String :=
  String.ofList ('"' :: text.toList.flatMap quotedChar ++ ['"'])

end LineScript.Text
