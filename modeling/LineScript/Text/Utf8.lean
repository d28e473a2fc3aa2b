/-!
# Bytes as text

`decode` reads bytes as UTF-8. Bytes that belong to no character are not refused: each longest run
that starts a character and cannot be finished becomes one replacement character, so every byte
list has a text. `encode` gives the bytes of a text.
-/

namespace LineScript.Text

/-- Bytes in file order. -/
abbrev Bytes := List UInt8

namespace Utf8

/-- The character that stands for bytes that are no character. -/
def replacement : Char := Char.ofNat 0xFFFD

/-- The second byte that may follow a first byte, as least and greatest value, with the number of
further bytes and the bits of the first byte that count. -/
def shape? (first : Nat) : Option (Nat × Nat × Nat × Nat) :=
  if 0xC2 ≤ first ∧ first ≤ 0xDF then some (0x80, 0xBF, 0, first - 0xC0)
  else if first = 0xE0 then some (0xA0, 0xBF, 1, 0)
  else if first = 0xED then some (0x80, 0x9F, 1, 0xD)
  else if 0xE1 ≤ first ∧ first ≤ 0xEF then some (0x80, 0xBF, 1, first - 0xE0)
  else if first = 0xF0 then some (0x90, 0xBF, 2, 0)
  else if 0xF1 ≤ first ∧ first ≤ 0xF3 then some (0x80, 0xBF, 2, first - 0xF0)
  else if first = 0xF4 then some (0x80, 0x8F, 2, 4)
  else none

/-- Reads `count` continuation bytes onto the bits `code`, and returns the character, or its
replacement where a byte does not continue it, with the bytes after what was read. -/
def continuation (code : Nat) : (count : Nat) → Bytes → Char × Bytes
  | 0, bytes => (Char.ofNat code, bytes)
  | _ + 1, [] => (replacement, [])
  | count + 1, byte :: rest =>
    if 0x80 ≤ byte.toNat ∧ byte.toNat ≤ 0xBF then
      continuation (code * 64 + (byte.toNat - 0x80)) count rest
    else
      (replacement, byte :: rest)

/-- Reads one character, or one replacement, from the bytes after `first`. -/
def afterFirst (first : UInt8) (rest : Bytes) : Char × Bytes :=
  if first.toNat < 0x80 then (Char.ofNat first.toNat, rest)
  else
    match shape? first.toNat, rest with
    | some (least, greatest, count, code), second :: tail =>
      if least ≤ second.toNat ∧ second.toNat ≤ greatest then
        continuation (code * 64 + (second.toNat - 0x80)) count tail
      else
        (replacement, second :: tail)
    | some _, [] => (replacement, [])
    | none, _ => (replacement, rest)

/-- Reading continuation bytes never lengthens the remaining bytes. -/
theorem continuation_length_le (code count : Nat) (bytes : Bytes) :
    (continuation code count bytes).2.length ≤ bytes.length := by
  induction count generalizing code bytes with
  | zero => simp [continuation]
  | succ count ih =>
    cases bytes with
    | nil => simp [continuation]
    | cons byte rest =>
      simp only [continuation]
      split
      · exact Nat.le_succ_of_le (ih _ rest)
      · simp

/-- Reading one character leaves no more bytes than stood after its first. -/
theorem afterFirst_length_le (first : UInt8) (rest : Bytes) :
    (afterFirst first rest).2.length ≤ rest.length := by
  unfold afterFirst
  split
  · exact Nat.le_refl _
  · split
    · split
      · exact Nat.le_succ_of_le (continuation_length_le _ _ _)
      · simp
    · simp
    · simp

/-- The characters of a byte list. -/
def decodeChars : Bytes → List Char
  | [] => []
  | first :: rest => (afterFirst first rest).1 :: decodeChars (afterFirst first rest).2
termination_by bytes => bytes.length
decreasing_by
  have := afterFirst_length_le first rest
  simp only [List.length_cons]
  omega

/-- The text of a byte list. -/
def decode (bytes : Bytes) : String := String.ofList (decodeChars bytes)

/-- The bytes of a text. -/
def encode (text : String) : Bytes := text.toUTF8.toList

end Utf8

end LineScript.Text
