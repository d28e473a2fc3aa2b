import LineScript.Regex.Pattern
import LineScript.Text.Hex

/-!
# Reading the notation of patterns

Characters, counts, flags and escapes, from which the notation is made up. A text that is no
pattern is refused without a reason: scripts are told only that it is none.
-/

namespace LineScript.Regex

open Text

/-- The flags that hold at a place of a pattern. -/
structure Flags where
  /-- Letters match their other case forms. -/
  ignoreCase : Bool := false
  /-- The two line anchors also match at line ends inside the text. -/
  multiLine : Bool := false
  /-- The dot also matches a line end. -/
  dotAll : Bool := false
  /-- Repetitions are lazy unless they say otherwise. -/
  swapGreed : Bool := false
  /-- Classes reach over the whole character set. -/
  full : Bool := true
  /-- Blanks and comments are skipped. -/
  spaced : Bool := false
  /-- A return ends a line too. -/
  returns : Bool := false
deriving Repr, DecidableEq

namespace Flags

/-- Sets or clears the flag of a letter. -/
def set? (flags : Flags) (c : Char) (on : Bool) : Option Flags :=
  match c with
  | 'i' => some { flags with ignoreCase := on }
  | 'm' => some { flags with multiLine := on }
  | 's' => some { flags with dotAll := on }
  | 'U' => some { flags with swapGreed := on }
  | 'u' => some { flags with full := on }
  | 'R' => some { flags with returns := on }
  | 'x' => some { flags with spaced := on }
  | _ => none

/-- The flags after letters have set them and, after a dash, cleared them. No letter may occur
twice, at most one dash, and not at the end. -/
def change? (flags : Flags) (on : Bool) (seen : List Char) : List Char → Option Flags
  | [] => if seen.head? = some '-' then none else some flags
  | c :: rest =>
    if seen.contains c then none
    else if c = '-' then flags.change? false (c :: seen) rest
    else
      match flags.set? c on with
      | some flags => flags.change? on (c :: seen) rest
      | none => none

end Flags

/-- What is known while a pattern is read. -/
structure Reading where
  /-- What is left of the pattern. -/
  rest : List Char
  /-- The flags that hold. -/
  flags : Flags := {}
  /-- How many groups were opened. -/
  groups : Nat := 0
  /-- The names of groups. -/
  names : List String := []

/-- A step of reading, which may refuse the pattern. -/
abbrev Reader := StateT Reading Option

namespace Reader

/-- What follows blanks and comments; `inComment` says that a comment is open. -/
def afterBlanks : (inComment : Bool) → List Char → List Char
  | _, [] => []
  | true, c :: rest => afterBlanks (c ≠ '\n') rest
  | false, c :: rest =>
    if isBlank c then afterBlanks false rest
    else if c = '#' then afterBlanks true rest
    else c :: rest

/-- What is left of the pattern. -/
def rest : Reader (List Char) := return (← get).rest

/-- The flags that hold. -/
def flags : Reader Flags := return (← get).flags

/-- Goes on with a rest. -/
def setRest (rest : List Char) : Reader Unit := modify fun reading => { reading with rest }

/-- Skips blanks and comments where flags say so. -/
def skipBlanks : Reader Unit :=
  modify fun reading =>
    if reading.flags.spaced then { reading with rest := afterBlanks false reading.rest }
    else reading

/-- Goes on after one character and the blanks after it. -/
def skip : Reader Unit := do
  setRest (← rest).tail
  skipBlanks

/-- The next character, which stays; a pattern that ends here is refused. -/
def peek : Reader Char := do
  match ← rest with
  | c :: _ => return c
  | [] => failure

/-- Takes a text that comes next, if it does. -/
def accept (text : String) : Reader Bool := do
  let left ← rest
  if text.toList.isPrefixOf left then
    setRest (left.drop text.length)
    return true
  else return false

/-- Takes a character that must come next. -/
def require (c : Char) : Reader Unit := do
  if ← accept c.toString then return () else failure

/-- Takes the longest run of characters of a kind, skipping blanks after each. -/
def takeRun (isMember : Char → Bool) : (fuel : Nat) → Reader (List Char)
  | 0 => return []
  | fuel + 1 => do
    match ← rest with
    | c :: _ =>
      if isMember c then
        skip
        return c :: (← takeRun isMember fuel)
      else return []
    | [] => return []

/-- Takes the longest run of characters of a kind. -/
def takeAll (isMember : Char → Bool) : Reader (List Char) := do
  takeRun isMember (← rest).length

/-- The value of digits in a base. -/
def numberOf (base : Nat) (digits : List Char) : Nat :=
  digits.foldl (fun n c => n * base + (Hex.digit? c).getD 0) 0

/-- A number of at most 32 bits, with blanks around it. -/
def count? : Reader (Option Nat) := do
  setRest ((← rest).dropWhile isBlank)
  let digits ← takeAll Char.isDigit
  let _ ← takeAll isBlank
  if digits.isEmpty then return none
  else if numberOf 10 digits < UInt32.size then return some (numberOf 10 digits)
  else failure

/-- A number that must be there. -/
def count : Reader Nat := do
  match ← count? with
  | some number => return number
  | none => failure

/-- The character of a code point, if it is one. -/
def charOf (code : Nat) : Reader Char :=
  if code.isValidChar then return Char.ofNat code else failure

/-- A fixed number of hexadecimal digits. -/
def hexDigits : Nat → Reader (List Char)
  | 0 => return []
  | count + 1 => do
    let c ← peek
    if Hex.isDigit c then
      skip
      return c :: (← hexDigits count)
    else failure

/-- The character of a code point written in hexadecimal digits, in braces or `width` of them. -/
def hexChar (width : Nat) : Reader Char := do
  skip
  if (← peek) = '\x7b' then
    skip
    let digits ← takeAll Hex.isDigit
    if digits.isEmpty || (← peek) ≠ '\x7d' then failure
    else
      skip
      charOf (numberOf 16 digits)
  else charOf (numberOf 16 (← hexDigits width))

/-- A class, widened to other case forms where flags say so. -/
def fold (flags : Flags) (class' : CharClass) : CharClass :=
  if flags.ignoreCase then .folded (if flags.full then .full else .basic) class' else class'

/-- A class that may stand in a pattern: where classes are over single bytes, no byte of a longer
character may be in it. -/
def checked (class' : CharClass) : Reader CharClass := do
  if (← flags).full || class'.isBasic then return class' else failure

/-- Cuts a text at the first place where a mark stands. -/
def cutAt? (mark : List Char) : List Char → Option (List Char × List Char)
  | [] => none
  | c :: rest =>
    if mark.isPrefixOf (c :: rest) then some ([], (c :: rest).drop mark.length)
    else (cutAt? mark rest).map fun (before, after) => (c :: before, after)

/-- The class that a name in braces stands for, and whether it is the complement that is meant. -/
def bracedClass? (text : List Char) : Option (CharClass × Bool) :=
  let byValue (parts : List Char × List Char) : Option CharClass :=
    valueClass? (String.ofList parts.1) (String.ofList parts.2)
  match cutAt? ['!', '='] text with
  | some parts => (byValue parts).map (·, true)
  | none =>
    match (cutAt? [':'] text).or (cutAt? ['='] text) with
    | some parts => (byValue parts).map (·, false)
    | none => (nameClass? (String.ofList text)).map (·, false)

/-- The class of a property, from the letter that asks for it. -/
def propertyClass (negated : Bool) : Reader CharClass := do
  skip
  let c ← peek
  let found ←
    if c = '\x7b' then do
      skip
      let name ← takeAll (· ≠ '\x7d')
      require '\x7d'
      pure (bracedClass? name)
    else if c = '\\' then failure
    else do
      skip
      pure ((nameClass? c.toString).map (·, false))
  let flags ← flags
  match found with
  | some (class', other) =>
    if flags.full then return .complementIf (negated != other) (fold flags class') else failure
  | none => failure

/-- The class of one of the letters for digits, blanks and words. -/
def letterClass (c : Char) : Reader CharClass := do
  let full := (← flags).full
  let name := c.toLower
  let class' : CharClass :=
    if full then .named (if name = 'd' then .digit else if name = 's' then .blank else .word)
    else
      (basicClass? (if name = 'd' then "digit" else if name = 's' then "space" else "word")).getD
        .none
  return .complementIf (c ≠ name) class'

/-- What an escape stands for. -/
inductive Escape where
  /-- A character; `isByte` says that it was written as two digits. -/
  | char (c : Char) (isByte : Bool := false)
  /-- A class. -/
  | named (class' : CharClass)
  /-- A condition. -/
  | anchor (anchor : Anchor)

/-- Characters that have a meaning in the notation. -/
def isMeta (c : Char) : Bool :=
  "\\.+*?()|[]\x7b\x7d^$#&-~".toList.contains c

/-- Characters that an escape leaves as they are. -/
def isEscapable (c : Char) : Bool :=
  c.toNat < 128 && !c.isAlphanum && c != '<' && c != '>'

/-- The words whose characters count for word anchors. -/
def words (flags : Flags) : WordChars := if flags.full then .full else .basic

/-- The edge of a word, or the part of one that is named in braces after it. -/
def wordAnchor : Reader Anchor := do
  let words := words (← flags)
  let isNameChar (c : Char) : Bool := c.isAlpha || c == '-'
  match ← rest with
  | '\x7b' :: after =>
    let inner := if (← flags).spaced then afterBlanks false after else after
    match inner with
    | [] => failure
    | c :: _ =>
      if isNameChar c then
        setRest inner
        let name ← takeAll isNameChar
        require '\x7d'
        match String.ofList name with
        | "start" => return .wordStart words
        | "end" => return .wordEnd words
        | "start-half" => return .noWordBefore words
        | "end-half" => return .noWordAfter words
        | _ => failure
      else return .wordEdge words
  | _ => return .wordEdge words

/-- The escape of a single letter. -/
def letterEscape (c : Char) : Reader Escape := do
  let words := words (← flags)
  match c with
  | 'a' => return .char '\x07'
  | 'f' => return .char '\x0c'
  | 't' => return .char '\t'
  | 'n' => return .char '\n'
  | 'r' => return .char '\r'
  | 'v' => return .char '\x0b'
  | 'A' => return .anchor .textStart
  | 'z' => return .anchor .textEnd
  | 'b' => return .anchor (← wordAnchor)
  | 'B' => return .anchor (.noWordEdge words)
  | '<' => return .anchor (.wordStart words)
  | '>' => return .anchor (.wordEnd words)
  | _ => failure

/-- An escape, from its backslash. -/
def escape : Reader Escape := do
  setRest (← rest).tail
  let c ← peek
  match c with
  | 'x' =>
    let isByte := !((← rest).drop 1).head?.any (· == '\x7b')
    return .char (← hexChar 2) isByte
  | 'u' => return .char (← hexChar 4)
  | 'U' => return .char (← hexChar 8)
  | 'p' => return .named (← propertyClass false)
  | 'P' => return .named (← propertyClass true)
  | 'd' | 's' | 'w' | 'D' | 'S' | 'W' =>
    setRest (← rest).tail
    return .named (← letterClass c)
  | _ =>
    setRest (← rest).tail
    if isMeta c || isEscapable c then return .char c else letterEscape c

end Reader

end LineScript.Regex
