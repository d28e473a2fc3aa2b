import LineScript.Library.Args
import LineScript.Machine.Objects
import LineScript.Machine.Variables
import LineScript.Text.Search

/-!
# Library: text

Characters are counted in code points, and positions from one. Matches of a pattern and occurrences of a text that is
replaced are the host's to find.
-/

namespace LineScript.Library

open Machine Text Regex

/-- The characters of the first argument. -/
def chars (args : Args) : List Char := (args.text 0).toList

/-- A text of characters. -/
def ofChars (cs : List Char) : Value := .string (String.ofList cs)

/-- The number of characters. -/
def stringLen (args : Args) : Value := .number (Int64.ofNat (chars args).length)

/-- The first characters; a negative count takes none. -/
def stringLeft (args : Args) : Value := ofChars ((chars args).take (args.int 1).toInt.toNat)

/-- The last characters; a negative count takes none. -/
def stringRight (args : Args) : Value :=
  let cs := chars args
  ofChars (cs.drop (cs.length - (args.int 1).toInt.toNat))

/-- Characters from a position on; a negative count takes all of them. -/
def stringMid (args : Args) : Value :=
  let rest := (chars args).drop ((args.int 1).toInt.toNat - 1)
  let count := (args.int 2).toInt
  ofChars (if count < 0 then rest else rest.take count.toNat)

/-- The element of a list by a number that counts from one, or from the end when it is negative. -/
def occurrence? {α : Type} (found : List α) (number : Int) : Option α :=
  if 0 < number then found[number.toNat - 1]? else found.reverse[(-number).toNat - 1]?

/-- The position of an occurrence of a text in another, zero when there is none. Without regard to
case both texts are searched in small letters. -/
def stringInStr (args : Args) : Exec Value := do
  let form (text : String) : List Char :=
    (if args.int 2 = 1 then text else lower text).toList
  let wanted := form (args.text 1)
  let number := (args.int 3).toInt
  if number = 0 ∨ wanted = [] then
    Machine.setError 1
    return .number 0
  let found := (cutAtText (· == ·) wanted (form (args.text 0))).positions
  return .number (Int64.ofNat (((occurrence? found number).map (· + 1)).getD 0))

/-- The occurrences to replace: all for zero, the first ones for a positive number, the last ones
for a negative one. -/
def chosen {α : Type} (number : Int) (found : List α) : List α :=
  if 0 < number then found.take number.toNat
  else if number < 0 then found.drop (found.length - (-number).toNat)
  else found

/-- A text with occurrences of another replaced; the extended register counts them. A text that the
host cannot look for stops the script. -/
def stringReplace (args : Args) : Exec Value := do
  let wanted := args.text 1
  if wanted.toList = [] then
    return .string (args.text 0)
  match (← get).host.finder.ofWord (args.int 4 != 1) wanted with
  | .error reason => Exec.failHere (.replacement reason)
  | .ok spans =>
    let replaced := chosen (args.int 3).toInt (spans (chars args))
    Machine.setExtended (Int64.ofNat replaced.length)
    return ofChars (spliced (chars args) (args.text 2).toList 0 replaced)

/-- The parts of a text: its characters when there is no delimiter, else what stands between
occurrences of the delimiter, or of any of its characters. -/
def splitText (whole : Bool) (delimiters text : List Char) : List (List Char) :=
  if delimiters = [] then text.map fun c => [c]
  else if whole then (cutAtText (· == ·) delimiters text).parts
  else (cutAtChars delimiters.contains text).parts

/-- A new array of the parts of a text, with their number in front unless the flag leaves it out. -/
def stringSplit (args : Args) : Exec Value := do
  let flag := args.int 2
  let parts := splitText (flag &&& 1 = 1) (args.text 1).toList (chars args)
  if parts.length = 1 then
    Machine.setError 1
  let count : List Value := if flag &&& 2 = 0 then [.number (Int64.ofNat parts.length)] else []
  newArray (count ++ parts.map ofChars).toArray

/-- Characters with every run of spaces shortened to one space; `spaced` says that a space stands
before them. -/
def collapseSpaces (spaced : Bool) : List Char → List Char
  | [] => []
  | c :: rest =>
    if c = ' ' ∧ spaced then collapseSpaces true rest else c :: collapseSpaces (c = ' ') rest

/-- A text without blanks in front, at the end, in runs, or at all. -/
def stringStripWS (args : Args) : Value :=
  let flag := args.int 1
  let cs := chars args
  if flag &&& 8 ≠ 0 then ofChars (cs.filter fun c => !isBlank c)
  else
    let cs := if flag &&& 1 ≠ 0 then cs.dropWhile isBlank else cs
    let cs := if flag &&& 2 ≠ 0 then (cs.reverse.dropWhile isBlank).reverse else cs
    ofChars (if flag &&& 4 ≠ 0 then collapseSpaces false cs else cs)

/-- The text between two places. -/
def between (text : List Char) (start stop : Nat) : Value :=
  ofChars ((text.drop start).take (stop - start))

/-- The groups of a match, an empty text for one that took no part; the whole match when there are
no groups. -/
def groupsOf (text : List Char) (found : Match) : List Value :=
  if found.groups.isEmpty then [between text found.start found.stop]
  else
    found.groups.map fun
      | some (start, stop) => between text start stop
      | none => .string ""

/-- Matches of a pattern. With flag zero the result tells whether there is one; with three it is a
new array of all groups of all matches, else of the first one. -/
def stringRegExp (args : Args) : Exec Value := do
  match (← get).host.finder.ofPattern? (args.text 1) with
  | none =>
    Machine.setError 2
    return .number 0
  | some matcher =>
    let text := chars args
    let flag := args.int 2
    if flag = 0 then return .number (if (matcher.first? text).isSome then 1 else 0)
    let found := if flag = 3 then matcher.all text else (matcher.first? text).toList
    match found.flatMap (groupsOf text) with
    | [] =>
      Machine.setError 1
      return .number 0
    | items => newArray items.toArray

end LineScript.Library
