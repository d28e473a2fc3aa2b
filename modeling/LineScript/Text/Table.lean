/-!
# Character tables written as text

A property of characters is kept as a text of decimal numbers, because a text is read once and
costs the elaborator nothing. Three shapes are read here: a set of code points as alternating
gaps and runs (`CodeSet`), a map that moves whole groups of code points by one distance
(`CodeMap`), and a cover of all code points by named runs (`CodeCover`).
-/

namespace LineScript.Text

/-- The numbers of a text of decimal numbers; anything that is not a digit separates them. -/
def tableNumbers (text : String) : List Nat :=
  let step (state : List Nat × Option Nat) (c : Char) : List Nat × Option Nat :=
    if c.isDigit then
      (state.1, some (state.2.getD 0 * 10 + (c.toNat - '0'.toNat)))
    else
      match state.2 with
      | some n => (n :: state.1, none)
      | none => state
  let last := text.toList.foldl step ([], none)
  (match last.2 with
    | some n => n :: last.1
    | none => last.1).reverse

/-- A set of code points, as closed intervals in increasing order. -/
structure CodeSet where
  /-- First and last code point of each interval. -/
  intervals : List (Nat × Nat)

namespace CodeSet

/-- Intervals from alternating gap and run lengths, the first gap counted from `position`. -/
def ofRuns (position : Nat) : List Nat → List (Nat × Nat)
  | gap :: run :: rest =>
    (position + gap, position + gap + run - 1) :: ofRuns (position + gap + run) rest
  | _ => []

/-- The set that a table text describes. -/
def ofText (text : String) : CodeSet := ⟨ofRuns 0 (tableNumbers text)⟩

/-- A code point belongs to the set when one of the intervals holds it. -/
def contains (set : CodeSet) (code : Nat) : Bool :=
  set.intervals.any fun interval => interval.1 ≤ code && code ≤ interval.2

end CodeSet

/-- `count` code points starting at `first`, `stride` apart, sent to the code points starting at
`target`, the same stride apart. -/
structure CodeGroup where
  /-- The least code point that moves. -/
  first : Nat
  /-- How many code points move. -/
  count : Nat
  /-- Distance between two of them. -/
  stride : Nat
  /-- Where the least one goes. -/
  target : Nat

namespace CodeGroup

/-- The distance of `code` from `start`, when it is one of the group's steps from there. -/
def offset? (group : CodeGroup) (start code : Nat) : Option Nat :=
  let distance := code - start
  if start ≤ code ∧ distance < group.count * group.stride ∧ distance % group.stride = 0 then
    some distance
  else
    none

/-- Where the group sends a code point. -/
def image? (group : CodeGroup) (code : Nat) : Option Nat :=
  (group.offset? group.first code).map (group.target + ·)

/-- Which code point the group sends to this one. -/
def source? (group : CodeGroup) (code : Nat) : Option Nat :=
  (group.offset? group.target code).map (group.first + ·)

end CodeGroup

/-- A map on code points that moves the members of its groups and fixes all others. -/
structure CodeMap where
  /-- The groups; no code point is in two of them. -/
  groups : List CodeGroup

namespace CodeMap

/-- Groups from consecutive fours of first, count, stride and target. -/
def ofNumbers : List Nat → List CodeGroup
  | first :: count :: stride :: target :: rest => ⟨first, count, stride, target⟩ :: ofNumbers rest
  | _ => []

/-- The map that a table text describes. -/
def ofText (text : String) : CodeMap := ⟨ofNumbers (tableNumbers text)⟩

/-- The image of a code point. -/
def apply (map : CodeMap) (code : Nat) : Nat :=
  (map.groups.findSome? (·.image? code)).getD code

/-- The code points that move to this one. -/
def sources (map : CodeMap) (code : Nat) : List Nat :=
  map.groups.filterMap (·.source? code)

end CodeMap

/-- All code points in consecutive runs, each with a two-letter name. -/
structure CodeCover where
  /-- Name and length of each run. -/
  runs : List (String × Nat)

namespace CodeCover

/-- One run, written as its name directly followed by its length. -/
def readRun (word : List Char) : String × Nat :=
  let name := word.takeWhile Char.isAlpha
  let digits := word.dropWhile Char.isAlpha
  (String.ofList name, (tableNumbers (String.ofList digits)).headD 0)

/-- The words of a text, cut at blanks and line ends; `word` holds the letters read so far, last
one first. -/
def words (word : List Char) : List Char → List (List Char)
  | [] => if word.isEmpty then [] else [word.reverse]
  | c :: rest =>
    if c = ' ' ∨ c = '\n' then
      if word.isEmpty then words [] rest else word.reverse :: words [] rest
    else
      words (c :: word) rest

/-- The cover that a table text describes. -/
def ofText (text : String) : CodeCover := ⟨(words [] text.toList).map readRun⟩

/-- The name of the run that holds a position, counted from the first run. -/
def nameIn : List (String × Nat) → Nat → Option String
  | [], _ => none
  | (name, length) :: rest, position =>
    if position < length then some name else nameIn rest (position - length)

/-- The name of the run that holds a code point. -/
def nameOf? (cover : CodeCover) (code : Nat) : Option String :=
  nameIn cover.runs code

end CodeCover

end LineScript.Text
