import LineScript.Regex.CharClass

/-!
# Patterns

What a pattern asks for, after its notation and its flags have been resolved.
-/

namespace LineScript.Regex

/-- Which characters make up words. -/
inductive WordChars where
  /-- Those of the whole character set. -/
  | full
  /-- Letters, digits and the underscore of the basic range. -/
  | basic
deriving Repr, DecidableEq

/-- The character belongs to words. -/
def WordChars.contains (words : WordChars) (c : Char) : Bool :=
  match words with
  | full => NamedClass.isWord c
  | basic => c.isAlphanum || c == '_'

/-- A condition on a place between two characters. -/
inductive Anchor where
  /-- The start of the text. -/
  | textStart
  /-- The end of the text. -/
  | textEnd
  /-- The start of a line. -/
  | lineStart
  /-- The end of a line. -/
  | lineEnd
  /-- The start of a line, where a return, a feed or both together end a line. -/
  | lineStartEither
  /-- The end of a line, where a return, a feed or both together end a line. -/
  | lineEndEither
  /-- The edge of a word. -/
  | wordEdge (words : WordChars)
  /-- No edge of a word. -/
  | noWordEdge (words : WordChars)
  /-- The start of a word. -/
  | wordStart (words : WordChars)
  /-- The end of a word. -/
  | wordEnd (words : WordChars)
  /-- No word before. -/
  | noWordBefore (words : WordChars)
  /-- No word after. -/
  | noWordAfter (words : WordChars)
deriving Repr, DecidableEq

/-- A neighbour is a character of words. -/
def WordChars.meets (words : WordChars) (neighbour : Option Char) : Bool :=
  match neighbour with
  | some c => words.contains c
  | none => false

/-- A condition holds between two neighbours; none stands for an end of the text. -/
def Anchor.holds (anchor : Anchor) (before after : Option Char) : Bool :=
  match anchor with
  | textStart => before.isNone
  | textEnd => after.isNone
  | lineStart => before.isNone || before == some '\n'
  | lineEnd => after.isNone || after == some '\n'
  | lineStartEither =>
    before.isNone || before == some '\n' || (before == some '\r' && after != some '\n')
  | lineEndEither =>
    after.isNone || after == some '\r' || (after == some '\n' && before != some '\r')
  | wordEdge words => words.meets before != words.meets after
  | noWordEdge words => words.meets before == words.meets after
  | wordStart words => !words.meets before && words.meets after
  | wordEnd words => words.meets before && !words.meets after
  | noWordBefore words => !words.meets before
  | noWordAfter words => !words.meets after

/-- A pattern. -/
inductive Pattern where
  /-- The empty text. -/
  | empty
  /-- One character of a class. -/
  | one (class' : CharClass)
  /-- A condition on the place reached. -/
  | anchor (anchor : Anchor)
  /-- A group, whose text is kept under a number. -/
  | group (number : Nat) (inner : Pattern)
  /-- One pattern after another. -/
  | append (first second : Pattern)
  /-- One of two patterns, the first one preferred. -/
  | orElse (first second : Pattern)
  /-- A pattern repeated, as often as possible or as rarely as possible. -/
  | repeated (inner : Pattern) (least : Nat) (greatest : Option Nat) (greedy : Bool)
deriving Repr, DecidableEq

namespace Pattern

/-- The pattern matches the empty text somewhere, or may do so. -/
def mayBeEmpty : Pattern → Bool
  | empty | anchor _ => true
  | one _ => false
  | group _ inner => inner.mayBeEmpty
  | append first second => first.mayBeEmpty && second.mayBeEmpty
  | orElse first second => first.mayBeEmpty || second.mayBeEmpty
  | repeated inner least _ _ => least == 0 || inner.mayBeEmpty

/-- The greatest number of a group. -/
def groupCount : Pattern → Nat
  | empty | anchor _ | one _ => 0
  | group number inner => max number inner.groupCount
  | append first second | orElse first second => max first.groupCount second.groupCount
  | repeated inner _ _ _ => inner.groupCount

/-- One pattern after another, in order. -/
def sequence : List Pattern → Pattern
  | [] => empty
  | [only] => only
  | first :: rest => append first (sequence rest)

/-- One of several patterns, earlier ones preferred. -/
def alternatives : List Pattern → Pattern
  | [] => empty
  | [only] => only
  | first :: rest => orElse first (alternatives rest)

/-- A repeated pattern; one repeated no times is the empty text, and its groups are gone. -/
def times (inner : Pattern) (least : Nat) (greatest : Option Nat) (greedy : Bool) : Pattern :=
  if greatest = some 0 then empty else repeated inner least greatest greedy

end Pattern

end LineScript.Regex
