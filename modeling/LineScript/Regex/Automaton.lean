import LineScript.Regex.Parser

/-!
# Automata

A pattern becomes an automaton whose states lead to each other by number. Where a state leads to
two others the first one is preferred, which settles between several matches that begin at one
place.
-/

namespace LineScript.Regex

/-- A state of an automaton. -/
inductive State where
  /-- Takes one character of a class. -/
  | one (class' : CharClass) (next : Nat)
  /-- Goes on where a condition holds. -/
  | anchor (anchor : Anchor) (next : Nat)
  /-- Notes the place reached under a number. -/
  | note (slot next : Nat)
  /-- Goes on in two ways, the first one preferred. -/
  | fork (first second : Nat)
  /-- Has matched. -/
  | accept
deriving Repr, DecidableEq

/-- An automaton. -/
structure Automaton where
  /-- The states by number. -/
  states : Array State
  /-- The state in which a match begins. -/
  entry : Nat
  /-- How many groups have numbers. -/
  groups : Nat

namespace Automaton

/-- Adds a state and gives its number. -/
def place (state : State) (states : Array State) : Nat × Array State :=
  (states.size, states.push state)

/-- Adds the states of something that leads to a given state, and gives where it begins. -/
abbrev Fragment := Nat → Array State → Nat × Array State

/-- A way in and a way past it, in the order of preference. -/
def preferring (greedy : Bool) (into past : Nat) : State :=
  if greedy then .fork into past else .fork past into

/-- A fragment a number of times, one after another. -/
def copies (fragment : Fragment) : Nat → Fragment
  | 0 => fun next states => (next, states)
  | count + 1 => fun next states =>
    let (middle, states) := copies fragment count next states
    fragment middle states

/-- A fragment at most a number of times; after each time it may be left. -/
def atMost (fragment : Fragment) (greedy : Bool) : Nat → Fragment
  | 0 => fun next states => (next, states)
  | count + 1 => fun next states =>
    let (middle, states) := atMost fragment greedy count next states
    let (start, states) := fragment middle states
    place (preferring greedy start next) states

/-- A fragment once and then any number of times. The results are where it begins and the state
that decides about another round. -/
def loop (fragment : Fragment) (greedy : Bool) (next : Nat) (states : Array State) :
    Nat × Nat × Array State :=
  let (decision, states) := place .accept states
  let (start, states) := fragment decision states
  (start, decision, states.setIfInBounds decision (preferring greedy start next))

/-- A fragment any number of times. One that may match the empty text is entered by a state of its
own, so that it is preferred to leaving it. -/
def anyTimes (fragment : Fragment) (mayBeEmpty greedy : Bool) : Fragment := fun next states =>
  let (start, decision, states) := loop fragment greedy next states
  if mayBeEmpty then place (preferring greedy start next) states else (decision, states)

/-- A fragment at least once. -/
def onceOrMore (fragment : Fragment) (greedy : Bool) : Fragment := fun next states =>
  let (start, _, states) := loop fragment greedy next states
  (start, states)

/-- A repeated fragment. -/
def repeated (fragment : Fragment) (mayBeEmpty : Bool) (least : Nat) (greatest : Option Nat)
    (greedy : Bool) : Fragment := fun next states =>
  match greatest, least with
  | some greatest, least =>
    let (middle, states) := atMost fragment greedy (greatest - least) next states
    copies fragment least middle states
  | none, 0 => anyTimes fragment mayBeEmpty greedy next states
  | none, least + 1 =>
    let (middle, states) := onceOrMore fragment greedy next states
    copies fragment least middle states

/-- The states of a pattern. -/
def fragment : Pattern → Fragment
  | .empty => fun next states => (next, states)
  | .one class' => fun next states => place (.one class' next) states
  | .anchor anchor => fun next states => place (.anchor anchor next) states
  | .group number inner => fun next states =>
    let (close, states) := place (.note (2 * number + 1) next) states
    let (start, states) := fragment inner close states
    place (.note (2 * number) start) states
  | .append first second => fun next states =>
    let (middle, states) := fragment second next states
    fragment first middle states
  | .orElse first second => fun next states =>
    let (one, states) := fragment first next states
    let (other, states) := fragment second next states
    place (.fork one other) states
  | .repeated inner least greatest greedy =>
    repeated (fragment inner) inner.mayBeEmpty least greatest greedy

/-- The automaton of a pattern; the whole match is group zero. -/
def ofPattern (pattern : Pattern) : Automaton :=
  let (entry, states) := fragment (.group 0 pattern) 0 #[.accept]
  { states, entry, groups := pattern.groupCount }

end Automaton

/-- How many states a class takes up, roughly: those over the whole character set need more. -/
def CharClass.weight : CharClass → Nat
  | range first last => if last < 128 then 1 else if first = last then 3 else 6
  | named name => if name = .blank then 8 else 300
  | union left right | both left right | without left right | either left right =>
    left.weight + right.weight
  | complement inner => inner.weight + 6
  | folded _ inner => inner.weight + 1

/-- How many states a pattern takes up, roughly. -/
def Pattern.weight : Pattern → Nat
  | empty => 1
  | one class' => class'.weight
  | anchor _ => 1
  | group _ inner => inner.weight + 2
  | append first second | orElse first second => first.weight + second.weight + 1
  | repeated inner least greatest _ => (max least (greatest.getD 1) + 1) * (inner.weight + 1)

/-- The most states that a pattern may take up. -/
def maxWeight : Nat := 327680

/-- The automaton that a text describes, unless it is no pattern or too large. -/
def Automaton.ofText? (text : String) : Option Automaton := do
  let pattern ← Pattern.parse? text
  if pattern.weight ≤ maxWeight then some (ofPattern pattern) else none

end LineScript.Regex
