import LineScript.Regex.Automaton
import LineScript.Text.Search

/-!
# Matching

An automaton runs over a text with all its possible states at once, in order of preference. At
each place only the most preferred way into a state counts. The match that begins first wins; of
those that begin at one place, the most preferred one.

Scripts ask an engine for matches, which is a part of their surroundings: `Finder` says what it
offers. The one that these automata make is the default.
-/

namespace LineScript.Regex

/-- The places noted so far, by number. -/
abbrev Slots := Array (Option Nat)

/-- A way in which an automaton may be running. -/
structure Thread where
  /-- Its state. -/
  state : Nat
  /-- The places it noted. -/
  slots : Slots

/-- A place in a text, between two characters. -/
structure Place where
  /-- The number of characters before it. -/
  index : Nat
  /-- The character before it. -/
  before : Option Char
  /-- The characters after it. -/
  rest : List Char

/-- The place before a text's character of a number. -/
def Place.inText (text : List Char) (index : Nat) : Place :=
  ⟨index, if index = 0 then none else text[index - 1]?, text.drop index⟩

namespace Automaton

/-- The threads that wait for a character or have matched, reached from others without taking a
character. `seen` tells the states already reached, `found` the threads so far. -/
def follow (automaton : Automaton) (place : Place) :
    (fuel : Nat) → List Thread → (seen : Array Bool) → (found : Array Thread) → Array Thread
  | 0, _, _, found => found
  | _ + 1, [], _, found => found
  | fuel + 1, thread :: others, seen, found =>
    if (seen[thread.state]?).getD true then follow automaton place fuel others seen found
    else
      let seen := seen.setIfInBounds thread.state true
      match automaton.states[thread.state]? with
      | some (.fork first second) =>
        follow automaton place fuel
          ({ thread with state := first } :: { thread with state := second } :: others) seen found
      | some (.note slot next) =>
        let noted := thread.slots.setIfInBounds slot (some place.index)
        follow automaton place fuel (⟨next, noted⟩ :: others) seen found
      | some (.anchor anchor next) =>
        if anchor.holds place.before place.rest.head? then
          follow automaton place fuel ({ thread with state := next } :: others) seen found
        else follow automaton place fuel others seen found
      | some (.one _ _) | some .accept =>
        follow automaton place fuel others seen (found.push thread)
      | none => follow automaton place fuel others seen found

/-- The threads reached from others at a place. -/
def reach (automaton : Automaton) (place : Place) (threads : List Thread) : List Thread :=
  let size := automaton.states.size
  (follow automaton place (threads.length + 2 * size + 1) threads (Array.replicate size false)
    #[]).toList

/-- The thread has matched. -/
def hasMatched (automaton : Automaton) (thread : Thread) : Bool :=
  match automaton.states[thread.state]? with
  | some .accept => true
  | _ => false

/-- The thread after a character, if it takes it. -/
def take? (automaton : Automaton) (c : Char) (thread : Thread) : Option Thread :=
  match automaton.states[thread.state]? with
  | some (.one class' next) =>
    if class'.contains c then some { thread with state := next } else none
  | _ => none

/-- The most preferred match among threads that have come to a place, or an earlier one, and the
threads that are preferred to it. -/
def settle (automaton : Automaton) (best : Option Slots) (threads : List Thread) (place : Place) :
    Option Slots × List Thread :=
  let reached := automaton.reach place threads
  let live := reached.takeWhile (!automaton.hasMatched ·)
  (((reached[live.length]?).map Thread.slots).or best, live)

/-- The most preferred match of some threads that have come to a place, or an earlier one. -/
def run (automaton : Automaton) (best : Option Slots) (threads : List Thread) (index : Nat)
    (before : Option Char) : List Char → Option Slots
  | [] => (automaton.settle best threads ⟨index, before, []⟩).1
  | c :: rest =>
    let (best, live) := automaton.settle best threads ⟨index, before, c :: rest⟩
    match live.filterMap (automaton.take? c) with
    | [] => best
    | threads => run automaton best threads (index + 1) (some c) rest

/-- The match that begins at a place. -/
def matchAt (automaton : Automaton) (place : Place) : Option Slots :=
  let slots := Array.replicate (2 * automaton.groups + 2) none
  automaton.run none [⟨automaton.entry, slots⟩] place.index place.before place.rest

/-- The first match that begins at a place or later. -/
def search (automaton : Automaton) (index : Nat) (before : Option Char) :
    List Char → Option Slots
  | [] => automaton.matchAt ⟨index, before, []⟩
  | c :: rest =>
    match automaton.matchAt ⟨index, before, c :: rest⟩ with
    | some found => some found
    | none => search automaton (index + 1) (some c) rest

end Automaton

/-- A match: where it stands in a text, and where each of its groups does. -/
structure Match where
  /-- The place where it begins. -/
  start : Nat
  /-- The place where it ends. -/
  stop : Nat
  /-- The places where each group begins and ends, if it took part. -/
  groups : List (Option (Nat × Nat))
deriving Repr, DecidableEq

namespace Match

/-- The places noted for a group. -/
def span? (slots : Slots) (number : Nat) : Option (Nat × Nat) := do
  let start ← (slots[2 * number]?).getD none
  let stop ← (slots[2 * number + 1]?).getD none
  return (start, stop)

/-- The match of some noted places. -/
def ofSlots? (slots : Slots) : Option Match := do
  let (start, stop) ← span? slots 0
  let numbers := List.range (slots.size / 2 - 1)
  return { start, stop, groups := numbers.map fun number => span? slots (number + 1) }

end Match

namespace Automaton

/-- The first match in a text that begins at a place of a number or later. -/
def find? (automaton : Automaton) (text : List Char) (start : Nat) : Option Match :=
  if text.length < start then none
  else
    let place := Place.inText text start
    (automaton.search place.index place.before place.rest).bind Match.ofSlots?

/-- The first match from a place on, except an empty one at the end of the match before; then
search goes on one character later. -/
def findNext? (automaton : Automaton) (text : List Char) (start : Nat) (lastEnd : Option Nat) :
    Option Match := do
  let found ← automaton.find? text start
  if found.start = found.stop ∧ lastEnd = some found.stop then automaton.find? text (start + 1)
  else return found

/-- All matches in a text that do not overlap, from a place on. -/
def findAllFrom (automaton : Automaton) (text : List Char) :
    (fuel : Nat) → (start : Nat) → (lastEnd : Option Nat) → List Match
  | 0, _, _ => []
  | fuel + 1, start, lastEnd =>
    match automaton.findNext? text start lastEnd with
    | none => []
    | some found => found :: findAllFrom automaton text fuel found.stop (some found.stop)

/-- All matches in a text that do not overlap. Each one after the first ends later than the one
before it, so there are at most two more than characters. -/
def findAll (automaton : Automaton) (text : List Char) : List Match :=
  automaton.findAllFrom text (text.length + 2) 0 none

end Automaton

/-- What finds the matches of a pattern. -/
structure Matcher where
  /-- The first match in a text. -/
  first? : List Char → Option Match
  /-- All matches in a text that do not overlap, from left to right. -/
  all : List Char → List Match

/-- What finds patterns and words in texts. -/
structure Finder where
  /-- What finds a pattern; none when the text is no pattern or too large. -/
  ofPattern? : (pattern : String) → Option Matcher
  /-- What finds the places where the occurrences of a word begin and end, with or without regard to
  case, or the report why there is no such thing. -/
  ofWord : (ignoringCase : Bool) → (word : String) → Except String (List Char → List (Nat × Nat))

namespace Finder

/-- What an automaton finds. -/
def ofAutomaton (automaton : Automaton) : Matcher :=
  { first? := fun text => automaton.find? text 0, all := automaton.findAll }

/-- The places of a word's occurrences in a text. A word that is too large is refused. -/
def wordSpans (ignoringCase : Bool) (word : String) :
    Except String (List Char → List (Nat × Nat)) :=
  let same := if ignoringCase then Text.sameLetter else (· == ·)
  if maxWeight < word.utf8ByteSize then
    .error "Compiled regex exceeds size limit of 10485760 bytes."
  else .ok fun text => (Text.cutAtText same word.toList text).spans

/-- Patterns are found by automata, words by comparing them at every place. -/
def byAutomata : Finder where
  ofPattern? pattern := (Automaton.ofText? pattern).map ofAutomaton
  ofWord := wordSpans

end Finder

end LineScript.Regex
