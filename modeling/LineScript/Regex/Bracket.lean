import LineScript.Regex.Reader

/-!
# Classes in brackets

Members, ranges, named classes and classes inside classes, joined by union, intersection and the
two differences, which all bind alike and are taken from left to right.
-/

namespace LineScript.Regex.Reader

open Text

/-- The code point of a character in a class, which over single bytes must be of the basic
range. -/
def classChar (c : Char) : Reader Char := do
  if (← flags).full || c.toNat < 128 then return c else failure

/-- One member of a class in brackets: a character or a class. -/
def classItem : Reader (Char ⊕ CharClass) := do
  match ← peek with
  | '\\' =>
    match ← escape with
    | .char c _ => return .inl (← classChar c)
    | .named class' => return .inr class'
    | .anchor _ => failure
  | c =>
    setRest (← rest).tail
    return .inl (← classChar c)

/-- The next characters after a dash do not make it the middle of a range. -/
def dashStandsAlone (flags : Flags) (afterDash : List Char) : Bool :=
  let next := if flags.spaced then afterBlanks false afterDash else afterDash
  next.head? == some ']' || next.head? == some '-'

/-- One member or one range of a class in brackets. -/
def classRange : Reader CharClass := do
  let first ← classItem
  skipBlanks
  let flags ← flags
  match ← rest with
  | [] => failure
  | c :: after =>
    if c ≠ '-' || dashStandsAlone flags after then
      match first with
      | .inl c => return fold flags (.single c)
      | .inr class' => return class'
    else
      skip
      match first, ← classItem with
      | .inl first, .inl last =>
        if first ≤ last then return fold flags (.range first.toNat last.toNat) else failure
      | _, _ => failure

/-- The class that is named between brackets and colons at the start of a text, and what follows
it. -/
def basicClassAt? (text : List Char) : Option (CharClass × Bool × List Char) := do
  let after ← if ['[', ':'].isPrefixOf text then some (text.drop 2) else none
  let negated := after.head? == some '^'
  let (name, rest) ← cutAt? [':'] (if negated then after.tail else after)
  let class' ← basicClass? (String.ofList name)
  match rest with
  | ']' :: rest => some (class', negated, rest)
  | _ => none

/-- How two parts of a class in brackets are joined. -/
inductive Joint where
  /-- Only what both parts hold. -/
  | both
  /-- Only what the first part holds alone. -/
  | without
  /-- Only what one of the parts holds alone. -/
  | either
deriving Repr, DecidableEq

/-- Part of a class, with how deep it is nested. -/
structure ClassPart where
  /-- The class. -/
  class' : CharClass
  /-- How deep it is nested. -/
  depth : Nat := 0

/-- The members of a class as one part. -/
def ClassPart.ofMembers (members : List ClassPart) : ClassPart :=
  match members with
  | [only] => only
  | _ =>
    { class' := .unions (members.map ClassPart.class')
      depth := if members.isEmpty then 0 else members.foldl (fun d part => max d part.depth) 0 + 1 }

/-- A part joined to the one before it, if there is one. -/
def joinParts (before : Option (Joint × ClassPart)) (part : ClassPart) : ClassPart :=
  match before with
  | none => part
  | some (joint, left) =>
    let class' := match joint with
      | .both => CharClass.both left.class' part.class'
      | .without => CharClass.without left.class' part.class'
      | .either => CharClass.either left.class' part.class'
    ⟨class', max left.depth part.depth + 1⟩

/-- The dashes that stand in front of the members of a class; each is a member. -/
def leadingDashes : (fuel : Nat) → Reader (List ClassPart)
  | 0 => return []
  | fuel + 1 => do
    if (← peek) = '-' then
      skip
      return ⟨.single '-', 0⟩ :: (← leadingDashes fuel)
    else return []

mutual

/-- A class in brackets, from its opening bracket. -/
def bracket : (fuel : Nat) → Reader ClassPart
  | 0 => failure
  | fuel + 1 => do
    skip
    let negated ← if (← peek) = '^' then (do skip; pure true) else pure false
    let dashes ← leadingDashes (← rest).length
    let members ←
      if dashes.isEmpty && (← peek) = ']' then do
        skip
        pure [(⟨.single ']', 0⟩ : ClassPart)]
      else pure dashes
    let part ← classMembers fuel none members
    let flags ← flags
    return ⟨.complementIf negated (fold flags part.class'), part.depth + 1⟩

/-- The members of a class up to its closing bracket. -/
def classMembers : (fuel : Nat) → Option (Joint × ClassPart) → List ClassPart → Reader ClassPart
  | 0, _, _ => failure
  | fuel + 1, before, members => do
    skipBlanks
    let flags ← flags
    let join (joint : Joint) : Reader ClassPart := do
      setRest ((← rest).drop 2)
      classMembers fuel (some (joint, joinParts before (.ofMembers members))) []
    match ← rest with
    | [] => failure
    | ']' :: after =>
      setRest after
      return joinParts before (.ofMembers members)
    | '&' :: '&' :: _ => join .both
    | '-' :: '-' :: _ => join .without
    | '~' :: '~' :: _ => join .either
    | '[' :: _ =>
      match basicClassAt? (← rest) with
      | some (class', negated, after) =>
        setRest after
        let class' := CharClass.complementIf negated (fold flags class')
        classMembers fuel before (members ++ [⟨class', 0⟩])
      | none =>
        let inner ← bracket fuel
        classMembers fuel before (members ++ [inner])
    | _ => classMembers fuel before (members ++ [⟨← classRange, 0⟩])

end

end LineScript.Regex.Reader
