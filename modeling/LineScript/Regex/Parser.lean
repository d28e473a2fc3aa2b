import LineScript.Regex.Bracket

/-!
# The notation of patterns

Reading a pattern resolves its flags, so that what is read does not depend on them any more.
-/

namespace LineScript.Regex

open Text

namespace Reader

/-- A part of a pattern, with how deep it is nested. -/
structure Part where
  /-- What it asks for. -/
  pattern : Pattern
  /-- How deep it is nested. -/
  depth : Nat := 0
  /-- It sets flags and asks for nothing. -/
  setsFlags : Bool := false

/-- The deepest nesting that is allowed. -/
def maxDepth : Nat := 250

/-- Parts joined by a rule, one level deeper when there are several. -/
def Part.join (combine : List Pattern → Pattern) (parts : List Part) : Part :=
  match parts with
  | [] => ⟨combine [], 0, false⟩
  | [only] => { only with setsFlags := false }
  | _ =>
    { pattern := combine (parts.map Part.pattern)
      depth := parts.foldl (fun d part => max d part.depth) 0 + 1 }

/-- What a character of a pattern asks for. -/
def literal (c : Char) (isByte : Bool) : Reader Part := do
  let flags ← flags
  if !flags.full && 127 < c.toNat && (isByte || flags.ignoreCase) then failure
  else return { pattern := .one (fold flags (.single c)) }

/-- What a dot asks for. -/
def dot : Reader Part := do
  let flags ← flags
  if !flags.full then failure
  else if flags.dotAll then return { pattern := .one .any }
  else
    let ends : CharClass :=
      if flags.returns then .union (.single '\n') (.single '\r') else .single '\n'
    return { pattern := .one (.complement ends) }

/-- The condition of the sign for starts. -/
def startAnchor (flags : Flags) : Anchor :=
  if flags.multiLine then (if flags.returns then .lineStartEither else .lineStart) else .textStart

/-- The condition of the sign for ends. -/
def endAnchor (flags : Flags) : Anchor :=
  if flags.multiLine then (if flags.returns then .lineEndEither else .lineEnd) else .textEnd

/-- A part that is no group, no class in brackets and no repetition. -/
def primitive : Reader Part := do
  match ← peek with
  | '\\' =>
    match ← escape with
    | .char c isByte => literal c isByte
    | .named class' => return { pattern := .one (← checked class') }
    | .anchor anchor => return { pattern := .anchor anchor }
  | '.' =>
    setRest (← rest).tail
    dot
  | '^' =>
    setRest (← rest).tail
    return { pattern := .anchor (startAnchor (← flags)) }
  | '$' =>
    setRest (← rest).tail
    return { pattern := .anchor (endAnchor (← flags)) }
  | c =>
    setRest (← rest).tail
    literal c false

/-- What opens with a parenthesis. -/
inductive Opening where
  /-- Flags for what follows. -/
  | flags (flags : Flags)
  /-- A group without a number, with the flags inside it. -/
  | plain (flags : Flags)
  /-- A group with the next number. -/
  | numbered

/-- A character may stand in the name of a group. -/
def isNameChar (c : Char) : Bool :=
  c == '_' || c == '.' || c == '[' || c == ']' || isAlphanumeric c

/-- The name of a group, up to the sign that ends it. No name may be given twice. -/
def groupName : Reader Unit := do
  let left ← rest
  let name := left.takeWhile (· ≠ '>')
  let isFirst := match name with
    | first :: _ => first == '_' || isAlphabetic first
    | [] => false
  let text := String.ofList name
  if isFirst && name.all isNameChar && name.length < left.length &&
      !(← get).names.contains text then
    modify fun reading => { reading with names := text :: reading.names }
    setRest (left.drop (name.length + 1))
  else failure

/-- What opens, from the parenthesis. -/
def opening : Reader Opening := do
  skip
  let left ← rest
  if ["?=", "?!", "?<=", "?<!"].any (·.toList.isPrefixOf left) then failure
  else if ← accept "?P<" then
    groupName
    return .numbered
  else if ← accept "?<" then
    groupName
    return .numbered
  else if ← accept "?" then
    let left ← rest
    let letters := left.takeWhile fun c => c != ':' && c != ')'
    match (← flags).change? true [] letters, left.drop letters.length with
    | some flags, ':' :: after =>
      setRest after
      return .plain flags
    | some flags, _ :: after =>
      setRest after
      if letters.isEmpty then failure else return .flags flags
    | _, _ => failure
  else return .numbered

/-- A repetition of the last part before it. -/
def repeatLast (parts : List Part) (least : Nat) (greatest : Option Nat) : Reader (List Part) := do
  let lazy ← accept "?"
  let greedy := lazy == (← flags).swapGreed
  match parts.getLast? with
  | some last =>
    if last.setsFlags then failure
    else
      let part : Part :=
        { pattern := last.pattern.times least greatest greedy, depth := last.depth + 1 }
      return parts.dropLast ++ [part]
  | none => failure

/-- The least and the greatest number of a repetition in braces, from the opening one. -/
def bounds : Reader (Nat × Option Nat) := do
  skip
  let _ ← peek
  let least ← count?
  let limits ←
    if (← peek) = ',' then do
      skip
      if (← peek) = '\x7d' then pure (least.map fun n => (n, none))
      else
        match least with
        | some n => pure (some (n, some (← count)))
        | none => failure
    else pure (least.map fun n => (n, some n))
  require '\x7d'
  skipBlanks
  match limits with
  | some (least, greatest) =>
    if greatest.any (· < least) then failure else return (least, greatest)
  | none => failure

/-- Alternatives up to a closing parenthesis or the end. `branches` are the finished ones, `parts`
those of the current one. -/
def alternatives : (fuel : Nat) → List Part → List Part → Reader Part
  | 0, _, _ => failure
  | fuel + 1, branches, parts => do
    skipBlanks
    let branch := Part.join Pattern.sequence parts
    match ← rest with
    | [] | ')' :: _ => return Part.join Pattern.alternatives (branches ++ [branch])
    | '|' :: after =>
      setRest after
      alternatives fuel (branches ++ [branch]) []
    | '(' :: _ =>
      let outer ← flags
      match ← opening with
      | .flags flags =>
        modify fun reading => { reading with flags }
        alternatives fuel branches (parts ++ [{ pattern := .empty, setsFlags := true }])
      | .plain flags =>
        modify fun reading => { reading with flags }
        let inner ← alternatives fuel [] []
        require ')'
        modify fun reading => { reading with flags := outer }
        alternatives fuel branches
          (parts ++ [{ pattern := inner.pattern, depth := inner.depth + 1 }])
      | .numbered =>
        let number := (← get).groups + 1
        modify fun reading => { reading with groups := number }
        let inner ← alternatives fuel [] []
        require ')'
        modify fun reading => { reading with flags := outer }
        alternatives fuel branches
          (parts ++ [{ pattern := .group number inner.pattern, depth := inner.depth + 1 }])
    | '[' :: _ =>
      let class' ← bracket (← rest).length
      let part : Part := { pattern := .one (← checked class'.class'), depth := class'.depth }
      alternatives fuel branches (parts ++ [part])
    | '?' :: after =>
      setRest after
      alternatives fuel branches (← repeatLast parts 0 (some 1))
    | '*' :: after =>
      setRest after
      alternatives fuel branches (← repeatLast parts 0 none)
    | '+' :: after =>
      setRest after
      alternatives fuel branches (← repeatLast parts 1 none)
    | '\x7b' :: _ =>
      let (least, greatest) ← bounds
      alternatives fuel branches (← repeatLast parts least greatest)
    | _ => alternatives fuel branches (parts ++ [← primitive])

end Reader

/-- The pattern that a text describes. -/
def Pattern.parse? (text : String) : Option Pattern := do
  let chars := text.toList
  let (part, reading) ← (Reader.alternatives (chars.length + 1) [] []).run { rest := chars }
  if reading.rest.isEmpty && part.depth ≤ Reader.maxDepth then some part.pattern else none

end LineScript.Regex
