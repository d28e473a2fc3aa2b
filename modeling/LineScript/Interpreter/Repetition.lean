import LineScript.Interpreter.Selection

/-!
# Loops

Every round of a loop runs its body in a new scope. A jump out of, or to the next round of, a loop
loses one level at each loop that it reaches; the loop it was meant for takes it.
-/

namespace LineScript

open Machine

/-- What a loop does after a round. -/
inductive Round where
  /-- Goes on with the next one. -/
  | next
  /-- Ends. -/
  | done
  /-- Ends, and control leaves what surrounds it too. -/
  | leave (flow : Flow)

/-- What a loop does when its body ended with a flow. -/
def Round.ofFlow : Flow → Round
  | .normal => next
  | .continueLoop levels => if levels = 1 then next else leave (.continueLoop (levels - 1))
  | .exitLoop levels => if levels = 1 then done else leave (.exitLoop (levels - 1))
  | flow => leave flow

/-- A counting loop that stood at `index` with the round that just ended stops before `next`: the
index did not move, or moved beyond the last one. -/
def passes (index next last : Float) : Bool :=
  next == index || (next > index && next > last) || (next < index && next < last)

/-- The members that a loop goes through: elements of an array, or keys of a map. -/
def members? (machine : Machine) (collection : Value) : Option (List Value) :=
  match machine.objectOf? collection with
  | some (.array items) => some items.toList
  | some (.map entries) => some (entries.keys.map Value.string)
  | _ => none

namespace Engine

/-- One round of a counting or collection loop. -/
def round (low : Engine) (loop : ForLoop) (index : Value) : Exec Round := do
  return Round.ofFlow (← low.runBlock (.whole loop.body) [(loop.index, index)])

/-- The step of a counting loop, evaluated anew each time. -/
def stepOf (low : Engine) : Option TokenBlock → Exec Float
  | some step => return (← low.whole (.whole step)).asNumber
  | none => return 1

/-- The rounds of a counting loop from an index on; the next index is computed before the body
runs. -/
def countFrom (low : Engine) (loop : ForLoop) (step : Option TokenBlock) (last : Float) :
    Nat → Float → Float → Exec Flow
  | 0, _, _ => Exec.starved
  | fuel + 1, index, amount => do
    let next := index + amount
    match ← low.round loop (Value.ofFloat index) with
    | .leave flow => return flow
    | .done => return .normal
    | .next =>
      if passes index next last then return .normal
      else countFrom low loop step last fuel next (← low.stepOf step)

/-- A counting loop. -/
def count (low : Engine) (loop : ForLoop) (first last : TokenBlock) (step : Option TokenBlock) :
    Exec Flow := do
  let index := (← low.whole (.whole first)).asNumber
  let last := (← low.whole (.whole last)).asNumber
  let amount ← low.stepOf step
  if (amount > 0 && index > last) || (amount < 0 && index < last) then return .normal
  else low.countFrom loop step last low.fuel index amount

/-- A round for each member. -/
def visitEach (low : Engine) (loop : ForLoop) : List Value → Exec Flow
  | [] => return .normal
  | member :: members => do
    match ← low.round loop member with
    | .leave flow => return flow
    | .done => return .normal
    | .next => visitEach low loop members

/-- The loop of a number, whose token is given. -/
def forLoop (low : Engine) (token : Token) (id : Nat) : Exec Flow := do
  match (← get).program.loops[id]? with
  | none => Exec.fail (.loopUnknown id) token.line
  | some loop =>
    match loop.head with
    | .range first last step => low.count loop first last step
    | .each collection =>
      let value ← low.whole (.whole collection)
      match members? (← get) value with
      | some members => low.visitEach loop members
      | none => Exec.fail (.notCollection value.typeName) loop.line

/-- Rounds as long as a condition holds before them. -/
def whileRounds (low : Engine) (condition body : Window) : Nat → Exec Flow
  | 0 => Exec.starved
  | fuel + 1 => do
    if (← low.whole condition).asBool then
      match Round.ofFlow (← low.runBlock body) with
      | .leave flow => return flow
      | .done => return .normal
      | .next => whileRounds low condition body fuel
    else return .normal

/-- The loop with its condition first whose keyword stands at a position. -/
def whileLoop (low : Engine) (window : Window) (opener : Token) (pos : Nat) :
    Exec (Flow × Nat) := do
  let tokens := window.tokens
  let header := Layout.statementEnd tokens (pos + 1) window.stop
  let visit := Layout.scanOutermost tokens header window.stop fun token => token.kind == .kwWEnd
  match visit.halted with
  | none => Exec.ofExcept (.error (closerFault opener "WEnd"))
  | some close =>
    let flow ← low.whileRounds (.slice tokens (pos + 1) header) (.slice tokens header close)
      low.fuel
    return (flow, close + 1)

/-- Rounds until a condition holds after them. -/
def untilRounds (low : Engine) (condition body : Window) : Nat → Exec Flow
  | 0 => Exec.starved
  | fuel + 1 => do
    match Round.ofFlow (← low.runBlock body) with
    | .leave flow => return flow
    | .done => return .normal
    | .next =>
      if (← low.whole condition).asBool then return .normal
      else untilRounds low condition body fuel

/-- The loop with its condition last whose keyword stands at a position. -/
def doLoop (low : Engine) (window : Window) (opener : Token) (pos : Nat) : Exec (Flow × Nat) := do
  let tokens := window.tokens
  let visit := Layout.scanOutermost tokens (pos + 1) window.stop fun token =>
    token.kind == .kwUntil
  match visit.halted with
  | none => Exec.ofExcept (.error (closerFault opener "Until"))
  | some close =>
    let ending := Layout.statementEnd tokens (close + 1) window.stop
    let flow ← low.untilRounds (.slice tokens (close + 1) ending) (.slice tokens (pos + 1) close)
      low.fuel
    return (flow, ending)

end Engine

end LineScript
