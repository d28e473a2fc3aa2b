import LineScript.Interpreter.Assignment
import LineScript.Interpreter.Repetition

/-!
# Statements

A scope is run statement by statement. A step reads the token at the scope's position, which
decides what the statement is; the position moves on when the statement has succeeded. Between
two statements a suspended machine waits.
-/

namespace LineScript

open Machine

/-- What a step did. -/
inductive StepResult where
  /-- It ran a statement, and others may follow. -/
  | goOn
  /-- There was none left. -/
  | ended
  /-- It ran a statement with which control leaves the scope. -/
  | leave (flow : Flow)
deriving DecidableEq

/-- Moves the innermost scope to a position. -/
def moveTo (pos : Nat) : Exec Unit :=
  modify fun machine =>
    { machine with stack := machine.stack.modifyTop fun scope => { scope with pos } }

/-- The innermost scope. -/
def topScope : Exec Scope := return (← get).stack.top

/-- The innermost scope has no more of a statement on this line. -/
def atLineEnd : Exec Bool := do
  let scope ← topScope
  return scope.code.endsLine scope.pos

/-- Refuses what follows a complete statement on its line. -/
def expectLineEnd : Exec Unit := do
  match (← topScope).current? with
  | some token =>
    if token.endsLine then return () else Exec.fail (.lineEndExpected token.display) token.line
  | none => return ()

namespace Engine

/-- The statement at a position of a window; the position after it is returned. -/
def statement (low : Engine) (window : Window) (pos : Nat) : Exec (Flow × Nat) := do
  match window.token? pos with
  | none => return (.normal, pos)
  | some token =>
    match token.kind with
    | .kwScope => return (.normal, ← low.declaration window pos)
    | .kwEnum => return (.normal, ← low.enumeration window .inner (pos + 1))
    | .variableName => return (.normal, ← low.assignEach window low.fuel pos)
    | .call _ | .userCall _ =>
      let (_, pos) ← low.value window pos
      return (.normal, pos)
    | .kwReDim => return (.normal, ← low.resizing window pos)
    | .kwIf => low.choice window token pos
    | .kwSwitch => low.switch window token pos
    | .kwSelect => low.select window token pos
    | .loop id => return (← low.forLoop token id, pos + 1)
    | .kwWhile => low.whileLoop window token pos
    | .kwDo => low.doLoop window token pos
    | .eol | .comment => return (.normal, pos)
    | _ => Exec.failAt window pos (.notAStatement token.display)

/-- The value of the expression at the innermost scope's position, which moves behind it. -/
def scopeValue (low : Engine) : Exec Value := do
  let scope ← topScope
  let (value, pos) ← low.value scope.code scope.pos
  moveTo pos
  return value

/-- A flag, whose token stands before the innermost scope's position. -/
def flag (low : Engine) (token : Token) : Exec Unit := do
  match Text.lower token.lexeme with
  | "debug" => modify fun machine => { machine with host := { machine.host with tracing := true } }
  | "include" | "include-once" => Exec.fail (.includeLeft token.lexeme) token.line
  | _ => pure ()
  let scope ← topScope
  if scope.code.hasOperator scope.pos "=" then
    moveTo (scope.pos + 1)
    let value ← low.scopeValue
    Exec.trace fun _ => "flag: #" ++ token.lexeme ++ " = " ++ value.display
  else Exec.trace fun _ => "flag: ignoring #" ++ token.lexeme

/-- Leaves the function, or the script, with a value. -/
def returning (low : Engine) : Exec StepResult := do
  let value ← if ← atLineEnd then pure (.number 0) else low.scopeValue
  setReturnValue value
  return .leave (.returned value)

/-- Ends the script, with a code if one is given. -/
def exiting (low : Engine) : Exec StepResult := do
  if !(← atLineEnd) then
    let code := (← low.scopeValue).asInt
    modify fun machine => { machine with exitCode := code.toInt32 }
  let code := (← get).exitCode
  Exec.trace fun _ => "exit: code " ++ toString code.toInt
  modify fun machine => { machine with exitRequested := true }
  return .leave .exit

/-- Leaves a loop or its round, some levels out. -/
def jumping (low : Engine) (token : Token) (flow : UInt32 → Flow) : Exec StepResult := do
  let level ← if ← atLineEnd then pure 1 else Value.asInt <$> low.scopeValue
  if level < 1 then Exec.fail (.loopLevel token.lexeme level) token.line
  else return .leave (flow level.toUInt64.toUInt32)

/-- Goes past a function that stands among statements. -/
def skipFunction : Exec Unit := do
  let scope ← topScope
  let close := Layout.seek (fun token => token.kind == .kwEndFunc) scope.code.tokens scope.pos
    scope.code.stop
  moveTo (min (close + 1) scope.code.stop)

/-- Runs the statement that begins with a token, which stands before the innermost scope's
position. -/
def runToken (low : Engine) (token : Token) : Exec StepResult := do
  match token.kind with
  | .eol | .comment => return .goOn
  | .kwReturn => low.returning
  | .kwExit => low.exiting
  | .kwExitLoop => low.jumping token .exitLoop
  | .kwContinueLoop => low.jumping token .continueLoop
  | .kwContinueCase => return .leave .continueCase
  | .flag =>
    low.flag token
    expectLineEnd
    return .goOn
  | .kwFunc =>
    skipFunction
    expectLineEnd
    return .goOn
  | .kwScope | .variableName | .call _ | .userCall _ | .kwIf | .kwSwitch | .kwSelect | .loop _ |
    .kwWhile | .kwDo | .kwReDim | .kwEnum =>
    let scope ← topScope
    moveTo (scope.pos - 1)
    let (flow, pos) ← low.statement scope.code (scope.pos - 1)
    moveTo pos
    if flow = .normal then
      expectLineEnd
      return .goOn
    else return .leave flow
  | .identifier => Exec.fail (.bareName token.lexeme) token.line
  | .illegal => Exec.fail (.illegalToken token.lexeme) token.line
  | _ => Exec.fail (.noStatement token.display) token.line

/-- Runs the next statement of the innermost scope. -/
def step (low : Engine) : Exec StepResult := do
  let scope ← topScope
  match scope.current? with
  | none => return .ended
  | some token =>
    moveTo (scope.pos + 1)
    if 0 < token.line then modify fun machine => { machine with line := token.line }
    low.runToken token

/-- Looks whether the machine is suspended, after another party may have changed that. -/
def isSuspended : Exec Bool := do
  modify fun machine =>
    match machine.interference with
    | [] => machine
    | suspended :: interference => { machine with suspended, interference }
  return (← get).suspended

/-- Jumps that need something around them to jump out of. -/
def needsSurroundings : Flow → Bool
  | .exitLoop _ | .continueLoop _ | .continueCase => true
  | _ => false

/-- Runs the statements of the innermost scope, each of them after what is done where one begins. -/
def runStatementsBy (begins : Exec Unit) (low : Engine) : Nat → Exec Flow
  | 0 => Exec.starved
  | fuel + 1 => do
    if ← isSuspended then runStatementsBy begins low fuel
    else if (← get).exitRequested then return .exit
    else
      begins
      match ← low.step with
      | .goOn => runStatementsBy begins low fuel
      | .ended => return .normal
      | .leave flow =>
        if (← topScope).isFrame && needsSurroundings flow then
          Exec.fail (.flowOutside flow.trace) (← Exec.currentLine)
        else return flow

/-- Runs the statements of the innermost scope. -/
def runStatements (low : Engine) (fuel : Nat) : Exec Flow := runStatementsBy (pure ()) low fuel

/-- A scope looks whether it waits, then whether the script is ending, and then runs a statement. -/
theorem runStatements_succ (low : Engine) (fuel : Nat) : low.runStatements (fuel + 1) = (do
    if ← isSuspended then low.runStatements fuel
    else if (← get).exitRequested then return .exit
    else
      match ← low.step with
      | .goOn => low.runStatements fuel
      | .ended => return .normal
      | .leave flow =>
        if (← topScope).isFrame && needsSurroundings flow then
          Exec.fail (.flowOutside flow.trace) (← Exec.currentLine)
        else return flow) := rfl

end Engine

end LineScript
