import LineScript.Interpreter.Expression
import LineScript.Library.Dispatch

/-!
# Calls

A name is looked for among the script's functions and then in the library. A call clears the two
codes of the caller's registers. A script's function runs in a frame of its own, in which its
parameters are variables; when it has ended, its codes become the caller's.
-/

namespace LineScript

open Machine

/-- Refuses more arguments than parameters and fewer than required ones. -/
def checkArity (name : String) (greatest required given line : Nat) : Exec Unit :=
  if greatest < given then Exec.fail (.tooManyArguments name given greatest) line
  else if given < required then Exec.fail (.tooFewArguments name given required) line
  else pure ()

/-- Calls a function of the library whose work is done by an action. -/
def callBuiltinBy (work : Args → Exec Value) (function : Builtin) (args : List Value) (line : Nat) :
    Exec Value := do
  checkArity function.name function.params.length function.required args.length line
  match Args.fill function.params args with
  | .error parameter => Exec.fail (.noDefault function.name parameter) line
  | .ok values =>
    resetRegisters
    Exec.trace fun _ => "call: " ++ function.name ++ "(" ++ toString args.length ++ " args)"
    work { values, supplied := args.length }

/-- Calls a function of the library. -/
def callBuiltin (function : Builtin) (args : List Value) (line : Nat) : Exec Value :=
  callBuiltinBy function.run function args line

/-- Counts one more running call, unless there are too many already. -/
def enterCall (name : String) (line : Nat) : Exec Unit := do
  if maxCallDepth ≤ (← get).callDepth then Exec.fail (.callDepth name) line
  else modify fun machine => { machine with callDepth := machine.callDepth + 1 }

/-- Counts one running call less. -/
def leaveCall : Exec Unit :=
  modify fun machine => { machine with callDepth := machine.callDepth - 1 }

/-- The frame of a call. -/
def callScope (function : UserFunction) (given : Nat) : Scope :=
  { Scope.ofCode (.function function.name) (.whole function.body) with numParams := given }

/-- What a call returns, by how its body ended and what its registers held then. -/
def returnedValue (flow : Flow) (registers : Registers) : Value :=
  match flow with
  | .returned value => value
  | .exit => .null
  | _ => registers.returnValue

/-- Adds a call to the fault that leaves it. -/
def Stop.leaving (stop : Stop) (function : String) (line : Nat) : Stop :=
  match stop with
  | .fault raised => .fault (raised.leaving function line)
  | .halted halt => .halted halt

namespace Engine

/-- Binds parameters in order: to the argument at their place, or to their default, which is
evaluated with the earlier ones already bound. -/
def bindParams (low : Engine) (function : UserFunction) (line : Nat) :
    List Param → List Value → Exec Unit
  | [], _ => return ()
  | param :: params, args => do
    let value ←
      match args.head?.getD .defaultWord with
      | .defaultWord =>
        match param.fallback with
        | some tokens => Prod.fst <$> low.value (.whole tokens) 0
        | none => Exec.fail (.noDefault function.name ("$" ++ param.name)) line
      | value => pure value
    setVariable param.name value
    bindParams low function line params args.tail

/-- Binds the parameters of a function and runs its body. -/
def runBody (low : Engine) (function : UserFunction) (args : List Value) (line : Nat) : Exec Flow :=
  do
    low.bindParams function line function.params args
    low.runScope

/-- Calls a function of the script whose body is run by an action that is tried. -/
def callUserBy (try' : Exec Flow → Exec (Except Stop Flow)) (body : Exec Flow)
    (function : UserFunction) (args : List Value) (line : Nat) : Exec Value := do
  checkArity function.name function.params.length function.required args.length line
  resetRegisters
  enterCall function.name line
  Exec.trace fun _ => "call: " ++ function.name ++ "(" ++ toString args.length ++
    " args) from line " ++ toString line
  let (outcome, left) ← Exec.inScopeBy try' (callScope function args.length) body
  leaveCall
  match outcome with
  | .error stop => throw (stop.leaving function.name line)
  | .ok flow =>
    modifyRegisters fun registers =>
      { registers with error := left.registers.error, extended := left.registers.extended }
    return returnedValue flow left.registers

/-- Calls a function of the script. -/
def callUser (low : Engine) (function : UserFunction) (args : List Value) (line : Nat) :
    Exec Value :=
  callUserBy Exec.attempt (low.runBody function args line) function args line

/-- The steps of a call of one of the script's functions, whose body is tried. -/
theorem callUserBy_attempt (body : Exec Flow) (function : UserFunction) (args : List Value)
    (line : Nat) : callUserBy Exec.attempt body function args line = (do
      checkArity function.name function.params.length function.required args.length line
      resetRegisters
      enterCall function.name line
      Exec.trace fun _ => "call: " ++ function.name ++ "(" ++ toString args.length ++
        " args) from line " ++ toString line
      let (outcome, left) ← Exec.inScope (callScope function args.length) body
      leaveCall
      match outcome with
      | .error stop => throw (stop.leaving function.name line)
      | .ok flow =>
        modifyRegisters fun registers =>
          { registers with error := left.registers.error, extended := left.registers.extended }
        return returnedValue flow left.registers) := rfl

/-- Calls the function of a name, one of the script or of the library. While the script is ending,
no call does anything. -/
def callNamed (user : UserFunction → Exec Value) (library : Builtin → Exec Value) (name : String)
    (line : Nat) : Exec Value := do
  let machine ← get
  if machine.exitRequested then return .null
  else
    match machine.program.function? name with
    | some function => user function
    | none =>
      match Builtin.ofName? name with
      | some function => library function
      | none => Exec.fail (.functionUnknown name) line

/-- Calls the function of a name. -/
def callFunction (low : Engine) (name : String) (args : List Value) (line : Nat) : Exec Value :=
  callNamed (fun function => low.callUser function args line)
    (fun function => callBuiltin function args line) name line

end Engine

end LineScript
