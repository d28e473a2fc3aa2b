import LineScript.Interpreter.Call
import LineScript.Interpreter.Statement
import LineScript.Program.Prepare

/-!
# Running scripts

The engine of a given fuel, and what a host does with a machine: prepare the script, run it as a
whole or statement by statement, evaluate at a position, call a function. Fuel bounds the nesting
of constructs and the rounds of loops; a result other than running out of it does not depend on
how much there was.
-/

namespace LineScript

/-- The engine of a given fuel: every part of the interpreter works with an engine of less. -/
def engine : (fuel : Nat) → Engine
  | 0 =>
    { fuel := 0
      term := fun _ _ => Exec.starved
      value := fun _ _ => Exec.starved
      call := fun _ _ _ => Exec.starved
      runScope := Exec.starved }
  | fuel + 1 =>
    { fuel
      term := fun window pos => (engine fuel).evalTerm window pos
      value := fun window pos => (engine fuel).evalValue window pos
      call := fun name args line => (engine fuel).callFunction name args line
      runScope := fun machine => (engine fuel).runStatements fuel machine }

namespace Machine

/-- Writes notes to the trace. -/
def traceNotes (notes : List String) : Exec Unit :=
  notes.forM fun note => Exec.trace fun _ => note

/-- Prepares the script unless that was done before. A script that cannot be prepared is gone: it
is not tried again. -/
def prepare : Exec Unit := do
  let machine ← get
  match machine.pending with
  | none => return ()
  | some tokens =>
    modify fun machine => { machine with pending := none }
    let prepared := Program.prepare machine.host machine.scriptPath tokens
    traceNotes prepared.notes.toList
    let program ← Exec.ofExcept prepared.result
    modify fun machine =>
      let root := { machine.stack.root with code := .whole program.tokens }
      { machine with program, stack := { machine.stack with root := root.rewind } }

/-- Runs the statements of the innermost scope. -/
def runScope (fuel : Nat) : Exec Flow := (engine fuel).runScope

/-- Calls the function of a name. -/
def call (fuel : Nat) (name : String) (args : List Value) (line : Nat) : Exec Value :=
  (engine fuel).call name args line

/-- Runs the next statement of the innermost scope. -/
def step (fuel : Nat) : Exec StepResult := (engine fuel).step

/-- What evaluating at a position gives: a value if one was asked for, how control left, and how
many tokens were read. -/
structure Evaluated where
  /-- The value. -/
  value : Option Value
  /-- How control left. -/
  flow : Flow
  /-- The number of tokens read. -/
  consumed : Nat

/-- Evaluates the expression at a position of a window. -/
def evalExpression (fuel : Nat) (window : Window) (pos : Nat) : Exec Evaluated := do
  let (value, after) ← (engine fuel).value window pos
  return { value := some value, flow := .normal, consumed := after - pos }

/-- Runs the statement at a position of a window. -/
def evalStatement (fuel : Nat) (window : Window) (pos : Nat) : Exec Evaluated := do
  let (flow, after) ← (engine fuel).statement window pos
  return { value := none, flow, consumed := after - pos }

/-- Runs a window as a block, with variables bound in it. -/
def runBlock (fuel : Nat) (code : Window) (bindings : List (String × Value)) : Exec Flow :=
  (engine fuel).runBlock code bindings

/-- Calls the function that was registered for the end of the script by an engine, as a call that is
tried. Only while it runs is the script not ending. -/
def runExitHandlerBy (try' : Exec Value → Exec (Except Stop Value)) (high : Engine) : Exec Unit := do
  let machine ← get
  match machine.exitHandler with
  | none => return ()
  | some name =>
    modify fun machine => { machine with exitHandler := none }
    Exec.trace fun _ => "exit: calling handler " ++ name
    modify fun machine => { machine with exitRequested := false, callDepth := 0 }
    let outcome ← try' (high.call name [] machine.line)
    modify fun machine => { machine with exitRequested := true }
    let _ ← Exec.ofAttempt outcome

/-- Calls the function that was registered for the end of the script. -/
def runExitHandler (fuel : Nat) : Exec Unit := runExitHandlerBy Exec.attempt (engine fuel)

/-- The machine with only the script's scope left, at its start again. -/
def rewound (machine : Machine) : Machine :=
  { machine with
    running := false
    stack := { root := machine.stack.root.rewind }
    callDepth := 0 }

/-- Runs the script from where it stands to its end, and then the function registered for that, by an
engine. What may stop is tried. On a running machine this does nothing. -/
def runBy (try' : {α : Type} → Exec α → Exec (Except Stop α)) (high : Engine) : Exec Unit := do
  if (← get).running then return ()
  prepare
  modify fun machine => { machine with running := true, exitRequested := false }
  let path := (← get).scriptPath
  Exec.trace fun _ => "run: " ++ path
  let outcome ← try' high.runScope
  modify rewound
  let flow ← Exec.ofAttempt outcome
  Exec.trace fun _ => "run: finished with " ++ flow.trace
  runExitHandlerBy try' high

/-- Runs the script from where it stands to its end, and then the function registered for that. -/
def run (fuel : Nat) : Exec Unit := runBy Exec.attempt (engine fuel)

/-- What a machine is doing. -/
inductive Activity where
  /-- Nothing. -/
  | stopped
  /-- It runs its script. -/
  | running
  /-- It waits between two statements of its script. -/
  | suspended
deriving Repr, DecidableEq

/-- What a machine is doing. -/
def activity (machine : Machine) : Activity :=
  if machine.running then (if machine.suspended then .suspended else .running) else .stopped

/-- Makes the machine wait before its next statement. -/
def suspend : Exec Unit := modify fun machine => { machine with suspended := true }

/-- Lets the machine go on. -/
def resume : Exec Unit := modify fun machine => { machine with suspended := false }

/-- Sets the function to call when the script ends. -/
def setExitHandler (name : String) : Exec Unit :=
  modify fun machine => { machine with exitHandler := some name }

/-- Sets whether what is written also goes to the host's console. -/
def setEcho (echo : Bool) : Exec Unit := modify fun machine => { machine with echo }

end Machine

end LineScript
