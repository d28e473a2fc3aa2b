import LineScript.Program.CallSites
import LineScript.Program.Continuation
import LineScript.Program.Functions
import LineScript.Program.Include
import LineScript.Program.Loops
import LineScript.Program.Structure

/-!
# Preparing a program

The tokens of a script become a program in a fixed order of passes: includes are resolved,
continued lines joined, then calls, loops and functions are taken out, and at last every list of
tokens is checked for balanced blocks.
-/

namespace LineScript

namespace Program

/-- Checks the statements outside functions, then all loop bodies, then all function bodies. -/
def check (program : Program) : Except Fault Unit := do
  Structure.check program.tokens
  program.loops.toList.forM fun loop => Structure.check loop.body
  program.functions.forM fun entry => Structure.check entry.2.body

/-- The passes after includes are resolved and continued lines joined; the functions go into the
state. -/
def assemble (tokens : List Token) : EStateM Fault Functions.Defined Program := do
  let (tokens, calls) ← liftExcept (CallSites.extract tokens)
  let (tokens, loops) ← liftExcept (Loops.extract tokens)
  let tokens ← Functions.extract tokens
  let program : Program :=
    { tokens := tokens.toArray, functions := (← get).functions, calls, loops }
  liftExcept program.check
  return program
where
  /-- A pass that changes no state. -/
  liftExcept {α : Type} (outcome : Except Fault α) : EStateM Fault Functions.Defined α :=
    match outcome with
    | .ok result => pure result
    | .error fault => throw fault

/-- The note that ends a successful preparation. -/
def summary (program : Program) : String :=
  "preprocess: " ++ toString program.tokens.size ++ " tokens, " ++
    toString program.functions.length ++ " functions, " ++ toString program.calls.size ++
    " call sites, " ++ toString program.loops.size ++ " loops"

/-- What preparing a script gives: the program or a fault, and the notes for the trace, which are
kept in both cases. -/
structure Prepared where
  /-- The program, or why there is none. -/
  result : Except Fault Program
  /-- Notes for the trace, in order. -/
  notes : Array String

/-- Joins continued lines and runs the passes after that. -/
def prepareJoined (tokens : List Token) : Prepared :=
  match Continuation.join tokens with
  | .error fault => ⟨.error fault, #[]⟩
  | .ok joined =>
    match assemble joined {} with
    | .ok program defined => ⟨.ok program, defined.notes.push program.summary⟩
    | .error fault defined => ⟨.error fault, defined.notes⟩

/-- Prepares the tokens of the script at a path. -/
def prepare (host : Host) (script : String) (tokens : List Token) : Prepared :=
  match Include.resolve host script tokens {} with
  | .error fault progress => ⟨.error fault, progress.notes⟩
  | .ok resolved progress =>
    let later := prepareJoined resolved
    ⟨later.result, progress.notes ++ later.notes⟩

end Program

end LineScript
