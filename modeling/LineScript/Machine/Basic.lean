import LineScript.Fault.Report
import LineScript.Host.Basic
import LineScript.Machine.Heap
import LineScript.Machine.Scope
import LineScript.Text.Quoted
import LineScript.Token.Lexer

/-!
# Machines

A machine is a script with everything that running it changes: its scopes, heap, registers, output
and host. Actions on a machine either return a value or stop with a fault; in both cases the
machine keeps what was done so far. Two things halt an action without an answer of the script: it
needs more steps than it was allowed (`Stop.starved`), or it asks for what no machine can do, and the
program that runs the script crashes (`Stop.crashed`).
-/

namespace LineScript

/-- How control leaves a statement, block or body. -/
inductive Flow where
  /-- At its end. -/
  | normal
  /-- With a value for the caller. -/
  | returned (value : Value)
  /-- Out of this many loops. -/
  | exitLoop (levels : UInt32)
  /-- To the next round of the loop this many levels out. -/
  | continueLoop (levels : UInt32)
  /-- To the next alternative of a selection. -/
  | continueCase
  /-- Out of the script. -/
  | exit
deriving DecidableEq

/-- How a trace shows a value. -/
def Value.trace : Value → String
  | .string text => "String(" ++ Text.quoted text ++ ")"
  | .number n => "Number(" ++ toString n.toInt ++ ")"
  | .double x => "Double(" ++ Decimal.exact x ++ ")"
  | .bool b => if b then "Bool(true)" else "Bool(false)"
  | .binary bytes =>
    "Binary([" ++ ", ".intercalate (bytes.map fun byte => toString byte.toNat) ++ "])"
  | .handle id => "Handle(HandleId(" ++ toString id ++ "))"
  | .function name => "Function(" ++ Text.quoted name ++ ")"
  | .defaultWord => "Default"
  | .null => "Null"

/-- How a trace shows a flow. -/
def Flow.trace : Flow → String
  | normal => "Normal"
  | returned value => "Return(" ++ value.trace ++ ")"
  | exitLoop levels => "ExitLoop(" ++ toString levels.toNat ++ ")"
  | continueLoop levels => "ContinueLoop(" ++ toString levels.toNat ++ ")"
  | continueCase => "ContinueCase"
  | exit => "Exit"

/-- What the program that runs a script crashes on. -/
inductive Crash where
  /-- An array of more cells than memory can have. -/
  | capacity (cells : Nat)
  /-- A range that no random number can be drawn from. -/
  | range
deriving Repr, DecidableEq

/-- Why there is no answer of the script. -/
inductive Halt where
  /-- More steps were needed than were allowed. -/
  | steps
  /-- The program that runs the script crashed. -/
  | crash (crash : Crash)
deriving Repr, DecidableEq

/-- Why an action did not return. -/
inductive Stop where
  /-- The script stopped with a fault. -/
  | fault (fault : Fault)
  /-- The action was halted. -/
  | halted (halt : Halt)
deriving DecidableEq

namespace Stop

/-- No steps were left. -/
@[match_pattern] abbrev starved : Stop := .halted .steps

/-- The program crashed. -/
@[match_pattern] abbrev crashed (crash : Crash) : Stop := .halted (.crash crash)

/-- Halted in one way or the other, so that there is no answer. -/
@[match_pattern] abbrev outOfFuel {halt : Halt} : Stop := .halted halt

end Stop

/-- A script and everything that running it changes. -/
structure Machine where
  /-- What surrounds the script. -/
  host : Host
  /-- The absolute path of the script. -/
  scriptPath : String
  /-- The tokens of a script that has not been prepared. -/
  pending : Option (List Token)
  /-- The prepared program. -/
  program : Program := {}
  /-- The scopes being executed. -/
  stack : Stack := { root := .ofCode .script .empty }
  /-- Arrays, maps, files and timers. -/
  heap : Heap := {}
  /-- The script is being run. -/
  running : Bool := false
  /-- The script waits between two statements. -/
  suspended : Bool := false
  /-- What another party sets the suspension to, before each of the next looks at it. -/
  interference : List Bool := []
  /-- Everything written to standard output. -/
  stdout : String := ""
  /-- Everything written to the error stream. -/
  stderr : String := ""
  /-- What is written also goes to the host's console. -/
  echo : Bool := true
  /-- The line of the statement being executed. -/
  line : Nat := 0
  /-- The code with which the script ends. -/
  exitCode : Int32 := 0
  /-- The script is ending. -/
  exitRequested : Bool := false
  /-- The function to call when the script ends. -/
  exitHandler : Option String := none
  /-- How many function calls are running. -/
  callDepth : Nat := 0

/-- An action on a machine. -/
abbrev Exec := EStateM Stop Machine

namespace Exec

/-- Stops with a fault at a line. -/
def fail {α : Type} (cause : RunCause) (line : Nat) : Exec α :=
  throw (.fault (.running cause line []))

/-- Stops because no steps are left. -/
def starved {α : Type} : Exec α := throw .starved

/-- Crashes the program. -/
def crash {α : Type} (crash : Crash) : Exec α := throw (.crashed crash)

/-- The result of a computation that changes no machine. -/
def ofExcept {α : Type} (outcome : Except Fault α) : Exec α :=
  match outcome with
  | .ok result => pure result
  | .error fault => throw (.fault fault)

/-- Writes a trace line if traces are written. -/
def trace (text : Unit → String) : Exec Unit :=
  modify fun machine => { machine with host := machine.host.trace text }

/-- The line of the statement being executed. -/
def currentLine : Exec Nat := return (← get).line

/-- Stops with a fault at the line of the statement being executed. -/
def failHere {α : Type} (cause : RunCause) : Exec α := do fail cause (← currentLine)

end Exec

namespace Machine

/-- The most function calls that may run inside each other. -/
def maxCallDepth : Nat := 300

/-- The most cells that an array can have: an allocation has at most `2 ^ 63 - 1` bytes, and a cell
takes 32 of them. -/
@[irreducible] def maxCells : Nat := 9223372036854775807 / 32

/-- Makes room for cells where there is room for some. The program crashes when more are needed than
memory can have. -/
def reserve (present cells : Nat) : Exec Unit :=
  if present < cells ∧ maxCells < cells then Exec.crash (.capacity cells) else pure ()

/-- A machine for the tokens of the script at a path. -/
def ofTokens (host : Host) (path : String) (tokens : List Token) : Machine :=
  { host, scriptPath := host.absolutePath path, pending := some tokens }

/-- A machine for a source. -/
def ofSource (host : Host) (path source : String) : Except Fault Machine := do
  return ofTokens host path (← tokenize source)

/-- A machine for the script file at a path. -/
def ofFile (host : Host) (path : String) : Except Fault Machine :=
  match host.files.read host.directory path with
  | .error reason => .error (.running (.scriptUnreadable path reason.message) 0 [])
  | .ok bytes => ofSource host path (Text.Utf8.decode bytes)

end Machine

end LineScript
