import LineScript.Fault.Cause

/-!
# Faults

A fault is a cause, the source line it points at and, for a running script, the calls that it
left on its way out. `Fault.display` is the report that a user reads.
-/

namespace LineScript

/-- A call that a fault passed through. -/
structure CallFrame where
  /-- The name of the called function. -/
  function : String
  /-- The line of the call. -/
  line : Nat
deriving Repr, DecidableEq

/-- A fault of one of the three stages of a script's life. -/
inductive Fault where
  /-- The text cannot be read as tokens. -/
  | lexing (cause : LexCause) (line : Nat)
  /-- The tokens cannot be prepared for running. -/
  | preparing (cause : PrepareCause) (line : Nat)
  /-- The running script stopped; the calls it left stand innermost first. -/
  | running (cause : RunCause) (line : Nat) (calls : List CallFrame)
deriving Repr, DecidableEq

namespace Fault

/-- The line that a fault points at. -/
def line : Fault → Nat
  | lexing _ line | preparing _ line | running _ line _ => line

/-- The wording of the cause. -/
def message : Fault → String
  | lexing cause _ => cause.message
  | preparing cause _ => cause.message
  | running cause _ _ => cause.message

/-- The calls that the fault left, innermost first. -/
def calls : Fault → List CallFrame
  | running _ _ calls => calls
  | _ => []

/-- The class of a running script's fault, where it has one. -/
def kind : Fault → Option FaultKind
  | running cause _ _ => cause.kind
  | _ => none

/-- Adds the call that a running script's fault leaves next. Reading and preparing happen outside
all calls, so their faults stay as they are. -/
def leaving (fault : Fault) (function : String) (line : Nat) : Fault :=
  match fault with
  | running cause at' calls => running cause at' (calls ++ [⟨function, line⟩])
  | other => other

/-- A fault is an instance of its class and of the general class; a running script's fault
without a class is of the general class only, and other faults are of none. -/
def isInstanceOf (fault : Fault) (kind : FaultKind) : Bool :=
  match fault with
  | running cause _ _ =>
    match cause.kind with
    | some own => own.isInstanceOf kind
    | none => kind == .runtimeError
  | _ => false

/-- The word in brackets that begins a report. -/
def heading : Fault → String
  | lexing .. => "Lexer Error"
  | preparing .. => "Preprocess Error"
  | running cause _ _ =>
    match cause.kind with
    | some kind => kind.name
    | none => "Runtime Error"

/-- The report of a fault: heading, line and wording, then one line for each call it left. -/
def display (fault : Fault) : String :=
  "[" ++ fault.heading ++ "] Line " ++ toString fault.line ++ ": " ++ fault.message ++
    String.join (fault.calls.map fun frame =>
      "\n  in " ++ frame.function ++ "() called at line " ++ toString frame.line)

end Fault

end LineScript
