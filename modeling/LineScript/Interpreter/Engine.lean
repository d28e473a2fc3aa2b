import LineScript.Layout.Scan
import LineScript.Machine.Objects
import LineScript.Machine.Variables

/-!
# Engines

Expressions, calls, blocks and scopes need each other. Each of them is defined on its own over an
`Engine`: what it may ask of the others, with less fuel than it was given itself. Facts about a
construct are then stated for every engine, and facts about whole runs follow by induction on the
fuel.

Expressions are evaluated over a window of tokens. The position after what was read is part of the
result, and a fault reports the line of the token at the position where it arose.
-/

namespace LineScript

/-- What the parts of the interpreter may ask of each other. -/
structure Engine where
  /-- How many rounds a loop of the interpreter may make. -/
  fuel : Nat
  /-- Evaluates the term at a position of a window and returns the position after it. -/
  term : Window → Nat → Exec (Value × Nat)
  /-- Evaluates the expression at a position of a window and returns the position after it. -/
  value : Window → Nat → Exec (Value × Nat)
  /-- Calls the function of a name with arguments, from a line. -/
  call : String → List Value → Nat → Exec Value
  /-- Runs the innermost scope until it ends or control leaves it. -/
  runScope : Exec Flow

namespace Exec

/-- The line to report at a position: that of its token, or that of the running statement when no
token stands there or the token stands in no source. -/
def lineAt (window : Window) (pos : Nat) : Exec Nat := do
  match window.token? pos with
  | some token => if 0 < token.line then return token.line else currentLine
  | none => currentLine

/-- Stops with a fault at a position. -/
def failAt {α : Type} (window : Window) (pos : Nat) (cause : RunCause) : Exec α := do
  fail cause (← lineAt window pos)

/-- The token at a position, which must be of a kind; `wanted` is how a report names that kind. -/
def expect (window : Window) (pos : Nat) (kind : TokenKind) (wanted : String) : Exec Token := do
  match window.token? pos with
  | some token =>
    if token.kind = kind then return token
    else failAt window pos (.expected wanted (some token.display))
  | none => failAt window pos (.expected wanted none)

/-- How an action ended. The machine is as the action left it in either case. -/
def attempt {α : Type} (action : Exec α) : Exec (Except Stop α) := fun machine =>
  match action machine with
  | .ok result after => .ok (.ok result) after
  | .error stop after => .ok (.error stop) after

/-- Ends as an attempted action ended. -/
def ofAttempt {α : Type} : Except Stop α → Exec α
  | .ok result => pure result
  | .error stop => throw stop

/-- Runs an action in a new innermost scope and takes the scope off again. How far a reason to stop
is caught lies in how the action is tried. The result is how it ended, and the scope as the action
left it. -/
def inScopeBy {α : Type} (try' : Exec α → Exec (Except Stop α)) (scope : Scope) (action : Exec α) :
    Exec (Except Stop α × Scope) := do
  modify fun machine => { machine with stack := machine.stack.push scope }
  let outcome ← try' action
  let left := (← get).stack.top
  modify fun machine => { machine with stack := machine.stack.pop }
  return (outcome, left)

/-- Runs an action in a new innermost scope and takes the scope off again, however the action
ended. -/
def inScope {α : Type} (scope : Scope) (action : Exec α) : Exec (Except Stop α × Scope) :=
  inScopeBy attempt scope action

end Exec

namespace Window

/-- The token at a position is of a kind. -/
def hasKind (window : Window) (pos : Nat) (kind : TokenKind) : Bool :=
  match window.token? pos with
  | some token => token.kind == kind
  | none => false

/-- The token at a position is an operator. -/
def hasOperator (window : Window) (pos : Nat) (operator : String) : Bool :=
  match window.token? pos with
  | some token => token.isOperator operator
  | none => false

/-- No token of a statement stands at a position: a line end, a comment or nothing at all. -/
def endsLine (window : Window) (pos : Nat) : Bool :=
  match window.token? pos with
  | some token => token.endsLine
  | none => true

end Window

namespace Engine

/-- Evaluates a window as one complete expression. -/
def whole (low : Engine) (window : Window) : Exec Value := do
  let (value, pos) ← low.value window window.start
  match window.token? pos with
  | some token =>
    if token.endsLine then return value
    else Exec.failAt window pos (.inExpression token.display)
  | none => return value

/-- The scope of a block, with variables bound in it. -/
def blockScope (code : Window) (bindings : List (String × Value)) : Scope :=
  { Scope.ofCode .block code with
    vars := bindings.foldl (fun vars binding =>
      vars.insert (Text.lower binding.1) ⟨binding.2, false⟩) [] }

/-- Runs a window as a block, in a scope of its own. -/
def runBlock (low : Engine) (code : Window) (bindings : List (String × Value) := []) :
    Exec Flow := do
  let (outcome, _) ← Exec.inScope (blockScope code bindings) low.runScope
  Exec.ofAttempt outcome

end Engine

end LineScript
