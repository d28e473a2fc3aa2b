import LineScript.Program.Basic
import LineScript.Value.Basic

/-!
# Scopes

A scope is a run of tokens being executed, with the variables that live in it. The script itself
and every function call are frames: they also hold the registers. Blocks inside a frame share its
registers.
-/

namespace LineScript

/-- Tokens from `start` up to `stop` of a longer run. -/
structure Window where
  /-- The whole run. -/
  tokens : TokenBlock
  /-- The first position of the window. -/
  start : Nat
  /-- The position after its last. -/
  stop : Nat
deriving Repr, DecidableEq

namespace Window

/-- A whole run of tokens. -/
def whole (tokens : TokenBlock) : Window := ⟨tokens, 0, tokens.size⟩

/-- The part of a run between two positions, as far as the run reaches. -/
def slice (tokens : TokenBlock) (start stop : Nat) : Window := ⟨tokens, start, min stop tokens.size⟩

/-- No tokens. -/
def empty : Window := whole #[]

/-- The token at a position before the window's end. -/
def token? (window : Window) (pos : Nat) : Option Token :=
  if pos < window.stop then window.tokens[pos]? else none

end Window

/-- What a scope belongs to. -/
inductive ScopeKind where
  /-- The script. -/
  | script
  /-- A call of the function of this name. -/
  | function (name : String)
  /-- A block inside a script or function. -/
  | block
deriving Repr, DecidableEq

/-- A variable's value, and whether it may be written again. -/
structure Variable where
  /-- Its value. -/
  value : Value
  /-- It may not be written again. -/
  constant : Bool := false
deriving DecidableEq

/-- Variables by their names in small letters; no name occurs twice. -/
abbrev Variables := List (String × Variable)

namespace Variables

/-- The variable of this name. -/
def get? (vars : Variables) (key : String) : Option Variable := vars.lookup key

/-- A variable of this name exists. -/
def has (vars : Variables) (key : String) : Bool := (vars.get? key).isSome

/-- Writes a variable, in place of the one of the same name if there is one. -/
def insert (key : String) (variable' : Variable) : Variables → Variables
  | [] => [(key, variable')]
  | (other, held) :: rest =>
    if other == key then (key, variable') :: rest else (other, held) :: insert key variable' rest

end Variables

/-- The registers of a frame. -/
structure Registers where
  /-- The error code. -/
  error : Int64 := 0
  /-- The extended code. -/
  extended : Int64 := 0
  /-- What a function returns when it ends without saying so. -/
  returnValue : Value := .number 0
deriving DecidableEq

/-- A scope. -/
structure Scope where
  /-- What it belongs to. -/
  kind : ScopeKind
  /-- The tokens it runs. -/
  code : Window
  /-- The position of the next token. -/
  pos : Nat
  /-- Its variables. -/
  vars : Variables := []
  /-- Its registers, of which only those of frames are used. -/
  registers : Registers := {}
  /-- The number of arguments of the call it belongs to. -/
  numParams : Nat := 0
deriving DecidableEq

namespace Scope

/-- A scope at the start of its tokens. -/
def ofCode (kind : ScopeKind) (code : Window) : Scope := { kind, code, pos := code.start }

/-- Scripts and function calls are frames. -/
def isFrame (scope : Scope) : Bool := scope.kind != .block

/-- The next token. -/
def current? (scope : Scope) : Option Token := scope.code.token? scope.pos

/-- The scope at the start of its tokens again. -/
def rewind (scope : Scope) : Scope := { scope with pos := scope.code.start }

end Scope

/-- The scopes being executed: the script's own at the bottom, the others innermost first. -/
structure Stack where
  /-- Function calls and blocks, innermost first. -/
  inner : List Scope := []
  /-- The script's scope. -/
  root : Scope
deriving DecidableEq

namespace Stack

/-- All scopes, innermost first. -/
def scopes (stack : Stack) : List Scope := stack.inner ++ [stack.root]

/-- How many scopes there are. -/
def depth (stack : Stack) : Nat := stack.inner.length + 1

/-- The innermost scope. -/
def top (stack : Stack) : Scope :=
  match stack.inner with
  | scope :: _ => scope
  | [] => stack.root

/-- Changes the scope at a position counted from the innermost; beyond the others is the
script's. -/
def modifyAt (stack : Stack) (position : Nat) (change : Scope → Scope) : Stack :=
  if position < stack.inner.length then
    { stack with inner := stack.inner.modify position change }
  else { stack with root := change stack.root }

/-- Changes the innermost scope. -/
def modifyTop (stack : Stack) (change : Scope → Scope) : Stack :=
  match stack.inner with
  | scope :: rest => { stack with inner := change scope :: rest }
  | [] => { stack with root := change stack.root }

/-- The scope at a position counted from the innermost; beyond the others is the script's. -/
def scopeAt (stack : Stack) (position : Nat) : Scope :=
  (stack.inner[position]?).getD stack.root

/-- A new innermost scope. -/
def push (stack : Stack) (scope : Scope) : Stack := { stack with inner := scope :: stack.inner }

/-- The stack without its innermost scope; the script's scope stays. -/
def pop (stack : Stack) : Stack := { stack with inner := stack.inner.tail }

/-- The position of the innermost frame. -/
def framePosition (stack : Stack) : Nat := stack.inner.findIdx Scope.isFrame

/-- The innermost frame. -/
def frame (stack : Stack) : Scope := stack.scopeAt stack.framePosition

/-- Changes the innermost frame. -/
def modifyFrame (stack : Stack) (change : Scope → Scope) : Stack :=
  stack.modifyAt stack.framePosition change

/-- Reading a variable looks through all scopes, innermost first. -/
def lookup? (stack : Stack) (key : String) : Option Variable :=
  match stack.inner.findSome? fun scope => scope.vars.get? key with
  | some found => some found
  | none => stack.root.vars.get? key

/-- The position of the innermost scope that has a variable, looked for up to the first frame. -/
def positionInFrame? (key : String) : List Scope → Option Nat
  | [] => none
  | scope :: rest =>
    if scope.vars.has key then some 0
    else if scope.isFrame then none
    else (positionInFrame? key rest).map (· + 1)

/-- Where a plain assignment writes: to the innermost variable of the same function, else to the
script's variable of that name, else to a new variable of the innermost scope. -/
def assignPosition (stack : Stack) (key : String) : Nat :=
  match positionInFrame? key stack.inner with
  | some position => position
  | none => if stack.root.vars.has key then stack.inner.length else 0

end Stack

/-- Where a declaration puts its variable. -/
inductive DeclScope where
  /-- Into the innermost scope. -/
  | inner
  /-- Into the innermost frame. -/
  | static
  /-- Into the script's scope. -/
  | global
deriving Repr, DecidableEq

/-- The position of the scope that a declaration writes to. -/
def Stack.declPosition (stack : Stack) : DeclScope → Nat
  | .inner => 0
  | .static => stack.framePosition
  | .global => stack.inner.length

end LineScript
