import LineScript.Fault.Report
import LineScript.Library.Signature
import LineScript.Program.Basic

/-!
# Calls

A name directly followed by an opening parenthesis is a call. Its tokens up to the closing
parenthesis are taken out into the table of calls, cut into arguments at the outermost commas, and
replaced by one token that carries the call's number. Calls inside arguments are taken out first.
-/

namespace LineScript.CallSites

/-- A call whose closing parenthesis has not been reached. -/
structure OpenCall where
  /-- The name called. -/
  name : Token
  /-- Finished arguments, last one first. -/
  groups : List (List Token) := []
  /-- The tokens of the argument being read, last one first. -/
  group : List Token := []
  /-- Parentheses open in the argument. -/
  parens : Nat := 0
  /-- Brackets open in the argument. -/
  brackets : Nat := 0

namespace OpenCall

/-- Adds a token to the argument being read. -/
def push (call : OpenCall) (token : Token) : OpenCall :=
  { call with group := token :: call.group }

/-- Reads one token that neither opens a call nor closes this one. -/
def accept (call : OpenCall) (token : Token) : Except Fault OpenCall :=
  match token.kind with
  | .lparen => .ok { call.push token with parens := call.parens + 1 }
  | .rparen => .ok { call.push token with parens := call.parens - 1 }
  | .lbracket => .ok { call.push token with brackets := call.brackets + 1 }
  | .rbracket => .ok { call.push token with brackets := call.brackets - 1 }
  | .separator =>
    if 0 < call.brackets then .ok (call.push token)
    else if 0 < call.parens then
      .error (.preparing (.callNestedSeparator call.name.lexeme) token.line)
    else if call.group.isEmpty then
      .error (.preparing (.callEmptyArgument call.name.lexeme) token.line)
    else .ok { call with groups := call.group.reverse :: call.groups, group := [] }
  | .eol | .comment => .error (.preparing (.callLineEnd call.name.lexeme) token.line)
  | _ => .ok (call.push token)

/-- The finished call. An argument after the last comma must not be empty. -/
def close (call : OpenCall) : Except Fault CallSite :=
  let site (groups : List (List Token)) : CallSite :=
    { name := call.name.lexeme, args := groups.reverse.map List.toArray, line := call.name.line }
  if !call.group.isEmpty then .ok (site (call.group.reverse :: call.groups))
  else if call.groups.isEmpty then .ok (site [])
  else .error (.preparing (.callEmptyArgument call.name.lexeme) call.name.line)

/-- The token that stands for the call of this number. -/
def token (call : OpenCall) (id : Nat) : Token :=
  { call.name with
    kind := if (Builtin.ofName? call.name.lexeme).isSome then .call id else .userCall id }

end OpenCall

/-- Tokens still to read, calls open at this point, innermost first, and what has been finished. -/
structure State where
  /-- Calls that are not closed yet. -/
  opened : List OpenCall := []
  /-- Tokens outside all calls, last one first. -/
  out : List Token := []
  /-- Finished calls. -/
  calls : Array CallSite := #[]

/-- Adds a token where the reading stands: to the innermost open call or to the result. -/
def State.emit (state : State) (token : Token) : State :=
  match state.opened with
  | call :: outer => { state with opened := call.push token :: outer }
  | [] => { state with out := token :: state.out }

/-- Reads one token inside or outside calls. -/
def State.accept (state : State) (token : Token) : Except Fault State :=
  match state.opened with
  | [] => .ok { state with out := token :: state.out }
  | call :: outer =>
    if token.kind = .rparen ∧ call.parens = 0 then do
      let site ← call.close
      let closed : State := { state with opened := outer, calls := state.calls.push site }
      return closed.emit (call.token state.calls.size)
    else do
      let call ← call.accept token
      return { state with opened := call :: outer }

/-- Reads all tokens. Outside calls, the name of a function being defined is no call. -/
def scan (state : State) : List Token → Except Fault State
  | [] =>
    match state.opened with
    | call :: _ => .error (.preparing (.callOpen call.name.lexeme) call.name.line)
    | [] => .ok state
  | [token] => do scan (← state.accept token) []
  | token :: next :: rest =>
    if token.kind = .kwFunc ∧ state.opened.isEmpty then
      scan { state with out := next :: token :: state.out } rest
    else if token.kind = .identifier ∧ next.kind = .lparen then
      scan { state with opened := { name := token } :: state.opened } rest
    else
      match state.accept token with
      | .ok state => scan state (next :: rest)
      | .error fault => .error fault

/-- The tokens with calls replaced, and the table of calls. -/
def extract (tokens : List Token) : Except Fault (List Token × Array CallSite) := do
  let state ← scan {} tokens
  return (state.out.reverse, state.calls)

end LineScript.CallSites
