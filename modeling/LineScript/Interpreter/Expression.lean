import LineScript.Interpreter.Engine
import LineScript.Machine.Macro
import LineScript.Value.Operation

/-!
# Expressions

An expression is a term followed by operators with a term each. All operators bind alike and are
applied from left to right, and both sides of a conjunction or disjunction are evaluated. A term
is a literal, a variable, a macro, a call, a name, a sign or negation of a term, an expression in
parentheses or an array in brackets; subscripts may follow it.
-/

namespace LineScript

open Machine

/-- The value of a variable token. -/
def variableValue (token : Token) : Exec Value := do
  match (← get).varValue? token.lexeme with
  | some value => return value
  | none => Exec.fail (.variableUnknown token.lexeme) token.line

/-- The element of an array or map; a fault that the base is neither points at a position. -/
def element (window : Window) (pos : Nat) (base key : Value) : Exec Value := do
  match base with
  | .handle id =>
    match (← get).heap.get? id with
    | some (.array _) => arrayGet id key.asInt
    | some (.map _) => mapGet id key.display
    | _ => notLive "array or map" id
  | _ => Exec.failAt window pos (.notIndexable base.typeName)

/-- Kinds of tokens that end an expression without belonging to it. -/
def TokenKind.endsExpression : TokenKind → Bool
  | eol | comment | rparen | rbracket | separator | kwThen | kwTo | kwStep => true
  | _ => false

namespace Engine

/-- The elements of an array from a position on, and the new array. -/
def arrayItems (low : Engine) (window : Window) : Nat → Nat → Array Value → Exec (Value × Nat)
  | 0, _, _ => Exec.starved
  | fuel + 1, pos, items => do
    let (item, pos) ← low.value window pos
    match window.token? pos with
    | some token =>
      match token.kind with
      | .separator => arrayItems low window fuel (pos + 1) (items.push item)
      | .rbracket => return (← newArray (items.push item), pos + 1)
      | _ => Exec.fail (.inArray token.display) token.line
    | none => Exec.failAt window pos .arrayOpen

/-- An array in brackets, from the position after the opening one. -/
def arrayLiteral (low : Engine) (window : Window) (pos : Nat) : Exec (Value × Nat) := do
  if window.hasKind pos .rbracket then return (← newArray #[], pos + 1)
  else low.arrayItems window low.fuel pos #[]

/-- The value that the subscripts at a position select from a base. -/
def subscripted (low : Engine) (window : Window) : Nat → Nat → Value → Exec (Value × Nat)
  | 0, _, _ => Exec.starved
  | fuel + 1, pos, base => do
    if window.hasKind pos .lbracket then
      let (key, pos) ← low.value window (pos + 1)
      let _ ← Exec.expect window pos .rbracket "']'"
      subscripted low window fuel (pos + 1) (← element window (pos + 1) base key)
    else return (base, pos)

/-- The values of the arguments of a call, in order. -/
def arguments (low : Engine) : List TokenBlock → Exec (List Value)
  | [] => return []
  | group :: groups => do
    let value ← low.whole (.whole group)
    return value :: (← arguments low groups)

/-- The value of the call of a number; faults about the number point at a position. -/
def callSite (low : Engine) (window : Window) (pos id : Nat) : Exec Value := do
  match (← get).program.calls[id]? with
  | some site => low.call site.name (← low.arguments site.args) site.line
  | none => Exec.failAt window pos (.callUnknown id)

/-- The value of a term without its subscripts, whose first token stands before a position. -/
def atom (low : Engine) (window : Window) (token : Token) (pos : Nat) : Exec (Value × Nat) := do
  match token.kind with
  | .string => return (.string token.lexeme, pos)
  | .number | .double => return (Value.parseNumber token.lexeme, pos)
  | .boolean => return (.bool (token.lexeme == "True"), pos)
  | .binary =>
    match Text.Hex.decode? token.lexeme with
    | some bytes => return (.binary bytes, pos)
    | none => Exec.fail (.binaryDigits token.lexeme) token.line
  | .kwNull => return (.null, pos)
  | .kwDefault => return (.defaultWord, pos)
  | .macroName => return (← macroValue token.lexeme token.line, pos)
  | .variableName => return (← variableValue token, pos)
  | .kwNot =>
    let (operand, pos) ← low.term window pos
    return (.bool (!operand.asBool), pos)
  | .operator =>
    match token.lexeme with
    | "-" =>
      let (operand, pos) ← low.term window pos
      return (operand.negate, pos)
    | "+" =>
      let (operand, pos) ← low.term window pos
      return (operand.signed, pos)
    | _ => Exec.fail (.inExpression token.display) token.line
  | .lparen =>
    let (inner, pos) ← low.value window pos
    let _ ← Exec.expect window pos .rparen "')'"
    return (inner, pos + 1)
  | .lbracket => low.arrayLiteral window pos
  | .call id | .userCall id => return (← low.callSite window pos id, pos)
  | .identifier => return (.function token.lexeme, pos)
  | .eol | .comment => Exec.fail .valueAtLineEnd token.line
  | _ => Exec.fail (.inExpression token.display) token.line

/-- The value of the term at a position. -/
def evalTerm (low : Engine) (window : Window) (pos : Nat) : Exec (Value × Nat) := do
  match window.token? pos with
  | some token =>
    let (base, pos) ← low.atom window token (pos + 1)
    low.subscripted window low.fuel pos base
  | none => Exec.failAt window pos .valueMissing

/-- Applies the operators at a position to a value and the terms after them, one after another. -/
def merge (low : Engine) (window : Window) : Nat → Nat → Value → Exec (Value × Nat)
  | 0, _, _ => Exec.starved
  | fuel + 1, pos, left => do
    match window.token? pos with
    | none => return (left, pos)
    | some token =>
      match token.kind with
      | .operator =>
        if token.lexeme ≠ "=" ∧ isAssignment token.lexeme then
          Exec.failAt window pos (.inExpression token.lexeme)
        else
          let (right, pos) ← low.term window (pos + 1)
          merge low window fuel pos
            (← Exec.ofExcept (Value.combine token.lexeme left right token.line))
      | .kwAnd =>
        let (right, pos) ← low.term window (pos + 1)
        merge low window fuel pos (.bool (left.asBool && right.asBool))
      | .kwOr =>
        let (right, pos) ← low.term window (pos + 1)
        merge low window fuel pos (.bool (left.asBool || right.asBool))
      | kind =>
        if kind.endsExpression then return (left, pos)
        else Exec.failAt window pos (.afterValue token.display)

/-- The value of the expression at a position. -/
def evalValue (low : Engine) (window : Window) (pos : Nat) : Exec (Value × Nat) := do
  let (first, pos) ← low.term window pos
  low.merge window low.fuel pos first

end Engine

end LineScript
