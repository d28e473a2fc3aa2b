import LineScript.Interpreter.Run
import LineScript.Proofs.Structured.Tree

/-!
# Expressions as trees, and what they mean

An expression is a term and further terms behind operators, which all bind alike. A term is a sign
before a term, or an atom with subscripts behind it. Only well-formed trees can be built: every word
is of its kind.

What a tree means is defined by recursion on the tree: no token is looked for and no position is
kept. Operators are applied from left to right, every part is evaluated once and in order, and both
sides of a conjunction or disjunction are. A call means what an engine does with it. Some faults are
reported at the line of the token that comes next, so that token is passed along.
-/

namespace LineScript.Expression

open Structured Machine

/-- An operator between two terms. -/
inductive Operator where
  /-- One written in signs, other than those that only assign. -/
  | signs (word : Word .operator)
      (binary : word.token.lexeme = "=" ∨ isAssignment word.token.lexeme = false)
  /-- Conjunction. -/
  | and (word : Word .kwAnd)
  /-- Disjunction. -/
  | or (word : Word .kwOr)

/-- A sign before a term. -/
inductive Sign where
  /-- The opposite number. -/
  | minus (word : Word .operator) (is : word.token.lexeme = "-")
  /-- The number itself. -/
  | plus (word : Word .operator) (is : word.token.lexeme = "+")
  /-- The opposite truth value. -/
  | not (word : Word .kwNot)

/-- A term of a single token. -/
inductive Leaf where
  /-- A quoted text. -/
  | text (word : Word .string)
  /-- A whole numeral. -/
  | whole (word : Word .number)
  /-- A numeral with a fraction. -/
  | fraction (word : Word .double)
  /-- A truth value. -/
  | truth (word : Word .boolean)
  /-- A binary literal. -/
  | bytes (word : Word .binary)
  /-- No value. -/
  | null (word : Word .kwNull)
  /-- The word that asks for a default. -/
  | default (word : Word .kwDefault)
  /-- A macro. -/
  | macroName (word : Word .macroName)
  /-- A variable. -/
  | variableName (word : Word .variableName)
  /-- A call of a library function. -/
  | call (id : Nat) (word : Word (.call id))
  /-- A call of a script's function. -/
  | userCall (id : Nat) (word : Word (.userCall id))
  /-- A bare name. -/
  | name (word : Word .identifier)

mutual

/-- An expression. -/
inductive Expr where
  /-- A term, and further ones behind operators. -/
  | mk (first : Term) (rest : Tail)

/-- Operators with a term each. -/
inductive Tail where
  /-- No more of them. -/
  | done
  /-- An operator and a term. -/
  | more (operator : Operator) (term : Term) (rest : Tail)

/-- A term. -/
inductive Term where
  /-- A sign before a term. -/
  | signed (sign : Sign) (operand : Term)
  /-- An atom with its subscripts. -/
  | selected (atom : Atom) (chain : Chain)

/-- Subscripts. -/
inductive Chain where
  /-- No more of them. -/
  | done
  /-- An expression in brackets. -/
  | more (opener : Word .lbracket) (key : Expr) (closer : Word .rbracket) (rest : Chain)

/-- A term without signs and subscripts. -/
inductive Atom where
  /-- A single token. -/
  | leaf (leaf : Leaf)
  /-- An expression in parentheses. -/
  | group (opener : Word .lparen) (inner : Expr) (closer : Word .rparen)
  /-- An array without elements. -/
  | nothing (opener : Word .lbracket) (closer : Word .rbracket)
  /-- An array. -/
  | array (opener : Word .lbracket) (first : Expr) (rest : Items) (closer : Word .rbracket)

/-- Further elements of an array. -/
inductive Items where
  /-- No more of them. -/
  | done
  /-- An element behind a comma. -/
  | more (comma : Word .separator) (item : Expr) (rest : Items)

end

/-- The token of an operator. -/
@[simp] def Operator.token : Operator → Token
  | .signs word _ => word.token
  | .and word => word.token
  | .or word => word.token

/-- The token of a sign. -/
@[simp] def Sign.token : Sign → Token
  | .minus word _ | .plus word _ => word.token
  | .not word => word.token

/-- The token of a leaf. -/
@[simp] def Leaf.token : Leaf → Token
  | .text word => word.token
  | .whole word => word.token
  | .fraction word => word.token
  | .truth word => word.token
  | .bytes word => word.token
  | .null word => word.token
  | .default word => word.token
  | .macroName word => word.token
  | .variableName word => word.token
  | .call _ word => word.token
  | .userCall _ word => word.token
  | .name word => word.token

mutual

/-- The tokens of an expression. -/
@[simp] def Expr.render : Expr → List Token
  | .mk first rest => first.render ++ rest.render

/-- The tokens of operators with a term each. -/
@[simp] def Tail.render : Tail → List Token
  | .done => []
  | .more operator term rest => operator.token :: (term.render ++ rest.render)

/-- The tokens of a term. -/
@[simp] def Term.render : Term → List Token
  | .signed sign operand => sign.token :: operand.render
  | .selected atom chain => atom.render ++ chain.render

/-- The tokens of subscripts. -/
@[simp] def Chain.render : Chain → List Token
  | .done => []
  | .more opener key closer rest => opener.token :: (key.render ++ (closer.token :: rest.render))

/-- The tokens of an atom. -/
@[simp] def Atom.render : Atom → List Token
  | .leaf leaf => [leaf.token]
  | .group opener inner closer => opener.token :: (inner.render ++ [closer.token])
  | .nothing opener closer => [opener.token, closer.token]
  | .array opener first rest closer =>
    opener.token :: (first.render ++ (rest.render ++ [closer.token]))

/-- The tokens of further elements. -/
@[simp] def Items.render : Items → List Token
  | .done => []
  | .more comma item rest => comma.token :: (item.render ++ rest.render)

end

/-- The number of tokens of an expression. -/
def Expr.size (tree : Expr) : Nat := tree.render.length

/-- The token at which tokens begin, or what comes after them if there are none. -/
def ahead (tokens : List Token) (next : Option Token) : Option Token := tokens.head?.or next

/-- The line of the token that comes next, or that of the running statement. -/
def lineBefore (next : Option Token) : Exec Nat := do
  match next with
  | some token => if 0 < token.line then return token.line else Exec.currentLine
  | none => Exec.currentLine

/-- Applies an operator. -/
def Operator.apply (left right : Value) : Operator → Exec Value
  | .signs word _ =>
    Exec.ofExcept (Value.combine word.token.lexeme left right word.token.line)
  | .and _ => return .bool (left.asBool && right.asBool)
  | .or _ => return .bool (left.asBool || right.asBool)

/-- Applies a sign. -/
def Sign.apply (operand : Value) : Sign → Value
  | .minus .. => operand.negate
  | .plus .. => operand.signed
  | .not _ => .bool (!operand.asBool)

/-- The element of an array or a map. -/
def select (next : Option Token) (base key : Value) : Exec Value := do
  match base with
  | .handle id =>
    match (← get).heap.get? id with
    | some (.array _) => arrayGet id key.asInt
    | some (.map _) => mapGet id key.display
    | _ => notLive "array or map" id
  | _ => Exec.fail (.notIndexable base.typeName) (← lineBefore next)

/-- The value of the call of a number: its arguments in order, and then the function. -/
def made (low : Engine) (next : Option Token) (id : Nat) : Exec Value := do
  match (← get).program.calls[id]? with
  | some site => low.call site.name (← low.arguments site.args) site.line
  | none => Exec.fail (.callUnknown id) (← lineBefore next)

/-- The value of a leaf. -/
def Leaf.value (low : Engine) (next : Option Token) : Leaf → Exec Value
  | .text word => return .string word.token.lexeme
  | .whole word => return Value.parseNumber word.token.lexeme
  | .fraction word => return Value.parseNumber word.token.lexeme
  | .truth word => return .bool (word.token.lexeme == "True")
  | .bytes word =>
    match Text.Hex.decode? word.token.lexeme with
    | some decoded => return .binary decoded
    | none => Exec.fail (.binaryDigits word.token.lexeme) word.token.line
  | .null _ => return .null
  | .default _ => return .defaultWord
  | .macroName word => macroValue word.token.lexeme word.token.line
  | .variableName word => variableValue word.token
  | .call id _ => made low next id
  | .userCall id _ => made low next id
  | .name word => return .function word.token.lexeme

mutual

/-- The value of an expression. -/
def Expr.value (low : Engine) (next : Option Token) : Expr → Exec Value
  | .mk first rest => do
    let left ← first.value low (ahead rest.render next)
    rest.fold low next left

/-- What operators with a term each make of a value. -/
def Tail.fold (low : Engine) (next : Option Token) (left : Value) : Tail → Exec Value
  | .done => return left
  | .more operator term rest => do
    let right ← term.value low (ahead rest.render next)
    let result ← operator.apply left right
    rest.fold low next result

/-- The value of a term. -/
def Term.value (low : Engine) (next : Option Token) : Term → Exec Value
  | .signed sign operand => return sign.apply (← operand.value low next)
  | .selected atom chain => do
    let base ← atom.value low (ahead chain.render next)
    chain.select low next base

/-- What subscripts select from a value. -/
def Chain.select (low : Engine) (next : Option Token) (base : Value) : Chain → Exec Value
  | .done => return base
  | .more _ key closer rest => do
    let key ← key.value low (some closer.token)
    let element ← Expression.select (ahead rest.render next) base key
    rest.select low next element

/-- The value of an atom. -/
def Atom.value (low : Engine) (next : Option Token) : Atom → Exec Value
  | .leaf leaf => leaf.value low next
  | .group _ inner closer => inner.value low (some closer.token)
  | .nothing .. => newArray #[]
  | .array _ first rest closer => do
    let item ← first.value low (ahead rest.render (some closer.token))
    rest.collect low closer.token #[item]

/-- The array of some elements and further ones. -/
def Items.collect (low : Engine) (closer : Token) (items : Array Value) : Items → Exec Value
  | .done => newArray items
  | .more _ item rest => do
    let item ← item.value low (ahead rest.render (some closer))
    rest.collect low closer (items.push item)

end

/-- An expression read in full. -/
def Expr.read (low : Engine) (next : Option Token) (tree : Expr) : Exec Evaluated := do
  return { value := some (← tree.value low next), flow := .normal, consumed := tree.size }

end LineScript.Expression
