import LineScript.Interpreter.Expression

/-!
# Declarations

A declaration names variables, each with a value, with sizes of an array or with an open subscript
that makes a map. An enumeration declares constants that count up. All of them stand in one
statement, separated by commas.
-/

namespace LineScript

open Machine

/-- Does an action a number of times and adds the results to those that are there. -/
def Exec.replicate (action : Exec Value) : Nat → Array Value → Exec (Array Value)
  | 0, items => return items
  | count + 1, items => do Exec.replicate action count (items.push (← action))

/-- A new array of arrays, of the given sizes, every cell an empty text. Room for its cells is made
before they are filled. -/
def sizedArray (line : Nat) : List Value → Exec Value
  | [] => return .string ""
  | first :: rest => do
    let size := first.asInt
    if size < 0 then Exec.fail (.arraySize size) line
    else
      reserve 0 size.toInt.toNat
      newArray (← Exec.replicate (sizedArray line rest) size.toInt.toNat #[])

/-- What stands in brackets after the name of a variable. -/
structure Subscripts where
  /-- The values in brackets, in order. -/
  values : List Value
  /-- A pair of brackets without a value stands at the end. -/
  isOpen : Bool

/-- What the words in front of a declaration say. -/
structure Modifiers where
  /-- Where the variables go. -/
  target : DeclScope := .inner
  /-- The variables may not be written again. -/
  constant : Bool := false
  /-- The variables keep the value of their first declaration. -/
  static : Bool := false

namespace Modifiers

/-- What one more word says. -/
def add (modifiers : Modifiers) (word : String) : Modifiers :=
  match word with
  | "Global" => { modifiers with target := .global }
  | "Const" => { modifiers with constant := true }
  | "Static" => { modifiers with static := true }
  | _ => { modifiers with target := .inner }

/-- The scope that the variables go to; only the innermost one gives way to the frame. -/
def scope (modifiers : Modifiers) : DeclScope :=
  match modifiers.target with
  | .inner => if modifiers.static then .static else .inner
  | other => other

end Modifiers

namespace Engine

/-- The subscripts at a position, after those already read. -/
def subscriptsFrom (low : Engine) (window : Window) :
    Nat → Nat → List Value → Exec (Subscripts × Nat)
  | 0, _, _ => Exec.starved
  | fuel + 1, pos, values => do
    if window.hasKind pos .lbracket then
      if window.hasKind (pos + 1) .rbracket then return (⟨values, true⟩, pos + 2)
      else
        let (value, pos) ← low.value window (pos + 1)
        let _ ← Exec.expect window pos .rbracket "']'"
        subscriptsFrom low window fuel (pos + 1) (values ++ [value])
    else return (⟨values, false⟩, pos)

/-- The subscripts at a position. -/
def subscripts (low : Engine) (window : Window) (pos : Nat) : Exec (Subscripts × Nat) :=
  low.subscriptsFrom window low.fuel pos []

/-- The value after an equals sign at a position, if one stands there. -/
def initialiser (low : Engine) (window : Window) (pos : Nat) : Exec (Option Value × Nat) := do
  if window.hasOperator pos "=" then
    let (value, pos) ← low.value window (pos + 1)
    return (some value, pos)
  else return (none, pos)

end Engine

/-- Writes values over the first cells of an array. -/
def overwriteCells (id : HandleId) : List (Value × Nat) → Exec Unit
  | [] => return ()
  | (item, index) :: rest => do
    arraySet id (Int64.ofNat index) item
    overwriteCells id rest

/-- The value of a declared array of given sizes, whose first cells take the elements of an
initial array. -/
def declaredArray (variable' : Token) (sizes : List Value) (initial : Option Value) :
    Exec Value := do
  let array ← sizedArray variable'.line sizes
  match initial with
  | none => return array
  | some given =>
    match (← get).objectOf? given, array with
    | some (.array items), .handle id =>
      overwriteCells id items.toList.zipIdx
      return array
    | some (.array _), _ => return array
    | _, _ => Exec.fail (.sizedInitialiser variable'.lexeme) variable'.line

/-- The value that a declaration gives a variable. -/
def declaredValue (variable' : Token) (subscripts : Subscripts) (initial : Option Value) :
    Exec Value := do
  if subscripts.isOpen then
    match initial with
    | none => newMap
    | some given =>
      match (← get).objectOf? given with
      | some (.array _) => return given
      | _ => Exec.fail (.openInitialiser variable'.lexeme) variable'.line
  else if subscripts.values.isEmpty then return initial.getD (.string "")
  else declaredArray variable' subscripts.values initial

namespace Engine

/-- Declares the variable at a position and returns the position after it. -/
def declareOne (low : Engine) (window : Window) (modifiers : Modifiers) (pos : Nat) :
    Exec Nat := do
  let variable' ← Exec.expect window pos .variableName "variable"
  let (subscripts, pos) ← low.subscripts window (pos + 1)
  let (initial, pos) ← low.initialiser window pos
  if modifiers.constant && initial.isNone then
    Exec.fail (.constantEmpty variable'.lexeme) variable'.line
  else if modifiers.scope = .static ∧ (← get).declaredStatic variable'.lexeme then return pos
  else
    let value ← declaredValue variable' subscripts initial
    declareVariable modifiers.scope variable'.lexeme value modifiers.constant
    return pos

/-- Declares the variables from a position on. -/
def declareEach (low : Engine) (window : Window) (modifiers : Modifiers) : Nat → Nat → Exec Nat
  | 0, _ => Exec.starved
  | fuel + 1, pos => do
    let pos ← low.declareOne window modifiers pos
    if window.hasKind pos .separator then declareEach low window modifiers fuel (pos + 1)
    else return pos

/-- Declares counted constants from a position on; `count` is the next number. -/
def enumerateEach (low : Engine) (window : Window) (target : DeclScope) :
    Nat → Nat → Int64 → Exec Nat
  | 0, _, _ => Exec.starved
  | fuel + 1, pos, count => do
    let variable' ← Exec.expect window pos .variableName "variable"
    let (given, pos) ← low.initialiser window (pos + 1)
    let count := (given.map Value.asInt).getD count
    declareVariable target variable'.lexeme (.number count) true
    if window.hasKind pos .separator then
      enumerateEach low window target fuel (pos + 1) (count + 1)
    else return pos

/-- An enumeration, from the position after its keyword. -/
def enumeration (low : Engine) (window : Window) (target : DeclScope) (pos : Nat) : Exec Nat := do
  if window.hasKind pos .kwStep then Exec.failAt window pos .enumStep
  else low.enumerateEach window target low.fuel pos 0

/-- A declaration, from its first word. -/
def declaration (low : Engine) (window : Window) (pos : Nat) : Exec Nat := do
  let first := Layout.seek (fun token => token.kind != .kwScope) window.tokens pos window.stop
  let words := (window.tokens.extract pos first).toList.map Token.lexeme
  let modifiers := words.foldl Modifiers.add {}
  if window.hasKind first .kwEnum then low.enumeration window modifiers.target (first + 1)
  else low.declareEach window modifiers low.fuel first

end Engine

end LineScript
