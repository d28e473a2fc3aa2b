import LineScript.Interpreter.Declaration

/-!
# Assignments

An assignment writes variables or elements, plainly or after applying an operator to what they
held. A variable named without an assignment comes into being if it does not exist, as a text, an
array of given sizes or a map. Resizing keeps the elements of an array that still fit.
-/

namespace LineScript

open Machine

/-- The value to store: the given one, or what the assignment's operator makes of the current one
and it. -/
def storedValue (operator : String) (current : Exec Value) (given : Value) (line : Nat) :
    Exec Value := do
  match compoundBase? operator with
  | some base => Exec.ofExcept (Value.combine base (← current) given line)
  | none => return given

/-- The value at the end of a path of subscripts. -/
def descend (window : Window) (pos : Nat) (base : Value) : List Value → Exec Value
  | [] => return base
  | key :: keys => do descend window pos (← element window pos base key) keys

/-- Writes an element of an array or map. -/
def storeElement (id : HandleId) (key value : Value) : Exec Unit := do
  match (← get).heap.get? id with
  | some (.array _) => arraySet id key.asInt value
  | some (.map _) => mapSet id key.display value
  | _ => notLive "array or map" id

/-- Assigns to the element of a variable that a path of subscripts and a last one name. -/
def assignElement (window : Window) (pos : Nat) (variable' : Token) (path : List Value)
    (key : Value) (operator : String) (given : Value) : Exec Unit := do
  let container ← descend window pos (← variableValue variable') path
  match container with
  | .handle id =>
    let value ← storedValue operator (element window pos container key) given variable'.line
    storeElement id key value
  | _ => Exec.fail (.notContainer variable'.lexeme) variable'.line

/-- Assigns a given value to a variable or to the element that its subscripts name. -/
def assignTo (window : Window) (pos : Nat) (variable' : Token) (subscripts : List Value)
    (operator : String) (given : Value) : Exec Unit := do
  match subscripts.getLast? with
  | none =>
    let value ← storedValue operator (variableValue variable') given variable'.line
    assignVariable variable'.lexeme value
  | some key => assignElement window pos variable' subscripts.dropLast key operator given

/-- Brings a variable into being: a map or an array in place of what it held, a text if it did not
exist. -/
def introduce (variable' : Token) (subscripts : Subscripts) : Exec Unit := do
  if subscripts.isOpen then assignVariable variable'.lexeme (← newMap)
  else if subscripts.values.isEmpty then
    if (← get).hasVariable variable'.lexeme then return ()
    else assignVariable variable'.lexeme (.string "")
  else assignVariable variable'.lexeme (← sizedArray variable'.line subscripts.values)

/-- The assigning operator at a position. -/
def Window.assignment? (window : Window) (pos : Nat) : Option String :=
  match window.token? pos with
  | some token =>
    if token.kind = .operator ∧ isAssignment token.lexeme then some token.lexeme else none
  | none => none

/-- The elements of an array brought to a size, new ones being empty texts. -/
def resized (items : Array Value) (size : Nat) : Array Value :=
  items.take size ++ Array.replicate (size - items.size) (.string "")

/-- Brings an array with given elements to a size. -/
def resizeItems (id : HandleId) (items : Array Value) (size : Nat) : Exec Unit := do
  reserve items.size size
  setObject id (.array (resized items size))

/-- Resizes the array that a variable holds, or gives it a new one when it holds none or has more
than one dimension. -/
def resize (variable' : Token) (sizes : List Value) (first : Value) : Exec Unit := do
  let machine ← get
  match sizes.length, machine.varValue? variable'.lexeme with
  | 1, some (.handle id) =>
    match machine.heap.get? id with
    | some (.array items) => resizeItems id items first.asInt.toInt.toNat
    | _ => assignVariable variable'.lexeme (← sizedArray variable'.line sizes)
  | _, _ => assignVariable variable'.lexeme (← sizedArray variable'.line sizes)

namespace Engine

/-- The assignment at a position; the position after it is returned. -/
def assignOne (low : Engine) (window : Window) (pos : Nat) : Exec Nat := do
  let variable' ← Exec.expect window pos .variableName "variable"
  let (subscripts, pos) ← low.subscripts window (pos + 1)
  match window.assignment? pos with
  | some operator =>
    if subscripts.isOpen then Exec.failAt window (pos + 1) (.openAssignment variable'.lexeme)
    else
      let (given, pos) ← low.value window (pos + 1)
      assignTo window pos variable' subscripts.values operator given
      return pos
  | none =>
    introduce variable' subscripts
    return pos

/-- The assignments from a position on. -/
def assignEach (low : Engine) (window : Window) : Nat → Nat → Exec Nat
  | 0, _ => Exec.starved
  | fuel + 1, pos => do
    let pos ← low.assignOne window pos
    if window.hasKind pos .separator then assignEach low window fuel (pos + 1)
    else return pos

/-- A resize, from its keyword. -/
def resizing (low : Engine) (window : Window) (pos : Nat) : Exec Nat := do
  let variable' ← Exec.expect window (pos + 1) .variableName "variable"
  let (subscripts, pos) ← low.subscripts window (pos + 2)
  match subscripts.isOpen, subscripts.values with
  | false, first :: rest =>
    resize variable' (first :: rest) first
    return pos
  | _, _ => Exec.failAt window pos (.resizeWithoutSize variable'.lexeme)

end Engine

end LineScript
