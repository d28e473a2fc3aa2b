import LineScript.Machine.Basic

/-!
# Objects and output

Making, reading and changing objects of the heap, and writing to the two streams.
-/

namespace LineScript.Machine

/-- Adds an object and returns its number. -/
def addObject (object : HeapObject) : Exec HandleId := do
  let id := (← get).heap.nextId
  modify fun machine => { machine with heap := machine.heap.add object }
  Exec.trace fun _ => "handle: added " ++ object.kind ++ " " ++ HandleId.display id
  return id

/-- Replaces an object. -/
def setObject (id : HandleId) (object : HeapObject) : Exec Unit :=
  modify fun machine => { machine with heap := machine.heap.set id object }

/-- Changes an object. -/
def modifyObject (id : HandleId) (change : HeapObject → HeapObject) : Exec Unit :=
  modify fun machine => { machine with heap := machine.heap.modify id change }

/-- Removes an object and returns it. -/
def destroyObject (id : HandleId) : Exec (Option HeapObject) := do
  Exec.trace fun _ => "handle: destroying " ++ HandleId.display id
  let object := (← get).heap.get? id
  modify fun machine => { machine with heap := machine.heap.destroy id }
  return object

/-- A new empty map. -/
def newMap : Exec Value := return .handle (← addObject (.map []))

/-- A new array. -/
def newArray (items : Array Value) : Exec Value := return .handle (← addObject (.array items))

/-- The object that a value refers to. -/
def objectOf? (machine : Machine) (value : Value) : Option HeapObject :=
  value.asHandle?.bind machine.heap.get?

/-- Stops because a handle names no object of the needed kind. -/
def notLive {α : Type} (kind : String) (id : HandleId) : Exec α :=
  Exec.failHere (.notLive id kind)

/-- The value under a key of a map. -/
def mapGet (id : HandleId) (key : String) : Exec Value := do
  let machine ← get
  match machine.heap.get? id with
  | some (.map entries) =>
    match entries.get? key with
    | some value => return value
    | none => Exec.fail (.keyMissing key) machine.line
  | _ => notLive "map" id

/-- Puts a value under a key of a map. -/
def mapSet (id : HandleId) (key : String) (value : Value) : Exec Unit := do
  match (← get).heap.get? id with
  | some (.map entries) => setObject id (.map (entries.insert key value))
  | _ => notLive "map" id

/-- The position in an array that an index names. -/
def position? (items : Array Value) (index : Int64) : Option Nat :=
  if 0 ≤ index.toInt ∧ index.toInt < items.size then some index.toInt.toNat else none

/-- The value at a position of an array. -/
def arrayGet (id : HandleId) (index : Int64) : Exec Value := do
  let machine ← get
  match machine.heap.get? id with
  | some (.array items) =>
    match (position? items index).bind (items[·]?) with
    | some value => return value
    | none => Exec.fail (.outOfBounds index items.size) machine.line
  | _ => notLive "array" id

/-- Writes a value at a position of an array. -/
def arraySet (id : HandleId) (index : Int64) (value : Value) : Exec Unit := do
  let machine ← get
  match machine.heap.get? id with
  | some (.array items) =>
    match position? items index with
    | some position => modifyObject id (.setElement position value)
    | none => Exec.fail (.outOfBounds index items.size) machine.line
  | _ => notLive "array" id

/-- Writes to standard output. -/
def writeStdout (text : String) : Exec Unit :=
  modify fun machine =>
    { machine with
      stdout := machine.stdout ++ text
      host := if machine.echo then machine.host.writeOutput text else machine.host }

/-- Writes to the error stream, or to standard output when that is where errors go. -/
def writeStderr (text : String) : Exec Unit := do
  if (← get).host.errorsToOutput then writeStdout text
  else
    modify fun machine =>
      { machine with
        stderr := machine.stderr ++ text
        host := if machine.echo then machine.host.writeErrors text else machine.host }

end LineScript.Machine
