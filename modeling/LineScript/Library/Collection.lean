import LineScript.Library.Args
import LineScript.Machine.Objects
import LineScript.Machine.Variables

/-!
# Library: arrays and maps
-/

namespace LineScript.Library

open Machine

/-- The size of the object that a value refers to, at the `levels`-th dimension below it; `outer`
says that the value is the argument itself. -/
def extent (machine : Machine) (dimension : Int64) (outer : Bool) :
    (levels : Nat) → Value → Except Int64 Nat
  | levels, value =>
    match machine.objectOf? value with
    | none => .error (if outer then 1 else 2)
    | some (.array items) =>
      match levels with
      | 0 => .ok items.size
      | levels + 1 =>
        match items[0]? with
        | some first => extent machine dimension false levels first
        | none => .error 2
    | some (.map entries) => if dimension.toInt ≤ 1 then .ok entries.length else .error 1
    | some _ => .error 1

/-- The number of elements of an array, or of the arrays inside it at a dimension, or of keys of a
map. -/
def uBound (args : Args) : Exec Value := do
  let dimension := args.int 1
  match extent (← get) dimension true (dimension.toInt - 1).toNat (args.value 0) with
  | .ok size => return .number (Int64.ofNat size)
  | .error code =>
    Machine.setError code
    return .number 0

/-- A new array of the keys of a map, in increasing order. -/
def mapKeys (args : Args) : Exec Value := do
  match (← get).objectOf? (args.value 0) with
  | some (.map entries) => newArray (entries.keys.map Value.string).toArray
  | _ =>
    Machine.setError 1
    return .string ""

/-- Whether a map has a key. -/
def mapExists (args : Args) : Exec Value := do
  match (← get).objectOf? (args.value 0) with
  | some (.map entries) => return .bool (entries.get? (args.text 1)).isSome
  | _ =>
    Machine.setError 1
    return .bool false

/-- Takes a key out of a map and tells whether it was there. -/
def mapRemove (args : Args) : Exec Value := do
  let key := args.text 1
  match args.value 0 with
  | .handle id =>
    match (← get).heap.get? id with
    | some (.map entries) =>
      setObject id (.map (entries.erase key))
      return .bool (entries.get? key).isSome
    | _ =>
      Machine.setError 1
      return .bool false
  | _ =>
    Machine.setError 1
    return .bool false

end LineScript.Library
