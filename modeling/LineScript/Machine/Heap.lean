import LineScript.Host.FileSystem
import LineScript.Value.Basic

/-!
# The heap

Arrays, maps, open files and timers are objects that values refer to by number. Numbers start at
one and are given out in order; a number whose object was destroyed is never given out again,
because its slot stays.
-/

namespace LineScript

/-- A file opened by a script. -/
structure OpenFile where
  /-- The file's node. -/
  node : NodeId
  /-- Where the next read or write takes place. -/
  offset : Nat := 0
  /-- The path under which it was opened. -/
  path : String
  /-- The mode in which it was opened. -/
  mode : Int64
deriving DecidableEq

/-- Keys with their values, in increasing order of keys. -/
abbrev Entries := List (String × Value)

namespace Entries

/-- The value under a key. -/
def get? (entries : Entries) (key : String) : Option Value := entries.lookup key

/-- The first entry is looked at first. -/
theorem get?_cons (other : String) (held : Value) (entries : Entries) (key : String) :
    get? ((other, held) :: entries) key = if key = other then some held else entries.get? key := by
  unfold get?
  by_cases same : key = other
  · rw [if_pos same, same, List.lookup_cons_self]
  · rw [if_neg same, List.lookup_cons, beq_false_of_ne same]

/-- Puts a value under a key. -/
def insert (key : String) (value : Value) : Entries → Entries
  | [] => [(key, value)]
  | (other, held) :: rest =>
    if key < other then (key, value) :: (other, held) :: rest
    else if key = other then (key, value) :: rest
    else (other, held) :: insert key value rest

/-- Takes a key out. -/
def erase (key : String) (entries : Entries) : Entries :=
  entries.filter fun entry => entry.1 != key

/-- All keys, in increasing order. -/
def keys (entries : Entries) : List String := entries.map Prod.fst

end Entries

/-- An object of the heap. -/
inductive HeapObject where
  /-- An open file. -/
  | file (file : OpenFile)
  /-- A timer, by the time it was started. -/
  | timer (started : Nat)
  /-- A map from texts to values. -/
  | map (entries : Entries)
  /-- An array of values. -/
  | array (items : Array Value)
deriving DecidableEq

/-- The name of an object's kind. -/
def HeapObject.kind : HeapObject → String
  | file _ => "file"
  | timer _ => "timer"
  | map _ => "map"
  | array _ => "array"

/-- An array with one of its elements replaced; other objects stay as they are. -/
def HeapObject.setElement (position : Nat) (value : Value) : HeapObject → HeapObject
  | array items => array (items.setIfInBounds position value)
  | other => other

/-- All objects, by number less one; an empty slot is a destroyed object's. -/
structure Heap where
  /-- The slots. -/
  slots : Array (Option HeapObject) := #[]
deriving DecidableEq

namespace Heap

/-- The number that the next object gets. -/
def nextId (heap : Heap) : HandleId := heap.slots.size + 1

/-- Adds an object; its number is `nextId`. -/
def add (heap : Heap) (object : HeapObject) : Heap := ⟨heap.slots.push (some object)⟩

/-- The object of this number, if it is live. -/
def get? (heap : Heap) (id : HandleId) : Option HeapObject :=
  match id with
  | 0 => none
  | slot + 1 => (heap.slots[slot]?).getD none

/-- Replaces the object of this number. -/
def set (heap : Heap) (id : HandleId) (object : HeapObject) : Heap :=
  match id with
  | 0 => heap
  | slot + 1 => ⟨heap.slots.setIfInBounds slot (some object)⟩

/-- Changes the object of this number, if it is live. -/
def modify (heap : Heap) (id : HandleId) (change : HeapObject → HeapObject) : Heap :=
  match id with
  | 0 => heap
  | slot + 1 => ⟨heap.slots.modify slot fun object => object.map change⟩

/-- Removes the object of this number. -/
def destroy (heap : Heap) (id : HandleId) : Heap :=
  match id with
  | 0 => heap
  | slot + 1 => ⟨heap.slots.setIfInBounds slot none⟩

/-- The live objects with their numbers, in increasing order. -/
def toList (heap : Heap) : List (HandleId × HeapObject) :=
  (heap.slots.toList.zipIdx 1).filterMap fun (object, id) => object.map (id, ·)

/-- How many objects are live. -/
def size (heap : Heap) : Nat := heap.toList.length

end Heap

end LineScript
