import LineScript.Interpreter.Assignment
import LineScript.Proofs.Run.Guard

/-!
# Handling values, objects and variables

What expressions, declarations and assignments do with values is put together from few steps: they look
at the heap and at variables, make and change objects, assign variables and stop with faults. This is
walked through once, for two actions that do the same and may spell names in their own ways (`Handling`).
A property that the steps have, and that passes on from step to step, is a property of all of it.
-/

namespace LineScript

open Machine

/-- What is looked at when values are handled is the same on another machine. -/
structure Machine.Shares (machine lent : Machine) : Prop where
  /-- The objects. -/
  heap : lent.heap = machine.heap
  /-- The line of the statement. -/
  line : lent.line = machine.line
  /-- The variables that are found. -/
  lookup? : ∀ key, lent.stack.lookup? key = machine.stack.lookup? key
  /-- The macros. -/
  macroValue? : ∀ key, lent.macroValue? key = machine.macroValue? key

/-- What may be done where values are handled. -/
structure Permit where
  /-- Lines that may be reported. -/
  line : Nat → Prop
  /-- Positions of the two windows at which the same fault may be reported. -/
  place : Window → Nat → Window → Nat → Prop
  /-- Objects that may be changed. -/
  object : HandleId → Prop
  /-- Names may be spelled anew. -/
  respells : Prop
  /-- Variables may be assigned. -/
  writes : Prop

namespace Permit

/-- Everything is permitted but to spell names anew, and to assign variables where that is not asked for. -/
def all (writes : Prop) : Permit where
  line _ := True
  place _ _ _ _ := True
  object _ := True
  respells := False
  writes

variable (permit : Permit)

/-- What may be done once the machine was looked at: its line may be reported, and the arrays that were
found may be changed. -/
def looking (machine : Machine) : Permit :=
  { permit with
    line := fun line => permit.line line ∨ line = machine.line
    object := fun id => permit.object id ∨ ∃ items, machine.heap.get? id = some (.array items) }

/-- Two faults may have these causes. -/
def Alike (cause other : RunCause) : Prop :=
  other = cause ∨ permit.respells ∧ other.kind = cause.kind

/-- The two tokens name the same on a line that may be reported. -/
structure Names (token other : Token) : Prop where
  /-- The same but for case. -/
  name : Text.lower other.lexeme = Text.lower token.lexeme
  /-- It may be spelled anew if at all. -/
  spelled : other = token ∨ permit.respells
  /-- They stand on one line. -/
  line : other.line = token.line
  /-- The line may be reported. -/
  known : permit.line token.line

variable {permit} {machine : Machine}

/-- A line that may be reported may be reported after a look. -/
theorem line_looking {line : Nat} (known : permit.line line) : (permit.looking machine).line line :=
  .inl known

/-- An object that may be changed may be changed after a look. -/
theorem object_looking {id : HandleId} (reached : permit.object id) :
    (permit.looking machine).object id := .inl reached

/-- An array that was found may be changed. -/
theorem object_found {id : HandleId} {items : Array Value}
    (found : machine.heap.get? id = some (.array items)) : (permit.looking machine).object id :=
  .inr ⟨items, found⟩

/-- A cause may be given again. -/
theorem Alike.refl (cause : RunCause) : permit.Alike cause cause := .inl rfl

/-- A token names what it names. -/
theorem Names.refl {token : Token} (known : permit.line token.line) : permit.Names token token :=
  ⟨rfl, .inl rfl, rfl, known⟩

variable {token other : Token}

/-- Two tokens name the same after a look at the machine. -/
theorem Names.looking (names : permit.Names token other) (machine : Machine) :
    (permit.looking machine).Names token other :=
  { names with known := line_looking names.known }

/-- A cause that tells a name is one of a kind, however the name is spelled. -/
theorem Names.alike (names : permit.Names token other) {cause : String → RunCause}
    (kind : ∀ name other, (cause other).kind = (cause name).kind) :
    permit.Alike (cause token.lexeme) (cause other.lexeme) := by
  rcases names.spelled with rfl | respells
  · exact .refl _
  · exact .inr ⟨respells, kind _ _⟩

end Permit

/-- The outcome of an operator is a value or the report of a fault that lies in its operands. -/
theorem Value.combine_fault {operator : String} {left right : Value} {line : Nat} {fault : Fault}
    (failed : Value.combine operator left right line = .error fault) :
    ∃ cause : RunCause, cause.isStructural = false ∧ fault = .running cause line [] := by
  unfold Value.combine Value.arithmetic Value.floatArithmetic at failed
  repeat' split at failed
  all_goals cases failed
  all_goals exact ⟨_, rfl, rfl⟩

namespace Exec

/-- The two actions handle values in the same way, as is permitted. -/
inductive Handling : Permit → {α : Type} → Exec α → Exec α → Prop where
  /-- Both return. -/
  | pure {permit : Permit} {α : Type} (value : α) :
      Handling permit (Pure.pure value) (Pure.pure value)
  /-- Both do one thing after another. -/
  | bind {permit : Permit} {α β : Type} {left right : Exec α} {next other : α → Exec β}
      (first : Handling permit left right)
      (rest : ∀ value, Handling permit (next value) (other value)) :
      Handling permit (left >>= next) (right >>= other)
  /-- Both look at objects, variables and macros. -/
  | look {permit : Permit} {β : Type} {next other : Machine → Exec β}
      (shared : ∀ machine lent : Machine, machine.Shares lent → other lent = other machine)
      (rest : ∀ machine : Machine, Handling (permit.looking machine) (next machine) (other machine)) :
      Handling permit (MonadState.get >>= next) (MonadState.get >>= other)
  /-- Both stop with a fault on a line. -/
  | fail {permit : Permit} {α : Type} {cause other : RunCause} {line : Nat}
      (alike : permit.Alike cause other) (free : other.isStructural = false)
      (known : permit.line line) :
      Handling permit (Exec.fail cause line : Exec α) (Exec.fail other line)
  /-- Both stop with a fault at a position. -/
  | failAt {permit : Permit} {α : Type} {cause : RunCause} {window other : Window} {pos place : Nat}
      (free : cause.isStructural = false) (placed : permit.place window pos other place) :
      Handling permit (Exec.failAt window pos cause : Exec α) (Exec.failAt other place cause)
  /-- Both crash the program. -/
  | crash {permit : Permit} {α : Type} {reason : Crash} (due : reason.IsDue) :
      Handling permit (Exec.crash reason : Exec α) (Exec.crash reason)
  /-- Both make an object. -/
  | addObject {permit : Permit} (object : HeapObject) :
      Handling permit (Machine.addObject object) (Machine.addObject object)
  /-- Both replace an object. -/
  | setObject {permit : Permit} {id : HandleId} (reached : permit.object id) (object : HeapObject) :
      Handling permit (Machine.setObject id object) (Machine.setObject id object)
  /-- Both change an object. -/
  | modifyObject {permit : Permit} {id : HandleId} (reached : permit.object id)
      (change : HeapObject → HeapObject) :
      Handling permit (Machine.modifyObject id change) (Machine.modifyObject id change)
  /-- Both assign a variable. -/
  | assignVariable {permit : Permit} (may : permit.writes) (name : String) (value : Value) :
      Handling permit (Machine.assignVariable name value) (Machine.assignVariable name value)

/-- A failure at the current line looks at the machine first. -/
theorem failHere_eq {α : Type} (cause : RunCause) : (Exec.failHere cause : Exec α) =
    MonadState.get >>= fun machine => Exec.fail cause machine.line := rfl

namespace Handling

variable {permit : Permit} {α : Type}

/-! ### Objects -/

/-- A failure on the line of the statement. -/
theorem failLine {machine : Machine} {cause : RunCause} (free : cause.isStructural = false) :
    Handling (permit.looking machine) (Exec.fail cause machine.line : Exec α)
      (Exec.fail cause machine.line) :=
  .fail (.refl _) free (.inr rfl)

/-- The error for a handle that is not live. -/
theorem notLive (kind : String) (id : HandleId) :
    Handling permit (Machine.notLive kind id : Exec α) (Machine.notLive kind id) := by
  unfold Machine.notLive
  rw [failHere_eq]
  exact .look (fun _ _ shares => by rw [shares.line]) fun _ => .failLine rfl

/-- Making a map. -/
theorem newMap : Handling permit Machine.newMap Machine.newMap :=
  .bind (.addObject _) fun _ => .pure _

/-- Making an array. -/
theorem newArray (items : Array Value) :
    Handling permit (Machine.newArray items) (Machine.newArray items) :=
  .bind (.addObject _) fun _ => .pure _

/-- Reading a map. -/
theorem mapGet (id : HandleId) (key : String) :
    Handling permit (Machine.mapGet id key) (Machine.mapGet id key) := by
  unfold Machine.mapGet
  refine .look (fun _ _ shares => by rw [shares.heap, shares.line]) fun machine => ?_
  split
  · split
    · exact .pure _
    · exact .failLine rfl
  · exact .notLive _ _

/-- Reading an array. -/
theorem arrayGet (id : HandleId) (index : Int64) :
    Handling permit (Machine.arrayGet id index) (Machine.arrayGet id index) := by
  unfold Machine.arrayGet
  refine .look (fun _ _ shares => by rw [shares.heap, shares.line]) fun machine => ?_
  split
  · split
    · exact .pure _
    · exact .failLine rfl
  · exact .notLive _ _

/-- Reading an element. -/
theorem element {window other : Window} {pos place : Nat} (placed : permit.place window pos other place)
    (base key : Value) :
    Handling permit (LineScript.element window pos base key) (LineScript.element other place base key) := by
  unfold LineScript.element
  split
  · refine .look (fun _ _ shares => by rw [shares.heap]) fun machine => ?_
    split
    · exact .arrayGet _ _
    · exact .mapGet _ _
    · exact .notLive _ _
  · exact .failAt rfl placed

/-- Storing in a map that may be changed. -/
theorem mapSet {id : HandleId} (reached : permit.object id) (key : String) (value : Value) :
    Handling permit (Machine.mapSet id key value) (Machine.mapSet id key value) := by
  unfold Machine.mapSet
  refine .look (fun _ _ shares => by rw [shares.heap]) fun machine => ?_
  split
  · exact .setObject (Permit.object_looking reached) _
  · exact .notLive _ _

/-- Storing in an array. -/
theorem arraySet (id : HandleId) (index : Int64) (value : Value) :
    Handling permit (Machine.arraySet id index value) (Machine.arraySet id index value) := by
  unfold Machine.arraySet
  refine .look (fun _ _ shares => by rw [shares.heap, shares.line]) fun machine => ?_
  split
  · rename_i items found
    split
    · exact .modifyObject (Permit.object_found found) _
    · exact .failLine rfl
  · exact .notLive _ _

/-- Storing an element of an object that may be changed. -/
theorem storeElement {id : HandleId} (reached : permit.object id) (key value : Value) :
    Handling permit (LineScript.storeElement id key value) (LineScript.storeElement id key value) := by
  unfold LineScript.storeElement
  refine .look (fun _ _ shares => by rw [shares.heap]) fun machine => ?_
  split
  · exact .arraySet _ _ _
  · exact .mapSet (Permit.object_looking reached) _ _
  · exact .notLive _ _

/-- Asking for memory. -/
theorem reserve (present cells : Nat) :
    Handling permit (Machine.reserve present cells) (Machine.reserve present cells) := by
  unfold Machine.reserve
  split
  · rename_i excess
    exact .crash excess.2
  · exact .pure _

/-- Repeating an action. -/
theorem replicate {action other : Exec Value} (handling : Handling permit action other) (count : Nat)
    (items : Array Value) :
    Handling permit (Exec.replicate action count items) (Exec.replicate other count items) := by
  induction count generalizing items with
  | zero => exact .pure _
  | succ count ih => exact .bind handling fun _ => ih _

/-- Making a sized array. -/
theorem sizedArray {line : Nat} (known : permit.line line) (sizes : List Value) :
    Handling permit (LineScript.sizedArray line sizes) (LineScript.sizedArray line sizes) := by
  induction sizes with
  | nil => exact .pure _
  | cons first rest ih =>
    unfold LineScript.sizedArray
    dsimp only
    split
    · exact .fail (.refl _) rfl known
    · exact .bind (.reserve _ _) fun _ => .bind (.replicate ih _ _) fun _ => .newArray _

/-- Overwriting cells of an array. -/
theorem overwriteCells (id : HandleId) (cells : List (Value × Nat)) :
    Handling permit (LineScript.overwriteCells id cells) (LineScript.overwriteCells id cells) := by
  induction cells with
  | nil => exact .pure _
  | cons cell cells ih => exact .bind (.arraySet _ _ _) fun _ => ih

/-! ### Values -/

/-- Reading a macro. -/
theorem macroValue {name other : String} (same : Text.lower other = Text.lower name)
    (spelled : other = name ∨ permit.respells) {line : Nat} (known : permit.line line) :
    Handling permit (Machine.macroValue name line) (Machine.macroValue other line) := by
  unfold Machine.macroValue
  rw [same]
  refine .look (fun _ _ shares => by rw [shares.macroValue?]) fun machine => ?_
  split
  · exact .pure _
  · refine .fail ?_ rfl (Permit.line_looking known)
    rcases spelled with rfl | respells
    · exact .refl _
    · exact .inr ⟨respells, rfl⟩

/-- Applying an operator. -/
theorem combine {line : Nat} (known : permit.line line) (operator : String) (first second : Value) :
    Handling permit (Exec.ofExcept (Value.combine operator first second line))
      (Exec.ofExcept (Value.combine operator first second line)) := by
  cases outcome : Value.combine operator first second line with
  | ok value => exact .pure _
  | error fault =>
    obtain ⟨cause, free, rfl⟩ := Value.combine_fault outcome
    exact .fail (.refl _) free known

/-- Computing what an assignment stores. -/
theorem storedValue {line : Nat} (known : permit.line line) {current other : Exec Value}
    (handling : Handling permit current other) (operator : String) (given : Value) :
    Handling permit (LineScript.storedValue operator current given line)
      (LineScript.storedValue operator other given line) := by
  unfold LineScript.storedValue
  split
  · exact .bind handling fun _ => .combine known _ _ _
  · exact .pure _

/-- Descending along subscripts. -/
theorem descend {window other : Window} {pos place : Nat} (placed : permit.place window pos other place)
    (base : Value) (keys : List Value) :
    Handling permit (LineScript.descend window pos base keys)
      (LineScript.descend other place base keys) := by
  induction keys generalizing base with
  | nil => exact .pure _
  | cons key keys ih => exact .bind (.element placed _ _) fun _ => ih _

/-! ### Variables -/

section Named

variable {token other : Token} (names : permit.Names token other)
include names

/-- Reading a variable. -/
theorem variableValue :
    Handling permit (LineScript.variableValue token) (LineScript.variableValue other) := by
  unfold LineScript.variableValue Machine.varValue?
  rw [names.name, names.line]
  refine .look (fun _ _ shares => by rw [shares.lookup?]) fun machine => ?_
  split
  · exact .pure _
  · exact .fail ((names.looking _).alike fun _ _ => rfl) rfl (Permit.line_looking names.known)

/-- Making a declared array. -/
theorem declaredArray (sizes : List Value) (initial : Option Value) :
    Handling permit (LineScript.declaredArray token sizes initial)
      (LineScript.declaredArray other sizes initial) := by
  unfold LineScript.declaredArray Machine.objectOf?
  rw [names.line]
  refine .bind (.sizedArray names.known _) fun array => ?_
  split
  · exact .pure _
  · refine .look (fun _ _ shares => by rw [shares.heap]) fun machine => ?_
    split
    · exact .bind (.overwriteCells _ _) fun _ => .pure _
    · exact .pure _
    · exact .fail ((names.looking _).alike fun _ _ => rfl) rfl (Permit.line_looking names.known)

/-- Computing what a declaration stores. -/
theorem declaredValue (subscripts : Subscripts) (initial : Option Value) :
    Handling permit (LineScript.declaredValue token subscripts initial)
      (LineScript.declaredValue other subscripts initial) := by
  unfold LineScript.declaredValue Machine.objectOf?
  rw [names.line]
  split
  · split
    · exact .newMap
    · refine .look (fun _ _ shares => by rw [shares.heap]) fun machine => ?_
      split
      · exact .pure _
      · exact .fail ((names.looking _).alike fun _ _ => rfl) rfl (Permit.line_looking names.known)
  · split
    · exact .pure _
    · exact .declaredArray names _ _

/-- Assigning to an element, where any object may be changed. -/
theorem assignElement (reached : ∀ id, permit.object id) {window near : Window} {pos place : Nat}
    (placed : permit.place window pos near place) (path : List Value) (key : Value) (operator : String)
    (given : Value) :
    Handling permit (LineScript.assignElement window pos token path key operator given)
      (LineScript.assignElement near place other path key operator given) := by
  unfold LineScript.assignElement
  rw [names.line]
  refine .bind (.variableValue names) fun _ => .bind (.descend placed _ _) fun container => ?_
  split
  · exact .bind (.storedValue names.known (.element placed _ _) _ _) fun _ =>
      .storeElement (reached _) _ _
  · exact .fail (names.alike fun _ _ => rfl) rfl names.known

variable (may : permit.writes)
include may

/-- Assigning a variable that is named. -/
theorem assign (value : Value) :
    Handling permit (Machine.assignVariable token.lexeme value)
      (Machine.assignVariable other.lexeme value) := by
  have same : Machine.assignVariable other.lexeme value = Machine.assignVariable token.lexeme value := by
    unfold Machine.assignVariable
    rw [names.name]
  rw [same]
  exact .assignVariable may _ _

/-- Assigning along a path, where any object may be changed. -/
theorem assignTo (reached : ∀ id, permit.object id) {window near : Window} {pos place : Nat}
    (placed : permit.place window pos near place) (subscripts : List Value) (operator : String)
    (given : Value) :
    Handling permit (LineScript.assignTo window pos token subscripts operator given)
      (LineScript.assignTo near place other subscripts operator given) := by
  unfold LineScript.assignTo
  split
  · rw [names.line]
    exact .bind (.storedValue names.known (.variableValue names) _ _) fun _ => .assign names may _
  · exact .assignElement names reached placed _ _ _ _

/-- Introducing a variable. -/
theorem introduce (subscripts : Subscripts) :
    Handling permit (LineScript.introduce token subscripts) (LineScript.introduce other subscripts) := by
  unfold LineScript.introduce Machine.hasVariable
  rw [names.name, names.line]
  split
  · exact .bind .newMap fun _ => .assign names may _
  · split
    · refine .look (fun _ _ shares => by rw [shares.lookup?]) fun machine => ?_
      split
      · exact .pure _
      · exact .assign (names.looking machine) may _
    · exact .bind (.sizedArray names.known _) fun _ => .assign names may _

/-- Resizing an array. -/
theorem resize (sizes : List Value) (first : Value) :
    Handling permit (LineScript.resize token sizes first) (LineScript.resize other sizes first) := by
  unfold LineScript.resize Machine.varValue?
  rw [names.name, names.line]
  refine .look (fun _ _ shares => by rw [shares.lookup?, shares.heap]) fun machine => ?_
  have anew : Handling (permit.looking machine)
      (do Machine.assignVariable token.lexeme (← LineScript.sizedArray token.line sizes))
      (do Machine.assignVariable other.lexeme (← LineScript.sizedArray token.line sizes)) :=
    .bind (.sizedArray (Permit.line_looking names.known) _) fun _ => .assign (names.looking machine) may _
  split
  · split
    · rename_i found
      exact .bind (.reserve _ _) fun _ => .setObject (Permit.object_found found) _
    · exact anew
  · exact anew

end Named

end Handling

end Exec

end LineScript
