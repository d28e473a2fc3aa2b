import LineScript.Proofs.Custody.Heap
import LineScript.Proofs.Expression.Assignment
import LineScript.Proofs.Machine.Handling
import LineScript.Proofs.Machine.Library

/-!
# What leaves a map alone

Objects are made and changed one at a time. So the functions of the library, assignments and resizes that are not
about a map leave its entries as they are (`Exec.Spares`): only removing a key from it and storing an element in it
change it.
-/

namespace LineScript

open Machine Library

variable {α β : Type} {id : HandleId} {entries : Entries}

/-- However the action ends, the map has the entries that it had before. -/
def Exec.Spares (id : HandleId) (entries : Entries) (action : Exec α) : Prop :=
  ∀ machine : Machine, machine.heap.get? id = some (.map entries) →
    (action.final machine).heap.get? id = some (.map entries)

namespace Exec.Spares

/-- Returning a value spares the map. -/
theorem pure (value : α) : Spares id entries (Pure.pure value : Exec α) := fun _ held => held

/-- Stopping spares the map. -/
theorem throw (stop : Stop) : Spares id entries (MonadExcept.throw stop : Exec α) := fun _ held => held

/-- A failure spares the map. -/
theorem fail (cause : RunCause) (line : Nat) : Spares id entries (Exec.fail cause line : Exec α) := throw _

/-- A sequence spares the map when both parts do. -/
theorem bind {action : Exec α} {next : α → Exec β} (first : action.Spares id entries)
    (rest : ∀ value, (next value).Spares id entries) : (action >>= next).Spares id entries := by
  intro machine held
  exact final_bind (Q := fun after => after.heap.get? id = some (.map entries)) (first machine held)
    fun value middle kept => rest value middle kept

/-- An action that looks at the machine first finds the map in it. -/
theorem get {next : Machine → Exec β}
    (rest : ∀ machine : Machine, machine.heap.get? id = some (.map entries) → (next machine).Spares id entries) :
    (MonadState.get >>= next).Spares id entries := fun machine held => rest machine held machine held

/-- A change beside the heap. -/
theorem modify {change : Machine → Machine} (still : ∀ machine, (change machine).heap = machine.heap) :
    Spares id entries (MonadState.modifyGet fun machine => (PUnit.unit, change machine)) := by
  intro machine held
  change (change machine).heap.get? id = _
  rw [still, held]

/-- A choice between two actions spares the map when both do. -/
theorem ite {condition : Prop} [Decidable condition] {action other : Exec α} (holds : action.Spares id entries)
    (fails : other.Spares id entries) : (if condition then action else other).Spares id entries := by
  split
  · exact holds
  · exact fails

/-- A failure at a position spares the map. -/
theorem failAt (window : Window) (pos : Nat) (cause : RunCause) :
    (Exec.failAt window pos cause : Exec α).Spares id entries := by
  refine .bind ?_ fun _ => fail _ _
  unfold Exec.lineAt
  split
  · exact .ite (pure _) (.get fun _ _ => pure _)
  · exact .get fun _ _ => pure _

/-- Tracing spares the map. -/
theorem trace (text : Unit → String) : (Exec.trace text).Spares id entries := modify fun _ => rfl

/-! ## Objects -/

/-- Adding an object spares the map. -/
theorem addObject (object : HeapObject) : (Machine.addObject object).Spares id entries := by
  intro machine held
  change (machine.heap.add object).get? id = _
  rw [Heap.get?_add, held, if_neg]
  exact Nat.ne_of_lt (Heap.Live.issued ⟨_, held⟩).2

variable {other : HandleId}

/-- Replacing another object spares the map. -/
theorem setObject (apart : id ≠ other) (object : HeapObject) :
    (Machine.setObject other object).Spares id entries := by
  intro machine held
  exact (machine.heap.get?_set_ne apart object).trans held

/-- Changing another object spares the map. -/
theorem modifyObject (apart : id ≠ other) (change : HeapObject → HeapObject) :
    (Machine.modifyObject other change).Spares id entries := by
  intro machine held
  change (machine.heap.modify other change).get? id = _
  rw [Heap.get?_modify, if_neg apart, held]

/-- Destroying another object spares the map. -/
theorem destroyObject (apart : id ≠ other) : (Machine.destroyObject other).Spares id entries := by
  intro machine held
  change (machine.heap.destroy other).get? id = _
  rw [Heap.get?_destroy, if_neg apart, held]

/-! ## The host -/

/-- Drawing from the generator spares the map. -/
theorem draw (next : Generator → UInt64 → α × UInt64) : (Library.draw next).Spares id entries :=
  fun _ held => held

/-- Downloading spares the map. -/
theorem download (address : String) : (Library.download address).Spares id entries :=
  fun _ held => held

end Exec.Spares

/-! ## The library -/

/-- A routine of the library leaves a map alone that is not within its reach. -/
theorem Exec.Routine.spares {sets : Prop} {reach : HandleId → Prop} {action : Exec α}
    (routine : action.Routine sets reach) (beyond : ¬ reach id) : action.Spares id entries := by
  induction routine with
  | pure value => exact .pure value
  | bind _ _ first rest => exact .bind (first beyond) fun value => rest value beyond
  | look _ _ rest =>
    -- What is within reach besides is open files, and the map is none.
    refine .get fun machine held => rest machine ?_
    rintro (reached | ⟨file, found⟩)
    · exact beyond reached
    · cases held.symm.trans found
  | trace text => exact .trace text
  | writeStdout | setError | setExtended | setReturnValue | handler | setFiles | elapse =>
    exact .modify fun _ => rfl
  | writeStderr => exact .get fun _ _ => .ite (.modify fun _ => rfl) (.modify fun _ => rfl)
  | draw next => exact .draw next
  | download address => exact .download address
  | replacement | crash => exact fun _ held => held
  | addObject object => exact .addObject object
  | setObject reached object =>
    refine .setObject ?_ object
    rintro rfl
    exact beyond reached
  | destroyObject reached =>
    refine .destroyObject ?_
    rintro rfl
    exact beyond reached

/-- A function of the library leaves a map alone unless it removes a key from it. -/
theorem Builtin.run_spares (function : Builtin) (args : Args)
    (other : function = .mapRemove → args.value 0 ≠ .handle id) : (function.run args).Spares id entries :=
  (function.routine_run args).spares fun removed => other removed.1 removed.2

/-- An argument that must be given was given. -/
theorem Args.head?_of_fill {name : String} {params : List BuiltinParam} {args values : List Value}
    (filled : Args.fill (Builtin.needs name :: params) args = .ok values) : args.head? = values.head? := by
  cases args with
  | nil => cases filled
  | cons first rest =>
    by_cases asks : first = .defaultWord
    · subst asks
      cases filled
    · have given : (do return first :: (← fill params rest) : Except String (List Value)) = .ok values := by
        cases first <;> first | exact filled | exact absurd rfl asks
      obtain ⟨others, -, same⟩ := bind_eq_ok.mp given
      cases same
      rfl

/-- A function of the library that is called leaves a map alone unless it removes a key from it. -/
theorem callBuiltin_spares {function : Builtin} {args : List Value}
    (other : function = .mapRemove → args.head? ≠ some (.handle id)) (line : Nat) :
    (callBuiltin function args line).Spares id entries := by
  unfold callBuiltin callBuiltinBy checkArity
  refine .bind (.ite (.fail _ _) (.ite (.fail _ _) (.pure _))) fun _ => ?_
  split
  · exact .fail _ _
  · rename_i values filled
    refine .bind (.modify fun _ => rfl) fun _ => .bind (.trace _) fun _ => Builtin.run_spares _ _ ?_
    rintro rfl named
    refine other rfl ?_
    rw [Args.head?_of_fill filled]
    cases values with
    | nil => cases named
    | cons value rest => exact congrArg some named

/-! ## Assignments -/

namespace Machine

/-- Writing a variable spares the map. -/
theorem spares_writeVariable (position : Nat) (name : String) (value : Value) (constant : Bool) :
    (writeVariable position name value constant).Spares id entries := by
  unfold writeVariable
  refine .get fun machine _ => ?_
  dsimp only
  split
  · exact .fail _ _
  · exact .modify fun _ => rfl

/-- Assigning a variable spares the map. -/
theorem spares_assignVariable (name : String) (value : Value) : (assignVariable name value).Spares id entries :=
  .get fun _ _ => spares_writeVariable _ _ _ _

end Machine

/-- Objects but a map may be changed. -/
def Permit.sparing (id : HandleId) : Permit where
  line _ := True
  place _ _ _ _ := True
  object other := id ≠ other
  respells := False
  writes := True

/-- Handling values spares the map when no object that may be changed is the map. -/
theorem Exec.Spares.of_permitted {permit : Permit} {own action : Exec α} (handling : Handling permit own action)
    (apart : ∀ other, permit.object other → id ≠ other) : action.Spares id entries := by
  induction handling with
  | pure value => exact .pure value
  | bind _ _ first rest => exact .bind (first apart) fun value => rest value apart
  | look _ _ rest =>
    -- The objects that may be changed besides are arrays, and the map is none.
    refine .get fun machine held => rest machine ?_
    rintro other (reached | ⟨items, found⟩)
    · exact apart other reached
    · rintro rfl
      cases held.symm.trans found
  | fail => exact .fail _ _
  | failAt => exact .failAt _ _ _
  | crash => exact .throw _
  | addObject object => exact .addObject object
  | setObject reached object => exact .setObject (apart _ reached) object
  | modifyObject reached change => exact .modifyObject (apart _ reached) change
  | assignVariable _ name value => exact spares_assignVariable name value

/-- What is done with values but to change the map spares it. -/
theorem Exec.Spares.handles {action : Exec α} (handling : Handling (.sparing id) action action) :
    action.Spares id entries := of_permitted handling fun _ apart => apart

/-- An assignment leaves a map alone unless it stores an element in it. -/
theorem assignTo_spares {machine : Machine} (held : machine.heap.get? id = some (.map entries)) {variable' : Token}
    {keys : List Value}
    (apart : ∀ path key, keys = path ++ [key] → machine.target? variable'.lexeme path ≠ some (.handle id))
    (window : Window) (pos : Nat) (operator : String) (given : Value) :
    ((assignTo window pos variable' keys operator given).final machine).heap.get? id = some (.map entries) := by
  obtain rfl | ⟨path, key, rfl⟩ := keys.eq_nil_or_concat
  · refine Exec.Spares.handles (.bind (.storedValue trivial ?_ _ _) fun _ => ?_) machine held
    · exact .variableValue (.refl trivial)
    · exact .assign (.refl trivial) trivial _
  · rw [List.concat_eq_append] at apart ⊢
    have elsewhere := apart path key rfl
    have walk := holder_finds machine window pos variable' path
    rw [assignTo_element]
    cases target : machine.target? variable'.lexeme path with
    | none =>
      rw [target] at walk
      obtain ⟨stop, failed⟩ := walk
      unfold Exec.final
      rw [run_bind_eq_error.mpr (.inl failed)]
      exact held
    | some container =>
      rw [target] at walk elsewhere
      unfold Exec.final
      rw [walk.then_eq]
      cases container with
      | handle other =>
        have different : id ≠ other := fun same => elsewhere (same ▸ rfl)
        refine Exec.Spares.handles (.bind (.storedValue trivial (.element trivial _ _) _ _) fun _ => ?_) machine held
        exact .storeElement different _ _
      | _ => exact held

/-- A new map, array or text in a variable leaves a map alone, also the one that the variable held. -/
theorem spares_introduce (variable' : Token) (subscripts : Subscripts) :
    (introduce variable' subscripts).Spares id entries :=
  .handles (.introduce (.refl trivial) trivial _)

/-- So does a resize. -/
theorem spares_resize (variable' : Token) (sizes : List Value) (first : Value) :
    (resize variable' sizes first).Spares id entries := .handles (.resize (.refl trivial) trivial _ _)

end LineScript
