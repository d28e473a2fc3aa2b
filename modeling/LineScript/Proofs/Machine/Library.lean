import LineScript.Library.Dispatch
import LineScript.Proofs.Machine.Evolution
import LineScript.Proofs.Machine.Margin
import LineScript.Proofs.Run.Guard

/-!
# What the library does to a machine

A function of the library reports what went wrong in the registers. It changes nothing but the
registers of the running function and what stands beside the scopes, and what stands in the margin of
the machine does not matter to it. It returns unless the host cannot look for a text that is to be
replaced, which stops the script, or no random number can be drawn, which crashes the program. The
functions are walked through once, as routines (`Builtin.routine_run`); what holds of all of them is
an induction over routines.
-/

namespace LineScript

/-- What the frames return when they end without saying so, innermost first; blocks included. -/
def Stack.returns (stack : Stack) : List Value :=
  stack.scopes.map fun scope => scope.registers.returnValue

/-- What the library leaves alone: the variables of all scopes, whether the script is ending, and the
line of the statement. -/
structure Machine.Spares (before after : Machine) : Prop where
  /-- Every scope keeps its variables. -/
  tables : after.stack.tables = before.stack.tables
  /-- The script goes on, or goes on ending. -/
  exitRequested : after.exitRequested = before.exitRequested
  /-- The same statement is being executed. -/
  line : after.line = before.line

namespace Machine.Spares

/-- A machine spares itself. -/
theorem refl (machine : Machine) : machine.Spares machine := ⟨rfl, rfl, rfl⟩

/-- What is left alone twice is left alone. -/
theorem trans {first second third : Machine} (earlier : first.Spares second)
    (later : second.Spares third) : first.Spares third :=
  ⟨later.tables.trans earlier.tables, later.exitRequested.trans earlier.exitRequested,
    later.line.trans earlier.line⟩

end Machine.Spares

/-- A reason for which a function of the library stops, called by a statement of a line. -/
inductive Stop.OfLibrary (line : Nat) : Stop → Prop
  /-- A text that is to be replaced cannot be looked for. -/
  | replacement (reason : String) : OfLibrary line (.fault (.running (.replacement reason) line []))
  /-- No random number can be drawn. -/
  | crashed (crash : Crash) (due : crash.IsDue) : OfLibrary line (.crashed crash)

namespace Exec

variable {α β : Type}

/-- However the action ends, the machine evolves with all scopes staying where they are and keeping
their variables, and with what the frames return unless the action may set that. It stops only for a reason of the
library, and is oblivious of the margin. -/
structure Tame (sets : Prop) (action : Exec α) : Prop where
  /-- The machine evolves. -/
  evolves : ∀ machine : Machine, machine.Evolves (action.final machine)
  /-- All scopes stay where they are. -/
  stays : ∀ machine : Machine, (action.final machine).stack.places = machine.stack.places
  /-- All scopes keep their variables. -/
  spares : ∀ machine : Machine, machine.Spares (action.final machine)
  /-- What the frames return is set only by an action that may set it. -/
  returns : ¬ sets → ∀ machine : Machine,
    (action.final machine).stack.returns = machine.stack.returns
  /-- Reasons to stop are those of the library. -/
  stops : ∀ {machine after : Machine} {stop : Stop}, action machine = .error stop after →
    stop.OfLibrary machine.line
  /-- The margin does not matter. -/
  oblivious : action.Oblivious

namespace Tame

variable {sets : Prop}

/-- An action may set more than it does. -/
theorem mono {other : Prop} {action : Exec α} (tame : action.Tame sets) (weaker : sets → other) :
    action.Tame other :=
  { tame with returns := fun never => tame.returns fun may => never (weaker may) }

/-- An action may set what the frames return. -/
theorem loose {action : Exec α} (tame : action.Tame sets) : action.Tame True :=
  tame.mono fun _ => trivial

/-- Returning a value is tame. -/
theorem pure (value : α) : Tame sets (Pure.pure value : Exec α) where
  evolves machine := .refl machine
  stays _ := rfl
  spares machine := .refl machine
  returns _ _ := rfl
  stops stopped := by cases stopped
  oblivious := .pure value

/-- A sequence of tame actions is tame. -/
theorem bind {action : Exec α} {next : α → Exec β} (first : action.Tame sets)
    (rest : ∀ value, (next value).Tame sets) : (action >>= next).Tame sets where
  evolves machine := final_bind (first.evolves machine) fun value middle earlier =>
    earlier.trans ((rest value).evolves middle)
  stays machine := final_bind (first.stays machine) fun value middle earlier =>
    ((rest value).stays middle).trans earlier
  spares machine := final_bind (first.spares machine) fun value middle earlier =>
    earlier.trans ((rest value).spares middle)
  returns never machine := final_bind (first.returns never machine) fun value middle earlier =>
    ((rest value).returns never middle).trans earlier
  stops {machine _ _} stopped := by
    rcases run_bind_eq_error.mp stopped with failed | ⟨value, middle, ran, later⟩
    · exact first.stops failed
    · have same : middle.line = machine.line := by
        have spares := (first.spares machine).line
        rwa [final, ran] at spares
      exact same ▸ (rest value).stops later
  oblivious := .bind first.oblivious fun value => (rest value).oblivious

/-- An action that looks at the machine first. -/
theorem get {next : Machine → Exec β}
    (unseen : ∀ (machine : Machine) (margin : Margin),
      next (machine.withMargin margin) = next machine)
    (rest : ∀ machine, (next machine).Tame sets) : (MonadState.get >>= next).Tame sets where
  evolves machine := (rest machine).evolves machine
  stays machine := (rest machine).stays machine
  spares machine := (rest machine).spares machine
  returns never machine := (rest machine).returns never machine
  stops {machine _ _} stopped := (rest machine).stops stopped
  oblivious := .get unseen fun machine => (rest machine).oblivious

/-- An action that returns and changes something beside the scopes. -/
theorem aside {action : Exec α} (oblivious : action.Oblivious)
    (changes : ∀ machine : Machine, ∃ value after, action machine = .ok value after ∧
      after.stack = machine.stack ∧ after.program = machine.program ∧
      after.callDepth = machine.callDepth ∧
      (after.running = machine.running ∧ after.pending = machine.pending) ∧
      after.exitRequested = machine.exitRequested ∧ after.line = machine.line) :
    action.Tame sets := by
  refine ⟨fun machine => ?_, fun machine => ?_, fun machine => ?_, fun _ machine => ?_,
    fun {machine _ _} stopped => ?_, oblivious⟩
  all_goals
    obtain ⟨value, after, ran, stack, program, callDepth, status, exitRequested, line⟩ :=
      changes machine
  · rw [final, ran]
    exact .aside stack program callDepth status
  · rw [final, ran]
    exact congrArg Stack.places stack
  · rw [final, ran]
    exact ⟨congrArg Stack.tables stack, exitRequested, line⟩
  · rw [final, ran]
    exact congrArg Stack.returns stack
  · cases ran.symm.trans stopped

/-- A change of something beside the scopes. -/
theorem modify {change : Machine → Machine}
    (unseen : ∀ (machine : Machine) (margin : Margin),
      change (machine.withMargin margin) = (change machine).withMargin margin)
    (stays : ∀ machine, (change machine).stack = machine.stack ∧
      (change machine).program = machine.program ∧
      (change machine).callDepth = machine.callDepth ∧
      ((change machine).running = machine.running ∧ (change machine).pending = machine.pending) ∧
      (change machine).exitRequested = machine.exitRequested ∧
      (change machine).line = machine.line) :
    Tame sets (MonadState.modifyGet fun machine => (PUnit.unit, change machine)) :=
  .aside (.modify unseen) fun machine => ⟨_, _, rfl, stays machine⟩

/-- Tracing is tame. -/
theorem trace (text : Unit → String) : (Exec.trace text).Tame sets :=
  modify (fun _ _ => rfl) fun _ => ⟨rfl, rfl, rfl, ⟨rfl, rfl⟩, rfl, rfl⟩

/-- An action that stops at the line of the statement. -/
theorem replacement (reason : String) :
    (Exec.failHere (.replacement reason) : Exec α).Tame sets where
  evolves machine := .refl machine
  stays _ := rfl
  spares machine := .refl machine
  returns _ _ := rfl
  stops stopped := by
    cases stopped
    exact .replacement reason
  oblivious _ _ := rfl

/-- A crash that is due is tame. -/
theorem crash {reason : Crash} (due : reason.IsDue) : (Exec.crash reason : Exec α).Tame sets where
  evolves machine := .refl machine
  stays _ := rfl
  spares machine := .refl machine
  returns _ _ := rfl
  stops stopped := by
    cases stopped
    exact .crashed reason due
  oblivious _ _ := rfl

end Tame

end Exec

namespace Machine

open Exec

variable {sets : Prop}

/-- Changing the registers is tame where that is allowed. -/
theorem tame_modifyRegisters (change : Registers → Registers) : (modifyRegisters change).Tame True where
  evolves machine := .registers machine change
  stays machine := Stack.places_modifyAt _ _ _ fun _ => rfl
  spares machine := ⟨Stack.tables_modifyAt _ _ _ fun _ => rfl, rfl, rfl⟩
  returns never := absurd trivial never
  stops stopped := by cases stopped
  oblivious := .modify fun _ _ => rfl

/-- A change of the codes only. -/
theorem tame_codes {change : Registers → Registers}
    (codes : ∀ registers, (change registers).returnValue = registers.returnValue) :
    (modifyRegisters change).Tame sets :=
  { tame_modifyRegisters change with
    returns := fun _ _ => Stack.map_scopes_modifyAt _ _ _ _ fun scope => codes scope.registers }

/-- Replacing an object is tame. -/
theorem tame_setObject (id : HandleId) (object : HeapObject) : (setObject id object).Tame sets :=
  .modify (fun _ _ => rfl) fun _ => ⟨rfl, rfl, rfl, ⟨rfl, rfl⟩, rfl, rfl⟩

/-- Changing an object is tame. -/
theorem tame_modifyObject (id : HandleId) (change : HeapObject → HeapObject) :
    (modifyObject id change).Tame sets :=
  .modify (fun _ _ => rfl) fun _ => ⟨rfl, rfl, rfl, ⟨rfl, rfl⟩, rfl, rfl⟩

/-- Adding an object is tame. -/
theorem tame_addObject (object : HeapObject) : (addObject object).Tame sets :=
  .get (fun _ _ => rfl) fun _ =>
    .bind (.modify (fun _ _ => rfl) fun _ => ⟨rfl, rfl, rfl, ⟨rfl, rfl⟩, rfl, rfl⟩) fun _ =>
    .bind (.trace _) fun _ => .pure _

/-- Destroying an object is tame. -/
theorem tame_destroyObject (id : HandleId) : (destroyObject id).Tame sets :=
  .bind (.trace _) fun _ => .get (fun _ _ => rfl) fun _ =>
    .bind (.modify (fun _ _ => rfl) fun _ => ⟨rfl, rfl, rfl, ⟨rfl, rfl⟩, rfl, rfl⟩) fun _ => .pure _

/-- Writing to the output is tame. -/
theorem tame_writeStdout (text : String) : (writeStdout text).Tame sets :=
  .modify (fun _ _ => rfl) fun _ => ⟨rfl, rfl, rfl, ⟨rfl, rfl⟩, rfl, rfl⟩

/-- Writing to the error output is tame. -/
theorem tame_writeStderr (text : String) : (writeStderr text).Tame sets := by
  unfold writeStderr
  refine .get (fun _ _ => rfl) fun machine => ?_
  split
  · exact tame_writeStdout text
  · exact .modify (fun _ _ => rfl) fun _ => ⟨rfl, rfl, rfl, ⟨rfl, rfl⟩, rfl, rfl⟩

/-! ## Routines

What the functions of the library are put together from. A property of actions that all these steps
have, and that passes on from step to step, is a property of the whole library.
-/

/-- Another machine with the heap and the host of this one, and with some console. All that a routine
looks at is the same on it. -/
def lend (machine other : Machine) (console : Console) : Machine :=
  { other with heap := machine.heap, host := { machine.host with console } }

end Machine

namespace Exec

open Machine

/-- The action is a routine of the library. It replaces and removes no object but those within its
reach and files that it finds open, and sets what the running frame returns only if it may. -/
inductive Routine (sets : Prop) : {α : Type} → (reach : HandleId → Prop) → Exec α → Prop where
  /-- It returns. -/
  | pure {α : Type} {reach : HandleId → Prop} (value : α) : Routine sets reach (Pure.pure value)
  /-- It does one thing after another. -/
  | bind {α β : Type} {reach : HandleId → Prop} {action : Exec α} {next : α → Exec β}
      (first : Routine sets reach action) (rest : ∀ value, Routine sets reach (next value)) :
      Routine sets reach (action >>= next)
  /-- It looks at the heap and the host. The files that it finds open are within its reach. -/
  | look {β : Type} {reach : HandleId → Prop} {next : Machine → Exec β}
      (lent : ∀ (machine other : Machine) (console : Console),
        next (machine.lend other console) = next machine)
      (rest : ∀ machine : Machine, Routine sets
        (fun id => reach id ∨ ∃ file, machine.heap.get? id = some (.file file)) (next machine)) :
      Routine sets reach (MonadState.get >>= next)
  /-- It writes a trace line. -/
  | trace {reach : HandleId → Prop} (text : Unit → String) : Routine sets reach (Exec.trace text)
  /-- It writes to standard output. -/
  | writeStdout {reach : HandleId → Prop} (text : String) :
      Routine sets reach (Machine.writeStdout text)
  /-- It writes to the error stream. -/
  | writeStderr {reach : HandleId → Prop} (text : String) :
      Routine sets reach (Machine.writeStderr text)
  /-- It sets the error code of the running frame. -/
  | setError {reach : HandleId → Prop} (code : Int64) : Routine sets reach (Machine.setError code)
  /-- It sets the extended code of the running frame. -/
  | setExtended {reach : HandleId → Prop} (code : Int64) :
      Routine sets reach (Machine.setExtended code)
  /-- It sets what the running frame returns. -/
  | setReturnValue {reach : HandleId → Prop} (may : sets) (value : Value) :
      Routine sets reach (Machine.setReturnValue value)
  /-- It registers the function that is called when the script ends. -/
  | handler {reach : HandleId → Prop} (name : String) :
      Routine sets reach (modify fun machine => { machine with exitHandler := some name })
  /-- It replaces the files of the host. -/
  | setFiles {reach : HandleId → Prop} (files : FileSystem) :
      Routine sets reach (Library.setFiles files)
  /-- It lets time pass. -/
  | elapse {reach : HandleId → Prop} (microseconds : Nat) :
      Routine sets reach (Library.elapse microseconds)
  /-- It draws from the generator. -/
  | draw {α : Type} {reach : HandleId → Prop} (next : Generator → UInt64 → α × UInt64) :
      Routine sets reach (Library.draw next)
  /-- It asks the network. -/
  | download {reach : HandleId → Prop} (address : String) :
      Routine sets reach (Library.download address)
  /-- It stops the script. -/
  | replacement {α : Type} {reach : HandleId → Prop} (reason : String) :
      Routine sets reach (Exec.failHere (.replacement reason) : Exec α)
  /-- It crashes the program. -/
  | crash {α : Type} {reach : HandleId → Prop} {reason : Crash} (due : reason.IsDue) :
      Routine sets reach (Exec.crash reason : Exec α)
  /-- It makes an object. -/
  | addObject {reach : HandleId → Prop} (object : HeapObject) :
      Routine sets reach (Machine.addObject object)
  /-- It replaces an object. -/
  | setObject {reach : HandleId → Prop} {id : HandleId} (reached : reach id) (object : HeapObject) :
      Routine sets reach (Machine.setObject id object)
  /-- It removes an object. -/
  | destroyObject {reach : HandleId → Prop} {id : HandleId} (reached : reach id) :
      Routine sets reach (Machine.destroyObject id)

namespace Routine

variable {α : Type} {sets : Prop} {reach : HandleId → Prop}

/-- A choice between routines is a routine. -/
theorem ite {condition : Prop} [Decidable condition] {action other : Exec α}
    (holds : action.Routine sets reach) (fails : other.Routine sets reach) :
    (if condition then action else other).Routine sets reach := by
  split
  · exact holds
  · exact fails

/-- Making an array is a routine. -/
theorem newArray (items : Array Value) : (Machine.newArray items).Routine sets reach :=
  .bind (.addObject _) fun _ => .pure _

/-- A routine that sets the error code and returns. -/
theorem failed (code : Int64) (value : Value) :
    (do Machine.setError code; return value : Exec Value).Routine sets reach :=
  .bind (.setError code) fun _ => .pure value

/-- A routine is tame. -/
theorem tame {action : Exec α} (routine : action.Routine sets reach) : action.Tame sets := by
  induction routine with
  | pure value => exact .pure value
  | bind _ _ first rest => exact first.bind rest
  | look lent _ rest =>
    exact .get (fun machine margin => lent machine (machine.withMargin margin) machine.host.console) rest
  | trace text => exact .trace text
  | writeStdout text => exact tame_writeStdout text
  | writeStderr text => exact tame_writeStderr text
  | setError | setExtended => exact tame_codes fun _ => rfl
  | setReturnValue may value => exact (tame_modifyRegisters _).mono fun _ => may
  | setObject _ object => exact tame_setObject _ object
  | handler | setFiles | elapse =>
    exact .modify (fun _ _ => rfl) fun _ => ⟨rfl, rfl, rfl, ⟨rfl, rfl⟩, rfl, rfl⟩
  | draw | download =>
    exact .aside (fun _ _ => rfl) fun _ => ⟨_, _, rfl, rfl, rfl, rfl, ⟨rfl, rfl⟩, rfl, rfl⟩
  | replacement reason => exact .replacement reason
  | crash due => exact .crash due
  | addObject object => exact tame_addObject object
  | destroyObject => exact tame_destroyObject _

end Routine

end Exec

namespace Library

open Exec

variable {sets : Prop} {reach : HandleId → Prop} (args : Args)

/-- Registering an exit handler is a routine. -/
theorem routine_onExit : (onExit args).Routine sets reach := by
  unfold onExit
  split
  · exact .bind (.handler _) fun _ => .pure _
  · exact .bind (.handler _) fun _ => .pure _
  · exact .failed _ _

/-- Replacing in a text is a routine. -/
theorem routine_stringReplace : (stringReplace args).Routine sets reach := by
  unfold stringReplace
  refine .ite (.pure _) (.look (fun _ _ _ => rfl) fun machine => ?_)
  split
  · exact .replacement _
  · exact .bind (.setExtended _) fun _ => .pure _

/-- Splitting a text is a routine. -/
theorem routine_stringSplit : (stringSplit args).Routine sets reach :=
  .ite (.bind (.setError _) fun _ => .newArray _) (.newArray _)

/-- A pattern search is a routine. -/
theorem routine_stringRegExp : (stringRegExp args).Routine sets reach := by
  unfold stringRegExp
  refine .look (fun _ _ _ => rfl) fun machine => ?_
  dsimp only
  split
  · exact .failed _ _
  · split
    · exact .pure _
    · split
      · exact .failed _ _
      · exact .newArray _

/-- A remainder is a routine. -/
theorem routine_mod : (mod args).Routine sets reach := by
  unfold mod
  split
  · exact .failed _ _
  · split
    · exact .pure _
    · exact .pure _

/-- Drawing a random number is a routine. -/
theorem routine_random : (random args).Routine sets reach := by
  unfold random
  split
  all_goals
    refine .ite (.failed _ _) (.ite (.ite (.failed _ _) ?_) (.ite (.pure _) (.ite ?_ ?_)))
    · exact .bind (.draw _) fun _ => .pure _
    · exact .bind (.draw _) fun _ => .pure _
    · exact .crash trivial

/-- The extent of a container does not depend on what is lent to the machine. -/
theorem extent_lend (machine other : Machine) (console : Console) (dimension : Int64) (outer : Bool)
    (levels : Nat) (value : Value) :
    extent (machine.lend other console) dimension outer levels value =
      extent machine dimension outer levels value := by
  induction levels generalizing outer value with
  | zero =>
    unfold extent
    rfl
  | succ levels ih =>
    unfold extent
    simp only [ih]
    rfl

/-- The size of a container is a routine. -/
theorem routine_uBound : (uBound args).Routine sets reach := by
  unfold uBound
  refine .look (fun _ _ _ => by rw [extent_lend]) fun machine => ?_
  split
  · exact .pure _
  · exact .failed _ _

/-- Listing the keys of a map is a routine. -/
theorem routine_mapKeys : (mapKeys args).Routine sets reach := by
  unfold mapKeys
  refine .look (fun _ _ _ => rfl) fun machine => ?_
  split
  · exact .newArray _
  · exact .failed _ _

/-- Looking for a key is a routine. -/
theorem routine_mapExists : (mapExists args).Routine sets reach := by
  unfold mapExists
  refine .look (fun _ _ _ => rfl) fun machine => ?_
  split
  · exact .pure _
  · exact .failed _ _

/-- A key is removed from the map that is given, and from no other. -/
theorem routine_mapRemove (within : ∀ id, args.value 0 = .handle id → reach id) :
    (mapRemove args).Routine sets reach := by
  unfold mapRemove
  dsimp only
  split
  · rename_i id given
    refine .look (fun _ _ _ => rfl) fun machine => ?_
    split
    · exact .bind (.setObject (.inl (within id given)) _) fun _ => .pure _
    · exact .failed _ _
  · exact .failed _ _

/-- The parents made for a path do not depend on what is lent to the machine. -/
theorem makeParents_lend (machine other : Machine) (console : Console) (mode : Int64)
    (path : String) :
    makeParents (machine.lend other console).host mode path = makeParents machine.host mode path := by
  simp only [makeParents, Machine.lend]

/-- Opening a file is a routine. -/
theorem routine_fileOpen : (fileOpen args).Routine sets reach := by
  unfold fileOpen
  refine .look (fun _ _ _ => by rw [makeParents_lend]) fun machine => ?_
  split
  · exact .failed _ _
  · refine .bind (.setFiles _) fun _ => .look (fun _ _ _ => rfl) fun opened => ?_
    split
    · exact .bind (.trace _) fun _ => .failed _ _
    · exact .bind (.setFiles _) fun _ => .bind (.addObject _) fun _ =>
        .bind (.trace _) fun _ => .pure _

/-- Reading a file is a routine. -/
theorem routine_fileRead : (fileRead args).Routine sets reach := by
  unfold fileRead
  refine .look (fun _ _ _ => rfl) fun machine => ?_
  split
  · split
    · rename_i found
      split
      · exact .bind (.setObject (.inr ⟨_, found⟩) _) fun _ => .ite (.failed _ _) (.pure _)
      · exact .failed _ _
    · exact .failed _ _
  · split
    · exact .ite (.failed _ _) (.pure _)
    · exact .failed _ _

/-- Writing to a file or a path is a routine. -/
theorem routine_writeTo (target : Value) (data : Text.Bytes) :
    (writeTo target data).Routine sets reach := by
  unfold writeTo
  refine .look (fun _ _ _ => rfl) fun machine => ?_
  split
  · split
    · rename_i found
      split
      · exact .bind (.setFiles _) fun _ => .bind (.setObject (.inr ⟨_, found⟩) _) fun _ => .pure _
      · exact .failed _ _
    · exact .failed _ _
  · split
    · refine .bind (.setFiles _) fun _ => ?_
      split
      · exact .bind (.setFiles _) fun _ => .pure _
      · exact .failed _ _
    · exact .failed _ _

/-- Closing a file is a routine. -/
theorem routine_fileClose : (fileClose args).Routine sets reach := by
  unfold fileClose
  split
  · refine .look (fun _ _ _ => rfl) fun machine => ?_
    split
    · rename_i found
      exact .bind (.destroyObject (.inr ⟨_, found⟩)) fun _ => .bind (.trace _) fun _ => .pure _
    · exact .pure _
  · exact .pure _

/-- Deleting a file is a routine. -/
theorem routine_fileDelete : (fileDelete args).Routine sets reach := by
  unfold fileDelete
  refine .look (fun _ _ _ => rfl) fun machine => ?_
  dsimp only
  split
  · exact .bind (.setFiles _) fun _ => .pure _
  · exact .pure _

/-- A download is a routine. -/
theorem routine_inetRead : (inetRead args).Routine sets reach := by
  unfold inetRead
  refine .bind (.download _) fun answer => ?_
  split
  · exact .bind (.trace _) fun _ => .bind (.setExtended _) fun _ => .pure _
  · exact .bind (.trace _) fun _ => .failed _ _

/-- Reading the clock is a routine. -/
theorem routine_readClock : readClock.Routine sets reach :=
  .bind (.elapse _) fun _ => .look (fun _ _ _ => rfl) fun _ => .pure _

/-- Reading a timer is a routine. -/
theorem routine_timerDiff : (timerDiff args).Routine sets reach := by
  unfold timerDiff
  refine .look (fun _ _ _ => rfl) fun machine => ?_
  split
  · exact .bind routine_readClock fun _ => .pure _
  · exact .failed _ _

end Library

open Library in
/-- Every function of the library is a routine, whatever its arguments are. Two of them set what the
running frame returns; the objects that they change are open files and the map that a key is removed
from. -/
theorem Builtin.routine_run (function : Builtin) (args : Args) :
    (function.run args).Routine (function = .setError ∨ function = .setExtended)
      fun id => function = .mapRemove ∧ args.value 0 = .handle id := by
  cases function with
  | typeOf | isArray | isMap | fileExists => exact .look (fun _ _ _ => rfl) fun _ => .pure _
  | consoleWrite => exact .bind (.writeStdout _) fun _ => .pure _
  | consoleWriteError => exact .bind (.writeStderr _) fun _ => .pure _
  | setError =>
    exact .bind (.setError _) fun _ => .bind (.setExtended _) fun _ =>
      .bind (.setReturnValue (.inl rfl) _) fun _ => .pure _
  | setExtended =>
    exact .bind (.setExtended _) fun _ => .bind (.setReturnValue (.inr rfl) _) fun _ => .pure _
  | onExit => exact routine_onExit args
  | stringInStr | sqrt => exact .ite (.failed _ _) (.pure _)
  | stringReplace => exact routine_stringReplace args
  | stringSplit => exact routine_stringSplit args
  | stringRegExp => exact routine_stringRegExp args
  | mod => exact routine_mod args
  | random => exact routine_random args
  | uBound => exact routine_uBound args
  | mapKeys => exact routine_mapKeys args
  | mapExists => exact routine_mapExists args
  | mapRemove => exact routine_mapRemove args fun _ given => ⟨rfl, given⟩
  | fileOpen => exact routine_fileOpen args
  | fileRead => exact routine_fileRead args
  | fileWrite | fileWriteLine => exact routine_writeTo _ _
  | fileClose => exact routine_fileClose args
  | fileDelete => exact routine_fileDelete args
  | inetRead => exact routine_inetRead args
  | sleep => exact .bind (.elapse _) fun _ => .pure _
  | timerInit =>
    exact .bind routine_readClock fun _ => .bind (.addObject _) fun _ => .pure _
  | timerDiff => exact routine_timerDiff args
  | _ => exact .pure _

/-- Every function of the library is tame, whatever its arguments are. Only two of them set what a
frame returns. -/
theorem Builtin.tame_run (function : Builtin) (args : Args) :
    (function.run args).Tame (function = .setError ∨ function = .setExtended) :=
  (function.routine_run args).tame

/-- What a call of a function of the library does once its arguments are complete. -/
theorem tame_served (function : Builtin) (given : Nat) (values : List Value) :
    Exec.Tame True (do
      Machine.resetRegisters
      Exec.trace fun _ => "call: " ++ function.name ++ "(" ++ toString given ++ " args)"
      function.run { values, supplied := given }) :=
  .bind (Machine.tame_modifyRegisters _) fun _ => .bind (.trace _) fun _ =>
    (function.tame_run _).loose

end LineScript
