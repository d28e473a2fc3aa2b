import LineScript.Interpreter.Run
import LineScript.Proofs.Machine.Handling
import LineScript.Proofs.Machine.Margin
import LineScript.Proofs.Run.Guard

/-!
# Actions beside the scopes

Reading values, making and changing objects, and stopping with a fault touch the heap and the trace
and nothing else: no scope, no file, no output, and not the way the script ends. When such an action
stops, the fault is its own, and was not taken along from a call. It does the same whatever stands in
the margin of the machine.
-/

namespace LineScript

open Machine

/-- Nothing but the heap and the trace differs. -/
structure Machine.Beside (before after : Machine) : Prop where
  /-- The rest is the same. -/
  rest : after = { before with heap := after.heap, host := after.host }
  /-- No file was touched. -/
  files : after.host.files = before.host.files

namespace Machine.Beside

variable {before after : Machine}

/-- Every machine is beside itself. -/
theorem refl (machine : Machine) : machine.Beside machine := ⟨rfl, rfl⟩

/-- Being beside is transitive. -/
theorem trans {first second third : Machine} (earlier : first.Beside second)
    (later : second.Beside third) : first.Beside third where
  rest := by
    have rest := later.rest
    rw [earlier.rest] at rest
    exact rest
  files := later.files.trans earlier.files

/-- A machine beside another has its stack. -/
theorem stack (beside : before.Beside after) : after.stack = before.stack := by rw [beside.rest]

end Machine.Beside

/-- Tracing leaves the files of the host alone. -/
theorem Host.trace_files (host : Host) (text : Unit → String) :
    (host.trace text).files = host.files := by
  unfold Host.trace
  split <;> rfl

/-- A reason to stop that arises at once: a fault that has left no call yet, that no steps remain, or a
crash that is due. -/
inductive Stop.Raised : Stop → Prop
  /-- A fault of the running script. -/
  | fault (cause : RunCause) (line : Nat) : Raised (.fault (.running cause line []))
  /-- No steps remain. -/
  | starved : Raised .starved
  /-- A crash. -/
  | crashed (crash : Crash) (due : crash.IsDue) : Raised (.crashed crash)

/-- The action changes nothing but the heap and the trace, stops only for reasons that arise in it,
and is oblivious of the margin. -/
structure Exec.Beside {α : Type} (action : Exec α) : Prop where
  /-- However it ends, the rest of the machine is the same. -/
  stays : ∀ machine : Machine, machine.Beside (action.final machine)
  /-- If it stops, it does so at once. -/
  stops : ∀ {machine after : Machine} {stop : Stop}, action machine = .error stop after → stop.Raised
  /-- The margin does not matter. -/
  oblivious : action.Oblivious

/-- What is looked at when values are handled does not stand in the margin. -/
theorem Machine.shares_withMargin (machine : Machine) (margin : Margin) :
    machine.Shares (machine.withMargin margin) := ⟨rfl, rfl, fun _ => rfl, fun _ => rfl⟩

namespace Exec.Beside

variable {α β : Type}

/-- Returning a value stays beside. -/
theorem pure (value : α) : Beside (Pure.pure value : Exec α) where
  stays machine := .refl machine
  stops stopped := by cases stopped
  oblivious := .pure value

/-- A raised stop stays beside. -/
theorem throw {stop : Stop} (raised : stop.Raised) : Beside (MonadExcept.throw stop : Exec α) where
  stays machine := .refl machine
  stops stopped := by
    cases stopped
    exact raised
  oblivious := .throw stop

/-- A sequence stays beside when both parts do. -/
theorem bind {action : Exec α} {next : α → Exec β} (first : action.Beside)
    (rest : ∀ value, (next value).Beside) : (action >>= next).Beside where
  stays machine :=
    final_bind (first.stays machine) fun value middle beside =>
      beside.trans ((rest value).stays middle)
  stops stopped := by
    rcases run_bind_eq_error.mp stopped with failed | ⟨value, _, _, later⟩
    · exact first.stops failed
    · exact (rest value).stops later
  oblivious := .bind first.oblivious fun value => (rest value).oblivious

/-- An action that looks at the machine first. -/
theorem get {next : Machine → Exec β}
    (unseen : ∀ (machine : Machine) (margin : Margin),
      next (machine.withMargin margin) = next machine)
    (rest : ∀ machine, (next machine).Beside) :
    (MonadState.get >>= next).Beside where
  stays machine := (rest machine).stays machine
  stops {machine _ _} stopped := (rest machine).stops stopped
  oblivious := .get unseen fun machine => (rest machine).oblivious

/-- A change of the heap or the trace. -/
theorem modify {change : Machine → Machine}
    (unseen : ∀ (machine : Machine) (margin : Margin),
      change (machine.withMargin margin) = (change machine).withMargin margin)
    (beside : ∀ machine : Machine, machine.Beside (change machine)) :
    Beside (MonadState.modifyGet fun machine => (PUnit.unit, change machine)) where
  stays := beside
  stops stopped := by cases stopped
  oblivious := .modify unseen

/-- A failure stays beside. -/
theorem fail (cause : RunCause) (line : Nat) : Beside (Exec.fail cause line : Exec α) :=
  throw (.fault cause line)

/-- Running out of fuel stays beside. -/
theorem starved : Beside (Exec.starved : Exec α) := throw .starved

/-- Tracing stays beside. -/
theorem trace (text : Unit → String) : (Exec.trace text).Beside :=
  .modify (fun _ _ => rfl) fun machine => ⟨rfl, machine.host.trace_files text⟩

/-- Reading a line number stays beside. -/
theorem lineAt (window : Window) (pos : Nat) : (Exec.lineAt window pos).Beside := by
  unfold Exec.lineAt Exec.currentLine
  split
  · split
    · exact .pure _
    · exact .get (fun _ _ => rfl) fun _ => .pure _
  · exact .get (fun _ _ => rfl) fun _ => .pure _

/-- A failure at a position stays beside. -/
theorem failAt (window : Window) (pos : Nat) (cause : RunCause) :
    Beside (Exec.failAt window pos cause : Exec α) := .bind (lineAt window pos) fun _ => fail _ _

/-- Expecting a token stays beside. -/
theorem expect (window : Window) (pos : Nat) (kind : TokenKind) (wanted : String) :
    (Exec.expect window pos kind wanted).Beside := by
  unfold Exec.expect
  split
  · split
    · exact .pure _
    · exact failAt _ _ _
  · exact failAt _ _ _

/-- Replacing an object stays beside. -/
theorem setObject (id : HandleId) (object : HeapObject) : (Machine.setObject id object).Beside :=
  .modify (fun _ _ => rfl) fun _ => ⟨rfl, rfl⟩

/-- Changing an object stays beside. -/
theorem modifyObject (id : HandleId) (change : HeapObject → HeapObject) :
    (Machine.modifyObject id change).Beside := .modify (fun _ _ => rfl) fun _ => ⟨rfl, rfl⟩

/-- Adding an object stays beside. -/
theorem addObject (object : HeapObject) : (Machine.addObject object).Beside := by
  refine .get (fun _ _ => rfl) fun machine => .bind (.modify (fun _ _ => rfl) fun _ => ?_) fun _ =>
    .bind (trace _) fun _ => .pure _
  exact ⟨rfl, rfl⟩

/-- Handling values stays beside as long as no variable is assigned. -/
theorem of_permitted {permit : Permit} {left right : Exec α} (handling : Handling permit left right)
    (still : ¬ permit.writes) : right.Beside := by
  induction handling with
  | pure value => exact .pure value
  | bind _ _ first rest => exact .bind (first still) fun value => rest value still
  | look shared _ rest =>
    exact .get (fun machine margin => shared machine _ (machine.shares_withMargin margin)) fun machine =>
      rest machine still
  | fail => exact .fail _ _
  | failAt => exact .failAt _ _ _
  | crash due => exact .throw (.crashed _ due)
  | addObject object => exact .addObject object
  | setObject _ object => exact .setObject _ object
  | modifyObject _ change => exact .modifyObject _ change
  | assignVariable may => exact absurd may still

/-- Handling values without assigning a variable stays beside. -/
theorem of_handling {action : Exec α} (handling : Handling (.all False) action action) :
    action.Beside := of_permitted handling id

/-- Checking a number of arguments stays beside. -/
theorem checkArity (name : String) (greatest required given line : Nat) :
    (LineScript.checkArity name greatest required given line).Beside := by
  unfold LineScript.checkArity
  split
  · exact fail _ _
  · split
    · exact fail _ _
    · exact .pure _

/-- Looking up the innermost scope stays beside. -/
theorem topScope : LineScript.topScope.Beside := .get (fun _ _ => rfl) fun _ => .pure _

/-- Looking for the end of a line stays beside. -/
theorem atLineEnd : LineScript.atLineEnd.Beside := .bind topScope fun _ => .pure _

/-- Expecting the end of a line stays beside. -/
theorem expectLineEnd : LineScript.expectLineEnd.Beside := by
  unfold LineScript.expectLineEnd
  refine .bind topScope fun scope => ?_
  split
  · split
    · exact .pure _
    · exact fail _ _
  · exact .pure _

end Exec.Beside

end LineScript
