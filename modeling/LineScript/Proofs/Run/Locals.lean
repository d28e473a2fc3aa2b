import LineScript.Proofs.Run.Scopes

/-!
# Calls leave the variables of their callers alone

A read looks through the scopes of all callers, but a write stops at the frame of the running
function and may go on only to the script's own variables. The scopes behind that frame are
sheltered: nothing that a run does writes to them. For a call the frame is the one that was put on
for it, so the scopes of all callers are sheltered while it runs.
-/

namespace LineScript

open Machine

namespace Stack

/-- The variables of the scopes between the frame of the running function and the script's scope,
innermost first. -/
def sheltered (stack : Stack) : List Variables :=
  (stack.inner.drop (stack.framePosition + 1)).map Scope.vars

/-- The variables of all scopes but the script's, innermost first. -/
def locals (stack : Stack) : List Variables := stack.inner.map Scope.vars

/-- The frame is found by the kinds of scopes. -/
theorem framePosition_of_kinds {stack other : Stack} (same : other.kinds = stack.kinds) :
    other.framePosition = stack.framePosition := by
  have view : ∀ stack : Stack, stack.framePosition =
      (stack.inner.map Scope.kind).findIdx (· != .block) := by
    intro stack
    rw [List.findIdx_map]
    rfl
  rw [view, view, (kinds_split same).1]

/-- Stacks with the same tables have the same local tables. -/
theorem locals_of_tables {stack other : Stack} (same : other.tables = stack.tables) :
    other.locals = stack.locals := by
  simp only [tables, scopes, List.map_append, List.map_cons, List.map_nil] at same
  exact (List.append_inj' same rfl).1

/-- Where nothing behind the frame is written, what is sheltered stays. -/
theorem sheltered_of_locals {stack other : Stack} (kinds : other.kinds = stack.kinds)
    (same : other.locals = stack.locals) : other.sheltered = stack.sheltered := by
  unfold sheltered
  rw [List.map_drop, List.map_drop, framePosition_of_kinds kinds]
  exact congrArg (List.drop (stack.framePosition + 1)) same

/-- A change in reach of the running function or of the script leaves the sheltered variables
alone. -/
theorem sheltered_modifyAt (stack : Stack) {position : Nat} (change : Scope → Scope)
    (kinds : (stack.modifyAt position change).kinds = stack.kinds)
    (reach : position ≤ stack.framePosition ∨ position = stack.inner.length) :
    (stack.modifyAt position change).sheltered = stack.sheltered := by
  unfold sheltered
  rw [framePosition_of_kinds kinds]
  unfold modifyAt
  split
  · rename_i inside
    have near : position < stack.framePosition + 1 := by omega
    rw [List.drop_modify_of_lt _ _ _ _ near]
  · rfl

/-- A block has no frame of its own: the same scopes are sheltered in it. -/
theorem sheltered_push_block (stack : Stack) {scope : Scope} (isBlock : scope.kind = .block) :
    (stack.push scope).sheltered = stack.sheltered := by
  have notFrame : scope.isFrame = false := by simp [Scope.isFrame, isBlock]
  simp [sheltered, framePosition, push, List.findIdx_cons, notFrame]

/-- All scopes of a caller are sheltered in a call. -/
theorem sheltered_push_call (stack : Stack) {scope : Scope} {name : String}
    (isCall : scope.kind = .function name) : (stack.push scope).sheltered = stack.locals := by
  have frame : scope.isFrame = true := by simp [Scope.isFrame, isCall]
  simp [sheltered, framePosition, push, List.findIdx_cons, frame, locals]

/-- A scope that was put on is still there, on the stack without it. -/
theorem exists_push_pop {stack after : Stack} {scope : Scope}
    (same : after.outline = (stack.push scope).outline) :
    ∃ left : Scope, left.kind = scope.kind ∧ after = after.pop.push left := by
  have kind : after.top.kind = scope.kind := top_kind_of_outline same
  have depth : after.depth = stack.depth + 1 := (Matches.of_outline same).depth
  obtain ⟨_ | ⟨left, rest⟩, root⟩ := after
  · simp [Stack.depth] at depth
  · exact ⟨left, kind, rfl⟩

/-- When what is sheltered in a call stays, the variables of all callers are as they were. -/
theorem pop_locals_of_sheltered {stack after : Stack} {scope : Scope} {name : String}
    (isCall : scope.kind = .function name) (same : after.outline = (stack.push scope).outline)
    (stays : after.sheltered = (stack.push scope).sheltered) : after.pop.locals = stack.locals := by
  obtain ⟨left, kind, pushed⟩ := exists_push_pop same
  calc
    after.pop.locals = (after.pop.push left).sheltered :=
      (sheltered_push_call _ (kind.trans isCall)).symm
    _ = after.sheltered := by rw [← pushed]
    _ = (stack.push scope).sheltered := stays
    _ = stack.locals := sheltered_push_call _ isCall

end Stack

namespace Machine.Evolves

/-- Whatever a run does, the sheltered variables stay as they are. -/
theorem sheltered_eq {before after : Machine} (evolves : before.Evolves after) :
    after.stack.sheltered = before.stack.sheltered := by
  induction evolves with
  | refl => rfl
  | trans _ _ earlier later => exact later.trans earlier
  | aside stack => rw [stack]
  | write machine position key variable' reach =>
    exact Stack.sheltered_modifyAt _ _ (Stack.map_scopes_modifyAt _ _ _ _ fun _ => rfl) reach
  | registers machine change =>
    exact Stack.sheltered_modifyAt _ _ (Stack.map_scopes_modifyAt _ _ _ _ fun _ => rfl)
      (.inl (Nat.le_refl _))
  | move machine pos =>
    have kinds : (machine.stack.modifyTop fun scope => { scope with pos }).kinds =
        machine.stack.kinds := by
      rcases machine.stack with ⟨_ | ⟨scope, rest⟩, root⟩ <;> rfl
    have locals : (machine.stack.modifyTop fun scope => { scope with pos }).locals =
        machine.stack.locals := by
      rcases machine.stack with ⟨_ | ⟨scope, rest⟩, root⟩ <;> rfl
    exact Stack.sheltered_of_locals kinds locals
  | @block before after scope isBlock inside ih =>
    obtain ⟨left, kind, pushed⟩ := Stack.exists_push_pop inside.outline_eq
    calc
      after.stack.pop.sheltered = (after.stack.pop.push left).sheltered :=
        (Stack.sheltered_push_block _ (kind.trans isBlock)).symm
      _ = after.stack.sheltered := by rw [← pushed]
      _ = (before.stack.push scope).sheltered := ih
      _ = before.stack.sheltered := Stack.sheltered_push_block _ isBlock
  | @call before after scope name isCall room inside ih =>
    have kinds := (Stack.Matches.of_outline (call scope name isCall room inside).outline_eq).kinds
    exact Stack.sheltered_of_locals kinds (Stack.pop_locals_of_sheltered isCall inside.outline_eq ih)

end Machine.Evolves

/-- The action leaves the variables of all scopes but the script's alone, however it ends. -/
def Exec.KeepsLocals {α : Type} (action : Exec α) : Prop :=
  ∀ machine : Machine, (action.final machine).stack.locals = machine.stack.locals

namespace Exec.KeepsLocals

variable {α β : Type}

/-- Returning a value keeps the local tables. -/
theorem pure (value : α) : KeepsLocals (Pure.pure value : Exec α) := fun _ => rfl

/-- Stopping keeps the local tables. -/
theorem throw (stop : Stop) : KeepsLocals (MonadExcept.throw stop : Exec α) := fun _ => rfl

/-- A sequence keeps the local tables when both parts do. -/
theorem bind {action : Exec α} {next : α → Exec β} (first : action.KeepsLocals)
    (rest : ∀ value, (next value).KeepsLocals) : (action >>= next).KeepsLocals := by
  intro machine
  refine final_bind (Q := fun after => after.stack.locals = machine.stack.locals) (first machine)
    fun value middle stays => ?_
  exact (rest value middle).trans stays

/-- An action that looks at the machine first. -/
theorem get {next : Machine → Exec β} (rest : ∀ machine, (next machine).KeepsLocals) :
    (MonadState.get >>= next).KeepsLocals := fun machine => rest machine machine

/-- A tame action keeps the local tables. -/
theorem of_tame {action : Exec α} (tame : action.Tame True) : action.KeepsLocals :=
  fun machine => Stack.locals_of_tables (tame.spares machine).tables

/-- What runs in the scope of a call makes the changes of a run, so it leaves the callers alone. -/
theorem inCall {scope : Scope} {action : Exec α} {next : Except Stop α × Scope → Exec β}
    {name : String} {line : Nat} {text : Unit → String} (isCall : scope.kind = .function name)
    (inside : ∀ machine : Machine, machine.Evolves (action.final machine))
    (rest : ∀ result, (next result).KeepsLocals) :
    KeepsLocals (do
      enterCall name line
      Exec.trace text
      let result ← Exec.inScope scope action
      leaveCall
      next result) := by
  intro machine
  unfold Exec.final
  rw [Exec.inCall_eq]
  by_cases full : maxCallDepth ≤ machine.callDepth
  · rw [if_pos full]
    rfl
  · rw [if_neg full]
    have evolves := inside (called machine scope text)
    have stays := Stack.pop_locals_of_sheltered isCall evolves.outline_eq evolves.sheltered_eq
    exact (rest _ _).trans stays

end Exec.KeepsLocals

/-- Checking a number of arguments keeps the local tables. -/
theorem checkArity_keepsLocals (name : String) (greatest required given line : Nat) :
    (checkArity name greatest required given line).KeepsLocals := by
  unfold checkArity
  split
  · exact .throw _
  · split
    · exact .throw _
    · exact .pure ()

/-- A call of a library function keeps the local tables. -/
theorem callBuiltin_keepsLocals (function : Builtin) (args : List Value) (line : Nat) :
    (callBuiltin function args line).KeepsLocals := by
  unfold callBuiltin callBuiltinBy
  refine .bind (checkArity_keepsLocals _ _ _ _ _) fun _ => ?_
  split
  · exact .throw _
  · refine .bind (.of_tame (tame_modifyRegisters _)) fun _ => ?_
    exact .bind (.of_tame (.trace _)) fun _ => .of_tame (function.tame_run _).loose

/-- Binding the parameters and running the body of a function makes the changes of a run. -/
theorem evolves_body (fuel : Nat) (function : UserFunction) (args : List Value) (line : Nat)
    (machine : Machine) :
    machine.Evolves (Exec.final (do
      (engine fuel).bindParams function line function.params args
      (engine fuel).runScope) machine) := by
  have obeys := engine_obeys (.free machine.program) fuel
  have bound := obeys.bindParams function line function.params args fun _ _ _ _ => trivial
  exact Guard.Ends.evolves (.bind (bound.ends rfl) fun _ middle evolves _ =>
    obeys.runScope middle evolves.program_eq trivial)

/-- A call of a function of the script keeps the local tables. -/
theorem callUser_keepsLocals (fuel : Nat) (function : UserFunction) (args : List Value)
    (line : Nat) : ((engine fuel).callUser function args line).KeepsLocals := by
  rw [Engine.callUser, Engine.callUserBy_attempt, Engine.runBody]
  refine .bind (checkArity_keepsLocals _ _ _ _ _) fun _ => ?_
  refine .bind (.of_tame (tame_modifyRegisters _)) fun _ => ?_
  refine .inCall rfl (evolves_body fuel function args line) fun ended => ?_
  obtain ⟨outcome, left⟩ := ended
  cases outcome with
  | error stop => exact .throw _
  | ok flow => exact .bind (.of_tame (tame_modifyRegisters _)) fun _ => .pure _

/-- Whatever function is called, with whatever arguments, and however the call ends: the variables of
all scopes but the script's are what they were. -/
theorem Machine.call_locals (fuel : Nat) (name : String) (args : List Value) (line : Nat)
    (machine : Machine) :
    ((Machine.call fuel name args line).final machine).stack.locals = machine.stack.locals := by
  cases fuel with
  | zero => rfl
  | succ fuel =>
    have called : ((engine fuel).callFunction name args line).KeepsLocals := by
      unfold Engine.callFunction Engine.callNamed
      refine .get fun machine => ?_
      split
      · exact .pure _
      · split
        · exact callUser_keepsLocals fuel _ args line
        · split
          · exact callBuiltin_keepsLocals _ args line
          · exact .throw _
    exact called machine

end LineScript
