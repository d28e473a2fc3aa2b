import LineScript.Proofs.Congruence.Relation
import LineScript.Proofs.Run.Scopes

/-!
# Relations that running statements keeps

Statements write variables and registers and move the innermost scope on, and they run blocks. A
relation that also holds of every step that leaves the scopes there are, and of blocks, holds of every
statement and of whole scopes.
-/

namespace LineScript

open Machine

/-- The same scopes are there, and as many calls are running. -/
structure Machine.Level (before after : Machine) : Prop where
  /-- The scopes belong to what they belonged to. -/
  kinds : after.stack.kinds = before.stack.kinds
  /-- As many calls are running. -/
  callDepth : after.callDepth = before.callDepth

namespace Machine.Level

/-- Every machine is level with itself. -/
theorem refl (machine : Machine) : machine.Level machine := ⟨rfl, rfl⟩

/-- Being level is transitive. -/
theorem trans {first second third : Machine} (earlier : first.Level second)
    (later : second.Level third) : first.Level third :=
  ⟨later.kinds.trans earlier.kinds, later.callDepth.trans earlier.callDepth⟩

/-- What is beside the scopes leaves them. -/
theorem of_beside {before after : Machine} (beside : before.Beside after) : before.Level after :=
  ⟨congrArg Stack.kinds beside.stack, by rw [beside.rest]⟩

/-- A change of one scope that leaves what it belongs to. -/
theorem modifyAt (machine : Machine) (position : Nat) {change : Scope → Scope}
    (stays : ∀ scope, (change scope).kind = scope.kind) :
    machine.Level { machine with stack := machine.stack.modifyAt position change } :=
  ⟨Stack.map_scopes_modifyAt Scope.kind _ _ _ stays, rfl⟩

end Machine.Level

namespace Exec

/-- A relation that also holds of every step that leaves the scopes there are. -/
structure LevelCongruence (R : ExecRelation) : Prop extends Congruence R where
  /-- A change of the machine with the same scopes that has nothing to do with its margin. -/
  level : ∀ {change : Machine → Machine},
    (∀ (machine : Machine) (margin : Margin),
      change (machine.withMargin margin) = (change machine).withMargin margin) →
    (∀ machine : Machine, machine.Level (change machine)) →
    R (MonadState.modifyGet fun machine => (PUnit.unit, change machine) : Exec PUnit)
      (MonadState.modifyGet fun machine => (PUnit.unit, change machine))

namespace LevelCongruence

variable {R : ExecRelation} (law : LevelCongruence R)
include law

/-- A change of one scope is such a step. -/
theorem writing : WritingCongruence R where
  toCongruence := law.toCongruence
  write position _ unseen stays := by
    refine law.level (fun machine margin => ?_) fun machine => .modifyAt machine _ stays
    rw [unseen]
    rfl

end LevelCongruence

end Exec

/-- What two engines evaluate is related, and so are the blocks they run. -/
structure Engine.RunsAlike (R : ExecRelation) (left right : Engine) : Prop
    extends left.Alike R right where
  /-- Blocks are related. -/
  runBlock : ∀ code bindings, R (left.runBlock code bindings) (right.runBlock code bindings)

namespace Engine.RunsAlike

variable {R : ExecRelation} {left right : Engine} (alike : left.RunsAlike R right)
  (law : Exec.LevelCongruence R)
include alike law

/-- A statement is related in engines that are alike. -/
theorem statement (window : Window) (pos : Nat) :
    R (left.statement window pos) (right.statement window pos) :=
  alike.toAlike.statement law.toCongruence.flow law.writing alike.runBlock window pos

/-- An exit is related in engines that are alike. -/
theorem exiting : R left.exiting right.exiting := by
  have leave : R (do
        let code := (← get).exitCode
        Exec.trace fun _ => "exit: code " ++ toString code.toInt
        modify fun machine => { machine with exitRequested := true }
        return StepResult.leave .exit) (do
        let code := (← get).exitCode
        Exec.trace fun _ => "exit: code " ++ toString code.toInt
        modify fun machine => { machine with exitRequested := true }
        return StepResult.leave .exit) := by
    refine law.get (fun _ _ => rfl) fun machine => law.bind (law.beside (.trace _)) fun _ => ?_
    exact law.bind (law.level (fun _ _ => rfl) fun machine => ⟨rfl, rfl⟩) fun _ => law.pure _
  unfold Engine.exiting
  refine law.after .atLineEnd fun atEnd => ?_
  dsimp only
  split
  · refine law.bind (alike.scopeValue law.writing) fun value => ?_
    exact law.bind (law.level (fun _ _ => rfl) fun machine => ⟨rfl, rfl⟩) fun _ => leave
  · exact leave

/-- Executing a token is related in engines that are alike. -/
theorem runToken (token : Token) : R (left.runToken token) (right.runToken token) := by
  have ended : R (do LineScript.expectLineEnd; return StepResult.goOn)
      (do LineScript.expectLineEnd; return StepResult.goOn) :=
    law.after .expectLineEnd fun _ => law.pure _
  have ran : R left.stepStatement right.stepStatement := by
    refine law.after .topScope fun scope => law.bind (law.writing.moveTo _) fun _ => ?_
    refine law.bind (alike.statement law _ _) fun _ => law.bind (law.writing.moveTo _) fun _ => ?_
    split
    · exact ended
    · exact law.pure _
  unfold Engine.runToken
  split
  case h_1 | h_2 => exact law.pure _
  case h_3 => exact alike.returning law.writing
  case h_4 => exact alike.exiting law
  case h_5 | h_6 => exact alike.jumping law.writing _ _
  case h_7 => exact law.pure _
  case h_8 => exact law.bind (alike.flag law.writing _) fun _ => ended
  case h_9 => exact law.bind law.writing.skipFunction fun _ => ended
  case h_22 | h_23 | h_24 => exact law.fail _ _
  all_goals exact ran

/-- A step is related in engines that are alike. -/
theorem step : R left.step right.step := by
  refine law.after .topScope fun scope => ?_
  split
  · exact law.pure _
  · rename_i token _
    refine law.bind (law.writing.moveTo _) fun _ => ?_
    dsimp only
    split
    · exact law.bind (law.level (fun _ _ => rfl) fun machine => ⟨rfl, rfl⟩) fun _ => alike.runToken law token
    · exact alike.runToken law token

/-- Running while awake is related when the start and what comes again are. -/
theorem awake {begins begins' : Exec Unit} (first : R begins begins') {again again' : Exec Flow}
    (later : R again again') : R (left.awake begins again) (right.awake begins' again') := by
  refine law.get (fun _ _ => rfl) fun machine => ?_
  split
  · exact law.pure _
  · refine law.bind first fun _ => law.bind (alike.step law) fun result => ?_
    split
    · exact later
    · exact law.pure _
    · refine law.after .topScope fun scope => ?_
      split
      · exact law.bind (law.get (fun _ _ => rfl) fun _ => law.pure _) fun _ => law.fail _ _
      · exact law.pure _

/-- Whole scopes are related when the looks at the suspension are: those are what the margin is
for. -/
theorem runStatements (looks : R Engine.isSuspended Engine.isSuspended) (fuel : Nat) :
    R (left.runStatements fuel) (right.runStatements fuel) := by
  induction fuel with
  | zero => exact law.starved
  | succ fuel ih =>
    refine law.bind looks fun suspended => ?_
    split
    · exact ih
    · exact alike.awake law (law.pure ()) ih

omit law in
/-- Engines that run alike run alike in a weaker relation. -/
theorem imp {S : ExecRelation} (weaker : ∀ {α : Type} {own other : Exec α}, R own other → S own other) :
    left.RunsAlike S right where
  fuel := alike.fuel
  term window pos := weaker (alike.term window pos)
  value window pos := weaker (alike.value window pos)
  call name args line := weaker (alike.call name args line)
  runBlock code bindings := weaker (alike.runBlock code bindings)

end Engine.RunsAlike

end LineScript
