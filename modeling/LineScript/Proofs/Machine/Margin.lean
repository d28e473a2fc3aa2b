import LineScript.Machine.Basic

/-!
# The margin of a machine

Some of a machine is not the script's that runs on it: whether it is suspended, what another party
will set that to, and the tokens that wait to be prepared. An action that neither reads nor changes
these is oblivious of the margin: with another margin it does the same and leaves that one as it was.
Everything that a script asks for is oblivious of it, except for the looks at the suspension between two
statements.
-/

namespace LineScript

/-- What of a machine is not the running script's. -/
structure Margin where
  /-- The script waits between two statements. -/
  suspended : Bool
  /-- What another party sets the suspension to, before each of the next looks at it. -/
  interference : List Bool
  /-- The tokens that wait to be prepared. -/
  pending : Option (List Token)

namespace Margin

/-- The margin after the next look at the suspension: the other party has set it by then. -/
def looked (margin : Margin) : Margin :=
  match margin.interference with
  | [] => margin
  | suspended :: interference => { margin with suspended, interference }

/-- Looking keeps what is pending. -/
@[simp] theorem pending_looked (margin : Margin) : margin.looked.pending = margin.pending := by
  unfold looked
  split <;> rfl

/-- The margin once the script was taken from it to be prepared. -/
def taken (margin : Margin) : Margin := { margin with pending := none }

end Margin

namespace Machine

/-- The margin of a machine. -/
def margin (machine : Machine) : Margin :=
  ⟨machine.suspended, machine.interference, machine.pending⟩

/-- The machine with another margin. -/
def withMargin (machine : Machine) (margin : Margin) : Machine :=
  { machine with
    suspended := margin.suspended
    interference := margin.interference
    pending := margin.pending }

/-- A machine with its own margin is itself. -/
@[simp] theorem withMargin_margin (machine : Machine) : machine.withMargin machine.margin = machine :=
  rfl

/-- The margin that a machine is given is its margin. -/
@[simp] theorem margin_withMargin (machine : Machine) (margin : Margin) :
    (machine.withMargin margin).margin = margin := rfl

/-- The last margin given is the one that counts. -/
@[simp] theorem withMargin_withMargin (machine : Machine) (margin other : Margin) :
    (machine.withMargin margin).withMargin other = machine.withMargin other := rfl

end Machine

namespace Exec

variable {α β : Type}

/-- The outcome of an action with the machine changed that it leaves. -/
def amend (change : Machine → Machine) :
    EStateM.Result Stop Machine α → EStateM.Result Stop Machine α
  | .ok value after => .ok value (change after)
  | .error stop after => .error stop (change after)

/-- The action does the same with whatever margin, and leaves it as it is. -/
def Oblivious (action : Exec α) : Prop :=
  ∀ (machine : Machine) (margin : Margin),
    action (machine.withMargin margin) = amend (·.withMargin margin) (action machine)

namespace Oblivious

/-- Returning a value is oblivious of the margin. -/
theorem pure (value : α) : Oblivious (Pure.pure value : Exec α) := fun _ _ => rfl

/-- Stopping is oblivious of the margin. -/
theorem throw (stop : Stop) : Oblivious (MonadExcept.throw stop : Exec α) := fun _ _ => rfl

/-- A sequence is oblivious of the margin when both parts are. -/
theorem bind {action : Exec α} {next : α → Exec β} (first : action.Oblivious)
    (rest : ∀ value, (next value).Oblivious) : (action >>= next).Oblivious := by
  intro machine margin
  simp only [Bind.bind, EStateM.bind, first machine margin]
  cases action machine with
  | ok value after => exact rest value after margin
  | error stop after => rfl

/-- An action that looks at the machine first, but not at its margin. -/
theorem get {next : Machine → Exec β}
    (unseen : ∀ (machine : Machine) (margin : Margin),
      next (machine.withMargin margin) = next machine)
    (rest : ∀ machine, (next machine).Oblivious) : (MonadState.get >>= next).Oblivious := by
  intro machine margin
  change next (machine.withMargin margin) (machine.withMargin margin) = _
  rw [unseen]
  exact rest machine machine margin

/-- A change that has nothing to do with the margin. -/
theorem modify {change : Machine → Machine}
    (unseen : ∀ (machine : Machine) (margin : Margin),
      change (machine.withMargin margin) = (change machine).withMargin margin) :
    Oblivious (MonadState.modifyGet fun machine => (PUnit.unit, change machine)) := fun machine margin =>
  congrArg (EStateM.Result.ok PUnit.unit) (unseen machine margin)

/-- An oblivious action leaves the margin as it is. -/
theorem ok {action : Exec α} (oblivious : action.Oblivious) {machine after : Machine} {value : α}
    (ran : action machine = .ok value after) : after.margin = machine.margin := by
  have same := oblivious machine machine.margin
  rw [Machine.withMargin_margin, ran] at same
  have kept := congrArg Machine.margin (EStateM.Result.ok.inj same).2
  exact kept

/-- So does one that stops. -/
theorem error {action : Exec α} (oblivious : action.Oblivious) {machine after : Machine} {stop : Stop}
    (ran : action machine = .error stop after) : after.margin = machine.margin := by
  have same := oblivious machine machine.margin
  rw [Machine.withMargin_margin, ran] at same
  have kept := congrArg Machine.margin (EStateM.Result.error.inj same).2
  exact kept

end Oblivious

end Exec

end LineScript
