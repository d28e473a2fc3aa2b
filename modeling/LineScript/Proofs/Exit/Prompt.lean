import LineScript.Proofs.Congruence.Relation

/-!
# Calm actions, and giving up at once

How a script ends is decided by the exit code, the function registered for the end, and whether the
end was asked for; what it has done for others is its output and its files. Reading values, writing
variables and elements, making objects and stopping with a fault change none of these. Only calls
and statements do.
-/

namespace LineScript

section

open Machine

/-- How the script ends, what it has written and the line it is at are as they were, except perhaps
for the exit code. -/
structure Machine.Stays (before after : Machine) : Prop where
  /-- The script goes on, or goes on ending. -/
  exitRequested : after.exitRequested = before.exitRequested
  /-- The same function is registered for the end. -/
  exitHandler : after.exitHandler = before.exitHandler
  /-- The same statement is being executed. -/
  line : after.line = before.line
  /-- Nothing was written to standard output. -/
  stdout : after.stdout = before.stdout
  /-- Nothing was written to the error stream. -/
  stderr : after.stderr = before.stderr
  /-- No file was touched. -/
  files : after.host.files = before.host.files

/-- How the script ends, what it has written and the line it is at are as they were. -/
structure Machine.Winds (before after : Machine) : Prop extends before.Stays after where
  /-- The exit code is the same. -/
  exitCode : after.exitCode = before.exitCode

namespace Machine

/-- Staying is transitive. -/
theorem Stays.trans {first second third : Machine} (earlier : first.Stays second)
    (later : second.Stays third) : first.Stays third where
  exitRequested := later.exitRequested.trans earlier.exitRequested
  exitHandler := later.exitHandler.trans earlier.exitHandler
  line := later.line.trans earlier.line
  stdout := later.stdout.trans earlier.stdout
  stderr := later.stderr.trans earlier.stderr
  files := later.files.trans earlier.files

/-- Every machine winds to itself. -/
theorem Winds.refl (machine : Machine) : machine.Winds machine :=
  ⟨⟨rfl, rfl, rfl, rfl, rfl, rfl⟩, rfl⟩

/-- Winding is symmetric. -/
theorem Winds.symm {before after : Machine} (winds : before.Winds after) : after.Winds before where
  exitRequested := winds.exitRequested.symm
  exitHandler := winds.exitHandler.symm
  line := winds.line.symm
  stdout := winds.stdout.symm
  stderr := winds.stderr.symm
  files := winds.files.symm
  exitCode := winds.exitCode.symm

/-- Winding is transitive. -/
theorem Winds.trans {first second third : Machine} (earlier : first.Winds second)
    (later : second.Winds third) : first.Winds third :=
  ⟨earlier.toStays.trans later.toStays, later.exitCode.trans earlier.exitCode⟩

end Machine

/-- The action leaves how the script ends alone, also when it stops. -/
def Exec.Calm {α : Type} (action : Exec α) : Prop :=
  ∀ machine : Machine, machine.Winds (action.final machine)

namespace Exec.Calm

variable {α β : Type}

/-- Returning a value is calm. -/
theorem pure (value : α) : Calm (Pure.pure value : Exec α) := fun machine => .refl machine

/-- Stopping is calm. -/
theorem throw (stop : Stop) : Calm (MonadExcept.throw stop : Exec α) := fun machine => .refl machine

/-- One calm action after another is calm. -/
theorem bind {action : Exec α} {next : α → Exec β} (first : action.Calm)
    (rest : ∀ value, (next value).Calm) : (action >>= next).Calm := by
  intro machine
  exact final_bind (first machine) fun value middle winds => winds.trans (rest value middle)

/-- An action that looks at the machine first. -/
theorem get {next : Machine → Exec β} (rest : ∀ machine, (next machine).Calm) :
    (MonadState.get >>= next).Calm := fun machine => rest machine machine

/-- A change of something else. -/
theorem modify {change : Machine → Machine}
    (winds : ∀ machine : Machine, machine.Winds (change machine)) :
    Calm (MonadState.modifyGet fun machine => (PUnit.unit, change machine)) := winds

/-- Running out of fuel is calm. -/
theorem starved : Calm (Exec.starved : Exec α) := .throw _

/-- What touches only the heap and the trace is calm. -/
theorem of_beside {action : Exec α} (beside : action.Beside) : action.Calm := by
  intro machine
  obtain ⟨rest, files⟩ := beside.stays machine
  rw [rest]
  exact ⟨⟨rfl, rfl, rfl, rfl, rfl, files⟩, rfl⟩

/-- Changing the registers is calm. -/
theorem modifyRegisters (change : Registers → Registers) : (modifyRegisters change).Calm :=
  .modify fun _ => ⟨⟨rfl, rfl, rfl, rfl, rfl, rfl⟩, rfl⟩

/-- Moving the cursor is calm. -/
theorem moveTo (pos : Nat) : (LineScript.moveTo pos).Calm :=
  .modify fun _ => ⟨⟨rfl, rfl, rfl, rfl, rfl, rfl⟩, rfl⟩

/-- Asking whether the machine is suspended is calm. -/
theorem isSuspended : Engine.isSuspended.Calm := by
  refine .bind (.modify fun machine => ?_) fun _ => .get fun _ => .pure _
  split
  · exact .refl machine
  · exact ⟨⟨rfl, rfl, rfl, rfl, rfl, rfl⟩, rfl⟩

end Exec.Calm

end

/-!
## Giving up at once when a script ends

A script that executes `Exit` inside a function does not stop there: the call yields an empty value,
and whatever was being evaluated around it is completed with that value. The engine defined here
gives up at once instead, as an `Exit` is meant to: the first one that is executed stops it, with a
list of what was pending around it. How the two compare is said by `Exec.Follows`: the actual engine
does the same up to that point, and after it leaves output, files and the way the script ends
alone.
-/

/-- The reason to stop of a script that gave up at an `Exit`: the line of that statement, and what is
pending around it, innermost first. -/
def Stop.quit (line : Nat) (pending : List CallFrame) : Stop :=
  .fault (.running (.flowOutside Flow.exit.trace) line pending)

/-- How a pending `Exit` is listed. No function has this name. -/
def exitFrame : String := "Exit"

/-- An `Exit` is pending whose code is still to be set. -/
def isOverruled (pending : List CallFrame) : Bool := pending.any (·.function == exitFrame)

namespace Exec

variable {α β : Type}

/-- Gives up when a scope has been run and the script is ending. -/
def givingUp (action : Exec Flow) : Exec Flow := fun machine =>
  match action machine with
  | .ok flow after =>
    if after.exitRequested then .error (.quit after.line []) after else .ok flow after
  | .error stop after => .error stop after

/-- Lists an `Exit` as pending when the script gave up while its code was evaluated. -/
def pendingExit (line : Nat) (action : Exec α) : Exec α := fun machine =>
  match action machine with
  | .ok value after => .ok value after
  | .error stop after =>
    .error (if after.exitRequested then stop.leaving exitFrame line else stop) after

end Exec

/-- The engine of a given fuel that gives up when an `Exit` was executed. -/
def promptEngine : (fuel : Nat) → Engine
  | 0 => engine 0
  | fuel + 1 =>
    { fuel
      term := fun window pos => (promptEngine fuel).evalTerm window pos
      value := fun window pos =>
        match window.token? (pos - 1) with
        | some { kind := .kwExit, line, .. } =>
          Exec.pendingExit line ((promptEngine fuel).evalValue window pos)
        | _ => (promptEngine fuel).evalValue window pos
      call := fun name args line => (promptEngine fuel).callFunction name args line
      runScope := Exec.givingUp fun machine => (promptEngine fuel).runStatements fuel machine }

namespace Exec

variable {α β : Type}

/-- The prompt engine gave up in a machine with something pending; this is how the actual one went
on. -/
structure Lost (ends : α → Prop) (pending : List CallFrame) (quit : Machine)
    (actual : EStateM.Result Stop Machine α) : Prop where
  /-- The script was ending. -/
  exiting : quit.exitRequested = true
  /-- Everything is as it was then, except perhaps for the exit code. -/
  stays : quit.Stays (left actual)
  /-- The exit code changes only if another `Exit` was waiting for its code. -/
  exitCode : isOverruled pending = false → (left actual).exitCode = quit.exitCode
  /-- With nothing pending the actual engine returned, on its way out of the script. -/
  leaves : pending = [] → ∃ value after, actual = .ok value after ∧ ends value

/-- Two outcomes are the same and the script goes on, or the prompt engine gave up. -/
def Tracks (ends : α → Prop) (prompt actual : EStateM.Result Stop Machine α) : Prop :=
  (actual = prompt ∧ (left prompt).exitRequested = false) ∨
  ∃ line pending quit, prompt = .error (.quit line pending) quit ∧ Lost ends pending quit actual

/-- One action follows another that gives up when the script ends, and once the script is ending it
leaves its output, its files and the way it ends alone. Where nothing was pending it returns
something with which control leaves the script. -/
structure Follows (ends : α → Prop) (prompt actual : Exec α) : Prop where
  /-- On a script that is not ending. -/
  tracks : ∀ machine : Machine, machine.exitRequested = false →
    Tracks ends (prompt machine) (actual machine)
  /-- On a script that is ending. -/
  winds : ∀ machine : Machine, machine.exitRequested = true → machine.Winds (actual.final machine)

/-- One action follows another, and an `Exit` inside of it was executed in a pending call. -/
abbrev Evaluates : ExecRelation := fun _ prompt actual => Follows (fun _ => False) prompt actual

variable {ends : α → Prop} {later : β → Prop} {prompt actual : Exec α}
  {promptNext actualNext : α → Exec β} {machine : Machine}

/-- A sequence whose first part returns goes on with the second part. -/
theorem bind_ok {action : Exec α} {next : α → Exec β} {value : α} {after : Machine}
    (ran : action machine = .ok value after) : (action >>= next) machine = next value after := by
  simp only [Bind.bind, EStateM.bind, ran]

/-- A sequence whose first part stops has stopped. -/
theorem bind_error {action : Exec α} {next : α → Exec β} {stop : Stop} {after : Machine}
    (ran : action machine = .error stop after) : (action >>= next) machine = .error stop after := by
  simp only [Bind.bind, EStateM.bind, ran]

/-- A lost outcome stays lost under a weaker reading of its values. -/
theorem Lost.mono {other : α → Prop} {pending : List CallFrame} {quit : Machine}
    {outcome : EStateM.Result Stop Machine α} (lost : Lost ends pending quit outcome)
    (weaker : ∀ value, ends value → other value) : Lost other pending quit outcome where
  exiting := lost.exiting
  stays := lost.stays
  exitCode := lost.exitCode
  leaves none :=
    have ⟨value, after, returned, isEnd⟩ := lost.leaves none
    ⟨value, after, returned, weaker value isEnd⟩

/-- Where the prompt engine gave up, the actual one went on after an `Exit`. -/
theorem Tracks.lost {ended outcome : EStateM.Result Stop Machine α} {line : Nat}
    {pending : List CallFrame} {quit : Machine} (tracks : Tracks ends ended outcome)
    (stopped : ended = .error (.quit line pending) quit) (ending : quit.exitRequested = true) :
    Lost ends pending quit outcome := by
  rcases tracks with ⟨_, going⟩ | ⟨_, _, _, quits, lost⟩
  · rw [stopped] at going
    exact absurd (going.symm.trans ending) nofun
  · rw [stopped] at quits
    cases quits
    exact lost

/-- The script is ending exactly if the prompt engine gave up. -/
theorem Tracks.ending_iff {ended outcome : EStateM.Result Stop Machine α}
    (tracks : Tracks ends ended outcome) :
    (left outcome).exitRequested = true ↔
      ∃ quit pending, quit.exitRequested = true ∧
        ∃ line, ended = .error (.quit line pending) quit := by
  constructor
  · intro ending
    rcases tracks with ⟨same, going⟩ | ⟨line, pending, quit, stopped, lost⟩
    · rw [same, going] at ending
      cases ending
    · exact ⟨quit, pending, lost.exiting, line, stopped⟩
  · rintro ⟨quit, pending, ending, line, stopped⟩
    have lost := tracks.lost stopped ending
    exact lost.stays.exitRequested.trans ending

/-- What follows a lost action leaves everything alone. -/
theorem Lost.bind {pending : List CallFrame} {quit : Machine}
    (lost : Lost ends pending quit (actual machine))
    (winds : ∀ (value : α) (after : Machine), after.exitRequested = true →
      after.Winds ((actualNext value).final after))
    (leaves : ∀ value, actual.Returns value → ends value → ∀ after : Machine,
      after.exitRequested = true → ∃ result last, actualNext value after = .ok result last ∧ later result) :
    Lost later pending quit ((actual >>= actualNext) machine) := by
  obtain ⟨exiting, stays, code, returns⟩ := lost
  cases outcome : actual machine with
  | error stop middle =>
    rw [outcome] at stays code returns
    rw [bind_error outcome]
    refine ⟨exiting, stays, code, fun none => ?_⟩
    obtain ⟨_, _, impossible, _⟩ := returns none
    cases impossible
  | ok value middle =>
    rw [outcome] at stays code returns
    rw [bind_ok outcome]
    have ending : middle.exitRequested = true := stays.exitRequested.trans exiting
    have rest := winds value middle ending
    refine ⟨exiting, stays.trans rest.toStays, fun free => rest.exitCode.trans (code free),
      fun none => ?_⟩
    obtain ⟨_, _, returned, isEnd⟩ := returns none
    cases returned
    exact leaves value ⟨machine, middle, outcome⟩ isEnd middle ending

/-- One action after another, on one machine. -/
theorem Tracks.bind (first : Tracks ends (prompt machine) (actual machine))
    (together : ∀ (value : α) (after : Machine), prompt machine = .ok value after →
      after.exitRequested = false → Tracks later (promptNext value after) (actualNext value after))
    (winds : ∀ (value : α) (after : Machine), after.exitRequested = true →
      after.Winds ((actualNext value).final after))
    (leaves : ∀ value, actual.Returns value → ends value → ∀ after : Machine,
      after.exitRequested = true → ∃ result last, actualNext value after = .ok result last ∧ later result) :
    Tracks later ((prompt >>= promptNext) machine) ((actual >>= actualNext) machine) := by
  rcases first with ⟨same, going⟩ | ⟨line, pending, quit, stopped, lost⟩
  · cases outcome : prompt machine with
    | error stop middle =>
      rw [outcome] at same going
      rw [bind_error outcome, bind_error same]
      exact .inl ⟨rfl, going⟩
    | ok value middle =>
      rw [outcome] at same going
      rw [bind_ok outcome, bind_ok same]
      exact together value middle outcome going
  · rw [bind_error stopped]
    exact .inr ⟨line, pending, quit, rfl, lost.bind winds leaves⟩

namespace Follows

/-- An action that follows another follows it under a weaker reading of its values. -/
theorem mono {other : α → Prop} (follows : Follows ends prompt actual)
    (weaker : ∀ value, ends value → other value) : Follows other prompt actual where
  tracks machine going := (follows.tracks machine going).imp_right
    fun ⟨line, pending, quit, stopped, lost⟩ =>
      ⟨line, pending, quit, stopped, lost.mono weaker⟩
  winds := follows.winds

/-- One action after another; what follows a way out of the script is one as well. -/
theorem bind (first : Follows ends prompt actual)
    (rest : ∀ value, Follows later (promptNext value) (actualNext value))
    (leaves : ∀ value, actual.Returns value → ends value → ∀ after : Machine,
      after.exitRequested = true → ∃ result last, actualNext value after = .ok result last ∧ later result) :
    Follows later (prompt >>= promptNext) (actual >>= actualNext) where
  tracks machine going := (first.tracks machine going).bind
    (fun value after _ => (rest value).tracks after) (fun value => (rest value).winds) leaves
  winds machine ending := by
    have winds := first.winds machine ending
    unfold final at *
    cases outcome : actual machine with
    | error stop middle =>
      rw [outcome] at winds
      rw [bind_error outcome]
      exact winds
    | ok value middle =>
      rw [outcome] at winds
      rw [bind_ok outcome]
      exact winds.trans ((rest value).winds middle (winds.exitRequested.trans ending))

/-- An action that does not touch how the script ends. -/
theorem of_calm {action : Exec α} (calm : action.Calm) : Follows ends action action where
  tracks machine going := .inl ⟨rfl, (calm machine).exitRequested.trans going⟩
  winds machine _ := calm machine

/-- Returning a value follows itself. -/
theorem pure (value : α) : Follows ends (Pure.pure value : Exec α) (Pure.pure value) :=
  of_calm (.pure value)

/-- A failure at a line follows itself. -/
theorem fail (cause : RunCause) (line : Nat) :
    Follows ends (Exec.fail cause line : Exec α) (Exec.fail cause line) :=
  of_calm (.of_beside (.fail cause line))

/-- Actions that look at the machine first. -/
theorem get {promptNext actualNext : Machine → Exec β}
    (rest : ∀ machine, Follows later (promptNext machine) (actualNext machine)) :
    Follows later (MonadState.get >>= promptNext) (MonadState.get >>= actualNext) where
  tracks machine := (rest machine).tracks machine
  winds machine := (rest machine).winds machine

end Follows

/-- An evaluation and what is done with its value. -/
theorem Evaluates.bind (first : Evaluates prompt actual)
    (rest : ∀ value, Follows later (promptNext value) (actualNext value)) :
    Follows later (prompt >>= promptNext) (actual >>= actualNext) :=
  Follows.bind first rest fun _ _ never => never.elim

/-- What is evaluated is made of steps that do not touch how the script ends. -/
theorem evaluates_congruence : Congruence Evaluates where
  beside beside := .of_calm (.of_beside beside)
  bind := Evaluates.bind
  get _ := .get

/-- So is what is declared and assigned. -/
theorem evaluates_writing : WritingCongruence Evaluates where
  toCongruence := evaluates_congruence
  write _ _ _ _ := .of_calm (.modify fun _ => ⟨⟨rfl, rfl, rfl, rfl, rfl, rfl⟩, rfl⟩)

/-- An action that does not touch how the script ends, and what is done with its value. -/
theorem Calm.follows {action : Exec α} (calm : action.Calm)
    (rest : ∀ value, Follows later (promptNext value) (actualNext value)) :
    Follows later (action >>= promptNext) (action >>= actualNext) :=
  Evaluates.bind (.of_calm calm) rest

/-- What is run is made of evaluations and of actions with which control may leave the script; nothing
more is done around those. -/
theorem follows_flow : FlowCongruence Evaluates
    (fun _ leaving prompt actual => Follows (leaving · = true) prompt actual) (· == .exit) where
  toCongruence := evaluates_congruence
  leaves_out isExit := .inl (beq_iff_eq.mp isExit)
  calm follows := follows.mono nofun
  loose evaluates := evaluates.mono fun _ => False.elim
  follow {α β leaving leavingNext prompt actual promptNext actualNext} first rest leaves := by
    classical
    let met : α → Prop := fun value => prompt.Returns value ∨ actual.Returns value
    have cutPrompt := bind_cut (fun value returns => (Or.inl returns : met value)) promptNext
    have cutActual := bind_cut (fun value returns => (Or.inr returns : met value)) actualNext
    rw [cutPrompt, cutActual]
    refine first.bind (fun value => ?_) fun value returned isEnd after _ => ?_
    · by_cases returned : met value
      · rw [if_pos returned, if_pos returned]
        cases away : leaving value with
        | false => exact rest value returned away
        | true =>
          obtain ⟨result, same, also, _⟩ := leaves value returned away
          rw [same, also]
          exact .pure result
      · rw [if_neg returned, if_neg returned]
        exact .of_calm .starved
    · obtain ⟨result, _, also, isEnd⟩ := leaves value (.inr returned) isEnd
      rw [if_pos (.inr returned), also]
      exact ⟨result, after, rfl, isEnd⟩
  look _ rest := .get rest

end Exec

/-- A prompt engine leads another one, which follows it in everything that is asked of it: terms,
expressions and calls are evaluated by both. -/
structure Engine.Leads (prompt actual : Engine) : Prop
    extends prompt.Alike Exec.Evaluates actual where
  /-- Scopes; with nothing pending, control leaves the script. -/
  runScope : Exec.Follows (· = .exit) prompt.runScope actual.runScope
  /-- The code of an `Exit` is evaluated with that statement pending. -/
  overruled : ∀ {window : Window} {pos : Nat} {token : Token}, window.token? pos = some token →
    token.kind = .kwExit → ∀ {machine : Machine} {line : Nat} {pending : List CallFrame}
    {quit : Machine}, prompt.value window (pos + 1) machine = .error (.quit line pending) quit →
    quit.exitRequested = true → isOverruled pending = true

end LineScript
