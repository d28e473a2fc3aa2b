import LineScript.Proofs.Lines.Engine
import LineScript.Proofs.Run.Scopes

/-!
# Attempts to run a script

A host prepares a machine or runs it, as often as it likes. When the program stands on site, or is
still to be prepared from tokens that do, every attempt stops only with a fault that points at a line,
and the next attempt finds such a machine again (`Sites.Awaits.attempt`).
-/

namespace LineScript

namespace Machine

/-- What a host asks of a machine that holds a script. -/
inductive Attempt where
  /-- To prepare it. -/
  | prepare
  /-- To run it, with fuel. -/
  | run (fuel : Nat)
deriving DecidableEq

/-- What an attempt does. -/
def Attempt.act : Attempt → Exec Unit
  | prepare => Machine.prepare
  | run fuel => Machine.run fuel

/-- The machine after some attempts, however they ended. -/
def afterAll (machine : Machine) (attempts : List Attempt) : Machine :=
  attempts.foldl (fun machine attempt => attempt.act.final machine) machine

end Machine

open Machine

variable {sites : Sites} {machine : Machine}

namespace Sites

/-- What preparing a script gives: a program that stands on site, or a fault that points at a line. -/
def Prepares (sites : Sites) : Except Fault Program → Prop
  | .ok program => program.Kept sites.Holds
  | .error fault => sites.Blames fault

/-- The machine was prepared, or else what preparing it gives stands on site or points at a line. -/
structure Awaits (sites : Sites) (machine : Machine) : Prop where
  /-- What is there stands on site. -/
  stands : sites.Stands True machine
  /-- What preparing gives. -/
  prepares : ∀ tokens, machine.pending = some tokens →
    sites.Prepares (Program.prepare machine.host machine.scriptPath tokens).result

/-- The fault with which an attempt stopped points at a line. -/
def Explains (sites : Sites) : Stop → Prop
  | .fault fault => sites.Blames fault
  | .halted _ => True

/-- A permitted stop is explained. -/
theorem Permits.explains {stop : Stop} (permits : sites.Permits stop) : sites.Explains stop := by
  match stop, permits with
  | .halted _, _ => trivial
  | .fault _, ⟨blames, _⟩ => exact blames

/-- Nothing is left to be prepared. -/
theorem Stands.awaits (stands : sites.Stands True machine) (prepared : machine.pending = none) :
    sites.Awaits machine := by
  refine ⟨stands, fun tokens pending => ?_⟩
  rw [prepared] at pending
  cases pending

/-- Preparation leaves a machine that awaits on site, and stops on site. -/
theorem Awaits.prepare (awaits : sites.Awaits machine) :
    match Machine.prepare machine with
    | .ok _ ready => sites.Awaits ready ∧ ready.pending = none
    | .error stop failed => sites.Awaits failed ∧ sites.Explains stop := by
  obtain ⟨console, prepared⟩ := prepare_eq machine
  have stands := awaits.stands
  have prepares := awaits.prepares
  rw [prepared]
  cases pending : machine.pending with
  | none => exact ⟨awaits, pending⟩
  | some tokens =>
    have outcome := prepares tokens pending
    dsimp only
    cases result : (Program.prepare machine.host machine.scriptPath tokens).result with
    | error fault =>
      rw [result] at outcome
      exact ⟨Stands.awaits ⟨stands.program, stands.code, stands.line⟩ rfl, outcome⟩
    | ok program =>
      rw [result] at outcome
      refine ⟨Stands.awaits ⟨outcome, fun scope member => ?_, stands.line⟩ rfl, rfl⟩
      rcases List.mem_append.mp member with inner | root
      · exact stands.code scope (List.mem_append_left _ inner)
      · rw [List.mem_singleton.mp root]
        exact outcome.blocks _ Program.tokens_mem_blocks

/-- The scope of a script runs on site, also when nothing was executed yet. -/
theorem Stands.runScope {idle : Prop} (stands : sites.Stands idle machine) (fuel : Nat) :
    match Machine.runScope fuel machine with
    | .ok _ after => sites.Stands idle after
    | .error stop after => sites.Stands idle after ∧ sites.Permits stop := by
  cases fuel with
  | zero => exact ⟨stands, trivial⟩
  | succ fuel => exact (engine_onSite sites fuel).runStatements fuel stands

/-- A rewound machine still stands on site. -/
theorem Stands.rewound {idle : Prop} (stands : sites.Stands idle machine) :
    sites.Stands idle machine.rewound := by
  refine ⟨stands.program, fun scope member => ?_, stands.line⟩
  rw [List.mem_singleton.mp member]
  exact stands.code machine.stack.root (List.mem_append_right _ List.mem_cons_self)

/-- A function that is registered for the end was registered by a statement, and is called from the
line of the last one. -/
theorem Stands.exitHandler (stands : sites.Stands True machine) (fuel : Nat) :
    match Machine.runExitHandler fuel machine with
    | .ok _ after => sites.Stands True after
    | .error stop after => sites.Stands True after ∧ sites.Permits stop := by
  rw [runExitHandler_eq]
  cases registered : machine.exitHandler with
  | none => exact stands
  | some name =>
    have isLine : sites.isLine machine.line := stands.line.resolve_right fun none' => by
      rw [none'.2] at registered
      cases registered
    have begun : sites.Stands False (machine.ending name) :=
      ⟨stands.program, stands.code, .inl isLine⟩
    have called := (engine_onSite sites fuel).call name [] isLine _ begun
    dsimp only
    cases outcome : Machine.call fuel name [] machine.line (machine.ending name) with
    | ok value after =>
      rw [show (engine fuel).call name [] machine.line (machine.ending name) = .ok value after
        from outcome] at called
      exact ⟨called.1.program, called.1.code, .inl called.1.isLine⟩
    | error stop after =>
      rw [show (engine fuel).call name [] machine.line (machine.ending name) = .error stop after
        from outcome] at called
      exact ⟨⟨called.1.program, called.1.code, .inl called.1.isLine⟩, called.2⟩

end Sites

namespace Machine

/-- Running a script prepares nothing more. -/
theorem runScope_pending (fuel : Nat) (machine : Machine) :
    ((runScope fuel).final machine).pending = machine.pending := by
  have evolves := ((engine_obeys (.free machine.program) fuel).runScope machine rfl trivial).evolves
  exact evolves.status_eq.2

/-- The exit handler leaves the pending attempt alone. -/
theorem runExitHandler_pending (fuel : Nat) (machine : Machine) :
    ((runExitHandler fuel).final machine).pending = machine.pending := by
  unfold Exec.final
  rw [runExitHandler_eq]
  cases machine.exitHandler with
  | none => rfl
  | some name =>
    have evolves := ((Operation.call name [] machine.line).evolves fuel (machine.ending name)).1
    have same : (Exec.left (Machine.call fuel name [] machine.line (machine.ending name))).pending =
      machine.pending := evolves.status_eq.2
    dsimp only
    cases outcome : Machine.call fuel name [] machine.line (machine.ending name) with
    | ok _ after | error _ after =>
      rw [outcome] at same
      exact same

end Machine

namespace Sites

/-- An attempt stops where preparing does, or with a fault of the running script that points at a
line; and the next attempt may be made. -/
theorem Awaits.run (awaits : sites.Awaits machine) (fuel : Nat) :
    match Machine.run fuel machine with
    | .ok _ after => sites.Awaits after
    | .error stop after =>
      sites.Awaits after ∧ (Machine.prepare machine = .error stop after ∨ sites.Permits stop) := by
  rw [run_eq]
  by_cases running : machine.running = true
  · rw [if_pos running]
    exact awaits
  rw [if_neg running]
  have preparing := awaits.prepare
  cases prepared : Machine.prepare machine with
  | error stop failed =>
    rw [prepared] at preparing
    exact ⟨preparing.1, .inl rfl⟩
  | ok _ ready =>
    rw [prepared] at preparing
    obtain ⟨⟨stands, _⟩, isPrepared⟩ := preparing
    have started : sites.Stands True ready.started := ⟨stands.program, stands.code, stands.line⟩
    have pending := runScope_pending fuel ready.started
    rw [show ready.started.pending = none from isPrepared] at pending
    have running := started.runScope fuel
    unfold Exec.final at pending
    dsimp only
    cases ran : runScope fuel ready.started with
    | error stop after =>
      rw [ran] at running pending
      exact ⟨running.1.rewound.awaits pending, .inr running.2⟩
    | ok flow after =>
      rw [ran] at running pending
      have finished : sites.Stands True (after.finished flow) :=
        ⟨running.rewound.program, running.rewound.code, running.rewound.line⟩
      have ending := finished.exitHandler fuel
      have pendingLast := runExitHandler_pending fuel (after.finished flow)
      rw [show (after.finished flow).pending = none from pending] at pendingLast
      unfold Exec.final at pendingLast
      dsimp only
      cases ended : runExitHandler fuel (after.finished flow) with
      | ok _ last =>
        rw [ended] at ending pendingLast
        exact ending.awaits pendingLast
      | error stop last =>
        rw [ended] at ending pendingLast
        exact ⟨ending.1.awaits pendingLast, .inr ending.2⟩

/-- An attempt leaves a machine that awaits on site, and stops on site. -/
theorem Awaits.attempt (awaits : sites.Awaits machine) (attempt : Attempt) :
    match attempt.act machine with
    | .ok _ after => sites.Awaits after
    | .error stop after =>
      sites.Awaits after ∧ (Machine.prepare machine = .error stop after ∨ sites.Permits stop) := by
  cases attempt with
  | run fuel => exact awaits.run fuel
  | prepare =>
    have preparing := awaits.prepare
    show match Machine.prepare machine with
      | .ok _ after => sites.Awaits after
      | .error stop after =>
        sites.Awaits after ∧ (Machine.prepare machine = .error stop after ∨ sites.Permits stop)
    cases prepared : Machine.prepare machine with
    | ok _ ready =>
      rw [prepared] at preparing
      exact preparing.1
    | error stop failed =>
      rw [prepared] at preparing
      exact ⟨preparing.1, .inl rfl⟩

/-- An attempt stops only with a fault that points at a line. -/
theorem Awaits.explains {stop : Stop} {after : Machine} (awaits : sites.Awaits machine)
    {attempt : Attempt} (stopped : attempt.act machine = .error stop after) :
    sites.Explains stop := by
  have here := awaits.attempt attempt
  rw [stopped] at here
  rcases here.2 with preparing | permits
  · have failed := awaits.prepare
    rw [preparing] at failed
    exact failed.2
  · exact permits.explains

/-- However many attempts were made, the next one may be made. -/
theorem Awaits.afterAll (awaits : sites.Awaits machine) (attempts : List Attempt) :
    sites.Awaits (machine.afterAll attempts) := by
  induction attempts generalizing machine with
  | nil => exact awaits
  | cons attempt attempts ih =>
    have here := awaits.attempt attempt
    have next : sites.Awaits (attempt.act.final machine) := by
      unfold Exec.final
      cases outcome : attempt.act machine with
      | ok _ after =>
        rw [outcome] at here
        exact here
      | error stop after =>
        rw [outcome] at here
        exact here.1
    exact ih next

end Sites

end LineScript
