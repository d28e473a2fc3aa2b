import LineScript.Proofs.Run.Engine

/-!
# Running a whole script

A machine that is poised to run a program prepares it if that was not done yet, runs its statements
from the start and then the function registered for the end. If the start of the program belongs
to a guard, the run stops for permitted reasons only.
-/

namespace LineScript

/-- A trace changes nothing but what the console shows. -/
theorem Host.trace_eq (host : Host) (text : Unit → String) :
    ∃ console, host.trace text = { host with console } := by
  unfold Host.trace
  split
  · exact ⟨_, rfl⟩
  · exact ⟨host.console, rfl⟩

namespace Machine

/-- The program is there, and nothing but the script's scope, which is at its start. -/
structure Ready (machine : Machine) (program : Program) : Prop where
  /-- The program. -/
  program_eq : machine.program = program
  /-- No other scope is there. -/
  alone : machine.stack.inner = []
  /-- What the script's scope runs. -/
  code : machine.stack.root.code = .whole program.tokens
  /-- Where it stands. -/
  pos : machine.stack.root.pos = 0

/-- A ready machine stands in its root scope. -/
theorem Ready.top {machine : Machine} {program : Program} (ready : machine.Ready program) :
    machine.stack.top = machine.stack.root := by
  rw [Stack.top, ready.alone]

/-- The machine is about to run a program from its start: the program is still to be prepared, or
the machine is ready. -/
def Poised (machine : Machine) (program : Program) : Prop :=
  (machine.stack.inner = [] ∧ ∃ tokens, machine.pending = some tokens ∧
    (Program.prepare machine.host machine.scriptPath tokens).result = .ok program) ∨
  (machine.pending = none ∧ machine.Ready program)

/-- Notes for the trace change nothing but what the console shows. -/
theorem traceNotes_eq (notes : List String) (machine : Machine) :
    ∃ console, traceNotes notes machine =
      .ok () { machine with host := { machine.host with console } } := by
  induction notes generalizing machine with
  | nil => exact ⟨machine.host.console, rfl⟩
  | cons note notes ih =>
    obtain ⟨shown, traced⟩ := Host.trace_eq machine.host fun _ => note
    obtain ⟨console, later⟩ := ih { machine with host := machine.host.trace fun _ => note }
    exact ⟨console, later.trans (by rw [traced])⟩

/-- What is done with a script that was prepared, or could not be. -/
def load (prepared : Program.Prepared) : Exec Unit := do
  traceNotes prepared.notes.toList
  let program ← Exec.ofExcept prepared.result
  modify fun machine =>
    let root := { machine.stack.root with code := .whole program.tokens }
    { machine with program, stack := { machine.stack with root := root.rewind } }

/-- A script is prepared once only. -/
theorem prepare_none {machine : Machine} (gone : machine.pending = none) :
    prepare machine = .ok () machine := by
  simp only [prepare, bind, EStateM.bind, run_get, gone]
  rfl

/-- It is taken from the machine, and then loaded. -/
theorem prepare_some {machine : Machine} {tokens : List Token}
    (waits : machine.pending = some tokens) :
    prepare machine = load (Program.prepare machine.host machine.scriptPath tokens)
      { machine with pending := none } := by
  simp only [prepare, bind, EStateM.bind, run_get, waits]
  rfl

/-- Preparing a script: it is tried once, and where it succeeds the script's scope gets its tokens. -/
theorem prepare_eq (machine : Machine) :
    ∃ console, Machine.prepare machine =
      match machine.pending with
      | none => .ok () machine
      | some tokens =>
        match (Program.prepare machine.host machine.scriptPath tokens).result with
        | .error fault =>
          .error (.fault fault)
            { machine with pending := none, host := { machine.host with console } }
        | .ok program =>
          .ok () { machine with
            pending := none
            host := { machine.host with console }
            program
            stack := { machine.stack with
              root := Scope.rewind { machine.stack.root with code := .whole program.tokens } } } := by
  cases waits : machine.pending with
  | none => exact ⟨machine.host.console, prepare_none waits⟩
  | some tokens =>
    obtain ⟨console, noted⟩ := traceNotes_eq
      (Program.prepare machine.host machine.scriptPath tokens).notes.toList
      { machine with pending := none }
    refine ⟨console, (prepare_some waits).trans ?_⟩
    simp only [load, bind, EStateM.bind, noted]
    cases (Program.prepare machine.host machine.scriptPath tokens).result <;> rfl

/-- The machine whose script starts to run. -/
def started (machine : Machine) : Machine :=
  { machine with
    running := true
    exitRequested := false
    host := machine.host.trace fun _ => "run: " ++ machine.scriptPath }

/-- The machine whose script has run, before the function registered for its end is called. -/
def finished (machine : Machine) (flow : Flow) : Machine :=
  { machine.rewound with
    host := machine.host.trace fun _ => "run: finished with " ++ flow.trace }

/-- The run of a script: it is prepared and its statements are run; after them, however they ended,
only the script's scope is left, and the function for the end follows if they did not fail. -/
theorem run_eq (fuel : Nat) (machine : Machine) :
    Machine.run fuel machine =
      if machine.running then .ok () machine
      else match Machine.prepare machine with
        | .error stop failed => .error stop failed
        | .ok _ ready =>
          match runScope fuel ready.started with
          | .error stop after => .error stop after.rewound
          | .ok flow after => runExitHandler fuel (after.finished flow) := by
  unfold Machine.run Machine.runBy
  simp only [bind, EStateM.bind, run_get]
  split
  · rfl
  · cases prepared : Machine.prepare machine with
    | error stop failed => simp only [EStateM.bind, prepared]
    | ok _ ready =>
      simp only [EStateM.bind, prepared, run_modify, Exec.trace, Exec.attempt, run_get]
      cases ran : runScope fuel ready.started with
      | error stop after | ok flow after =>
        unfold started runScope at ran
        simp only [ran]
        rfl

/-- The machine on which the function for the end of the script is called. -/
def ending (machine : Machine) (name : String) : Machine :=
  { machine with
    exitHandler := none
    host := machine.host.trace fun _ => "exit: calling handler " ++ name
    exitRequested := false
    callDepth := 0 }

/-- The end of a script: the function registered for it is called, and a fault of it is the fault
of the run. -/
theorem runExitHandler_eq (fuel : Nat) (machine : Machine) :
    Machine.runExitHandler fuel machine =
      match machine.exitHandler with
      | none => .ok () machine
      | some name =>
        match Machine.call fuel name [] machine.line (machine.ending name) with
        | .ok _ after => .ok () { after with exitRequested := true }
        | .error stop after => .error stop { after with exitRequested := true } := by
  unfold Machine.runExitHandler Machine.runExitHandlerBy
  simp only [bind, EStateM.bind, run_get]
  cases machine.exitHandler with
  | none => rfl
  | some name =>
    simp only [EStateM.bind, run_modify,
      Exec.trace, Exec.attempt]
    cases ran : Machine.call fuel name [] machine.line (machine.ending name) with
    | error stop after | ok value after =>
      unfold ending Machine.call at ran
      simp only [ran]
      rfl

/-- A poised machine is ready once it is prepared. -/
theorem Poised.prepare {machine : Machine} {program : Program} (poised : machine.Poised program) :
    ∃ ready : Machine, Machine.prepare machine = .ok () ready ∧ ready.Ready program := by
  obtain ⟨console, outcome⟩ := prepare_eq machine
  rcases poised with ⟨alone, tokens, pending, result⟩ | ⟨pending, ready⟩
  · simp only [pending, result] at outcome
    exact ⟨_, outcome, rfl, alone, rfl, rfl⟩
  · simp only [pending] at outcome
    exact ⟨machine, outcome, ready⟩

end Machine

namespace Guard

variable {guard : Guard} {machine : Machine} {fuel : Nat} {stop : Stop} {after : Machine}

/-- Calling a function keeps to the guard. -/
theorem permits_call {name : String} {args : List Value} {line : Nat}
    (same : machine.program = guard.program)
    (stopped : Machine.call fuel name args line machine = .error stop after) :
    guard.permits stop := by
  have ends := ((engine_obeys guard fuel).call name args line).ends same
  unfold Guard.Ends at ends
  unfold Machine.call at stopped
  rw [stopped] at ends
  exact ends.2

/-- The function for the end of the script keeps to the guard. -/
theorem permits_exitHandler (same : machine.program = guard.program)
    (stopped : Machine.runExitHandler fuel machine = .error stop after) : guard.permits stop := by
  rw [Machine.runExitHandler_eq] at stopped
  cases registered : machine.exitHandler with
  | none =>
    simp only [registered] at stopped
    cases stopped
  | some name =>
    simp only [registered] at stopped
    cases called : Machine.call fuel name [] machine.line (machine.ending name) with
    | ok value last =>
      rw [called] at stopped
      cases stopped
    | error reason last =>
      rw [called] at stopped
      cases stopped
      have sameEnding : (machine.ending name).program = guard.program := same
      exact permits_call sameEnding called

/-- A script that goes on at a place of the guard, once it is prepared, keeps to the guard. -/
theorem permits_run_from {ready : Machine} (prepared : Machine.prepare machine = .ok () ready)
    (same : ready.program = guard.program) (at' : guard.place ready.stack.top.code ready.stack.top.pos)
    (stopped : Machine.run fuel machine = .error stop after) : guard.permits stop := by
  rw [Machine.run_eq, prepared] at stopped
  split at stopped
  · cases stopped
  · have ends := (engine_obeys guard fuel).runScope ready.started same at'
    unfold Guard.Ends at ends
    unfold Machine.runScope at stopped
    cases ran : (engine fuel).runScope ready.started with
    | error reason last =>
      simp only [ran] at ends stopped
      cases stopped
      exact ends.2
    | ok flow last =>
      simp only [ran] at ends stopped
      have sameLast : (last.finished flow).program = guard.program := ends.1.program_eq.trans same
      exact permits_exitHandler sameLast stopped

/-- A script that starts at a place of the guard keeps to the guard. -/
theorem permits_run (start : guard.place (.whole guard.program.tokens) 0)
    (poised : machine.Poised guard.program)
    (stopped : Machine.run fuel machine = .error stop after) : guard.permits stop := by
  obtain ⟨ready, prepared, isReady⟩ := poised.prepare
  refine permits_run_from prepared isReady.program_eq ?_ stopped
  rw [isReady.top, isReady.code, isReady.pos]
  exact start

end Guard

/-- In whatever state a run begins, the program crashes for a good reason only. -/
theorem Machine.run_crash_isDue {fuel : Nat} {machine after : Machine} {crash : Crash}
    (stopped : Machine.run fuel machine = .error (.crashed crash) after) : crash.IsDue := by
  cases prepared : Machine.prepare machine with
  | ok _ ready => exact (Guard.free ready.program).permits_run_from prepared rfl trivial stopped
  | error stop failed =>
    -- A script that cannot be prepared has a fault.
    obtain ⟨console, outcome⟩ := Machine.prepare_eq machine
    rw [Machine.run_eq, prepared] at stopped
    split at stopped
    · cases stopped
    · rw [prepared] at outcome
      cases stopped
      split at outcome
      · cases outcome
      · split at outcome <;> cases outcome

end LineScript
