import LineScript.Proofs.Origin.Program
import LineScript.Proofs.Run.Halting

/-!
# A fault lists the calls in which it was raised

What holds inside of a run, where nothing is taken off when a fault is raised, is said of the whole
run: its fault lists the calls whose scopes were on the stack at that moment, and no others
(`Machine.fault_lists_calls`).
-/

namespace LineScript

open Machine

namespace Machine

/-- Without a pending exit an exit handler is called by its name and must return. -/
theorem haltedExitHandler_eq (fuel : Nat) (machine : Machine) :
    haltedExitHandler fuel machine =
      match machine.exitHandler with
      | none => .ok () machine
      | some name =>
        match (haltedEngine fuel []).call name [] machine.line (machine.ending name) with
        | .ok _ after => .ok () { after with exitRequested := true }
        | .error stop raised => .error stop raised := by
  unfold haltedExitHandler runExitHandlerBy Exec.escape
  simp only [bind, EStateM.bind, run_get]
  cases machine.exitHandler with
  | none => rfl
  | some name =>
    simp only [EStateM.bind, run_modify, Exec.trace, Functor.map, EStateM.map]
    cases ran : (haltedEngine fuel []).call name [] machine.line (machine.ending name) with
    | ok value after =>
      unfold ending at ran
      simp only [haltingEngine, ran]
      rfl
    | error stop raised =>
      unfold ending at ran
      simp only [haltingEngine, ran]

/-- A run without pending exits prepares, runs the statements and calls the exit handler. -/
theorem haltedRun_eq (fuel : Nat) (machine : Machine) :
    haltedRun fuel machine =
      if machine.running then .ok () machine
      else match prepare machine with
        | .error stop failed => .error stop failed
        | .ok _ ready =>
          match Exec.unpadded (haltedEngine fuel []).runScope ready.started with
          | .error stop raised => .error stop raised
          | .ok flow after => haltedExitHandler fuel (after.finished flow) := by
  unfold haltedRun runBy Exec.escape
  simp only [bind, EStateM.bind, run_get]
  split
  · rfl
  · cases prepared : prepare machine with
    | error stop failed => simp only [EStateM.bind, prepared]
    | ok _ ready =>
      simp only [EStateM.bind, prepared, run_modify, run_get, Exec.trace, Functor.map, EStateM.map]
      cases ran : Exec.unpadded (haltedEngine fuel []).runScope ready.started with
      | ok flow after =>
        unfold started at ran
        simp only [haltingEngine, ran]
        rfl
      | error stop raised =>
        unfold started at ran
        simp only [haltingEngine, ran]

/-- What a run leaves of the machine in which its fault was raised: everything but the scopes that were
put on. -/
structure Leaves (raised after : Machine) : Prop where
  /-- Only the scopes and the state of the run differ. -/
  rest : after = { raised with
    stack := after.stack, callDepth := after.callDepth
    running := after.running, exitRequested := after.exitRequested }
  /-- The script's variables are the same. -/
  vars : after.stack.root.vars = raised.stack.root.vars

/-- How a run ends up to a fault, by how it ends. -/
inductive Ends : EStateM.Result Stop Machine Unit → EStateM.Result Stop Machine Unit → Prop
  /-- Both return. -/
  | returned {after : Machine} : Ends (.ok () after) (.ok () after)
  /-- Both are halted, for the same reason. -/
  | halted {halt : Halt} {last other : Machine} :
    Ends (.error (.halted halt) last) (.error (.halted halt) other)
  /-- The script cannot be prepared. -/
  | unprepared {fault : Fault} {failed : Machine} (none : fault.calls = [])
    (inCalls : failed.InCalls []) : Ends (.error (.fault fault) failed) (.error (.fault fault) failed)
  /-- A fault is raised inside the calls that it lists. -/
  | stopped {cause : RunCause} {line : Nat} {calls : List CallFrame} {after raised : Machine}
    (inCalls : raised.InCalls calls) (leaves : raised.Leaves after) :
    Ends (.error (.fault (.running cause line calls)) after)
      (.error (.fault (.running cause line calls)) raised)

/-- A fault is raised, and the run changes only its state after that. -/
theorem Ends.of_stopped {cause : RunCause} {line : Nat} {calls listed : List CallFrame}
    {raised last after : Machine} (inCalls : raised.InCalls (calls ++ []))
    (unwinds : raised.Unwinds last) (lists : listed = calls ++ [] ∨ calls = [] ∧ listed = [])
    (leaves : last.Leaves after) : Ends (.error (.fault (.running cause line calls)) after)
      (.error (.fault (.running cause line listed)) raised) := by
  rw [List.append_nil] at inCalls lists
  obtain rfl : listed = calls := by
    rcases lists with rfl | ⟨rfl, rfl⟩ <;> rfl
  refine .stopped inCalls ?_
  cases unwinds with
  | off outer => exact ⟨leaves.rest, leaves.vars⟩

/-- The exit handler ends as it does without pending exits. -/
theorem exitHandler_ends {machine : Machine} (inCalls : machine.InCalls []) (fuel : Nat) :
    Ends (runExitHandler fuel machine) (haltedExitHandler fuel machine) := by
  rw [runExitHandler_eq, haltedExitHandler_eq]
  cases machine.exitHandler with
  | none => exact .returned
  | some name =>
    have ending : (machine.ending name).InCalls [] := ⟨inCalls.callees, rfl, inCalls.bounded⟩
    have halted := (haltedEngine_halts fuel []).1.call name [] machine.line _ ending
    unfold Machine.call
    dsimp only
    generalize (engine fuel).call name [] machine.line (machine.ending name) = actual at halted
    generalize (haltedEngine fuel []).call name [] machine.line (machine.ending name) = halting
      at halted
    cases halted with
    | returned => exact .returned
    | halted => exact .halted
    | stopped inside unwinds lists => exact .of_stopped inside unwinds lists ⟨rfl, rfl⟩

/-- The fault of a script that cannot be prepared lists no calls. -/
theorem prepare_calls {machine failed : Machine} {stop : Stop}
    (outcome : prepare machine = .error stop failed) : ∃ fault, stop = .fault fault ∧ fault.calls = [] := by
  obtain ⟨console, prepared⟩ := prepare_eq machine
  rw [prepared] at outcome
  split at outcome
  · cases outcome
  · rename_i tokens _
    split at outcome
    · rename_i fault refused
      cases outcome
      have yields := Program.prepare_yields machine.host machine.scriptPath ⟨tokens, none⟩
      rw [refused] at yields
      rcases yields with blames | ⟨cause, token, _, rfl, _⟩
      · exact ⟨fault, rfl, blames.2⟩
      · exact ⟨_, rfl, rfl⟩
    · cases outcome

/-- A run of a machine between two requests, and the same run up to a fault. -/
theorem run_ends {machine : Machine} (idle : machine.Idle) (fuel : Nat) :
    Ends (run fuel machine) (haltedRun fuel machine) := by
  have rested := idle.rested
  rw [run_eq, haltedRun_eq, rested.stopped]
  cases prepared : prepare machine with
  | error stop failed =>
    obtain ⟨fault, rfl, none⟩ := prepare_calls prepared
    exact .unprepared none (.of_rested (rested.prepare_failed prepared).1)
  | ok _ ready =>
    have resting := InCalls.of_rested (rested.prepare_ok prepared).1
    have inCalls : ready.started.InCalls [] := ⟨resting.callees, resting.counted, resting.bounded⟩
    have halted := (haltedEngine_halts fuel []).2 _ inCalls
    unfold runScope
    dsimp only
    generalize (engine fuel).runScope ready.started = actual at halted
    generalize Exec.unpadded (haltedEngine fuel []).runScope ready.started = halting at halted
    cases halted with
    | returned level => exact exitHandler_ends ((inCalls.level level).finished _) fuel
    | halted => exact .halted
    | stopped inside unwinds lists => exact .of_stopped inside unwinds lists ⟨rfl, rfl⟩

end Machine

/-!
## What a call that stops adds to the list
-/

/-- Why a call with so many arguments is refused when so many calls are running. -/
def UserFunction.refusal? (function : UserFunction) (given depth : Nat) : Option RunCause :=
  if function.Accepts given then
    if maxCallDepth ≤ depth then some (.callDepth function.name) else none
  else some (function.arityCause given)

/-- What a call lists when it stops: itself behind the calls inside of it if its scope was put on, and
nothing if it was refused before that or calls no function of the script. -/
inductive Machine.CallLists (machine : Machine) (name : String) (args : List Value) (line : Nat) :
    RunCause → Nat → List CallFrame → Prop
  /-- The number of arguments is wrong, or too many calls are running. -/
  | refused {function : UserFunction} {cause : RunCause}
    (found : machine.program.function? name = some function)
    (refusal : function.refusal? args.length machine.callDepth = some cause) :
    CallLists machine name args line cause line []
  /-- Its body was run. -/
  | ran {function : UserFunction} {cause : RunCause} {raisedAt : Nat} {inside : List CallFrame}
    (found : machine.program.function? name = some function)
    (accepted : function.refusal? args.length machine.callDepth = none) :
    CallLists machine name args line cause raisedAt (inside ++ [⟨function.name, line⟩])
  /-- A function of the library was given wrong arguments. -/
  | library {function : Builtin} {cause : RunCause}
    (none' : machine.program.function? name = none) (found : Builtin.ofName? name = some function) :
    CallLists machine name args line cause line []
  /-- A function of the library was to replace a text that cannot be looked for. -/
  | unsought {function : Builtin} {reason : String}
    (none' : machine.program.function? name = none) (found : Builtin.ofName? name = some function) :
    CallLists machine name args line (.replacement reason) machine.line []
  /-- There is no function of this name. -/
  | unknown (none' : machine.program.function? name = none)
    (nowhere : Builtin.ofName? name = none) :
    CallLists machine name args line (.functionUnknown name) line []

/-- The fault of a body lists the call behind the calls inside of it. -/
theorem callResult_lists {function : UserFunction} {line raisedAt : Nat} {cause : RunCause}
    {calls : List CallFrame} {after : Machine} {outcome : EStateM.Result Stop Machine Flow}
    (failed : callResult function line outcome =
      .error (.fault (.running cause raisedAt calls)) after) :
    ∃ inside, calls = inside ++ [⟨function.name, line⟩] := by
  rcases outcome with ⟨flow, last⟩ | ⟨_ | _, last⟩
  · cases failed
  · rename_i fault
    cases fault with
    | lexing | preparing => cases failed
    | running =>
      cases failed
      exact ⟨_, rfl⟩
  · cases failed

/-- What a call that stops lists. -/
theorem Machine.callFunction_lists {low : Engine} {name : String} {args : List Value}
    {line raisedAt : Nat} {machine after : Machine} {cause : RunCause} {calls : List CallFrame}
    (failed : low.callFunction name args line machine =
      .error (.fault (.running cause raisedAt calls)) after) :
    machine.CallLists name args line cause raisedAt calls := by
  unfold Engine.callFunction Engine.callNamed at failed
  simp only [bind, EStateM.bind, run_get] at failed
  split at failed
  · cases failed
  · cases found : machine.program.function? name with
    | none =>
      rw [found] at failed
      dsimp only at failed
      cases library : Builtin.ofName? name with
      | none =>
        rw [library] at failed
        cases failed
        exact .unknown found library
      | some function =>
        rw [library] at failed
        rcases callBuiltin_fault failed with ⟨_, same, _⟩ | reason
        · cases same
          exact .library found library
        · cases reason
          exact .unsought found library
    | some function =>
      rw [found] at failed
      dsimp only at failed
      by_cases accepts : function.Accepts args.length
      · by_cases full : maxCallDepth ≤ machine.callDepth
        · rw [low.callUser_full accepts line full] at failed
          cases failed
          exact .refused found (by rw [UserFunction.refusal?, if_pos accepts, if_pos full])
        · rw [low.callUser_room accepts line full] at failed
          have accepted : function.refusal? args.length machine.callDepth = none := by
            rw [UserFunction.refusal?, if_pos accepts, if_neg full]
          obtain ⟨inside, rfl⟩ := callResult_lists failed
          exact .ran found accepted
      · rw [low.callUser_arity accepts] at failed
        cases failed
        exact .refused found (by rw [UserFunction.refusal?, if_neg accepts])

namespace Machine

/-- The calls that a fault lists are the chain of calls in which it was raised. A run that stops at a
fault stops, when nothing is taken off, in a machine of which the run leaves everything but the scopes
that were put on, with the same cause, line and list. There the list names, innermost first, the
function of every call that has a scope on the stack, with the line of the call, so it has as many
entries as there are such scopes, and no more than calls may run. A run that returns does the same
either way. A call that stops before its scope is put on adds nothing to the list. -/
theorem fault_lists_calls {machine : Machine} (idle : machine.Idle) (fuel : Nat) :
    (∀ cause line calls after,
      run fuel machine = .error (.fault (.running cause line calls)) after →
      ∃ raised, haltedRun fuel machine = .error (.fault (.running cause line calls)) raised ∧
        raised.Leaves after ∧ raised.stack.callees = calls.map CallFrame.function ∧
        calls.length = raised.stack.scopes.countP Scope.isCall ∧
        raised.callDepth = calls.length ∧ calls.length ≤ maxCallDepth) ∧
    (∀ after, run fuel machine = .ok () after → haltedRun fuel machine = .ok () after) ∧
    ∀ (inside : Machine) (name : String) (args : List Value) (line : Nat) cause raisedAt calls after,
      Machine.call fuel name args line inside =
        .error (.fault (.running cause raisedAt calls)) after →
      inside.CallLists name args line cause raisedAt calls := by
  have ends := run_ends idle fuel
  refine ⟨fun cause line calls after failed => ?_, fun after ended => ?_, ?_⟩
  · rw [failed] at ends
    generalize haltedRun fuel machine = halted at ends
    have listed : ∀ raised : Machine, raised.InCalls calls →
        raised.stack.callees = calls.map CallFrame.function ∧
          calls.length = raised.stack.scopes.countP Scope.isCall ∧
          raised.callDepth = calls.length ∧ calls.length ≤ maxCallDepth := by
      intro raised inCalls
      refine ⟨inCalls.callees, ?_, inCalls.counted, inCalls.bounded⟩
      rw [← Stack.length_callees, inCalls.callees, List.length_map]
    cases ends with
    | unprepared none inCalls =>
      obtain rfl : calls = [] := none
      exact ⟨after, rfl, ⟨rfl, rfl⟩, listed after inCalls⟩
    | stopped inCalls leaves => exact ⟨_, rfl, leaves, listed _ inCalls⟩
  · rw [ended] at ends
    generalize haltedRun fuel machine = halted at ends
    cases ends
    rfl
  · intro inside name args line cause raisedAt calls after failed
    cases fuel with
    | zero => cases failed
    | succ fuel => exact callFunction_lists failed

/-- A function that calls itself and then one that does not exist, and one that calls it. -/
def fallingSource : String :=
  "Func Down($n)\nIf $n = 0 Then Return Missing()\nReturn Down($n - 1)\nEndFunc\n" ++
  "Func Up()\nReturn Down(1)\nEndFunc\nUp()\n"

/-- What a run of it reports. -/
def fallingFault : Fault :=
  .running (.functionUnknown "Missing") 2 [⟨"Down", 3⟩, ⟨"Down", 6⟩, ⟨"Up", 8⟩]

/-- The call of the unknown function stops a run inside three calls, and is not listed itself. -/
theorem fault_lists_falling : ∃ tokens raised, tokenize fallingSource = .ok tokens ∧
    haltedRun 30 (ofTokens {} "main" tokens) = .error (.fault fallingFault) raised ∧
    raised.stack.callees = ["Down", "Down", "Up"] ∧
    raised.stack.scopes.countP Scope.isCall = 3 ∧ raised.callDepth = 3 := by
  have trial : ((tokenize fallingSource).toOption.bind fun tokens =>
      stopped? (run 30 (ofTokens {} "main" tokens))) = some (.fault fallingFault) := by
    decide +kernel
  obtain ⟨tokens, read, stops⟩ := Option.bind_eq_some_iff.mp trial
  obtain ⟨after, ran⟩ := eq_error_of_stopped? stops
  obtain ⟨raised, halted, _, callees, number, counted, _⟩ :=
    (fault_lists_calls (.fresh {} "main" tokens) 30).1 _ _ _ after ran
  exact ⟨tokens, raised, eq_ok_of_toOption read, halted, callees, number.symm, counted⟩

end Machine

end LineScript
