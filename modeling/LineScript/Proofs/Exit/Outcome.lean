import LineScript.Proofs.Exit.Engine
import LineScript.Proofs.Run.Script
import LineScript.Proofs.Watch.Engine

/-!
# How an `Exit` decides the outcome of a run

The first `Exit` that a script executes with nothing pending around it ends the run: no fault can
follow, and the exit code is the one it gave. In a function that was called from the middle of
something, the caller first completes what it was doing with an empty value. Output, files and the
function registered for the end stay as they were, and so does the exit code unless an `Exit` was
waiting for its own code; but completing may stop with a fault, and then the run fails although it
was to end.
-/

namespace LineScript

section

open Exec

namespace Machine

/-- The first `Exit` that the statements of a script execute: the prompt engine gives up in this
machine, with this pending around the statement. -/
def FirstExit (machine : Machine) (fuel : Nat) (quit : Machine) (pending : List CallFrame) : Prop :=
  quit.exitRequested = true ∧
    ∃ line, (promptEngine fuel).runScope machine = .error (.quit line pending) quit

/-- The statements of a script that starts, run by the two engines. -/
theorem runScope_tracks (fuel : Nat) (ready : Machine) :
    Tracks (· = .exit) ((promptEngine fuel).runScope ready.started)
      (runScope fuel ready.started) :=
  (promptEngine_leads fuel).runScope.tracks ready.started rfl

/-- The script is ending after its statements exactly if an `Exit` was executed. -/
theorem exitRequested_iff_firstExit (fuel : Nat) (ready : Machine) :
    ((runScope fuel).final ready.started).exitRequested = true ↔
      ∃ quit pending, ready.started.FirstExit fuel quit pending :=
  (runScope_tracks fuel ready).ending_iff

/-- What is left of a script after its first `Exit`. -/
theorem FirstExit.lost {fuel : Nat} {ready quit : Machine} {pending : List CallFrame}
    (first : ready.started.FirstExit fuel quit pending) :
    Lost (· = .exit) pending quit (runScope fuel ready.started) := by
  obtain ⟨ending, line, stopped⟩ := first
  exact (runScope_tracks fuel ready).lost stopped ending

/-- The first `Exit` of a run and its outcome. The script is ending after its statements exactly if
an `Exit` was executed. What it has written, its files and the function for its end are then as they
were at the first one, and so is the exit code, unless an `Exit` was waiting for its code. With
nothing pending around the first `Exit` the run goes on to the function for the end, so it returns
unless that function fails; only with something pending may it stop before. -/
theorem exit_decides {fuel : Nat} {machine ready : Machine} (idle : machine.running = false)
    (prepared : prepare machine = .ok () ready) :
    let last := (runScope fuel).final ready.started
    (last.exitRequested = true ↔ ∃ quit pending, ready.started.FirstExit fuel quit pending) ∧
    ∀ quit pending, ready.started.FirstExit fuel quit pending →
      quit.Stays last ∧ (isOverruled pending = false → last.exitCode = quit.exitCode) ∧
      (pending = [] → run fuel machine = runExitHandler fuel (last.finished .exit)) ∧
      ((∃ flow, run fuel machine = runExitHandler fuel (last.finished flow)) ∨
        pending ≠ [] ∧ ∃ stop, run fuel machine = .error stop last.rewound) := by
  refine ⟨exitRequested_iff_firstExit fuel ready, fun quit pending first => ?_⟩
  have lost := first.lost
  have ran := run_eq fuel machine
  rw [if_neg (by simp [idle]), prepared] at ran
  dsimp only at ran
  have ends : pending = [] → run fuel machine =
      runExitHandler fuel (((runScope fuel).final ready.started).finished .exit) := by
    intro none
    obtain ⟨flow, after, returned, rfl⟩ := lost.leaves none
    rw [ran, Exec.final, returned]
    rfl
  refine ⟨lost.stays, lost.exitCode, ends, ?_⟩
  by_cases none : pending = []
  · exact .inl ⟨.exit, ends none⟩
  · rw [ran, Exec.final]
    cases runScope fuel ready.started with
    | ok flow after => exact .inl ⟨flow, rfl⟩
    | error stop after => exact .inr ⟨none, stop, rfl⟩

/-- What becomes of a script in which an `Exit` is executed: what is pending around the first one,
the code that it gives, and the code with which the run returns, if it does. -/
def exitTrial (source : String) : Option (List CallFrame × Int32 × Option Int32) :=
  (tokenize source).toOption.bind fun tokens =>
    match prepare (ofTokens {} "main" tokens) with
    | .error .. => none
    | .ok _ ready =>
      match (promptEngine 20).runScope ready.started with
      | .error (.fault (.running _ _ pending)) quit =>
        if quit.exitRequested then
          some (pending, quit.exitCode,
            match run 20 (ofTokens {} "main" tokens) with
            | .ok _ after => some after.exitCode
            | .error .. => none)
        else none
      | _ => none

/-- A finished trial gives a prepared run with its first exit, its exit code and its result. -/
theorem exitTrial_eq_some {source : String} {pending : List CallFrame} {code : Int32}
    {result : Option Int32} (tried : exitTrial source = some (pending, code, result)) :
    ∃ tokens ready quit, tokenize source = .ok tokens ∧
      prepare (ofTokens {} "main" tokens) = .ok () ready ∧
      ready.started.FirstExit 20 quit pending ∧ quit.exitCode = code ∧
      (match run 20 (ofTokens {} "main" tokens) with
        | .ok _ after => some after.exitCode
        | .error .. => none) = result := by
  unfold exitTrial at tried
  obtain ⟨tokens, read, tried⟩ := Option.bind_eq_some_iff.mp tried
  have readOk : tokenize source = .ok tokens := by
    cases outcome : tokenize source with
    | error fault => simp [outcome, Except.toOption] at read
    | ok found => simpa [outcome, Except.toOption] using read
  cases prepared : prepare (ofTokens {} "main" tokens) with
  | error stop failed => simp [prepared] at tried
  | ok _ ready =>
    simp only [prepared] at tried
    split at tried
    · rename_i cause line calls quit stopped
      split at tried
      · rename_i ending
        simp only [Option.some.injEq, Prod.mk.injEq] at tried
        obtain ⟨rfl, rfl, same⟩ := tried
        refine ⟨tokens, ready, quit, readOk, prepared, ⟨ending, ?_⟩, rfl, same⟩
        -- Only an `Exit` stops the prompt engine while the script is ending.
        rcases runScope_tracks 20 ready with ⟨_, going⟩ | ⟨_, _, _, quits, _⟩
        · rw [stopped] at going
          exact absurd (going.symm.trans ending) nofun
        · rw [stopped] at quits
          cases quits
          exact ⟨line, stopped⟩
      · cases tried
    · cases tried

/-- An `Exit` in blocks of the script, and one in a function that is called from an expression. -/
theorem exit_decides_nested :
    (∃ tokens ready quit,
      tokenize "While True\nIf True Then\nExit 7\nEndIf\nWEnd\n" = .ok tokens ∧
      prepare (ofTokens {} "main" tokens) = .ok () ready ∧
      ready.started.FirstExit 20 quit [] ∧ quit.exitCode = 7 ∧
      ((runScope 20).final ready.started).exitCode = 7 ∧
      run 20 (ofTokens {} "main" tokens) =
        runExitHandler 20 (((runScope 20).final ready.started).finished .exit)) ∧
    ∃ tokens ready quit,
      tokenize "Func Quit()\nExit 3\nEndFunc\n$x = 1 & Quit()\n" = .ok tokens ∧
      prepare (ofTokens {} "main" tokens) = .ok () ready ∧
      ready.started.FirstExit 20 quit [⟨"Quit", 4⟩] ∧ quit.exitCode = 3 ∧
      ((runScope 20).final ready.started).exitCode = 3 := by
  have blocks : exitTrial "While True\nIf True Then\nExit 7\nEndIf\nWEnd\n" =
      some ([], 7, some 7) := by decide +kernel
  have expression : exitTrial "Func Quit()\nExit 3\nEndFunc\n$x = 1 & Quit()\n" =
      some ([⟨"Quit", 4⟩], 3, some 3) := by decide +kernel
  constructor
  · obtain ⟨tokens, ready, quit, read, prepared, first, code, _⟩ := exitTrial_eq_some blocks
    obtain ⟨_, kept, ended, _⟩ := (exit_decides rfl prepared).2 quit [] first
    exact ⟨tokens, ready, quit, read, prepared, first, code, (kept rfl).trans code, ended rfl⟩
  · obtain ⟨tokens, ready, quit, read, prepared, first, code, _⟩ := exitTrial_eq_some expression
    obtain ⟨_, kept, _⟩ := (exit_decides rfl prepared).2 quit _ first
    exact ⟨tokens, ready, quit, read, prepared, first, code, (kept (by decide)).trans code⟩

/-- An `Exit` in a function that is called from the head of a loop is followed by a fault; one in a
function that is called for the code of another `Exit` gives way to that one's code. -/
theorem exit_undone :
    (∃ tokens ready quit pending stop after,
      tokenize "Func Quit()\nExit 3\nEndFunc\nFor $i In Quit()\nNext\n" = .ok tokens ∧
      prepare (ofTokens {} "main" tokens) = .ok () ready ∧
      ready.started.FirstExit 20 quit pending ∧ quit.exitCode = 3 ∧
      run 20 (ofTokens {} "main" tokens) = .error stop after) ∧
    ∃ tokens ready quit pending after,
      tokenize "Func Quit()\nExit 3\nEndFunc\nExit Quit()\n" = .ok tokens ∧
      prepare (ofTokens {} "main" tokens) = .ok () ready ∧
      ready.started.FirstExit 20 quit pending ∧ quit.exitCode = 3 ∧
      run 20 (ofTokens {} "main" tokens) = .ok () after ∧ after.exitCode = 0 := by
  have loop : exitTrial "Func Quit()\nExit 3\nEndFunc\nFor $i In Quit()\nNext\n" =
      some ([⟨"Quit", 4⟩], 3, none) := by decide +kernel
  have exit : exitTrial "Func Quit()\nExit 3\nEndFunc\nExit Quit()\n" =
      some ([⟨"Quit", 4⟩, ⟨exitFrame, 4⟩], 3, some 0) := by decide +kernel
  constructor
  · obtain ⟨tokens, ready, quit, read, prepared, first, code, ran⟩ := exitTrial_eq_some loop
    split at ran
    · cases ran
    · rename_i stop after stopped
      exact ⟨tokens, ready, quit, _, stop, after, read, prepared, first, code, stopped⟩
  · obtain ⟨tokens, ready, quit, read, prepared, first, code, ran⟩ := exitTrial_eq_some exit
    split at ran
    · rename_i after returned
      exact ⟨tokens, ready, quit, _, after, read, prepared, first, code, returned,
        Option.some.inj ran⟩
    · cases ran

end Machine

end

/-!
## Nothing runs once a script is ending

Whether the script is ending is looked at in two places: before each statement and at each call of a
function. What is pending when an `Exit` is executed is still evaluated, over and over where it is a
loop, but every way from there to a statement, to the body of a function or to the library leads
through one of the two. So these begin only while the script goes on, and from the `Exit` on the
output and the files stay as they are.
-/

open Exec Machine

/-- Terms may be evaluated at any time, the rest only begins while the script goes on. -/
def Occurrence.InTime (occurrence : Occurrence) (state : Machine) : Prop :=
  occurrence = .term ∨ state.exitRequested = false

/-- The watcher does nothing at what begins in time. -/
def Watch.Lenient (watch : Watch) : Prop :=
  ∀ occurrence state, occurrence.InTime state → watch occurrence state = .ok () state

/-- What is done after a calm action matters only where the script goes on, if it did before. -/
theorem Exec.Calm.bind_congr {α β : Type} {action : Exec α} (calm : action.Calm)
    {next other : α → Exec β} {machine : Machine} (going : machine.exitRequested = false)
    (same : ∀ (value : α) (after : Machine), after.exitRequested = false →
      next value after = other value after) :
    (action >>= next) machine = (action >>= other) machine := by
  have winds := calm machine
  unfold Exec.final at winds
  cases outcome : action machine with
  | error stop after => rw [bind_error outcome, bind_error outcome]
  | ok value after =>
    rw [outcome] at winds
    rw [bind_ok outcome, bind_ok outcome]
    exact same value after (winds.exitRequested.trans going)

namespace Watch.Lenient

variable {watch : Watch}

/-- A lenient watch stays lenient when nothing follows it. -/
theorem andThen_idle (lenient : watch.Lenient) : (watch.andThen .idle).Lenient := by
  intro occurrence state inTime
  unfold Watch.andThen
  rw [bind_ok (lenient occurrence state inTime)]
  rfl

/-- What follows a look of the watcher while the script goes on. -/
theorem bind_going {α : Type} (lenient : watch.Lenient) (occurrence : Occurrence)
    (next : Exec α) {machine : Machine} (going : machine.exitRequested = false) :
    (do watch occurrence; next) machine = next machine := by
  rw [bind_ok (lenient occurrence machine (.inr going))]

/-- A lenient watch sees nothing of a term. -/
theorem watchedTerm (lenient : watch.Lenient) (low : Engine) (window : Window) (pos : Nat) :
    low.watchedTerm watch window pos = low.evalTerm window pos := by
  funext machine
  unfold Engine.watchedTerm
  rw [bind_ok (lenient .term machine (.inl rfl))]

/-- Statements: the watcher looks right after the script was found to go on. -/
theorem watchedStatements (lenient : watch.Lenient) (low : Engine) (fuel : Nat) :
    low.watchedStatements watch fuel = low.runStatements fuel := by
  induction fuel with
  | zero => rfl
  | succ fuel ih =>
    unfold Engine.watchedStatements Engine.runStatements Engine.runStatementsBy
    rw [show Engine.runStatementsBy (watch .statement) low fuel =
      Engine.runStatementsBy (pure ()) low fuel from ih]
    refine congrArg (Engine.isSuspended >>= ·) (funext fun suspended => ?_)
    split
    · rfl
    · funext machine
      simp only [bind, EStateM.bind, run_get]
      cases ending : machine.exitRequested with
      | true => rfl
      | false =>
        simp only [Bool.false_eq_true, if_false]
        exact lenient.bind_going .statement _ ending

/-- Functions of the library: nothing before the function's own work ends the script. -/
theorem watchedBuiltin (lenient : watch.Lenient) (function : Builtin) (args : List Value)
    (line : Nat) {machine : Machine} (going : machine.exitRequested = false) :
    Engine.watchedBuiltin watch function args line machine =
      callBuiltin function args line machine := by
  refine (Calm.of_beside (.checkArity _ _ _ _ _)).bind_congr going fun _ _ goes => ?_
  cases Args.fill function.params args with
  | error parameter => rfl
  | ok values =>
    refine (Calm.modifyRegisters _).bind_congr goes fun _ _ goes => ?_
    exact (Calm.of_beside (.trace _)).bind_congr goes fun _ _ goes => lenient.bind_going _ _ goes

/-- Functions of the script: putting the scope of a call on does not end the script. -/
theorem watchedUser (lenient : watch.Lenient) (low : Engine) (function : UserFunction)
    (args : List Value) (line : Nat) {machine : Machine} (going : machine.exitRequested = false) :
    low.watchedUser watch function args line machine = low.callUser function args line machine := by
  unfold Engine.watchedUser Engine.callUser
  rw [Engine.callUserBy_attempt, Engine.callUserBy_attempt]
  refine (Calm.of_beside (.checkArity _ _ _ _ _)).bind_congr going fun _ _ goes => ?_
  refine (Calm.modifyRegisters _).bind_congr goes fun _ after goes => ?_
  rw [Exec.inCall_eq, Exec.inCall_eq]
  have goesInside : ∀ scope text, (called after scope text).exitRequested = false :=
    fun _ _ => goes
  unfold Exec.final
  rw [lenient.bind_going _ _ (goesInside _ _)]

/-- Calls: the watcher looks after the script was found to go on. -/
theorem watchedCall (lenient : watch.Lenient) (low : Engine) (name : String) (args : List Value)
    (line : Nat) :
    low.watchedCall watch name args line = low.callFunction name args line := by
  funext machine
  unfold Engine.watchedCall Engine.callNamed
  simp only [bind, EStateM.bind, run_get]
  cases ending : machine.exitRequested with
  | true =>
    rw [if_pos rfl, Engine.callFunction_ending _ _ _ _ ending]
    rfl
  | false =>
    rw [if_neg Bool.false_ne_true, Engine.callFunction_going _ _ _ _ ending]
    cases machine.program.function? name with
    | some function => exact lenient.watchedUser low function args line ending
    | none =>
      cases Builtin.ofName? name with
      | some function => exact lenient.watchedBuiltin function args line ending
      | none => rfl

/-- The watcher makes no difference to any engine. -/
theorem watchedEngine (lenient : watch.Lenient) (fuel : Nat) :
    watchedEngine watch fuel = engine fuel := by
  induction fuel with
  | zero => rfl
  | succ fuel ih =>
    simp only [LineScript.watchedEngine, engine, ih, lenient.watchedTerm,
      lenient.watchedStatements, lenient.watchedCall]

end Watch.Lenient

/-- The first `Exit` that an action executes: its prompt counterpart gives up in this machine. -/
def Exec.Quits {α : Type} (prompt : Exec α) (machine quit : Machine) : Prop :=
  ∃ line pending, prompt machine = .error (.quit line pending) quit ∧ quit.exitRequested = true

/-- An action after which the script is ending executed an `Exit`, and has since left everything
alone. -/
theorem Exec.Follows.quits {α : Type} {ends : α → Prop} {prompt actual : Exec α}
    (follows : Follows ends prompt actual) {machine : Machine}
    (going : machine.exitRequested = false) :
    ((actual.final machine).exitRequested = true ↔ ∃ quit, Quits prompt machine quit) ∧
    ∀ quit, Quits prompt machine quit → quit.Stays (actual.final machine) := by
  have tracks := follows.tracks machine going
  constructor
  · unfold Exec.final
    rw [tracks.ending_iff]
    constructor
    · rintro ⟨quit, pending, ending, line, stopped⟩
      exact ⟨quit, line, pending, stopped, ending⟩
    · rintro ⟨quit, line, pending, stopped, ending⟩
      exact ⟨quit, pending, ending, line, stopped⟩
  · rintro quit ⟨line, pending, stopped, ending⟩
    exact (tracks.lost stopped ending).stays

namespace Machine

/-- Taking the other scopes off leaves everything alone. -/
theorem winds_rewound (machine : Machine) : machine.Winds machine.rewound :=
  ⟨⟨rfl, rfl, rfl, rfl, rfl, rfl⟩, rfl⟩

/-- Finishing a machine winds it to itself. -/
theorem winds_finished (machine : Machine) (flow : Flow) : machine.Winds (machine.finished flow) :=
  have files := machine.host.trace_files fun _ => "run: finished with " ++ flow.trace
  ⟨⟨rfl, rfl, rfl, rfl, rfl, files⟩, rfl⟩

/-- What a run does after its statements, unless a function was registered for the end. -/
theorem winds_run {fuel : Nat} {machine ready : Machine} (idle : machine.running = false)
    (prepared : prepare machine = .ok () ready)
    (ended : ((runScope fuel).final ready.started).exitHandler = none ∨
      ∃ stop after, runScope fuel ready.started = .error stop after) :
    ((runScope fuel).final ready.started).Winds ((run fuel).final machine) := by
  unfold Exec.final at *
  rw [run_eq, if_neg (by simp [idle]), prepared]
  dsimp only
  cases ran : runScope fuel ready.started with
  | error stop after => exact winds_rewound after
  | ok flow after =>
    rw [ran] at ended
    rcases ended with nobody | ⟨_, _, impossible⟩
    · have unregistered : (after.finished flow).exitHandler = none := nobody
      dsimp only
      rw [runExitHandler_eq, unregistered]
      exact winds_finished after flow
    · cases impossible

/-- What a run does after the function for the end, in which an `Exit` was executed. -/
theorem winds_run_ending {fuel : Nat} {machine ready last : Machine} {flow : Flow} {name : String}
    (idle : machine.running = false) (prepared : prepare machine = .ok () ready)
    (ran : runScope fuel ready.started = .ok flow last) (registered : last.exitHandler = some name)
    (exits : ((call fuel name [] last.line).final
      ((last.finished flow).ending name)).exitRequested = true) :
    ((call fuel name [] last.line).final ((last.finished flow).ending name)).Winds
      ((run fuel).final machine) := by
  unfold Exec.final at *
  rw [run_eq, if_neg (by simp [idle]), prepared]
  dsimp only
  rw [ran]
  dsimp only
  rw [runExitHandler_eq, show (last.finished flow).exitHandler = some name from registered,
    show (last.finished flow).line = last.line from rfl]
  dsimp only
  cases called : call fuel name [] last.line ((last.finished flow).ending name) with
  | ok value after | error stop after =>
    rw [called] at exits
    exact ⟨⟨exits.symm, rfl, rfl, rfl, rfl, rfl⟩, rfl⟩

/-- Once a script is ending nothing of it runs. Throughout a run, statements are begun, bodies of
functions entered and functions of the library invoked only while the script goes on. On a script
that is ending, whatever is evaluated, called or run leaves output, files and the way it ends alone.
So after the first `Exit` of the statements, and after the first one in the function for the end,
everything stays as it was. -/
theorem exit_silences (fuel : Nat) (machine : Machine) :
    machine.Throughout .idle fuel Occurrence.InTime ∧
    (∀ state : Machine, state.exitRequested = true →
      (∀ window pos, state.Winds (((engine fuel).term window pos).final state)) ∧
      (∀ window pos, state.Winds (((engine fuel).value window pos).final state)) ∧
      (∀ name args line, state.Winds ((call fuel name args line).final state)) ∧
      (∀ code bindings, state.Winds ((runBlock fuel code bindings).final state)) ∧
      state.Winds ((runScope fuel).final state)) ∧
    ∀ ready, machine.running = false → prepare machine = .ok () ready →
      let last := (runScope fuel).final ready.started
      (last.exitRequested = true ↔ ∃ quit, Quits (promptEngine fuel).runScope ready.started quit) ∧
      (∀ quit, Quits (promptEngine fuel).runScope ready.started quit →
        quit.Stays last ∧
        (last.exitHandler = none ∨ (∃ stop, runScope fuel ready.started = .error stop last) →
          quit.Stays ((run fuel).final machine))) ∧
      ∀ flow name, runScope fuel ready.started = .ok flow last → last.exitHandler = some name →
        let start := (last.finished flow).ending name
        (((call fuel name [] last.line).final start).exitRequested = true ↔
          ∃ quit, Quits ((promptEngine fuel).call name [] last.line) start quit) ∧
        ∀ quit, Quits ((promptEngine fuel).call name [] last.line) start quit →
          quit.Stays ((run fuel).final machine) := by
  have leads := promptEngine_leads fuel
  refine ⟨fun watch lenient => ?_, fun state ending => ?_, fun ready idle prepared => ?_⟩
  · have quiet : watch.Lenient := lenient
    rw [watchedRun, quiet.andThen_idle.watchedEngine, watchedRun_idle, run]
  · exact ⟨fun window pos => (leads.term window pos).winds state ending,
      fun window pos => (leads.value window pos).winds state ending,
      fun name args line => (leads.call name args line).winds state ending,
      fun code bindings => (leads.runBlock code bindings).winds state ending,
      leads.runScope.winds state ending⟩
  · obtain ⟨exits, stays⟩ := leads.runScope.quits (rfl : ready.started.exitRequested = false)
    refine ⟨exits, fun quit quits => ⟨stays quit quits, fun ended => ?_⟩,
      fun flow name ran registered => ?_⟩
    · refine (stays quit quits).trans (winds_run idle prepared ?_).toStays
      exact ended.imp_right fun stopped => stopped.imp fun _ failed => ⟨_, failed⟩
    · obtain ⟨exits, stays⟩ := (leads.call name [] _).quits
        (rfl : ((Machine.finished _ flow).ending name).exitRequested = false)
      refine ⟨exits, fun quit quits => (stays quit quits).trans ?_⟩
      exact (winds_run_ending idle prepared ran registered (exits.mpr ⟨quit, quits⟩)).toStays

/-- A script with an `Exit` in a function that is called from an expression, and another one in the
function for its end. -/
def twoExits : String :=
  "OnAutoItExitRegister(\"Last\")\n$x = Quit() & ConsoleWrite(\"b\")\nConsoleWrite(\"c\")\n" ++
  "Func Quit()\nConsoleWrite(\"a\")\nExit 3\nEndFunc\n" ++
  "Func Last()\nConsoleWrite(\"d\")\nExit 4\nConsoleWrite(\"e\")\nEndFunc\n"

/-- A script that is ready, and how its statements ended if a function was registered for the end
then. -/
def statementsTrial (tokens : List Token) : Option (Machine × Flow × Machine × String) :=
  match prepare (ofTokens {} "main" tokens) with
  | .error .. => none
  | .ok _ ready =>
    match runScope 20 ready.started with
    | .error .. => none
    | .ok flow last => last.exitHandler.map fun name => (ready, flow, last, name)

/-- A finished trial gives a prepared run that ends with an exit handler. -/
theorem statementsTrial_eq_some {tokens : List Token} {ready last : Machine} {flow : Flow}
    {name : String} (tried : statementsTrial tokens = some (ready, flow, last, name)) :
    prepare (ofTokens {} "main" tokens) = .ok () ready ∧
      runScope 20 ready.started = .ok flow last ∧ last.exitHandler = some name := by
  unfold statementsTrial at tried
  cases prepared : prepare (ofTokens {} "main" tokens) with
  | error stop failed => simp [prepared] at tried
  | ok _ first =>
    cases ran : runScope 20 first.started with
    | error stop failed => simp [prepared, ran] at tried
    | ok ended after =>
      simp only [prepared, ran, Option.map_eq_some_iff, Prod.mk.injEq] at tried
      obtain ⟨_, registered, rfl, rfl, rfl, rfl⟩ := tried
      exact ⟨rfl, ran, registered⟩

/-- The run is stopped where something begins while the script is ending. -/
def lateTerms : Watch := .stopAt fun _ state => state.exitRequested

/-- What is seen of a script: which function is called for its end, what is written before and after,
whether the script is ending at these times, whether it returns, and whether it still does when late
terms stop it. -/
def exitsTrial (source : String) : Option (List String × List Bool) :=
  (tokenize source).toOption.bind fun tokens =>
    (statementsTrial tokens).map fun (_, flow, last, name) =>
      let late := (call 20 name [] last.line).final ((last.finished flow).ending name)
      ([name, last.stdout, ((run 20).final (ofTokens {} "main" tokens)).stdout],
        [last.exitRequested, late.exitRequested, returns (run 20 (ofTokens {} "main" tokens)),
          returns (watchedRun (lateTerms.andThen .idle) 20 (ofTokens {} "main" tokens))])

/-- Two times a script is ending, and writes nothing more, although a term is evaluated then. -/
theorem exit_silences_both :
    ∃ tokens ready flow last quit late,
      tokenize twoExits = .ok tokens ∧
      prepare (ofTokens {} "main" tokens) = .ok () ready ∧
      runScope 20 ready.started = .ok flow last ∧ last.exitHandler = some "Last" ∧
      Quits (promptEngine 20).runScope ready.started quit ∧ quit.stdout = "a" ∧
      Quits ((promptEngine 20).call "Last" [] last.line) ((last.finished flow).ending "Last") late ∧
      late.stdout = "ad" ∧ ((run 20).final (ofTokens {} "main" tokens)).stdout = "ad" ∧
      (ofTokens {} "main" tokens).Throughout .idle 20 Occurrence.InTime ∧
      ¬ (ofTokens {} "main" tokens).Throughout .idle 20
        fun _ state => state.exitRequested = false := by
  have seen : exitsTrial twoExits = some (["Last", "a", "ad"], [true, true, true, false]) := by
    decide +kernel
  obtain ⟨tokens, read, seen⟩ := Option.bind_eq_some_iff.mp seen
  obtain ⟨⟨ready, flow, last, name⟩, tried, seen⟩ := Option.map_eq_some_iff.mp seen
  obtain ⟨prepared, ran, registered⟩ := statementsTrial_eq_some tried
  simp only [Prod.mk.injEq, List.cons.injEq, and_true] at seen
  obtain ⟨⟨rfl, written, writtenLate⟩, ending, endingLate, returned, stopped⟩ := seen
  have final : (runScope 20).final ready.started = last := by rw [Exec.final, ran]; rfl
  obtain ⟨throughout, _, silent⟩ := exit_silences 20 (ofTokens {} "main" tokens)
  obtain ⟨exits, stays, handler⟩ := silent ready rfl prepared
  rw [final] at exits stays handler
  obtain ⟨quit, quits⟩ := exits.mp ending
  obtain ⟨exitsLate, staysLate⟩ := handler flow "Last" ran registered
  obtain ⟨late, quitsLate⟩ := exitsLate.mp endingLate
  refine ⟨tokens, ready, flow, last, quit, late, eq_ok_of_toOption read, prepared, ran, registered,
    quits, (stays quit quits).1.stdout.symm.trans written, quitsLate,
    (staysLate late quitsLate).stdout.symm.trans writtenLate, writtenLate, throughout,
    fun always => ?_⟩
  have same := always lateTerms fun _ state going => by simp [lateTerms, Watch.stopAt, going]
  rw [same, watchedRun_idle, returned] at stopped
  cases stopped

end Machine

end LineScript
