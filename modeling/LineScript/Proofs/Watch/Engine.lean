import LineScript.Interpreter.Run

/-!
# Watching a run

A run is one value to the outside: it says what the machine is in the end, not what it was on the
way. A watcher is an action that is done at every point of a run where something begins: a term, a
statement, the body of a function, a function of the library. A property holds throughout a run if
a watcher that acts only where it fails never gets to act, so that no matter what the watcher would
do, the run is the same with it and without.
-/

namespace LineScript

/-- What begins at a point of a run. -/
inductive Occurrence where
  /-- A term is evaluated. -/
  | term
  /-- The next statement of a scope is run, if there is one left. -/
  | statement
  /-- The body of a function of the script is entered, with its scope put on. -/
  | body (function : UserFunction)
  /-- A function of the library does its work. -/
  | library (function : Builtin) (args : Args)

/-- What is done at each point of a run. -/
abbrev Watch := Occurrence → Exec Unit

namespace Watch

/-- Nothing is done. -/
def idle : Watch := fun _ => pure ()

/-- One watcher after another. -/
def andThen (first second : Watch) : Watch := fun occurrence => do
  first occurrence
  second occurrence

/-- The run is stopped at the first point at which something holds. -/
def stopAt (holds : Occurrence → Machine → Bool) : Watch := fun occurrence state =>
  if holds occurrence state then .error .starved state else .ok () state

end Watch

namespace Engine

/-- Runs the statements of the innermost scope, watched. -/
def watchedStatements (watch : Watch) (low : Engine) : Nat → Exec Flow :=
  runStatementsBy (watch .statement) low

/-- Calls a function of the script, watched. -/
def watchedUser (watch : Watch) (low : Engine) (function : UserFunction) (args : List Value)
    (line : Nat) : Exec Value :=
  callUserBy Exec.attempt (do watch (.body function); low.runBody function args line) function args line

/-- Calls a function of the library, watched. -/
def watchedBuiltin (watch : Watch) (function : Builtin) (args : List Value) (line : Nat) : Exec Value :=
  callBuiltinBy (fun given => do watch (.library function given); function.run given) function args line

/-- Calls the function of a name, watched. -/
def watchedCall (watch : Watch) (low : Engine) (name : String) (args : List Value) (line : Nat) :
    Exec Value :=
  callNamed (fun function => low.watchedUser watch function args line)
    (fun function => watchedBuiltin watch function args line) name line

/-- Evaluates a term, watched. -/
def watchedTerm (watch : Watch) (low : Engine) (window : Window) (pos : Nat) :
    Exec (Value × Nat) := do
  watch .term
  low.evalTerm window pos

end Engine

/-- The engine of a given fuel, watched. -/
def watchedEngine (watch : Watch) : (fuel : Nat) → Engine
  | 0 => engine 0
  | fuel + 1 =>
    { fuel
      term := fun window pos => (watchedEngine watch fuel).watchedTerm watch window pos
      value := fun window pos => (watchedEngine watch fuel).evalValue window pos
      call := fun name args line => (watchedEngine watch fuel).watchedCall watch name args line
      runScope := fun machine => (watchedEngine watch fuel).watchedStatements watch fuel machine }

/-- What an engine is asked for comes past a point at which something holds: a run that is stopped at
the first such point does not end as the run does. -/
def ComesPast {α : Type} (point : Occurrence → Machine → Bool) (fuel : Nat)
    (ask : Engine → Exec α) (machine : Machine) : Prop :=
  ask (watchedEngine (.stopAt point) fuel) machine ≠ ask (engine fuel) machine

namespace Machine

/-- The run of a script, watched. -/
def watchedRun (watch : Watch) (fuel : Nat) : Exec Unit := runBy Exec.attempt (watchedEngine watch fuel)

/-- A property holds at every point of a run that is watched by `base`: a further watcher that acts
only where the property fails makes no difference, whatever it does. -/
def Throughout (base : Watch) (fuel : Nat) (machine : Machine)
    (holds : Occurrence → Machine → Prop) : Prop :=
  ∀ watch : Watch, (∀ occurrence state, holds occurrence state →
      watch occurrence state = .ok () state) →
    watchedRun (watch.andThen base) fuel machine = watchedRun base fuel machine

/-- A run returns, that is, does not stop. -/
def returns (outcome : EStateM.Result Stop Machine Unit) : Bool :=
  match outcome with
  | .ok .. => true
  | .error .. => false

end Machine

namespace Engine

/-- An idle watch runs the statements as the engine does. -/
theorem watchedStatements_idle (low : Engine) (fuel : Nat) :
    low.watchedStatements .idle fuel = low.runStatements fuel := rfl

end Engine

/-- A watcher that does nothing leaves every engine as it is. -/
theorem watchedEngine_idle (fuel : Nat) : watchedEngine .idle fuel = engine fuel := by
  induction fuel with
  | zero => rfl
  | succ fuel ih =>
    simp only [watchedEngine, engine, ih, Engine.watchedStatements_idle]
    rfl

/-- Watched by nobody, a run is the run. -/
theorem Machine.watchedRun_idle (fuel : Nat) : watchedRun .idle fuel = run fuel := by
  rw [watchedRun, watchedEngine_idle, run]

/-- A run that is stopped nowhere is the run. -/
theorem Machine.watchedRun_never (fuel : Nat) :
    watchedRun (.stopAt fun _ _ => false) fuel = run fuel := watchedRun_idle fuel

end LineScript
