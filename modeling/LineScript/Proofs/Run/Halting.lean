import LineScript.Proofs.Congruence.Statement
import LineScript.Proofs.Run.Calls

/-!
# Stopping where a fault is raised

A fault takes every call along that it leaves, and leaves the machine without the scopes of those
calls. When it reaches the host, nothing shows any more which calls were running when it was raised.

The engine defined here takes nothing off when a fault is raised. It stops in the machine in which
that happened, and its faults list the calls that it had started and not ended by then. In everything
else it does what the actual engine does; the two are compared by `Exec.Halts`.
-/

namespace LineScript

open Machine

/-- The functions whose calls have a scope on the stack, innermost first. -/
def Stack.callees (stack : Stack) : List String :=
  stack.kinds.filterMap fun
    | .function name => some name
    | _ => none

/-- A stack has as many callees as scopes of calls. -/
theorem Stack.length_callees (stack : Stack) :
    stack.callees.length = stack.scopes.countP Scope.isCall := by
  rw [callees, List.length_filterMap_eq_countP, kinds, List.countP_map]
  congr 1
  funext scope
  unfold Scope.isCall
  cases kind : scope.kind <;> simp [kind]

namespace Machine

/-- These calls are running, innermost first. -/
structure InCalls (machine : Machine) (calls : List CallFrame) : Prop where
  /-- The scopes of calls on the stack are theirs. -/
  callees : machine.stack.callees = calls.map CallFrame.function
  /-- As many are counted. -/
  counted : machine.callDepth = calls.length
  /-- There is room for them. -/
  bounded : calls.length ≤ maxCallDepth

namespace InCalls

variable {machine after : Machine} {calls : List CallFrame}

/-- A machine level with one in calls is in the same calls. -/
theorem level (inCalls : machine.InCalls calls) (level : machine.Level after) :
    after.InCalls calls where
  callees := by
    rw [Stack.callees, level.kinds]
    exact inCalls.callees
  counted := level.callDepth.trans inCalls.counted
  bounded := inCalls.bounded

/-- A block is no call. -/
theorem block (inCalls : machine.InCalls calls) (code : Window) (bindings : List (String × Value)) :
    InCalls { machine with stack := machine.stack.push (Engine.blockScope code bindings) } calls :=
  ⟨inCalls.callees, inCalls.counted, inCalls.bounded⟩

/-- A call is the innermost one that is running. -/
theorem entered (inCalls : machine.InCalls calls) (function : UserFunction) (given line : Nat)
    (room : ¬maxCallDepth ≤ machine.callDepth) :
    (machine.entered function given line).InCalls (⟨function.name, line⟩ :: calls) where
  callees := by
    show function.name :: machine.cleared.stack.callees = _
    have cleared : machine.cleared.stack.kinds = machine.stack.kinds := Stack.kinds_recode _ _
    rw [Stack.callees, cleared, List.map_cons]
    exact congrArg _ inCalls.callees
  counted := congrArg (· + 1) inCalls.counted
  bounded := by
    have := inCalls.counted
    simp only [List.length_cons]
    omega

/-- Before a script runs no call does. -/
theorem of_rested (rested : machine.Rested) : machine.InCalls [] where
  callees := by simp [Stack.callees, Stack.kinds, Stack.scopes, rested.alone, rested.script]
  counted := rested.uncounted
  bounded := Nat.zero_le _

/-- With only the script's scope left no call is running. -/
theorem finished (inCalls : machine.InCalls []) (flow : Flow) : (machine.finished flow).InCalls [] where
  callees := by
    have none := inCalls.callees
    simp only [Stack.callees, Stack.kinds, Stack.scopes, List.map_append, List.filterMap_append,
      List.map_nil, List.append_eq_nil_iff] at none
    exact none.2
  counted := rfl
  bounded := Nat.zero_le _

end InCalls

/-- What can be left of a machine when scopes are taken off and calls are no longer counted. -/
inductive Unwinds (raised : Machine) : Machine → Prop where
  /-- Outer scopes are left, and nothing else has changed. -/
  | off {inner : List Scope} {depth : Nat} (outer : inner <:+ raised.stack.inner) :
    Unwinds raised { raised with stack := { raised.stack with inner }, callDepth := depth }

namespace Unwinds

/-- Every machine unwinds to itself. -/
theorem refl (machine : Machine) : machine.Unwinds machine := .off List.suffix_rfl

/-- One more scope is taken off. -/
theorem pop {raised last : Machine} (unwinds : raised.Unwinds last) (depth : Nat) :
    raised.Unwinds { last with stack := last.stack.pop, callDepth := depth } := by
  cases unwinds with
  | off outer => exact .off ((List.tail_suffix _).trans outer)

end Unwinds

end Machine

/-- A fault that lists no calls yet lists these. -/
def Stop.listing (stop : Stop) (calls : List CallFrame) : Stop :=
  match stop with
  | .fault (.running cause line []) => .fault (.running cause line calls)
  | other => other

/-- A stop that lists calls already keeps them. -/
theorem Stop.listing_of_ne_nil {cause : RunCause} {line : Nat} {listed calls : List CallFrame}
    (some' : listed ≠ []) :
    (Stop.fault (.running cause line listed)).listing calls = .fault (.running cause line listed) := by
  cases listed with
  | nil => exact absurd rfl some'
  | cons frame listed => rfl

/-!
## The engine that stops where a fault is raised
-/

namespace Exec

variable {α : Type}

/-- Nothing is caught of an action: where it stops, all that follows it is left out. -/
def escape (action : Exec α) : Exec (Except Stop α) := Except.ok <$> action

/-- The faults of an action list these calls, unless they list some already. -/
def listing (calls : List CallFrame) (action : Exec α) : Exec α := fun machine =>
  match action machine with
  | .ok value after => .ok value after
  | .error stop after => .error (stop.listing calls) after

/-- A fault leaves one scope more, for the block around it to take off. -/
def padded (action : Exec α) : Exec α := fun machine =>
  match action machine with
  | .ok value after => .ok value after
  | .error stop after =>
    .error stop { after with stack := after.stack.push (Engine.blockScope .empty []) }

/-- A fault leaves one scope less, where no block is around it. -/
def unpadded (action : Exec α) : Exec α := fun machine =>
  match action machine with
  | .ok value after => .ok value after
  | .error stop after => .error stop { after with stack := after.stack.pop }

/-- Padding is taken off again. -/
theorem unpadded_padded (action : Exec α) : unpadded (padded action) = action := by
  funext machine
  unfold unpadded padded
  cases action machine <;> rfl

end Exec

namespace Engine

/-- Binds the parameters of a function and runs its body, up to a fault inside these calls. -/
def haltedBody (callee : Engine) (calls : List CallFrame) (function : UserFunction)
    (args : List Value) (line : Nat) : Exec Flow :=
  Exec.listing calls do
    callee.bindParams function line function.params args
    Exec.unpadded callee.runScope

/-- Calls a function of the script. When a fault is raised inside, the scope of the call stays. -/
def haltedUser (callee : Engine) (calls : List CallFrame) (function : UserFunction)
    (args : List Value) (line : Nat) : Exec Value :=
  callUserBy Exec.escape (callee.haltedBody calls function args line) function args line

/-- Calls the function of a name, with this engine for what runs inside these calls. -/
def haltedFunction (callee : List CallFrame → Engine) (calls : List CallFrame) (name : String)
    (args : List Value) (line : Nat) : Exec Value :=
  callNamed (fun function =>
      let inside := ⟨function.name, line⟩ :: calls
      haltedUser (callee inside) inside function args line)
    (fun function => callBuiltin function args line) name line

end Engine

/-- The engine of a given fuel that stops where a fault is raised, inside these calls. -/
def haltedEngine : (fuel : Nat) → (calls : List CallFrame) → Engine
  | 0, _ => engine 0
  | fuel + 1, calls =>
    { fuel
      term := fun window pos => (haltedEngine fuel calls).evalTerm window pos
      value := fun window pos => (haltedEngine fuel calls).evalValue window pos
      call := fun name args line => Engine.haltedFunction (haltedEngine fuel) calls name args line
      runScope := Exec.padded ((haltedEngine fuel calls).runStatements fuel) }

namespace Machine

/-- The engine that runs a script up to a fault. -/
def haltingEngine (fuel : Nat) : Engine :=
  { haltedEngine fuel [] with runScope := Exec.unpadded (haltedEngine fuel []).runScope }

/-- Calls the function registered for the end of the script, up to a fault. -/
def haltedExitHandler (fuel : Nat) : Exec Unit := runExitHandlerBy Exec.escape (haltingEngine fuel)

/-- Runs the script up to a fault. -/
def haltedRun (fuel : Nat) : Exec Unit := runBy Exec.escape (haltingEngine fuel)

end Machine

/-!
## Comparing the two engines
-/

/-- How an action ends for the engine that stops where a fault is raised, by how it ends for the
actual one. -/
inductive Exec.Halted {α : Type} (calls : List CallFrame) (before : Machine) :
    EStateM.Result Stop Machine α → EStateM.Result Stop Machine α → Prop
  /-- Both do the same, and leave the scopes there are. -/
  | returned {value : α} {after : Machine} (level : before.Level after) :
    Halted calls before (.ok value after) (.ok value after)
  /-- Both are halted, for the same reason. -/
  | halted {halt : Halt} {last other : Machine} :
    Halted calls before (.error (.halted halt) last) (.error (.halted halt) other)
  /-- A fault is raised inside further calls. Those are what it lists, and what is left of the machine
  is what the other engine leaves less some scopes. -/
  | stopped {cause : RunCause} {line : Nat} {further listed : List CallFrame} {last raised : Machine}
    (inCalls : raised.InCalls (further ++ calls)) (unwinds : raised.Unwinds last)
    (lists : listed = further ++ calls ∨ further = [] ∧ listed = []) :
    Halted calls before (.error (.fault (.running cause line further)) last)
      (.error (.fault (.running cause line listed)) raised)

/-- Inside these calls one action does what the other does, which stops where a fault is raised. -/
def Exec.Halts (calls : List CallFrame) : ExecRelation := fun _ actual halting =>
  ∀ machine : Machine, machine.InCalls calls →
    Halted calls machine (actual machine) (halting machine)

namespace Exec

variable {α β : Type} {calls : List CallFrame}

/-- What halts from a level machine halts from the first one. -/
theorem Halted.after {first second : Machine} {actual halting : EStateM.Result Stop Machine α}
    (level : first.Level second) (halted : Halted calls second actual halting) :
    Halted calls first actual halting := by
  cases halted with
  | returned later => exact .returned (level.trans later)
  | halted => exact .halted
  | stopped inCalls unwinds lists => exact .stopped inCalls unwinds lists

/-- A fault that is raised at once. -/
theorem Halted.raise {before machine : Machine} (inCalls : machine.InCalls calls) (cause : RunCause)
    (line : Nat) : Halted calls before (.error (.fault (.running cause line [])) machine :
      EStateM.Result Stop Machine α) (.error (.fault (.running cause line [])) machine) :=
  .stopped inCalls (.refl machine) (.inr ⟨rfl, rfl⟩)

/-- A change to a level machine halts within the calls. -/
theorem Halts.change {change : Machine → Machine}
    (levels : ∀ machine : Machine, machine.Level (change machine)) :
    Halts calls (MonadState.modifyGet fun machine => (PUnit.unit, change machine) : Exec PUnit)
      (MonadState.modifyGet fun machine => (PUnit.unit, change machine)) :=
  fun machine _ => .returned (levels machine)

/-- An action beside the scopes raises its faults inside these calls. -/
theorem Halts.of_beside {action : Exec α} (beside : action.Beside) : Halts calls action action := by
  intro machine inCalls
  have stays := beside.stays machine
  unfold Exec.final at stays
  cases outcome : action machine with
  | ok value after =>
    rw [outcome] at stays
    exact .returned (.of_beside stays)
  | error stop after =>
    rw [outcome] at stays
    cases beside.stops outcome with
    | fault cause line => exact .raise (inCalls.level (.of_beside stays)) cause line
    | starved | crashed => exact .halted

/-- Halting within calls passes from an engine's parts to the whole. -/
theorem halts_congruence (calls : List CallFrame) : LevelCongruence (Halts calls) where
  beside := .of_beside
  bind {_ _ left right next other} first rest machine inCalls := by
    have halted := first machine inCalls
    simp only [Bind.bind, EStateM.bind]
    cases ran : left machine with
    | ok value middle =>
      rw [ran] at halted
      cases stops : right machine with
      | error stop raised =>
        rw [stops] at halted
        cases halted
      | ok given same =>
        rw [stops] at halted
        cases halted with
        | returned level => exact (rest value middle (inCalls.level level)).after level
    | error stop last =>
      rw [ran] at halted
      cases stops : right machine with
      | ok given same =>
        rw [stops] at halted
        cases halted
      | error halt raised =>
        rw [stops] at halted
        cases halted with
        | halted => exact .halted
        | stopped inCalls unwinds lists => exact .stopped inCalls unwinds lists
  get _ rest machine inCalls := rest machine machine inCalls
  level _ changes := .change changes

/-- Looking whether the script is suspended leaves the scopes. -/
theorem Halts.isSuspended : Halts calls Engine.isSuspended Engine.isSuspended := by
  refine (halts_congruence calls).bind (.change fun machine => ?_) fun _ machine _ =>
    .returned (.refl machine)
  split
  · exact .refl machine
  · exact ⟨rfl, rfl⟩

/-- The library raises its faults inside these calls. -/
theorem Halts.of_tame {action : Exec α} (tame : action.Tame True) : Halts calls action action := by
  intro machine inCalls
  have evolves := tame.evolves machine
  have level : machine.Level (action.final machine) :=
    ⟨(Stack.Matches.of_outline evolves.outline_eq).kinds, evolves.callDepth_eq⟩
  unfold Exec.final at level
  cases outcome : action machine with
  | ok value after =>
    rw [outcome] at level
    exact .returned level
  | error stop after =>
    rw [outcome] at level
    cases tame.stops outcome with
    | replacement => exact .raise (inCalls.level level) _ machine.line
    | crashed => exact .halted

/-- A call of a library function halts within the calls. -/
theorem Halts.callBuiltin (function : Builtin) (args : List Value) (line : Nat) :
    Halts calls (callBuiltin function args line) (callBuiltin function args line) := by
  have law := halts_congruence calls
  unfold LineScript.callBuiltin callBuiltinBy
  refine law.after (.checkArity _ _ _ _ _) fun _ => ?_
  split
  · exact law.fail _ _
  · refine law.bind (law.writing.modifyRegisters _) fun _ => law.after (.trace _) fun _ => ?_
    exact .of_tame (function.tame_run _).loose

end Exec

namespace Engine

variable {α : Type} {calls : List CallFrame} {low callee : Engine}

/-- A block takes one scope off in either engine, and in the one that stops it is not one of the
scopes that were there when the fault was raised. -/
theorem halts_runBlock {inner : Exec Flow} (halts : Exec.Halts calls low.runScope inner)
    (padding : callee.runScope = Exec.padded inner) (code : Window)
    (bindings : List (String × Value)) :
    Exec.Halts calls (low.runBlock code bindings) (callee.runBlock code bindings) := by
  intro machine inCalls
  rw [runBlock_eq, runBlock_eq, padding, Exec.padded]
  have halted := halts _ (inCalls.block code bindings)
  generalize low.runScope { machine with stack := machine.stack.push (blockScope code bindings) } =
    actual at halted
  generalize inner { machine with stack := machine.stack.push (blockScope code bindings) } =
    halting at halted
  cases halted with
  | returned level => exact .returned ⟨Stack.kinds_pop level.kinds, level.callDepth⟩
  | halted => exact .halted
  | stopped inCalls unwinds lists => exact .stopped inCalls (unwinds.pop _) lists

/-- With the pending calls given, a refused number of arguments is an arity error. -/
theorem haltedUser_arity {function : UserFunction} {args : List Value}
    (refused : ¬function.Accepts args.length) (line : Nat) (machine : Machine) :
    haltedUser callee calls function args line machine =
      .error (.fault (.running (function.arityCause args.length) line [])) machine := by
  unfold haltedUser callUserBy
  rw [function.checkArity_eq, if_neg refused]
  rfl

/-- With the pending calls given, an accepted call is a depth error on a full stack, and runs the
body otherwise. -/
theorem haltedUser_eq {function : UserFunction} {args : List Value}
    (accepts : function.Accepts args.length) (line : Nat) (machine : Machine) :
    haltedUser callee calls function args line machine =
      if maxCallDepth ≤ machine.callDepth then
        .error (.fault (.running (.callDepth function.name) line [])) machine.cleared
      else
        match callee.haltedBody calls function args line
            (machine.entered function args.length line) with
        | .ok flow last => callResult function line (.ok flow last)
        | .error stop last => .error stop last := by
  have entering := enterCall_eq function.name line machine.cleared
  have cleared : resetRegisters machine = .ok ⟨⟩ machine.cleared := rfl
  unfold haltedUser callUserBy Exec.inScopeBy Exec.escape
  rw [function.checkArity_eq, if_pos accepts, pure_bind]
  by_cases full : maxCallDepth ≤ machine.callDepth
  · rw [if_pos full]
    rw [if_pos (show maxCallDepth ≤ machine.cleared.callDepth from full)] at entering
    simp only [bind, EStateM.bind, cleared, entering]
  · rw [if_neg full]
    rw [if_neg (show ¬maxCallDepth ≤ machine.cleared.callDepth from full)] at entering
    simp only [bind, EStateM.bind, cleared, entering, Exec.trace, run_modify, Functor.map, EStateM.map]
    cases ran : callee.haltedBody calls function args line
        (machine.entered function args.length line) with
    | ok flow last =>
      unfold entered called at ran
      rw [ran]
      rfl
    | error stop last =>
      unfold entered called at ran
      rw [ran]

/-- The parameters and the body of a function. -/
theorem halts_body {function : UserFunction} {args : List Value} {line : Nat}
    (params : Exec.Halts calls (low.bindParams function line function.params args)
      (callee.bindParams function line function.params args))
    (scope : Exec.Halts calls low.runScope (Exec.unpadded callee.runScope)) :
    Exec.Halts calls (low.runBody function args line) (do
      callee.bindParams function line function.params args
      Exec.unpadded callee.runScope) :=
  (Exec.halts_congruence calls).bind params fun _ => scope

/-- A call of a script's function: refused in the calls that surround it, or run inside of them. -/
theorem halts_callUser {function : UserFunction} {args : List Value} {line : Nat}
    (body : Exec.Halts (⟨function.name, line⟩ :: calls) (low.runBody function args line) (do
      callee.bindParams function line function.params args
      Exec.unpadded callee.runScope)) :
    Exec.Halts calls (low.callUser function args line)
      (haltedUser callee (⟨function.name, line⟩ :: calls) function args line) := by
  intro machine inCalls
  have cleared : machine.Level machine.cleared := ⟨Stack.kinds_recode _ _, rfl⟩
  by_cases accepts : function.Accepts args.length
  · rw [haltedUser_eq accepts]
    by_cases full : maxCallDepth ≤ machine.callDepth
    · rw [callUser_full low accepts line full, if_pos full]
      exact .raise (inCalls.level cleared) _ _
    · rw [callUser_room low accepts line full, if_neg full, haltedBody, Exec.listing]
      have halted := body _ (inCalls.entered function args.length line full)
      generalize low.runBody function args line (machine.entered function args.length line) = actual
        at halted
      generalize (do
        callee.bindParams function line function.params args
        Exec.unpadded callee.runScope : Exec Flow) (machine.entered function args.length line) =
          halting at halted
      cases halted with
      | @returned flow last level =>
        refine .returned ⟨?_, ?_⟩
        · show (last.stack.pop.recode _).kinds = _
          rw [Stack.kinds_recode, Stack.kinds_pop level.kinds]
          exact cleared.kinds
        · exact congrArg (· - 1) level.callDepth
      | halted => exact .halted
      | @stopped cause at' further listed last raised inside unwinds lists =>
        -- The call is the one behind the further ones, in the list as on the stack.
        have behind : further ++ ⟨function.name, line⟩ :: calls =
            (further ++ [⟨function.name, line⟩]) ++ calls := by simp
        have lists : (Stop.fault (.running cause at' listed)).listing (⟨function.name, line⟩ :: calls) =
            .fault (.running cause at' (further ++ ⟨function.name, line⟩ :: calls)) := by
          rcases lists with rfl | ⟨rfl, rfl⟩
          · exact Stop.listing_of_ne_nil (by simp)
          · rfl
        dsimp only
        rw [lists]
        rw [behind] at inside ⊢
        exact .stopped inside (unwinds.pop _) (.inl rfl)
  · rw [callUser_arity low accepts, haltedUser_arity accepts]
    exact .raise inCalls _ _

/-- A call by name halts within the calls when each body does. -/
theorem halts_callFunction {callee : List CallFrame → Engine} (name : String) (args : List Value)
    (line : Nat)
    (bodies : ∀ function : UserFunction,
      Exec.Halts (⟨function.name, line⟩ :: calls) (low.runBody function args line) (do
        (callee (⟨function.name, line⟩ :: calls)).bindParams function line function.params args
        Exec.unpadded (callee (⟨function.name, line⟩ :: calls)).runScope)) :
    Exec.Halts calls (low.callFunction name args line)
      (haltedFunction callee calls name args line) := by
  have law := Exec.halts_congruence calls
  refine law.get (fun _ _ => rfl) fun machine => ?_
  split
  · exact law.pure _
  · cases machine.program.function? name with
    | some function => exact halts_callUser (bodies function)
    | none =>
      cases Builtin.ofName? name with
      | some function => exact .callBuiltin _ _ _
      | none => exact law.fail _ _

end Engine

/-- In whatever calls they run, the two engines do the same up to a fault. -/
theorem haltedEngine_halts (fuel : Nat) (calls : List CallFrame) :
    (engine fuel).RunsAlike (Exec.Halts calls) (haltedEngine fuel calls) ∧
      Exec.Halts calls (engine fuel).runScope (Exec.unpadded (haltedEngine fuel calls).runScope) := by
  induction fuel generalizing calls with
  | zero =>
    have law := Exec.halts_congruence calls
    refine ⟨⟨⟨rfl, ?_, ?_, ?_⟩, fun code bindings machine _ => ?_⟩, fun _ _ => .halted⟩
    · exact fun _ _ => law.starved
    · exact fun _ _ => law.starved
    · exact fun _ _ _ => law.starved
    · rw [Engine.runBlock_eq, haltedEngine, Engine.runBlock_eq]
      exact .halted
  | succ fuel ih =>
    have law := Exec.halts_congruence calls
    have scope : Exec.Halts calls (engine (fuel + 1)).runScope
        (Exec.unpadded (haltedEngine (fuel + 1) calls).runScope) := by
      show Exec.Halts calls _ (Exec.unpadded (Exec.padded _))
      rw [Exec.unpadded_padded]
      exact (ih calls).1.runStatements law .isSuspended fuel
    refine ⟨⟨⟨rfl, ?_, ?_, fun name args line => ?_⟩, ?_⟩, scope⟩
    · exact (ih calls).1.evalTerm law.toCongruence
    · exact (ih calls).1.evalValue law.toCongruence
    · refine Engine.halts_callFunction name args line fun function => ?_
      have inner := ih (⟨function.name, line⟩ :: calls)
      exact Engine.halts_body (inner.1.bindParams (Exec.halts_congruence _).writing _ _ _ _) inner.2
    · refine Engine.halts_runBlock ?_ rfl
      exact (ih calls).1.runStatements law .isSuspended fuel

end LineScript
