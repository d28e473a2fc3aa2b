import LineScript.Interpreter.Call
import LineScript.Proofs.Congruence.Control
import LineScript.Proofs.Run.Expression

/-!
# Blocks, calls and control keep to a guard

A block or a call runs in a scope of its own, which is taken off again however it ended. The parts
of choices, selections and loops lie where the guard says, so they keep to it, and what follows
them stands at a place of the guard again.
-/

namespace LineScript

open Machine

variable {guard : Guard} {α : Type}

/-- Running in a new scope: the scope is put on, the action runs, the scope is taken off. -/
theorem Exec.inScope_eq (scope : Scope) (action : Exec α) (machine : Machine) :
    Exec.inScope scope action machine =
      match action { machine with stack := machine.stack.push scope } with
      | .ok value after =>
        .ok (.ok value, after.stack.top) { after with stack := after.stack.pop }
      | .error stop after =>
        .ok (.error stop, after.stack.top) { after with stack := after.stack.pop } := by
  unfold Exec.inScope Exec.inScopeBy Exec.attempt
  simp only [bind, EStateM.bind, run_modify, run_get, pure, EStateM.pure]
  cases action { machine with stack := machine.stack.push scope } <;> rfl

/-- The machine inside a call: traced, with the scope of the call put on and counted. -/
def called (machine : Machine) (scope : Scope) (text : Unit → String) : Machine :=
  { machine with
    host := machine.host.trace text
    stack := machine.stack.push scope
    callDepth := machine.callDepth + 1 }

/-- The machine after a call: the scope of the call is gone, and no longer counted. -/
def returned (machine : Machine) : Machine :=
  { machine with stack := machine.stack.pop, callDepth := machine.callDepth - 1 }

/-- A call is counted, or there are too many already. -/
theorem enterCall_eq (name : String) (line : Nat) (machine : Machine) :
    enterCall name line machine =
      if maxCallDepth ≤ machine.callDepth then
        .error (.fault (.running (.callDepth name) line [])) machine
      else .ok () { machine with callDepth := machine.callDepth + 1 } := by
  simp only [enterCall, bind, EStateM.bind, run_get]
  split <;> rfl

/-- How an action ended: with its value, or with the reason to stop. -/
def Exec.ended : EStateM.Result Stop Machine α → Except Stop α
  | .ok value _ => .ok value
  | .error stop _ => .error stop

/-- Running in a new scope that is counted as a call. What follows it is told how it ended, and is run
with the scope taken off. -/
theorem Exec.inCall_eq {β : Type} (scope : Scope) (action : Exec α)
    (next : Except Stop α × Scope → Exec β) (name : String) (line : Nat) (text : Unit → String)
    (machine : Machine) :
    (do
      enterCall name line
      Exec.trace text
      let result ← Exec.inScope scope action
      leaveCall
      next result : Exec β) machine =
      if maxCallDepth ≤ machine.callDepth then
        .error (.fault (.running (.callDepth name) line [])) machine
      else
        let last := action.final (called machine scope text)
        next (Exec.ended (action (called machine scope text)), last.stack.top) (returned last) := by
  have entered := enterCall_eq name line machine
  by_cases full : maxCallDepth ≤ machine.callDepth
  · simp only [bind, EStateM.bind, entered, full, if_true]
  · simp only [bind, EStateM.bind, entered, full, if_false, Exec.trace, run_modify, Exec.inScope_eq,
      Exec.final]
    cases outcome : action (called machine scope text) <;>
      · simp only [called] at outcome
        simp only [outcome]
        rfl

/-- How an action in a scope of its own ended. -/
def Guard.permitsOutcome (guard : Guard) : Except Stop α → Prop
  | .ok _ => True
  | .error stop => guard.permits stop

/-- An action that ends within the guard has a permitted outcome. -/
theorem Guard.Ends.permitsOutcome {action : Exec α} {machine : Machine} {post : α → Machine → Prop}
    (ends : guard.Ends machine action post) :
    guard.permitsOutcome (Exec.ended (action machine)) := by
  unfold Guard.Ends at ends
  cases outcome : action machine with
  | ok value after => trivial
  | error stop after =>
    rw [outcome] at ends
    exact ends.2

namespace Guard.Does

/-- An action in a block scope of its own. -/
theorem inBlock {scope : Scope} {action : Exec α} (isBlock : scope.kind = .block)
    (inside : ∀ machine : Machine, machine.program = guard.program → machine.stack.top = scope →
      guard.Ends machine action fun _ _ => True) :
    guard.Does (Exec.inScope scope action) fun result => guard.permitsOutcome result.1 := by
  intro machine same
  have ends := inside { machine with stack := machine.stack.push scope } same rfl
  unfold Ends Exec.final at *
  rw [Exec.inScope_eq]
  cases outcome : action { machine with stack := machine.stack.push scope } with
  | ok value after =>
    rw [outcome] at ends
    exact ⟨⟨.block scope isBlock ends.1, trivial⟩, Stack.places_pop_of_outline ends.1.outline_eq⟩
  | error stop after =>
    rw [outcome] at ends
    exact ⟨⟨.block scope isBlock ends.1, ends.2⟩, Stack.places_pop_of_outline ends.1.outline_eq⟩

/-- The outcome of an attempt keeps to the guard. -/
theorem ofAttempt {outcome : Except Stop α} (holds : guard.permitsOutcome outcome) :
    guard.Does (Exec.ofAttempt outcome) fun _ => True := by
  cases outcome with
  | ok value => exact .pure trivial
  | error stop => exact throw holds

/-- An action in a scope of its own, counted as one more call. -/
theorem inCall {β : Type} {scope : Scope} {action : Exec α} {next : Except Stop α × Scope → Exec β}
    {name : String} {line : Nat} {text : Unit → String} {post : β → Prop}
    (isCall : scope.kind = .function name)
    (inside : ∀ machine : Machine, machine.program = guard.program → machine.stack.top = scope →
      guard.Ends machine action fun _ _ => True)
    (rest : ∀ result, guard.permitsOutcome result.1 → guard.Does (next result) post) :
    guard.Does (do
      enterCall name line
      Exec.trace text
      let result ← Exec.inScope scope action
      leaveCall
      next result) post := by
  intro machine same
  unfold Ends Exec.final
  rw [Exec.inCall_eq]
  by_cases full : maxCallDepth ≤ machine.callDepth
  · rw [if_pos full]
    exact ⟨⟨.refl machine, guard.allows_of_free _ rfl⟩, rfl⟩
  · rw [if_neg full]
    have ends := inside (called machine scope text) same rfl
    have traced : machine.Evolves { machine with host := machine.host.trace text } :=
      .aside rfl rfl rfl ⟨rfl, rfl⟩
    have back : machine.Evolves (returned (action.final (called machine scope text))) :=
      traced.trans (.call scope name isCall (Nat.lt_of_not_le full) ends.evolves)
    have stays : (action.final (called machine scope text)).stack.pop.places = machine.stack.places :=
      Stack.places_pop_of_outline ends.evolves.outline_eq
    have next := rest (Exec.ended (action (called machine scope text)),
      (action.final (called machine scope text)).stack.top) ends.permitsOutcome _
      (back.program_eq.trans same)
    exact ⟨.after back next.1, next.2.trans stays⟩

/-- Checking a number of arguments keeps to the guard. -/
theorem checkArity (name : String) (greatest required given line : Nat) :
    guard.Does (LineScript.checkArity name greatest required given line) fun _ => True := by
  unfold LineScript.checkArity
  split
  · exact failFree rfl
  · split
    · exact failFree rfl
    · exact .pure trivial

/-- A call of a library function keeps to the guard. -/
theorem callBuiltin (function : Builtin) (args : List Value) (line : Nat) :
    guard.Does (LineScript.callBuiltin function args line) fun _ => True := by
  unfold LineScript.callBuiltin callBuiltinBy
  refine (checkArity _ _ _ _ _).bind fun _ _ => ?_
  split
  · exact failFree rfl
  · refine (of_tame (tame_modifyRegisters _)).bind fun _ _ => ?_
    exact (trace _).bind fun _ _ => .of_tame (function.tame_run _).loose

end Guard.Does

namespace Engine

/-- Running a window as a block: its scope is put on, run and taken off. -/
theorem runBlock_eq (low : Engine) (code : Window) (bindings : List (String × Value))
    (machine : Machine) :
    low.runBlock code bindings machine =
      match low.runScope
        { machine with stack := machine.stack.push (blockScope code bindings) } with
      | .ok flow after => .ok flow { after with stack := after.stack.pop }
      | .error stop after => .error stop { after with stack := after.stack.pop } := by
  unfold Engine.runBlock
  simp only [bind, EStateM.bind, Exec.inScope_eq]
  cases low.runScope
    { machine with stack := machine.stack.push (blockScope code bindings) } <;> rfl

end Engine

namespace Engine.Obeys

variable {low : Engine} (obeys : low.Obeys guard)
include obeys

/-- Running a block keeps to the guard. -/
theorem runBlock {code : Window} (inside : guard.place code code.start)
    (bindings : List (String × Value)) :
    guard.Does (low.runBlock code bindings) fun _ => True := by
  unfold Engine.runBlock
  have inner : guard.Does (Exec.inScope (blockScope code bindings) low.runScope)
      fun result => guard.permitsOutcome result.1 := by
    refine .inBlock rfl fun machine same top => obeys.runScope machine same ?_
    rw [top]
    exact inside
  exact inner.bind fun result held => .ofAttempt held

/-- A call of a function of the script keeps to the guard. -/
theorem callUser {name : String} {function : UserFunction}
    (known : guard.program.function? name = some function) (args : List Value) (line : Nat) :
    guard.Does (low.callUser function args line) fun _ => True := by
  rw [Engine.callUser, Engine.callUserBy_attempt, Engine.runBody]
  refine (Guard.Does.checkArity _ _ _ _ _).bind fun _ _ => ?_
  refine (Guard.Does.of_tame (tame_modifyRegisters _)).bind fun _ _ => ?_
  refine .inCall rfl (fun machine same top => ?_) fun ⟨outcome, left⟩ held => ?_
  · -- Binding the parameters leaves the new scope at the start of its body.
    have bound := obeys.bindParams function line function.params args
      (guard.block_default known)
    refine .bind (bound.ends same) fun _ middle evolves ⟨stays, _⟩ => ?_
    refine obeys.runScope middle (evolves.program_eq.trans same) ?_
    have place := Stack.top_place_of_places stays
    rw [top] at place
    have code : middle.stack.top.code = .whole function.body := congrArg (·.2.1) place
    have pos : middle.stack.top.pos = 0 := congrArg (·.2.2) place
    rw [code, pos]
    exact guard.place_function known
  · cases outcome with
    | error stop =>
      refine .throw ?_
      cases stop with
      | halted halt => exact held
      | fault fault => cases fault <;> exact held
    | ok flow => exact (Guard.Does.of_tame (tame_modifyRegisters _)).bind fun _ _ => .pure trivial

/-- A call by name keeps to the guard. -/
theorem callFunction (name : String) (args : List Value) (line : Nat) :
    guard.Does (low.callFunction name args line) fun _ => True := by
  unfold Engine.callFunction Engine.callNamed
  refine .get fun machine same => ?_
  rw [same]
  split
  · exact .pure trivial
  · split
    · rename_i function known
      exact obeys.callUser known args line
    · split
      · exact Guard.Does.callBuiltin _ _ _
      · exact .failFree rfl

/-- An engine of a guard goes along with it in what it runs. -/
theorem runs : guard.logic.Runs low low where
  toRelates := obeys.relates
  block inside _ := (obeys.runBlock inside _).mono fun _ _ _ _ => trivial

/-- Evaluating the step of a counting loop keeps to the guard. -/
theorem stepOf {step : Option TokenBlock} (inside : ∀ tokens ∈ step, guard.block tokens) :
    guard.Does (low.stepOf step) fun _ => True :=
  .of_gives (obeys.relates.stepOf inside)

/-- Evaluating the items of cases keeps to the guard. -/
theorem caseItems {clauses : List Clause}
    (headers : ∀ clause ∈ clauses, guard.block clause.header.tokens) :
    guard.Does (low.caseItems clauses) fun _ => True :=
  .of_gives (obeys.relates.caseItems headers)

/-- A statement that begins with a plain token is made of plain tokens. -/
theorem statement_plain {window : Window} {pos : Nat} {token : Token}
    (block : guard.block window.tokens) (found : window.token? pos = some token)
    (plain : token.kind.isPlain) :
    guard.Does (low.statement window pos) fun result => window.Passes pos result.2 :=
  (Guard.Does.of_gives (obeys.runs.statement_plain guard.writes block found plain
    fun _ _ _ => trivial)).mono fun _ ran => ran.1

/-- A statement keeps to the guard. -/
theorem statement {window : Window} {pos : Nat} (inside : guard.place window pos) :
    guard.Does (low.statement window pos) fun result => guard.place window result.2 :=
  (Guard.Does.of_gives (obeys.runs.statement guard.writes inside fun _ _ _ => trivial)).mono
    fun _ ran => ran.1

end Engine.Obeys

end LineScript
