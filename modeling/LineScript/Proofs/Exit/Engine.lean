import LineScript.Proofs.Congruence.Statement
import LineScript.Proofs.Exit.Prompt

/-!
# Every engine follows its prompt counterpart

A call and a statement follow their prompt counterparts when the engine they work with does, and so
does every engine, by induction on its fuel. Only the statement `Exit` itself changes how the script
ends. Executed with nothing pending it is the point where the prompt engine gives up; where its own
code makes the script end, the code that it sets then is that of a pending statement.
-/

namespace LineScript

open Exec Machine

namespace Exec

variable {α β : Type} {ends : α → Prop} {later : β → Prop} {prompt actual : Exec α}

/-- Losing does not depend on anything but how the script ends and what was written. -/
theorem Lost.transport {pending : List CallFrame} {quit other : Machine}
    {outcome shown : EStateM.Result Stop Machine α} (lost : Lost ends pending quit outcome)
    (quits : quit.Winds other) (leaves : (left outcome).Winds (left shown))
    (returns : ∀ value after, outcome = .ok value after → ∃ last, shown = .ok value last) :
    Lost ends pending other shown where
  exiting := quits.exitRequested.trans lost.exiting
  stays := quits.symm.toStays.trans (lost.stays.trans leaves.toStays)
  exitCode free := leaves.exitCode.trans ((lost.exitCode free).trans quits.exitCode.symm)
  leaves none := by
    obtain ⟨value, after, returned, isEnd⟩ := lost.leaves none
    obtain ⟨last, shows⟩ := returns value after returned
    exact ⟨value, last, shows, isEnd⟩

/-- What was lost is listed with one more construct that is pending. -/
theorem Lost.listed {pending : List CallFrame} {quit other : Machine}
    {outcome : EStateM.Result Stop Machine α} {shown : EStateM.Result Stop Machine β}
    (lost : Lost ends pending quit outcome) (frame : CallFrame) (quits : quit.Winds other)
    (leaves : (left outcome).Winds (left shown)) :
    Lost later (pending ++ [frame]) other shown where
  exiting := quits.exitRequested.trans lost.exiting
  stays := quits.symm.toStays.trans (lost.stays.trans leaves.toStays)
  exitCode free := by
    have inner : isOverruled pending = false := by
      simp only [isOverruled, List.any_append, Bool.or_eq_false_iff] at free
      exact free.1
    exact leaves.exitCode.trans ((lost.exitCode inner).trans quits.exitCode.symm)
  leaves none := by simp at none

/-- A call: what was lost inside of it is pending around it, with the call added. -/
theorem Follows.inCall {scope : Scope} {next : Except Stop α × Scope → Exec β} {name : String}
    {line : Nat} {text : Unit → String} (inside : Follows ends prompt actual)
    (calm : ∀ result, (next result).Calm)
    (throws : ∀ stop left machine,
      next (.error stop, left) machine = .error (stop.leaving name line) machine) :
    Follows later
      (do
        enterCall name line
        Exec.trace text
        let result ← Exec.inScope scope prompt
        leaveCall
        next result)
      (do
        enterCall name line
        Exec.trace text
        let result ← Exec.inScope scope actual
        leaveCall
        next result) := by
  have entered : ∀ machine : Machine, machine.Winds (called machine scope text) := fun machine =>
    ⟨⟨rfl, rfl, rfl, rfl, rfl, machine.host.trace_files text⟩, rfl⟩
  have left' : ∀ machine : Machine, machine.Winds (returned machine) := fun machine =>
    ⟨⟨rfl, rfl, rfl, rfl, rfl, rfl⟩, rfl⟩
  constructor
  · intro machine going
    rw [Exec.inCall_eq, Exec.inCall_eq]
    split
    · exact .inl ⟨rfl, going⟩
    · rcases inside.tracks (called machine scope text) going with
        ⟨same, goes⟩ | ⟨at', pending, quit, stopped, lost⟩
      · unfold Exec.final
        rw [same]
        exact (Follows.of_calm (calm _)).tracks (returned _) goes
      · unfold Exec.final
        rw [stopped]
        dsimp only [Exec.ended]
        rw [throws]
        exact .inr ⟨at', pending ++ [⟨name, line⟩], returned quit, rfl,
          lost.listed ⟨name, line⟩ (left' quit) ((left' _).trans (calm _ _))⟩
  · intro machine ending
    have winds := inside.winds (called machine scope text) ending
    unfold Exec.final
    rw [Exec.inCall_eq]
    split
    · exact .refl machine
    · exact ((entered machine).trans winds).trans ((left' _).trans (calm _ _))

/-- The code of an `Exit`: what was lost while it was evaluated is pending in that statement. -/
theorem Evaluates.pendingExit (evaluates : Evaluates prompt actual) (line : Nat) :
    Evaluates (Exec.pendingExit line prompt) actual where
  tracks machine going := by
    unfold Exec.pendingExit
    rcases evaluates.tracks machine going with ⟨same, goes⟩ | ⟨at', pending, quit, stopped, lost⟩
    · refine .inl ?_
      cases outcome : prompt machine with
      | ok value after =>
        rw [outcome] at same goes
        exact ⟨same, goes⟩
      | error stop after =>
        rw [outcome] at same goes
        have continues : after.exitRequested = false := goes
        simp only [continues, Bool.false_eq_true, if_false]
        exact ⟨same, continues⟩
    · rw [stopped]
      simp only [lost.exiting, if_true]
      exact .inr ⟨at', pending ++ [⟨exitFrame, line⟩], quit, rfl,
        lost.listed _ (.refl quit) (.refl _)⟩
  winds := evaluates.winds

/-- What is lost while the code of an `Exit` is evaluated is listed with that statement. -/
theorem isOverruled_of_pendingExit {line at' : Nat} {machine quit : Machine}
    {pending : List CallFrame}
    (stopped : Exec.pendingExit line prompt machine = .error (.quit at' pending) quit)
    (exiting : quit.exitRequested = true) : isOverruled pending = true := by
  unfold Exec.pendingExit at stopped
  cases outcome : prompt machine with
  | ok value after =>
    rw [outcome] at stopped
    cases stopped
  | error stop after =>
    rw [outcome] at stopped
    obtain ⟨leaving, rfl⟩ := EStateM.Result.error.inj stopped
    rw [if_pos exiting] at leaving
    rcases stop with (_ | _ | ⟨cause, line, frames⟩) | _
    · cases leaving
    · cases leaving
    · obtain ⟨_, _, listed⟩ : cause = _ ∧ line = at' ∧ frames ++ [⟨exitFrame, _⟩] = pending := by
        simpa [Stop.leaving, Fault.leaving, Stop.quit] using leaving
      simp [← listed, isOverruled]
    · cases leaving

end Exec

/-- Scopes have nothing to do with how a script ends. -/
theorem Machine.winds_stack (machine : Machine) (stack : Stack) :
    machine.Winds { machine with stack } := ⟨⟨rfl, rfl, rfl, rfl, rfl, rfl⟩, rfl⟩

/-- No function of the library asks for the end of the script. -/
theorem callBuiltin_exitRequested (function : Builtin) (args : List Value) (line : Nat)
    (machine : Machine) :
    ((callBuiltin function args line).final machine).exitRequested = machine.exitRequested := by
  have checked : ∀ greatest required given, checkArity function.name greatest required given line
      machine = .ok () machine ∨ ∃ stop, checkArity function.name greatest required given line
        machine = .error stop machine := by
    intro greatest required given
    unfold checkArity
    split
    · exact .inr ⟨_, rfl⟩
    · split
      · exact .inr ⟨_, rfl⟩
      · exact .inl rfl
  unfold Exec.final callBuiltin callBuiltinBy
  rcases checked function.params.length function.required args.length with passed | ⟨stop, failed⟩
  · rw [bind_ok passed]
    cases Args.fill function.params args with
    | error parameter => rfl
    | ok values =>
      exact ((tame_served function args.length values).spares machine).exitRequested
  · rw [bind_error failed]
    rfl

namespace Engine

/-- A call while the script goes on. -/
theorem callFunction_going (low : Engine) (name : String) (args : List Value) (line : Nat)
    {machine : Machine} (going : machine.exitRequested = false) :
    low.callFunction name args line machine =
      match machine.program.function? name with
      | some function => low.callUser function args line machine
      | none =>
        match Builtin.ofName? name with
        | some function => callBuiltin function args line machine
        | none => Exec.fail (.functionUnknown name) line machine := by
  unfold Engine.callFunction Engine.callNamed
  simp only [bind, EStateM.bind, run_get, going,
    Bool.false_eq_true, if_false]
  cases machine.program.function? name with
  | some function => rfl
  | none => cases Builtin.ofName? name <;> rfl

/-- A call while the script is ending. -/
theorem callFunction_ending (low : Engine) (name : String) (args : List Value) (line : Nat)
    {machine : Machine} (ending : machine.exitRequested = true) :
    low.callFunction name args line machine = .ok .null machine := by
  unfold Engine.callFunction Engine.callNamed
  simp only [bind, EStateM.bind, run_get, ending, if_true]
  rfl

/-- The value at the innermost scope's position. -/
theorem scopeValue_eq (low : Engine) (machine : Machine) :
    low.scopeValue machine =
      match low.value machine.stack.top.code machine.stack.top.pos machine with
      | .ok (value, pos) after =>
        .ok value { after with stack := after.stack.modifyTop fun scope => { scope with pos } }
      | .error stop after => .error stop after := by
  unfold Engine.scopeValue
  simp only [topScope, bind, EStateM.bind, run_get, pure,
    EStateM.pure]
  cases low.value machine.stack.top.code machine.stack.top.pos machine <;> rfl

/-- The machine on which an `Exit` was executed. -/
def exited (machine : Machine) : Machine :=
  { machine with
    host := machine.host.trace fun _ => "exit: code " ++ toString machine.exitCode.toInt
    exitRequested := true }

/-- Executed on a script that is ending, an `Exit` changes nothing but the exit code. -/
theorem exited_stays (machine : Machine) (exitCode : Int32)
    (ending : machine.exitRequested = true) :
    machine.Stays (exited { machine with exitCode }) := by
  unfold exited
  refine ⟨ending.symm, rfl, rfl, rfl, rfl, ?_⟩
  dsimp only
  rw [Host.trace_files]

/-- An `Exit`: its code is evaluated if there is one, and then the script is ending. -/
theorem exiting_eq (low : Engine) (machine : Machine) :
    low.exiting machine =
      if machine.stack.top.code.endsLine machine.stack.top.pos then
        .ok (.leave .exit) (exited machine)
      else match low.scopeValue machine with
        | .ok value after =>
          .ok (.leave .exit) (exited { after with exitCode := value.asInt.toInt32 })
        | .error stop after => .error stop after := by
  unfold Engine.exiting
  simp only [atLineEnd, topScope, bind, EStateM.bind, run_get,
    pure, EStateM.pure]
  cases machine.stack.top.code.endsLine machine.stack.top.pos with
  | true => rfl
  | false =>
    cases ran : low.scopeValue machine with
    | ok value after | error stop after =>
      simp only [Bool.not_false, if_true, EStateM.bind, ran]
      rfl

/-- Executing an Exit is exiting. -/
theorem runToken_exit (low : Engine) {token : Token} (isExit : token.kind = .kwExit) :
    low.runToken token = low.exiting := by
  obtain ⟨kind, lexeme, line, column⟩ := token
  subst isExit
  rfl

/-- The machine on which the statement of a token is run: the innermost scope stands behind it. -/
def reading (machine : Machine) (token : Token) : Machine :=
  { machine with
    stack := machine.stack.modifyTop fun scope => { scope with pos := machine.stack.top.pos + 1 }
    line := if 0 < token.line then token.line else machine.line }

/-- A step reads the token at the innermost scope's position and runs its statement. -/
theorem step_eq (low : Engine) (machine : Machine) :
    low.step machine =
      match machine.stack.top.current? with
      | none => .ok .ended machine
      | some token => low.runToken token (reading machine token) := by
  unfold Engine.step
  simp only [topScope, bind, EStateM.bind, run_get, pure,
    EStateM.pure]
  cases machine.stack.top.current? with
  | none => rfl
  | some token =>
    simp only [moveTo, run_modify, EStateM.bind]
    unfold reading
    split <;> rfl

/-- What is done when control leaves a scope: a jump needs something around the scope. -/
def leaveScope (flow : Flow) : Exec Flow := do
  if (← topScope).isFrame && needsSurroundings flow then
    Exec.fail (.flowOutside flow.trace) (← Exec.currentLine)
  else return flow

/-- Leaving a scope is calm. -/
theorem leaveScope_calm (flow : Flow) : (leaveScope flow).Calm := by
  refine .bind (.of_beside .topScope) fun scope => ?_
  split
  · exact .bind (.get fun _ => .pure _) fun _ => .of_beside (.fail _ _)
  · exact .pure _

/-- An exit passes every scope. -/
theorem leaveScope_exit (machine : Machine) : leaveScope .exit machine = .ok .exit machine := by
  have leaves (scope : Scope) : (scope.isFrame && needsSurroundings .exit) = false :=
    Bool.and_false _
  unfold leaveScope
  simp only [leaves]
  rfl

/-- The next statement of a scope and what follows it. -/
def advance (low : Engine) (fuel : Nat) : Exec Flow := do
  match ← low.step with
  | .goOn => low.runStatements fuel
  | .ended => return .normal
  | .leave flow => leaveScope flow

/-- Looking at whether the machine is suspended. -/
theorem isSuspended_eq (machine : Machine) :
    ∃ suspended after, isSuspended machine = .ok suspended after ∧ machine.Winds after :=
  ⟨_, _, rfl, Calm.isSuspended machine⟩

/-- Statements of a script that is not ending go on with the next step. -/
theorem runStatements_going (low : Engine) (fuel : Nat) {machine after : Machine}
    {suspended : Bool} (looked : isSuspended machine = .ok suspended after)
    (going : after.exitRequested = false) :
    low.runStatements (fuel + 1) machine =
      if suspended then low.runStatements fuel after else low.advance fuel after := by
  rw [runStatements_succ, bind_ok looked]
  cases suspended with
  | true => rfl
  | false =>
    simp only [Bool.false_eq_true, if_false, bind, EStateM.bind, run_get, going]
    rfl

/-- While the script is ending no statement is run. -/
theorem runStatements_ending (low : Engine) (fuel : Nat) {machine : Machine}
    (ending : machine.exitRequested = true) :
    machine.Winds ((low.runStatements fuel).final machine) := by
  induction fuel generalizing machine with
  | zero => exact .refl machine
  | succ fuel ih =>
    obtain ⟨suspended, after, looked, winds⟩ := isSuspended_eq machine
    have endingAfter := winds.exitRequested.trans ending
    unfold Exec.final
    rw [runStatements_succ, bind_ok looked]
    cases suspended with
    | true => exact winds.trans (ih endingAfter)
    | false =>
      simp only [Bool.false_eq_true, if_false, bind, EStateM.bind, run_get, endingAfter, if_true]
      exact winds

end Engine

namespace Exec

/-- Giving up after a chain is giving up after its end. -/
theorem givingUp_bind {α : Type} (action : Exec α) (next : α → Exec Flow) :
    givingUp (action >>= next) = action >>= fun value => givingUp (next value) := by
  funext machine
  unfold givingUp
  simp only [Bind.bind, EStateM.bind]
  cases action machine <;> rfl

/-- A script that goes on is not given up. -/
theorem Tracks.givingUp {ends : Flow → Prop} {action : Exec Flow} (calm : action.Calm)
    {machine : Machine} (going : machine.exitRequested = false) :
    Tracks ends (Exec.givingUp action machine) (action machine) := by
  have goes : (left (action machine)).exitRequested = false :=
    (calm machine).exitRequested.trans going
  unfold Exec.givingUp
  refine .inl ?_
  cases outcome : action machine with
  | error stop after =>
    rw [outcome] at goes
    exact ⟨rfl, goes⟩
  | ok flow after =>
    rw [outcome] at goes
    have continues : after.exitRequested = false := goes
    dsimp only
    rw [if_neg (by simp [continues])]
    exact ⟨rfl, continues⟩

/-- A step follows another, or both execute an `Exit` with nothing pending. -/
def StepTracks (prompt actual : EStateM.Result Stop Machine StepResult) : Prop :=
  Tracks (· = .leave .exit) prompt actual ∨
  ∃ after : Machine, prompt = .ok (.leave .exit) after ∧ actual = .ok (.leave .exit) after ∧
    after.exitRequested = true

end Exec

namespace Engine.Leads

variable {prompt actual : Engine} (leads : prompt.Leads actual)
include leads

/-- A call of a function of the script follows the prompt engine. -/
theorem callUser (function : UserFunction) (args : List Value) (line : Nat) :
    Evaluates (prompt.callUser function args line) (actual.callUser function args line) := by
  refine (Calm.of_beside (.checkArity _ _ _ _ _)).follows fun _ => ?_
  refine (Calm.modifyRegisters _).follows fun _ => ?_
  have body : Follows (· = .exit)
      (do prompt.bindParams function line function.params args; prompt.runScope)
      (do actual.bindParams function line function.params args; actual.runScope) :=
    Evaluates.bind (leads.bindParams evaluates_writing function line _ args) fun _ => leads.runScope
  refine body.inCall (fun ⟨outcome, left⟩ => ?_) fun stop left machine => rfl
  cases outcome with
  | error stop => exact .throw _
  | ok flow => exact .bind (.modifyRegisters _) fun _ => .pure _

/-- A call by name follows the prompt engine. -/
theorem callFunction (name : String) (args : List Value) (line : Nat) :
    Evaluates (prompt.callFunction name args line) (actual.callFunction name args line) where
  tracks machine going := by
    rw [callFunction_going _ _ _ _ going, callFunction_going _ _ _ _ going]
    split
    · exact (leads.callUser _ args line).tracks machine going
    · split
      · exact .inl ⟨rfl, (callBuiltin_exitRequested _ args line machine).trans going⟩
      · exact .inl ⟨rfl, going⟩
  winds machine ending := by
    unfold Exec.final
    rw [callFunction_ending _ _ _ _ ending]
    exact .refl machine

/-- Running a block follows the prompt engine. -/
theorem runBlock (code : Window) (bindings : List (String × Value)) :
    Follows (· = .exit) (prompt.runBlock code bindings) (actual.runBlock code bindings) where
  tracks machine going := by
    rw [runBlock_eq, runBlock_eq]
    rcases leads.runScope.tracks { machine with
      stack := machine.stack.push (blockScope code bindings) } going with
      ⟨same, going⟩ | ⟨line, pending, quit, stopped, lost⟩
    · rw [same]
      refine .inl ⟨rfl, ?_⟩
      cases outcome : prompt.runScope { machine with
          stack := machine.stack.push (blockScope code bindings) } with
      | ok flow after | error stop after =>
        rw [outcome] at going
        exact going
    · rw [stopped]
      refine .inr ⟨line, pending, _, rfl, lost.transport (winds_stack quit _) ?_ ?_⟩
      · cases actual.runScope { machine with
          stack := machine.stack.push (blockScope code bindings) } with
        | ok flow after | error stop after => exact winds_stack after _
      · intro flow after returned
        rw [returned]
        exact ⟨_, rfl⟩
  winds machine ending := by
    have winds := leads.runScope.winds { machine with
      stack := machine.stack.push (blockScope code bindings) } ending
    unfold Exec.final at *
    rw [runBlock_eq]
    cases outcome : actual.runScope { machine with
        stack := machine.stack.push (blockScope code bindings) } with
    | ok flow after | error stop after =>
      rw [outcome] at winds
      exact (winds_stack machine _).trans (winds.trans (winds_stack after _))

/-- A statement follows the prompt engine. -/
theorem statement (window : Window) (pos : Nat) :
    Follows (·.1 = .exit) (prompt.statement window pos) (actual.statement window pos) := by
  have blocks : ∀ code bindings, Follows (fun flow => (flow == .exit) = true)
      (prompt.runBlock code bindings) (actual.runBlock code bindings) := fun code bindings =>
    (leads.runBlock code bindings).mono fun _ => beq_iff_eq.mpr
  exact (leads.toAlike.statement follows_flow evaluates_writing blocks window pos).mono
    fun _ => beq_iff_eq.mp

/-- A statement other than `Exit`. -/
theorem runToken (token : Token) (other : token.kind ≠ .kwExit) :
    Follows (· = .leave .exit) (prompt.runToken token) (actual.runToken token) := by
  have never : ∀ {action follower : Exec StepResult}, Evaluates action follower →
      Follows (· = .leave .exit) action follower :=
    fun evaluates => evaluates.mono fun _ never => never.elim
  have ended : Follows (· = .leave .exit) (do expectLineEnd; return StepResult.goOn)
      (do expectLineEnd; return StepResult.goOn) :=
    (Calm.of_beside .expectLineEnd).follows fun _ => .pure _
  have ran : Follows (· = .leave .exit) prompt.stepStatement actual.stepStatement := by
    refine (Calm.of_beside .topScope).follows fun scope => (Calm.moveTo _).follows fun _ => ?_
    refine Follows.bind (leads.statement _ _) (fun _ => ?_) ?_
    · refine (Calm.moveTo _).follows fun _ => ?_
      split
      · exact ended
      · exact .pure _
    · rintro ⟨flow, pos⟩ - isExit after -
      obtain rfl : flow = .exit := isExit
      exact ⟨_, _, rfl, rfl⟩
  unfold Engine.runToken
  split
  case h_1 | h_2 => exact .pure _
  case h_3 => exact never (leads.returning evaluates_writing)
  case h_4 kind => exact absurd kind other
  case h_5 | h_6 => exact never (leads.jumping evaluates_writing _ _)
  case h_7 => exact .pure _
  case h_8 => exact Evaluates.bind (leads.flag evaluates_writing _) fun _ => ended
  case h_9 =>
    have skipped : skipFunction.Calm := .bind (.of_beside .topScope) fun _ => .moveTo _
    exact skipped.follows fun _ => ended
  case h_22 | h_23 | h_24 => exact .fail _ _
  all_goals exact ran

/-- The statement `Exit`, whose token stands before the innermost scope's position. Where the script
ends while its code is evaluated, the code that it sets is not the one that was given first. -/
theorem exiting {machine : Machine} (going : machine.exitRequested = false) {pos : Nat}
    {token : Token} (found : machine.stack.top.code.token? pos = some token)
    (isExit : token.kind = .kwExit) (behind : machine.stack.top.pos = pos + 1) :
    StepTracks (prompt.exiting machine) (actual.exiting machine) := by
  rw [exiting_eq, exiting_eq]
  split
  · exact .inr ⟨_, rfl, rfl, rfl⟩
  · rcases (leads.scopeValue evaluates_writing).tracks machine going with ⟨same, goes⟩ |
      ⟨line, pending, quit, stopped, lost⟩
    · rw [same]
      cases outcome : prompt.scopeValue machine with
      | ok value after => exact .inr ⟨_, rfl, rfl, rfl⟩
      | error stop after =>
        rw [outcome] at goes
        exact .inl (.inl ⟨rfl, goes⟩)
    · have overruled : isOverruled pending = true := by
        rw [scopeValue_eq, behind] at stopped
        cases outcome : prompt.value machine.stack.top.code (pos + 1) machine with
        | ok result after =>
          rw [outcome] at stopped
          cases stopped
        | error stop after =>
          rw [outcome] at stopped
          cases stopped
          exact leads.overruled found isExit outcome lost.exiting
      rw [stopped]
      refine .inl (.inr ⟨line, pending, quit, rfl, lost.exiting, ?_, ?_, ?_⟩)
      · have stays := lost.stays
        cases outcome : actual.scopeValue machine with
        | error stop after =>
          rw [outcome] at stays
          exact stays
        | ok value after =>
          rw [outcome] at stays
          have ending : after.exitRequested = true := stays.exitRequested.trans lost.exiting
          exact stays.trans (exited_stays after _ ending)
      · simp [overruled]
      · rintro rfl
        cases overruled

/-- The next statement of a scope. -/
theorem step {machine : Machine} (going : machine.exitRequested = false) :
    StepTracks (prompt.step machine) (actual.step machine) := by
  rw [step_eq, step_eq]
  cases current : machine.stack.top.current? with
  | none => exact .inl (.inl ⟨rfl, going⟩)
  | some token =>
    by_cases isExit : token.kind = .kwExit
    · have top : (reading machine token).stack.top =
          { machine.stack.top with pos := machine.stack.top.pos + 1 } := Stack.top_modifyTop _ _
      dsimp only
      rw [runToken_exit prompt isExit, runToken_exit actual isExit]
      refine leads.exiting going ?_ isExit (by rw [top])
      rw [top]
      exact current
    · exact .inl ((leads.runToken token isExit).tracks (reading machine token) going)

/-- The next statement of a scope and what follows it. -/
theorem advance {fuel : Nat}
    (rest : Follows (· = .exit) (Exec.givingUp (prompt.runStatements fuel))
      (actual.runStatements fuel)) {machine : Machine} (going : machine.exitRequested = false) :
    Tracks (· = .exit) (Exec.givingUp (prompt.advance fuel) machine)
      (actual.advance fuel machine) := by
  simp only [Engine.advance, givingUp_bind]
  rcases leads.step going with tracks | ⟨after, promptExits, actualExits, ending⟩
  · refine tracks.bind (fun result after _ goes => ?_) (fun result after ending => ?_) ?_
    · cases result with
      | goOn => exact rest.tracks after goes
      | ended => exact Tracks.givingUp (.pure _) goes
      | leave flow => exact Tracks.givingUp (leaveScope_calm flow) goes
    · cases result with
      | goOn => exact rest.winds after ending
      | ended => exact .refl after
      | leave flow => exact leaveScope_calm flow after
    · rintro _ - rfl after -
      exact ⟨.exit, after, leaveScope_exit after, rfl⟩
  · -- Both executed an `Exit` here, and nothing is pending.
    rw [bind_ok promptExits, bind_ok actualExits]
    simp only [Exec.givingUp, leaveScope_exit, ending, if_true]
    exact .inr ⟨after.line, [], after, rfl, ending, (Winds.refl after).toStays, fun _ => rfl,
      fun _ => ⟨.exit, after, rfl, rfl⟩⟩

/-- Running statements follows the prompt engine. -/
theorem runStatements (fuel : Nat) :
    Follows (· = .exit) (Exec.givingUp (prompt.runStatements fuel))
      (actual.runStatements fuel) := by
  induction fuel with
  | zero => exact ⟨fun machine going => .inl ⟨rfl, going⟩, fun machine _ => .refl machine⟩
  | succ fuel ih =>
    refine ⟨fun machine going => ?_, fun machine => runStatements_ending actual (fuel + 1)⟩
    obtain ⟨suspended, after, looked, winds⟩ := isSuspended_eq machine
    have goes := winds.exitRequested.trans going
    have prompts : Exec.givingUp (prompt.runStatements (fuel + 1)) machine =
        if suspended then Exec.givingUp (prompt.runStatements fuel) after
        else Exec.givingUp (prompt.advance fuel) after := by
      unfold Exec.givingUp
      rw [runStatements_going prompt fuel looked goes]
      cases suspended <;> rfl
    rw [prompts, runStatements_going actual fuel looked goes]
    cases suspended with
    | true => exact ih.tracks after goes
    | false => exact leads.advance ih goes

end Engine.Leads

/-- Every engine follows the prompt engine of the same fuel. -/
theorem promptEngine_leads (fuel : Nat) : (promptEngine fuel).Leads (engine fuel) := by
  induction fuel with
  | zero =>
    refine
      { fuel := rfl
        term := fun _ _ => .of_calm .starved
        value := fun _ _ => .of_calm .starved
        call := fun _ _ _ => .of_calm .starved
        runScope := .of_calm .starved
        overruled := ?_ }
    intro _ _ _ _ _ machine line pending quit stopped _
    have starves : Stop.starved = .quit line pending := (EStateM.Result.error.inj stopped).1
    cases starves
  | succ fuel ih =>
    refine
      { fuel := rfl
        term := ih.evalTerm evaluates_congruence
        value := fun window pos => ?_
        call := ih.callFunction
        runScope := ih.runStatements fuel
        overruled := ?_ }
    · unfold promptEngine
      dsimp only
      split
      · exact Evaluates.pendingExit (ih.evalValue evaluates_congruence window pos) _
      · exact ih.evalValue evaluates_congruence window pos
    · intro window pos token found isExit machine line pending quit stopped ending
      obtain ⟨kind, lexeme, at', column⟩ := token
      subst isExit
      simp only [promptEngine, Nat.add_sub_cancel, found] at stopped
      exact isOverruled_of_pendingExit stopped ending

end LineScript
