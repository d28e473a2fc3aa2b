import LineScript.Proofs.Exit.Engine
import LineScript.Proofs.Lines.Expression
import LineScript.Proofs.Run.Engine

/-!
# Whole runs on site

A call runs the tokens of its function and adds its line to what stops it. A statement begins with a
token that ends no line, and its line is the one that is executed from then on. So by induction on
the fuel every engine works on site, and a script that has executed nothing but line ends so far
runs on site too.
-/

namespace LineScript

open Sites

variable {sites : Sites}

namespace Sites

/-- What stops a call points where it did, and leaves one more call. -/
theorem Permits.leaving {stop : Stop} {line : Nat} (permits : sites.Permits stop)
    (isLine : sites.isLine line) (name : String) : sites.Permits (stop.leaving name line) := by
  match stop, permits with
  | .halted _, _ => trivial
  | .fault (.running cause at' calls), ⟨⟨points, left⟩, _⟩ =>
    exact ⟨⟨points, List.forall_mem_append.mpr ⟨left, List.forall_mem_singleton.mpr isLine⟩⟩, rfl⟩

/-- The tokens of a function stand on site. -/
theorem Stands.function {idle : Prop} {machine : Machine} (stands : sites.Stands idle machine)
    {name : String} {function : UserFunction}
    (found : machine.program.function? name = some function) :
    ∀ block ∈ function.blocks, sites.Covers block :=
  fun _ member => stands.program.blocks _ (Program.mem_blocks_function found member)

namespace Does

variable {line : Nat} (isLine : sites.isLine line)
include isLine

/-- A call of a library function works on site. -/
theorem callBuiltin (function : Builtin) (args : List Value) :
    sites.Does (LineScript.callBuiltin function args line) fun _ => True := by
  refine (checkArity _ _ _ _ isLine).andThen fun _ => ?_
  split
  · exact fail isLine
  · exact (modifyRegisters _).andThen fun _ => (trace _).andThen fun _ => builtin _ _

/-- Entering a call works on site. -/
theorem enterCall (name : String) : sites.Does (LineScript.enterCall name line) fun _ => True := by
  refine .get fun machine _ => ?_
  split
  · exact fail isLine
  · exact aside fun _ => ⟨rfl, rfl, rfl⟩

end Does

end Sites

namespace Engine.OnSite

variable {low : Engine} (onSite : low.OnSite sites)
include onSite

section

variable {line : Nat} (isLine : sites.isLine line)
include isLine

/-- A call of a function of the script works on site. -/
theorem callUser {function : UserFunction} (covers : ∀ block ∈ function.blocks, sites.Covers block)
    (args : List Value) : sites.Does (low.callUser function args line) fun _ => True := by
  have body := covers function.body List.mem_cons_self
  have fallbacks : ∀ param ∈ function.params, ∀ block ∈ param.fallback, sites.Covers block :=
    fun param member block isFallback => covers block
      (List.mem_cons_of_mem _ (List.mem_filterMap.mpr ⟨param, member, isFallback⟩))
  have inside : sites.Does (do
      low.bindParams function line function.params args
      low.runScope) fun _ => True :=
    (onSite.bindParams function isLine fallbacks args).andThen fun _ => onSite.runScope
  refine (Does.checkArity _ _ _ _ isLine).andThen fun _ => ?_
  refine (Does.modifyRegisters _).andThen fun _ => ?_
  refine (Does.enterCall isLine _).andThen fun _ => (Does.trace _).andThen fun _ => ?_
  refine (Does.inScope (covers_whole body) inside).bind fun ⟨outcome, left⟩ permits => ?_
  refine Does.andThen (Does.aside fun _ => ⟨rfl, rfl, rfl⟩) fun _ => ?_
  split
  · exact .throw ((permits _ rfl).leaving isLine _)
  · exact (Does.modifyRegisters _).andThen fun _ => .pure trivial

/-- A call by name works on site. -/
theorem callFunction (name : String) (args : List Value) :
    sites.Does (low.callFunction name args line) fun _ => True := by
  refine .get fun machine stands => ?_
  split
  · exact .pure trivial
  · split
    · exact onSite.callUser isLine (stands.function ‹_›) _
    · split
      · exact Does.callBuiltin isLine _ _
      · exact .fail isLine

end

/-- Evaluating an expression of the innermost scope works on site. -/
theorem scopeValue : sites.Does low.scopeValue fun _ => True := by
  refine Does.topScope.bind fun scope covers => ?_
  refine (onSite.value _ covers).andThen fun ⟨value, pos⟩ => ?_
  exact (Does.moveTo _).andThen fun _ => .pure trivial

/-- Executing a flag works on site. -/
theorem flag {token : Token} (isLine : sites.isLine token.line) :
    sites.Does (low.flag token) fun _ => True := by
  have rest : sites.Does (do
      let scope ← topScope
      if scope.code.hasOperator scope.pos "=" then
        moveTo (scope.pos + 1)
        let value ← low.scopeValue
        Exec.trace fun _ => "flag: #" ++ token.lexeme ++ " = " ++ value.display
      else Exec.trace fun _ => "flag: ignoring #" ++ token.lexeme) fun _ => True := by
    refine Does.topScope.bind fun scope _ => ?_
    split
    · exact (Does.moveTo _).andThen fun _ => onSite.scopeValue.andThen fun _ => .trace _
    · exact .trace _
  unfold Engine.flag
  split
  · refine .andThen (.aside fun _ => ⟨rfl, rfl, rfl⟩) fun _ => rest
  · exact (Does.fail isLine).andThen fun _ => rest
  · exact (Does.fail isLine).andThen fun _ => rest
  · exact rest

/-- A return works on site. -/
theorem returning : sites.Does low.returning fun _ => True := by
  have rest : ∀ value, sites.Does (do
      Machine.setReturnValue value
      return StepResult.leave (.returned value)) fun _ => True :=
    fun _ => (Does.modifyRegisters _).andThen fun _ => .pure trivial
  refine Does.atLineEnd.andThen fun atEnd => ?_
  split
  · exact rest _
  · exact onSite.scopeValue.andThen rest

/-- An exit works on site. -/
theorem exiting : sites.Does low.exiting fun _ => True := by
  have rest : sites.Does (do
      let code := (← get).exitCode
      Exec.trace fun _ => "exit: code " ++ toString code.toInt
      modify fun machine => { machine with exitRequested := true }
      return StepResult.leave .exit) fun _ => True :=
    .get fun _ _ => (Does.trace _).andThen fun _ =>
      .andThen (.aside fun _ => ⟨rfl, rfl, rfl⟩) fun _ => .pure trivial
  refine Does.atLineEnd.andThen fun atEnd => ?_
  split
  · exact onSite.scopeValue.andThen fun _ => .andThen (.aside fun _ => ⟨rfl, rfl, rfl⟩) fun _ => rest
  · exact rest

/-- A jump works on site. -/
theorem jumping {token : Token} (isLine : sites.isLine token.line) (flow : UInt32 → Flow) :
    sites.Does (low.jumping token flow) fun _ => True := by
  have rest : ∀ level : Int64, sites.Does (
      if level < 1 then Exec.fail (.loopLevel token.lexeme level) token.line
      else return .leave (flow level.toUInt64.toUInt32) : Exec StepResult) fun _ => True := by
    intro level
    split
    · exact .fail isLine
    · exact .pure trivial
  refine Does.atLineEnd.andThen fun atEnd => ?_
  split
  · exact (Does.pure trivial).andThen rest
  · simp only [map_eq_pure_bind, bind_assoc, pure_bind]
    exact onSite.scopeValue.andThen fun _ => rest _

/-- A token that ends no line is run from its line; a line end does nothing. -/
theorem runToken {token : Token} (holds : sites.Holds token) :
    sites.Does (low.runToken token) fun _ => True := by
  by_cases isEol : token.kind = .eol
  · unfold Engine.runToken
    rw [isEol]
    exact .pure trivial
  have isLine := holds.isLine isEol
  unfold Engine.runToken
  split
  · exact .pure trivial
  · exact .pure trivial
  · exact onSite.returning
  · exact onSite.exiting
  · exact onSite.jumping isLine _
  · exact onSite.jumping isLine _
  · exact .pure trivial
  · exact (onSite.flag isLine).andThen fun _ => Does.expectLineEnd.andThen fun _ => .pure trivial
  · have skipped : sites.Does skipFunction fun _ => True :=
      Does.topScope.bind fun _ _ => .moveTo _
    exact skipped.andThen fun _ => Does.expectLineEnd.andThen fun _ => .pure trivial
  case h_22 | h_23 | h_24 => exact .fail isLine
  all_goals
    refine Does.topScope.bind fun scope covers => (Does.moveTo _).andThen fun _ => ?_
    refine (onSite.statement covers _).andThen fun ⟨flow, pos⟩ => (Does.moveTo _).andThen fun _ => ?_
    split
    · exact Does.expectLineEnd.andThen fun _ => .pure trivial
    · exact .pure trivial

variable {idle : Prop} {machine : Machine}

/-- With the first statement that is no line end the machine is idle no longer, and only with such a
statement control leaves a scope. -/
theorem step (stands : sites.Stands idle machine) :
    match low.step machine with
    | .ok result after => sites.Stands (idle ∧ ∀ flow, result ≠ .leave flow) after
    | .error stop after => sites.Stands idle after ∧ sites.Permits stop := by
  rw [Engine.step_eq]
  cases found : machine.stack.top.current? with
  | none => exact stands.mono fun idle => ⟨idle, nofun⟩
  | some token =>
    have holds := covers_token stands.top found
    have read : ∀ pos, sites.Stands idle
        { machine with stack := machine.stack.modifyTop fun scope => { scope with pos } } := by
      intro pos
      rw [Stack.modifyTop_eq_modifyAt]
      exact stands.modifyAt 0 fun _ => rfl
    obtain ⟨program, code, line⟩ := read (machine.stack.top.pos + 1)
    dsimp only
    by_cases positive : 0 < token.line
    · have begun : sites.Stands False (Engine.reading machine token) := by
        refine ⟨program, code, .inl ?_⟩
        rw [Engine.reading, if_pos positive]
        exact holds.isLine_of_pos positive
      have ran := onSite.runToken holds _ begun
      cases outcome : low.runToken token (Engine.reading machine token) with
      | ok result after =>
        rw [outcome] at ran
        exact ran.1.mono False.elim
      | error stop after =>
        rw [outcome] at ran
        exact ⟨ran.1.mono False.elim, ran.2⟩
    · obtain isLine | ⟨_, rfl⟩ := holds
      · exact absurd (sites.positive _ isLine) positive
      · exact Stands.mono ⟨program, code, line⟩ fun idle => ⟨idle, nofun⟩

omit onSite in
/-- Looking whether the machine is suspended runs no tokens. -/
theorem isSuspended (stands : sites.Stands idle machine) :
    ∃ suspended after, isSuspended machine = .ok suspended after ∧ sites.Stands idle after := by
  refine ⟨_, _, rfl, ?_⟩
  dsimp only
  split <;> exact ⟨stands.program, stands.code, stands.line⟩

omit onSite in
/-- A jump that needs something around the scope points at the statement that jumps. -/
theorem leaveScope (flow : Flow) : sites.Does (leaveScope flow) fun _ => True := by
  refine Does.topScope.bind fun scope _ => ?_
  split
  · exact Does.currentLine.bind fun _ isLine => .fail isLine
  · exact .pure trivial

/-- Each turn leaves a machine on site, so all turns together do. -/
theorem runStatements (fuel : Nat) (stands : sites.Stands idle machine) :
    match low.runStatements fuel machine with
    | .ok _ after => sites.Stands idle after
    | .error stop after => sites.Stands idle after ∧ sites.Permits stop := by
  induction fuel generalizing machine with
  | zero => exact ⟨stands, trivial⟩
  | succ fuel ih =>
    obtain ⟨suspended, after, looked, stands⟩ := isSuspended stands
    cases ending : after.exitRequested with
    | true =>
      rw [Engine.runStatements_succ]
      rw [Exec.bind_ok looked]
      cases suspended with
      | true => exact ih stands
      | false =>
        simp only [Bool.false_eq_true, if_false, bind, EStateM.bind, run_get, ending, if_true]
        exact stands
    | false =>
      rw [Engine.runStatements_going low fuel looked ending]
      cases suspended with
      | true => exact ih stands
      | false =>
        have stepped := onSite.step stands
        simp only [Bool.false_eq_true, if_false, Engine.advance]
        cases outcome : low.step after with
        | error stop last =>
          rw [outcome] at stepped
          rw [Exec.bind_error outcome]
          exact stepped
        | ok result last =>
          rw [outcome] at stepped
          rw [Exec.bind_ok outcome]
          cases result with
          | goOn => exact ih (stepped.mono And.left)
          | ended => exact stepped.mono And.left
          | leave flow =>
            have left := leaveScope flow last (stepped.mono fun never => never.2 flow rfl)
            cases leaving : Engine.leaveScope flow last with
            | ok flow after =>
              rw [leaving] at left
              simp only [leaving]
              exact left.1.mono False.elim
            | error stop after =>
              rw [leaving] at left
              simp only [leaving]
              exact ⟨left.1.mono False.elim, left.2⟩

end Engine.OnSite

/-- Every engine works on site. -/
theorem engine_onSite (sites : Sites) (fuel : Nat) : (engine fuel).OnSite sites := by
  induction fuel with
  | zero =>
    exact ⟨fun _ _ => .starved, fun _ _ => .starved, fun _ _ _ _ => .starved, .starved⟩
  | succ fuel ih =>
    refine ⟨fun pos covers => ih.evalTerm covers pos, fun pos covers => ih.evalValue covers pos,
      fun name args _ isLine => ih.callFunction isLine name args, fun machine stands => ?_⟩
    have ran := ih.runStatements fuel stands
    rw [show (engine (fuel + 1)).runScope machine = (engine fuel).runStatements fuel machine from rfl]
    cases outcome : (engine fuel).runStatements fuel machine with
    | ok flow after =>
      rw [outcome] at ran
      exact ⟨ran, trivial⟩
    | error stop after =>
      rw [outcome] at ran
      exact ran

end LineScript
