import LineScript.Interpreter.Run
import LineScript.Proofs.Rendition.Control

/-!
# No engine tells renditions apart

Each statement does the same in every rendition of its window, and so does a scope. A function is found
under every spelling of its name, and a call runs the body that the program holds, whatever the caller's
window is. By induction on the fuel no engine tells renditions apart.
-/

namespace LineScript

open Machine Exec

variable {respells named : Prop} {shift : Nat} {shifts : List Nat}

/-- The stop of a call is left behind with that call. -/
theorem Stop.Renders.leaving {stop last : Stop} (same : stop.Renders respells last)
    {name other : String} (spelled : NameRenders respells name other) (line : Nat) :
    (stop.leaving name line).Renders respells (last.leaving other line) := by
  rcases same with rfl | ⟨may, alike⟩
  · rcases spelled.spelled with rfl | may
    · exact .inl rfl
    · exact .inr ⟨may, (Stop.Alike.refl last).leaving name other line⟩
  · exact .inr ⟨may, alike.leaving name other line⟩

/-- Actions that look at the innermost scopes first. -/
theorem Machine.Renders.topScope {machine last : Machine}
    (renders : machine.Renders respells shifts last) {α β : Type} {agree : α → β → Prop}
    {next : Scope → Exec α} {other : Scope → Exec β}
    (rest : Exec.Echoes respells shifts agree (next machine.stack.top) (other last.stack.top)) :
    EndAlike (Stop.Renders respells) (Machine.Renders respells shifts) agree
      ((LineScript.topScope >>= next) machine) ((LineScript.topScope >>= other) last) :=
  rest machine last renders

/-- Actions that move the innermost scopes on first. -/
theorem Machine.Renders.moveTo {machine last : Machine}
    (renders : machine.Renders respells shifts last) (pos : Nat) {α β : Type} {agree : α → β → Prop} {next : Unit → Exec α} {other : Unit → Exec β}
    (rest : ∀ moved after : Machine, moved.Renders respells shifts after →
      moved.stack.top.pos = pos →
      EndAlike (Stop.Renders respells) (Machine.Renders respells shifts) agree (next () moved)
        (other () after)) :
    EndAlike (Stop.Renders respells) (Machine.Renders respells shifts) agree
      ((LineScript.moveTo pos >>= next) machine)
      ((LineScript.moveTo (shifts.headD 0 + pos) >>= other) last) :=
  rest _ _ (renders.withStack (renders.stack.moveTo pos))
    (congrArg Scope.pos (Stack.top_modifyTop _ _))

namespace Exec.Echoes

/-- Checking a number of arguments echoes itself. -/
theorem checkArity {name other : String} (spelled : NameRenders respells name other)
    (greatest required given line : Nat) :
    Echoes respells shifts Eq (LineScript.checkArity name greatest required given line)
      (LineScript.checkArity other greatest required given line) := by
  unfold LineScript.checkArity
  split
  · exact fail (spelled.cause (fun name => .tooManyArguments name given greatest) fun _ _ => rfl) _
  · split
    · exact fail (spelled.cause (fun name => .tooFewArguments name given required) fun _ _ => rfl) _
    · exact pure rfl

/-- Entering a call echoes itself. -/
theorem enterCall {name other : String} (spelled : NameRenders respells name other) (line : Nat) :
    Echoes respells shifts Eq (LineScript.enterCall name line) (LineScript.enterCall other line) := by
  unfold LineScript.enterCall
  refine get fun machine last renders => ?_
  have depth : last.callDepth = machine.callDepth := by cases renders; rfl
  rw [depth]
  split
  · exact fail (spelled.cause _ fun _ _ => rfl) _
  · exact Blind.modify (fun _ _ _ _ => rfl) shifts

/-- Looking for the end of a line echoes itself. -/
theorem atLineEnd : Echoes respells shifts Eq LineScript.atLineEnd LineScript.atLineEnd := by
  refine bind topScope fun scope other same => pure ?_
  rw [same.pos]
  exact (same.code.renders.endsLine scope.pos).symm

/-- Expecting the end of a line echoes itself. -/
theorem expectLineEnd :
    Echoes respells shifts Eq LineScript.expectLineEnd LineScript.expectLineEnd := by
  refine bind topScope fun scope other same => ?_
  rw [Scope.current?, Scope.current?, same.pos]
  rcases same.showsCurrent with ⟨missing, missing'⟩ | ⟨token, last, found, found', shown⟩
  · rw [missing, missing']
    exact pure rfl
  · rw [found, found']
    dsimp only
    rw [shown.endsLine, shown.line]
    split
    · exact pure rfl
    · exact fail (shown.cause (fun token => .lineEndExpected token.display)
        fun _ _ => rfl) _

/-- Skipping a function echoes itself. -/
theorem skipFunction : Echoes respells shifts Eq Engine.skipFunction Engine.skipFunction := by
  refine bind topScope fun scope other same => ?_
  have close := (same.code.kinds.of_kinds (fun token => token.kind == .kwEndFunc)
    fun _ _ kind => by rw [kind]).seek (Nat.le_refl _) scope.pos
  dsimp only
  rw [same.pos, same.code.stop, close, Nat.add_assoc, Nat.add_min_add_left]
  exact moveTo _

end Exec.Echoes

namespace Exec.Blind

/-- Leaving a call is blind. -/
theorem leaveCall : LineScript.leaveCall.Blind respells := modify fun _ _ _ _ => rfl

/-- A call of a library function is blind. -/
theorem callBuiltin (function : Builtin) (args : List Value) (line : Nat) :
    (LineScript.callBuiltin function args line).Blind respells := by
  unfold LineScript.callBuiltin callBuiltinBy
  refine bind (fun _ => .checkArity (.refl _) _ _ _ _) fun _ => ?_
  split
  · exact fail _ _
  · exact bind resetRegisters fun _ => bind (trace _) fun _ => function.blind_run _

/-- Asking whether the machine is suspended is blind. -/
theorem isSuspended : Engine.isSuspended.Blind respells := by
  refine bind (modify fun machine stack program console => ?_) fun _ =>
    get (fun renders => by cases renders; rfl) fun _ => pure _
  dsimp only
  split <;> rfl

end Exec.Blind

namespace Engine.Echoes

variable {low : Engine} (echoes : low.Echoes respells) {near far : Window}
include echoes

/-! ### Calls -/

/-- Binding parameters echoes itself. -/
theorem bindParams {function last : UserFunction}
    (spelled : NameRenders respells function.name last.name) (line : Nat) {params others : List Param}
    (same : List.Forall₂ (Anew respells Param.small) params others) (args : List Value) :
    Exec.Echoes respells shifts Eq (low.bindParams function line params args)
      (low.bindParams last line others args) := by
  induction same generalizing args with
  | nil => exact .pure rfl
  | @cons param other params others here _ ih =>
    have name : other.name = param.name := here.look Param.name fun _ => rfl
    have fallback : Option.Rel (TokenBlock.Renders respells) param.fallback other.fallback :=
      TokenBlock.Renders.rel (here.map Param.fallback fun _ => rfl)
    have bound (value : Value) : Exec.Echoes respells shifts Eq (do
          setVariable param.name value
          low.bindParams function line params args.tail)
        (do
          setVariable other.name value
          low.bindParams last line others args.tail) := by
      rw [name]
      exact .andThen (.setVariable (.refl _) value) fun _ => ih _
    unfold Engine.bindParams
    split
    · generalize param.fallback = tokens? at fallback ⊢
      generalize other.fallback = other? at fallback ⊢
      cases fallback with
      | none =>
        rw [name]
        exact .andThen (.fail (spelled.cause (fun name => .noDefault name _)
          fun _ _ => rfl) _) (name ▸ bound)
      | some shown =>
        refine .andThen (.map (echoes.value shown shown.first) ?_) bound
        rintro ⟨value, pos⟩ _ rfl
        rfl
    · exact .andThen (.pure rfl) bound

/-- A call of a function of the script echoes itself. -/
theorem callUser {function other : UserFunction}
    (same : Anew respells UserFunction.small function other) (args : List Value) (line : Nat) :
    Exec.Echoes respells shifts Eq (low.callUser function args line)
      (low.callUser other args line) := by
  have name : NameRenders respells function.name other.name :=
    .small (same.map UserFunction.name fun _ => rfl)
  have params : List.Forall₂ (Anew respells Param.small) function.params other.params :=
    (same.map UserFunction.params fun _ => rfl).forall₂
  have scope : (callScope function args.length).Renders respells 0 (callScope other args.length) := by
    rcases same with rfl | ⟨may, rfl⟩
    · exact .refl _
    · have small : callScope function.small args.length = (callScope function args.length).small := by
        simp [callScope, Scope.ofCode, Scope.small, UserFunction.small, ScopeKind.small,
          Window.whole, Window.small, TokenBlock.small]
      rw [small]
      exact .small may _
  have required : other.required = function.required :=
    same.look UserFunction.required fun function => function.required_small
  unfold Engine.callUser
  rw [Engine.callUserBy_attempt, Engine.callUserBy_attempt, Engine.runBody, Engine.runBody,
    ← params.length_eq, required]
  refine .andThen (.checkArity name _ _ _ _) fun _ => .andThen (Blind.resetRegisters _) fun _ => ?_
  refine .andThen (.enterCall name _) fun _ => ?_
  refine .andThen (.trace (name.text fun name _ => "call: " ++ name ++ "(" ++
    toString args.length ++ " args) from line " ++ toString line)) fun _ => ?_
  refine .bind (.inScope scope <| .andThen (echoes.bindParams name line params args) fun _ =>
    echoes.runScope _) ?_
  rintro ⟨outcome, left⟩ ⟨outcome', left'⟩ ⟨ended, kept⟩
  refine .andThen (Blind.leaveCall _) fun _ => ?_
  cases ended with
  | error stops => exact .throw (stops.leaving name line)
  | ok held =>
    subst held
    dsimp only
    rw [kept.registers]
    exact .andThen (Blind.modifyRegisters _ _) fun _ => .pure rfl

/-- A call by name echoes itself, however the name is spelled. -/
theorem callFunction {name other : String} (same : NameRenders respells name other)
    (args : List Value) (line : Nat) :
    Exec.Echoes respells shifts Eq (low.callFunction name args line)
      (low.callFunction other args line) := by
  unfold Engine.callFunction Engine.callNamed
  refine .get fun machine last renders => ?_
  have found := renders.program.function? same.same
  have library : Builtin.ofName? other = Builtin.ofName? name := by
    rw [Builtin.ofName?, Builtin.ofName?, same.same]
  have ending : last.exitRequested = machine.exitRequested := by cases renders; rfl
  rw [library, ending]
  split
  · exact .pure rfl
  · generalize machine.program.function? name = function? at found ⊢
    generalize last.program.function? other = other? at found ⊢
    cases found with
    | some same => exact echoes.callUser same args line
    | none =>
      dsimp only
      split
      · exact Blind.callBuiltin _ _ _ _
      · exact .fail (same.cause _ fun _ _ => rfl) _

/-! ### Statements -/

/-- A statement echoes itself. -/
theorem statement (copies : near.Copies respells shift far) (pos : Nat) :
    Exec.Echoes respells shifts (Reads shift) (low.statement near pos)
      (low.statement far (shift + pos)) := by
  have window := copies.renders
  have stopped {flow : Flow} {left right : Exec Nat}
      (same : Exec.Echoes respells shifts (Stops shift) left right) :
      Exec.Echoes respells shifts (Reads shift) (do return (flow, ← left))
        (do return (flow, ← right)) :=
    .bind same fun _ _ same => .pure (congrArg (Prod.mk flow) same)
  unfold Engine.statement
  rcases copies.showsAt pos with ⟨missing, missing'⟩ | ⟨token, other, found, found', same⟩
  · rw [missing, missing']
    exact .pure rfl
  · rw [found, found']
    dsimp only
    rw [same.kind]
    split
    case h_1 => exact stopped (echoes.declaration copies pos)
    case h_2 => exact stopped (echoes.enumeration window _ (pos + 1))
    case h_3 => exact stopped (echoes.assignEach window _ pos)
    case h_4 | h_5 =>
      refine .bind (echoes.value window (copies.showsAt pos)) ?_
      rintro ⟨value, last⟩ _ rfl
      exact .pure rfl
    case h_6 => exact stopped (echoes.resizing window pos)
    case h_7 => exact echoes.choice copies same pos
    case h_8 => exact echoes.switch copies same pos
    case h_9 => exact echoes.select copies same pos
    case h_10 => exact .andThen (echoes.forLoop same _) fun _ => .pure rfl
    case h_11 => exact echoes.whileLoop copies same (Window.token?_eq_some.mp found).1
    case h_12 => exact echoes.doLoop copies same pos
    case h_13 | h_14 => exact .pure rfl
    case h_15 =>
      exact .failAt window pos
        (same.cause (fun token => .notAStatement token.display) fun _ _ => rfl)

/-- Evaluating an expression of the innermost scope echoes itself. -/
theorem scopeValue : Exec.Echoes respells shifts Eq low.scopeValue low.scopeValue := by
  refine .bind .topScope fun scope other same => ?_
  rw [same.pos]
  refine .bind (echoes.value same.code.renders same.showsCurrent) ?_
  rintro ⟨value, pos⟩ _ rfl
  exact .andThen (.moveTo pos) fun _ => .pure rfl

/-- Executing a flag echoes itself. -/
theorem flag {token other : Token} (same : token.Renders respells named other) :
    Exec.Echoes respells shifts Eq (low.flag token) (low.flag other) := by
  have name := NameRenders.ofToken same
  have rest : Exec.Echoes respells shifts Eq (do
        let scope ← topScope
        if scope.code.hasOperator scope.pos "=" then
          moveTo (scope.pos + 1)
          let value ← low.scopeValue
          Exec.trace fun _ => "flag: #" ++ token.lexeme ++ " = " ++ value.display
        else Exec.trace fun _ => "flag: ignoring #" ++ token.lexeme)
      (do
        let scope ← topScope
        if scope.code.hasOperator scope.pos "=" then
          moveTo (scope.pos + 1)
          let value ← low.scopeValue
          Exec.trace fun _ => "flag: #" ++ other.lexeme ++ " = " ++ value.display
        else Exec.trace fun _ => "flag: ignoring #" ++ other.lexeme) := by
    refine .bind .topScope fun scope last stands => ?_
    rw [stands.pos, stands.code.renders.hasOperator]
    split
    · exact .andThen (.moveTo (scope.pos + 1)) fun _ =>
        .andThen echoes.scopeValue fun value =>
          .trace (name.text fun name _ => "flag: #" ++ name ++ " = " ++ value.display)
    · exact .trace (name.text fun name _ => "flag: ignoring #" ++ name)
  unfold Engine.flag
  rw [same.name, same.line]
  split
  · exact .andThen (Blind.modify (fun _ _ _ _ => rfl) _) fun _ => rest
  · exact .andThen (.fail (name.cause _ fun _ _ => rfl) _) fun _ => rest
  · exact .andThen (.fail (name.cause _ fun _ _ => rfl) _) fun _ => rest
  · exact rest

/-- A return echoes itself. -/
theorem returning : Exec.Echoes respells shifts Eq low.returning low.returning := by
  have leave (value : Value) :
      Blind respells (do setReturnValue value; return StepResult.leave (.returned value)) :=
    .bind (.setReturnValue value) fun _ => .pure _
  unfold Engine.returning
  refine .andThen .atLineEnd fun atEnd => ?_
  split
  · exact .andThen (.pure rfl) fun value => leave value _
  · exact .andThen echoes.scopeValue fun value => leave value _

/-- An exit echoes itself. -/
theorem exiting : Exec.Echoes respells shifts Eq low.exiting low.exiting := by
  have leave : Blind respells (do
      let code := (← get).exitCode
      Exec.trace fun _ => "exit: code " ++ toString code.toInt
      modify fun machine => { machine with exitRequested := true }
      return StepResult.leave .exit) :=
    .get (fun renders => by cases renders; rfl) fun _ => .bind (.trace _) fun _ =>
      .bind (.modify fun _ _ _ _ => rfl) fun _ => .pure _
  unfold Engine.exiting
  refine .andThen .atLineEnd fun atEnd => ?_
  split
  · refine .andThen echoes.scopeValue fun value => ?_
    exact .andThen (Blind.modify (fun _ _ _ _ => rfl) _) fun _ => leave _
  · exact leave _

/-- A jump echoes itself. -/
theorem jumping {token other : Token} (same : token.Renders respells named other)
    (flow : UInt32 → Flow) :
    Exec.Echoes respells shifts Eq (low.jumping token flow) (low.jumping other flow) := by
  have leave (level : Int64) : Exec.Echoes respells shifts Eq
      (if level < 1 then Exec.fail (.loopLevel token.lexeme level) token.line
        else return StepResult.leave (flow level.toUInt64.toUInt32))
      (if level < 1 then Exec.fail (.loopLevel other.lexeme level) other.line
        else return StepResult.leave (flow level.toUInt64.toUInt32)) := by
    rw [same.line]
    split
    · exact .fail ((NameRenders.ofToken same).cause (fun name => .loopLevel name level)
        fun _ _ => rfl) _
    · exact .pure rfl
  unfold Engine.jumping
  refine .andThen .atLineEnd fun atEnd => ?_
  split
  · exact .andThen (.pure rfl) leave
  · exact .andThen (.map echoes.scopeValue fun _ _ same => congrArg _ same) leave

/-- The statement in front of the innermost scope's position, if that is not the first one. -/
theorem stepStatement {machine last : Machine} (renders : machine.Renders respells shifts last)
    (behind : 0 < machine.stack.top.pos) :
    EndAlike (Stop.Renders respells) (Machine.Renders respells shifts) Eq
      (low.stepStatement machine) (low.stepStatement last) := by
  have same := renders.stack.top
  have before : last.stack.top.pos - 1 = shifts.headD 0 + (machine.stack.top.pos - 1) := by
    rw [same.pos]
    exact Nat.add_sub_assoc behind _
  refine renders.topScope ?_
  rw [before]
  refine .andThen (.moveTo _) fun _ => .bind (echoes.statement same.code _) ?_
  rintro ⟨flow, pos⟩ _ rfl
  refine .andThen (.moveTo pos) fun _ => ?_
  split
  · exact .andThen .expectLineEnd fun _ => .pure rfl
  · exact .pure rfl

/-- The statement that begins with a token in front of the innermost scope's position. -/
theorem runToken {token other : Token} (same : token.Renders respells named other)
    {machine last : Machine} (renders : machine.Renders respells shifts last)
    (behind : 0 < machine.stack.top.pos) :
    EndAlike (Stop.Renders respells) (Machine.Renders respells shifts) Eq
      (low.runToken token machine) (low.runToken other last) := by
  have name := NameRenders.ofToken same
  have cases : Exec.Echoes respells shifts Eq (low.runToken token) (low.runToken other) ∨
      low.runToken token = low.stepStatement ∧ low.runToken other = low.stepStatement := by
    unfold Engine.runToken
    rw [same.kind, same.line]
    split
    case h_1 | h_2 | h_7 => exact .inl (.pure rfl)
    case h_3 => exact .inl echoes.returning
    case h_4 => exact .inl echoes.exiting
    case h_5 | h_6 => exact .inl (echoes.jumping same _)
    case h_8 =>
      exact .inl <| .andThen (echoes.flag same) fun _ => .andThen .expectLineEnd fun _ => .pure rfl
    case h_9 =>
      exact .inl <| .andThen .skipFunction fun _ => .andThen .expectLineEnd fun _ => .pure rfl
    case h_22 | h_23 => exact .inl (.fail (name.cause _ fun _ _ => rfl) _)
    case h_24 =>
      exact .inl (.fail (same.cause (fun token => .noStatement token.display)
        fun _ _ => rfl) _)
    all_goals exact .inr ⟨rfl, rfl⟩
  rcases cases with same | ⟨here, there⟩
  · exact same machine last renders
  · rw [here, there]
    exact echoes.stepStatement renders behind

/-- A step echoes itself. -/
theorem step : Exec.Echoes respells shifts Eq low.step low.step := by
  refine .bind .topScope fun scope other same => ?_
  rw [Scope.current?, Scope.current?, same.pos]
  rcases same.showsCurrent with ⟨missing, missing'⟩ | ⟨token, shown, found, found', same⟩
  · rw [missing, missing']
    exact .pure rfl
  · rw [found, found']
    dsimp only
    rw [same.line, Nat.add_assoc]
    intro machine last renders
    refine renders.moveTo (scope.pos + 1) fun moved after renders stands => ?_
    have behind : 0 < moved.stack.top.pos := stands ▸ Nat.succ_pos scope.pos
    by_cases numbered : 0 < token.line
    · rw [if_pos numbered, if_pos numbered]
      have renders : Machine.Renders respells shifts { moved with line := token.line }
          { after with line := token.line } := by
        cases renders with
        | mk placed programs shown =>
          exact @Machine.Renders.mk _ _ { moved with line := token.line } _ _ _ placed programs shown
      exact echoes.runToken same renders behind
    · rw [if_neg numbered, if_neg numbered]
      exact echoes.runToken same renders behind

/-- Running statements echoes itself. -/
theorem runStatements (fuel : Nat) :
    Exec.Echoes respells shifts Eq (low.runStatements fuel) (low.runStatements fuel) := by
  induction fuel with
  | zero => exact .starved
  | succ fuel ih =>
    rw [Engine.runStatements_succ]
    refine .andThen (Blind.isSuspended _) fun suspended => ?_
    split
    · exact ih
    · refine .get fun machine last renders => ?_
      have ending : last.exitRequested = machine.exitRequested := by cases renders; rfl
      rw [ending]
      split
      · exact .pure rfl
      · refine .andThen echoes.step fun result => ?_
        split
        · exact ih
        · exact .pure rfl
        · refine .bind .topScope fun scope other same => ?_
          rw [same.isFrame]
          split
          · exact .andThen (Blind.currentLine _) fun _ => .fail (.refl _) _
          · exact .pure rfl

end Engine.Echoes

/-- No engine tells renditions apart. -/
theorem engine_echoes (respells : Prop) (fuel : Nat) : (engine fuel).Echoes respells := by
  induction fuel with
  | zero => exact ⟨fun _ _ => .starved, fun _ _ => .starved, fun _ _ _ => .starved, fun _ => .starved⟩
  | succ fuel ih =>
    exact ⟨fun _ here => ih.evalTerm ‹_› here, fun _ here => ih.evalValue ‹_› here,
      fun args line same => ih.callFunction same args line, fun _ => ih.runStatements fuel⟩

end LineScript
