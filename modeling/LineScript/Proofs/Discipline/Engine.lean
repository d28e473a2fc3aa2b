import LineScript.Interpreter.Call
import LineScript.Proofs.Discipline.Statement
import LineScript.Proofs.Run.Locals

/-!
# Disciplines of the interpreter

Every part of the interpreter keeps a discipline; those about one scope are found by its height.
-/

namespace LineScript

/-!
## Every part of the interpreter keeps a discipline

A statement begins after the watcher has let it pass, and so does the work of a function of the
library. By induction on the fuel, whatever the watched engine is asked for keeps the discipline,
until it is stopped.
-/

section

open Machine Discipline

variable {discipline : Discipline} {low : Engine} {α β : Type}

/-- Control leaves the function with a value. -/
def StepResult.isReturned : StepResult → Bool
  | leave flow => flow.isReturned
  | _ => false

namespace Discipline

/-- The watcher of a discipline: a run is stopped where something forbidden begins. -/
def watch (discipline : Discipline) : Watch := .stopAt discipline.stops

/-- The discipline's watch stops where the discipline says so. -/
theorem watch_eq (occurrence : Occurrence) (machine : Machine) :
    discipline.watch occurrence machine =
      if discipline.stops occurrence machine then .error .starved machine
      else .ok () machine := rfl

/-- What begins after the watcher has looked is not forbidden. -/
theorem Ends.watch {machine : Machine} {occurrence : Occurrence} {next : Exec α}
    {post : α → Stack → Prop}
    (rest : discipline.stops occurrence machine = false → discipline.Ends machine next post) :
    discipline.Ends machine (do discipline.watch occurrence; next) post := by
  unfold Ends at *
  simp only [Bind.bind, EStateM.bind, watch_eq]
  cases stopped : discipline.stops occurrence machine with
  | true => exact discipline.refl machine.stack
  | false => exact rest stopped

/-- Looking up the innermost scope keeps the discipline. -/
theorem Ends.topScope {machine : Machine} {next : Scope → Exec α} {post : α → Stack → Prop}
    (rest : discipline.Ends machine (next machine.stack.top) post) :
    discipline.Ends machine (LineScript.topScope >>= next) post := rest

namespace Gives

/-- Watching keeps the discipline. -/
theorem watch (occurrence : Occurrence) :
    discipline.Does (discipline.watch occurrence) fun _ => True := by
  intro machine _
  unfold Ends
  rw [watch_eq]
  split
  · exact discipline.refl machine.stack
  · exact ⟨discipline.refl machine.stack, trivial⟩

/-- An action in a scope of its own, counted as one more call. -/
theorem inCall {scope : Scope} {action : Exec Flow} {next : Except Stop Flow × Scope → Exec β}
    {name callee : String} {line : Nat} {text : Unit → String} (isCall : scope.kind = .function callee)
    (inside : discipline.Gives Flow.isReturned action fun _ => True)
    (rest : ∀ result, discipline.Does (next result) fun _ => True) :
    discipline.Does (do
      enterCall name line
      Exec.trace text
      let result ← Exec.inScope scope action
      leaveCall
      next result) fun _ => True := by
  intro machine fits
  unfold Ends
  rw [Exec.inCall_eq]
  by_cases full : maxCallDepth ≤ machine.callDepth
  · rw [if_pos full]
    exact discipline.refl machine.stack
  · rw [if_neg full]
    have ends := inside (called machine scope text) (discipline.push fits scope)
    have keeps : discipline.Keeps machine.stack
        (returned (action.final (called machine scope text))).stack :=
      discipline.call fits isCall ends.leaves
    -- What follows runs with the scope taken off again.
    exact .after keeps (rest _ _ (discipline.fits fits keeps))

end Gives

end Discipline

namespace Engine.Follows

/-- A watched call of a function of the script keeps the discipline. -/
theorem watchedUser (follows : low.Follows discipline) (function : UserFunction)
    (args : List Value) (line : Nat) :
    discipline.Does (low.watchedUser discipline.watch function args line) fun _ => True := by
  unfold Engine.watchedUser
  refine (Gives.of_beside (.checkArity _ _ _ _ _)).bind fun _ _ => ?_
  refine Gives.bind (.modifyRegisters fun _ => rfl) fun _ _ => ?_
  have body : discipline.Gives Flow.isReturned (do
      discipline.watch (.body function)
      low.bindParams function line function.params args
      low.runScope) fun _ => True :=
    (Gives.watch _).bind fun _ _ => (follows.bindParams _ _ _ _).bind fun _ _ => follows.runScope
  refine .inCall rfl body fun ⟨outcome, left⟩ => ?_
  cases outcome with
  | error stop => exact .throw _
  | ok flow => exact Gives.bind (.modifyRegisters fun _ => rfl) fun _ _ => .pure trivial

omit low in
/-- A watched call of a library function keeps the discipline. -/
theorem watchedBuiltin (function : Builtin) (args : List Value) (line : Nat) :
    discipline.Does (Engine.watchedBuiltin discipline.watch function args line)
      fun _ => True := by
  unfold Engine.watchedBuiltin callBuiltinBy
  refine (Gives.of_beside (.checkArity _ _ _ _ _)).bind fun _ _ => ?_
  split
  · exact .fail _ _
  · rename_i values _
    refine Gives.bind (.modifyRegisters fun _ => rfl) fun _ _ => ?_
    refine (Gives.of_beside (.trace _)).bind fun _ _ machine fits => Ends.watch fun passed => ?_
    have keeps := discipline.serve fits (discipline.serves_library passed)
    exact Gives.of_final keeps

/-- A watched call by name keeps the discipline. -/
theorem watchedCall (follows : low.Follows discipline) (name : String) (args : List Value)
    (line : Nat) :
    discipline.Does (low.watchedCall discipline.watch name args line) fun _ => True := by
  unfold Engine.watchedCall Engine.callNamed
  refine .get fun machine => ?_
  split
  · exact .pure trivial
  · split
    · exact follows.watchedUser _ _ _
    · split
      · exact watchedBuiltin _ _ _
      · exact .fail _ _

/-- Reading a watched term keeps the discipline. -/
theorem watchedTerm (follows : low.Follows discipline) (window : Window) (pos : Nat) :
    discipline.Does (low.watchedTerm discipline.watch window pos) fun result =>
      window.Skips pos result.2 :=
  (Gives.watch _).bind fun _ _ => follows.evalTerm pos

/-- Evaluating an expression of the innermost scope keeps the discipline. -/
theorem scopeValue (follows : low.Follows discipline) :
    discipline.Does low.scopeValue fun _ => True := by
  refine (Gives.of_beside .topScope).bind fun scope _ => ?_
  refine (follows.value _ _).bind fun result _ => ?_
  exact (Gives.moveTo _).bind fun _ _ => .pure trivial

/-- Executing a flag keeps the discipline. -/
theorem flag (follows : low.Follows discipline) (token : Token) :
    discipline.Does (low.flag token) fun _ => True := by
  have rest : discipline.Does (do
        let scope ← topScope
        if scope.code.hasOperator scope.pos "=" then
          moveTo (scope.pos + 1)
          let value ← low.scopeValue
          Exec.trace fun _ => "flag: #" ++ token.lexeme ++ " = " ++ value.display
        else Exec.trace fun _ => "flag: ignoring #" ++ token.lexeme) fun _ => True := by
    refine (Gives.of_beside .topScope).bind fun scope _ => ?_
    split
    · refine (Gives.moveTo _).bind fun _ _ => follows.scopeValue.bind fun _ _ => ?_
      exact .of_beside (.trace _)
    · exact .of_beside (.trace _)
  unfold Engine.flag
  dsimp only
  split
  · exact Gives.bind (.modify fun _ => rfl) fun _ _ => rest
  · exact Gives.thenAny (.fail _ _) fun _ => rest
  · exact Gives.thenAny (.fail _ _) fun _ => rest
  · exact rest

/-- A return keeps the discipline. -/
theorem returning (follows : low.Follows discipline) :
    discipline.Gives StepResult.isReturned low.returning fun _ => True := by
  have leave : ∀ value : Value, discipline.Gives StepResult.isReturned
      (do setReturnValue value; return StepResult.leave (.returned value)) fun _ => True := by
    intro value
    have set : discipline.Gives (fun _ => true) (setReturnValue value) fun _ => True :=
      fun _ fits => ⟨discipline.returns fits value, trivial⟩
    exact set.change fun _ => rfl
  unfold Engine.returning
  refine (Gives.of_beside .atLineEnd).bind fun atEnd _ => ?_
  split
  · exact Gives.thenAny (.pure trivial) leave
  · exact follows.scopeValue.bind fun value _ => leave value

/-- An exit keeps the discipline. -/
theorem exiting (follows : low.Follows discipline) :
    discipline.Gives StepResult.isReturned low.exiting fun _ => True := by
  have finish : discipline.Gives StepResult.isReturned (do
      let code := (← get).exitCode
      Exec.trace fun _ => "exit: code " ++ toString code.toInt
      modify fun machine => { machine with exitRequested := true }
      return StepResult.leave .exit) fun _ => True :=
    .get fun machine => (Gives.of_beside (.trace _)).bind fun _ _ =>
      Gives.bind (.modify fun _ => rfl) fun _ _ => .pure trivial
  unfold Engine.exiting
  refine (Gives.of_beside .atLineEnd).bind fun atEnd _ => ?_
  split
  · exact follows.scopeValue.bind fun value _ => Gives.bind (.modify fun _ => rfl) fun _ _ => finish
  · exact finish

/-- A jump keeps the discipline. -/
theorem jumping (follows : low.Follows discipline) (token : Token) (flow : UInt32 → Flow) :
    discipline.Gives StepResult.isReturned (low.jumping token flow) fun _ => True := by
  have leave : ∀ level : Int64, discipline.Gives StepResult.isReturned
      (if level < 1 then Exec.fail (.loopLevel token.lexeme level) token.line
        else return StepResult.leave (flow level.toUInt64.toUInt32)) fun _ => True := by
    intro level
    split
    · exact .fail _ _
    · exact .pure trivial
  unfold Engine.jumping
  refine (Gives.of_beside .atLineEnd).bind fun atEnd _ => ?_
  split
  · exact Gives.thenAny (.pure trivial) leave
  · simp only [map_eq_pure_bind, bind_assoc, pure_bind]
    exact follows.scopeValue.bind fun value _ => leave value.asInt

/-- The statement that begins with a token right before the innermost scope's position. -/
theorem runToken (follows : low.Follows discipline) (token : Token) {machine : Machine}
    (fits : discipline.Fits machine.stack)
    (permits : ∀ target key,
      machine.stack.top.code.Declares (machine.stack.top.pos - 1) target key →
      discipline.Permits machine.stack target key) :
    discipline.Ends machine (low.runToken token) fun result after =>
      discipline.Yields result.isReturned machine.stack after := by
  have gives : ∀ {action : Exec StepResult},
      discipline.Gives StepResult.isReturned action (fun _ => True) →
      discipline.Ends machine action fun result after =>
        discipline.Yields result.isReturned machine.stack after :=
    fun does => does.ends fits
  have ended : discipline.Gives StepResult.isReturned (do expectLineEnd; return StepResult.goOn)
      fun _ => True := (Gives.of_beside .expectLineEnd).bind fun _ _ => .pure trivial
  have ran : discipline.Ends machine low.stepStatement fun result after =>
        discipline.Yields result.isReturned machine.stack after := by
    refine Ends.topScope (Ends.bind (Gives.moveTo _ machine fits) fun _ middle keeps _ => ?_)
    have fitsMiddle := discipline.fits fits keeps
    have ends := follows.statement fitsMiddle fun target key declares =>
      discipline.permits (permits target key declares) keeps
    refine Ends.mono (?_ : discipline.Ends middle _ fun result after =>
      discipline.Yields result.isReturned middle.stack after ∧ True) fun _ _ yields =>
        Yields.precede keeps yields.1
    refine ends.follow (fun result last _ _ keepsLast => ?_) fun result last _ away => ?_
    · have rest : discipline.Gives StepResult.isReturned (do
          moveTo result.2
          if result.1 = .normal then
            expectLineEnd
            return StepResult.goOn
          else return .leave result.1) fun _ => True := by
        refine (Gives.moveTo _).bind fun _ _ => ?_
        split
        · exact ended
        · exact .pure trivial
      exact rest last (discipline.fits fitsMiddle keepsLast)
    · obtain ⟨flow, pos⟩ := result
      cases flow with
      | returned value =>
        exact ⟨.leave (.returned value), _, rfl, rfl, discipline.move last.stack pos, trivial⟩
      | _ => cases away
  unfold Engine.runToken
  split
  case h_1 | h_2 => exact gives (.pure trivial)
  case h_3 => exact gives follows.returning
  case h_4 => exact gives follows.exiting
  case h_5 | h_6 => exact gives (follows.jumping _ _)
  case h_7 => exact gives (.pure trivial)
  case h_8 => exact gives ((follows.flag _).bind fun _ _ => ended)
  case h_9 =>
    have skipped : discipline.Does skipFunction fun _ => True :=
      (Gives.of_beside .topScope).bind fun _ _ => .moveTo _
    exact gives (skipped.bind fun _ _ => ended)
  case h_22 | h_23 | h_24 => exact gives (.fail _ _)
  all_goals exact ran

/-- The next statement, which is not forbidden. -/
theorem step (follows : low.Follows discipline) {machine : Machine}
    (fits : discipline.Fits machine.stack)
    (passed : discipline.stops .statement machine = false) :
    discipline.Ends machine low.step fun result after =>
      discipline.Yields result.isReturned machine.stack after := by
  unfold Engine.step
  refine Ends.topScope ?_
  split
  · exact discipline.refl machine.stack
  · rename_i token _
    let moved : Stack := machine.stack.modifyTop fun scope =>
      { scope with pos := machine.stack.top.pos + 1 }
    have keeps : discipline.Keeps machine.stack moved := discipline.move _ _
    -- Whatever line the machine is at, the token is the one that the watcher has let pass.
    have ran : ∀ state : Machine, state.stack = moved →
        discipline.Reached machine.stack
          (fun result after => discipline.Yields result.isReturned machine.stack after)
          (low.runToken token state) := by
      intro state same
      refine Reached.precede keeps ?_
      rw [← same]
      refine follows.runToken token ?_ fun target key declares => ?_
      · rw [same]
        exact discipline.fits fits keeps
      · rw [same] at declares ⊢
        refine discipline.permits (discipline.permits_statement fits passed ?_) keeps
        simpa only [moved, Stack.top_modifyTop, Nat.add_sub_cancel] using declares
    by_cases numbered : 0 < token.line
    · simp only [numbered, if_true]
      exact ran { machine with stack := moved, line := token.line } rfl
    · simp only [numbered, if_false]
      exact ran { machine with stack := moved } rfl

/-- Statements begin after the watcher has let them pass. -/
theorem watchedStatements (follows : low.Follows discipline) (fuel : Nat) :
    discipline.Gives Flow.isReturned (low.watchedStatements discipline.watch fuel)
      fun _ => True := by
  induction fuel with
  | zero => exact .starved
  | succ fuel ih =>
    unfold Engine.watchedStatements
    have looked : discipline.Does isSuspended fun _ => True :=
      Gives.bind (.modify fun machine => by split <;> rfl) fun _ _ => .get fun _ => .pure trivial
    refine looked.bind fun suspended _ => ?_
    split
    · exact ih
    · refine .get fun machine => ?_
      split
      · exact .pure trivial
      · have stepped : discipline.Gives StepResult.isReturned
            (do discipline.watch .statement; low.step) fun _ => True :=
          fun machine fits => Ends.mono (Ends.watch fun passed => follows.step fits passed)
            fun _ _ yields => ⟨yields, trivial⟩
        rw [← bind_assoc]
        refine stepped.follow (fun result _ => ?_) fun result middle away => ?_
        · split
          · exact ih
          · exact .pure trivial
          · refine (Gives.of_beside .topScope).bind fun scope _ => ?_
            split
            · exact .get fun _ => .fail _ _
            · exact .pure trivial
        · obtain _ | _ | flow := result
          · cases away
          · cases away
          · obtain _ | value := flow
            · cases away
            · refine ⟨.returned value, middle, ?_, rfl, discipline.refl middle.stack⟩
              show (if middle.stack.top.isFrame && false then _ else _ : Exec Flow) middle = _
              rw [Bool.and_false]
              rfl
            all_goals cases away

end Engine.Follows

/-- Stopped where something forbidden begins, the engine of every fuel keeps the discipline. -/
theorem watchedEngine_follows (discipline : Discipline) (fuel : Nat) :
    (watchedEngine discipline.watch fuel).Follows discipline := by
  induction fuel with
  | zero =>
    exact ⟨fun _ _ => .starved, fun _ _ => .starved, fun _ _ _ => .starved, .starved⟩
  | succ fuel ih =>
    exact ⟨ih.watchedTerm, fun window pos => ih.evalValue pos, ih.watchedCall,
      ih.watchedStatements fuel⟩

/-- A run that comes past nothing forbidden keeps the discipline. -/
theorem Discipline.Gives.unwatched {leaving : α → Bool} {fuel : Nat} {machine : Machine}
    (ask : Engine → Exec α)
    (gives : discipline.Gives leaving (ask (watchedEngine discipline.watch fuel)) fun _ => True)
    (fits : discipline.Fits machine.stack)
    (same : ask (watchedEngine discipline.watch fuel) machine = ask (engine fuel) machine) :
    discipline.Ends machine (ask (engine fuel)) fun value after =>
      discipline.Yields (leaving value) machine.stack after := by
  have ends := gives.ends fits
  unfold Discipline.Ends at *
  rw [← same]
  exact ends

end

/-!
## Disciplines about one scope

Many disciplines are about one scope of the stack, which is found by its height. They follow from
what each kind of change does to a scope of that height.
-/

namespace Stack

variable {stack other before after : Stack}

/-- Stacks with the same kinds have the same depth. -/
theorem depth_of_kinds (same : other.kinds = stack.kinds) : other.depth = stack.depth := by
  have lengths := congrArg List.length same
  simpa [kinds, scopes, depth] using lengths

/-- Stacks with the same kinds have innermost scopes of the same kind. -/
theorem top_kind_of_kinds (same : other.kinds = stack.kinds) : other.top.kind = stack.top.kind := by
  have first : ∀ stack : Stack, stack.kinds.head? = some stack.top.kind := by
    rintro ⟨_ | ⟨scope, rest⟩, root⟩ <;> rfl
  have both := congrArg List.head? same
  rw [first, first] at both
  exact Option.some.inj both

/-- Stacks with the same kinds have their frames at the same height. -/
theorem frameHeight_of_kinds (same : other.kinds = stack.kinds) :
    other.frameHeight = stack.frameHeight := by
  have depths := depth_of_kinds same
  have lengths : other.inner.length = stack.inner.length := by simpa [depth] using depths
  rw [frameHeight, frameHeight, heightOf, heightOf, framePosition_of_kinds same, lengths]

/-- A block has the frame of what surrounds it; the scope of a call is a frame. -/
theorem frameHeight_push (stack : Stack) (scope : Scope) :
    (stack.push scope).frameHeight = if scope.isFrame then stack.depth else stack.frameHeight := by
  cases frame : scope.isFrame <;>
    simp [frameHeight, heightOf, framePosition, push, List.findIdx_cons, frame, depth]

/-- A change that keeps the kind of a scope keeps the kinds of the stack. -/
theorem kinds_modifyAt (stack : Stack) (position : Nat) {change : Scope → Scope}
    (stays : ∀ scope, (change scope).kind = scope.kind) :
    (stack.modifyAt position change).kinds = stack.kinds :=
  map_scopes_modifyAt _ _ _ _ stays

/-- Leaving a scope that was entered gives the kinds from before. -/
theorem kinds_pop {scope : Scope} (same : after.kinds = (stack.push scope).kinds) :
    after.pop.kinds = stack.kinds := by
  obtain ⟨_ | ⟨left, rest⟩, root⟩ := after
  · have depths := depth_of_kinds same
    simp [depth, push] at depths
  · simp only [kinds, scopes, push, List.cons_append, List.map_cons, List.cons.injEq] at same
    exact same.2

/-- The scopes belong to the same, and the one at a height is kept. -/
structure KeepsAt (height : Nat) (Keeps : Scope → Scope → Prop) (before after : Stack) : Prop where
  /-- The scopes belong to the same. -/
  kinds : after.kinds = before.kinds
  /-- The scope at the height is kept. -/
  keeps : ∀ scope later, before.atHeight? height = some scope →
    after.atHeight? height = some later → Keeps scope later

namespace KeepsAt

variable {height : Nat} {Keeps : Scope → Scope → Prop}

/-- A stack keeps at every height what each scope keeps of itself. -/
theorem refl (reflexive : ∀ scope, Keeps scope scope) (stack : Stack) :
    KeepsAt height Keeps stack stack := by
  refine ⟨rfl, fun scope later found foundLater => ?_⟩
  rw [found] at foundLater
  cases foundLater
  exact reflexive scope

/-- Keeping at a height is transitive when keeping is. -/
theorem trans {first second third : Stack}
    (transitive : ∀ {one two three}, Keeps one two → Keeps two three → Keeps one three)
    (earlier : KeepsAt height Keeps first second) (later : KeepsAt height Keeps second third) :
    KeepsAt height Keeps first third := by
  refine ⟨later.kinds.trans earlier.kinds, fun scope last found foundLast => ?_⟩
  have inside : height < second.depth := by
    rw [depth_of_kinds earlier.kinds]
    exact atHeight?_lt found
  obtain ⟨middle, foundMiddle⟩ := Option.isSome_iff_exists.mp (atHeight?_isSome.mpr inside)
  exact transitive (earlier.keeps scope middle found foundMiddle)
    (later.keeps middle last foundMiddle foundLast)

/-- A scope is changed; if it is the one at the height, it is kept. -/
theorem modifyAt (reflexive : ∀ scope, Keeps scope scope) {position : Nat} {change : Scope → Scope}
    (stays : ∀ scope, (change scope).kind = scope.kind)
    (keeps : stack.heightOf position = height →
      Keeps (stack.scopeAt position) (change (stack.scopeAt position))) :
    KeepsAt height Keeps stack (stack.modifyAt position change) := by
  refine ⟨kinds_modifyAt _ _ stays, fun scope later found foundLater => ?_⟩
  rw [atHeight?_modifyAt] at foundLater
  split at foundLater
  · rename_i same
    subst same
    rw [stack.scopeAt_eq] at found foundLater
    cases found
    cases foundLater
    exact keeps rfl
  · rw [found] at foundLater
    cases foundLater
    exact reflexive scope

/-- A scope above the one at the height is taken off. -/
theorem pop {scope : Scope} (below : height < stack.depth)
    (inside : KeepsAt height Keeps (stack.push scope) after) :
    KeepsAt height Keeps stack after.pop := by
  have deep : after.depth = stack.depth + 1 := depth_of_kinds inside.kinds
  refine ⟨kinds_pop inside.kinds, fun scope later found foundLater => ?_⟩
  rw [atHeight?_pop _ (by omega)] at foundLater
  exact inside.keeps scope later ((atHeight?_push _ _ below).trans found) foundLater

/-- What is seen of all scopes stays. -/
theorem of_view {View : Type} (view : Scope → View) (kinds : after.kinds = before.kinds)
    (same : after.scopes.map view = before.scopes.map view)
    (enough : ∀ {scope later}, view later = view scope → Keeps scope later) :
    KeepsAt height Keeps before after := by
  refine ⟨kinds, fun scope later found foundLater => enough ?_⟩
  have seen : ∀ stack : Stack, (stack.atHeight? height).map view =
      (stack.scopes.map view).reverse[height]? := by
    intro stack
    rw [atHeight?, ← List.getElem?_map, scopes, ← List.map_reverse, List.reverse_append]
    rfl
  have both := (seen after).trans ((congrArg (·.reverse[height]?) same).trans (seen before).symm)
  rw [found, foundLater] at both
  exact Option.some.inj both

end KeepsAt

end Stack

end LineScript
