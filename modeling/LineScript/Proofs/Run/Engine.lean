import LineScript.Interpreter.Run
import LineScript.Proofs.Outcome
import LineScript.Proofs.Run.Control

/-!
# Whole runs keep to a guard

A statement at a place of the guard keeps to the guard, and the position after it is a place of the
guard again. By induction on the fuel every engine obeys the guard.
-/

namespace LineScript

open Machine

variable {guard : Guard}

/-- Control leaves the scope. -/
def StepResult.Leaves (result : StepResult) : Prop :=
  ∃ flow, result = .leave flow ∧ flow ≠ .normal

namespace Guard

/-- The innermost scope of a machine stands at a place of the guard. -/
def Stands (guard : Guard) (machine : Machine) : Prop :=
  guard.place machine.stack.top.code machine.stack.top.pos

namespace Ends

variable {α β : Type} {before : Machine}

/-- Moving the cursor keeps to the guard. -/
theorem moveTo (pos : Nat) : guard.Ends before (moveTo pos) fun _ after =>
    after.stack.top = { before.stack.top with pos } :=
  ⟨.move before pos, Stack.top_modifyTop _ _⟩

/-- An action that looks at the innermost scope first. -/
theorem topScope {next : Scope → Exec β} {post : β → Machine → Prop}
    (rest : guard.Ends before (next before.stack.top) post) :
    guard.Ends before (LineScript.topScope >>= next) post := rest

/-- What keeps to the guard ends within it on a machine that runs its program. -/
theorem of_does {action : Exec α} {post : α → Prop} (does : guard.Does action post)
    (same : before.program = guard.program) :
    guard.Ends before action fun value after =>
      after.stack.top.place = before.stack.top.place ∧ post value :=
  (does.ends same).mono fun _ _ _ ⟨stays, holds⟩ => ⟨Stack.top_place_of_places stays, holds⟩

/-- Expecting the end of a line keeps to the guard. -/
theorem expectLineEnd : guard.Ends before expectLineEnd fun _ after =>
    after = before ∧ before.stack.top.code.endsLine before.stack.top.pos = true := by
  unfold LineScript.expectLineEnd Scope.current?
  refine topScope ?_
  split
  · rename_i token found
    split
    · rename_i ends
      exact .pure ⟨rfl, by simp only [Window.endsLine, found, ends]⟩
    · exact .failFree rfl
  · rename_i found
    exact .pure ⟨rfl, by simp only [Window.endsLine, found]⟩

/-- Another party may suspend the machine, but it moves no scope. -/
theorem isSuspended :
    guard.Ends before Engine.isSuspended fun _ after => after.stack = before.stack := by
  unfold Engine.isSuspended
  refine .bind (.modify ?_) fun _ after _ changed => .get (.pure ?_)
  · split
    · exact .refl before
    · exact .aside rfl rfl rfl ⟨rfl, rfl⟩
  · rw [changed]
    split <;> rfl

/-- Skipping a function keeps to the guard. -/
theorem skipFunction : guard.Ends before Engine.skipFunction fun _ _ => True := by
  unfold Engine.skipFunction
  exact .topScope (Guard.Ends.mono (.moveTo _) fun _ _ _ _ => trivial)

/-- Looking for the end of a line keeps to the guard. -/
theorem atLineEnd : guard.Ends before atLineEnd fun _ after => after = before :=
  ⟨.refl before, rfl⟩

end Ends

end Guard

namespace Engine.Obeys

variable {low : Engine} (obeys : low.Obeys guard) {machine : Machine}
include obeys

/-- Evaluating at the innermost scope's position moves it over plain tokens. -/
theorem scopeValue (same : machine.program = guard.program)
    (inside : guard.block machine.stack.top.code.tokens) :
    guard.Ends machine low.scopeValue fun _ after =>
      machine.stack.top.code.Passes machine.stack.top.pos after.stack.top.pos := by
  unfold Engine.scopeValue
  refine .topScope (.bind (.of_does (obeys.value _ _ inside) same) ?_)
  intro ⟨value, pos⟩ middle evolves ⟨_, read⟩
  refine .bind (.moveTo pos) fun _ after moved top => .pure ?_
  rw [top]
  exact read

/-- A return keeps to the guard. -/
theorem returning (same : machine.program = guard.program)
    (inside : guard.block machine.stack.top.code.tokens) :
    guard.Ends machine low.returning fun result _ => result.Leaves := by
  have leave : ∀ (value : Value) (after : Machine), after.program = guard.program →
      guard.Ends after (do setReturnValue value; return StepResult.leave (.returned value))
        fun result _ => result.Leaves := fun value after sameAfter =>
    .bind (.of_does (.of_tame (tame_modifyRegisters _)) sameAfter) fun _ _ _ _ => .pure ⟨_, rfl, nofun⟩
  unfold Engine.returning
  refine .bind .atLineEnd fun atEnd middle evolves unchanged => ?_
  subst unchanged
  dsimp only
  split
  · exact leave _ _ same
  · exact .bind (obeys.scopeValue same inside) fun value after evolves _ =>
      leave value after (evolves.program_eq.trans same)

/-- An exit keeps to the guard. -/
theorem exiting (same : machine.program = guard.program)
    (inside : guard.block machine.stack.top.code.tokens) :
    guard.Ends machine low.exiting fun result _ => result.Leaves := by
  have leave : ∀ after : Machine, after.program = guard.program →
      guard.Ends after (do
        let code := (← get).exitCode
        Exec.trace fun _ => "exit: code " ++ toString code.toInt
        modify fun machine => { machine with exitRequested := true }
        return StepResult.leave .exit) fun result _ => result.Leaves := fun after sameAfter =>
    .get (.bind (.of_does (.trace _) sameAfter) fun _ _ _ _ =>
      .bind (.modify (.aside rfl rfl rfl ⟨rfl, rfl⟩)) fun _ _ _ _ => .pure ⟨_, rfl, nofun⟩)
  unfold Engine.exiting
  refine .bind .atLineEnd fun atEnd middle evolves unchanged => ?_
  subst unchanged
  dsimp only
  split
  · refine .bind (obeys.scopeValue same inside) fun value after evolves _ => ?_
    refine .bind (.modify (.aside rfl rfl rfl ⟨rfl, rfl⟩)) fun _ last evolvesLast _ => ?_
    exact leave last (evolvesLast.program_eq.trans (evolves.program_eq.trans same))
  · exact leave _ same

/-- A jump keeps to the guard. -/
theorem jumping (same : machine.program = guard.program)
    (inside : guard.block machine.stack.top.code.tokens) (token : Token) {flow : UInt32 → Flow}
    (jumps : ∀ levels, flow levels ≠ .normal) :
    guard.Ends machine (low.jumping token flow) fun result _ => result.Leaves := by
  have leave : ∀ (level : Int64) (after : Machine),
      guard.Ends after (if level < 1 then Exec.fail (.loopLevel token.lexeme level) token.line
        else return StepResult.leave (flow level.toUInt64.toUInt32))
        fun result _ => result.Leaves := by
    intro level after
    split
    · exact .failFree rfl
    · exact .pure ⟨_, rfl, jumps _⟩
  unfold Engine.jumping
  refine .bind .atLineEnd fun atEnd middle evolves unchanged => ?_
  subst unchanged
  dsimp only
  split
  · exact leave 1 _
  · simp only [map_eq_pure_bind, bind_assoc]
    exact .bind (obeys.scopeValue same inside) fun value after _ _ => leave _ _

/-- A flag moves the innermost scope over plain tokens. -/
theorem flag (same : machine.program = guard.program)
    (inside : guard.block machine.stack.top.code.tokens) (token : Token) :
    guard.Ends machine (low.flag token) fun _ after =>
      machine.stack.top.code.Passes machine.stack.top.pos after.stack.top.pos := by
  have rest : ∀ before : Machine, before.program = guard.program →
      before.stack = machine.stack →
      guard.Ends before (do
        let scope ← topScope
        if scope.code.hasOperator scope.pos "=" then
          moveTo (scope.pos + 1)
          let value ← low.scopeValue
          Exec.trace fun _ => "flag: #" ++ token.lexeme ++ " = " ++ value.display
        else Exec.trace fun _ => "flag: ignoring #" ++ token.lexeme) fun _ after =>
        machine.stack.top.code.Passes machine.stack.top.pos after.stack.top.pos := by
    intro before sameBefore unchanged
    refine .topScope ?_
    rw [unchanged]
    split
    · rename_i equals
      refine .bind (.moveTo _) fun _ middle evolves top => ?_
      rw [unchanged] at top
      have sameMiddle := evolves.program_eq.trans sameBefore
      have insideMiddle : guard.block middle.stack.top.code.tokens := by rw [top]; exact inside
      refine .bind (obeys.scopeValue sameMiddle insideMiddle) fun value last evolvesLast read => ?_
      rw [top] at read
      refine Guard.Ends.mono (.of_does (.trace _) (evolvesLast.program_eq.trans sameMiddle)) ?_
      intro _ after _ ⟨stays, _⟩
      have pos : after.stack.top.pos = last.stack.top.pos := congrArg (·.2.2) stays
      rw [pos]
      exact (Window.passes_of_hasOperator equals).trans read
    · refine Guard.Ends.mono (.of_does (.trace _) sameBefore) ?_
      intro _ after _ ⟨stays, _⟩
      have pos : after.stack.top.pos = machine.stack.top.pos := by
        rw [← unchanged]
        exact congrArg (·.2.2) stays
      rw [pos]
      exact .refl _ _
  unfold Engine.flag
  dsimp only
  split
  · exact .bind (.modify (.aside rfl rfl rfl ⟨rfl, rfl⟩)) fun _ after evolves changed =>
      rest after (evolves.program_eq.trans same) (by rw [changed])
  · exact .bind (.failFree rfl) fun _ _ _ => False.elim
  · exact .bind (.failFree rfl) fun _ _ _ => False.elim
  · exact rest machine same rfl

omit obeys in
/-- A complete statement is followed by a line end. -/
theorem lineEnd {window : Window} {good : Nat → Prop} (code : machine.stack.top.code = window)
    (reached : good machine.stack.top.pos) (inLine : Prop) :
    guard.Ends machine (do expectLineEnd; return StepResult.goOn) fun result after =>
      result.Leaves ∨ result = .goOn ∧ good after.stack.top.pos ∧
        (inLine → window.endsLine after.stack.top.pos = true) := by
  refine .bind .expectLineEnd fun _ after _ held => .pure (.inr ⟨rfl, ?_⟩)
  obtain ⟨unchanged, ends⟩ := held
  rw [unchanged]
  exact ⟨reached, fun _ => code ▸ ends⟩

omit obeys in
/-- A statement that is not about control leaves the scope, or the scope comes to the end of its line. -/
theorem stepStatement {window : Window} {pos : Nat} {good : Nat → Prop}
    (same : machine.program = guard.program) (code : machine.stack.top.code = window)
    (behind : machine.stack.top.pos = pos + 1)
    (statement : guard.Does (low.statement window pos) fun result => good result.2) (inLine : Prop) :
    guard.Ends machine low.stepStatement fun result after =>
      result.Leaves ∨ result = .goOn ∧ good after.stack.top.pos ∧
        (inLine → window.endsLine after.stack.top.pos = true) := by
  refine .topScope ?_
  rw [behind, Nat.add_sub_cancel, code]
  refine .bind (.moveTo pos) fun _ first evolves _ => ?_
  refine .bind (.of_does statement (evolves.program_eq.trans same)) ?_
  rintro ⟨flow, last⟩ second evolvesSecond ⟨_, reached⟩
  refine .bind (.moveTo last) fun _ third evolvesThird top => ?_
  split
  · refine lineEnd ?_ ?_ inLine
    · rw [evolvesThird.top_code, evolvesSecond.top_code, evolves.top_code, code]
    · rw [top]
      exact reached
  · rename_i leaves
    exact .pure (.inl ⟨flow, rfl, leaves⟩)

/-- A statement whose first token stands before the innermost scope's position. Where it goes on,
the scope has come to a position that the parts of the statement lead to. -/
theorem runToken {window : Window} {pos : Nat} {token : Token} {good : Nat → Prop}
    (same : machine.program = guard.program) (code : machine.stack.top.code = window)
    (behind : machine.stack.top.pos = pos + 1) (block : guard.block window.tokens)
    (found : window.token? pos = some token)
    (statement : guard.Does (low.statement window pos) fun result => good result.2)
    (line : token.endsLine → good (pos + 1))
    (passed : ∀ {later}, window.Passes pos later → good later)
    (skipped : token.kind = .kwFunc → ∀ later, good later) :
    guard.Ends machine (low.runToken token) fun result after =>
      result.Leaves ∨ result = .goOn ∧ good after.stack.top.pos ∧
        (token.endsLine = false → window.endsLine after.stack.top.pos = true) := by
  subst code
  have left : ∀ {action : Exec StepResult} {post : StepResult → Machine → Prop},
      guard.Ends machine action (fun result _ => result.Leaves) →
      guard.Ends machine action fun result after => result.Leaves ∨ post result after :=
    fun ends => ends.mono fun _ _ _ leaves => .inl leaves
  unfold Engine.runToken
  split
  case h_1 kind | h_2 kind =>
    have ends : token.endsLine = true := by simp [Token.endsLine, kind]
    refine .pure (.inr ⟨rfl, ?_, by simp [ends]⟩)
    rw [behind]
    exact line ends
  case h_3 => exact left (obeys.returning same block)
  case h_4 => exact left (obeys.exiting same block)
  case h_5 | h_6 => exact left (obeys.jumping same block _ (by simp))
  case h_7 => exact .pure (.inl ⟨_, rfl, by simp⟩)
  case h_8 kind =>
    refine .bind (obeys.flag same block token) fun _ middle evolves read => ?_
    rw [behind] at read
    exact lineEnd evolves.top_code
      (passed ((Window.Passes.one found (by rw [kind]; rfl)).trans read)) _
  case h_9 kind =>
    exact .bind .skipFunction fun _ middle evolves _ =>
      lineEnd evolves.top_code (skipped kind _) _
  case h_22 => exact .failFree rfl
  case h_23 => exact .failFree rfl
  case h_24 => exact .failFree rfl
  all_goals exact stepStatement same rfl behind statement _

/-- The next statement of a scope, from its first token on. -/
theorem step_token {window : Window} {pos : Nat} {token : Token} {good : Nat → Prop}
    (same : machine.program = guard.program) (code : machine.stack.top.code = window)
    (stands : machine.stack.top.pos = pos) (block : guard.block window.tokens)
    (found : window.token? pos = some token)
    (statement : guard.Does (low.statement window pos) fun result => good result.2)
    (line : token.endsLine → good (pos + 1))
    (passed : ∀ {later}, window.Passes pos later → good later)
    (skipped : token.kind = .kwFunc → ∀ later, good later) :
    guard.Ends machine low.step fun result after =>
      result.Leaves ∨ result = .goOn ∧ good after.stack.top.pos ∧
        (token.endsLine = false → window.endsLine after.stack.top.pos = true) := by
  have current : machine.stack.top.current? = some token := by
    rw [Scope.current?, code, stands]
    exact found
  unfold Engine.step
  refine .topScope ?_
  rw [current, stands]
  refine .bind (.moveTo (pos + 1)) fun _ middle evolves top => ?_
  have sameMiddle := evolves.program_eq.trans same
  have run : ∀ after : Machine, after.program = guard.program → after.stack = middle.stack →
      guard.Ends after (low.runToken token) fun result last =>
        result.Leaves ∨ result = .goOn ∧ good last.stack.top.pos ∧
          (token.endsLine = false → window.endsLine last.stack.top.pos = true) := by
    intro after sameAfter unchanged
    refine obeys.runToken sameAfter ?_ ?_ block found statement line passed skipped
    · rw [unchanged, top]
      exact code
    · rw [unchanged, top]
  dsimp only
  split
  · exact .bind (.modify (.aside rfl rfl rfl ⟨rfl, rfl⟩)) fun _ after evolvesAfter changed =>
      run after (evolvesAfter.program_eq.trans sameMiddle) (by rw [changed])
  · exact run middle sameMiddle rfl

/-- A simple statement goes on from the end of its line, reached over plain tokens. -/
theorem step_plain {window : Window} {pos : Nat} {token : Token}
    (same : machine.program = guard.program) (code : machine.stack.top.code = window)
    (stands : machine.stack.top.pos = pos) (block : guard.block window.tokens)
    (found : window.token? pos = some token) (plain : token.kind.isPlain) :
    guard.Ends machine low.step fun result after =>
      result.Leaves ∨ result = .goOn ∧ window.Passes pos after.stack.top.pos ∧
        window.endsLine after.stack.top.pos = true := by
  have inLine := Token.endsLine_of_isPlain plain
  refine Guard.Ends.mono (obeys.step_token same code stands block found
    (obeys.statement_plain block found plain) (by simp [inLine]) (fun passes => passes) ?_) ?_
  · intro kind
    rw [kind] at plain
    cases plain
  · exact fun _ _ _ => Or.imp_right fun ⟨goes, read, ends⟩ => ⟨goes, read, ends inLine⟩

/-- The next statement of a scope that stands at a place of the guard. -/
theorem step (same : machine.program = guard.program) (stands : guard.Stands machine) :
    guard.Ends machine low.step fun result after => result = .goOn → guard.Stands after := by
  cases found : machine.stack.top.current? with
  | none =>
    unfold Engine.step
    refine .topScope ?_
    rw [found]
    exact .pure nofun
  | some token =>
    refine Guard.Ends.mono (obeys.step_token same rfl rfl (guard.block_of_place stands) found
      (obeys.statement stands) (guard.place_line stands found) (guard.place_pass stands)
      fun kind _ => guard.place_skip stands found kind) ?_
    rintro result after evolves (⟨flow, rfl, _⟩ | ⟨_, place, _⟩) goes
    · cases goes
    · unfold Guard.Stands
      rw [evolves.top_code]
      exact place

/-- Running statements keeps to the guard. -/
theorem runStatements (fuel : Nat) (same : machine.program = guard.program)
    (stands : guard.Stands machine) :
    guard.Ends machine (low.runStatements fuel) fun _ _ => True := by
  induction fuel generalizing machine with
  | zero => exact ⟨.refl machine, trivial⟩
  | succ fuel ih =>
    rw [Engine.runStatements_succ]
    refine .bind .isSuspended fun suspended middle evolves unchanged => ?_
    have sameMiddle := evolves.program_eq.trans same
    have standsMiddle : guard.Stands middle := by
      unfold Guard.Stands
      rw [unchanged]
      exact stands
    split
    · exact ih sameMiddle standsMiddle
    · refine .get ?_
      split
      · exact .pure trivial
      · refine .bind (obeys.step sameMiddle standsMiddle) fun result after evolvesAfter next => ?_
        split
        · exact ih (evolvesAfter.program_eq.trans sameMiddle) (next rfl)
        · exact .pure trivial
        · refine .topScope ?_
          split
          · exact .get (.failFree rfl)
          · exact .pure trivial

end Engine.Obeys

/-- Every engine obeys every guard. -/
theorem engine_obeys (guard : Guard) (fuel : Nat) : (engine fuel).Obeys guard := by
  induction fuel with
  | zero =>
    exact ⟨fun _ _ _ => .starved, fun _ _ _ => .starved, fun _ _ _ => .starved,
      fun machine _ _ => ⟨.refl machine, trivial⟩⟩
  | succ fuel ih =>
    exact
      { term := fun window pos inside => ih.evalTerm inside pos
        value := fun window pos inside => ih.evalValue inside pos
        call := fun name args line => ih.callFunction name args line
        runScope := fun machine same stands => ih.runStatements fuel same stands }

end LineScript
