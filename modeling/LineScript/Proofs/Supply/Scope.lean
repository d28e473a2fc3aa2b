import LineScript.Proofs.Supply.Control

/-!
# Enough fuel for scopes and calls

A statement that does not leave its scope moves the scope forward, so as many rounds as there are
tokens left are enough for its statements. A call takes one of the calls that are supplied; where
none is left it is refused.
-/

namespace LineScript

open Machine

variable {supply : Supply} {low : Engine}

/-- The supply inside a call. -/
def Supply.less (supply : Supply) : Supply := { supply with calls := supply.calls - 1 }

/-- The engine has enough fuel to run a window from its start. -/
def Engine.Enters (low : Engine) (supply : Supply) (code : Window) : Prop :=
  ∀ machine : Machine, supply.Fits machine → machine.stack.top.code = code →
    machine.stack.top.pos = code.start → Supply.Ends machine low.runScope fun _ _ => True

/-- What can be run from its start can be run as a block. -/
theorem Engine.Enters.runs {code : Window} (enters : low.Enters supply code) :
    low.Runs supply code := by
  intro bindings machine fits
  have ends := enters { machine with stack := machine.stack.push (Engine.blockScope code bindings) }
    ⟨fits.program_eq, fits.calls, ⟨fits.awake.1, fits.awake.2⟩⟩ rfl rfl
  unfold Supply.Ends at *
  rw [Engine.runBlock_eq]
  cases outcome : low.runScope
      { machine with stack := machine.stack.push (Engine.blockScope code bindings) } with
  | error stop after =>
    rw [outcome] at ends
    exact ends
  | ok flow after =>
    rw [outcome] at ends
    obtain ⟨evolves, awake, _⟩ := ends
    exact ⟨.block _ rfl evolves, ⟨awake.1, awake.2⟩,
      Stack.places_pop_of_outline evolves.outline_eq, trivial⟩

namespace Supply.Ends

variable {machine : Machine}

/-- Looking for the end of a line does not run out of fuel. -/
theorem atLineEnd (awake : machine.Awake) :
    Ends machine LineScript.atLineEnd fun _ after => after = machine := .pure awake rfl

/-- Expecting the end of a line does not run out of fuel. -/
theorem expectLineEnd (awake : machine.Awake) :
    Ends machine LineScript.expectLineEnd fun _ after =>
      after = machine ∧ machine.stack.top.code.endsLine machine.stack.top.pos = true := by
  unfold LineScript.expectLineEnd Scope.current?
  refine topScope ?_
  split
  · rename_i token found
    split
    · rename_i ends
      exact .pure awake ⟨rfl, by simp only [Window.endsLine, found, ends]⟩
    · exact .fail _ _
  · rename_i found
    exact .pure awake ⟨rfl, by simp only [Window.endsLine, found]⟩

/-- A function is skipped towards the end of the scope. -/
theorem skipFunction (awake : machine.Awake)
    (inside : machine.stack.top.pos ≤ machine.stack.top.code.stop) :
    Ends machine Engine.skipFunction fun _ after =>
      machine.stack.top.pos ≤ after.stack.top.pos := by
  have past := Layout.le_seek (fun token => token.kind == .kwEndFunc) machine.stack.top.code.tokens
    machine.stack.top.pos machine.stack.top.code.stop
  unfold Engine.skipFunction
  refine topScope ((moveTo awake _).mono fun _ after _ top => ?_)
  rw [top]
  exact Nat.le_min.mpr ⟨Nat.le_succ_of_le past, inside⟩

end Supply.Ends

namespace Engine.Reads

variable {machine : Machine} (fits : supply.Fits machine)
  (reads : low.Reads supply machine.stack.top.code machine.stack.top.pos)
include fits reads

/-- Evaluating at the innermost scope's position moves it forward. -/
theorem scopeValue : Supply.Ends machine low.scopeValue fun _ after =>
    machine.stack.top.pos ≤ after.stack.top.pos := by
  unfold Engine.scopeValue
  refine .topScope (((reads.value _ (Nat.le_refl _)).ends fits).bind
    fun result middle _ awake held => ?_)
  refine (Supply.Ends.moveTo awake _).bind fun _ after _ awakeAfter top => .pure awakeAfter ?_
  rw [top]
  exact held.2.le

/-- A return does not run out of fuel. -/
theorem returning : Supply.Ends machine low.returning fun result _ => result ≠ .goOn := by
  have leave : ∀ (value : Value) (after : Machine), supply.Fits after →
      Supply.Ends after (do setReturnValue value; return StepResult.leave (.returned value))
        fun result _ => result ≠ .goOn := fun value after fitsAfter =>
    ((Supply.Does.modifyRegisters _).ends fitsAfter).bind fun _ _ _ awake _ => .pure awake nofun
  unfold Engine.returning
  refine (Supply.Ends.atLineEnd fits.awake).bind fun atEnd middle _ _ unchanged => ?_
  subst unchanged
  dsimp only
  split
  · exact leave _ _ fits
  · exact (reads.scopeValue fits).bind fun value after evolves awake _ =>
      leave value after (fits.evolves evolves awake)

/-- An exit does not run out of fuel. -/
theorem exiting : Supply.Ends machine low.exiting fun result _ => result ≠ .goOn := by
  have leave : ∀ after : Machine, supply.Fits after → Supply.Ends after (do
      let code := (← get).exitCode
      Exec.trace fun _ => "exit: code " ++ toString code.toInt
      modify fun machine => { machine with exitRequested := true }
      return StepResult.leave .exit) fun result _ => result ≠ .goOn := fun after fitsAfter =>
    .get (((Supply.Does.trace _).ends fitsAfter).bind fun _ _ _ awake _ =>
      (Supply.Ends.modify (.aside rfl rfl rfl ⟨rfl, rfl⟩) ⟨awake.1, awake.2⟩).bind
        fun _ _ _ awakeLast _ => .pure awakeLast nofun)
  unfold Engine.exiting
  refine (Supply.Ends.atLineEnd fits.awake).bind fun atEnd middle _ _ unchanged => ?_
  subst unchanged
  dsimp only
  split
  · refine (reads.scopeValue fits).bind fun value after evolves awake _ => ?_
    refine (Supply.Ends.modify (.aside rfl rfl rfl ⟨rfl, rfl⟩) ⟨awake.1, awake.2⟩).bind
      fun _ last evolvesLast awakeLast _ => ?_
    exact leave last ((fits.evolves evolves awake).evolves evolvesLast awakeLast)
  · exact leave _ fits

/-- A jump does not run out of fuel. -/
theorem jumping (token : Token) (flow : UInt32 → Flow) :
    Supply.Ends machine (low.jumping token flow) fun result _ => result ≠ .goOn := by
  have leave : ∀ (level : Int64) (after : Machine), after.Awake → Supply.Ends after
      (if level < 1 then Exec.fail (.loopLevel token.lexeme level) token.line
        else return StepResult.leave (flow level.toUInt64.toUInt32))
      fun result _ => result ≠ .goOn := by
    intro level after awake
    split
    · exact .fail _ _
    · exact .pure awake nofun
  unfold Engine.jumping
  refine (Supply.Ends.atLineEnd fits.awake).bind fun atEnd middle _ _ unchanged => ?_
  subst unchanged
  dsimp only
  split
  · exact leave 1 _ fits.awake
  · simp only [map_eq_pure_bind, bind_assoc]
    exact (reads.scopeValue fits).bind fun value after _ awake _ => leave _ _ awake

end Engine.Reads

namespace Engine.Serves

variable {machine : Machine} {window : Window} {pos : Nat}

/-- A flag moves the innermost scope forward. -/
theorem flag (fits : supply.Fits machine)
    (reads : low.Reads supply machine.stack.top.code 0) (token : Token) :
    Supply.Ends machine (low.flag token) fun _ after =>
      machine.stack.top.pos ≤ after.stack.top.pos := by
  have rest : ∀ before : Machine, supply.Fits before → before.stack = machine.stack →
      Supply.Ends before (do
        let scope ← topScope
        if scope.code.hasOperator scope.pos "=" then
          moveTo (scope.pos + 1)
          let value ← low.scopeValue
          Exec.trace fun _ => "flag: #" ++ token.lexeme ++ " = " ++ value.display
        else Exec.trace fun _ => "flag: ignoring #" ++ token.lexeme) fun _ after =>
        machine.stack.top.pos ≤ after.stack.top.pos := by
    intro before fitsBefore unchanged
    have ended : ∀ (text : Unit → String) (last : Machine), supply.Fits last →
        machine.stack.top.pos ≤ last.stack.top.pos → Supply.Ends last (Exec.trace text)
          fun _ after => machine.stack.top.pos ≤ after.stack.top.pos := by
      intro text last fitsLast le
      refine ((Supply.Does.trace text).ends fitsLast).mono fun _ after _ stays => ?_
      rw [show after.stack.top.pos = last.stack.top.pos from congrArg (·.2.2) stays.1]
      exact le
    refine .topScope ?_
    rw [unchanged]
    split
    · refine (Supply.Ends.moveTo fitsBefore.awake _).bind fun _ middle evolves awake top => ?_
      have fitsMiddle := fitsBefore.evolves evolves awake
      rw [unchanged] at top
      have readsMiddle : low.Reads supply middle.stack.top.code middle.stack.top.pos := by
        rw [top]
        exact reads.later (Nat.zero_le _)
      refine (readsMiddle.scopeValue fitsMiddle).bind fun value last evolvesLast awakeLast read => ?_
      rw [top] at read
      exact ended _ last (fitsMiddle.evolves evolvesLast awakeLast) (Nat.le_of_succ_le read)
    · exact ended _ before fitsBefore (Nat.le_of_eq (by rw [unchanged]))
  unfold Engine.flag
  dsimp only
  split
  · exact (Supply.Ends.modify (.aside rfl rfl rfl ⟨rfl, rfl⟩)
      ⟨fits.awake.1, fits.awake.2⟩).bind fun _ after evolves awake changed =>
        rest after (fits.evolves evolves awake) (by rw [changed])
  · exact .failFirst _ _
  · exact .failFirst _ _
  · exact rest machine fits rfl

/-- A complete statement is followed by a line end, which its first token is not. -/
theorem lineEnd_behind {token : Token} (awake : machine.Awake)
    (found : machine.stack.top.code.token? pos = some token) (inLine : token.endsLine = false)
    (le : pos ≤ machine.stack.top.pos) :
    Supply.Ends machine (do expectLineEnd; return StepResult.goOn) fun result after =>
      result = .goOn → pos < after.stack.top.pos := by
  refine (Supply.Ends.expectLineEnd awake).bind fun _ after _ awakeAfter held =>
    .pure awakeAfter fun _ => ?_
  obtain ⟨unchanged, ends⟩ := held
  rw [unchanged]
  refine Nat.lt_of_le_of_ne le fun here => ?_
  rw [← here] at ends
  simp [Window.endsLine, found, inLine] at ends

/-- A statement that is not about control moves the innermost scope behind its first token, and behind
itself. -/
theorem stepStatement (serves : low.Serves supply machine.stack.top.code pos) {token : Token}
    (fits : supply.Fits machine) (behind : machine.stack.top.pos = pos + 1)
    (found : machine.stack.top.code.token? pos = some token) (inLine : token.endsLine = false) :
    Supply.Ends machine low.stepStatement fun result after =>
      result = .goOn → pos < after.stack.top.pos := by
  refine .topScope ?_
  rw [behind, Nat.add_sub_cancel]
  refine (Supply.Ends.moveTo fits.awake pos).bind fun _ first evolves awake _ => ?_
  have fitsFirst := fits.evolves evolves awake
  refine (serves.statement.ends fitsFirst).bind fun result second evolvesSecond awakeSecond held => ?_
  refine (Supply.Ends.moveTo awakeSecond result.2).bind fun _ third evolvesThird awakeThird top => ?_
  have same : third.stack.top.code = machine.stack.top.code := by
    rw [evolvesThird.top_code, evolvesSecond.top_code, evolves.top_code]
  split
  · refine lineEnd_behind awakeThird (same ▸ found) inLine ?_
    rw [top]
    exact held.2
  · exact .pure awakeThird nofun

/-- A statement whose first token stands before the innermost scope's position. Where it goes on, the
scope has come behind that token. -/
theorem runToken (serves : low.Serves supply window pos) {token : Token} (fits : supply.Fits machine)
    (code : machine.stack.top.code = window) (behind : machine.stack.top.pos = pos + 1)
    (found : window.token? pos = some token) :
    Supply.Ends machine (low.runToken token) fun result after =>
      result = .goOn → pos < after.stack.top.pos := by
  subst code
  have inside := (Window.token?_eq_some.mp found).1
  have reads : low.Reads supply machine.stack.top.code machine.stack.top.pos :=
    (serves.reads _ rfl).later (Nat.zero_le _)
  have left : ∀ {action : Exec StepResult},
      Supply.Ends machine action (fun result _ => result ≠ .goOn) →
      Supply.Ends machine action fun result after => result = .goOn → pos < after.stack.top.pos :=
    fun ends => ends.mono fun _ _ _ leaves goes => absurd goes leaves
  unfold Engine.runToken
  split
  case h_1 | h_2 => exact .pure fits.awake fun _ => by rw [behind]; exact Nat.lt_succ_self pos
  case h_3 => exact left (reads.returning fits)
  case h_4 => exact left (reads.exiting fits)
  case h_5 | h_6 => exact left (reads.jumping fits _ _)
  case h_7 => exact .pure fits.awake nofun
  case h_8 kind =>
    refine (flag fits (serves.reads _ rfl) token).bind
      fun _ middle evolves awake read => ?_
    exact lineEnd_behind awake (evolves.top_code ▸ found) (by simp [Token.endsLine, kind]) (by omega)
  case h_9 kind =>
    refine (Supply.Ends.skipFunction fits.awake (by omega)).bind
      fun _ middle evolves awake read => ?_
    exact lineEnd_behind awake (evolves.top_code ▸ found) (by simp [Token.endsLine, kind]) (by omega)
  case h_22 => exact .fail _ _
  case h_23 => exact .fail _ _
  case h_24 => exact .fail _ _
  all_goals
    rename_i kind
    exact stepStatement serves fits behind found (by simp [Token.endsLine, kind])

/-- The next statement of a scope moves the scope forward, if it does not leave it. -/
theorem step (fits : supply.Fits machine)
    (serves : ∀ token, machine.stack.top.current? = some token →
      low.Serves supply machine.stack.top.code machine.stack.top.pos) :
    Supply.Ends machine low.step fun result after => result = .goOn →
      machine.stack.top.pos < machine.stack.top.code.tokens.size ∧
        machine.stack.top.pos < after.stack.top.pos := by
  unfold Engine.step
  refine .topScope ?_
  cases found : machine.stack.top.current? with
  | none => exact .pure fits.awake nofun
  | some token =>
    have inside := Window.lt_of_token? found
    refine (Supply.Ends.moveTo fits.awake _).bind fun _ middle evolves awake top => ?_
    have fitsMiddle := fits.evolves evolves awake
    have run : ∀ after : Machine, supply.Fits after → after.stack = middle.stack →
        Supply.Ends after (low.runToken token) fun result last => result = .goOn →
          machine.stack.top.pos < machine.stack.top.code.tokens.size ∧
            machine.stack.top.pos < last.stack.top.pos := by
      intro after fitsAfter unchanged
      refine ((serves token found).runToken fitsAfter ?_ ?_ found).mono
        fun _ _ _ moved goes => ⟨inside, moved goes⟩
      · rw [unchanged, top]
      · rw [unchanged, top]
    dsimp only
    split
    · exact (Supply.Ends.modify (.aside rfl rfl rfl ⟨rfl, rfl⟩) ⟨awake.1, awake.2⟩).bind
        fun _ after evolvesAfter awakeAfter changed =>
          run after (fitsMiddle.evolves evolvesAfter awakeAfter) (by rw [changed])
    · exact run middle fitsMiddle rfl

end Engine.Serves

/-- A machine that does not wait does not begin to. -/
theorem Supply.Ends.isSuspended {machine : Machine} (awake : machine.Awake) :
    Supply.Ends machine Engine.isSuspended fun suspended after =>
      suspended = false ∧ after.stack = machine.stack := by
  unfold Engine.isSuspended
  refine (Supply.Ends.modify ?_ ?_).bind fun _ after _ awakeAfter changed =>
    .get (.pure awakeAfter ⟨awakeAfter.suspended, ?_⟩)
  · split
    · exact .refl machine
    · exact .aside rfl rfl rfl ⟨rfl, rfl⟩
  · split
    · exact awake
    · rename_i wait waits listed
      exact awake.look listed
  · rw [changed]
    split <;> rfl

/-- The statements of a scope. -/
theorem Engine.runStatements_ends {machine : Machine} {rounds : Nat} (fits : supply.Fits machine)
    (serves : ∀ pos token, machine.stack.top.pos ≤ pos →
      machine.stack.top.code.token? pos = some token → low.Serves supply machine.stack.top.code pos)
    (enough : machine.stack.top.code.tokens.size - machine.stack.top.pos < rounds) :
    Supply.Ends machine (low.runStatements rounds) fun _ _ => True := by
  induction rounds generalizing machine with
  | zero => exact absurd enough (Nat.not_lt_zero _)
  | succ rounds ih =>
    rw [Engine.runStatements_succ]
    refine (Supply.Ends.isSuspended fits.awake).bind fun _ middle evolves awake held => ?_
    obtain ⟨rfl, same⟩ := held
    have fitsMiddle := fits.evolves evolves awake
    rw [← same] at serves enough
    rw [if_neg Bool.false_ne_true]
    refine .get ?_
    split
    · exact .pure awake trivial
    · have next := Engine.Serves.step fitsMiddle fun token found =>
        serves _ token (Nat.le_refl _) found
      refine next.bind fun result after evolvesAfter awakeAfter moved => ?_
      split
      · obtain ⟨inside, forward⟩ := moved rfl
        have code := evolvesAfter.top_code
        refine ih (fitsMiddle.evolves evolvesAfter awakeAfter) (fun pos token le found => ?_) ?_
        · rw [code] at found ⊢
          exact serves pos token (by omega) found
        · rw [code]
          omega
      · exact .pure awakeAfter trivial
      · refine .topScope ?_
        split
        · exact .get (.fail _ _)
        · exact .pure awakeAfter trivial

end LineScript
