import LineScript.Proofs.Run.Engine
import LineScript.Proofs.Structured.Parts
import LineScript.Proofs.Structured.Tree

/-!
# Turns of a block

A block is run turn by turn. What one turn does at a line end, at the end of the window, at a
simple statement and at a keyword that opens a block is said here once, for any action that the
statement means.
-/

namespace LineScript

open Machine

/-- Chains that begin alike and go on alike from where they then are end alike. -/
theorem bind_congr_at {α β : Type} {first first' : Exec α} {next next' : α → Exec β}
    {machine : Machine} (same : first machine = first' machine)
    (later : ∀ value after, first machine = .ok value after →
      next value after = next' value after) :
    (first >>= next) machine = (first' >>= next') machine := by
  simp only [bind, EStateM.bind, ← same]
  cases outcome : first machine with
  | ok value after => exact later value after outcome
  | error stop after => rfl

/-- In a new scope only machines whose innermost scope it is matter. -/
theorem Exec.within_congr {α : Type} {scope : Scope} {action action' : Exec α}
    (same : ∀ machine : Machine, machine.stack.top = scope → action machine = action' machine) :
    Exec.within scope action = Exec.within scope action' := by
  funext machine
  have inner := same { machine with stack := machine.stack.push scope } rfl
  simp only [Exec.within, bind, EStateM.bind, Exec.inScope_eq, inner]

/-- The last cursor given to the innermost scope is the one that counts. -/
theorem Stack.modifyTop_modifyTop (stack : Stack) (first second : Nat) :
    (stack.modifyTop fun scope => { scope with pos := first }).modifyTop
      (fun scope => { scope with pos := second }) =
      stack.modifyTop fun scope => { scope with pos := second } := by
  rcases stack with ⟨_ | ⟨scope, rest⟩, root⟩ <;> rfl

namespace Structured

open Layout Engine

/-- The innermost scope is a block that stands at a position of a window. -/
structure At (window : Window) (pos : Nat) (machine : Machine) : Prop where
  /-- It is a block. -/
  kind : machine.stack.top.kind = .block
  /-- It runs the window. -/
  code : machine.stack.top.code = window
  /-- It stands at the position. -/
  stands : machine.stack.top.pos = pos

variable {window : Window} {pos fuel : Nat} {machine : Machine} {low : Engine}

/-- A machine with the same stack is at the same position. -/
theorem At.of_top {machine other : Machine} (at' : At window pos machine)
    (same : other.stack = machine.stack) : At window pos other := by
  constructor
  · rw [same]; exact at'.kind
  · rw [same]; exact at'.code
  · rw [same]; exact at'.stands

/-- What happens when a turn is taken: a step, and what follows it. -/
def advance (low : Engine) (looks : Nat) : Exec Flow := do
  match ← low.step with
  | .goOn => low.runStatements looks
  | .ended => return .normal
  | .leave flow =>
    if (← topScope).isFrame && needsSurroundings flow then
      Exec.fail (.flowOutside flow.trace) (← Exec.currentLine)
    else return flow

/-- Running statements is taking turns. -/
theorem runStatements_eq_turn (low : Engine) (looks : Nat) :
    low.runStatements looks = turn (advance low) looks := by
  induction looks with
  | zero => rfl
  | succ looks ih =>
    unfold Engine.runStatements turn
    rw [← ih]
    rfl

/-- Waiting for a turn leaves the scopes as they are. -/
theorem turn_congr {next next' : Nat → Exec Flow} (looks : Nat)
    (same : ∀ (looks : Nat) (after : Machine), after.stack = machine.stack →
      next looks after = next' looks after) :
    turn next looks machine = turn next' looks machine := by
  induction looks generalizing machine with
  | zero => rfl
  | succ looks ih =>
    unfold turn
    refine bind_congr_at rfl fun suspended after looked => ?_
    have unchanged : after.stack = machine.stack := by
      simp only [isSuspended, bind, EStateM.bind, run_modify, run_get, pure, EStateM.pure,
        EStateM.Result.ok.injEq] at looked
      rw [← looked.2]
      split <;> rfl
    cases suspended with
    | true => exact ih fun looks last same' => same looks last (same'.trans unchanged)
    | false =>
      refine bind_congr_at rfl fun now last got => ?_
      have here : last = after := by
        cases got
        rfl
      subst here
      by_cases ending : now.exitRequested = true
      · rw [if_pos ending, if_pos ending]
      · rw [if_neg ending, if_neg ending]
        exact same looks last unchanged

/-- The machine after arriving at a token. -/
def arrived (pos : Nat) (token : Token) (machine : Machine) : Machine :=
  { machine with
    stack := machine.stack.modifyTop fun scope => { scope with pos }
    line := if 0 < token.line then token.line else machine.line }

/-- Arriving at a token always succeeds. -/
theorem arrive_eq (pos : Nat) (token : Token) (machine : Machine) :
    arrive pos token machine = .ok () (arrived pos token machine) := by
  by_cases inSource : 0 < token.line
  · simp only [arrive, arrived, inSource, if_true]
    rfl
  · simp only [arrive, arrived, inSource, if_false]
    rfl

/-- A machine that has arrived is at the position. -/
theorem At.arrived {first : Nat} (at' : At window first machine) (pos : Nat) (token : Token) :
    At window pos (arrived pos token machine) := by
  have top : (Structured.arrived pos token machine).stack.top = { machine.stack.top with pos } :=
    Stack.top_modifyTop _ _
  constructor
  · rw [top]; exact at'.kind
  · rw [top]; exact at'.code
  · rw [top]

/-- A step arrives behind the token at its position, and runs what begins with it. -/
theorem step_eq {token : Token} (at' : At window pos machine)
    (found : window.token? pos = some token) :
    low.step machine = low.runToken token (arrived (pos + 1) token machine) := by
  have current : machine.stack.top.current? = some token := by
    rw [Scope.current?, at'.code, at'.stands]
    exact found
  unfold Engine.step
  simp only [topScope, bind, EStateM.bind, run_get, pure,
    EStateM.pure, current, at'.stands]
  by_cases inSource : 0 < token.line
  · simp only [arrived, inSource, if_true]
    rfl
  · simp only [arrived, inSource, if_false]
    rfl

/-- A line end is passed over. -/
theorem step_ending {token : Token} (at' : At window pos machine)
    (found : window.token? pos = some token) (ends : token.endsLine = true) :
    low.step machine = .ok .goOn (arrived (pos + 1) token machine) := by
  rw [step_eq at' found]
  unfold Engine.runToken
  cases kind : token.kind <;> simp_all [Token.endsLine] <;> rfl

/-- The machine after the innermost scope moved. -/
def moved (pos : Nat) (machine : Machine) : Machine :=
  { machine with stack := machine.stack.modifyTop fun scope => { scope with pos } }

/-- Moving always succeeds. -/
theorem moveTo_eq (pos : Nat) (machine : Machine) :
    moveTo pos machine = .ok () (moved pos machine) := rfl

/-- A machine that has moved is at the position. -/
theorem At.moved {first : Nat} (at' : At window first machine) (pos : Nat) :
    At window pos (moved pos machine) := by
  have top : (Structured.moved pos machine).stack.top = { machine.stack.top with pos } :=
    Stack.top_modifyTop _ _
  constructor
  · rw [top]; exact at'.kind
  · rw [top]; exact at'.code
  · rw [top]

/-- A scope that evolves stays the same block of the same window. -/
theorem At.evolved {machine after : Machine} (at' : At window pos machine)
    (evolves : machine.Evolves after) : At window after.stack.top.pos after :=
  ⟨evolves.top_kind.trans at'.kind, evolves.top_code.trans at'.code, rfl⟩

/-- Nothing follows a statement at the end of its line. -/
theorem expectLineEnd_eq (at' : At window pos machine) (ends : window.endsLine pos = true) :
    expectLineEnd machine = .ok () machine := by
  have current : machine.stack.top.current? = window.token? pos := by
    rw [Scope.current?, at'.code, at'.stands]
  unfold expectLineEnd
  simp only [topScope, bind, EStateM.bind, run_get, pure,
    EStateM.pure, current]
  unfold Window.endsLine at ends
  split at ends
  · rename_i token found
    rw [found]
    simp only [ends, if_true]
    rfl
  · rename_i found
    rw [found]
    rfl

/-- What running a statement covers: the scope stands at its keyword, then behind it. -/
theorem covering_eq (pos size : Nat) (token : Token) (inner : Exec Flow) (machine : Machine) :
    covering pos size token inner machine =
      match inner (arrived pos token machine) with
      | .ok flow after => .ok flow (moved (pos + size) after)
      | .error stop after => .error stop after := by
  simp only [covering, bind, EStateM.bind, arrive_eq]
  cases inner (arrived pos token machine) <;> rfl

/-- The statement at a position of a window does what an action does, and covers a number of
tokens. -/
def Covers (low : Engine) (window : Window) (pos size : Nat) (inner : Exec Flow) : Prop :=
  low.statement window pos = do
    let flow ← inner
    return (flow, pos + size)

/-- What a step makes of the flow that a statement ended with. -/
def stepResult (flow : Flow) : StepResult := if flow = .normal then .goOn else .leave flow

/-- A block keyword runs its statement with the scope at the keyword, and then moves behind it. -/
theorem step_covering {token : Token} {size : Nat} {inner : Exec Flow}
    (at' : At window pos machine) (found : window.token? pos = some token)
    (opener : token.kind = .kwIf ∨ token.kind = .kwSwitch ∨ token.kind = .kwSelect ∨
      token.kind = .kwWhile ∨ token.kind = .kwDo)
    (covers : Covers low window pos size inner)
    (evolves : ∀ (before after : Machine) (flow : Flow), inner before = .ok flow after →
      before.Evolves after)
    (ends : window.endsLine (pos + size) = true) :
    low.step machine =
      match covering pos size token inner machine with
      | .ok flow after => .ok (stepResult flow) after
      | .error stop after => .error stop after := by
  have runs : low.runToken token = low.stepStatement := by
    unfold Engine.runToken
    rcases opener with kind | kind | kind | kind | kind <;> rw [kind] <;> rfl
  have back : moved pos (arrived (pos + 1) token machine) = arrived pos token machine := by
    simp only [moved, arrived, Stack.modifyTop_modifyTop]
  have behind := at'.arrived (pos + 1) token
  rw [step_eq at' found, runs, covering_eq]
  have started : low.stepStatement (arrived (pos + 1) token machine) =
      (do
      let result ← low.statement window pos
      moveTo result.2
      if result.1 = .normal then
        expectLineEnd
        return StepResult.goOn
      else return .leave result.1 : Exec StepResult) (arrived pos token machine) := by
    rw [← back]
    simp only [stepStatement, topScope, bind, EStateM.bind, run_get, pure,
      EStateM.pure, behind.code, behind.stands, Nat.add_sub_cancel]
    rfl
  rw [started, covers]
  simp only [bind, EStateM.bind, pure, EStateM.pure]
  cases ran : inner (arrived pos token machine) with
  | error stop after => rfl
  | ok flow after =>
    have last := ((at'.arrived pos token).evolved (evolves _ _ _ ran)).moved (pos + size)
    by_cases normal : flow = .normal
    · have ended := expectLineEnd_eq last ends
      simp only [normal, if_true, moveTo_eq, EStateM.bind, ended, EStateM.pure, stepResult]
    · simp only [normal, if_false, stepResult]
      rfl

/-- A step from a position of a window means an action, which ends behind a number of tokens unless
control leaves. -/
structure Steps (low : Engine) (window : Window) (pos size : Nat) (meaning : Exec Flow) :
    Prop where
  /-- The step does what the action does. -/
  step : ∀ machine : Machine, At window pos machine →
    low.step machine =
      match meaning machine with
      | .ok flow after => .ok (stepResult flow) after
      | .error stop after => .error stop after
  /-- The scope stays the block it was. -/
  stays : ∀ (machine after : Machine) (flow : Flow), At window pos machine →
    meaning machine = .ok flow after → At window after.stack.top.pos after
  /-- Without a jump the scope stands behind the statement. -/
  reaches : ∀ machine after : Machine, At window pos machine →
    meaning machine = .ok .normal after → after.stack.top.pos = pos + size

/-- A step and what follows it. -/
theorem Steps.advance_eq {size looks : Nat} {meaning next : Exec Flow}
    (steps : Steps low window pos size meaning) (at' : At window pos machine)
    (rest : ∀ after : Machine, At window (pos + size) after →
      low.runStatements looks after = next after) :
    advance low looks machine = (do
      match ← meaning with
      | .normal => next
      | flow => return flow) machine := by
  simp only [advance, bind, EStateM.bind, steps.step machine at']
  cases ran : meaning machine with
  | error stop after => rfl
  | ok flow after =>
    have stays := steps.stays machine after flow at' ran
    cases flow with
    | normal =>
      rw [steps.reaches machine after at' ran] at stays
      exact rest after stays
    | returned | exitLoop | continueLoop | continueCase | exit =>
      have inBlock : after.stack.top.isFrame = false := by simp [Scope.isFrame, stays.kind]
      simp only [stepResult, topScope, bind, EStateM.bind, run_get, pure, EStateM.pure, inBlock,
        Bool.false_and, if_false, reduceCtorEq,
        Bool.false_eq_true]

/-- A line end takes a turn. -/
theorem runStatements_ending {token : Token} {looks : Nat} {next : Nat → Exec Flow}
    (at' : At window pos machine) (found : window.token? pos = some token)
    (ends : token.endsLine = true)
    (rest : ∀ (looks : Nat) (after : Machine), At window (pos + 1) after →
      low.runStatements looks after = next looks after) :
    low.runStatements looks machine =
      turn (fun looks => do arrive (pos + 1) token; next looks) looks machine := by
  rw [runStatements_eq_turn]
  refine turn_congr looks fun looks after same => ?_
  have here := at'.of_top same
  simp only [advance, bind, EStateM.bind, step_ending here found ends, arrive_eq]
  exact rest looks _ (here.arrived (pos + 1) token)

/-- The end of a window takes a turn. -/
theorem runStatements_end {looks : Nat} (at' : At window window.stop machine) :
    low.runStatements looks machine = turn (fun _ => return .normal) looks machine := by
  rw [runStatements_eq_turn]
  refine turn_congr looks fun looks after same => ?_
  have here := at'.of_top same
  have current : after.stack.top.current? = none := by
    rw [Scope.current?, here.code, here.stands, Window.token?, if_neg (Nat.lt_irrefl _)]
  simp only [advance, Engine.step, topScope, bind, EStateM.bind, run_get, pure, EStateM.pure, current]

/-- A statement and the end of its line take a turn each. -/
theorem Steps.runStatements_line {token : Token} {size looks : Nat} {meaning : Exec Flow}
    {next : Nat → Exec Flow} (steps : Steps low window pos size meaning)
    (at' : At window pos machine) (found : window.token? (pos + size) = some token)
    (ends : token.endsLine = true)
    (rest : ∀ (looks : Nat) (after : Machine), At window (pos + size + 1) after →
      low.runStatements looks after = next looks after) :
    low.runStatements looks machine =
      turn (fun looks => do
        match ← meaning with
        | .normal =>
          turn (fun looks => do arrive (pos + size + 1) token; next looks) looks
        | flow => return flow) looks machine := by
  rw [runStatements_eq_turn]
  refine turn_congr looks fun looks after same => ?_
  exact steps.advance_eq (at'.of_top same) fun last here =>
    runStatements_ending here found ends rest

/-- What the engine does with a statement evolves the machine. -/
theorem statement_evolves (fuel : Nat) {before after : Machine} {result : Flow × Nat}
    (ran : (engine fuel).statement window pos before = .ok result after) :
    before.Evolves after := by
  have ends : (Guard.free before.program).Ends before ((engine fuel).statement window pos) _ :=
    ((engine_obeys (.free before.program) fuel).statement trivial).ends rfl
  unfold Guard.Ends at ends
  rw [ran] at ends
  exact ends.1

/-- A block keyword steps over its whole statement. -/
theorem Covers.steps {token ending : Token} {size : Nat} {inner : Exec Flow}
    (covers : Covers (engine fuel) window pos size inner)
    (stored : window.tokens[pos]? = some token)
    (opener : token.kind = .kwIf ∨ token.kind = .kwSwitch ∨ token.kind = .kwSelect ∨
      token.kind = .kwWhile ∨ token.kind = .kwDo)
    (behind : window.token? (pos + size) = some ending) (endsLine : ending.endsLine = true) :
    Steps (engine fuel) window pos size (covering pos size token inner) := by
  have inside := (Window.token?_eq_some.mp behind).1
  have found : window.token? pos = some token :=
    Window.token?_eq_some.mpr ⟨by omega, stored⟩
  have ends : window.endsLine (pos + size) = true := by
    simp [Window.endsLine, behind, endsLine]
  have evolves : ∀ (before after : Machine) (flow : Flow), inner before = .ok flow after →
      before.Evolves after := by
    intro before after flow ran
    have whole : (engine fuel).statement window pos before = .ok (flow, pos + size) after := by
      rw [covers]
      simp only [bind, EStateM.bind, ran]
      rfl
    exact statement_evolves fuel whole
  have last : ∀ (machine after : Machine) (flow : Flow), At window pos machine →
      covering pos size token inner machine = .ok flow after → At window (pos + size) after := by
    intro machine after flow at' ran
    rw [covering_eq] at ran
    cases inside : inner (arrived pos token machine) with
    | error stop _ => simp [inside] at ran
    | ok flow' middle =>
      simp only [inside, EStateM.Result.ok.injEq] at ran
      rw [← ran.2]
      exact ((at'.arrived pos token).evolved (evolves _ _ _ inside)).moved (pos + size)
  refine ⟨fun machine at' => step_covering at' found opener covers evolves ends,
    fun machine after flow at' ran => ?_, fun machine after at' ran => ?_⟩
  · have here := last machine after flow at' ran
    rwa [← here.stands] at here
  · exact (last machine after _ at' ran).stands

/-- A step that leaves ends a simple statement with its flow. -/
theorem simple_left {flow : Flow} {after : Machine}
    (ran : low.step machine = .ok (.leave flow) after) : simple low machine = .ok flow after := by
  simp only [simple, bind, EStateM.bind, ran]
  rfl

/-- A step that goes on ends a simple statement normally. -/
theorem simple_gone_on {after : Machine} (ran : low.step machine = .ok .goOn after) :
    simple low machine = .ok .normal after := by
  simp only [simple, bind, EStateM.bind, ran]
  rfl

/-- A step that fails fails the simple statement. -/
theorem simple_failed {stop : Stop} {after : Machine} (ran : low.step machine = .error stop after) :
    simple low machine = .error stop after := by
  simp only [simple, bind, EStateM.bind, ran]

section

variable {sentence : Sentence} (fuel : Nat) (holds : Holds window.tokens pos sentence.tokens)
  (inside : pos + sentence.size ≤ window.stop)
  (ends : window.endsLine (pos + sentence.size) = true)
include holds inside ends

/-- The step of the engine over a simple statement leaves the scope, or ends where the statement
does. -/
theorem Sentence.step_ends {after : Machine} {result : StepResult} (at' : At window pos machine)
    (ran : (engine fuel).step machine = .ok result after) :
    machine.Evolves after ∧
      (result.Leaves ∨ result = .goOn ∧ after.stack.top.pos = pos + sentence.size) := by
  have positive := List.length_pos_iff.mpr sentence.nonempty
  have size : sentence.size = sentence.tokens.length := rfl
  obtain ⟨token, member, stored⟩ := holds.mem_at (Nat.le_refl pos) (by omega)
  have found : window.token? pos = some token :=
    Window.token?_eq_some.mpr ⟨by omega, stored⟩
  have reached : (Guard.free machine.program).Ends machine (engine fuel).step _ :=
    (engine_obeys (.free machine.program) fuel).step_plain rfl at'.code at'.stands trivial
      found (sentence.plain token member)
  unfold Guard.Ends at reached
  rw [ran] at reached
  obtain ⟨evolves, leaves | ⟨goes, passes, atEnd⟩⟩ := reached
  · exact ⟨evolves, .inl leaves⟩
  refine ⟨evolves, .inr ⟨goes, ?_⟩⟩
  -- No token of the statement ends a line, so the end of the line is the first one behind it.
  have upper := passes.le_of_endsLine (by omega) ends
  refine Nat.le_antisymm upper (Nat.le_of_not_lt fun early => ?_)
  obtain ⟨other, memberOther, storedOther⟩ := holds.mem_at passes.le (by omega)
  have plain := Token.endsLine_of_isPlain (sentence.plain other memberOther)
  have foundOther := Window.token?_eq_some.mpr
    (⟨by omega, storedOther⟩ : after.stack.top.pos < window.stop ∧ _)
  simp [Window.endsLine, foundOther, plain] at atEnd

/-- A run of a simple statement ends as its step does. -/
theorem Sentence.simple_ends {after : Machine} {flow : Flow} (at' : At window pos machine)
    (ran : simple (engine fuel) machine = .ok flow after) :
    machine.Evolves after ∧ (flow = .normal → after.stack.top.pos = pos + sentence.size) := by
  cases stepped : (engine fuel).step machine with
  | error stop last => simp [simple_failed stepped] at ran
  | ok result last =>
    obtain ⟨evolves, ⟨jump, rfl, jumps⟩ | ⟨rfl, reached⟩⟩ :=
      Sentence.step_ends fuel holds inside ends at' stepped
    · rw [simple_left stepped] at ran
      cases ran
      exact ⟨evolves, fun normal => absurd normal jumps⟩
    · rw [simple_gone_on stepped] at ran
      cases ran
      exact ⟨evolves, fun _ => reached⟩

/-- A simple statement steps to the end of its line. -/
theorem Sentence.steps : Steps (engine fuel) window pos sentence.size (simple (engine fuel)) := by
  have ran_ends {machine after : Machine} {flow : Flow} (at' : At window pos machine)
      (ran : simple (engine fuel) machine = .ok flow after) :=
    Sentence.simple_ends fuel holds inside ends at' ran
  refine ⟨fun machine at' => ?_, fun machine after flow at' ran => at'.evolved (ran_ends at' ran).1,
    fun machine after at' ran => (ran_ends at' ran).2 rfl⟩
  cases ran : (engine fuel).step machine with
  | error stop after => rw [simple_failed ran]
  | ok result after =>
    obtain ⟨_, ⟨flow, rfl, jumps⟩ | ⟨rfl, _⟩⟩ :=
      Sentence.step_ends fuel holds inside ends at' ran
    · rw [simple_left ran]
      simp [stepResult, jumps]
    · rw [simple_gone_on ran]
      rfl

end

end Structured

end LineScript
