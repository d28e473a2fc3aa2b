import LineScript.Proofs.Run.Script
import LineScript.Proofs.Text.Lower

/-!
# Scopes are put on and taken off in pairs

The script's scope stands at the bottom of the stack and nowhere else, and the calls that are counted
are the calls whose scopes are there. This holds of every machine that a host can have between two
requests, of every machine inside a run, and whatever an operation does, it leaves the stack as deep
as it was, also when it stops with a fault. What was assigned is read back where no caller has a
variable of the same name in the way (`Machine.assigned_read_back`).
-/

namespace LineScript

/-- The scope is that of a function call. -/
def Scope.isCall (scope : Scope) : Bool :=
  match scope.kind with
  | .function _ => true
  | _ => false

namespace Stack

/-- What the scopes of a stack belong to, innermost first. -/
def kinds (stack : Stack) : List ScopeKind := stack.scopes.map Scope.kind

/-- Equal kinds of all scopes are equal kinds of the script's scope and of the others. -/
theorem kinds_split {stack other : Stack} (same : other.kinds = stack.kinds) :
    other.inner.map Scope.kind = stack.inner.map Scope.kind ∧
      other.root.kind = stack.root.kind := by
  simp only [kinds, scopes, List.map_append, List.map_cons, List.map_nil] at same
  obtain ⟨inner, root⟩ := List.append_inj' same rfl
  exact ⟨inner, (List.cons.inj root).1⟩

/-- The scopes of one stack stand where those of another do, but for the position of the innermost
one. -/
structure Matches (before after : Stack) : Prop where
  /-- There are as many. -/
  depth : after.depth = before.depth
  /-- They belong to the same. -/
  kinds : after.kinds = before.kinds
  /-- They run the same tokens. -/
  codes : after.scopes.map Scope.code = before.scopes.map Scope.code
  /-- Below the innermost one they stand at the same positions. -/
  positions : after.scopes.tail.map Scope.pos = before.scopes.tail.map Scope.pos

/-- Stacks with equal outlines match. -/
theorem Matches.of_outline {before after : Stack} (same : after.outline = before.outline) :
    before.Matches after := by
  have view : ∀ {View : Type} (look : ScopeKind × Window × Nat → View),
      (∀ place : ScopeKind × Window × Nat, look (place.1, place.2.1, 0) = look place) →
      ∀ stack : Stack, stack.outline.map look = stack.places.map look := by
    intro View look blind stack
    obtain ⟨below, head⟩ := stack.places_head
    simp [outline, head, blind]
  have tail : ∀ stack : Stack, stack.outline.tail = stack.places.tail := by
    intro stack
    obtain ⟨below, head⟩ := stack.places_head
    simp [outline, head]
  have kinds : after.places.map Prod.fst = before.places.map Prod.fst := by
    rw [← view Prod.fst (fun _ => rfl), same, view Prod.fst fun _ => rfl]
  have codes : after.places.map (·.2.1) = before.places.map (·.2.1) := by
    rw [← view (·.2.1) (fun _ => rfl), same, view (·.2.1) fun _ => rfl]
  have positions : after.places.tail = before.places.tail := by rw [← tail, same, tail]
  have lengths := congrArg List.length kinds
  refine ⟨?_, ?_, ?_, ?_⟩
  · simpa [places, scopes, Stack.depth] using lengths
  · simpa [places, Stack.kinds, Scope.place, Function.comp_def] using kinds
  · simpa [places, Scope.place, Function.comp_def] using codes
  · have seen := congrArg (List.map (·.2.2)) positions
    simpa [places, Scope.place, ← List.map_tail, Function.comp_def] using seen

end Stack

namespace Machine

/-- The script's scope is at the bottom of the stack and only there, every call whose scope is on the
stack is counted, and there are not too many of them. -/
structure Orderly (machine : Machine) : Prop where
  /-- The script's scope is at the bottom. -/
  root : machine.stack.root.kind = .script
  /-- It is nowhere else. -/
  inner : ∀ scope ∈ machine.stack.inner, scope.kind ≠ .script
  /-- The calls on the stack are counted. -/
  counted : machine.callDepth = machine.stack.scopes.countP Scope.isCall
  /-- There is room for them. -/
  bounded : machine.callDepth ≤ maxCallDepth

namespace Orderly

/-- Order is a matter of the kinds of scopes and of the number of calls. -/
theorem of_kinds {before after : Machine} (orderly : before.Orderly)
    (kinds : after.stack.kinds = before.stack.kinds)
    (callDepth : after.callDepth = before.callDepth) : after.Orderly := by
  have calls : ∀ stack : Stack, stack.scopes.countP Scope.isCall =
      stack.kinds.countP fun | .function _ => true | _ => false := fun stack => by
    rw [Stack.kinds, List.countP_map]
    rfl
  obtain ⟨inner, root⟩ := Stack.kinds_split kinds
  refine ⟨root.trans orderly.root, fun scope member script => ?_, ?_, ?_⟩
  · have listed : ScopeKind.script ∈ before.stack.inner.map Scope.kind := by
      rw [← inner, ← script]
      exact List.mem_map_of_mem member
    obtain ⟨other, memberOther, isScript⟩ := List.mem_map.mp listed
    exact orderly.inner other memberOther isScript
  · rw [callDepth, orderly.counted, calls, calls, kinds]
  · rw [callDepth]
    exact orderly.bounded

/-- Whatever a run does keeps order. -/
theorem evolves {before after : Machine} (orderly : before.Orderly)
    (evolves : before.Evolves after) : after.Orderly :=
  orderly.of_kinds (Stack.Matches.of_outline evolves.outline_eq).kinds evolves.callDepth_eq

/-- A scope of a block is put on. -/
theorem push_block {machine : Machine} (orderly : machine.Orderly) {scope : Scope}
    (isBlock : scope.kind = .block) :
    Orderly { machine with stack := machine.stack.push scope } where
  root := orderly.root
  inner := by
    intro other member script
    obtain rfl | member := List.mem_cons.mp member
    · rw [isBlock] at script
      cases script
    · exact orderly.inner other member script
  counted := by
    have notCall : scope.isCall = false := by simp [Scope.isCall, isBlock]
    show machine.callDepth = (scope :: machine.stack.scopes).countP Scope.isCall
    rw [orderly.counted, List.countP_cons_of_neg (by simp [notCall])]
  bounded := orderly.bounded

/-- A scope of a call is put on, and counted. -/
theorem push_call {machine : Machine} (orderly : machine.Orderly) {scope : Scope} {name : String}
    (isCall : scope.kind = .function name) (room : machine.callDepth < maxCallDepth) :
    Orderly { machine with
      stack := machine.stack.push scope, callDepth := machine.callDepth + 1 } where
  root := orderly.root
  inner := by
    intro other member script
    obtain rfl | member := List.mem_cons.mp member
    · rw [isCall] at script
      cases script
    · exact orderly.inner other member script
  counted := by
    have call : scope.isCall = true := by simp [Scope.isCall, isCall]
    show machine.callDepth + 1 = (scope :: machine.stack.scopes).countP Scope.isCall
    rw [orderly.counted, List.countP_cons_of_pos call]
  bounded := room

/-- Only the script's scope is left. -/
theorem rewound {machine : Machine} (orderly : machine.Orderly) : machine.rewound.Orderly where
  root := orderly.root
  inner := by simp [Machine.rewound]
  counted := by
    have script : (machine.stack.root.rewind).isCall = false := by
      simp [Scope.isCall, Scope.rewind, orderly.root]
    show 0 = [machine.stack.root.rewind].countP Scope.isCall
    rw [List.countP_cons_of_neg (by simp [script]), List.countP_nil]
  bounded := Nat.zero_le _

end Orderly

/-- What can be asked of the interpreter, from outside or while a script runs. -/
inductive Operation where
  /-- The next statement of the innermost scope. -/
  | step
  /-- An expression. -/
  | expression (window : Window) (pos : Nat)
  /-- A statement. -/
  | statement (window : Window) (pos : Nat)
  /-- A window as a block with variables. -/
  | block (code : Window) (bindings : List (String × Value))
  /-- A call. -/
  | call (name : String) (args : List Value) (line : Nat)

/-- The machine after an operation, however that ended. -/
def Operation.final (operation : Operation) (fuel : Nat) : Machine → Machine :=
  match operation with
  | step => Exec.final (Machine.step fuel)
  | expression window pos => Exec.final (evalExpression fuel window pos)
  | statement window pos => Exec.final (evalStatement fuel window pos)
  | block code bindings => Exec.final (runBlock fuel code bindings)
  | call name args line => Exec.final (Machine.call fuel name args line)

/-- A machine between two requests of its host. -/
inductive Idle : Machine → Prop where
  /-- It was just made. -/
  | fresh (host : Host) (path : String) (tokens : List Token) : Idle (ofTokens host path tokens)
  /-- Its script was prepared, or could not be. -/
  | prepared {machine : Machine} (idle : Idle machine) : Idle (prepare.final machine)
  /-- Its script was run. -/
  | ran {machine : Machine} (idle : Idle machine) (fuel : Nat) : Idle ((run fuel).final machine)
  /-- The interpreter was asked for something. -/
  | operated {machine : Machine} (idle : Idle machine) (operation : Operation) (fuel : Nat) :
      Idle (operation.final fuel machine)
  /-- The host changed variables, registers, objects, output or switches. -/
  | adjusted {machine after : Machine} (idle : Idle machine) (evolves : machine.Evolves after)
      (stays : after.stack.places = machine.stack.places) : Idle after

/-- A machine at any time: between two requests, or inside a run with the scopes that were put on so
far. Scopes are put on for blocks and for calls, and all other changes are those of `Evolves`. -/
inductive Reachable : Machine → Prop where
  /-- Between two requests. -/
  | idle {machine : Machine} (idle : Idle machine) : Reachable machine
  /-- The run of a prepared script starts. -/
  | started {machine ready : Machine} (idle : Idle machine)
      (prepared : prepare machine = .ok () ready) :
      Reachable { ready with running := true, exitRequested := false }
  /-- The run goes on. -/
  | evolved {machine after : Machine} (reachable : Reachable machine)
      (evolves : machine.Evolves after) : Reachable after
  /-- A block is entered. -/
  | entered {machine : Machine} (reachable : Reachable machine) (code : Window)
      (bindings : List (String × Value)) :
      Reachable { machine with stack := machine.stack.push (Engine.blockScope code bindings) }
  /-- A function is entered. -/
  | called {machine : Machine} (reachable : Reachable machine) (function : UserFunction)
      (given : Nat) (room : machine.callDepth < maxCallDepth) :
      Reachable { machine with
        stack := machine.stack.push (callScope function given)
        callDepth := machine.callDepth + 1 }
  /-- The run of the script is over; the function for its end may follow. -/
  | finished {machine : Machine} (reachable : Reachable machine) : Reachable machine.rewound

/-- An operation makes the changes of a run, and every one but a step leaves all scopes where they
are, also when it stops. -/
theorem Operation.evolves (operation : Operation) (fuel : Nat) (machine : Machine) :
    machine.Evolves (operation.final fuel machine) ∧
      (operation ≠ .step → (operation.final fuel machine).stack.places = machine.stack.places) := by
  have obeys := engine_obeys (.free machine.program) fuel
  -- An action of this guard that leaves the scopes where they are.
  have quiet : ∀ {α : Type} {action : Exec α},
      (Guard.free machine.program).Does action (fun _ => True) →
      machine.Evolves (action.final machine) ∧
        (operation ≠ .step → (action.final machine).stack.places = machine.stack.places) :=
    fun does => ⟨(does.ends rfl).evolves, fun _ => (does machine rfl).2⟩
  cases operation with
  | step => exact ⟨(obeys.step rfl trivial).evolves, fun other => absurd rfl other⟩
  | expression window pos =>
    exact quiet ((obeys.value window pos trivial).bind fun _ _ => .pure trivial)
  | statement window pos =>
    exact quiet ((obeys.statement trivial).bind fun _ _ => .pure trivial)
  | block code bindings => exact quiet (obeys.runBlock trivial bindings)
  | call name args line => exact quiet (obeys.call name args line)

/-- What holds of a machine between two requests: no scope is there but the script's, no call is
running, and a script that is still to be prepared has not been moved over. -/
structure Rested (machine : Machine) : Prop where
  /-- Only the script's scope is there. -/
  alone : machine.stack.inner = []
  /-- It is that of a script. -/
  script : machine.stack.root.kind = .script
  /-- No call is running. -/
  uncounted : machine.callDepth = 0
  /-- The script is not being run. -/
  stopped : machine.running = false
  /-- A script that is not prepared has no tokens yet, and stands at its start. -/
  unprepared : machine.pending ≠ none →
    machine.stack.root.code = .empty ∧ machine.stack.root.pos = Window.empty.start

namespace Rested

/-- With no scope but the script's, equal outlines have only the script's. -/
theorem alone_of_outline {stack other : Stack} (same : other.outline = stack.outline)
    (alone : stack.inner = []) : other.inner = [] := by
  have depth := (Stack.Matches.of_outline same).depth
  have none : other.inner.length = 0 := by simpa [Stack.depth, alone] using depth
  exact List.eq_nil_of_length_eq_zero none

/-- A rested machine stays rested as it evolves, when a pending attempt keeps its places. -/
theorem of_evolves {before after : Machine} (rested : before.Rested)
    (evolves : before.Evolves after)
    (stays : before.pending ≠ none → after.stack.places = before.stack.places) :
    after.Rested := by
  have alone := alone_of_outline evolves.outline_eq rested.alone
  have topBefore : before.stack.top = before.stack.root := by rw [Stack.top, rested.alone]
  have topAfter : after.stack.top = after.stack.root := by rw [Stack.top, alone]
  refine ⟨alone, ?_, ?_, ?_, fun pending => ?_⟩
  · rw [← topAfter, evolves.top_kind, topBefore]
    exact rested.script
  · rw [evolves.callDepth_eq]
    exact rested.uncounted
  · rw [evolves.status_eq.1]
    exact rested.stopped
  · rw [evolves.status_eq.2] at pending
    have place := Stack.top_place_of_places (stays pending)
    rw [topAfter, topBefore] at place
    have code : after.stack.root.code = before.stack.root.code := congrArg (·.2.1) place
    have pos : after.stack.root.pos = before.stack.root.pos := congrArg (·.2.2) place
    rw [code, pos]
    exact rested.unprepared pending

/-- A machine whose script is not prepared has no statement to step over. -/
theorem step_eq {machine : Machine} (rested : machine.Rested) (pending : machine.pending ≠ none)
    (fuel : Nat) : Machine.step fuel machine = .ok .ended machine := by
  have top : machine.stack.top = machine.stack.root := by rw [Stack.top, rested.alone]
  have current : machine.stack.top.current? = none := by
    rw [top, Scope.current?, (rested.unprepared pending).1]
    rfl
  unfold Machine.step Engine.step
  simp only [topScope, bind, EStateM.bind, run_get, pure,
    EStateM.pure, current]

/-- Every operation leaves a rested machine rested. -/
theorem operation {machine : Machine} (rested : machine.Rested) (operation : Operation)
    (fuel : Nat) : (operation.final fuel machine).Rested := by
  obtain ⟨evolves, stays⟩ := operation.evolves fuel machine
  refine rested.of_evolves evolves fun pending => ?_
  by_cases isStep : operation = .step
  · subst isStep
    show (Exec.final (Machine.step fuel) machine).stack.places = machine.stack.places
    rw [Exec.final, rested.step_eq pending]
    rfl
  · exact stays isStep

/-- A script that could not be prepared is left at its start. -/
theorem prepare_failed {machine failed : Machine} {stop : Stop} (rested : machine.Rested)
    (outcome : Machine.prepare machine = .error stop failed) :
    failed.Rested ∧ failed.stack.root.pos = failed.stack.root.code.start := by
  obtain ⟨console, prepared⟩ := prepare_eq machine
  rw [prepared] at outcome
  split at outcome
  · cases outcome
  · rename_i tokens pending
    have start := rested.unprepared (by simp [pending])
    split at outcome
    · cases outcome
      refine ⟨⟨rested.alone, rested.script, rested.uncounted, rested.stopped, nofun⟩, ?_⟩
      show machine.stack.root.pos = machine.stack.root.code.start
      rw [start.1, start.2]
    · cases outcome

/-- A script that was prepared is not prepared again. -/
theorem prepare_ok {machine ready : Machine} (rested : machine.Rested)
    (outcome : Machine.prepare machine = .ok () ready) : ready.Rested ∧ ready.pending = none := by
  obtain ⟨console, prepared⟩ := prepare_eq machine
  rw [prepared] at outcome
  split at outcome
  · rename_i pending
    cases outcome
    exact ⟨rested, pending⟩
  · split at outcome
    · cases outcome
    · cases outcome
      exact ⟨⟨rested.alone, rested.script, rested.uncounted, rested.stopped, nofun⟩, rfl⟩

/-- Preparation leaves a rested machine rested. -/
theorem prepare {machine : Machine} (rested : machine.Rested) :
    (Machine.prepare.final machine).Rested := by
  unfold Exec.final
  cases outcome : Machine.prepare machine with
  | error stop failed => exact (rested.prepare_failed outcome).1
  | ok _ ready => exact (rested.prepare_ok outcome).1

/-- The function for the end of the script leaves the script's scope where it is. -/
theorem exitHandler {machine : Machine} (rested : machine.Rested)
    (start : machine.stack.root.pos = machine.stack.root.code.start) (fuel : Nat) :
    ((runExitHandler fuel).final machine).Rested ∧
      ((runExitHandler fuel).final machine).stack.root.pos =
        ((runExitHandler fuel).final machine).stack.root.code.start := by
  unfold Exec.final
  rw [runExitHandler_eq]
  cases registered : machine.exitHandler with
  | none => exact ⟨rested, start⟩
  | some name =>
    have ending : (machine.ending name).Rested :=
      ⟨rested.alone, rested.script, rfl, rested.stopped, rested.unprepared⟩
    obtain ⟨evolves, stays⟩ := (Operation.call name [] machine.line).evolves fuel
      (machine.ending name)
    have left := ending.operation (.call name [] machine.line) fuel
    have place := Stack.top_place_of_places (stays nofun)
    unfold Operation.final Exec.final at evolves left place
    dsimp only at evolves left place ⊢
    cases outcome : Machine.call fuel name [] machine.line (machine.ending name) with
    | ok _ after | error _ after =>
      rw [outcome, Exec.left] at left place
      have topBefore : (machine.ending name).stack.top = machine.stack.root := by
        rw [Stack.top, ending.alone]
        rfl
      have topAfter : after.stack.top = after.stack.root := by rw [Stack.top, left.alone]
      rw [topAfter, topBefore] at place
      have code : after.stack.root.code = machine.stack.root.code := congrArg (·.2.1) place
      have pos : after.stack.root.pos = machine.stack.root.pos := congrArg (·.2.2) place
      refine ⟨⟨left.alone, left.script, left.uncounted, left.stopped, left.unprepared⟩, ?_⟩
      show after.stack.root.pos = after.stack.root.code.start
      rw [code, pos, start]

/-- A run leaves only the script's scope, at its start, whether it ended or stopped. -/
theorem run {machine : Machine} (rested : machine.Rested) (fuel : Nat) :
    ((Machine.run fuel).final machine).Rested ∧
      ((Machine.run fuel).final machine).stack.root.pos =
        ((Machine.run fuel).final machine).stack.root.code.start := by
  unfold Exec.final
  rw [run_eq, if_neg (by simp [rested.stopped])]
  cases prepared : Machine.prepare machine with
  | error stop failed => exact rested.prepare_failed prepared
  | ok _ ready =>
    obtain ⟨restedReady, none⟩ := rested.prepare_ok prepared
    have evolves : ready.started.Evolves ((runScope fuel).final ready.started) :=
      ((engine_obeys (.free ready.program) fuel).runScope ready.started rfl trivial).evolves
    have topReady : ready.started.stack.top = ready.stack.root := by
      show ready.stack.top = ready.stack.root
      rw [Stack.top, restedReady.alone]
    have rewound : ((runScope fuel).final ready.started).rewound.Rested := by
      generalize (runScope fuel).final ready.started = last at evolves
      have alone := alone_of_outline evolves.outline_eq restedReady.alone
      have top : last.stack.top = last.stack.root := by rw [Stack.top, alone]
      refine ⟨rfl, ?_, rfl, rfl, fun pending => ?_⟩
      · show last.stack.root.kind = .script
        rw [← top, evolves.top_kind, topReady]
        exact restedReady.script
      · exact absurd (evolves.status_eq.2.trans none) pending
    unfold Exec.final at rewound
    dsimp only
    cases ran : runScope fuel ready.started with
    | error stop last =>
      rw [ran] at rewound
      exact ⟨rewound, rfl⟩
    | ok flow last =>
      rw [ran] at rewound
      have finished : (last.finished flow).Rested :=
        ⟨rfl, rewound.script, rfl, rfl, rewound.unprepared⟩
      exact finished.exitHandler rfl fuel

/-- A rested machine is orderly. -/
theorem orderly {machine : Machine} (rested : machine.Rested) : machine.Orderly where
  root := rested.script
  inner := by simp [rested.alone]
  counted := by
    have script : machine.stack.root.isCall = false := by simp [Scope.isCall, rested.script]
    simp [Stack.scopes, rested.alone, rested.uncounted, script]
  bounded := by simp [rested.uncounted]

end Rested

/-- Between two requests a machine rests. -/
theorem Idle.rested {machine : Machine} (idle : machine.Idle) : machine.Rested := by
  induction idle with
  | fresh host path tokens => exact ⟨rfl, rfl, rfl, rfl, fun _ => ⟨rfl, rfl⟩⟩
  | prepared _ ih => exact ih.prepare
  | ran _ fuel ih => exact (ih.run fuel).1
  | operated _ operation fuel ih => exact ih.operation operation fuel
  | adjusted _ evolves stays ih => exact ih.of_evolves evolves fun _ => stays

/-- At any time the scopes are in order. -/
theorem Reachable.orderly {machine : Machine} (reachable : machine.Reachable) :
    machine.Orderly := by
  induction reachable with
  | idle idle => exact idle.rested.orderly
  | started idle prepared =>
    have orderly := (idle.rested.prepare_ok prepared).1.orderly
    exact ⟨orderly.root, orderly.inner, orderly.counted, orderly.bounded⟩
  | evolved _ evolves ih => exact ih.evolves evolves
  | entered _ code bindings ih => exact ih.push_block rfl
  | called _ function given room ih => exact ih.push_call rfl room
  | finished _ ih => exact ih.rewound

/-- Scopes are put on and taken off in pairs. At any time the script's scope is at the bottom and
only there, and as many calls are counted as are on the stack, within their bound. Whatever is asked
of the interpreter, and however it ends, the scopes that were there are there again, with the same
code and below the innermost one at the same positions. A run leaves only the script's scope, at its
start, with no call counted and the machine stopped. -/
theorem scopes_balanced {machine : Machine} (reachable : machine.Reachable) :
    machine.Orderly ∧
    (∀ (operation : Operation) (fuel : Nat),
      let after := operation.final fuel machine
      after.Reachable ∧ machine.stack.Matches after.stack ∧
        after.callDepth = machine.callDepth) ∧
    (machine.Idle → ∀ fuel : Nat,
      let after := (run fuel).final machine
      after.stack.depth = 1 ∧ after.stack.root.pos = after.stack.root.code.start ∧
        after.callDepth = 0 ∧ after.activity = .stopped) := by
  refine ⟨reachable.orderly, fun operation fuel => ?_, fun idle fuel => ?_⟩
  · have evolves := (operation.evolves fuel machine).1
    exact ⟨.evolved reachable evolves, .of_outline evolves.outline_eq, evolves.callDepth_eq⟩
  · obtain ⟨rested, start⟩ := idle.rested.run fuel
    refine ⟨?_, start, rested.uncounted, ?_⟩
    · rw [Stack.depth, rested.alone]
      rfl
    · rw [activity, rested.stopped]
      rfl

/-- A block inside a call, and the machine before its script was run. -/
theorem scopes_balanced_call : ∃ machine : Machine,
    machine.Reachable ∧ machine.stack.kinds = [.block, .function "Twice", .script] ∧
      machine.Orderly ∧ machine.callDepth = 1 ∧
      (∀ (operation : Operation) (fuel : Nat),
        machine.stack.Matches (operation.final fuel machine).stack) ∧
      ∀ fuel : Nat, ((run fuel).final (ofTokens {} "main" [])).stack.depth = 1 := by
  have fresh : (ofTokens {} "main" []).Idle := .fresh {} "main" []
  have inCall := Reachable.called (.idle fresh) ⟨"Twice", [], #[], 1⟩ 0 (by decide)
  have inBlock := Reachable.entered inCall .empty []
  refine ⟨_, inBlock, rfl, (scopes_balanced inBlock).1, rfl, ?_, ?_⟩
  · exact fun operation fuel => ((scopes_balanced inBlock).2.1 operation fuel).2.1
  · exact fun fuel => ((scopes_balanced (.idle fresh)).2.2 fresh fuel).1

end Machine

/-!
## What is read after an assignment

A read looks through the scopes of the running function, of all its callers and of the script, in
this order; an assignment passes over the callers. So a script reads back what it assigned, unless
the variable is found in the script only while a caller has one of the same name: that one is read,
and the script's is written.
-/

namespace Variables

/-- A variable that was written is found. -/
theorem get?_insert_self (vars : Variables) (key : String) (variable' : Variable) :
    get? (vars.insert key variable') key = some variable' := by
  induction vars with
  | nil => simp [insert, get?]
  | cons entry rest ih =>
    obtain ⟨other, held⟩ := entry
    simp only [insert]
    split
    · simp [get?]
    · rename_i differs
      have apart : (key == other) = false := by
        rw [Bool.beq_comm]
        simpa using differs
      simp only [get?, List.lookup_cons, apart]
      exact ih

end Variables

namespace Stack

/-- The stack with a variable written in the scope at a position. -/
def write (stack : Stack) (position : Nat) (key : String) (variable' : Variable) : Stack :=
  stack.modifyAt position fun scope => { scope with vars := scope.vars.insert key variable' }

/-- The variable of a caller that a read finds while an assignment goes past it: the running function
has none of this name, and the script has one. -/
def shadow? (stack : Stack) (key : String) : Option Variable :=
  if positionInFrame? key stack.inner = none ∧ stack.root.vars.has key then
    stack.inner.findSome? fun scope => scope.vars.get? key
  else none

/-- What is written to the innermost scope of the running function that has the variable is the first
that a read finds. -/
theorem findSome?_modify_of_positionInFrame? {key : String} {scopes : List Scope} {position : Nat}
    (found : positionInFrame? key scopes = some position) (variable' : Variable) :
    position < scopes.length ∧
    (scopes.modify position fun scope =>
      { scope with vars := scope.vars.insert key variable' }).findSome?
        (fun scope => scope.vars.get? key) = some variable' := by
  induction scopes generalizing position with
  | nil => simp [positionInFrame?] at found
  | cons scope rest ih =>
    simp only [positionInFrame?] at found
    split at found
    · obtain rfl := Option.some.inj found
      simp [Variables.get?_insert_self]
    · rename_i without
      split at found
      · cases found
      · obtain ⟨later, foundLater, rfl⟩ := Option.map_eq_some_iff.mp found
        obtain ⟨inside, read⟩ := ih foundLater
        have none : scope.vars.get? key = none := by simpa [Variables.has] using without
        exact ⟨by simpa using inside, by simpa [none] using read⟩

/-- What a read finds where an assignment has written. -/
theorem lookup?_write_assignPosition (stack : Stack) (key : String) (variable' : Variable) :
    match stack.shadow? key with
    | none => (stack.write (stack.assignPosition key) key variable').lookup? key = some variable'
    | some shadow =>
      (stack.write (stack.assignPosition key) key variable').lookup? key = some shadow ∧
        (stack.write (stack.assignPosition key) key variable').root.vars.get? key =
          some variable' := by
  cases found : positionInFrame? key stack.inner with
  | some position =>
    have own : stack.shadow? key = none := by simp [shadow?, found]
    obtain ⟨inside, read⟩ := findSome?_modify_of_positionInFrame? found variable'
    rw [own]
    simp only [assignPosition, found, write, modifyAt, inside, if_true, lookup?, read]
  | none =>
    cases held : stack.root.vars.has key with
    | true =>
      -- The script's variable is written, and the scopes of callers are as they were.
      have shadow : stack.shadow? key = stack.inner.findSome? fun scope => scope.vars.get? key := by
        simp [shadow?, found, held]
      have target : stack.assignPosition key = stack.inner.length := by
        simp [assignPosition, found, held]
      rw [shadow, target]
      simp only [write, modifyAt, Nat.lt_irrefl, if_false, lookup?]
      cases read : stack.inner.findSome? fun scope => scope.vars.get? key with
      | none => exact Variables.get?_insert_self _ _ _
      | some shadow => exact ⟨rfl, Variables.get?_insert_self _ _ _⟩
    | false =>
      have own : stack.shadow? key = none := by simp [shadow?, held]
      have target : stack.assignPosition key = 0 := by simp [assignPosition, found, held]
      rw [own, target]
      obtain ⟨_ | ⟨scope, rest⟩, root⟩ := stack
      · simp [write, modifyAt, lookup?, Variables.get?_insert_self]
      · simp [write, modifyAt, lookup?, Variables.get?_insert_self]

end Stack

namespace Machine

/-- An assignment writes the variable, under its name in small letters, where it is looked for. -/
theorem assignVariable_eq_ok {machine after : Machine} {name : String} {value : Value}
    (assigned : assignVariable name value machine = .ok () after) :
    after.stack = machine.stack.write (machine.stack.assignPosition (Text.lower name))
      (Text.lower name) ⟨value, false⟩ := by
  have written : writeVariable (machine.stack.assignPosition (Text.lower name)) (Text.lower name)
      value false machine = .ok () after := assigned
  rw [writeVariable_eq, Text.lower_lower] at written
  split at written
  · cases written
  · cases written
    rfl

/-- What was assigned is read back, unless the running function has no variable of that name, the
script has one and a caller has one too: then the innermost caller's variable is read, and the
script's holds what was assigned. -/
theorem assigned_read_back {machine after : Machine} {name : String} {value : Value}
    (assigned : assignVariable name value machine = .ok () after) :
    match machine.stack.shadow? (Text.lower name) with
    | none => after.varValue? name = some value
    | some shadow =>
      after.varValue? name = some shadow.value ∧
        after.stack.root.vars.get? (Text.lower name) = some ⟨value, false⟩ := by
  have read := machine.stack.lookup?_write_assignPosition (Text.lower name) ⟨value, false⟩
  rw [← assignVariable_eq_ok assigned] at read
  unfold varValue?
  cases shadow : machine.stack.shadow? (Text.lower name) with
  | none =>
    rw [shadow] at read
    simp only [read, Option.map_some]
  | some shadow =>
    simp only [shadow] at read
    exact ⟨by rw [read.1, Option.map_some], read.2⟩

/-- Inside a call of `Inner` from a call of `Outer`: the script and `Outer` have a variable `x`. -/
def twoCalls : Machine :=
  { ofTokens {} "main" [] with
    stack :=
      { inner :=
          [callScope ⟨"Inner", [], #[], 1⟩ 0,
            { callScope ⟨"Outer", [], #[], 4⟩ 0 with vars := [("x", ⟨.number 3, false⟩)] }]
        root := { Scope.ofCode .script .empty with vars := [("x", ⟨.number 1, false⟩)] } }
    callDepth := 2 }

/-- The machine between the two calls is reachable. -/
theorem twoCalls_reachable : twoCalls.Reachable := by
  have fresh : (ofTokens {} "main" []).Reachable := .idle (.fresh {} "main" [])
  have global := fresh.evolved (.write _ 0 "x" ⟨.number 1, false⟩ (.inr rfl) nofun)
  have outer := global.called ⟨"Outer", [], #[], 4⟩ 0 (by decide)
  have locals := outer.evolved (.write _ 0 "x" ⟨.number 3, false⟩ (.inl (Nat.zero_le _)) nofun)
  exact locals.called ⟨"Inner", [], #[], 1⟩ 0 (by decide)

/-- An assignment in the inner call reaches the script's variable. -/
theorem assignVariable_twoCalls (value : Value) :
    ∃ after, assignVariable "x" value twoCalls = .ok () after := by
  have lower : Text.lower "x" = "x" := by decide +kernel
  have written : writeVariable (twoCalls.stack.assignPosition (Text.lower "x")) (Text.lower "x")
      value false twoCalls =
        .ok () { twoCalls with stack := twoCalls.stack.write 2 "x" ⟨value, false⟩ } := by
    rw [writeVariable_eq, Text.lower_lower, lower]
    rfl
  exact ⟨_, written⟩

/-- The inner function's local shadows the root variable it wrote. -/
theorem shadow?_twoCalls :
    twoCalls.stack.shadow? (Text.lower "x") = some ⟨.number 3, false⟩ := by decide +kernel

/-- In the inner call the variable of the outer one is read, whatever was assigned. -/
theorem assigned_read_back_twoCalls : ∃ after,
    assignVariable "x" (.number 2) twoCalls = .ok () after ∧
      after.varValue? "x" = some (.number 3) ∧
      after.stack.root.vars.get? (Text.lower "x") = some ⟨.number 2, false⟩ := by
  obtain ⟨after, assigned⟩ := assignVariable_twoCalls (.number 2)
  have read := assigned_read_back assigned
  rw [shadow?_twoCalls] at read
  exact ⟨after, assigned, read⟩

/-- It is not so that every assignment is read back. -/
theorem assigned_not_read_back :
    ¬ ∀ (machine after : Machine) (name : String) (value : Value), machine.Reachable →
      assignVariable name value machine = .ok () after → after.varValue? name = some value := by
  intro always
  obtain ⟨after, assigned⟩ := assignVariable_twoCalls (.number 2)
  have back := always twoCalls after "x" (.number 2) twoCalls_reachable assigned
  have read := twoCalls.stack.lookup?_write_assignPosition (Text.lower "x") ⟨.number 2, false⟩
  rw [← assignVariable_eq_ok assigned, shadow?_twoCalls] at read
  rw [varValue?, read.1] at back
  cases back

end Machine

end LineScript
