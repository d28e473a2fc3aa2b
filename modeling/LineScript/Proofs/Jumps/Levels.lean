import LineScript.Proofs.Jumps.Nest
import Mathlib.Algebra.Group.Nat.Defs

/-!
# Levels of jumps

A jump out of loops says how many it is meant for. Every loop that it reaches takes one level off,
and nothing else does: choices and selections let it through. So a jump over `n` levels, executed
inside `n` loops or more, is a matter of the `n`-th of them alone, and inside of fewer loops it
stops the frame that they stand in (`jump_counts_loops`). A level is kept as a word of 32 bits. A
greater one is cut off, so that a jump over more levels than there are loops may end a loop in place
of the run (`great_level_ends_loop`).
-/

namespace LineScript

namespace Jumps

open Machine Engine

/-- The level behind the word of a jump, at the innermost scope's position; one if there is none. -/
def jumpLevel (low : Engine) : Exec Int64 := do
  if ← atLineEnd then return 1 else return (← low.scopeValue).asInt

/-- A flow is a jump out of loops, over a number of levels. -/
def IsJump (jump : UInt32 → Flow) : Prop := jump = .exitLoop ∨ jump = .continueLoop

/-- The flow of a jump that a word stands for. -/
def jumpOf : TokenKind → Option (UInt32 → Flow)
  | .kwExitLoop => some .exitLoop
  | .kwContinueLoop => some .continueLoop
  | _ => none

/-- The next statement of a machine is a jump, whose level is evaluated. -/
inductive Executes (left : Nat) (jump : UInt32 → Flow) (machine : Machine) (level : Int64)
    (last : Machine) : Prop where
  /-- The machine goes on, and stands at the word. -/
  | intro {after : Machine} {token : Token} (goes : Goes machine after)
      (current : after.stack.top.current? = some token) (isWord : jumpOf token.kind = some jump)
      (counted : jumpLevel (engine left) (reading after token) = .ok level last)

end Jumps

/-- The machine without a number of its innermost scopes. -/
def Machine.without (machine : Machine) (count : Nat) : Machine :=
  { machine with stack := { machine.stack with inner := machine.stack.inner.drop count } }

namespace Jumps

open Machine Engine

variable {jump : UInt32 → Flow} {levels : UInt32} {machine last : Machine} {action : Exec Flow}
  {place : Place} {places : List Place} {base : List ScopeKind}

/-- The words that jump give jumps. -/
theorem isJump_of_word {kind : TokenKind} (isWord : jumpOf kind = some jump) : IsJump jump := by
  unfold jumpOf at isWord
  split at isWord <;> cases isWord
  · exact .inl rfl
  · exact .inr rfl

/-- Every jump needs surroundings. -/
theorem IsJump.needsSurroundings (isJump : IsJump jump) (levels : UInt32) :
    needsSurroundings (jump levels) = true := by
  obtain rfl | rfl := isJump <;> rfl

/-- No jump is the normal flow. -/
theorem IsJump.ne_normal (isJump : IsJump jump) (levels : UInt32) : jump levels ≠ .normal := by
  obtain rfl | rfl := isJump <;> nofun

/-- Control leaves a block with any flow. -/
theorem leaveScope_block (flow : Flow) (isBlock : last.stack.top.kind = .block) :
    leaveScope flow last = .ok flow last := by
  simp [leaveScope, topScope, bind, EStateM.bind, run_get, pure, EStateM.pure, Scope.isFrame,
    isBlock]

/-- A jump does not leave a frame. -/
theorem IsJump.leaveScope_frame (isJump : IsJump jump) (isFrame : last.stack.top.isFrame = true) :
    leaveScope (jump levels) last =
      .error (.fault (.running (.flowOutside (jump levels).trace) last.line [])) last := by
  simp [leaveScope, topScope, bind, EStateM.bind, run_get, pure, EStateM.pure, isFrame,
    isJump.needsSurroundings, Exec.currentLine, Exec.fail]
  rfl

/-- Only a loop takes a level off a jump. -/
theorem control_jump (isJump : IsJump jump) (entry : Entry)
    (passes : entry.isLoop = false ∨ levels ≠ 1) :
    entry.control (jump levels) =
      .leave (jump (if entry.isLoop then levels - 1 else levels)) := by
  obtain rfl | rfl := isJump <;> cases entry <;>
    simp_all [Entry.control, Entry.isLoop, Round.ofFlow]

/-- In a block, a jump ends the body. -/
theorem closing_jump {flow : Flow} (ran : action machine = leaveScope flow last)
    (isBlock : last.stack.top.kind = .block) :
    closing action machine = .ok flow (last.without 1) := by
  unfold closing
  rw [ran, leaveScope_block flow isBlock, Machine.without, List.drop_one]
  rfl

/-- A jump that reaches the loop it is meant for is a matter of that loop. -/
theorem Place.around_last (ran : action machine = leaveScope (jump 1) last)
    (isBlock : last.stack.top.kind = .block) :
    place.around action machine =
      (do place.leave (← place.entry.ended (engine place.fuel) (jump 1)) : Exec Flow)
        (last.without 1) := by
  unfold Place.around
  rw [Exec.bind_ok (closing_jump ran isBlock)]

/-- A jump that is meant for something further out leaves the scope around the statement too. -/
theorem Place.around_passing (isJump : IsJump jump)
    (ran : action machine = leaveScope (jump levels) last)
    (isBlock : last.stack.top.kind = .block)
    (passes : place.entry.isLoop = false ∨ levels ≠ 1) :
    place.around action machine =
      leaveScope (jump (if place.entry.isLoop then levels - 1 else levels))
        (Structured.moved place.behind (last.without 1)) := by
  unfold Place.around
  rw [Exec.bind_ok (closing_jump ran isBlock), Entry.ended, control_jump isJump _ passes]
  dsimp only
  rw [pure_bind, Place.leave, Exec.bind_ok (Structured.moveTo_eq _ _), if_neg (isJump.ne_normal _)]

/-- The kinds of scopes do not depend on where the innermost one stands. -/
theorem kinds_moved (pos : Nat) (machine : Machine) :
    (Structured.moved pos machine).stack.kinds = machine.stack.kinds :=
  (Stack.Matches.of_outline (Stack.outline_modifyTop_pos machine.stack pos)).kinds

/-- Taking off a scope takes off its kind. -/
theorem kinds_without {kind : ScopeKind} {kinds : List ScopeKind}
    (stacked : last.stack.kinds = kind :: kinds) (others : kinds ≠ []) :
    (last.without 1).stack.kinds = kinds := by
  unfold Machine.without Stack.kinds Stack.scopes at *
  cases inner : last.stack.inner with
  | nil => simp_all
  | cons scope below => simp_all

/-- Where a scope stands does not matter once it is taken off. -/
theorem without_moved (pos count : Nat) (deep : 1 < machine.stack.inner.length) :
    (Structured.moved pos (machine.without 1)).without (count + 1) =
      machine.without (count + 2) := by
  unfold Machine.without Structured.moved Stack.modifyTop
  cases inner : machine.stack.inner with
  | nil => simp [inner] at deep
  | cons scope below =>
    cases below with
    | nil => simp [inner] at deep
    | cons scope' below => rfl

/-- The innermost scope of a stack is of the first of its kinds. -/
theorem top_kind {kind : ScopeKind} {kinds : List ScopeKind}
    (stacked : last.stack.kinds = kind :: kinds) : last.stack.top.kind = kind := by
  unfold Stack.kinds Stack.scopes at stacked
  unfold Stack.top
  cases inner : last.stack.inner <;> simp_all

/-- No places hold no loop. -/
@[simp] theorem loops_nil : loops [] = 0 := rfl

/-- One more place holds one more loop when its entry is a loop. -/
@[simp] theorem loops_cons (place : Place) (places : List Place) :
    loops (place :: places) = loops places + if place.entry.isLoop then 1 else 0 :=
  List.countP_cons

/-- The levels of a jump that a statement let through, and the one that a loop took off. -/
theorem toNat_passed {isLoop : Bool} (positive : 0 < levels.toNat)
    (passes : isLoop = false ∨ levels ≠ 1) :
    (if isLoop then levels - 1 else levels).toNat + (if isLoop then 1 else 0) = levels.toNat ∧
      0 < (if isLoop then levels - 1 else levels).toNat := by
  cases isLoop with
  | false => exact ⟨rfl, positive⟩
  | true =>
    have other : levels.toNat ≠ 1 := fun one => by
      have same : levels = 1 := UInt32.toNat_inj.mp one
      simp [same] at passes
    have one : (1 : UInt32) ≤ levels := UInt32.le_iff_toNat_le.mpr positive
    have less : (levels - 1).toNat = levels.toNat - 1 := UInt32.toNat_sub_of_le _ _ one
    simp only [if_true, less]
    omega

/-- What a jump that a statement let through finds around the statement. -/
theorem passed_place (isJump : IsJump jump) (others : base ≠ [])
    (stacked : last.stack.kinds = List.replicate (places.length + 1) .block ++ base)
    (ran : action machine = leaveScope (jump levels) last)
    (passes : place.entry.isLoop = false ∨ levels ≠ 1) :
    place.around action machine =
        leaveScope (jump (if place.entry.isLoop then levels - 1 else levels))
          (Structured.moved place.behind (last.without 1)) ∧
      (Structured.moved place.behind (last.without 1)).stack.kinds =
        List.replicate places.length .block ++ base := by
  rw [List.replicate_succ, List.cons_append] at stacked
  exact ⟨Place.around_passing isJump ran (top_kind stacked) passes,
    (kinds_moved place.behind _).trans (kinds_without stacked (by simp [others]))⟩

/-- A jump over no more levels than there are loops is a matter of the loop that is as many loops
out as it has levels, on the machine without the scopes inside of that loop. -/
theorem inside_enough (isJump : IsJump jump) (others : base ≠ [])
    (stacked : last.stack.kinds = List.replicate places.length .block ++ base)
    (ran : action machine = leaveScope (jump levels) last) (positive : 0 < levels.toNat)
    (enough : levels.toNat ≤ loops places) :
    ∃ inner place outer, places = inner ++ place :: outer ∧ place.entry.isLoop = true ∧
      loops inner + 1 = levels.toNat ∧
      inside places action machine =
        inside outer (do place.leave (← place.entry.ended (engine place.fuel) (jump 1)))
          (last.without (inner.length + 1)) := by
  induction places generalizing action machine last levels with
  | nil =>
    rw [loops_nil] at enough
    omega
  | cons place places ih =>
    by_cases reached : place.entry.isLoop = true ∧ levels = 1
    · obtain ⟨isLoop, rfl⟩ := reached
      have isBlock : last.stack.top.kind = .block := top_kind stacked
      exact ⟨[], place, places, rfl, isLoop, rfl,
        inside_congr places (Place.around_last ran isBlock)⟩
    · have passes : place.entry.isLoop = false ∨ levels ≠ 1 := by
        cases isLoop : place.entry.isLoop <;> simp_all
      obtain ⟨around, below⟩ := passed_place isJump others stacked ran passes
      obtain ⟨counted, left⟩ := toNat_passed positive passes
      rw [loops_cons] at enough
      obtain ⟨inner, target, outer, rfl, isLoop, counts, same⟩ := ih below around left (by omega)
      -- There is a scope below the one that was taken off, so the move in it is forgotten.
      have deep : 1 < last.stack.inner.length := by
        have lengths := congrArg List.length stacked
        have some' := List.length_pos_iff.mpr others
        simp [Stack.kinds, Stack.scopes] at lengths
        omega
      refine ⟨place :: inner, target, outer, rfl, isLoop, ?_, ?_⟩
      · rw [loops_cons]
        omega
      · rw [List.length_cons, ← without_moved place.behind inner.length deep]
        exact same

/-- A jump over more levels than there are loops stops the frame that they stand in. -/
theorem inside_too_few (isJump : IsJump jump) {kind : ScopeKind} {kinds : List ScopeKind}
    (isFrame : kind ≠ .block)
    (stacked : last.stack.kinds = List.replicate places.length .block ++ kind :: kinds)
    (ran : action machine = leaveScope (jump levels) last) (positive : 0 < levels.toNat)
    (few : loops places < levels.toNat) :
    ∃ stack : Stack, stack.kinds = kind :: kinds ∧
      inside places action machine =
        .error (.fault (.running
            (.flowOutside (jump (UInt32.ofNat (levels.toNat - loops places))).trace) last.line []))
          { last with stack } := by
  induction places generalizing action machine last levels with
  | nil =>
    have top : last.stack.top.isFrame = true := by
      simpa [Scope.isFrame, top_kind stacked] using isFrame
    refine ⟨last.stack, stacked, ?_⟩
    rw [loops_nil, Nat.sub_zero, UInt32.ofNat_toNat]
    exact ran.trans (isJump.leaveScope_frame top)
  | cons place places ih =>
    rw [loops_cons] at few
    have passes : place.entry.isLoop = false ∨ levels ≠ 1 := by
      cases isLoop : place.entry.isLoop with
      | false => exact .inl rfl
      | true =>
        refine .inr fun one => ?_
        simp [isLoop, one] at few
    obtain ⟨around, below⟩ := passed_place isJump (by simp) stacked ran passes
    obtain ⟨counted, left⟩ := toNat_passed positive passes
    obtain ⟨stack, same, failed⟩ := ih below around left (by omega)
    refine ⟨stack, same, ?_⟩
    rw [loops_cons, ← counted, Nat.add_sub_add_right]
    exact failed

/-- Looking at the suspension leaves the scopes alone. -/
theorem isSuspended_stack {machine after : Machine} {suspended : Bool}
    (looked : isSuspended machine = .ok suspended after) : after.stack = machine.stack :=
  (Guard.Ends.isSuspended : (Guard.free machine.program).Ends machine isSuspended _).returned looked

/-- The kinds of scopes stay as they are, whatever a run does. -/
theorem kinds_evolved {before after : Machine} (evolves : before.Evolves after) :
    after.stack.kinds = before.stack.kinds :=
  (Stack.Matches.of_outline evolves.outline_eq).kinds

/-- A statement that is run leaves the kinds of scopes as they are. -/
theorem kinds_stepped {left : Nat} {machine after : Machine} {result : StepResult}
    (ran : (engine left).step machine = .ok result after) :
    after.stack.kinds = machine.stack.kinds := by
  have ends := ((engine_obeys (.free machine.program) left).step rfl trivial).evolves
  simp only [Exec.final, Exec.left, ran] at ends
  exact kinds_evolved ends

/-- A run that has come inside some places stands in as many blocks of the frame that it began
in. -/
theorem Comes.kinds {fuel left looks : Nat} {start machine : Machine} {places : List Place}
    (comes : Comes fuel start places left looks machine) :
    machine.stack.kinds = List.replicate places.length .block ++ start.stack.kinds := by
  induction comes with
  | start => rfl
  | wait comes waits ih => rw [isSuspended_stack waits, ih]
  | pass comes goes stepped ih => rw [kinds_stepped stepped, isSuspended_stack goes.1, ih]
  | @enter places left looks behind machine after there last token task entry comes goes current
      opened opens ih =>
    have obeys := fun program => engine_obeys (.free program) (left + 1)
    have opening' := evolves_of_ok (opening_does (obeys _) _ _ _) opened
    have same : last.stack.kinds = machine.stack.kinds := by
      rw [kinds_evolved opens.evolves, kinds_evolved opening', ← isSuspended_stack goes.1]
      exact kinds_moved _ _
    rw [List.length_cons, List.replicate_succ, List.cons_append, ← ih, ← same]
    rfl

/-- A level that fits into a word of 32 bits is kept as it is. -/
theorem toNat_level {level : Int64} {n : Nat} (counts : level.toInt = n) (small : n < 2 ^ 32) :
    level.toUInt64.toUInt32.toNat = n := by
  have wide : level.toUInt64.toNat = n := by
    have bits := BitVec.toInt_eq_toNat_cond level.toBitVec
    have signed : level.toInt = level.toBitVec.toInt := rfl
    have unsigned : level.toUInt64.toNat = level.toBitVec.toNat := rfl
    rw [unsigned]
    rw [signed, bits] at counts
    split at counts <;> omega
  rw [UInt64.toNat_toUInt32, wide]
  exact Nat.mod_eq_of_lt small

/-- A jump reads its level, refuses one below the first, and leaves by the level's low 32 bits. -/
theorem jumping_eq (low : Engine) (token : Token) (jump : UInt32 → Flow) :
    low.jumping token jump = (do
      let level ← jumpLevel low
      if level < 1 then Exec.fail (.loopLevel token.lexeme level) token.line
      else return .leave (jump level.toUInt64.toUInt32)) := by
  unfold Engine.jumping jumpLevel
  simp only [bind_assoc]
  refine bind_congr fun atEnd => ?_
  split <;> simp

/-- Evaluating the level of a jump leaves the kinds of scopes as they are. -/
theorem Executes.kinds {left : Nat} {level : Int64}
    (executes : Executes left jump machine level last) :
    last.stack.kinds = machine.stack.kinds := by
  obtain ⟨goes, current, isWord, counted⟩ := executes
  rename_i after token
  have same : (reading after token).stack.kinds = machine.stack.kinds := by
    rw [← isSuspended_stack goes.1]
    exact kinds_moved _ _
  rw [← same]
  unfold jumpLevel at counted
  obtain ⟨atEnd, _, looked, counted⟩ := run_bind_eq_ok.mp counted
  cases looked
  split at counted
  · cases counted
    rfl
  · obtain ⟨value, _, evaluated, counted⟩ := run_bind_eq_ok.mp counted
    cases counted
    have ends := ((engine_obeys (.free (reading after token).program) left).scopeValue rfl
      trivial).evolves
    simp only [Exec.final, Exec.left, evaluated] at ends
    exact kinds_evolved ends

/-- The turn at a jump over a positive number of levels leaves the scope with them. -/
theorem Executes.runStatements_eq {left looks : Nat} {level : Int64}
    (executes : Executes left jump machine level last) (positive : 1 ≤ level) :
    (engine left).runStatements (looks + 1) machine =
      leaveScope (jump level.toUInt64.toUInt32) last := by
  obtain ⟨goes, current, isWord, counted⟩ := executes
  rename_i after token
  have runs : (engine left).runToken token = (engine left).jumping token jump := by
    unfold jumpOf at isWord
    obtain ⟨kind, lexeme, line, column⟩ := token
    split at isWord <;> rename_i is <;> cases isWord <;> cases is <;> rfl
  have stepped : (engine left).step after = .ok (.leave (jump level.toUInt64.toUInt32)) last := by
    rw [step_eq, current]
    dsimp only
    rw [runs, jumping_eq, Exec.bind_ok counted, if_neg (Int64.not_lt.mpr positive)]
    rfl
  rw [runStatements_going _ _ goes.1 goes.2]
  simp only [Bool.false_eq_true, if_false, Engine.advance]
  rw [Exec.bind_ok stepped]

/-- A frame is left without a jump that would need something around it. -/
theorem runStatements_frame {left : Nat} (looks : Nat) {flow : Flow}
    (isFrame : machine.stack.top.isFrame = true)
    (ran : (engine left).runStatements looks machine = .ok flow last) :
    needsSurroundings flow = false := by
  induction looks generalizing machine with
  | zero => cases ran
  | succ looks ih =>
    have kept : ∀ {after : Machine}, after.stack.kinds = machine.stack.kinds →
        after.stack.top.isFrame = true := by
      intro after same
      obtain ⟨below, kinds⟩ : ∃ below, machine.stack.kinds = machine.stack.top.kind :: below := by
        unfold Stack.kinds Stack.scopes Stack.top
        cases machine.stack.inner <;> exact ⟨_, rfl⟩
      rw [Scope.isFrame, top_kind (same.trans kinds)]
      exact isFrame
    rw [Engine.runStatements_succ] at ran
    obtain ⟨suspended, after, looked, ran⟩ := run_bind_eq_ok.mp ran
    have unchanged := isSuspended_stack looked
    split at ran
    · exact ih (by rw [unchanged]; exact isFrame) ran
    · obtain ⟨_, _, got, ran⟩ := run_bind_eq_ok.mp ran
      cases got
      split at ran
      · cases ran
        rfl
      · obtain ⟨result, next, stepped, ran⟩ := run_bind_eq_ok.mp ran
        have frame := kept ((kinds_stepped stepped).trans (by rw [unchanged]))
        split at ran
        · exact ih frame ran
        · cases ran
          rfl
        · obtain ⟨scope, _, top, ran⟩ := run_bind_eq_ok.mp ran
          cases top
          rw [frame, Bool.true_and] at ran
          split at ran
          · obtain ⟨_, _, _, ⟨⟩⟩ := run_bind_eq_ok.mp ran
          · rename_i calm
            cases ran
            exact Bool.eq_false_iff.mpr calm

/-- What a call of a script's function does until the body begins: the frame is put on and the
parameters are bound in it. -/
def entering (low : Engine) (function : UserFunction) (args : List Value) (line : Nat) :
    Exec Unit := do
  checkArity function.name function.params.length function.required args.length line
  resetRegisters
  enterCall function.name line
  Exec.trace fun _ => "call: " ++ function.name ++ "(" ++ toString args.length ++
    " args) from line " ++ toString line
  modify fun machine =>
    { machine with stack := machine.stack.push (callScope function args.length) }
  low.bindParams function line function.params args

/-- A frame that a machine is about to run fails, and with it the run or the call whose frame it
is. -/
structure Fails (fuel : Nat) (start : Machine) (fault : Fault) (failed : Machine) : Prop where
  /-- The frame fails. -/
  frame : Machine.runScope fuel start = .error (.fault fault) failed
  /-- If it is the frame of the script, the run fails. -/
  script : ∀ {idle ready : Machine}, idle.running = false → prepare idle = .ok () ready →
    ready.started = start → Machine.run fuel idle = .error (.fault fault) failed.rewound
  /-- If it is the frame of a call, the call fails. -/
  call : ∀ {function : UserFunction} {args : List Value} {line : Nat} {caller : Machine},
    entering (engine fuel) function args line caller = .ok () start →
    (engine fuel).callUser function args line caller =
      .error (.fault (fault.leaving function.name line)) (returned failed)

/-- A frame that fails takes the run or the call with it. -/
theorem Fails.of_frame {fuel : Nat} {start failed : Machine} {fault : Fault}
    (frame : Machine.runScope fuel start = .error (.fault fault) failed) :
    Fails fuel start fault failed where
  frame
  script {idle ready} rests prepared begins := by
    subst begins
    rw [run_eq, if_neg (by simp [rests]), prepared]
    dsimp only
    rw [frame]
  call {function args line caller} entered := by
    unfold entering at entered
    obtain ⟨_, checked, arity, entered⟩ := run_bind_eq_ok.mp entered
    obtain ⟨_, reset, cleared, entered⟩ := run_bind_eq_ok.mp entered
    obtain ⟨_, counted, deeper, entered⟩ := run_bind_eq_ok.mp entered
    obtain ⟨_, noted, traced, entered⟩ := run_bind_eq_ok.mp entered
    obtain ⟨_, pushed, put, bound⟩ := run_bind_eq_ok.mp entered
    cases put
    have ran : (do
        (engine fuel).bindParams function line function.params args
        (engine fuel).runScope : Exec Flow)
          { noted with stack := noted.stack.push (callScope function args.length) } =
        .error (.fault fault) failed := by
      rw [Exec.bind_ok bound]
      exact frame
    rw [Engine.callUser, Engine.callUserBy_attempt, Engine.runBody]
    rw [Exec.bind_ok arity, Exec.bind_ok cleared, Exec.bind_ok deeper, Exec.bind_ok traced]
    simp only [bind, EStateM.bind] at ran ⊢
    simp only [Exec.inScope_eq, EStateM.bind, ran]
    rfl

/-- Levels count loops. A jump over `n` levels is executed in the innermost body of a nest of loops,
choices and selections in one frame. If there are at least `n` loops, the `n`-th of them counted
from the inside is concerned, and what it and everything inside of it still had to do is dropped but
for this: after `ExitLoop`, control goes on behind that loop; after `ContinueLoop`, in it, with its
next round. If there are fewer loops, the frame fails, as does the run or the call whose frame it
is. In no case does the frame pass the jump on to what called it. -/
theorem jump_counts_loops {fuel left looks n : Nat} {start : Machine} {level : Int64}
    (frame : start.stack.top.isFrame = true)
    (comes : Comes fuel start places left (looks + 1) machine)
    (executes : Executes left jump machine level last) (counts : level.toInt = n)
    (positive : 1 ≤ n) (small : n < 2 ^ 32) :
    (n ≤ loops places → ∃ inner place outer, places = inner ++ place :: outer ∧
      place.entry.isLoop = true ∧ loops inner + 1 = n ∧
      (jump = .exitLoop → Machine.runScope (fuel + 1) start =
        inside outer (place.leave .normal) (last.without (inner.length + 1))) ∧
      (jump = .continueLoop → Machine.runScope (fuel + 1) start =
        inside outer (do place.leave (← place.entry.again (engine place.fuel)))
          (last.without (inner.length + 1)))) ∧
    (loops places < n → ∃ stack : Stack, stack.kinds = start.stack.kinds ∧
      Fails (fuel + 1) start
        (.running (.flowOutside (jump (UInt32.ofNat (n - loops places))).trace) last.line [])
        { last with stack }) ∧
    ∀ flow after, Machine.runScope (fuel + 1) start = .ok flow after →
      needsSurroundings flow = false := by
  have isJump : IsJump jump := by
    obtain ⟨_, _, isWord, _⟩ := executes
    exact isJump_of_word isWord
  have levelPositive : 1 ≤ level := by
    have one : (1 : Int64).toInt = 1 := rfl
    rw [Int64.le_iff_toInt_le]
    omega
  have kept := toNat_level counts small
  have ran : (engine left).runStatements (looks + 1) machine = _ :=
    executes.runStatements_eq levelPositive
  obtain ⟨kind, kinds, isKind, split⟩ : ∃ kind kinds, kind ≠ .block ∧
      start.stack.kinds = kind :: kinds := by
    refine ⟨start.stack.top.kind, start.stack.kinds.tail, by simpa [Scope.isFrame] using frame, ?_⟩
    unfold Stack.kinds Stack.scopes Stack.top
    cases start.stack.inner <;> rfl
  have stacked : last.stack.kinds = List.replicate places.length .block ++ kind :: kinds := by
    rw [← split, ← comes.kinds]
    exact executes.kinds
  refine ⟨fun enough => ?_, fun few => ?_, fun flow after => runStatements_frame fuel frame⟩
  · obtain ⟨inner, place, outer, parts, isLoop, reached, same⟩ :=
      inside_enough isJump (by simp) stacked ran (by omega) (by omega)
    rw [← comes.run_eq] at same
    refine ⟨inner, place, outer, parts, isLoop, by omega, ?_, ?_⟩
    · rintro rfl
      rw [same, place.entry.ended_loop _ isLoop]
      rfl
    · rintro rfl
      rw [same, place.entry.ended_loop _ isLoop]
      rfl
  · obtain ⟨stack, same, failed⟩ :=
      inside_too_few isJump isKind stacked ran (by omega) (by omega)
    rw [← comes.run_eq, kept] at failed
    exact ⟨stack, same.trans split.symm, .of_frame failed⟩

/-- The word and the level of the jump that a point stands at, and the machine that has evaluated
the level. -/
def Point.jump? (point : Point) : Option (TokenKind × Int64 × Machine) :=
  point.turn?.bind fun after =>
    after.stack.top.current?.bind fun token =>
      match jumpLevel (engine point.left) (reading after token) with
      | .ok level last => some (token.kind, level, last)
      | _ => none

/-- A point found at a jump executes that jump with its level. -/
theorem Point.jump?_executes {point : Point} {word : TokenKind} {level : Int64}
    (found : point.jump? = some (word, level, last)) (isWord : jumpOf word = some jump) :
    (∃ looks, point.looks = looks + 1) ∧ Executes point.left jump point.machine level last := by
  obtain ⟨after, turn, found⟩ := Option.bind_eq_some_iff.mp found
  obtain ⟨token, current, found⟩ := Option.bind_eq_some_iff.mp found
  obtain ⟨looks, isLooks, goes⟩ := turn?_goes turn
  split at found <;> cases found
  exact ⟨⟨looks, isLooks⟩, .intro goes current isWord ‹_›⟩

/-- What a jump in a script that is followed in some moves comes to: its word and level, the number
of loops around it, and whether the script's statements end without a fault. -/
def jumpTrial (source : String) (moves : List Bool) : Option (TokenKind × Int64 × Nat × Bool) :=
  (tokenize source).toOption.bind fun tokens =>
    match prepare (ofTokens {} "main" tokens) with
    | .error .. => none
    | .ok _ ready =>
      if ready.started.stack.top.isFrame then
        (Point.follow? moves ⟨[], 20, 20, ready.started⟩).bind fun point =>
          point.jump?.map fun (word, level, _) =>
            (word, level, loops point.places,
              match Machine.runScope 21 ready.started with
              | .ok flow _ => flow = .normal
              | .error .. => false)
      else none

/-- A script's statements come to a jump. -/
structure Meets (source : String) (jump : UInt32 → Flow) (level : Int64) (start : Machine)
    (places : List Place) (left looks : Nat) (machine last : Machine) : Prop where
  /-- The script is ready to run. -/
  ready : ∃ tokens ready, tokenize source = .ok tokens ∧
    prepare (ofTokens {} "main" tokens) = .ok () ready ∧ ready.started = start
  /-- It is run in a frame. -/
  frame : start.stack.top.isFrame = true
  /-- Its statements come to the jump. -/
  comes : Comes 20 start places left (looks + 1) machine
  /-- The jump is executed. -/
  executes : Executes left jump machine level last

/-- A finished trial gives a run that meets the jump inside the loops it counts. -/
theorem meets_of_trial {source : String} {moves : List Bool} {word : TokenKind} {level : Int64}
    {count : Nat} {ended : Bool} (tried : jumpTrial source moves = some (word, level, count, ended))
    (isWord : jumpOf word = some jump) :
    ∃ start places left looks machine last,
      Meets source jump level start places left looks machine last ∧ loops places = count ∧
      (ended = true → ∃ after, Machine.runScope 21 start = .ok .normal after) := by
  unfold jumpTrial at tried
  obtain ⟨tokens, read, tried⟩ := Option.bind_eq_some_iff.mp tried
  split at tried
  · cases tried
  · rename_i ready prepared
    split at tried
    · rename_i frame
      obtain ⟨point, followed, tried⟩ := Option.bind_eq_some_iff.mp tried
      obtain ⟨⟨word', level', last⟩, jumped, same⟩ := Option.map_eq_some_iff.mp tried
      simp only [Prod.mk.injEq] at same
      obtain ⟨rfl, rfl, rfl, rfl⟩ := same
      obtain ⟨⟨looks, isLooks⟩, executes⟩ := Point.jump?_executes jumped isWord
      have begins : Point.Reached 20 ready.started ⟨[], 20, 20, ready.started⟩ := Comes.start
      have reached := Point.follow?_reached begins followed
      rw [Point.Reached, isLooks] at reached
      refine ⟨ready.started, point.places, point.left, looks, point.machine, last,
        ⟨⟨tokens, ready, eq_ok_of_toOption read, prepared, rfl⟩, frame, reached, executes⟩, rfl,
        fun ends => ?_⟩
      split at ends
      · rename_i flow after ran
        exact ⟨after, by rw [ran, of_decide_eq_true ends]⟩
      · cases ends
    · cases tried

/-- A statement in a choice in a loop in a selection in a loop. -/
def nested (statement : String) : String :=
  "While True\nSwitch 2\nCase 2\nDo\nIf True Then\n" ++ statement ++
    "\nEndIf\nUntil False\nEndSwitch\nWEnd\n"

/-- A jump over two levels in a loop in a selection in a loop, and one over three levels there. -/
theorem jump_counts_loops_nested :
    (∃ start places left looks machine last inner place outer,
      Meets (nested "ExitLoop 2") .exitLoop 2 start places left looks machine last ∧
      places = inner ++ place :: outer ∧ loops inner + 1 = 2 ∧
      Machine.runScope 21 start =
        inside outer (place.leave .normal) (last.without (inner.length + 1))) ∧
    ∃ start places left looks machine last stack,
      Meets (nested "ContinueLoop 3") .continueLoop 3 start places left looks machine last ∧
      Fails 21 start (.running (.flowOutside "ContinueLoop(1)") last.line [])
        { last with stack } := by
  have twice : jumpTrial (nested "ExitLoop 2")
      [true, false, true, false, true, false, true, false] = some (.kwExitLoop, 2, 2, true) := by
    decide +kernel
  have thrice : jumpTrial (nested "ContinueLoop 3")
      [true, false, true, false, true, false, true, false] =
        some (.kwContinueLoop, 3, 2, false) := by decide +kernel
  obtain ⟨start, places, left, looks, machine, last, meets, count, -⟩ := meets_of_trial twice rfl
  obtain ⟨start', places', left', looks', machine', last', meets', count', -⟩ :=
    meets_of_trial thrice rfl
  constructor
  · obtain ⟨inner, place, outer, parts, -, reached, exits, -⟩ :=
      (@jump_counts_loops .exitLoop machine last places 20 left looks 2 start 2 meets.frame
        meets.comes meets.executes rfl (by decide) (by decide)).1 (by omega)
    exact ⟨start, places, left, looks, machine, last, inner, place, outer, meets, parts, reached,
      exits rfl⟩
  · obtain ⟨stack, -, fails⟩ :=
      (@jump_counts_loops .continueLoop machine' last' places' 20 left' looks' 3 start' 3
        meets'.frame meets'.comes meets'.executes rfl (by decide) (by decide)).2.1 (by omega)
    rw [count'] at fails
    exact ⟨start', places', left', looks', machine', last', stack, meets', fails⟩

/-- A jump over more levels than fit into a word of 32 bits ends the only loop around it in place of
the run. -/
theorem great_level_ends_loop :
    ∃ start places left looks machine last after,
      Meets "While True\nExitLoop 4294967297\nWEnd\n" .exitLoop 4294967297 start places left looks
        machine last ∧
      loops places = 1 ∧ Machine.runScope 21 start = .ok .normal after := by
  have trial : jumpTrial "While True\nExitLoop 4294967297\nWEnd\n" [true, false] =
      some (.kwExitLoop, 4294967297, 1, true) := by decide +kernel
  obtain ⟨start, places, left, looks, machine, last, meets, count, ended⟩ :=
    meets_of_trial trial rfl
  obtain ⟨after, ran⟩ := ended rfl
  exact ⟨start, places, left, looks, machine, last, after, meets, count, ran⟩

end Jumps

end LineScript
