import LineScript.Interpreter.Repetition
import LineScript.Interpreter.Run
import LineScript.Proofs.Custody.Basic
import LineScript.Proofs.Double.Whole
import LineScript.Proofs.Structured.Turns

/-!
# The indices and the rounds of a counting loop

A counting loop whose header does not change goes through indices that depend on the first one, the
last one and the amount to count by alone. Where the first two of them are no NaN there are finitely
many: the indices move in one direction, and there are only so many doubles. For whole numbers they
are an arithmetic progression.
-/

namespace LineScript

namespace Counting

open Double

/-- The indices of a counting loop from one on, up to the one after which it stops. -/
inductive Indices (amount last : Float) : Float → List Float → Prop
  /-- The loop stops after this round. -/
  | stops {index : Float} (passed : passes index (index + amount) last = true) :
      Indices amount last index [index]
  /-- It goes on. -/
  | goes {index : Float} {later : List Float}
      (on : passes index (index + amount) last = false)
      (rest : Indices amount last (index + amount) later) :
      Indices amount last index (index :: later)

/-- The loop makes no round at all: its first index lies beyond the last. -/
def isEmpty (first last amount : Float) : Bool :=
  (amount > 0 && first > last) || (amount < 0 && first < last)

/-- All indices of a counting loop. -/
def Visited (first last amount : Float) (indices : List Float) : Prop :=
  if isEmpty first last amount then indices = [] else Indices amount last first indices

/-! ## There are finitely many -/

/-- How far an index can still move. -/
def room (amount index : Float) : Nat :=
  if 0 ≤ units amount then (limit - units index).toNat else (units index + limit).toNat

/-- An index that moves comes nearer to the greatest or least double. -/
theorem room_lt {amount index : Float} (number : Number (index + amount))
    (moved : (index + amount == index) = false) :
    room amount (index + amount) < room amount index := by
  have within := units_le_limit (index + amount)
  have differs : units (index + amount) ≠ units index := fun same => by
    rw [beq_iff.mpr ⟨number, number.of_add.1, same⟩] at moved
    cases moved
  unfold room
  split <;> rename_i up
  · have := units_le_add number up
    omega
  · have := add_le_units number (by omega)
    omega

/-- Where counting does not give a NaN at once, it comes to an end. -/
theorem exists_indices (last : Float) {amount index : Float} (number : Number (index + amount)) :
    ∃ indices, Indices amount last index indices := by
  by_cases passed : passes index (index + amount) last = true
  · exact ⟨[index], .stops passed⟩
  · have on : passes index (index + amount) last = false := (Bool.not_eq_true _).mp passed
    have moved : (index + amount == index) = false := by
      simp only [passes, Bool.or_eq_false_iff] at on
      exact on.1.1
    have nearer := room_lt number moved
    obtain ⟨later, rest⟩ := exists_indices last number.add_again
    exact ⟨index :: later, .goes on rest⟩
termination_by room amount index

/-- Whatever the last index is, a step to a number gives indices to visit. -/
theorem exists_visited {first amount : Float} (last : Float) (number : Number (first + amount)) :
    ∃ indices, Visited first last amount indices := by
  unfold Visited
  split
  · exact ⟨[], rfl⟩
  · exact exists_indices last number

/-- Counting that gives a NaN never stops. -/
theorem passes_nan {index next : Float} (last : Float) (nan : ¬ Number next) :
    passes index next last = false := by
  have equal : (next == index) = false := by
    rw [← Bool.not_eq_true, beq_iff]
    exact fun same => nan same.1
  have above : ¬ next > index := fun less => nan (lt_iff.mp less).2.1
  have below : ¬ next < index := fun less => nan (lt_iff.mp less).1
  rw [passes, equal, decide_eq_false above, decide_eq_false below]
  rfl

/-- A NaN stays one. -/
theorem not_number_add {index amount : Float} (nan : ¬ Number index) : ¬ Number (index + amount) :=
  fun number => nan number.of_add.1

/-- A loop that counts to a NaN is not empty: its first index is no further than any last one. -/
theorem isEmpty_nan {first amount : Float} (last : Float) (nan : ¬ Number (first + amount)) :
    isEmpty first last amount = false := by
  have far := units_le_limit last
  have room := limit_pos
  have zero : units 0 = 0 := rfl
  rw [← Bool.not_eq_true, isEmpty]
  simp only [Bool.or_eq_true, Bool.and_eq_true, decide_eq_true_eq]
  rintro (⟨up, beyond⟩ | ⟨down, beyond⟩)
  · obtain ⟨-, second, positive⟩ := lt_iff.mp up
    obtain ⟨-, number, above⟩ := lt_iff.mp beyond
    cases sum_cases number second with
    | opposite _ infinite against => omega
    | first number | second number | bounded number => exact nan number
  · obtain ⟨second, -, negative⟩ := lt_iff.mp down
    obtain ⟨number, -, below⟩ := lt_iff.mp beyond
    cases sum_cases number second with
    | opposite _ infinite against => omega
    | first number | second number | bounded number => exact nan number

/-! ## Whole numbers -/

/-- The indices are small: those of all rounds, and the one after them. -/
def Small (start step : Int) (count : Nat) : Prop :=
  ∀ k : Nat, k ≤ count → (start + k * step).natAbs < 2 ^ 52

/-- The rest of a small progression is small. -/
theorem Small.tail {start step : Int} {count : Nat} (small : Small start step (count + 1)) :
    Small (start + step) step count := by
  intro k le
  have next := small (k + 1) (by omega)
  rw [Int.natCast_add, Int.add_mul] at next
  have same : start + (k * step + ((1 : Nat) : Int) * step) = start + step + k * step := by omega
  rwa [same] at next

end Counting

/-!
## Counting loops

A counting loop whose header is constant makes the rounds that a loop over the list of its indices
makes. With a body that always goes on it binds the index variable to each of them in turn and ends,
or it counts to a NaN and never does. The engine's own literals are constant, and a body without
statements always goes on.
-/

namespace Engine

open Counting Double

variable {low : Engine} {loop : ForLoop} {id fuel : Nat} {machine : Machine}
variable {first last step : Value} {indices : List Float} {safe : Machine → Prop}

/-- A run of tokens has one value, whatever the machine, and evaluating it changes nothing. -/
def IsConstant (low : Engine) (block : TokenBlock) (value : Value) : Prop :=
  low.whole (.whole block) = pure value

/-- The step of a loop is constant; a loop without one counts by one. -/
def HasStep (low : Engine) : Option TokenBlock → Value → Prop
  | some block, step => low.IsConstant block step
  | none, step => step = .number 1

/-- The header of a counting loop is constant. -/
inductive HasRange (low : Engine) (loop : ForLoop) (first last step : Value) : Prop where
  /-- The start, the end and the step are. -/
  | mk {start stop : TokenBlock} {amount : Option TokenBlock}
      (head : loop.head = .range start stop amount) (hasFirst : low.IsConstant start first)
      (hasLast : low.IsConstant stop last) (hasStep : low.HasStep amount step)

/-- A constant step is what the engine reads for it. -/
theorem HasStep.stepOf {amount : Option TokenBlock} (constant : low.HasStep amount step) :
    low.stepOf amount = pure step.asNumber := by
  cases amount with
  | none =>
    cases constant
    rfl
  | some block =>
    unfold Engine.stepOf
    dsimp only
    rw [constant]
    rfl

/-- Counting goes through its indices as a loop over their list does. -/
theorem countFrom_eq {amount : Option TokenBlock} {bound index : Float}
    (constant : low.HasStep amount step) (counts : Indices step.asNumber bound index indices)
    (enough : indices.length ≤ fuel) :
    low.countFrom loop amount bound fuel index step.asNumber =
      low.visitEach loop (indices.map Value.ofFloat) := by
  induction counts generalizing fuel with
  | stops passed =>
    obtain ⟨fuel, rfl⟩ : ∃ more, fuel = more + 1 := Nat.exists_eq_add_of_le' enough
    unfold countFrom
    rw [List.map_singleton, visitEach]
    simp only [passed]
    rfl
  | goes on rest ih =>
    rw [List.length_cons] at enough
    obtain ⟨fuel, rfl⟩ := Nat.exists_eq_add_of_le' (Nat.le_trans (Nat.le_add_left 1 _) enough)
    unfold countFrom
    rw [List.map_cons, visitEach]
    simp only [on, constant.stepOf, pure_bind, ih (Nat.le_of_succ_le_succ enough)]
    rfl

/-- A counting loop does what a loop over the list of its indices does. -/
theorem forLoop_eq (token : Token) (found : machine.program.loops[id]? = some loop)
    (header : low.HasRange loop first last step)
    (counts : Visited first.asNumber last.asNumber step.asNumber indices)
    (enough : indices.length ≤ low.fuel) :
    low.forLoop token id machine = low.visitEach loop (indices.map Value.ofFloat) machine := by
  obtain ⟨head, hasFirst, hasLast, hasStep⟩ := header
  unfold forLoop
  simp only [bind, EStateM.bind, run_get, found, head]
  unfold count
  rw [hasFirst, hasLast, hasStep.stepOf]
  simp only [pure_bind]
  unfold Visited isEmpty at counts
  split <;> rename_i empty
  · rw [if_pos empty] at counts
    rw [counts]
    rfl
  · rw [if_neg empty] at counts
    rw [countFrom_eq hasStep counts enough]

/-- A body goes on when it ends normally or with a jump to the next round of its own loop. -/
def goesOn : Flow → Prop
  | .normal => True
  | .continueLoop levels => levels = 1
  | _ => False

/-- A flow that goes on leads to the next round. -/
theorem ofFlow_of_goesOn {flow : Flow} (on : goesOn flow) : Round.ofFlow flow = .next := by
  cases flow with
  | normal => rfl
  | continueLoop levels =>
    cases on
    rfl
  | _ => cases on

/-- On machines that are safe the body of a loop always goes on, and the machine is safe again,
whatever the index variable is bound to. -/
def AlwaysGoesOn (low : Engine) (loop : ForLoop) (safe : Machine → Prop) : Prop :=
  ∀ (value : Value) (machine : Machine), safe machine → ∃ flow after,
    low.runBlock (.whole loop.body) [(loop.index, value)] machine = .ok flow after ∧
      goesOn flow ∧ safe after

/-- The body of a loop is run once for each of these values in turn, with the index variable bound
to the value, and goes on each time. -/
inductive Rounds (low : Engine) (loop : ForLoop) : List Value → Machine → Machine → Prop
  /-- No more rounds. -/
  | done {machine : Machine} : Rounds low loop [] machine machine
  /-- A round, and those after it. -/
  | round {value : Value} {values : List Value} {machine middle after : Machine} {flow : Flow}
      (ran : low.runBlock (.whole loop.body) [(loop.index, value)] machine = .ok flow middle)
      (on : goesOn flow) (rest : Rounds low loop values middle after) :
      Rounds low loop (value :: values) machine after

/-- A body that goes on makes a round that asks for the next one and keeps the machine. -/
theorem round_eq {value : Value} {flow : Flow} {after : Machine}
    (ran : low.runBlock (.whole loop.body) [(loop.index, value)] machine = .ok flow after)
    (on : goesOn flow) : low.round loop value machine = .ok .next after := by
  simp only [Engine.round, bind, EStateM.bind, ran, ofFlow_of_goesOn on]
  rfl

/-- With a body that always goes on, a loop over a list makes a round for each member and ends. -/
theorem visitEach_rounds (always : low.AlwaysGoesOn loop safe) (values : List Value)
    (isSafe : safe machine) :
    ∃ after, low.visitEach loop values machine = .ok .normal after ∧
      low.Rounds loop values machine after := by
  induction values generalizing machine with
  | nil => exact ⟨machine, rfl, .done⟩
  | cons value values ih =>
    obtain ⟨flow, middle, ran, on, safeMiddle⟩ := always value machine isSafe
    obtain ⟨after, visited, rounds⟩ := ih safeMiddle
    refine ⟨after, ?_, .round ran on rounds⟩
    unfold visitEach
    simp only [bind, EStateM.bind, round_eq ran on]
    exact visited

/-- Counting from a NaN on never ends. -/
theorem countFrom_nan {amount : Option TokenBlock} {bound index : Float}
    (constant : low.HasStep amount step) (always : low.AlwaysGoesOn loop safe)
    (nan : ¬ Number (index + step.asNumber)) (isSafe : safe machine) :
    ∃ after, low.countFrom loop amount bound fuel index step.asNumber machine =
      .error .starved after := by
  induction fuel generalizing index machine with
  | zero => exact ⟨machine, rfl⟩
  | succ fuel ih =>
    obtain ⟨flow, middle, ran, on, safeMiddle⟩ := always (Value.ofFloat index) machine isSafe
    obtain ⟨after, stopped⟩ := ih (not_number_add nan) safeMiddle
    refine ⟨after, ?_⟩
    unfold countFrom
    simp only [bind, EStateM.bind, round_eq ran on, passes_nan bound nan, constant.stepOf]
    exact stopped

/-- A counting loop whose first sum is a NaN never ends. -/
theorem forLoop_nan (token : Token) (found : machine.program.loops[id]? = some loop)
    (header : low.HasRange loop first last step) (always : low.AlwaysGoesOn loop safe)
    (nan : ¬ Number (first.asNumber + step.asNumber)) (isSafe : safe machine) :
    ∃ after, low.forLoop token id machine = .error .starved after := by
  obtain ⟨head, hasFirst, hasLast, hasStep⟩ := header
  have empty := isEmpty_nan last.asNumber nan
  unfold isEmpty at empty
  unfold forLoop
  simp only [bind, EStateM.bind, run_get, found, head]
  unfold count
  rw [hasFirst, hasLast, hasStep.stepOf]
  simp only [pure_bind, empty]
  exact countFrom_nan hasStep always nan isSafe

end Engine

/-! ## Plain loops -/

open Machine Engine

/-- The value of a literal. -/
def Token.literal? (token : Token) : Option Value :=
  match token.kind with
  | .string => some (.string token.lexeme)
  | .number | .double => some (Value.parseNumber token.lexeme)
  | .boolean => some (.bool (token.lexeme == "True"))
  | .binary => (Text.Hex.decode? token.lexeme).map .binary
  | .kwNull => some .null
  | .kwDefault => some .defaultWord
  | _ => none

variable {token : Token} {value : Value} {window : Window} {pos : Nat} {machine : Machine}

/-- A literal token reads as its value and leaves the cursor behind it. -/
theorem atom_literal (low : Engine) (literal : token.literal? = some value) :
    low.atom window token pos = pure (value, pos) := by
  unfold Token.literal? at literal
  unfold Engine.atom
  split at literal <;> rename_i kind <;> simp only [kind]
  case h_5 =>
    obtain ⟨bytes, decoded, rfl⟩ := Option.map_eq_some_iff.mp literal
    simp only [decoded]
  case h_8 => cases literal
  all_goals
    cases literal
    rfl

/-- A literal is constant. -/
theorem isConstant_literal (fuel : Nat) (literal : token.literal? = some value) :
    (engine (fuel + 4)).IsConstant #[token] value := by
  have found : (Window.whole #[token]).token? 0 = some token := rfl
  have behind : (Window.whole #[token]).token? 1 = none := rfl
  have noSubscript : (Window.whole #[token]).hasKind 1 .lbracket = false := rfl
  have term : (engine (fuel + 3)).term (.whole #[token]) 0 = pure (value, 1) := by
    change (engine (fuel + 2)).evalTerm (.whole #[token]) 0 = _
    unfold Engine.evalTerm
    simp only [found, atom_literal _ literal, pure_bind]
    change Engine.subscripted _ _ (fuel + 1) 1 value = _
    unfold Engine.subscripted
    rw [noSubscript]
    rfl
  unfold IsConstant Engine.whole
  change (engine (fuel + 3)).evalValue (.whole #[token]) 0 >>= _ = _
  unfold Engine.evalValue
  rw [term, pure_bind]
  change Engine.merge _ _ (fuel + 2) 1 value >>= _ = _
  unfold Engine.merge
  simp only [behind, pure_bind]

/-- A body without statements: line ends and comments only. -/
def TokenBlock.isIdle (body : TokenBlock) : Bool := body.all Token.endsLine

/-- The machine does not wait, and its script is not ending. -/
structure Machine.Unhindered (machine : Machine) : Prop where
  /-- It does not wait, and nobody makes it wait. -/
  awake : machine.Awake
  /-- The script goes on. -/
  continues : machine.exitRequested = false

/-- An unhindered machine stays unhindered with another stack. -/
theorem Machine.Unhindered.with_stack (unhindered : machine.Unhindered) (stack : Stack) :
    Machine.Unhindered { machine with stack } :=
  ⟨⟨unhindered.awake.1, unhindered.awake.2⟩, unhindered.continues⟩

/-- Such a machine takes its next turn at once. -/
theorem Machine.Unhindered.advances (unhindered : machine.Unhindered) (low : Engine) (looks : Nat) :
    ∃ after : Machine, after.Unhindered ∧ after.stack = machine.stack ∧
      after.program = machine.program ∧
      low.runStatements (looks + 1) machine = Structured.advance low looks after := by
  rw [Engine.runStatements_succ]
  cases listed : machine.interference with
  | nil =>
    refine ⟨machine, unhindered, rfl, rfl, ?_⟩
    simp only [isSuspended, bind, EStateM.bind, run_modify, run_get, pure, EStateM.pure, listed,
      unhindered.awake.suspended, unhindered.continues, Bool.false_eq_true, if_false]
    rfl
  | cons wait waits =>
    have awake := unhindered.awake.look listed
    have quiet : wait = false := awake.suspended
    subst quiet
    refine ⟨_, ⟨awake, unhindered.continues⟩, rfl, rfl, ?_⟩
    simp only [isSuspended, bind, EStateM.bind, run_modify, run_get, pure, EStateM.pure, listed,
      unhindered.continues, Bool.false_eq_true, if_false]
    rfl

/-- Line ends and comments are passed over until the window ends. -/
theorem runStatements_idle (low : Engine) {looks : Nat}
    (idle : ∀ token ∈ window.tokens, token.endsLine = true)
    (inside : window.stop ≤ window.tokens.size) (at' : Structured.At window pos machine)
    (enough : window.stop - pos < looks) (unhindered : machine.Unhindered) :
    ∃ after, low.runStatements looks machine = .ok .normal after ∧ after.Unhindered := by
  induction looks generalizing pos machine with
  | zero => omega
  | succ looks ih =>
    obtain ⟨looked, isUnhindered, same, -, turn⟩ := unhindered.advances low looks
    have here := at'.of_top same
    rw [turn]
    unfold Structured.advance
    simp only [bind, EStateM.bind]
    by_cases more : pos < window.stop
    · have bound : pos < window.tokens.size := by omega
      have found : window.token? pos = some window.tokens[pos] := by
        rw [Window.token?, if_pos more, Array.getElem?_eq_getElem bound]
      have ends := idle _ (Array.getElem_mem bound)
      simp only [Structured.step_ending here found ends]
      exact ih (here.arrived (pos + 1) window.tokens[pos]) (by omega)
        ⟨⟨isUnhindered.awake.1, isUnhindered.awake.2⟩, isUnhindered.continues⟩
    · have none : looked.stack.top.current? = none := by
        rw [Scope.current?, here.code, here.stands, Window.token?, if_neg more]
      have ended : low.step looked = .ok .ended looked := by
        simp only [Engine.step, topScope, bind, EStateM.bind, run_get, pure, EStateM.pure, none]
      rw [ended]
      exact ⟨looked, rfl, isUnhindered⟩

/-- A body without statements always goes on. -/
theorem alwaysGoesOn_idle {fuel : Nat} {loop : ForLoop} (idle : loop.body.isIdle = true)
    (enough : loop.body.size + 1 ≤ fuel) :
    (engine (fuel + 1)).AlwaysGoesOn loop Machine.Unhindered := by
  intro value machine unhindered
  have pushed := unhindered.with_stack
    (machine.stack.push (blockScope (.whole loop.body) [(loop.index, value)]))
  have start : Structured.At (.whole loop.body) 0 { machine with
      stack := machine.stack.push (blockScope (.whole loop.body) [(loop.index, value)]) } :=
    ⟨rfl, rfl, rfl⟩
  have ends : ∀ token ∈ (Window.whole loop.body).tokens, token.endsLine = true := by
    intro token member
    exact Array.all_eq_true_iff_forall_mem.mp idle token member
  have bound : (Window.whole loop.body).stop - 0 < fuel := enough
  obtain ⟨after, ran, unhinderedAfter⟩ :=
    runStatements_idle (engine fuel) ends (Nat.le_refl _) start bound pushed
  have scope : (engine (fuel + 1)).runScope { machine with
      stack := machine.stack.push (blockScope (.whole loop.body) [(loop.index, value)]) } =
      .ok .normal after := ran
  refine ⟨.normal, { after with stack := after.stack.pop }, ?_, trivial,
    unhinderedAfter.with_stack _⟩
  simp only [Engine.runBlock, bind, EStateM.bind, Exec.inScope_eq, scope]
  rfl

/-- The value of a run of tokens that is a literal. -/
def TokenBlock.literal? (block : TokenBlock) : Option Value :=
  match block.toList with
  | [token] => token.literal?
  | _ => none

/-- A literal block is constant for an engine with enough fuel. -/
theorem isConstant_block (fuel : Nat) {block : TokenBlock} (literal : block.literal? = some value) :
    (engine (fuel + 4)).IsConstant block value := by
  obtain ⟨tokens⟩ := block
  unfold TokenBlock.literal? at literal
  split at literal <;> rename_i same
  · change tokens = _ at same
    subst same
    exact isConstant_literal fuel literal
  · cases literal

/-- The start, the end and the step of a counting loop of literals whose body has no statements. -/
def ForLoop.plainRange? (loop : ForLoop) : Option (Value × Value × Value) :=
  match loop.head with
  | .range start stop (some amount) =>
    if loop.body.isIdle then
      return (← start.literal?, ← stop.literal?, ← amount.literal?)
    else none
  | _ => none

variable {loop : ForLoop} {first last step : Value}

/-- Such a loop is constant, and its body always goes on. -/
theorem ForLoop.plainRange?_eq_some (plain : loop.plainRange? = some (first, last, step))
    (fuel : Nat) (enough : loop.body.size ≤ fuel + 2) :
    (engine (fuel + 4)).HasRange loop first last step ∧
      (engine (fuel + 4)).AlwaysGoesOn loop Machine.Unhindered := by
  unfold ForLoop.plainRange? at plain
  split at plain
  · rename_i start stop amount head
    split at plain
    · rename_i idle
      simp only [Option.bind_eq_bind, Option.bind_eq_some_iff, Option.pure_def, Option.some.injEq,
        Prod.mk.injEq] at plain
      obtain ⟨_, isFirst, _, isLast, _, isStep, rfl, rfl, rfl⟩ := plain
      exact ⟨⟨head, isConstant_block fuel isFirst, isConstant_block fuel isLast,
        isConstant_block fuel isStep⟩, alwaysGoesOn_idle idle (by omega)⟩
    · cases plain
  · cases plain

end LineScript
