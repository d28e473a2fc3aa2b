import LineScript.Proofs.Custody.Engine
import LineScript.Proofs.Program.Tables
import LineScript.Proofs.Supply.Scope

/-!
# Enough fuel for programs

A call takes one of the calls that are supplied, and what is enough for a program is counted from them. So
programs without open ends stop.
-/

namespace LineScript

/-!
## Enough fuel for calls

A call takes one of the calls that are supplied; where none is left it is refused.
-/

section

open Machine

variable {supply : Supply} {low : Engine}

/-- Binding parameters does not run out of fuel when their defaults can be read. -/
theorem Engine.bindParams_does (function : UserFunction) (line : Nat) {params : List Param}
    (reads : ∀ param ∈ params, ∀ tokens, param.fallback = some tokens →
      low.Reads supply (.whole tokens) 0) (args : List Value) :
    supply.Does (low.bindParams function line params args) fun _ => True := by
  induction params generalizing args with
  | nil => exact .pure trivial
  | cons param params ih =>
    obtain ⟨default, others⟩ := List.forall_mem_cons.mp reads
    have bound : ∀ value, supply.Does (do
        setVariable param.name value
        low.bindParams function line params args.tail) fun _ => True :=
      fun value => (Supply.Does.setVariable _ _).bind fun _ _ => ih others _
    unfold Engine.bindParams
    split
    · split
      · rename_i tokens fallback
        have first : supply.Does (Prod.fst <$> low.value (.whole tokens) 0) fun _ => True :=
          ((default tokens fallback).value 0 (Nat.le_refl 0)).map fun _ _ => trivial
        exact first.bind fun value _ => bound value
      · exact .failFirst _ _
    · exact (Supply.Does.pure trivial : supply.Does _ fun _ => True).bind fun value _ => bound value

/-- Where a call is entered, one less can be entered in it. -/
theorem Supply.Fits.called {machine : Machine} (fits : supply.Fits machine) (scope : Scope)
    (text : Unit → String) (room : machine.callDepth < maxCallDepth) :
    supply.less.Fits (called machine scope text) where
  program_eq := fits.program_eq
  calls := by
    have := fits.calls
    show maxCallDepth ≤ machine.callDepth + 1 + (supply.calls - 1)
    omega
  awake := ⟨fits.awake.1, fits.awake.2⟩

/-- A function of the script whose defaults and body can be run with one call less. -/
theorem Engine.callUser_does {function : UserFunction}
    (inside : 0 < supply.calls → (∀ param ∈ function.params, ∀ tokens,
      param.fallback = some tokens → low.Reads supply.less (.whole tokens) 0) ∧
      low.Enters supply.less (.whole function.body)) (args : List Value) (line : Nat) :
    supply.Does (low.callUser function args line) fun _ => True := by
  rw [Engine.callUser, Engine.callUserBy_attempt, Engine.runBody]
  refine (Supply.Does.checkArity _ _ _ _ _).bind fun _ _ => ?_
  refine (Supply.Does.modifyRegisters _).bind fun _ _ => ?_
  intro machine fits
  unfold Supply.Ends
  rw [Exec.inCall_eq]
  split
  · exact Stop.noConfusion
  · rename_i entered
    have room := Nat.lt_of_not_le entered
    obtain ⟨defaults, body⟩ := inside (by have := fits.calls; omega)
    generalize (fun _ : Unit => "call: " ++ function.name ++ "(" ++ toString args.length ++
      " args) from line " ++ toString line) = text
    have fitsCalled := fits.called (callScope function args.length) text room
    have ends := ((low.bindParams_does function line defaults args).ends fitsCalled).bind
      fun _ middle evolves awake held => body middle (fitsCalled.evolves evolves awake)
        (congrArg (·.2.1) held.1) (congrArg (·.2.2) held.1)
    unfold Supply.Ends at ends
    unfold Exec.final
    cases outcome : (low.bindParams function line function.params args >>= fun _ => low.runScope)
        (called machine (callScope function args.length) text) with
    | ok flow after =>
      rw [outcome] at ends
      obtain ⟨evolves, awake, _⟩ := ends
      have traced : machine.Evolves { machine with host := machine.host.trace text } :=
        .aside rfl rfl rfl ⟨rfl, rfl⟩
      have back : machine.Evolves (returned after) := traced.trans (.call _ _ rfl room evolves)
      have left : supply.Does (do
          modifyRegisters fun registers =>
            { registers with
              error := after.stack.top.registers.error
              extended := after.stack.top.registers.extended }
          return returnedValue flow after.stack.top.registers) fun _ => True :=
        (Supply.Does.modifyRegisters _).bind fun _ _ => .pure trivial
      refine Supply.Reached.after back
        ((left _ (fits.evolves back ⟨awake.1, awake.2⟩)).mono fun _ _ _ held => ⟨?_, trivial⟩)
      exact held.1.trans (Stack.places_pop_of_outline evolves.outline_eq)
    | error stop after =>
      rw [outcome] at ends
      cases stop with
      | halted halt => exact ends
      | fault fault => exact Stop.noConfusion

/-- The call of a name. -/
theorem Engine.callFunction_does
    (inside : 0 < supply.calls → ∀ name function, supply.program.function? name = some function →
      (∀ param ∈ function.params, ∀ tokens, param.fallback = some tokens →
        low.Reads supply.less (.whole tokens) 0) ∧ low.Enters supply.less (.whole function.body))
    (name : String) (args : List Value) (line : Nat) :
    supply.Does (low.callFunction name args line) fun _ => True := by
  unfold Engine.callFunction Engine.callNamed
  refine .get fun machine fits => ?_
  rw [fits.program_eq]
  split
  · exact .pure trivial
  · split
    · rename_i function known
      exact callUser_does (fun some => inside some name function known) args line
    · split
      · exact .callBuiltin _ _ _
      · exact .fail _ _

end

/-!
## How much fuel is enough

A program is bounded if none of its loops has an open end. For such a program the fuel that is
enough for a call is counted from the calls that may still be entered: each of them has a level for
every entry of the tables of calls and loops, since an argument mentions earlier calls only and a
body earlier loops only, and every token of the longest run of tokens has its share of a level.
-/

section

open Machine

namespace Program

variable (program : Program)

/-- No loop of the program has an open end: all of them go through collections. -/
structure Bounded : Prop where
  /-- No loop stands among the statements with its condition. -/
  statements : ∀ tokens ∈ program.streams, ∀ token ∈ tokens.toList,
    token.kind ≠ .kwWhile ∧ token.kind ≠ .kwDo
  /-- No loop of the table counts. -/
  loops : ∀ loop ∈ program.loops.toList, ∃ collection, loop.head = .each collection

/-- The length of the longest run of tokens. -/
def longest : Nat := (program.blocks.map Array.size).foldl max 0

/-- The fuel that an entry of a table adds. -/
def level : Nat := 2 * program.longest + 4

/-- Enough fuel for a call where so many more may be entered. -/
def forCalls (calls : Nat) : Nat :=
  1 + calls * ((program.calls.size + program.loops.size + 2) * program.level)

/-- Enough fuel for terms that mention calls before a rank, with so many tokens left. -/
def forTerms (calls rank left : Nat) : Nat :=
  program.forCalls calls + rank * program.level + 2 * left + 1

/-- Enough fuel for statements that mention loops before a rank, with so many tokens left. -/
def forStatements (calls rank left : Nat) : Nat :=
  program.forCalls calls + program.calls.size * program.level + rank * program.level +
    2 * program.longest + left + 4

/-- Enough fuel for a run of the program. -/
def enough : Nat := program.forCalls (maxCallDepth + 1)

/-- The tokens mention calls before a rank only. -/
def CallsBelow (rank : Nat) (tokens : TokenBlock) : Prop :=
  ∀ token ∈ tokens.toList, ∀ id, token.isCall id → id < rank

/-- The tokens mention loops before a rank only. -/
def LoopsBelow (rank : Nat) (tokens : TokenBlock) : Prop :=
  ∀ token ∈ tokens.toList, ∀ id, token.kind = .loop id → id < rank

variable {program}

/-- No block of the program is longer than the longest. -/
theorem size_le_longest {tokens : TokenBlock} (member : tokens ∈ program.blocks) :
    tokens.size ≤ program.longest := by
  have grows : ∀ (sizes : List Nat) (start : Nat), start ≤ sizes.foldl max start ∧
      ∀ size ∈ sizes, size ≤ sizes.foldl max start := by
    intro sizes
    induction sizes with
    | nil => exact fun start => ⟨Nat.le_refl start, nofun⟩
    | cons size sizes ih =>
      intro start
      obtain ⟨above, rest⟩ := ih (max start size)
      refine ⟨by simp only [List.foldl_cons]; omega, List.forall_mem_cons.mpr ⟨?_, rest⟩⟩
      simp only [List.foldl_cons]
      omega
  exact (grows _ 0).2 _ (List.mem_map_of_mem member)

/-- One call more has a level for every entry of the tables, and two more. -/
theorem forCalls_succ (calls : Nat) : program.forCalls (calls + 1) =
    program.forCalls calls + program.calls.size * program.level +
      program.loops.size * program.level + 2 * program.level := by
  simp only [forCalls, Nat.succ_mul, Nat.add_mul]
  omega

/-- The fuel for calls is positive. -/
theorem forCalls_pos (calls : Nat) : 0 < program.forCalls calls := by
  unfold forCalls
  omega

/-- A smaller rank leaves a level. -/
theorem level_le {rank bound : Nat} (below : rank < bound) :
    rank * program.level + program.level ≤ bound * program.level := by
  rw [← Nat.succ_mul]
  exact Nat.mul_le_mul_right _ below

/-- Every call that a run of tokens mentions has an entry. -/
theorem callsBelow (ordered : program.Ordered) {tokens : TokenBlock}
    (member : tokens ∈ program.blocks) : CallsBelow program.calls.size tokens :=
  fun token inside => (ordered.knows member token inside).1

/-- Every loop that a run of tokens mentions has an entry. -/
theorem loopsBelow (ordered : program.Ordered) {tokens : TokenBlock}
    (member : tokens ∈ program.blocks) : LoopsBelow program.loops.size tokens :=
  fun token inside => (ordered.knows member token inside).2

/-- An engine of some fuel has enough for all parts of the program that need no more. -/
structure Feeds (program : Program) (fuel : Nat) : Prop where
  /-- Calls. -/
  call : ∀ calls, program.forCalls calls ≤ fuel → ∀ name args line,
    Supply.Does ⟨program, calls⟩ ((engine fuel).call name args line) fun _ => True
  /-- Terms. -/
  terms : ∀ calls rank {window first}, window.tokens ∈ program.blocks →
    CallsBelow rank window.tokens →
    program.forTerms calls rank (window.tokens.size - first) ≤ fuel →
    (engine fuel).ReadsTerms ⟨program, calls⟩ window first
  /-- Terms and expressions. -/
  reads : ∀ calls rank {window first}, window.tokens ∈ program.blocks →
    CallsBelow rank window.tokens →
    program.forTerms calls rank (window.tokens.size - first) + 1 ≤ fuel →
    (engine fuel).Reads ⟨program, calls⟩ window first
  /-- The statements of the innermost scope. -/
  statements : ∀ calls rank {machine : Machine}, Supply.Fits ⟨program, calls⟩ machine →
    machine.stack.top.code.tokens ∈ program.streams →
    LoopsBelow rank machine.stack.top.code.tokens →
    program.forStatements calls rank
      (machine.stack.top.code.tokens.size - machine.stack.top.pos) ≤ fuel →
    Supply.Ends machine (engine fuel).runScope fun _ _ => True

namespace Feeds

variable {fuel : Nat} (feeds : program.Feeds fuel)
include feeds

/-- What can be run from its start. -/
theorem enters (calls rank : Nat) {code : Window} (stream : code.tokens ∈ program.streams)
    (below : LoopsBelow rank code.tokens)
    (fed : program.forStatements calls rank (code.tokens.size - code.start) ≤ fuel) :
    (engine fuel).Enters ⟨program, calls⟩ code := by
  rintro machine fits rfl start
  exact feeds.statements calls rank fits stream below (by rw [start]; exact fed)

variable (ordered : program.Ordered)
include ordered

/-- A call, where one unit more is left than for the parts of what is called. -/
theorem call_succ {calls : Nat} (fed : program.forCalls calls ≤ fuel + 1) (name : String)
    (args : List Value) (line : Nat) :
    Supply.Does ⟨program, calls⟩ ((engine (fuel + 1)).call name args line) fun _ => True := by
  refine Engine.callFunction_does (fun some name function known => ?_) name args line
  obtain _ | calls := calls
  · exact absurd some (Nat.lt_irrefl 0)
  have room := program.forCalls_succ calls
  have body := mem_streams_function known
  have size : function.body.size ≤ program.longest :=
    size_le_longest (mem_blocks_of_mem_streams body)
  have level : program.level = 2 * program.longest + 4 := rfl
  refine ⟨fun param member tokens fallback => ?_, ?_⟩
  · have block : tokens ∈ program.blocks := mem_blocks_function known
      (List.mem_cons_of_mem _ (List.mem_filterMap.mpr ⟨param, member, fallback⟩))
    have short : tokens.size ≤ program.longest := size_le_longest block
    refine feeds.reads calls program.calls.size block (callsBelow ordered block) ?_
    simp only [forTerms, Window.whole]
    omega
  · refine feeds.enters calls program.loops.size body
      (loopsBelow ordered (mem_blocks_of_mem_streams body)) ?_
    simp only [forStatements, Window.whole]
    omega

/-- The call of a number before a rank, where a level is left for its arguments. -/
theorem answers {calls rank id : Nat} (before : id < rank)
    (fed : program.forCalls calls + rank * program.level ≤ fuel) :
    (engine fuel).Answers ⟨program, calls⟩ id := by
  have level : program.level = 2 * program.longest + 4 := rfl
  have room : id * program.level + program.level ≤ rank * program.level := level_le before
  refine Engine.answers (fun site known arg member => ?_)
    (feeds.call calls (Nat.le_trans (Nat.le_add_right _ _) fed))
  have block := mem_blocks_arg known member
  have short : arg.size ≤ program.longest := size_le_longest block
  refine feeds.reads calls id block (ordered.args id site known arg member) ?_
  simp only [forTerms, Window.whole]
  omega

/-- Terms, with one unit more than the tokens after their first one need. -/
theorem terms_succ {calls rank : Nat} {window : Window} {first : Nat}
    (member : window.tokens ∈ program.blocks) (below : CallsBelow rank window.tokens)
    (fed : program.forTerms calls rank (window.tokens.size - first) ≤ fuel + 1) :
    (engine (fuel + 1)).ReadsTerms ⟨program, calls⟩ window first := by
  intro pos from'
  have some := program.forCalls_pos calls
  simp only [forTerms] at fed
  refine Engine.Reads.evalTerm (engine_obeys _ fuel) fun token found => ?_
  have inside := Window.lt_of_token? found
  refine ⟨feeds.reads calls rank member below ?_, ?_, fun id is => ?_⟩
  · simp only [forTerms]
    omega
  · rw [engine_fuel]
    omega
  · exact feeds.answers ordered (below token (Window.mem_of_token? found) id is) (by omega)

/-- Terms and expressions, with one unit more than terms need. -/
theorem reads_succ {calls rank : Nat} {window : Window} {first : Nat}
    (member : window.tokens ∈ program.blocks) (below : CallsBelow rank window.tokens)
    (fed : program.forTerms calls rank (window.tokens.size - first) + 1 ≤ fuel + 1) :
    (engine (fuel + 1)).Reads ⟨program, calls⟩ window first where
  term := feeds.terms_succ ordered member below (Nat.le_of_succ_le fed)
  value := by
    intro pos from'
    have some := program.forCalls_pos calls
    simp only [forTerms] at fed
    refine Engine.ReadsTerms.evalValue (engine_obeys _ fuel)
      (feeds.terms calls rank member below ?_) ?_
    · simp only [forTerms]
      omega
    · rw [engine_fuel]
      omega

variable (bounded : program.Bounded)
include bounded

/-- The statement at a position, with one unit more than the blocks behind it need. -/
theorem serves {calls rank : Nat} {window : Window} {pos : Nat} {token : Token}
    (stream : window.tokens ∈ program.streams) (below : LoopsBelow rank window.tokens)
    (found : window.token? pos = some token)
    (fed : program.forStatements calls rank (window.tokens.size - pos) ≤ fuel + 1) :
    (engine fuel).Serves ⟨program, calls⟩ window pos := by
  have block := mem_blocks_of_mem_streams stream
  have short : window.tokens.size ≤ program.longest := size_le_longest block
  have inside := Window.lt_of_token? found
  have some := program.forCalls_pos calls
  have level : program.level = 2 * program.longest + 4 := rfl
  simp only [forStatements] at fed
  -- Every expression of the program may mention all calls.
  have expression : ∀ {part : Window}, part.tokens ∈ program.blocks →
      (engine fuel).Reads ⟨program, calls⟩ part 0 := by
    intro part member
    have size : part.tokens.size ≤ program.longest := size_le_longest member
    refine feeds.reads calls program.calls.size member (callsBelow ordered member) ?_
    simp only [forTerms]
    omega
  refine
    { obeys := engine_obeys _ fuel
      room := by rw [engine_fuel]; omega
      reads := fun part same => expression (same ▸ block)
      runs := fun body same behind => ?_
      loops := fun other known id is loop stored => ⟨?_, ?_⟩
      closed := fun other known =>
        bounded.statements _ stream other (Window.mem_of_token? known) }
  · refine (feeds.enters calls rank (same ▸ stream) (same ▸ below) ?_).runs
    simp only [forStatements, same]
    omega
  · have earlier := below other (Window.mem_of_token? known) id is
    have room : id * program.level + program.level ≤ rank * program.level := level_le earlier
    have body := mem_streams_loop stored
    have size : loop.body.size ≤ program.longest :=
      size_le_longest (mem_blocks_of_mem_streams body)
    have enters : (engine fuel).Enters ⟨program, calls⟩ (.whole loop.body) := by
      refine feeds.enters calls id body (ordered.bodies id loop stored) ?_
      simp only [forStatements, Window.whole]
      omega
    exact enters.runs
  · obtain ⟨collection, head⟩ := bounded.loops loop
      (Array.mem_toList_iff.mpr (Array.mem_of_getElem? stored))
    refine ⟨collection, head, expression (mem_blocks_loop stored ?_)⟩
    simp [ForLoop.blocks, head, LoopHead.blocks, Window.whole]

/-- The statements of a scope, with one unit more than the statement at its position needs. -/
theorem statements_succ {calls rank : Nat} {machine : Machine}
    (fits : Supply.Fits ⟨program, calls⟩ machine)
    (stream : machine.stack.top.code.tokens ∈ program.streams)
    (below : LoopsBelow rank machine.stack.top.code.tokens)
    (fed : program.forStatements calls rank
      (machine.stack.top.code.tokens.size - machine.stack.top.pos) ≤ fuel + 1) :
    Supply.Ends machine (engine (fuel + 1)).runScope fun _ _ => True := by
  show Supply.Ends machine ((engine fuel).runStatements fuel) fun _ _ => True
  refine Engine.runStatements_ends fits (fun pos token from' found => ?_) ?_
  · refine feeds.serves ordered bounded stream below found ?_
    simp only [forStatements] at fed ⊢
    omega
  · have some := program.forCalls_pos calls
    simp only [forStatements] at fed
    omega

end Feeds

/-- Every engine has enough for the parts of a bounded program that need no more. -/
theorem feeds (ordered : program.Ordered) (bounded : program.Bounded) (fuel : Nat) :
    program.Feeds fuel := by
  induction fuel with
  | zero =>
    refine ⟨fun calls fed => ?_, fun calls rank _ _ _ _ fed => ?_,
      fun calls rank _ _ _ _ fed => ?_, fun calls rank _ _ _ _ fed => ?_⟩
    · have := program.forCalls_pos calls
      omega
    all_goals simp [forTerms, forStatements] at fed
  | succ fuel ih =>
    exact
      { call := fun calls fed => ih.call_succ ordered fed
        terms := fun calls rank _ _ => ih.terms_succ ordered
        reads := fun calls rank _ _ => ih.reads_succ ordered
        statements := fun calls rank _ => ih.statements_succ ordered bounded }

end Program

end

/-!
## Programs without open ends always stop

A run of a bounded program ends: it returns or stops with a fault, for every amount of fuel from
`Program.enough` on, and always in the same way. Functions may call themselves and each other, since
only so many calls may run inside each other.
-/

open Machine

namespace Program

variable {program : Program}

/-- A program is bounded if this is computed of it. -/
def isBounded (program : Program) : Bool :=
  (program.streams.all fun tokens =>
    tokens.toList.all fun token => token.kind != .kwWhile && token.kind != .kwDo) &&
  program.loops.toList.all fun loop =>
    match loop.head with
    | .each _ => true
    | .range .. => false

/-- The computed bound is the bound. -/
theorem isBounded_iff : program.isBounded = true ↔ program.Bounded := by
  have each : ∀ loop : ForLoop, (match loop.head with
      | .each _ => true
      | .range .. => false) = true ↔ ∃ collection, loop.head = .each collection := by
    intro loop
    cases loop.head with
    | range first last step => simp
    | each collection => simp
  simp only [isBounded, Bool.and_eq_true, List.all_eq_true, bne_iff_ne, each]
  exact ⟨fun ⟨statements, loops⟩ => ⟨statements, loops⟩, fun bounded => ⟨bounded.1, bounded.2⟩⟩

instance : Decidable program.Bounded := decidable_of_iff _ isBounded_iff

end Program

namespace Machine

/-- Between two requests, the machine has a program, or the tokens of one that is still to be
prepared. Its scope may stand anywhere in the program. -/
def Loaded (machine : Machine) (program : Program) : Prop :=
  machine.stack.inner = [] ∧
    ((∃ tokens, machine.pending = some tokens ∧
      (Program.prepare machine.host machine.scriptPath tokens).result = .ok program) ∨
    (machine.pending = none ∧ machine.program = program ∧
      machine.stack.root.code = .whole program.tokens))

/-- Once it is prepared, a loaded machine runs the program's statements next. -/
theorem Loaded.prepare {machine : Machine} {program : Program} (loaded : machine.Loaded program)
    (awake : machine.Awake) :
    ∃ ready : Machine, Machine.prepare machine = .ok () ready ∧ ready.program = program ∧
      ready.stack.top.code = .whole program.tokens ∧ ready.Awake := by
  obtain ⟨console, outcome⟩ := prepare_eq machine
  obtain ⟨alone, ⟨tokens, pending, result⟩ | ⟨pending, same, code⟩⟩ := loaded
  · simp only [pending, result] at outcome
    refine ⟨_, outcome, rfl, ?_, ⟨awake.1, awake.2⟩⟩
    show (Stack.top { machine.stack with root := _ }).code = _
    rw [Stack.top, alone]
    rfl
  · simp only [pending] at outcome
    refine ⟨machine, outcome, same, ?_, awake⟩
    rw [Stack.top, alone]
    exact code

/-- More fuel never changes how a run ends. -/
theorem run_below {fuel more : Nat} (le : fuel ≤ more) : (run fuel).Below (run more) :=
  .of_does fun start => (Custody.engine_pairs le start).runBy

end Machine

namespace Program.Feeds

variable {program : Program} {fuel : Nat} (feeds : program.Feeds fuel)
include feeds

/-- The function for the end of the script is fed. -/
theorem exitHandler {machine : Machine} (fed : program.forCalls maxCallDepth ≤ fuel)
    (same : machine.program = program) (awake : machine.Awake) (after : Machine) :
    runExitHandler fuel machine ≠ .error .starved after := by
  rw [runExitHandler_eq]
  cases registered : machine.exitHandler with
  | none => exact nofun
  | some name =>
    have fits : Supply.Fits ⟨program, maxCallDepth⟩ (machine.ending name) :=
      ⟨same, Nat.le_add_left _ _, ⟨awake.1, awake.2⟩⟩
    have ends := feeds.call maxCallDepth fed name [] machine.line (machine.ending name) fits
    unfold Supply.Ends at ends
    dsimp only
    cases outcome : Machine.call fuel name [] machine.line (machine.ending name) with
    | ok value last => exact nofun
    | error stop last =>
      rw [show (engine fuel).call name [] machine.line (machine.ending name) = _ from outcome] at ends
      intro stopped
      cases stopped
      exact ends rfl

/-- The run of a loaded machine that does not wait is fed. -/
theorem run (ordered : program.Ordered) (fed : program.enough ≤ fuel) {machine : Machine}
    (loaded : machine.Loaded program) (awake : machine.Awake) (after : Machine) :
    Machine.run fuel machine ≠ .error .starved after := by
  obtain ⟨ready, prepared, same, code, awakeReady⟩ := loaded.prepare awake
  have calls := program.forCalls_succ maxCallDepth
  have fits : Supply.Fits ⟨program, maxCallDepth⟩ ready.started :=
    ⟨same, Nat.le_add_left _ _, ⟨awakeReady.1, awakeReady.2⟩⟩
  have main : program.tokens ∈ program.streams := List.mem_cons_self
  have tokens : ready.started.stack.top.code.tokens = program.tokens := congrArg Window.tokens code
  have ends := feeds.statements maxCallDepth program.loops.size fits (tokens ▸ main)
    (tokens ▸ loopsBelow ordered (mem_blocks_of_mem_streams main)) (by
      have short : program.tokens.size ≤ program.longest :=
        size_le_longest (mem_blocks_of_mem_streams main)
      have level : program.level = 2 * program.longest + 4 := rfl
      simp only [forStatements, enough, tokens] at fed ⊢
      omega)
  rw [run_eq, prepared]
  split
  · intro stopped
    cases stopped
  · unfold Supply.Ends at ends
    dsimp only
    cases outcome : runScope fuel ready.started with
    | error stop last =>
      rw [show (engine fuel).runScope ready.started = _ from outcome] at ends
      intro stopped
      cases stopped
      exact ends rfl
    | ok flow last =>
      rw [show (engine fuel).runScope ready.started = _ from outcome] at ends
      obtain ⟨evolves, awakeLast, _⟩ := ends
      have enough' : program.forCalls maxCallDepth ≤ fuel := by
        unfold enough at fed
        omega
      have kept : (last.finished flow).program = program := evolves.program_eq.trans same
      exact feeds.exitHandler enough' kept ⟨awakeLast.1, awakeLast.2⟩ after

end Program.Feeds

/-- A run ended: it returned, or it has a fault, or the program crashed for a good reason. -/
def Machine.HasEnded : EStateM.Result Stop Machine Unit → Prop
  | .ok _ _ | .error (.fault _) _ => True
  | .error (.crashed crash) _ => crash.IsDue
  | .error .starved _ => False

/-- A run that has enough fuel has ended. -/
theorem Machine.run_hasEnded {fuel : Nat} {machine : Machine}
    (fed : ∀ after, Machine.run fuel machine ≠ .error .starved after) :
    Machine.HasEnded (Machine.run fuel machine) := by
  cases ran : Machine.run fuel machine with
  | ok _ after => trivial
  | error stop after =>
    cases stop with
    | fault fault => trivial
    | halted halt =>
      cases halt with
      | steps => exact fed after ran
      | crash crash => exact Machine.run_crash_isDue ran

/-- A script without loops of open end always stops. Whatever the state of a machine that has the
program and does not wait, its run returns or has a fault, unless the program crashes on an array that
memory cannot have, and it is the same outcome for every amount of fuel that is enough for the
program. -/
theorem Program.run_terminates {source : String} {tokens : List Token} {host : Host}
    {script : String} {program : Program} (read : tokenize source = .ok tokens)
    (prepared : (prepare host script tokens).result = .ok program) (bounded : program.Bounded)
    {machine : Machine} (loaded : machine.Loaded program) (awake : machine.Awake) :
    ∃ outcome : EStateM.Result Stop Machine Unit,
      (∀ fuel, program.enough ≤ fuel → Machine.run fuel machine = outcome) ∧ Machine.HasEnded outcome := by
  have ordered := (tables_ordered read prepared).1
  have ends : ∀ fuel, program.enough ≤ fuel → ∀ after,
      Machine.run fuel machine ≠ .error .starved after :=
    fun fuel fed => (feeds ordered bounded fuel).run ordered fed loaded awake
  refine ⟨Machine.run program.enough machine, fun fuel fed => ?_, Machine.run_hasEnded (ends _ (Nat.le_refl _))⟩
  exact (run_below fed).eq_of_finished rfl (ends _ (Nat.le_refl _))

/-- Two functions that call each other without end, inside a loop over an array. -/
theorem Program.run_terminates_mutual : ∃ tokens program,
    tokenize "For $i In [1]\neven()\nNext\nFunc even()\nodd()\nEndFunc\nFunc odd()\neven()\nEndFunc\n" =
      .ok tokens ∧
    (prepare {} (Host.absolutePath {} "main") tokens).result = .ok program ∧ program.Bounded ∧
    ∃ outcome : EStateM.Result Stop Machine Unit,
      (∀ fuel, program.enough ≤ fuel →
        Machine.run fuel (Machine.ofTokens {} "main" tokens) = outcome) ∧
      Machine.HasEnded outcome := by
  have bound : (tokenize
      "For $i In [1]\neven()\nNext\nFunc even()\nodd()\nEndFunc\nFunc odd()\neven()\nEndFunc\n"
      ).toOption.bind (fun tokens =>
        (prepare {} (Host.absolutePath {} "main") tokens).result.toOption.map isBounded) =
      some true := by decide +kernel
  cases read : tokenize
      "For $i In [1]\neven()\nNext\nFunc even()\nodd()\nEndFunc\nFunc odd()\neven()\nEndFunc\n" with
  | error => simp [read, Except.toOption] at bound
  | ok tokens =>
    cases prepared : (prepare {} (Host.absolutePath {} "main") tokens).result with
    | error => simp [read, prepared, Except.toOption] at bound
    | ok program =>
      simp only [read, prepared, Except.toOption, Option.bind_some, Option.map_some,
        Option.some.injEq] at bound
      have bounded := isBounded_iff.mp bound
      exact ⟨tokens, program, rfl, prepared, bounded,
        run_terminates read prepared bounded ⟨rfl, .inl ⟨tokens, rfl, prepared⟩⟩
          ⟨rfl, by simp [ofTokens]⟩⟩

/-- What a run crashes on, it crashes on with more fuel, and with no fuel does it return or have a fault. -/
theorem Machine.run_crashed {enough : Nat} {machine after : Machine} {crash : Crash}
    (crashed : Machine.run enough machine = .error (.crashed crash) after) :
    (∀ fuel, enough ≤ fuel → Machine.run fuel machine = .error (.crashed crash) after) ∧
    ∀ fuel last, Machine.run fuel machine ≠ .ok () last ∧
      ∀ fault, Machine.run fuel machine ≠ .error (.fault fault) last := by
  have more (fuel : Nat) (fed : enough ≤ fuel) : Machine.run fuel machine = .error (.crashed crash) after :=
    (run_below fed).eq_of_finished crashed (by rintro _ ⟨⟩)
  refine ⟨more, fun fuel last => ⟨fun ran => ?_, fun fault ran => ?_⟩⟩
  all_goals
    rcases Nat.le_total fuel enough with less | fed
    · have same := (run_below less).eq_of_finished ran (by rintro _ ⟨⟩)
      cases same.symm.trans crashed
    · cases ran.symm.trans (more fuel fed)

/-- The declaration of an array of the greatest size crashes the program. Whatever the fuel, its run neither
returns nor has a fault. -/
theorem Program.run_crashes : ∃ tokens program,
    tokenize "Local $a[9223372036854775807]\n" = .ok tokens ∧
    (prepare {} (Host.absolutePath {} "main") tokens).result = .ok program ∧ program.Bounded ∧
    (Machine.ofTokens {} "main" tokens).Loaded program ∧ (Machine.ofTokens {} "main" tokens).Awake ∧
    ∃ after, (∀ fuel, 40 ≤ fuel → Machine.run fuel (Machine.ofTokens {} "main" tokens) =
        .error (.crashed (.capacity 9223372036854775807)) after) ∧
      ∀ fuel last, Machine.run fuel (Machine.ofTokens {} "main" tokens) ≠ .ok () last ∧
        ∀ fault, Machine.run fuel (Machine.ofTokens {} "main" tokens) ≠ .error (.fault fault) last := by
  have trial : (tokenize "Local $a[9223372036854775807]\n").toOption.bind (fun tokens =>
      (prepare {} (Host.absolutePath {} "main") tokens).result.toOption.bind fun program =>
        if program.isBounded then stopped? (Machine.run 40 (Machine.ofTokens {} "main" tokens)) else none) =
      some (Stop.crashed (.capacity 9223372036854775807)) := by decide +kernel
  obtain ⟨tokens, read, trial⟩ := Option.bind_eq_some_iff.mp trial
  obtain ⟨program, prepared, trial⟩ := Option.bind_eq_some_iff.mp trial
  obtain ⟨bounded, stops⟩ := Option.ite_none_right_eq_some.mp trial
  obtain ⟨after, crashed⟩ := eq_error_of_stopped? stops
  exact ⟨tokens, program, eq_ok_of_toOption read, eq_ok_of_toOption prepared, isBounded_iff.mp bounded,
    ⟨rfl, .inl ⟨tokens, rfl, eq_ok_of_toOption prepared⟩⟩, ⟨rfl, by simp [Machine.ofTokens]⟩, after,
    Machine.run_crashed crashed⟩

end LineScript
