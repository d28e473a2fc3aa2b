import LineScript.Proofs.Counting.Loop
import LineScript.Proofs.Origin.Residue
import LineScript.Proofs.Supply.Engine

/-!
# What counting loops do

A counting loop over whole numbers visits an arithmetic progression. A counting loop whose first two
indices are no NaN ends after finitely many rounds, and one that counts to a NaN never ends.
-/

namespace LineScript

open Machine Engine Counting Double

variable {low : Engine} {loop : ForLoop} {token : Token} {id fuel : Nat} {machine : Machine}
variable {safe : Machine → Prop}

/-- The source of a program that begins with a plain counting loop. -/
structure Program.PlainLoop (source : String) (program : Program) (loop : ForLoop)
    (first last step : Value) : Prop where
  /-- The program. -/
  made : Program.ofSource? source = some program
  /-- Its first token is the loop's. -/
  begins : ∃ token, program.tokens[0]? = some token ∧ token.kind = .loop 0
  /-- The loop. -/
  found : program.loops[0]? = some loop
  /-- Its header. -/
  plain : loop.plainRange? = some (first, last, step)
  /-- Its body is an empty line. -/
  short : loop.body.size = 1

/-- What the first loop of a source counts by. -/
def Program.plainRange? (source : String) : Option (TokenKind × Nat × Value × Value × Value) := do
  let program ← Program.ofSource? source
  let token ← program.tokens[0]?
  let loop ← program.loops[0]?
  let range ← loop.plainRange?
  return (token.kind, loop.body.size, range)

/-- A source read as a plain loop is the program with that loop. -/
theorem Program.plainLoop_of_read {source : String} {first last step : Value}
    (read : Program.plainRange? source = some (.loop 0, 1, first, last, step)) :
    ∃ program loop, Program.PlainLoop source program loop first last step := by
  simp only [Program.plainRange?, Option.bind_eq_bind, Option.bind_eq_some_iff, Option.pure_def,
    Option.some.injEq, Prod.mk.injEq] at read
  obtain ⟨program, made, token, begins, loop, found, range, plain, kind, short, rfl⟩ := read
  exact ⟨program, loop, made, ⟨token, begins, kind⟩, found, plain, short⟩

/-- A machine that has a program and nothing else. -/
def Program.toMachine (program : Program) : Machine :=
  { host := {}, scriptPath := "/main", pending := none, program }

/-- A prepared program's first machine is unhindered. -/
theorem Program.unhindered (program : Program) : program.toMachine.Unhindered :=
  ⟨⟨rfl, nofun⟩, rfl⟩

/-- A counting loop with a constant header and a body that always goes on ends after finitely many
rounds, the same for every machine and engine, if the sum of its first index and its step is no NaN;
if it is one, no amount of fuel is enough. -/
theorem Engine.range_ends_unless_nan (first last step : Value) :
    ((first.asNumber + step.asNumber).isNaN = false → ∃ indices : List Float,
      Visited first.asNumber last.asNumber step.asNumber indices ∧
      ∀ (token : Token) {low : Engine} {loop : ForLoop} {id : Nat} {machine : Machine}
        {safe : Machine → Prop}, machine.program.loops[id]? = some loop →
        low.HasRange loop first last step → indices.length ≤ low.fuel →
        low.AlwaysGoesOn loop safe → safe machine →
        ∃ after, low.forLoop token id machine = .ok .normal after ∧
          low.Rounds loop (indices.map Value.ofFloat) machine after) ∧
    ((first.asNumber + step.asNumber).isNaN = true →
      ∀ (token : Token) {low : Engine} {loop : ForLoop} {id : Nat} {machine : Machine}
        {safe : Machine → Prop}, machine.program.loops[id]? = some loop →
        low.HasRange loop first last step → low.AlwaysGoesOn loop safe → safe machine →
        ∃ after, low.forLoop token id machine = .error .starved after) := by
  constructor
  · intro number
    obtain ⟨indices, counts⟩ := exists_visited last.asNumber (number_iff.mpr number)
    refine ⟨indices, counts, ?_⟩
    intro token low loop id machine safe found header enough always isSafe
    obtain ⟨after, visited, rounds⟩ := visitEach_rounds always (indices.map Value.ofFloat) isSafe
    exact ⟨after, (forLoop_eq token found header counts enough).trans visited, rounds⟩
  · intro nan token low loop id machine safe found header always isSafe
    have none : ¬ Number (first.asNumber + step.asNumber) := fun number => by
      rw [number_iff.mp number] at nan
      cases nan
    exact forLoop_nan token found header always none isSafe

/-- Counting to three in steps of one half, given as a text, ends; counting in steps that a text says
are no number does not. -/
theorem Engine.range_ends_unless_nan_texts :
    (∃ program loop fuel after,
      Program.PlainLoop "For $i = 1 To 3 Step \"0.5\"\nNext\n" program loop (.number 1) (.number 3)
        (.string "0.5") ∧
      (engine fuel).forLoop ⟨.loop 0, "For", 1, 1⟩ 0 program.toMachine = .ok .normal after) ∧
    ∃ program loop after,
      Program.PlainLoop "For $i = 1 To 3 Step \"nan\"\nNext\n" program loop (.number 1) (.number 3)
        (.string "nan") ∧
      (engine 12).forLoop ⟨.loop 0, "For", 1, 1⟩ 0 program.toMachine = .error .starved after := by
  constructor
  · have read : Program.plainRange? "For $i = 1 To 3 Step \"0.5\"\nNext\n" =
      some (.loop 0, 1, .number 1, .number 3, .string "0.5") := by decide +kernel
    obtain ⟨program, loop, sample⟩ := Program.plainLoop_of_read read
    have short := sample.short
    obtain ⟨indices, -, ends⟩ := (range_ends_unless_nan (.number 1) (.number 3) (.string "0.5")).1
      (by decide +kernel)
    obtain ⟨header, always⟩ :=
      ForLoop.plainRange?_eq_some sample.plain indices.length (by omega)
    obtain ⟨after, ended, -⟩ := ends ⟨.loop 0, "For", 1, 1⟩ sample.found header
      (Nat.le_add_right indices.length 3) always program.unhindered
    exact ⟨program, loop, _, after, sample, ended⟩
  · have read : Program.plainRange? "For $i = 1 To 3 Step \"nan\"\nNext\n" =
      some (.loop 0, 1, .number 1, .number 3, .string "nan") := by decide +kernel
    obtain ⟨program, loop, sample⟩ := Program.plainLoop_of_read read
    have short := sample.short
    obtain ⟨header, always⟩ := ForLoop.plainRange?_eq_some sample.plain 8 (by omega)
    obtain ⟨after, stopped⟩ :=
      (range_ends_unless_nan (.number 1) (.number 3) (.string "nan")).2 (by decide +kernel)
        ⟨.loop 0, "For", 1, 1⟩ sample.found header always program.unhindered
    exact ⟨program, loop, after, sample, stopped⟩

/-- A step at a loop's token runs the loop. -/
theorem step_loop (low : Engine) (current : machine.stack.top.current? = some token)
    (kind : token.kind = .loop id) (unhindered : machine.Unhindered) :
    ∃ here : Machine, here.program = machine.program ∧ here.Unhindered ∧
      ∀ stop after, low.forLoop token id here = .error stop after →
        low.step machine = .error stop after := by
  have top : (Structured.arrived (machine.stack.top.pos + 1) token machine).stack.top =
      { machine.stack.top with pos := machine.stack.top.pos + 1 } := Stack.top_modifyTop _ _
  refine ⟨Structured.moved machine.stack.top.pos
    (Structured.arrived (machine.stack.top.pos + 1) token machine), rfl,
    ⟨⟨unhindered.awake.1, unhindered.awake.2⟩, unhindered.continues⟩, ?_⟩
  intro stop after stopped
  have stated : low.statement machine.stack.top.code machine.stack.top.pos
      (Structured.moved machine.stack.top.pos
        (Structured.arrived (machine.stack.top.pos + 1) token machine)) = .error stop after := by
    rw [Scope.current?] at current
    simp only [Engine.statement, current, kind, bind, EStateM.bind, stopped]
  have ran : low.runToken token (Structured.arrived (machine.stack.top.pos + 1) token machine) =
      .error stop after := by
    unfold Engine.runToken
    simp only [kind, topScope, bind, EStateM.bind, run_get, pure, EStateM.pure, top,
      Nat.add_sub_cancel, Structured.moveTo_eq, stated]
  have stepped : low.step machine =
      low.runToken token (Structured.arrived (machine.stack.top.pos + 1) token machine) := by
    unfold Engine.step
    simp only [topScope, bind, EStateM.bind, run_get, pure, EStateM.pure, current]
    by_cases inSource : 0 < token.line
    · simp only [Structured.arrived, inSource, if_true]
      rfl
    · simp only [Structured.arrived, inSource, if_false]
      rfl
  rw [stepped, ran]

/-- A program that begins with a plain counting loop whose first two indices sum up to a NaN never
ends. -/
theorem run_nan {host : Host} {path : String} {tokens : List Token} {program : Program}
    {first last step : Value}
    (prepared : (Program.prepare host (host.absolutePath path) tokens).result = .ok program)
    (begins : program.tokens[0]? = some token) (kind : token.kind = .loop id)
    (found : program.loops[id]? = some loop) (plain : loop.plainRange? = some (first, last, step))
    (nan : (first.asNumber + step.asNumber).isNaN = true) (fuel : Nat) :
    ∃ after, Machine.run fuel (.ofTokens host path tokens) = .error .starved after := by
  have enough : ∃ after, Machine.run (loop.body.size + fuel + 6) (.ofTokens host path tokens) =
      .error .starved after := by
    have poised : (Machine.ofTokens host path tokens).Poised program :=
      .inl ⟨rfl, tokens, rfl, prepared⟩
    have loaded : (Machine.ofTokens host path tokens).Loaded program :=
      ⟨rfl, .inl ⟨tokens, rfl, prepared⟩⟩
    obtain ⟨ready, outcome, isReady⟩ := poised.prepare
    obtain ⟨other, outcome', -, -, awake⟩ := loaded.prepare ⟨rfl, nofun⟩
    cases outcome.symm.trans outcome'
    have unhindered : ready.started.Unhindered := ⟨⟨awake.1, awake.2⟩, rfl⟩
    obtain ⟨looked, unhinderedLooked, stack, program', turn⟩ :=
      unhindered.advances (engine (loop.body.size + fuel + 5)) (loop.body.size + fuel + 4)
    have current : looked.stack.top.current? = some token := by
      have top : looked.stack.top = ready.stack.root := by
        rw [stack]
        exact isReady.top
      obtain ⟨inside, -⟩ := Array.getElem?_eq_some_iff.mp begins
      rw [top, Scope.current?, isReady.code, isReady.pos]
      exact (if_pos inside).trans begins
    obtain ⟨here, program'', unhinderedHere, fails⟩ :=
      step_loop (engine (loop.body.size + fuel + 5)) current kind unhinderedLooked
    have found' : here.program.loops[id]? = some loop := by
      rw [program'', program', show ready.started.program = program from isReady.program_eq, found]
    obtain ⟨header, always⟩ :=
      ForLoop.plainRange?_eq_some plain (loop.body.size + fuel + 1) (by omega)
    have none : ¬ Number (first.asNumber + step.asNumber) := fun number => by
      rw [number_iff.mp number] at nan
      cases nan
    obtain ⟨after, stopped⟩ := forLoop_nan token found' header always none unhinderedHere
    have scope : Machine.runScope (loop.body.size + fuel + 6) ready.started =
        .error .starved after := by
      refine turn.trans ?_
      simp only [Structured.advance, bind, EStateM.bind, fails _ _ stopped]
    refine ⟨after.rewound, ?_⟩
    rw [run_eq, outcome]
    simp only [scope]
    rfl
  obtain ⟨after, stopped⟩ := enough
  rcases run_below (by omega : fuel ≤ loop.body.size + fuel + 6) (.ofTokens host path tokens) with
    same | starved
  · exact ⟨after, same.trans stopped⟩
  · exact starved

/-- Counting to three in steps that are no number. -/
theorem run_nan_step : ∃ tokens, tokenize "For $i = 1 To 3 Step \"nan\"\nNext\n" = .ok tokens ∧
    ∀ fuel, ∃ after, Machine.run fuel (.ofTokens {} "main" tokens) = .error .starved after := by
  have read : Program.plainRange? "For $i = 1 To 3 Step \"nan\"\nNext\n" =
    some (.loop 0, 1, .number 1, .number 3, .string "nan") := by decide +kernel
  obtain ⟨program, loop, sample⟩ := Program.plainLoop_of_read read
  obtain ⟨tokens, lexed, prepared⟩ := Program.ofSource?_eq_some sample.made
  obtain ⟨token, begins, kind⟩ := sample.begins
  have path : Host.absolutePath {} "main" = "/main" := by decide +kernel
  rw [← path] at prepared
  exact ⟨tokens, lexed, run_nan prepared begins kind sample.found sample.plain (by decide +kernel)⟩

end LineScript
