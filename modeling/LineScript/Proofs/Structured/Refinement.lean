import LineScript.Proofs.Structured.Turns

/-!
# Running tokens is running the tree

Running a window that a structured script fills, by looking through its tokens for keywords and
counting open blocks, gives what the tree means: the same flow or fault and the same machine, for
every machine and every amount of fuel.
-/

namespace LineScript.Structured

open Layout Engine

variable {tokens : TokenBlock} {window : Window} {pos : Nat}

/-- A part of a run that a nonempty list fills ends where the list ends. -/
theorem stop_slice {list : List Token} (holds : Holds tokens pos list) (nonempty : list ≠ []) :
    (Window.slice tokens pos (pos + list.length)).stop = pos + list.length :=
  Nat.min_eq_left (holds.le_size nonempty)

/-- Nothing stands at the end of a window. -/
theorem endsLine_stop (window : Window) : window.endsLine window.stop = true := by
  simp [Window.endsLine, Window.token?]

/-- The block that a scope runs from its start. -/
theorem at_blockScope {code : Window} {bindings : List (String × Value)} {machine : Machine}
    (top : machine.stack.top = blockScope code bindings) : At code code.start machine := by
  constructor <;> rw [top] <;> rfl

/-- Only machines that stand at the start of a block matter for what the block does. -/
theorem runBlock_eq_within {code : Window} {bindings : List (String × Value)} {fuel : Nat}
    {action : Exec Flow}
    (same : ∀ machine : Machine, At code code.start machine →
      (engine fuel).runStatements fuel machine = action machine) :
    (engine (fuel + 1)).runBlock code bindings =
      Exec.within (blockScope code bindings) action :=
  Exec.within_congr fun machine top => same machine (at_blockScope top)

/-- The rounds of a loop with its condition first. -/
theorem whileRounds_eq {low : Engine} {condition body : Window} (rounds : Nat) :
    low.whileRounds condition body rounds =
      roundsWhile (low.whole condition) (low.runBlock body) rounds := by
  induction rounds with
  | zero => rfl
  | succ rounds ih =>
    rw [Engine.whileRounds, ih]
    rfl

/-- The rounds of a loop with its condition last. -/
theorem untilRounds_eq {low : Engine} {condition body : Window} (rounds : Nat) :
    low.untilRounds condition body rounds =
      roundsUntil (low.whole condition) (low.runBlock body) rounds := by
  induction rounds with
  | zero => rfl
  | succ rounds ih =>
    rw [Engine.untilRounds, ih]
    rfl

namespace LineChoice

variable {choice : LineChoice} {ending : Word .eol}

/-- The branch of a choice on one line is run as a block. -/
theorem branch_eq (fuel : Nat) {body : Sentence} (holds : Holds tokens pos body.tokens) :
    (engine fuel).runBlock (.slice tokens pos (pos + body.size)) =
      branch fuel tokens pos body := by
  have stop : (Window.slice tokens pos (pos + body.size)).stop = pos + body.size :=
    stop_slice holds body.nonempty
  have last := endsLine_stop (.slice tokens pos (pos + body.size))
  rw [stop] at last
  cases fuel with
  | zero => rfl
  | succ fuel =>
    have steps : Steps (engine fuel) (.slice tokens pos (pos + body.size)) pos body.size _ :=
      body.steps fuel holds (Nat.le_of_eq stop.symm) last
    refine runBlock_eq_within fun machine at' => ?_
    rw [runStatements_eq_turn]
    refine turn_congr fuel fun looks after same => ?_
    refine steps.advance_eq (at'.of_top same) fun left here => ?_
    have ended : At (.slice tokens pos (pos + body.size))
        (Window.slice tokens pos (pos + body.size)).stop left := by
      rw [stop]
      exact here
    exact runStatements_end ended

/-- The engine runs a choice on one line as such. -/
theorem covers (fuel : Nat) (placed : choice.Placed ending window.tokens pos window.stop) :
    Covers (engine fuel) window pos choice.size (do
      if (← choice.condition.value (engine fuel) window.tokens (pos + 1)).asBool then
        branch fuel window.tokens (choice.found pos + 1) choice.body
      else return .normal) := by
  have inside := placed.inside
  have size := choice.size_eq
  have found : choice.found pos = pos + 1 + choice.condition.size := rfl
  have bodyEnd : choice.bodyEnd pos = choice.found pos + 1 + choice.body.size := rfl
  have length : choice.body.size = choice.body.tokens.length := rfl
  have opened : window.token? pos = some choice.opener.token :=
    Window.token?_eq_some.mpr ⟨by omega, placed.opener⟩
  have lineEnd := placed.lineEnd_eq (show pos ≤ choice.found pos + 1 by omega) (by omega)
  -- The branch ends at the closing word, or without one at the end of the line.
  have ends : (trailingEndIf window.tokens pos window.stop).getD
      (statementEnd window.tokens (choice.found pos + 1) (pos + choice.size)) =
        choice.bodyEnd pos := by
    rw [placed.trailingEndIf_eq]
    cases has : choice.closer with
    | some word => rfl
    | none =>
      rw [has] at size
      simp only [Option.isSome_none, Bool.false_eq_true, if_false] at size
      refine seek_eq (by omega) (by omega) (fun at' from' before => ?_) (.inl (by omega))
      obtain ⟨token, member, stored⟩ := placed.body.mem_at from' (by omega)
      exact ⟨token, stored, Token.endsLine_of_isPlain (choice.body.plain token member)⟩
  unfold Covers Engine.statement
  rw [opened]
  simp only [choice.opener.isKind, Engine.choice, placed.findThen_eq, placed.isSingleLineIf_eq_true,
    if_true, choiceOnLine, lineEnd, ends, bodyEnd, branch_eq fuel placed.body, Phrase.value]
  simp only [bind_assoc]
  refine bind_congr fun condition => ?_
  by_cases holds : condition.asBool = true
  · simp only [holds, if_true]
  · simp only [holds, if_false, pure_bind, Bool.false_eq_true]

end LineChoice

/-- An expression of the engine ends at the end of its line at the latest. -/
theorem value_le_of_endsLine (fuel : Nat) {first last : Nat} {machine after : Machine}
    {value : Value} (ran : (engine fuel).value window first machine = .ok (value, last) after)
    {ending : Nat} (from' : first ≤ ending) (ends : window.endsLine ending = true) :
    first ≤ last ∧ last ≤ ending := by
  have ended : (Guard.free machine.program).Ends machine ((engine fuel).value window first) _ :=
    ((engine_obeys (.free machine.program) fuel).value window first trivial).ends rfl
  unfold Guard.Ends at ended
  rw [ran] at ended
  have passes : window.Passes first last := ended.2.2
  exact ⟨passes.le, passes.le_of_endsLine from' ends⟩

section

variable {fuel : Nat} {condition subject : Phrase} {body : Body} {branches : Branches}
  {clauses : Clauses} {ending : Ending}

/-- The engine runs a body written at a position as the tree says. -/
def Body.Runs (body : Body) (fuel : Nat) (tokens : TokenBlock) (pos : Nat) : Prop :=
  (engine fuel).runBlock (.slice tokens pos (pos + body.size)) = body.run fuel tokens pos

/-- The engine runs a choice over several lines as such. -/
theorem covers_choice {opener : Word .kwIf} {then' : Word .kwThen} {closer : Word .kwEndIf}
    (holds : Holds window.tokens pos
      (Statement.choice opener condition then' body branches closer).render)
    (inside : pos + (Statement.choice opener condition then' body branches closer).size ≤
      window.stop)
    (first : body.Runs fuel window.tokens (pos + 1 + condition.size + 1))
    (rest : (engine fuel).runBranches
      (branches.parts window.tokens (pos + 1 + condition.size + 1 + body.size)) =
        branches.run fuel window.tokens (pos + 1 + condition.size + 1 + body.size)) :
    Covers (engine fuel) window pos
      (Statement.choice opener condition then' body branches closer).size (do
        if (← condition.value (engine fuel) window.tokens (pos + 1)).asBool then
          body.run fuel window.tokens (pos + 1 + condition.size + 1)
        else branches.run fuel window.tokens (pos + 1 + condition.size + 1 + body.size)) := by
  simp only [holds_choice, Statement.size_choice] at holds inside ⊢
  obtain ⟨opened, condition', ended, body', branches', closed⟩ := holds
  have found : findThen window.tokens pos window.stop = some (pos + 1 + condition.size) :=
    condition.findThen_eq condition' (by omega) ended
  have overLines : isSingleLineIf window.tokens pos window.stop = false := by
    obtain ⟨ending, lines⟩ := body
    simp only [Body.size_mk] at inside
    exact not_isSingleLineIf condition' ended body'.1 (by omega)
  have parts := @choiceBranches_eq pos window opener.token _ _ _ _ body' branches' closed
    (by omega)
  have token : window.token? pos = some opener.token :=
    Window.token?_eq_some.mpr ⟨by omega, opened⟩
  unfold Covers Engine.statement
  rw [token]
  simp only [opener.isKind, Engine.choice, found, overLines, parts, Exec.ofExcept, runBranches,
    pure_bind, bind_assoc, Phrase.value, Bool.false_eq_true, if_false]
  rw [show pos + (1 + condition.size + 1 + body.size + branches.size + 1) =
    pos + 1 + condition.size + 1 + body.size + branches.size + 1 by omega]
  refine bind_congr fun value => ?_
  have firstRuns : (engine fuel).runBlock _ = _ := first
  by_cases chosen : value.asBool = true
  · simp only [chosen, if_true, firstRuns]
  · simp only [chosen, if_false, Bool.false_eq_true, rest]

/-- A scan from the start of a body halts at the closing word behind it. -/
theorem Body.halted_eq {kind : TokenKind} {closer : Word kind} {stop : Nat}
    (holds : Holds tokens pos body.render) (closed : tokens[pos + body.size]? = some closer.token)
    (inside : pos + body.size < stop) (closes : closesBlock kind = true) :
    (scanOutermost tokens pos stop fun token => token.kind == kind).halted =
      some (pos + body.size) := by
  have passed : Scans (haltsAt kind) tokens stop pos 0 (pos + body.size) 0 :=
    body.scans (closes_of_haltsAt kind closes) holds (Nat.le_of_lt inside)
  have halts : Halts (haltsAt kind) (fun _ => false) tokens stop (pos + body.size)
      (pos + body.size) [] := .here inside closed (by simp [haltsAt, closer.isKind]) rfl
  exact (Halts.of_scans passed (fun _ divides => by cases divides) halts none (.nothing _)).1

/-- The engine runs a loop with its condition first as such. -/
theorem covers_whileLoop {opener : Word .kwWhile} {closer : Word .kwWEnd}
    (holds : Holds window.tokens pos (Statement.whileLoop opener condition body closer).render)
    (inside : pos + (Statement.whileLoop opener condition body closer).size ≤ window.stop)
    (runs : body.Runs fuel window.tokens (pos + 1 + condition.size)) :
    Covers (engine fuel) window pos (Statement.whileLoop opener condition body closer).size
      (roundsWhile (condition.value (engine fuel) window.tokens (pos + 1))
        (body.run fuel window.tokens (pos + 1 + condition.size)) (engine fuel).fuel) := by
  simp only [holds_whileLoop, Statement.size_whileLoop] at holds inside ⊢
  obtain ⟨opened, condition', body', closed⟩ := holds
  have header : statementEnd window.tokens (pos + 1) window.stop = pos + 1 + condition.size := by
    obtain ⟨ending, lines⟩ := body
    exact condition.statementEnd_eq condition' (by omega) (Nat.le_refl _) (by omega) body'.1
  have halted : (scanOutermost window.tokens _ window.stop _).halted = _ :=
    body.halted_eq body' closed (by omega) rfl
  have token : window.token? pos = some opener.token :=
    Window.token?_eq_some.mpr ⟨by omega, opened⟩
  have runs' : (engine fuel).runBlock _ = _ := runs
  unfold Covers Engine.statement
  rw [token]
  simp only [opener.isKind, Engine.whileLoop, header, halted, whileRounds_eq, runs']
  rw [show pos + (1 + condition.size + body.size + 1) =
    pos + 1 + condition.size + body.size + 1 by omega]
  rfl

/-- The engine runs a loop with its condition last as such. -/
theorem covers_doLoop {opener : Word .kwDo} {closer : Word .kwUntil}
    (holds : Holds window.tokens pos (Statement.doLoop opener body closer condition).render)
    (inside : pos + (Statement.doLoop opener body closer condition).size < window.stop)
    (ended : window.tokens[pos + (Statement.doLoop opener body closer condition).size]? =
      some ending.token)
    (runs : body.Runs fuel window.tokens (pos + 1)) :
    Covers (engine fuel) window pos (Statement.doLoop opener body closer condition).size
      (roundsUntil (condition.value (engine fuel) window.tokens (pos + 1 + body.size + 1))
        (body.run fuel window.tokens (pos + 1)) (engine fuel).fuel) := by
  simp only [holds_doLoop, Statement.size_doLoop] at holds inside ended ⊢
  obtain ⟨opened, body', closed, condition'⟩ := holds
  have last : pos + (1 + body.size + 1 + condition.size) =
      pos + 1 + body.size + 1 + condition.size := by omega
  rw [last] at ended inside
  have header : statementEnd window.tokens (pos + 1 + body.size + 1) window.stop =
      pos + 1 + body.size + 1 + condition.size :=
    condition.statementEnd_eq condition' inside (Nat.le_refl _) (Nat.le_add_right _ _) ended
  have halted : (scanOutermost window.tokens _ window.stop _).halted = _ :=
    body.halted_eq body' closed (by omega) rfl
  have token : window.token? pos = some opener.token :=
    Window.token?_eq_some.mpr ⟨by omega, opened⟩
  have runs' : (engine fuel).runBlock _ = _ := runs
  unfold Covers Engine.statement
  rw [token]
  simp only [opener.isKind, Engine.doLoop, header, halted, untilRounds_eq, runs', last]
  rfl

/-- The engine runs a selection by conditions as such. -/
theorem covers_select {opener : Word .kwSelect} {closer : Word .kwEndSelect}
    (holds : Holds window.tokens pos (Statement.select opener ending clauses closer).render)
    (inside : pos + (Statement.select opener ending clauses closer).size ≤ window.stop)
    (runs : (engine fuel).selectFrom (clauses.parts window.tokens (pos + 2)) =
      clauses.runFirst fuel window.tokens (pos + 2)) :
    Covers (engine fuel) window pos (Statement.select opener ending clauses closer).size
      (clauses.runFirst fuel window.tokens (pos + 2)) := by
  simp only [holds_select, Statement.size_select] at holds inside ⊢
  obtain ⟨opened, ended, clauses', closed⟩ := holds
  have token : window.token? pos = some opener.token :=
    Window.token?_eq_some.mpr ⟨by omega, opened⟩
  have next : window.token? (pos + 1) = some ending.token :=
    Window.token?_eq_some.mpr ⟨by omega, ended⟩
  -- There is no header: the clauses stand behind an empty phrase.
  have placed : ClausesPlaced window (pos + 1) ⟨[], List.forall_mem_nil _⟩ ending clauses closer :=
    ⟨trivial, ended, clauses', closed, by simp only [Phrase.size, List.length_nil]; omega, rfl⟩
  have found : LineScript.clauses window opener.token (pos + 1) .kwEndSelect "EndSelect" =
      .ok (clauses.parts window.tokens (pos + 2), pos + 2 + clauses.size) := placed.clauses_eq
  unfold Covers Engine.statement
  rw [token]
  simp only [opener.isKind, Engine.select, next, Option.filter_some, ending.endsLine,
    found, Exec.ofExcept, pure_bind, runs]
  rw [show pos + (2 + clauses.size + 1) = pos + 2 + clauses.size + 1 by omega]
  rfl

/-- The engine runs a selection by value as such. -/
theorem covers_switch {opener : Word .kwSwitch} {closer : Word .kwEndSwitch}
    (holds : Holds window.tokens pos
      (Statement.switch opener subject ending clauses closer).render)
    (inside : pos + (Statement.switch opener subject ending clauses closer).size ≤ window.stop)
    (items : (engine fuel).caseItems (clauses.parts window.tokens (pos + 1 + subject.size + 1)) =
      clauses.items fuel window.tokens (pos + 1 + subject.size + 1))
    (runs : ∀ chosen, (engine fuel).runClauses
      ((clauses.parts window.tokens (pos + 1 + subject.size + 1)).drop chosen) =
        clauses.runFrom fuel window.tokens (pos + 1 + subject.size + 1) chosen) :
    Covers (engine fuel) window pos
      (Statement.switch opener subject ending clauses closer).size (do
        let value ← subject.subject (engine fuel) window (pos + 1)
        let items ← clauses.items fuel window.tokens (pos + 1 + subject.size + 1)
        let chosen := items.findIdx fun
          | none => true
          | some items => items.any (CaseItem.fits value)
        clauses.runFrom fuel window.tokens (pos + 1 + subject.size + 1) chosen) := by
  simp only [holds_switch, Statement.size_switch] at holds inside ⊢
  obtain ⟨opened, subject', ended, clauses', closed⟩ := holds
  have token : window.token? pos = some opener.token :=
    Window.token?_eq_some.mpr ⟨by omega, opened⟩
  have lineEnd : window.endsLine (pos + 1 + subject.size) = true := by
    have next := Window.token?_eq_some.mpr
      (⟨by omega, ended⟩ : pos + 1 + subject.size < window.stop ∧ _)
    simp [Window.endsLine, next, ending.endsLine]
  have placed : ClausesPlaced window (pos + 1) subject ending clauses closer :=
    ⟨subject', ended, clauses', closed, by omega, rfl⟩
  unfold Covers Engine.statement
  rw [token]
  simp only [opener.isKind, Engine.switch, Phrase.subject, bind_assoc]
  rw [show pos + (1 + subject.size + 1 + clauses.size + 1) =
    pos + 1 + subject.size + 1 + clauses.size + 1 by omega]
  funext machine
  refine bind_congr_at rfl fun result after ran => ?_
  obtain ⟨value, stop⟩ := result
  have reached := value_le_of_endsLine fuel ran (Nat.le_add_right _ _) lineEnd
  by_cases whole : stop = pos + 1 + subject.size
  · -- The header was read as a whole.
    subst whole
    have nothing : (subject.tokens.drop (pos + 1 + subject.size - (pos + 1))).head? = none := by
      rw [show pos + 1 + subject.size - (pos + 1) = subject.tokens.length by
        simp only [Phrase.size]; omega, List.drop_length]
      rfl
    have found : LineScript.clauses window opener.token (pos + 1 + subject.size) .kwEndSwitch
        "EndSwitch" = _ := placed.clauses_eq
    simp only [nothing, found, Exec.ofExcept, pure_bind, items]
    exact bind_congr_at rfl fun _ later _ =>
      bind_congr_at (congrFun (runs _) later) fun _ _ _ => rfl
  · -- Something of it is left, and it is the fault.
    have size : subject.size = subject.tokens.length := rfl
    have short : stop - (pos + 1) < subject.tokens.length := by omega
    have here := List.getElem?_eq_getElem short
    have stored := subject'.getElem? here
    rw [show pos + 1 + (stop - (pos + 1)) = stop by omega] at stored
    have fault : LineScript.clauses window opener.token stop .kwEndSwitch "EndSwitch" = _ :=
      placed.clauses_error reached.1 (by omega) stored
    simp only [List.head?_drop, here, fault, Exec.ofExcept]
    rfl

end

/-- A choice on one line steps over its line. -/
theorem LineChoice.steps {choice : LineChoice} {ending : Word .eol} (fuel : Nat)
    (placed : choice.Placed ending window.tokens pos window.stop) :
    Steps (engine fuel) window pos choice.size (choice.exec fuel window pos) := by
  have behind : window.token? (pos + choice.size) = some ending.token :=
    Window.token?_eq_some.mpr ⟨placed.inside, placed.ended⟩
  exact (choice.covers fuel placed).steps placed.opener (.inl choice.opener.isKind) behind
    (by simp [Token.endsLine, ending.isKind])

/-- The values of the clauses that are found are those of the tree. -/
theorem Clauses.items_eq (fuel : Nat) : ∀ (clauses : Clauses) {pos : Nat},
    (engine fuel).caseItems (clauses.parts tokens pos) = clauses.items fuel tokens pos
  | .done, _ => rfl
  | .case _ header body rest, pos => by
    have later := @rest.items_eq fuel (pos + 1 + header.size + body.size)
    simp only [Clauses.parts, Engine.caseItems, Clauses.items, later, Phrase.items,
      Bool.false_eq_true, if_false, bind_map_left]
    rfl
  | .otherwise _ _ body rest, pos => by
    have later := @rest.items_eq fuel (pos + 2 + body.size)
    simp only [Clauses.parts, Engine.caseItems, Clauses.items, later, if_true, pure_bind]

mutual

/-- A statement steps over its tokens as the tree says. -/
theorem Statement.steps : ∀ (statement : Statement) (fuel : Nat) {window : Window} {pos : Nat}
    {ending : Ending}, Holds window.tokens pos statement.render →
    window.token? (pos + statement.size) = some ending.token →
    Steps (engine fuel) window pos statement.size (statement.exec fuel window pos)
  | .simple sentence, fuel, window, pos, ending, holds, last => by
    have inside := (Window.token?_eq_some.mp last).1
    rw [Statement.size_simple] at last inside ⊢
    refine sentence.steps fuel holds (Nat.le_of_lt inside) ?_
    simp [Window.endsLine, last, ending.endsLine]
  | .choice opener condition then' body branches closer, fuel, window, pos, ending, holds, last => by
    have inside := Nat.le_of_lt (Window.token?_eq_some.mp last).1
    have parts := holds_choice.mp holds
    have covers := covers_choice holds inside (body.run_eq fuel parts.2.2.2.1)
      (branches.run_eq fuel parts.2.2.2.2.1)
    exact covers.steps holds.1 (.inl opener.isKind) last ending.endsLine
  | .switch opener subject eol clauses closer, fuel, window, pos, ending, holds, last => by
    have inside := Nat.le_of_lt (Window.token?_eq_some.mp last).1
    have parts := holds_switch.mp holds
    have covers := covers_switch holds inside (clauses.items_eq fuel)
      (clauses.runFrom_eq fuel parts.2.2.2.1)
    exact covers.steps holds.1 (.inr (.inl opener.isKind)) last ending.endsLine
  | .select opener eol clauses closer, fuel, window, pos, ending, holds, last => by
    have inside := Nat.le_of_lt (Window.token?_eq_some.mp last).1
    have parts := holds_select.mp holds
    have covers := covers_select holds inside (clauses.runFirst_eq fuel parts.2.2.1)
    exact covers.steps holds.1 (.inr (.inr (.inl opener.isKind))) last ending.endsLine
  | .whileLoop opener condition body closer, fuel, window, pos, ending, holds, last => by
    have inside := Nat.le_of_lt (Window.token?_eq_some.mp last).1
    have parts := holds_whileLoop.mp holds
    have covers := covers_whileLoop holds inside (body.run_eq fuel parts.2.2.1)
    exact covers.steps holds.1 (.inr (.inr (.inr (.inl opener.isKind)))) last ending.endsLine
  | .doLoop opener body closer condition, fuel, window, pos, ending, holds, last => by
    have stored := Window.token?_eq_some.mp last
    have parts := holds_doLoop.mp holds
    have covers := covers_doLoop holds stored.1 stored.2 (body.run_eq fuel parts.2.1)
    exact covers.steps holds.1 (.inr (.inr (.inr (.inr opener.isKind)))) last ending.endsLine

/-- Lines up to the end of a window are run as the tree says. -/
theorem Block.exec_eq : ∀ (block : Block) (fuel : Nat) {window : Window} {pos : Nat},
    Holds window.tokens pos block.render → pos + block.size = window.stop →
    ∀ (looks : Nat) (machine : Machine), At window pos machine →
      (engine fuel).runStatements looks machine = block.exec fuel window pos looks machine
  | .nil, fuel, window, pos, _, size, looks, machine, at' => by
    rw [Block.size_nil, Nat.add_zero] at size
    subst size
    exact runStatements_end at'
  | .blank ending rest, fuel, window, pos, holds, size, looks, machine, at' => by
    rw [Block.size_blank] at size
    have found : window.token? pos = some ending.token :=
      Window.token?_eq_some.mpr ⟨by omega, holds.1⟩
    exact runStatements_ending at' found ending.endsLine
      (rest.exec_eq fuel holds.2 (by omega))
  | .line statement ending rest, fuel, window, pos, holds, size, looks, machine, at' => by
    simp only [holds_line, Block.size_line] at holds size
    obtain ⟨statement', ended, rest'⟩ := holds
    have found : window.token? (pos + statement.size) = some ending.token :=
      Window.token?_eq_some.mpr ⟨by omega, ended⟩
    exact (statement.steps fuel statement' found).runStatements_line at' found ending.endsLine
      (rest.exec_eq fuel rest' (by omega))
  | .choiceLine choice ending rest, fuel, window, pos, holds, size, looks, machine, at' => by
    simp only [holds_choiceLine, Block.size_choiceLine] at holds size
    obtain ⟨choice', ended, rest'⟩ := holds
    have placed : choice.Placed ending window.tokens pos window.stop := ⟨choice', ended, by omega⟩
    have found : window.token? (pos + choice.size) = some ending.token :=
      Window.token?_eq_some.mpr ⟨by omega, ended⟩
    exact (choice.steps fuel placed).runStatements_line at' found
      (by simp [Token.endsLine, ending.isKind]) (rest.exec_eq fuel rest' (by omega))

/-- A body is run as the tree says. -/
theorem Body.run_eq : ∀ (body : Body) (fuel : Nat) {tokens : TokenBlock} {pos : Nat},
    Holds tokens pos body.render → body.Runs fuel tokens pos
  | .mk ending lines, fuel, tokens, pos, holds => by
    have stop : (Window.slice tokens pos (pos + (Body.mk ending lines).size)).stop =
        pos + (Body.mk ending lines).size := stop_slice holds nofun
    rw [Body.Runs]
    rw [Body.size_mk, show pos + (1 + lines.size) = pos + 1 + lines.size by omega] at stop ⊢
    cases fuel with
    | zero => rfl
    | succ fuel =>
      refine runBlock_eq_within fun machine at' => ?_
      have found : (Window.slice tokens pos (pos + 1 + lines.size)).token? pos =
          some ending.token := Window.token?_eq_some.mpr ⟨by omega, holds.1⟩
      exact runStatements_ending at' found ending.endsLine
        (lines.exec_eq fuel holds.2 stop.symm)

/-- The further branches of a choice are run as the tree says. -/
theorem Branches.run_eq : ∀ (branches : Branches) (fuel : Nat) {tokens : TokenBlock} {pos : Nat},
    Holds tokens pos branches.render →
    (engine fuel).runBranches (branches.parts tokens pos) = branches.run fuel tokens pos
  | .done, _, _, _, _ => rfl
  | .elseIf word condition then' body rest, fuel, tokens, pos, holds => by
    simp only [holds_elseIf] at holds
    have first : (engine fuel).runBlock _ = _ := body.run_eq fuel holds.2.2.2.1
    have later := rest.run_eq fuel holds.2.2.2.2
    simp only [Branches.parts, runBranches, Branches.run, first, later, Phrase.value]
  | .otherwise word body, fuel, tokens, pos, holds => body.run_eq fuel holds.2

/-- Clauses are run in order as the tree says. -/
theorem Clauses.runFrom_eq : ∀ (clauses : Clauses) (fuel : Nat) {tokens : TokenBlock} {pos : Nat},
    Holds tokens pos clauses.render → ∀ chosen : Nat,
    (engine fuel).runClauses ((clauses.parts tokens pos).drop chosen) =
      clauses.runFrom fuel tokens pos chosen
  | .done, _, _, _, _, chosen => by
    rw [Clauses.parts, List.drop_nil]
    rfl
  | .case word header body rest, fuel, tokens, pos, holds, chosen => by
    simp only [holds_case] at holds
    have first : (engine fuel).runBlock _ = _ := body.run_eq fuel holds.2.2.1
    have later := rest.runFrom_eq fuel holds.2.2.2
    cases chosen with
    | zero =>
      have next := later 0
      simp only [List.drop_zero] at next
      simp only [Clauses.parts, List.drop_zero, runClauses, first, next]
      rfl
    | succ chosen => exact later chosen
  | .otherwise word else' body rest, fuel, tokens, pos, holds, chosen => by
    simp only [holds_caseElse] at holds
    have first : (engine fuel).runBlock _ = _ := body.run_eq fuel holds.2.2.1
    have later := rest.runFrom_eq fuel holds.2.2.2
    cases chosen with
    | zero =>
      have next := later 0
      simp only [List.drop_zero] at next
      simp only [Clauses.parts, List.drop_zero, runClauses, first, next]
      rfl
    | succ chosen => exact later chosen

/-- The first clause that fits and those after it are run as the tree says. -/
theorem Clauses.runFirst_eq : ∀ (clauses : Clauses) (fuel : Nat) {tokens : TokenBlock} {pos : Nat},
    Holds tokens pos clauses.render →
    (engine fuel).selectFrom (clauses.parts tokens pos) = clauses.runFirst fuel tokens pos
  | .done, _, _, _, _ => rfl
  | .case word header body rest, fuel, tokens, pos, holds => by
    have parts := holds_case.mp holds
    have first : (engine fuel).runBlock _ = _ := body.run_eq fuel parts.2.2.1
    have rest' := rest.runFrom_eq fuel parts.2.2.2 0
    have later := rest.runFirst_eq fuel parts.2.2.2
    simp only [List.drop_zero] at rest'
    simp only [Clauses.parts, selectFrom, runClauses, first, rest', later,
      Bool.false_eq_true, if_false]
    rfl
  | .otherwise word else' body rest, fuel, tokens, pos, holds => by
    have parts := holds_caseElse.mp holds
    have first : (engine fuel).runBlock _ = _ := body.run_eq fuel parts.2.2.1
    have rest' := rest.runFrom_eq fuel parts.2.2.2 0
    simp only [List.drop_zero] at rest'
    simp only [Clauses.parts, selectFrom, runClauses, first, rest', if_true]
    rfl

end

/-- A window that a block fills is run as the tree says. -/
theorem Block.run_eq (block : Block) (fuel : Nat) {window : Window}
    (holds : Holds window.tokens window.start block.render)
    (size : window.start + block.size = window.stop) (bindings : List (String × Value)) :
    Machine.runBlock fuel window bindings = block.run fuel window bindings := by
  cases fuel with
  | zero => rfl
  | succ fuel =>
    exact runBlock_eq_within (block.exec_eq fuel holds size fuel)

end LineScript.Structured
