import LineScript.Proofs.Run.Engine

/-!
# Statements that run bodies

A choice, a selection or a loop first finds out what it has to do. Then it runs one body after the
other, and how a body ended decides whether another one follows. Every such statement is cut here
into what it does until its first body begins (`Engine.opening`, `Task.first`) and what it does
behind each of its bodies (`Entry.ended`), so that control can be followed from one body to the next
without a word about the kind of the statement.
-/

namespace LineScript.Jumps

open Machine

/-- What a statement with bodies still has to do. -/
inductive Task where
  /-- To run the first branch whose condition holds. -/
  | choice (list : List Branch)
  /-- To run from the first clause whose condition holds. -/
  | selection (list : List Clause)
  /-- To run a clause, and the following ones as long as control asks for them. -/
  | falling (list : List Clause)
  /-- To run the rounds of a counting loop. -/
  | count (loop : ForLoop) (step : Option TokenBlock) (last : Float) (rounds : Nat)
      (index amount : Float)
  /-- To run a round for each member. -/
  | each (loop : ForLoop) (members : List Value)
  /-- To run rounds as long as a condition holds before them. -/
  | whileRounds (condition body : Window) (rounds : Nat)
  /-- To run rounds until a condition holds after them. -/
  | untilRounds (condition body : Window) (rounds : Nat)

/-- A body that a statement runs, and what the statement goes on from. -/
inductive Entry where
  /-- The branch of a choice. -/
  | branch (code : Window)
  /-- The clause of a selection, before other clauses. -/
  | clause (code : Window) (later : List Clause)
  /-- The round of a counting loop at an index. -/
  | index (loop : ForLoop) (step : Option TokenBlock) (last : Float) (rounds : Nat)
      (index amount : Float)
  /-- The round of a loop for a member, before other members. -/
  | member (loop : ForLoop) (member : Value) (members : List Value)
  /-- The round of a loop with its condition first. -/
  | whileRound (condition code : Window) (rounds : Nat)
  /-- The round of a loop with its condition last. -/
  | untilRound (condition code : Window) (rounds : Nat)

/-- Does what a statement has to do. -/
def Task.run (low : Engine) : Task → Exec Flow
  | choice list => low.runBranches list
  | selection list => low.selectFrom list
  | falling list => low.runClauses list
  | count loop step last rounds index amount => low.countFrom loop step last rounds index amount
  | each loop members => low.visitEach loop members
  | whileRounds condition body rounds => low.whileRounds condition body rounds
  | untilRounds condition body rounds => low.untilRounds condition body rounds

/-- Does what is left to do, if anything is. -/
def rest (low : Engine) : Option Task → Exec Flow
  | none => return .normal
  | some task => task.run low

namespace Entry

/-- The tokens of the body. -/
def code : Entry → Window
  | branch code | clause code _ | whileRound _ code _ | untilRound _ code _ => code
  | index loop .. | member loop .. => .whole loop.body

/-- The variables that are bound in the body. -/
def bindings : Entry → List (String × Value)
  | index loop _ _ _ at' _ => [(loop.index, .ofFloat at')]
  | member loop value _ => [(loop.index, value)]
  | _ => []

/-- The body is the round of a loop. -/
def isLoop : Entry → Bool
  | branch _ | clause .. => false
  | _ => true

/-- What the statement makes of the flow that the body ended with. -/
def control : Entry → Flow → Round
  | branch _, flow => .leave flow
  | clause .., .continueCase => .next
  | clause .., flow => .leave flow
  | _, flow => .ofFlow flow

/-- Finds out what follows behind the body: the next round, if there is one, or the next clause. -/
def next (low : Engine) : Entry → Exec (Option Task)
  | branch _ => return none
  | clause _ later => return some (.falling later)
  | index loop step last rounds at' amount => do
    if passes at' (at' + amount) last then return none
    else return some (.count loop step last rounds (at' + amount) (← low.stepOf step))
  | member loop _ members => return some (.each loop members)
  | whileRound condition code rounds => return some (.whileRounds condition code rounds)
  | untilRound condition code rounds => do
    if (← low.whole condition).asBool then return none
    else return some (.untilRounds condition code rounds)

/-- What the statement does when control goes on in it. -/
def again (low : Engine) (entry : Entry) : Exec Flow := do rest low (← entry.next low)

/-- What the statement does when the body ended with a flow. -/
def ended (low : Engine) (entry : Entry) (flow : Flow) : Exec Flow :=
  match entry.control flow with
  | .leave flow => return flow
  | .done => return .normal
  | .next => entry.again low

end Entry

/-- The first branch whose condition holds. -/
def firstBranch (low : Engine) : List Branch → Exec (Option Entry)
  | [] => return none
  | branch :: branches => do
    match branch.condition with
    | none => return some (.branch branch.body)
    | some condition =>
      if (← low.whole condition).asBool then return some (.branch branch.body)
      else firstBranch low branches

/-- The first clause whose condition holds. -/
def firstClause (low : Engine) : List Clause → Exec (Option Entry)
  | [] => return none
  | clause :: clauses => do
    if clause.isElse then return some (.clause clause.body clauses)
    else if (← low.whole clause.header).asBool then return some (.clause clause.body clauses)
    else firstClause low clauses

/-- Finds the first body that a statement has to run, if there is one. -/
def Task.first (low : Engine) : Task → Exec (Option Entry)
  | choice list => firstBranch low list
  | selection list => firstClause low list
  | falling [] => return none
  | falling (clause :: later) => return some (.clause clause.body later)
  | count _ _ _ 0 _ _ => Exec.starved
  | count loop step last (rounds + 1) index amount =>
    return some (.index loop step last rounds index amount)
  | each _ [] => return none
  | each loop (member :: members) => return some (.member loop member members)
  | whileRounds _ _ 0 => Exec.starved
  | whileRounds condition body (rounds + 1) => do
    if (← low.whole condition).asBool then return some (.whileRound condition body rounds)
    else return none
  | untilRounds _ _ 0 => Exec.starved
  | untilRounds condition body (rounds + 1) => return some (.untilRound condition body rounds)

/-- Runs a body and what the statement does behind it, or nothing. -/
def through (low : Engine) : Option Entry → Exec Flow
  | none => return .normal
  | some entry => do entry.ended low (← low.runBlock entry.code entry.bindings)

variable (low : Engine)

/-- Running branches is choosing the first that holds and then going through its body. -/
theorem runBranches_eq (branches : List Branch) :
    low.runBranches branches = (do through low (← firstBranch low branches)) := by
  induction branches with
  | nil => rfl
  | cons branch branches ih =>
    obtain ⟨_ | condition, body⟩ := branch
    · simp [Engine.runBranches, firstBranch, through, Entry.ended, Entry.control, Entry.code,
        Entry.bindings]
    · rw [Engine.runBranches, ih, firstBranch]
      simp only [bind_assoc]
      refine bind_congr fun value => ?_
      split <;>
        simp [through, Entry.ended, Entry.control, Entry.code, Entry.bindings]

/-- Running clauses goes through the first clause's body and then the later ones. -/
theorem runClauses_eq (clause : Clause) (later : List Clause) :
    low.runClauses (clause :: later) = through low (some (.clause clause.body later)) := by
  rw [Engine.runClauses]
  refine bind_congr fun flow => ?_
  cases flow <;> rfl

/-- Selecting runs through the first clause that matches. -/
theorem selectFrom_eq (clauses : List Clause) :
    low.selectFrom clauses = (do through low (← firstClause low clauses)) := by
  induction clauses with
  | nil => rfl
  | cons clause later ih =>
    rw [Engine.selectFrom, firstClause]
    by_cases isElse : clause.isElse = true
    · rw [if_pos isElse, if_pos isElse, pure_bind]
      exact runClauses_eq low clause later
    · rw [if_neg isElse, if_neg isElse, bind_assoc]
      refine bind_congr fun value => ?_
      split
      · rw [pure_bind]
        exact runClauses_eq low clause later
      · exact ih

/-- Behind the round of a loop, what the statement does is what the loop does. -/
theorem Entry.ended_loop {entry : Entry} (loop : entry.isLoop = true) (flow : Flow) :
    entry.ended low flow =
      match Round.ofFlow flow with
      | .leave flow => return flow
      | .done => return .normal
      | .next => entry.again low := by
  cases entry <;> first | rfl | cases loop

/-- The round of a loop, from what the loop does when control goes on in it. -/
theorem through_round {entry : Entry} (loop : entry.isLoop = true) {more : Exec Flow}
    (again : entry.again low = more) :
    through low (some entry) = (do
      match Round.ofFlow (← low.runBlock entry.code entry.bindings) with
      | .leave flow => return flow
      | .done => return .normal
      | .next => more) := by
  subst again
  exact bind_congr fun flow => Entry.ended_loop low loop flow

/-- Doing what a statement has to do is finding its first body, running that, and doing what the
statement does behind it. -/
theorem Task.run_eq (task : Task) : task.run low = (do through low (← task.first low)) := by
  cases task with
  | choice list => exact runBranches_eq low list
  | selection list => exact selectFrom_eq low list
  | falling list =>
    cases list with
    | nil => rfl
    | cons clause later => exact runClauses_eq low clause later
  | count loop step last rounds index amount =>
    cases rounds with
    | zero => rfl
    | succ rounds =>
      have again : Entry.again low (.index loop step last rounds index amount) = (do
          if passes index (index + amount) last then return .normal
          else low.countFrom loop step last rounds (index + amount) (← low.stepOf step)) := by
        simp only [Entry.again, Entry.next]
        split <;> simp [rest, Task.run]
      simp only [Task.run, Engine.countFrom, Engine.round, Task.first, bind_assoc, pure_bind]
      exact (through_round low rfl again).symm
  | each loop members =>
    cases members with
    | nil => rfl
    | cons member members =>
      have again : Entry.again low (.member loop member members) = low.visitEach loop members := by
        simp [Entry.again, Entry.next, rest, Task.run]
      simp only [Task.run, Engine.visitEach, Engine.round, Task.first, bind_assoc, pure_bind]
      exact (through_round low rfl again).symm
  | whileRounds condition body rounds =>
    cases rounds with
    | zero => rfl
    | succ rounds =>
      have again : Entry.again low (.whileRound condition body rounds) =
          low.whileRounds condition body rounds := by
        simp [Entry.again, Entry.next, rest, Task.run]
      simp only [Task.run, Engine.whileRounds, Task.first, bind_assoc]
      refine bind_congr fun value => ?_
      split
      · exact (through_round low rfl again).symm
      · rfl
  | untilRounds condition body rounds =>
    cases rounds with
    | zero => rfl
    | succ rounds =>
      have again : Entry.again low (.untilRound condition body rounds) = (do
          if (← low.whole condition).asBool then return .normal
          else low.untilRounds condition body rounds) := by
        simp only [Entry.again, Entry.next, bind_assoc]
        refine bind_congr fun value => ?_
        split <;> simp [rest, Task.run]
      simp only [Task.run, Engine.untilRounds, Task.first, pure_bind]
      exact (through_round low rfl again).symm

/-- What the choice whose keyword stands at a position has to do, and where it ends. -/
def openChoice (window : Window) (opener : Token) (pos : Nat) : Exec (Option Task × Nat) :=
  match Layout.findThen window.tokens pos window.stop with
  | none => Exec.ofExcept (.error (closerFault opener "Then"))
  | some found =>
    if Layout.isSingleLineIf window.tokens pos window.stop then
      let tokens := window.tokens
      let lineEnd := Layout.lineEnd tokens (found + 1) window.stop
      let bodyEnd := (Layout.trailingEndIf tokens pos window.stop).getD
        (Layout.statementEnd tokens (found + 1) lineEnd)
      return (some (.choice
        [⟨some (.slice tokens (pos + 1) found), .slice tokens (found + 1) bodyEnd⟩]), lineEnd)
    else do
      let (branches, close) ← Exec.ofExcept (choiceBranches window opener pos found)
      return (some (.choice branches), close + 1)

/-- What the selection by value whose keyword stands at a position has to do, and where it ends. -/
def openSwitch (window : Window) (opener : Token) (pos : Nat) : Exec (Option Task × Nat) := do
  let (subject, pos) ← low.value window (pos + 1)
  let (clauses, close) ← Exec.ofExcept (clauses window opener pos .kwEndSwitch "EndSwitch")
  let items ← low.caseItems clauses
  let chosen := items.findIdx fun
    | none => true
    | some items => items.any (CaseItem.fits subject)
  return (some (.falling (clauses.drop chosen)), close + 1)

/-- What the selection by conditions whose keyword stands at a position has to do, and where it
ends. -/
def openSelect (window : Window) (opener : Token) (pos : Nat) : Exec (Option Task × Nat) :=
  match (window.token? (pos + 1)).filter (!·.endsLine) with
  | some token => Exec.failAt window (pos + 1) (.afterSelect token.display)
  | none => do
    let (clauses, close) ←
      Exec.ofExcept (clauses window opener (pos + 1) .kwEndSelect "EndSelect")
    return (some (.selection clauses), close + 1)

/-- What the loop of a number has to do. -/
def openFor (token : Token) (id : Nat) : Exec (Option Task) := do
  match (← get).program.loops[id]? with
  | none => Exec.fail (.loopUnknown id) token.line
  | some loop =>
    match loop.head with
    | .range first last step =>
      let index := (← low.whole (.whole first)).asNumber
      let last := (← low.whole (.whole last)).asNumber
      let amount ← low.stepOf step
      if (amount > 0 && index > last) || (amount < 0 && index < last) then return none
      else return some (.count loop step last low.fuel index amount)
    | .each collection =>
      let value ← low.whole (.whole collection)
      match members? (← get) value with
      | some members => return some (.each loop members)
      | none => Exec.fail (.notCollection value.typeName) loop.line

/-- What the loop with its condition first whose keyword stands at a position has to do, and where
it ends. -/
def openWhile (window : Window) (opener : Token) (pos : Nat) : Exec (Option Task × Nat) :=
  let tokens := window.tokens
  let header := Layout.statementEnd tokens (pos + 1) window.stop
  let visit := Layout.scanOutermost tokens header window.stop fun token => token.kind == .kwWEnd
  match visit.halted with
  | none => Exec.ofExcept (.error (closerFault opener "WEnd"))
  | some close =>
    return (some (.whileRounds (.slice tokens (pos + 1) header) (.slice tokens header close)
      low.fuel), close + 1)

/-- What the loop with its condition last whose keyword stands at a position has to do, and where
it ends. -/
def openDo (window : Window) (opener : Token) (pos : Nat) : Exec (Option Task × Nat) :=
  let tokens := window.tokens
  let visit := Layout.scanOutermost tokens (pos + 1) window.stop fun token =>
    token.kind == .kwUntil
  match visit.halted with
  | none => Exec.ofExcept (.error (closerFault opener "Until"))
  | some close =>
    let ending := Layout.statementEnd tokens (close + 1) window.stop
    return (some (.untilRounds (.slice tokens (close + 1) ending) (.slice tokens (pos + 1) close)
      low.fuel), ending)

/-- What the statement that begins with a keyword at a position has to do, if it is one that runs
bodies, and where it ends. -/
def opening (window : Window) (opener : Token) (pos : Nat) : Exec (Option Task × Nat) :=
  match opener.kind with
  | .kwIf => openChoice window opener pos
  | .kwSwitch => openSwitch low window opener pos
  | .kwSelect => openSelect window opener pos
  | .loop id => do return (← openFor low opener id, pos + 1)
  | .kwWhile => openWhile low window opener pos
  | .kwDo => openDo low window opener pos
  | _ => Exec.failAt window pos (.notAStatement opener.display)

variable {low} {window : Window} {opener : Token} {pos : Nat}

/-- A conditional is its opening, which looks up the task, and then the task. -/
theorem choice_eq (low : Engine) (window : Window) (opener : Token) (pos : Nat) :
    low.choice window opener pos = (do
      let (task, behind) ← openChoice window opener pos
      return (← rest low task, behind)) := by
  unfold Engine.choice openChoice
  cases Layout.findThen window.tokens pos window.stop with
  | none => rfl
  | some found =>
    cases Layout.isSingleLineIf window.tokens pos window.stop with
    | true =>
      simp only [if_true, Engine.choiceOnLine, pure_bind, rest, Task.run, Engine.runBranches,
        bind_assoc]
      refine bind_congr fun value => ?_
      split <;> simp
    | false => simp [rest, Task.run]

/-- A switch is its opening, which looks up the task, and then the task. -/
theorem switch_eq (low : Engine) (window : Window) (opener : Token) (pos : Nat) :
    low.switch window opener pos = (do
      let (task, behind) ← openSwitch low window opener pos
      return (← rest low task, behind)) := by
  unfold Engine.switch openSwitch
  simp only [bind_assoc, pure_bind]
  exact bind_congr fun subject => bind_congr fun parts => bind_congr fun items => rfl

/-- A selection is its opening, which looks up the task, and then the task. -/
theorem select_eq (low : Engine) (window : Window) (opener : Token) (pos : Nat) :
    low.select window opener pos = (do
      let (task, behind) ← openSelect window opener pos
      return (← rest low task, behind)) := by
  unfold Engine.select openSelect
  cases (window.token? (pos + 1)).filter (!·.endsLine) with
  | none => simp [rest, Task.run]
  | some token =>
    simp only [Exec.failAt, bind_assoc]
    rfl

/-- A counted or iterating loop is its opening and then the task. -/
theorem forLoop_eq (low : Engine) (opener : Token) (id : Nat) :
    low.forLoop opener id = (do rest low (← openFor low opener id)) := by
  unfold Engine.forLoop openFor
  simp only [bind_assoc]
  refine bind_congr fun machine => ?_
  cases machine.program.loops[id]? with
  | none => rfl
  | some loop =>
    obtain ⟨index, head, body, line⟩ := loop
    cases head with
    | range first last step =>
      simp only [Engine.count, bind_assoc]
      refine bind_congr fun first => bind_congr fun last => bind_congr fun amount => ?_
      split <;> simp [rest, Task.run]
    | each collection =>
      simp only [bind_assoc]
      refine bind_congr fun value => bind_congr fun machine => ?_
      cases members? machine value with
      | none => rfl
      | some members => simp [rest, Task.run]

/-- A loop with a condition before its body is its opening and then the task. -/
theorem whileLoop_eq (low : Engine) (window : Window) (opener : Token) (pos : Nat) :
    low.whileLoop window opener pos = (do
      let (task, behind) ← openWhile low window opener pos
      return (← rest low task, behind)) := by
  unfold Engine.whileLoop openWhile
  dsimp only
  cases (Layout.scanOutermost window.tokens
    (Layout.statementEnd window.tokens (pos + 1) window.stop) window.stop
    fun token => token.kind == .kwWEnd).halted with
  | none => rfl
  | some close => simp [rest, Task.run]

/-- A loop with a condition behind its body is its opening and then the task. -/
theorem doLoop_eq (low : Engine) (window : Window) (opener : Token) (pos : Nat) :
    low.doLoop window opener pos = (do
      let (task, behind) ← openDo low window opener pos
      return (← rest low task, behind)) := by
  unfold Engine.doLoop openDo
  dsimp only
  cases (Layout.scanOutermost window.tokens (pos + 1) window.stop
    fun token => token.kind == .kwUntil).halted with
  | none => rfl
  | some close => simp [rest, Task.run]

/-- A statement that runs bodies finds out what it has to do, and does that. -/
theorem statement_eq {machine there : Machine} {task : Option Task} {behind : Nat}
    (found : window.token? pos = some opener)
    (opened : opening low window opener pos machine = .ok (task, behind) there) :
    low.statement window pos machine = (do return (← rest low task, behind) : Exec _) there := by
  have same : ∀ {open' : Exec (Option Task × Nat)} {run : Exec (Flow × Nat)},
      run = (do
        let (task, behind) ← open'
        return (← rest low task, behind)) →
      open' machine = .ok (task, behind) there →
      run machine = (do return (← rest low task, behind) : Exec _) there := by
    rintro open' run rfl opened
    simp only [bind, EStateM.bind, opened]
  obtain ⟨kind, lexeme, line, column⟩ := opener
  unfold Engine.statement
  rw [found]
  cases kind with
  | kwIf => exact same (choice_eq low window _ pos) opened
  | kwSwitch => exact same (switch_eq low window _ pos) opened
  | kwSelect => exact same (select_eq low window _ pos) opened
  | loop id =>
    refine same ?_ opened
    simp [forLoop_eq, opening]
  | kwWhile => exact same (whileLoop_eq low window _ pos) opened
  | kwDo => exact same (doLoop_eq low window _ pos) opened
  | _ =>
    -- A statement of any other kind runs no body.
    obtain ⟨_, _, _, ⟨⟩⟩ := run_bind_eq_ok.mp opened

end LineScript.Jumps
