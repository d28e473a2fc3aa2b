import LineScript.Proofs.Congruence.Walk

/-!
# The walk over statements

Two engines that go together in what they evaluate and in the blocks that they run go together in every
choice, selection and loop, and so in every statement. Control may leave a block with a flow after
which nothing more is done around it; such a flow is handed on by everything that surrounds the block.
-/

namespace LineScript

namespace Logic

variable {logic : Logic} {world : logic.World}

/-- A statement was run: it ended where it may, and the value with which control leaves may be
kept. -/
def Ran (logic : Logic) (window : Window) (pos : Nat) (world : logic.World) (result : Flow × Nat) :
    Prop :=
  logic.Ends window pos result.2 ∧ logic.AdmitsFlow world result.1

/-- After this round nothing more is done. -/
def leavesRound (logic : Logic) : Round → Bool
  | .leave flow => logic.leaves flow
  | _ => false

/-- The value with which control leaves a loop may be kept. -/
def AdmitsRound (logic : Logic) (world : logic.World) (round : Round) : Prop :=
  ∀ flow, round = .leave flow → logic.AdmitsFlow world flow

/-- Only a flow that leaves the function is handed on by everything. -/
theorem leaves_eq_false (logic : Logic) (flow : Flow) (notExit : flow ≠ .exit)
    (notReturned : ∀ value, flow ≠ .returned value) : logic.leaves flow = false := by
  refine Bool.eq_false_iff.mpr fun away => ?_
  rcases logic.leaves_out away with isExit | ⟨value, isReturned⟩
  · exact notExit isExit
  · exact notReturned value isReturned

/-- A round hands on the flows that everything hands on. -/
theorem leavesRound_ofFlow (flow : Flow) : logic.leavesRound (.ofFlow flow) = logic.leaves flow := by
  cases flow with
  | exit | returned value | continueCase => rfl
  | normal => exact (logic.leaves_eq_false .normal (by simp) (by simp)).symm
  | continueLoop levels =>
    rw [logic.leaves_eq_false (.continueLoop levels) (by simp) (by simp)]
    by_cases last : levels = 1
    · simp [Round.ofFlow, last, leavesRound]
    · simpa [Round.ofFlow, last, leavesRound] using
        logic.leaves_eq_false (.continueLoop (levels - 1)) (by simp) (by simp)
  | exitLoop levels =>
    rw [logic.leaves_eq_false (.exitLoop levels) (by simp) (by simp)]
    by_cases last : levels = 1
    · simp [Round.ofFlow, last, leavesRound]
    · simpa [Round.ofFlow, last, leavesRound] using
        logic.leaves_eq_false (.exitLoop (levels - 1)) (by simp) (by simp)

/-- What a round leaves a loop with is what its body was left with. -/
theorem AdmitsFlow.round {flow : Flow} (admits : logic.AdmitsFlow world flow) :
    logic.AdmitsRound world (.ofFlow flow) := by
  intro out same value returned
  subst returned
  refine admits value ?_
  unfold Round.ofFlow at same
  cases flow <;> simp_all
  all_goals split at same <;> simp_all

/-- What a loop does after a round. -/
theorem afterRound {α : Type} {leaving : α → Bool} {action other : Exec α}
    {post : logic.World → α → Prop} (rounds : logic.Gives leaving world action other post)
    (view : α → Round) (same : ∀ value, logic.leavesRound (view value) = leaving value)
    (admits : ∀ after value, post after value → logic.AdmitsRound after (view value))
    {next later : Exec Flow}
    (rest : ∀ after, logic.Leads world after →
      logic.Gives logic.leaves after next later logic.AdmitsFlow) :
    logic.Gives logic.leaves world
      (do match view (← action) with
        | .leave flow => return flow
        | .done => return .normal
        | .next => next)
      (do match view (← other) with
        | .leave flow => return flow
        | .done => return .normal
        | .next => later) logic.AdmitsFlow := by
  refine logic.follow rounds (fun after value leads held _ => ?_) fun after value _ held away => ?_
  · have admitted := admits after value held
    split
    · rename_i flow left'
      exact logic.pure fun _ later => (admitted flow left').mono later
    · exact logic.pure fun _ _ => admitsFlow_normal
    · exact rest after leads
  · have admitted := admits after value held
    rw [← same value] at away
    generalize view value = round at admitted away
    cases round with
    | leave flow => exact ⟨flow, rfl, rfl, away, fun _ later => (admitted flow rfl).mono later⟩
    | next | done => cases away

end Logic

namespace Logic.Relates

variable {logic : Logic} {left right : Engine} (relates : logic.Relates left right)
  {world : logic.World}
include relates

/-- The items of a case, from a position of its header on. -/
theorem caseItemsFrom {header : Window} (inside : logic.block header.tokens) (pos : Nat)
    (items : List CaseItem) :
    logic.Does world (left.caseItemsFrom header left.fuel pos items)
      (right.caseItemsFrom header right.fuel pos items) fun _ _ => True := by
  refine logic.rounds (fun fuel carried => left.caseItemsFrom header fuel carried.1 carried.2)
    (fun fuel carried => right.caseItemsFrom header fuel carried.1 carried.2)
    (fun _ (_ : Nat × List CaseItem) => True) (fun _ _ _ => True)
    (fun _ => rfl) (fun _ => rfl) (fun fuel more ih world carried _ => ?_) relates.fuel
    (pos, items) trivial
  have rest : ∀ after item last, logic.Does after
      (left.moreItems header fuel last (carried.2 ++ [item]))
      (right.moreItems header more last (carried.2 ++ [item])) fun _ _ => True := by
    intro after item last
    unfold Engine.moreItems
    split
    · exact logic.pure fun _ _ => trivial
    · split
      · exact ih after (last + 1, carried.2 ++ [item]) trivial
      · exact logic.failAtFree inside rfl
  unfold Engine.caseItemsFrom
  refine logic.bind (relates.value world header carried.1 inside) fun _ first _ _ => ?_
  dsimp only
  split
  · exact logic.bind (relates.value _ header _ inside) fun after last _ _ =>
      rest after (.range first.1 last.1) last.2
  · exact rest _ (.single first.1) first.2

/-- The items of all cases. -/
theorem caseItems {clauses : List Clause}
    (headers : ∀ clause ∈ clauses, logic.block clause.header.tokens) :
    logic.Does world (left.caseItems clauses) (right.caseItems clauses) fun _ _ => True := by
  induction clauses generalizing world with
  | nil => exact logic.pure fun _ _ => trivial
  | cons clause clauses ih =>
    obtain ⟨header, others⟩ := List.forall_mem_cons.mp headers
    have rest : ∀ after (items : Option (List CaseItem)), logic.Does after
        (do return items :: (← left.caseItems clauses))
        (do return items :: (← right.caseItems clauses)) fun _ _ => True :=
      fun after items => logic.bind (ih others) fun _ _ _ _ => logic.pure fun _ _ => trivial
    unfold Engine.caseItems
    dsimp only
    split
    · exact rest world none
    · have read : logic.Does world
          (some <$> left.caseItemsFrom clause.header left.fuel clause.header.start [])
          (some <$> right.caseItemsFrom clause.header right.fuel clause.header.start [])
          fun _ _ => True :=
        logic.map (relates.caseItemsFrom header clause.header.start []) fun _ _ _ _ _ => trivial
      exact logic.bind read fun after items _ _ => rest after items

/-- The step of a counting loop. -/
theorem stepOf {step : Option TokenBlock} (inside : ∀ tokens ∈ step, logic.block tokens) :
    logic.Does world (left.stepOf step) (right.stepOf step) fun _ _ => True := by
  cases step with
  | none => exact logic.pure fun _ _ => trivial
  | some tokens =>
    have block : logic.block (Window.whole tokens).tokens := inside tokens rfl
    exact logic.bind (relates.whole block) fun _ _ _ _ => logic.pure fun _ _ => trivial

end Logic.Relates

namespace Logic.Runs

variable {logic : Logic} {left right : Engine} (runs : logic.Runs left right)
  {window : Window} {world : logic.World}
include runs

/-!
## Choices and selections
-/

/-- A block without variables bound in it. -/
theorem body {code : Window} (inside : logic.place code code.start) :
    logic.Gives logic.leaves world (left.runBlock code) (right.runBlock code) logic.AdmitsFlow :=
  runs.block inside (by simp)

/-- The body of the first branch whose condition holds. -/
theorem runBranches {branches : List Branch}
    (bodies : ∀ branch ∈ branches, logic.place branch.body branch.body.start)
    (headers : ∀ branch ∈ branches, ∀ header ∈ branch.condition, logic.block header.tokens) :
    logic.Gives logic.leaves world (left.runBranches branches) (right.runBranches branches)
      logic.AdmitsFlow := by
  induction branches generalizing world with
  | nil => exact logic.pure fun _ _ => admitsFlow_normal
  | cons branch branches ih =>
    obtain ⟨body, bodies⟩ := List.forall_mem_cons.mp bodies
    obtain ⟨condition, headers⟩ := List.forall_mem_cons.mp headers
    unfold Engine.runBranches
    split
    · exact runs.body body
    · rename_i header same
      refine logic.bind (runs.whole (condition header same)) fun _ _ _ _ => ?_
      split
      · exact runs.body body
      · exact ih bodies headers

omit runs in
/-- A condition that stands among statements. -/
theorem condition {pos : Nat} (inside : logic.place window pos) (start stop : Nat) :
    logic.block (Window.slice window.tokens start stop).tokens := by
  have block := logic.block_of_place inside
  exact block

/-- A choice. -/
theorem choice {pos : Nat} {opener : Token} (inside : logic.place window pos)
    (found : window.token? pos = some opener) (isChoice : opener.kind = .kwIf) :
    logic.Gives (fun result => logic.leaves result.1) world (left.choice window opener pos)
      (right.choice window opener pos) (logic.Ran window pos) := by
  have parts := logic.choice inside found isChoice
  have block := logic.block_of_place inside
  unfold Engine.choice
  split
  · rename_i missing
    rw [missing] at parts
    exact logic.raise parts
  · rename_i ending known
    rw [known] at parts
    dsimp only at parts
    split
    · rename_i onLine
      rw [if_pos onLine] at parts
      unfold Engine.choiceOnLine
      refine logic.bind (runs.whole (condition inside (pos + 1) ending)) fun _ condition _ _ => ?_
      split
      · exact logic.change (runs.body parts.1) (fun _ => rfl)
          fun _ _ admits _ leads => ⟨parts.2, admits.mono leads⟩
      · exact logic.pure fun _ _ => ⟨parts.2, admitsFlow_normal⟩
    · rename_i overLines
      rw [if_neg overLines] at parts
      cases made : choiceBranches window opener pos ending with
      | error fault =>
        rw [made] at parts
        exact logic.raiseFirst parts
      | ok result =>
        rw [made] at parts
        obtain ⟨branches, close⟩ := result
        have headers : ∀ branch ∈ branches, ∀ header ∈ branch.condition,
            logic.block header.tokens := fun branch member header condition => by
          rw [(choiceBranches_isOf made branch member).2 header condition]
          exact block
        exact logic.change (runs.runBranches parts.1 headers) (fun _ => rfl)
          fun _ _ admits _ leads => ⟨parts.2, admits.mono leads⟩

/-- The first clause's body, and the following ones as long as control asks for them. -/
theorem runClauses {clauses : List Clause}
    (bodies : ∀ clause ∈ clauses, logic.place clause.body clause.body.start) :
    logic.Gives logic.leaves world (left.runClauses clauses) (right.runClauses clauses)
      logic.AdmitsFlow := by
  induction clauses generalizing world with
  | nil => exact logic.pure fun _ _ => admitsFlow_normal
  | cons clause clauses ih =>
    obtain ⟨body, bodies⟩ := List.forall_mem_cons.mp bodies
    refine logic.follow (runs.body body) (fun _ flow _ admits _ => ?_)
      fun _ flow _ admits away => ?_
    · split
      · exact ih bodies
      · exact logic.pure fun _ leads => admits.mono leads
    · rcases logic.leaves_out away with rfl | ⟨value, rfl⟩
      · exact ⟨_, rfl, rfl, away, fun _ leads => admits.mono leads⟩
      · exact ⟨_, rfl, rfl, away, fun _ leads => admits.mono leads⟩

omit runs in
/-- What a selection does with its clauses, when both engines go together in it. -/
theorem selection {opener : Token} {pos start : Nat} {closer : TokenKind} (name : String)
    (world : logic.World) (run other : List Clause → Exec Flow) (inside : logic.place window pos)
    (found : window.token? pos = some opener)
    (isSelection : opener.kind = .kwSwitch ∧ closer = .kwEndSwitch ∨
      opener.kind = .kwSelect ∧ closer = .kwEndSelect)
    (path : logic.Path window (pos + 1) start)
    (does : ∀ clauses : List Clause,
      (∀ clause ∈ clauses, logic.block clause.header.tokens) →
      (∀ clause ∈ clauses, logic.place clause.body clause.body.start) →
      logic.Gives logic.leaves world (run clauses) (other clauses) logic.AdmitsFlow) :
    logic.Gives (fun result => logic.leaves result.1) world
      (do
        let (clauses, close) ← Exec.ofExcept (clauses window opener start closer name)
        return (← run clauses, close + 1))
      (do
        let (clauses, close) ← Exec.ofExcept (clauses window opener start closer name)
        return (← other clauses, close + 1)) (logic.Ran window pos) := by
  have parts := @Ground.selection logic.toGround window pos opener start closer name inside found
    isSelection path
  cases made : clauses window opener start closer name with
  | error fault =>
    rw [made] at parts
    exact logic.raiseFirst parts
  | ok result =>
    rw [made] at parts
    obtain ⟨clauses, close⟩ := result
    have headers : ∀ clause ∈ clauses, logic.block clause.header.tokens := fun clause member => by
      rw [(clauses_isOf made clause member).2]
      exact logic.block_of_place inside
    exact logic.change (does clauses headers parts.1) (fun _ => rfl)
      fun _ _ admits _ leads => ⟨parts.2, admits.mono leads⟩

/-- A selection by value. -/
theorem switch {pos : Nat} {opener : Token} (inside : logic.place window pos)
    (found : window.token? pos = some opener) (isSwitch : opener.kind = .kwSwitch) :
    logic.Gives (fun result => logic.leaves result.1) world (left.switch window opener pos)
      (right.switch window opener pos) (logic.Ran window pos) := by
  refine logic.bind (runs.value world window _ (logic.block_of_place inside)) fun after read _ held => ?_
  obtain ⟨subject, start⟩ := read
  have ran := selection "EndSwitch" after
    (fun clauses => do
      let items ← left.caseItems clauses
      left.runClauses (clauses.drop (items.findIdx (Engine.isChosen subject))))
    (fun clauses => do
      let items ← right.caseItems clauses
      right.runClauses (clauses.drop (items.findIdx (Engine.isChosen subject))))
    inside found (.inl ⟨isSwitch, rfl⟩) held.1 fun clauses headers bodies =>
      logic.bind (runs.caseItems headers) fun _ _ _ _ =>
        runs.runClauses fun clause member => bodies clause (List.mem_of_mem_drop member)
  simp only [bind_assoc] at ran
  exact ran

/-- The clauses from the first one whose condition holds. -/
theorem selectFrom {clauses : List Clause}
    (headers : ∀ clause ∈ clauses, logic.block clause.header.tokens)
    (bodies : ∀ clause ∈ clauses, logic.place clause.body clause.body.start) :
    logic.Gives logic.leaves world (left.selectFrom clauses) (right.selectFrom clauses)
      logic.AdmitsFlow := by
  induction clauses generalizing world with
  | nil => exact logic.pure fun _ _ => admitsFlow_normal
  | cons clause clauses ih =>
    unfold Engine.selectFrom
    split
    · exact runs.runClauses bodies
    · refine logic.bind (runs.whole (headers clause List.mem_cons_self)) fun _ _ _ _ => ?_
      split
      · exact runs.runClauses bodies
      · exact ih (List.forall_mem_cons.mp headers).2 (List.forall_mem_cons.mp bodies).2

/-- A selection by conditions. -/
theorem select {pos : Nat} {opener : Token} (inside : logic.place window pos)
    (found : window.token? pos = some opener) (isSelect : opener.kind = .kwSelect) :
    logic.Gives (fun result => logic.leaves result.1) world (left.select window opener pos)
      (right.select window opener pos) (logic.Ran window pos) := by
  unfold Engine.select
  split
  · exact logic.failAtFree (logic.block_of_place inside) rfl
  · exact selection _ _ _ _ inside found (.inr ⟨isSelect, rfl⟩) (logic.path_refl window _)
      fun clauses headers bodies => runs.selectFrom headers bodies

/-!
## Loops
-/

/-- A round of a counting or collection loop. -/
theorem round {loop : ForLoop} {index : Value} (inside : logic.place (.whole loop.body) 0)
    (admits : logic.Admits world index) :
    logic.Gives logic.leavesRound world (left.round loop index) (right.round loop index)
      logic.AdmitsRound :=
  logic.change (runs.block inside (by simpa using admits)) leavesRound_ofFlow
    fun _ _ admits _ leads => (admits.mono leads).round

/-- The rounds of a counting loop. -/
theorem countFrom {loop : ForLoop} {step : Option TokenBlock} {last index amount : Float}
    (inside : logic.place (.whole loop.body) 0) (steps : ∀ tokens ∈ step, logic.block tokens) :
    logic.Gives logic.leaves world (left.countFrom loop step last left.fuel index amount)
      (right.countFrom loop step last right.fuel index amount) logic.AdmitsFlow := by
  refine logic.rounds (fun fuel carried => left.countFrom loop step last fuel carried.1 carried.2)
    (fun fuel carried => right.countFrom loop step last fuel carried.1 carried.2)
    (fun _ (_ : Float × Float) => True) (fun _ => logic.AdmitsFlow)
    (fun _ => rfl) (fun _ => rfl) (fun fuel more ih world carried _ => ?_) runs.fuel
    (index, amount) trivial
  refine afterRound (runs.round inside (logic.admits_free (Value.isFree_ofFloat _)))
    (fun round => round) (fun _ => rfl) (fun _ _ admits => admits) fun after _ => ?_
  split
  · exact logic.pure fun _ _ => admitsFlow_normal
  · exact logic.bind (runs.stepOf steps) fun last amount _ _ => ih last (_, amount) trivial

/-- A round for each member of a collection. -/
theorem visitEach {loop : ForLoop} {members : List Value}
    (inside : logic.place (.whole loop.body) 0)
    (admits : ∀ member ∈ members, logic.Admits world member) :
    logic.Gives logic.leaves world (left.visitEach loop members) (right.visitEach loop members)
      logic.AdmitsFlow := by
  induction members generalizing world with
  | nil => exact logic.pure fun _ _ => admitsFlow_normal
  | cons member members ih =>
    obtain ⟨first, others⟩ := List.forall_mem_cons.mp admits
    exact afterRound (runs.round inside first) (fun round => round) (fun _ => rfl)
      (fun _ _ admits => admits) fun after leads =>
        ih fun other member => logic.admits_mono (others other member) leads

/-- The loop that a token of a block stands for. -/
theorem forLoop {pos id : Nat} {token : Token} (inside : logic.block window.tokens)
    (found : window.token? pos = some token) (isLoop : token.kind = .loop id) :
    logic.Gives logic.leaves world (left.forLoop token id) (right.forLoop token id)
      logic.AdmitsFlow := by
  refine logic.get (fun _ _ => rfl) fun after machine _ known => ?_
  split
  · rename_i missing
    exact logic.raise (logic.loop_missing known inside found isLoop missing)
  · rename_i loop stored
    obtain ⟨blocks, body, isLine⟩ := logic.loop_known known stored
    split
    · rename_i first last step head
      rw [head] at blocks
      have complete : ∀ {after} tokens, tokens ∈ (LoopHead.range first last step).blocks →
          logic.Does after (left.whole (.whole tokens)) (right.whole (.whole tokens))
            logic.Admits := by
        intro after tokens member
        have block : logic.block (Window.whole tokens).tokens := blocks tokens member
        exact runs.whole block
      have steps : ∀ tokens ∈ step, logic.block tokens := fun tokens member =>
        blocks tokens (by simp [LoopHead.blocks, Option.mem_def.mp member])
      unfold Engine.count
      refine logic.bind (complete first (by simp [LoopHead.blocks])) fun _ _ _ _ => ?_
      refine logic.bind (complete last (by simp [LoopHead.blocks])) fun _ _ _ _ => ?_
      refine logic.bind (runs.stepOf steps) fun _ _ _ _ => ?_
      split
      · exact logic.pure fun _ _ => admitsFlow_normal
      · exact runs.countFrom body steps
    · rename_i collection head
      rw [head] at blocks
      have block : logic.block (Window.whole collection).tokens :=
        blocks collection List.mem_cons_self
      refine logic.bind (runs.whole block) fun _ value _ _ => ?_
      refine logic.get (fun _ _ => rfl) fun _ machine _ known => ?_
      split
      · rename_i members listed
        exact runs.visitEach body (logic.members_admitted known listed)
      · exact logic.failFree rfl isLine

/-- Rounds as long as a condition holds before them. -/
theorem whileRounds {condition body : Window} (header : logic.block condition.tokens)
    (inside : logic.place body body.start) :
    logic.Gives logic.leaves world (left.whileRounds condition body left.fuel)
      (right.whileRounds condition body right.fuel) logic.AdmitsFlow := by
  refine logic.rounds (fun fuel (_ : Unit) => left.whileRounds condition body fuel)
    (fun fuel _ => right.whileRounds condition body fuel) (fun _ _ => True)
    (fun _ => logic.AdmitsFlow) (fun _ => rfl) (fun _ => rfl) (fun fuel more ih world _ _ => ?_)
    runs.fuel () trivial
  refine logic.bind (runs.whole header) fun _ _ _ _ => ?_
  split
  · exact afterRound (runs.body inside) Round.ofFlow leavesRound_ofFlow
      (fun _ _ admits => admits.round) fun after _ => ih after () trivial
  · exact logic.pure fun _ _ => admitsFlow_normal

/-- A loop with its condition first. -/
theorem whileLoop {pos : Nat} {opener : Token} (inside : logic.place window pos)
    (found : window.token? pos = some opener) (isLoop : opener.kind = .kwWhile) :
    logic.Gives (fun result => logic.leaves result.1) world (left.whileLoop window opener pos)
      (right.whileLoop window opener pos) (logic.Ran window pos) := by
  have parts := logic.whileLoop inside found isLoop
  unfold Engine.whileLoop
  dsimp only at parts ⊢
  split
  · rename_i missing
    rw [missing] at parts
    exact logic.raise parts
  · rename_i close halted
    rw [halted] at parts
    exact logic.change (runs.whileRounds (condition inside _ _) parts.1) (fun _ => rfl)
      fun _ _ admits _ leads => ⟨parts.2, admits.mono leads⟩

/-- Rounds until a condition holds after them. -/
theorem untilRounds {condition body : Window} (header : logic.block condition.tokens)
    (inside : logic.place body body.start) :
    logic.Gives logic.leaves world (left.untilRounds condition body left.fuel)
      (right.untilRounds condition body right.fuel) logic.AdmitsFlow := by
  refine logic.rounds (fun fuel (_ : Unit) => left.untilRounds condition body fuel)
    (fun fuel _ => right.untilRounds condition body fuel) (fun _ _ => True)
    (fun _ => logic.AdmitsFlow) (fun _ => rfl) (fun _ => rfl) (fun fuel more ih world _ _ => ?_)
    runs.fuel () trivial
  refine afterRound (runs.body inside) Round.ofFlow leavesRound_ofFlow
    (fun _ _ admits => admits.round) fun after _ => ?_
  refine logic.bind (runs.whole header) fun last _ _ _ => ?_
  split
  · exact logic.pure fun _ _ => admitsFlow_normal
  · exact ih last () trivial

/-- A loop with its condition last. -/
theorem doLoop {pos : Nat} {opener : Token} (inside : logic.place window pos)
    (found : window.token? pos = some opener) (isLoop : opener.kind = .kwDo) :
    logic.Gives (fun result => logic.leaves result.1) world (left.doLoop window opener pos)
      (right.doLoop window opener pos) (logic.Ran window pos) := by
  have parts := logic.doLoop inside found isLoop
  unfold Engine.doLoop
  dsimp only at parts ⊢
  split
  · rename_i missing
    rw [missing] at parts
    exact logic.raise parts
  · rename_i close halted
    rw [halted] at parts
    exact logic.change (runs.untilRounds (condition inside _ _) parts.1) (fun _ => rfl)
      fun _ _ admits _ leads => ⟨parts.2, admits.mono leads⟩

/-!
## Statements
-/

/-- A statement that begins with a plain token ends behind what it has read. -/
theorem statement_plain (writes : logic.Writes) {pos : Nat} {token : Token}
    (inside : logic.block window.tokens) (found : window.token? pos = some token)
    (plain : token.kind.isPlain = true)
    (permitted : ∀ target key, window.Declares pos target key → logic.MayDeclare world target key) :
    logic.Gives (fun result => logic.leaves result.1) world (left.statement window pos)
      (right.statement window pos)
      fun after result => logic.Course window pos result.2 ∧ logic.AdmitsFlow after result.1 := by
  have behind : ∀ {first second : Exec Nat},
      logic.Does world first second (fun _ later => logic.Course window pos later) →
      logic.Gives (fun result : Flow × Nat => logic.leaves result.1) world
        (do return (.normal, ← first)) (do return (.normal, ← second))
        fun after result => logic.Course window pos result.2 ∧ logic.AdmitsFlow after result.1 :=
    fun does => logic.bind does fun _ _ _ course => logic.pure fun _ _ => ⟨course, admitsFlow_normal⟩
  have word : logic.Course window pos (pos + 1) := logic.course_pass (.one found plain)
  unfold Engine.statement
  rw [found]
  dsimp only
  split
  case h_1 kind =>
    have words : window.hasKind pos .kwScope = true := by simp [Window.hasKind, found, kind]
    exact behind (runs.declaration writes inside words permitted)
  case h_2 kind =>
    have enum : window.hasKind pos .kwEnum = true := by simp [Window.hasKind, found, kind]
    refine behind (logic.mono (runs.enumeration writes inside fun key member => permitted _ _ ?_)
      fun _ _ _ rest => logic.course_trans word rest)
    unfold Window.Declares
    rw [Window.declared_enum enum]
    exact ⟨rfl, member⟩
  case h_3 => exact behind (runs.assignEach writes inside pos)
  case h_4 | h_5 =>
    exact logic.bind (runs.value world window pos inside) fun _ _ _ read =>
      logic.pure fun _ _ => ⟨logic.course_path read.1, admitsFlow_normal⟩
  case h_6 kind =>
    have first := logic.path_one found plain (by rw [kind]; rfl)
    exact behind (logic.mono (runs.resizing writes inside first) fun _ _ _ path =>
      logic.course_path path)
  case h_10 id kind =>
    exact logic.change (runs.forLoop inside found kind) (fun _ => rfl)
      fun _ _ admits _ leads => ⟨word, admits.mono leads⟩
  case h_15 => exact logic.failAtFree inside rfl
  all_goals
    rename_i kind
    rw [kind] at plain
    cases plain

/-- A statement whose variables may be declared. -/
theorem statement (writes : logic.Writes) {pos : Nat} (inside : logic.place window pos)
    (permitted : ∀ target key, window.Declares pos target key → logic.MayDeclare world target key) :
    logic.Gives (fun result => logic.leaves result.1) world (left.statement window pos)
      (right.statement window pos) (logic.Ran window pos) := by
  have block := logic.block_of_place inside
  have stays : logic.Gives (fun result : Flow × Nat => logic.leaves result.1) world
      (Pure.pure (.normal, pos)) (Pure.pure (.normal, pos)) (logic.Ran window pos) :=
    logic.pure fun _ _ =>
      ⟨logic.ends_course inside (logic.course_path (logic.path_refl _ _)), admitsFlow_normal⟩
  cases found : window.token? pos with
  | none =>
    unfold Engine.statement
    rw [found]
    exact stays
  | some token =>
    by_cases plain : token.kind.isPlain = true
    · exact logic.mono (runs.statement_plain writes block found plain permitted) fun _ _ _ ran =>
        ⟨logic.ends_course inside ran.1, ran.2⟩
    · unfold Engine.statement
      rw [found]
      dsimp only
      split
      case h_7 kind => exact runs.choice inside found kind
      case h_8 kind => exact runs.switch inside found kind
      case h_9 kind => exact runs.select inside found kind
      case h_11 kind => exact runs.whileLoop inside found kind
      case h_12 kind => exact runs.doLoop inside found kind
      case h_13 | h_14 => exact stays
      case h_15 => exact logic.failAtFree block rfl
      all_goals
        rename_i kind
        rw [kind] at plain
        exact absurd rfl plain

end Logic.Runs

end LineScript
