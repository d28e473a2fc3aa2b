import LineScript.Proofs.Exit.Engine
import LineScript.Proofs.Jumps.Bodies
import LineScript.Proofs.Run.Scopes
import LineScript.Proofs.Structured.Turns

/-!
# Nests of bodies

While a frame is run, bodies stand in bodies. `Comes` follows a run of a frame, statement by
statement and into the bodies that its statements run, and keeps what surrounds the innermost body
as a list of places: at each of them a statement waits for the body it runs. What a run still does
is what the innermost scope still does, put inside these places (`Comes.run_eq`).
-/

namespace LineScript.Jumps

open Machine Engine

section Evolving

variable {program : Program} {low : Engine} (obeys : low.Obeys (.free program))
include obeys

/-- Choosing a branch ends within the guard. -/
theorem firstBranch_does (list : List Branch) :
    (Guard.free program).Does (firstBranch low list) fun _ => True := by
  induction list with
  | nil => exact .pure trivial
  | cons branch list ih =>
    unfold firstBranch
    split
    · exact .pure trivial
    · refine (obeys.whole trivial).bind fun _ _ => ?_
      split
      · exact .pure trivial
      · exact ih

/-- Choosing a clause ends within the guard. -/
theorem firstClause_does (list : List Clause) :
    (Guard.free program).Does (firstClause low list) fun _ => True := by
  induction list with
  | nil => exact .pure trivial
  | cons clause list ih =>
    unfold firstClause
    split
    · exact .pure trivial
    · refine (obeys.whole trivial).bind fun _ _ => ?_
      split
      · exact .pure trivial
      · exact ih

/-- Finding the first body is a stretch of a run. -/
theorem Task.first_does (task : Task) :
    (Guard.free program).Does (task.first low) fun _ => True := by
  unfold Task.first
  split
  case h_1 => exact firstBranch_does obeys _
  case h_2 => exact firstClause_does obeys _
  case h_5 | h_9 | h_11 => exact .starved
  case h_10 =>
    refine (obeys.whole trivial).bind fun _ _ => ?_
    split <;> exact .pure trivial
  all_goals exact .pure trivial

/-- Finding out what follows behind a body is a stretch of a run. -/
theorem Entry.next_does (entry : Entry) :
    (Guard.free program).Does (entry.next low) fun _ => True := by
  unfold Entry.next
  split
  case h_3 =>
    split
    · exact .pure trivial
    · exact (obeys.stepOf fun _ _ => trivial).bind fun _ _ => .pure trivial
  case h_6 =>
    refine (obeys.whole trivial).bind fun _ _ => ?_
    split <;> exact .pure trivial
  all_goals exact .pure trivial

omit obeys in
/-- The outcome of a pure computation ends within the guard. -/
theorem ofExcept_does {α : Type} (outcome : Except Fault α) :
    (Guard.free program).Does (Exec.ofExcept outcome) fun _ => True := by
  cases outcome with
  | ok value => exact .pure trivial
  | error fault => exact .throw (Stop.isAllowed_true _)

/-- Opening a loop ends within the guard. -/
theorem openFor_does (token : Token) (id : Nat) :
    (Guard.free program).Does (openFor low token id) fun _ => True := by
  unfold openFor
  refine .get fun _ _ => ?_
  split
  · exact .fail trivial
  · split
    · refine (obeys.whole trivial).bind fun _ _ => (obeys.whole trivial).bind fun _ _ => ?_
      refine (obeys.stepOf fun _ _ => trivial).bind fun _ _ => ?_
      split <;> exact .pure trivial
    · refine (obeys.whole trivial).bind fun _ _ => .get fun _ _ => ?_
      split
      · exact .pure trivial
      · exact .fail trivial

/-- Finding out what a statement has to do is a stretch of a run. -/
theorem opening_does (window : Window) (opener : Token) (pos : Nat) :
    (Guard.free program).Does (opening low window opener pos) fun _ => True := by
  unfold opening
  split
  · unfold openChoice
    split
    · exact ofExcept_does _
    · split
      · exact .pure trivial
      · exact (ofExcept_does _).bind fun _ _ => .pure trivial
  · unfold openSwitch
    refine (obeys.value window _ trivial).bind fun _ _ => (ofExcept_does _).bind fun _ _ => ?_
    exact (obeys.caseItems fun _ _ => trivial).bind fun _ _ => .pure trivial
  · unfold openSelect
    split
    · exact .failAt trivial
    · exact (ofExcept_does _).bind fun _ _ => .pure trivial
  · exact (openFor_does obeys opener _).bind fun _ _ => .pure trivial
  · unfold openWhile
    dsimp only
    split
    · exact ofExcept_does _
    · exact .pure trivial
  · unfold openDo
    dsimp only
    split
    · exact ofExcept_does _
    · exact .pure trivial
  · exact .failAt trivial

end Evolving

/-- What an engine does that succeeds evolves the machine. -/
theorem evolves_of_ok {α : Type} {action : Exec α} {machine after : Machine} {value : α}
    {post : α → Prop} (does : (Guard.free machine.program).Does action post)
    (ran : action machine = .ok value after) : machine.Evolves after := by
  have ends := (does.ends rfl).evolves
  simpa only [Exec.final, Exec.left, ran] using ends

/-- What a statement has to do brings it, on a machine, to a body on another one: to its first body,
or to the next one behind a body from which control goes on in the statement. -/
inductive Opens (low : Engine) (task : Task) (machine : Machine) : Entry → Machine → Prop where
  /-- The first body. -/
  | first {entry : Entry} {there : Machine}
      (found : task.first low machine = .ok (some entry) there) : Opens low task machine entry there
  /-- The body behind another one. -/
  | again {entry entry' : Entry} {there after later last : Machine} {flow : Flow} {task' : Task}
      (opens : Opens low task machine entry there)
      (ran : low.runBlock entry.code entry.bindings there = .ok flow after)
      (goesOn : entry.control flow = .next)
      (next : entry.next low after = .ok (some task') later)
      (found : task'.first low later = .ok (some entry') last) : Opens low task machine entry' last

/-- From a body on, what a statement has to do is to run the body and what follows behind it. -/
theorem Opens.run_eq {low : Engine} {task : Task} {machine there : Machine} {entry : Entry}
    (opens : Opens low task machine entry there) :
    task.run low machine =
      (do entry.ended low (← low.runBlock entry.code entry.bindings) : Exec Flow) there := by
  induction opens with
  | first found =>
    rw [Task.run_eq, Exec.bind_ok found]
    rfl
  | again opens ran goesOn next found ih =>
    rw [ih, Exec.bind_ok ran]
    unfold Entry.ended Entry.again
    rw [goesOn]
    dsimp only
    rw [Exec.bind_ok next]
    dsimp only [rest]
    rw [Task.run_eq, Exec.bind_ok found]
    rfl

/-- On its way to a body a statement evolves the machine. -/
theorem Opens.evolves {fuel : Nat} {task : Task} {machine there : Machine} {entry : Entry}
    (opens : Opens (engine fuel) task machine entry there) : machine.Evolves there := by
  induction opens with
  | first found => exact evolves_of_ok (task.first_does (engine_obeys _ fuel)) found
  | again opens ran goesOn next found ih =>
    have obeys := fun program => engine_obeys (.free program) fuel
    have around := evolves_of_ok ((obeys _).runBlock trivial _) ran
    have behind := evolves_of_ok (Entry.next_does (obeys _) _) next
    have found := evolves_of_ok (Task.first_does (obeys _) _) found
    exact ih.trans (around.trans (behind.trans found))

/-- A place in a run at which a statement waits for a body. -/
structure Place where
  /-- The body, and what the statement goes on from. -/
  entry : Entry
  /-- How much fuel the engine of the statement has. -/
  fuel : Nat
  /-- The position behind the statement. -/
  behind : Nat
  /-- How many looks at the suspension are left behind the statement. -/
  looks : Nat

/-- Runs what is left of a scope, and takes the scope off however that ends. -/
def closing (action : Exec Flow) : Exec Flow := fun machine =>
  match action machine with
  | .ok flow after => .ok flow { after with stack := after.stack.pop }
  | .error stop after => .error stop { after with stack := after.stack.pop }

/-- What the scope around a statement does when the statement has ended with a flow. -/
def Place.leave (place : Place) (flow : Flow) : Exec Flow := do
  moveTo place.behind
  if flow = .normal then
    expectLineEnd
    (engine place.fuel).runStatements place.looks
  else leaveScope flow

/-- Runs what is left of a body, and then what is left of the scope around its statement. -/
def Place.around (place : Place) (action : Exec Flow) : Exec Flow := do
  let flow ← closing action
  place.leave (← place.entry.ended (engine place.fuel) flow)

/-- Runs what is left of the innermost scope, and then what is left of the scopes around it: the
places stand innermost first. -/
def inside : List Place → Exec Flow → Exec Flow
  | [], action => action
  | place :: places, action => inside places (place.around action)

/-- How many loops there are among some places. -/
def loops (places : List Place) : Nat := places.countP (·.entry.isLoop)

/-- A machine that is neither suspended nor ending takes its next turn as another one. -/
def Goes (machine after : Machine) : Prop :=
  isSuspended machine = .ok false after ∧ after.exitRequested = false

/-- Running the statements of the innermost scope of a machine comes, inside some places, to a look
at the suspension in a scope on another machine, with an engine of some fuel and with a number of
looks left. -/
inductive Comes (fuel : Nat) (start : Machine) : List Place → Nat → Nat → Machine → Prop where
  /-- Nothing has been done yet. -/
  | start : Comes fuel start [] fuel fuel start
  /-- The machine waits. -/
  | wait {places : List Place} {left looks : Nat} {machine after : Machine}
      (comes : Comes fuel start places left (looks + 1) machine)
      (waits : isSuspended machine = .ok true after) : Comes fuel start places left looks after
  /-- A statement is run. -/
  | pass {places : List Place} {left looks : Nat} {machine after next : Machine}
      (comes : Comes fuel start places left (looks + 1) machine) (goes : Goes machine after)
      (stepped : (engine left).step after = .ok .goOn next) :
      Comes fuel start places left looks next
  /-- A statement runs a body. -/
  | enter {places : List Place} {left looks behind : Nat} {machine after there last : Machine}
      {token : Token} {task : Task} {entry : Entry}
      (comes : Comes fuel start places (left + 1) (looks + 1) machine) (goes : Goes machine after)
      (current : after.stack.top.current? = some token)
      (opened : opening (engine (left + 1)) after.stack.top.code token after.stack.top.pos
        (Structured.arrived after.stack.top.pos token after) = .ok (some task, behind) there)
      (opens : Opens (engine (left + 1)) task there entry last) :
      Comes fuel start (⟨entry, left + 1, behind, looks⟩ :: places) left left
        { last with stack := last.stack.push (blockScope entry.code entry.bindings) }

/-- Equal outcomes in the innermost scope are equal outcomes around it. -/
theorem inside_congr (places : List Place) {action other : Exec Flow} {machine machine' : Machine}
    (same : action machine = other machine') :
    inside places action machine = inside places other machine' := by
  induction places generalizing action other with
  | nil => exact same
  | cons place places ih =>
    refine ih ?_
    simp only [Place.around, closing, bind, EStateM.bind, same]

/-- A block is a scope that is put on, and closed. -/
theorem runBlock_eq_closing {fuel : Nat} (code : Window) (bindings : List (String × Value))
    (machine : Machine) :
    (engine (fuel + 1)).runBlock code bindings machine =
      closing ((engine fuel).runStatements fuel)
        { machine with stack := machine.stack.push (blockScope code bindings) } :=
  runBlock_eq _ code bindings machine

/-- The keyword of a statement that runs bodies is stepped over with its statement. -/
theorem runToken_eq {low : Engine} {window : Window} {token : Token} {pos behind : Nat}
    {machine there : Machine} {task : Option Task}
    (opened : opening low window token pos machine = .ok (task, behind) there) :
    low.runToken token = low.stepStatement := by
  obtain ⟨kind, lexeme, line, column⟩ := token
  cases kind with
  | kwIf | kwSwitch | kwSelect | loop | kwWhile | kwDo => rfl
  | _ => obtain ⟨_, _, _, ⟨⟩⟩ := run_bind_eq_ok.mp opened

/-- A turn at a statement that runs bodies: what the statement has to do, and what is left of the
scope behind it. -/
theorem advance_eq {left looks behind : Nat} {after there : Machine} {token : Token} {task : Task}
    (entry : Entry) (current : after.stack.top.current? = some token)
    (opened : opening (engine left) after.stack.top.code token after.stack.top.pos
      (Structured.arrived after.stack.top.pos token after) = .ok (some task, behind) there) :
    (engine left).advance looks after =
      (do Place.leave ⟨entry, left, behind, looks⟩ (← task.run (engine left)) : Exec Flow)
        there := by
  have top : (Structured.arrived (after.stack.top.pos + 1) token after).stack.top =
      { after.stack.top with pos := after.stack.top.pos + 1 } := Stack.top_modifyTop _ _
  have back : Structured.moved after.stack.top.pos
      (Structured.arrived (after.stack.top.pos + 1) token after) =
        Structured.arrived after.stack.top.pos token after := by
    simp only [Structured.moved, Structured.arrived, Stack.modifyTop_modifyTop]
  have found : after.stack.top.code.token? after.stack.top.pos = some token := current
  have stepped : (engine left).step after =
      (do
        let flow ← task.run (engine left)
        moveTo behind
        if flow = .normal then
          expectLineEnd
          return StepResult.goOn
        else return .leave flow : Exec StepResult) there := by
    rw [step_eq, current]
    dsimp only
    rw [runToken_eq opened]
    change stepStatement _ (Structured.arrived (after.stack.top.pos + 1) token after) = _
    simp only [stepStatement, topScope, bind, EStateM.bind, run_get, pure, EStateM.pure, top,
      Nat.add_sub_cancel, Structured.moveTo_eq, back, statement_eq found opened, rest]
    cases task.run (engine left) there <;> rfl
  unfold Engine.advance
  simp only [bind, EStateM.bind, stepped]
  cases task.run (engine left) there with
  | error stop last => rfl
  | ok flow last =>
    simp only [Structured.moveTo_eq, Place.leave, bind, EStateM.bind]
    by_cases normal : flow = .normal
    · simp only [normal, if_true, EStateM.bind]
      cases expectLineEnd (Structured.moved behind last) <;> rfl
    · simp only [normal, if_false]
      rfl

/-- What a run still does when it has come to a scope is what the scope still does, inside the
places around it. -/
theorem Comes.run_eq {fuel left looks : Nat} {start machine : Machine} {places : List Place}
    (comes : Comes fuel start places left looks machine) :
    Machine.runScope (fuel + 1) start =
      inside places ((engine left).runStatements looks) machine := by
  induction comes with
  | start => rfl
  | wait comes waits ih =>
    rw [ih]
    refine inside_congr _ ?_
    rw [runStatements_succ, Exec.bind_ok waits]
    rfl
  | pass comes goes stepped ih =>
    rw [ih]
    refine inside_congr _ ?_
    rw [runStatements_going _ _ goes.1 goes.2]
    simp only [Bool.false_eq_true, if_false, Engine.advance]
    rw [Exec.bind_ok stepped]
  | @enter places left looks behind machine after there last token task entry comes goes current
      opened opens ih =>
    rw [ih]
    refine inside_congr _ ?_
    rw [runStatements_going _ _ goes.1 goes.2]
    simp only [Bool.false_eq_true, if_false]
    rw [advance_eq entry current opened]
    simp only [bind, EStateM.bind, opens.run_eq, runBlock_eq_closing, Place.around]
    cases closing ((engine left).runStatements left)
      { last with stack := last.stack.push (blockScope entry.code entry.bindings) } <;> rfl

/-- A point of the run of a frame. -/
structure Point where
  /-- The places around the innermost scope. -/
  places : List Place
  /-- The fuel of the engine that runs it. -/
  left : Nat
  /-- How many looks at the suspension are left. -/
  looks : Nat
  /-- The machine. -/
  machine : Machine

/-- The machine that takes the next turn of a point. -/
def Point.turn? (point : Point) : Option Machine :=
  match point.looks, isSuspended point.machine with
  | _ + 1, .ok false after => if after.exitRequested then none else some after
  | _, _ => none

/-- The point behind the next statement. -/
def Point.pass? (point : Point) : Option Point :=
  point.turn?.bind fun after =>
    match (engine point.left).step after with
    | .ok .goOn next => some { point with looks := point.looks - 1, machine := next }
    | _ => none

/-- The point in the first body of the next statement. -/
def Point.enter? (point : Point) : Option Point :=
  point.turn?.bind fun after =>
    after.stack.top.current?.bind fun token =>
      match opening (engine point.left) after.stack.top.code token after.stack.top.pos
        (Structured.arrived after.stack.top.pos token after) with
      | .ok (some task, behind) there =>
        match task.first (engine point.left) there with
        | .ok (some entry) last =>
          if point.left = 0 then none
          else some
            { places := ⟨entry, point.left, behind, point.looks - 1⟩ :: point.places
              left := point.left - 1
              looks := point.left - 1
              machine :=
                { last with stack := last.stack.push (blockScope entry.code entry.bindings) } }
        | _ => none
      | _ => none

/-- The point at which a run comes by passing statements and entering bodies. -/
def Point.follow? : List Bool → Point → Option Point
  | [], point => some point
  | enters :: moves, point =>
    (if enters then point.enter? else point.pass?).bind (follow? moves)

/-- A run comes to a point. -/
def Point.Reached (fuel : Nat) (start : Machine) (point : Point) : Prop :=
  Comes fuel start point.places point.left point.looks point.machine

/-- A computed turn goes from the point's machine to its result. -/
theorem Point.turn?_goes {point : Point} {after : Machine} (turn : point.turn? = some after) :
    ∃ looks, point.looks = looks + 1 ∧ Goes point.machine after := by
  unfold turn? at turn
  split at turn
  · rename_i looks after' isLooks looked
    split at turn <;> cases turn
    exact ⟨looks, isLooks, looked, by simpa using ‹¬after.exitRequested = true›⟩
  · cases turn

/-- A point reached by passing on from a reached one is reached. -/
theorem Point.pass?_reached {fuel : Nat} {start : Machine} {point next : Point}
    (reached : point.Reached fuel start) (passed : point.pass? = some next) :
    next.Reached fuel start := by
  obtain ⟨after, turn, passed⟩ := Option.bind_eq_some_iff.mp passed
  obtain ⟨looks, isLooks, goes⟩ := turn?_goes turn
  unfold Reached at *
  rw [isLooks] at reached passed
  split at passed <;> cases passed
  exact reached.pass goes ‹_›

/-- A point reached by entering from a reached one is reached. -/
theorem Point.enter?_reached {fuel : Nat} {start : Machine} {point next : Point}
    (reached : point.Reached fuel start) (entered : point.enter? = some next) :
    next.Reached fuel start := by
  obtain ⟨after, turn, entered⟩ := Option.bind_eq_some_iff.mp entered
  obtain ⟨token, current, entered⟩ := Option.bind_eq_some_iff.mp entered
  obtain ⟨looks, isLooks, goes⟩ := turn?_goes turn
  split at entered
  · rename_i opened
    split at entered
    · rename_i found
      split at entered
      · cases entered
      · rename_i some'
        obtain ⟨places, left, _, machine⟩ := point
        obtain ⟨left, rfl⟩ := Nat.exists_eq_succ_of_ne_zero some'
        cases isLooks
        cases entered
        exact Comes.enter reached goes current opened (.first found)
    · cases entered
  · cases entered

/-- A point reached by following moves from a reached one is reached. -/
theorem Point.follow?_reached {fuel : Nat} {start : Machine} {moves : List Bool}
    {point last : Point} (reached : point.Reached fuel start)
    (followed : point.follow? moves = some last) : last.Reached fuel start := by
  induction moves generalizing point with
  | nil =>
    cases followed
    exact reached
  | cons enters moves ih =>
    obtain ⟨next, moved, followed⟩ := Option.bind_eq_some_iff.mp followed
    refine ih ?_ followed
    cases enters with
    | true => exact Point.enter?_reached reached moved
    | false => exact Point.pass?_reached reached moved

end LineScript.Jumps
