import LineScript.Interpreter.Repetition
import LineScript.Proofs.Layout.Seek
import LineScript.Proofs.Machine.Evolution

/-!
# What runs keep to

A guard says which runs of tokens a program evaluates, at which positions of which windows its
statements stand, and for which causes it may stop. Its fields say that the parts a construct is
made of belong to the guard again, so that from a position of the guard a run reaches only
positions of the guard and stops only for permitted causes.
-/

namespace LineScript

/-- Causes that point at a broken program rather than at what a script did with values. -/
def RunCause.isStructural : RunCause → Bool
  | closerMissing .. | loopUnknown _ | callUnknown _ => true
  | _ => false

/-- The machine of an outcome, whether an action returned or stopped. -/
def Exec.left {α : Type} : EStateM.Result Stop Machine α → Machine
  | .ok _ after | .error _ after => after

/-- The machine that an action leaves. -/
def Exec.final {α : Type} (action : Exec α) (machine : Machine) : Machine :=
  Exec.left (action machine)

/-- What holds of the machine that an action leaves, and still does after whatever follows it, holds
of the machine that both together leave, also when the action stops. -/
theorem Exec.final_bind {α β : Type} {Q : Machine → Prop} {action : Exec α} {next : α → Exec β}
    {machine : Machine} (first : Q (action.final machine))
    (rest : ∀ value middle, Q middle → Q ((next value).final middle)) :
    Q ((action >>= next).final machine) := by
  unfold Exec.final at *
  simp only [Bind.bind, EStateM.bind]
  cases outcome : action machine with
  | error stop middle =>
    rw [outcome] at first
    exact first
  | ok value middle =>
    rw [outcome] at first
    exact rest value middle first

/-- The program crashes for a good reason: memory cannot have the cells that were asked for. -/
def Crash.IsDue : Crash → Prop
  | capacity cells => Machine.maxCells < cells
  | range => True

/-- The reason to stop is a cause that is allowed or none of a running script, or a crash that is
due. -/
def Stop.isAllowed (allows : RunCause → Prop) : Stop → Prop
  | fault (.running cause _ _) => allows cause
  | fault _ => True
  | starved => True
  | crashed crash => crash.IsDue

/-- Where every cause is allowed, every fault is. -/
theorem Stop.isAllowed_true (raised : Fault) : (fault raised).isAllowed fun _ => True := by
  cases raised <;> trivial

/-- The expressions of a loop's head. -/
def LoopHead.blocks : LoopHead → List TokenBlock
  | range first last step => first :: last :: step.toList
  | each collection => [collection]

/-- The token is a call of this number. -/
def Token.isCall (token : Token) (id : Nat) : Prop :=
  token.kind = .call id ∨ token.kind = .userCall id

/-- What a program evaluates, where its statements stand and for which causes it may stop. -/
structure Guard where
  /-- The program. -/
  program : Program
  /-- Runs of tokens that hold expressions. -/
  block : TokenBlock → Prop
  /-- Positions of windows at which statements begin. -/
  place : Window → Nat → Prop
  /-- Causes for which a run may stop. -/
  allows : RunCause → Prop
  /-- A run may stop for every cause that does not point at a broken program. -/
  allows_of_free : ∀ cause, cause.isStructural = false → allows cause
  /-- Calls have entries in the table, or a run may stop for want of one. -/
  call_known : ∀ {tokens : TokenBlock} {pos : Nat} {token : Token} {id : Nat}, block tokens →
    tokens[pos]? = some token → token.isCall id → program.calls[id]? = none →
    allows (.callUnknown id)
  /-- Loops have entries in the table, or a run may stop for want of one. -/
  loop_known : ∀ {tokens : TokenBlock} {pos : Nat} {token : Token} {id : Nat}, block tokens →
    tokens[pos]? = some token → token.kind = .loop id → program.loops[id]? = none →
    allows (.loopUnknown id)
  /-- Arguments hold expressions. -/
  block_arg : ∀ {id : Nat} {site : CallSite}, program.calls[id]? = some site →
    ∀ arg ∈ site.args, block arg
  /-- Heads of loops hold expressions. -/
  block_head : ∀ {id : Nat} {loop : ForLoop}, program.loops[id]? = some loop →
    ∀ tokens ∈ loop.head.blocks, block tokens
  /-- Bodies of loops hold statements. -/
  place_loop : ∀ {id : Nat} {loop : ForLoop}, program.loops[id]? = some loop →
    place (.whole loop.body) 0
  /-- Defaults of parameters hold expressions. -/
  block_default : ∀ {name : String} {function : UserFunction},
    program.function? name = some function →
    ∀ param ∈ function.params, ∀ tokens, param.fallback = some tokens → block tokens
  /-- Bodies of functions hold statements. -/
  place_function : ∀ {name : String} {function : UserFunction},
    program.function? name = some function →
    place (.whole function.body) 0
  /-- Statements hold expressions. -/
  block_of_place : ∀ {window : Window} {pos : Nat}, place window pos → block window.tokens
  /-- After plain tokens of a statement nothing is lost. -/
  place_pass : ∀ {window : Window} {pos later : Nat}, place window pos → window.Passes pos later →
    place window later
  /-- A statement may stand after a line end. -/
  place_line : ∀ {window : Window} {pos : Nat} {token : Token}, place window pos →
    window.token? pos = some token → token.endsLine → place window (pos + 1)
  /-- A statement may stand after a function that stands among statements. -/
  place_skip : ∀ {window : Window} {pos : Nat} {token : Token} {later : Nat}, place window pos →
    window.token? pos = some token → token.kind = .kwFunc → place window later
  /-- The parts of a choice. -/
  choice : ∀ {window : Window} {pos : Nat} {opener : Token}, place window pos →
    window.token? pos = some opener → opener.kind = .kwIf →
    match Layout.findThen window.tokens pos window.stop with
    | none => ∀ closer, allows (.closerMissing opener.lexeme closer)
    | some found =>
      let lineEnd := Layout.lineEnd window.tokens (found + 1) window.stop
      if Layout.isSingleLineIf window.tokens pos window.stop then
        place (.slice window.tokens (found + 1)
          ((Layout.trailingEndIf window.tokens pos window.stop).getD
            (Layout.statementEnd window.tokens (found + 1) lineEnd))) (found + 1) ∧
        place window lineEnd
      else
        match choiceBranches window opener pos found with
        | .error fault => (Stop.fault fault).isAllowed allows
        | .ok (branches, close) =>
          (∀ branch ∈ branches, place branch.body branch.body.start) ∧ place window (close + 1)
  /-- The parts of a selection; its clauses are looked for from a position after its keyword. -/
  selection : ∀ {window : Window} {pos : Nat} {opener : Token} {start : Nat}
    {closer : TokenKind} {name : String}, place window pos →
    window.token? pos = some opener →
    (opener.kind = .kwSwitch ∧ closer = .kwEndSwitch ∨
      opener.kind = .kwSelect ∧ closer = .kwEndSelect) →
    window.Passes (pos + 1) start →
    match clauses window opener start closer name with
    | .error fault => (Stop.fault fault).isAllowed allows
    | .ok (clauses, close) =>
      (∀ clause ∈ clauses, place clause.body clause.body.start) ∧ place window (close + 1)
  /-- The parts of a loop with its condition first. -/
  whileLoop : ∀ {window : Window} {pos : Nat} {opener : Token}, place window pos →
    window.token? pos = some opener → opener.kind = .kwWhile →
    let header := Layout.statementEnd window.tokens (pos + 1) window.stop
    match (Layout.scanOutermost window.tokens header window.stop
      fun token => token.kind == .kwWEnd).halted with
    | none => ∀ closer, allows (.closerMissing opener.lexeme closer)
    | some close => place (.slice window.tokens header close) header ∧ place window (close + 1)
  /-- The parts of a loop with its condition last. -/
  doLoop : ∀ {window : Window} {pos : Nat} {opener : Token}, place window pos →
    window.token? pos = some opener → opener.kind = .kwDo →
    match (Layout.scanOutermost window.tokens (pos + 1) window.stop
      fun token => token.kind == .kwUntil).halted with
    | none => ∀ closer, allows (.closerMissing opener.lexeme closer)
    | some close =>
      place (.slice window.tokens (pos + 1) close) (pos + 1) ∧
      place window (Layout.statementEnd window.tokens (close + 1) window.stop)

namespace Guard

/-- The guard that every run of a program keeps to. -/
def free (program : Program) : Guard where
  program
  block _ := True
  place _ _ := True
  allows _ := True
  allows_of_free _ _ := trivial
  call_known _ _ _ _ := trivial
  loop_known _ _ _ _ := trivial
  block_arg _ _ _ := trivial
  block_head _ _ _ := trivial
  place_loop _ := trivial
  block_default _ _ _ _ _ := trivial
  place_function _ := trivial
  block_of_place _ := trivial
  place_pass _ _ := trivial
  place_line _ _ _ := trivial
  place_skip _ _ _ := trivial
  choice _ _ _ := by
    split
    · exact fun _ => trivial
    · dsimp only
      split
      · exact ⟨trivial, trivial⟩
      · split
        · exact Stop.isAllowed_true _
        · exact ⟨fun _ _ => trivial, trivial⟩
  selection _ _ _ _ := by
    split
    · exact Stop.isAllowed_true _
    · exact ⟨fun _ _ => trivial, trivial⟩
  whileLoop _ _ _ := by
    dsimp only
    split
    · exact fun _ => trivial
    · exact ⟨trivial, trivial⟩
  doLoop _ _ _ := by
    split
    · exact fun _ => trivial
    · exact ⟨trivial, trivial⟩

variable {α β : Type} (guard : Guard)

/-- A run may stop for this reason. -/
def permits (stop : Stop) : Prop := stop.isAllowed guard.allows

/-- What was reached from a machine: the machine evolved, and either what was returned is as it
should be or the reason to stop is permitted. -/
def Reached (before : Machine) (post : α → Machine → Prop) : EStateM.Result Stop Machine α → Prop
  | .ok result after => before.Evolves after ∧ post result after
  | .error stop after => before.Evolves after ∧ guard.permits stop

/-- How an action on a machine ends. -/
def Ends (before : Machine) (action : Exec α) (post : α → Machine → Prop) : Prop :=
  guard.Reached before post (action before)

/-- An action keeps to the guard on every machine that runs its program, and all scopes stay where
they are, also when it stops. -/
def Does (action : Exec α) (post : α → Prop) : Prop :=
  ∀ machine : Machine, machine.program = guard.program →
    guard.Ends machine action (fun result _ => post result) ∧
      (action.final machine).stack.places = machine.stack.places

variable {guard} {before : Machine} {action : Exec α} {next : α → Exec β}

namespace Reached

variable {post other : α → Machine → Prop} {result : EStateM.Result Stop Machine α}

/-- What was reached is reached under a weaker condition. -/
theorem mono (reached : guard.Reached before post result)
    (weaker : ∀ value after, before.Evolves after → post value after → other value after) :
    guard.Reached before other result := by
  cases result with
  | ok value after => exact ⟨reached.1, weaker value after reached.1 reached.2⟩
  | error stop after => exact reached

/-- What was reached from a machine that another one evolved into. -/
theorem after {middle : Machine} (evolves : before.Evolves middle)
    (reached : guard.Reached middle post result) : guard.Reached before post result := by
  cases result with
  | ok value after => exact ⟨evolves.trans reached.1, reached.2⟩
  | error stop after => exact ⟨evolves.trans reached.1, reached.2⟩

end Reached

namespace Ends

/-- The machine that is left has evolved, however the action ended. -/
theorem evolves {post : α → Machine → Prop} (ends : guard.Ends before action post) :
    before.Evolves (action.final before) := by
  unfold Ends at ends
  unfold Exec.final
  cases outcome : action before with
  | ok value after | error stop after =>
    rw [outcome] at ends
    exact ends.1

/-- What an action that returned has left. -/
theorem returned {post : α → Machine → Prop} {result : α} {after : Machine}
    (ends : guard.Ends before action post) (ran : action before = .ok result after) :
    post result after := by
  unfold Ends at ends
  rw [ran] at ends
  exact ends.2

/-- An end within the guard is one under a weaker condition. -/
theorem mono {post other : α → Machine → Prop} (ends : guard.Ends before action post)
    (weaker : ∀ value after, before.Evolves after → post value after → other value after) :
    guard.Ends before action other := Reached.mono ends weaker

/-- A sequence ends within the guard when both parts do. -/
theorem bind {post : α → Machine → Prop} {later : β → Machine → Prop}
    (first : guard.Ends before action post)
    (rest : ∀ value middle, before.Evolves middle → post value middle →
      guard.Ends middle (next value) later) :
    guard.Ends before (action >>= next) later := by
  unfold Ends at *
  simp only [Bind.bind, EStateM.bind]
  cases outcome : action before with
  | error stop middle =>
    rw [outcome] at first
    exact first
  | ok value middle =>
    rw [outcome] at first
    exact .after first.1 (rest value middle first.1 first.2)

/-- Returning a value keeps to the guard. -/
theorem pure {value : α} {post : α → Machine → Prop} (holds : post value before) :
    guard.Ends before (Pure.pure value) post := ⟨.refl before, holds⟩

/-- An action that looks at the machine first. -/
theorem get {next : Machine → Exec β} {post : β → Machine → Prop}
    (rest : guard.Ends before (next before) post) :
    guard.Ends before (MonadState.get >>= next) post := rest

/-- A change of the machine that is one of those a run makes. -/
theorem modify {change : Machine → Machine} (evolves : before.Evolves (change before)) :
    guard.Ends before (MonadState.modifyGet fun machine => (PUnit.unit, change machine))
      fun _ after => after = change before := ⟨evolves, rfl⟩

/-- Stopping for a cause that does not point at a broken program. -/
theorem failFree {cause : RunCause} {line : Nat} {post : α → Machine → Prop}
    (free : cause.isStructural = false) :
    guard.Ends before (Exec.fail cause line) post :=
  ⟨.refl before, guard.allows_of_free cause free⟩

end Ends

namespace Does

/-- What keeps to the guard gives what is weaker than before. -/
theorem mono {post other : α → Prop} (does : guard.Does action post)
    (weaker : ∀ value, post value → other value) : guard.Does action other :=
  fun machine same => (does machine same).imp_left fun ends =>
    ends.mono fun value _ _ holds => weaker value holds

/-- How an action that keeps to the guard ends on a machine. -/
theorem ends {post : α → Prop} (does : guard.Does action post)
    (same : before.program = guard.program) :
    guard.Ends before action fun result after =>
      after.stack.places = before.stack.places ∧ post result := by
  obtain ⟨ends, stays⟩ := does before same
  unfold Ends Exec.final at *
  cases outcome : action before with
  | error stop after =>
    rw [outcome] at ends
    exact ends
  | ok value after =>
    rw [outcome] at ends stays
    exact ⟨ends.1, stays, ends.2⟩

/-- A sequence keeps to the guard when both parts do. -/
theorem bind {post : α → Prop} {later : β → Prop} (first : guard.Does action post)
    (rest : ∀ value, post value → guard.Does (next value) later) :
    guard.Does (action >>= next) later := by
  intro machine same
  have ends := first.ends same
  refine ⟨ends.bind fun value middle evolves ⟨_, holds⟩ =>
    (rest value holds middle (evolves.program_eq.trans same)).1, ?_⟩
  have stays := (first machine same).2
  unfold Ends Exec.final at *
  simp only [Bind.bind, EStateM.bind]
  cases outcome : action machine with
  | error stop middle =>
    rw [outcome] at stays
    exact stays
  | ok value middle =>
    rw [outcome] at ends stays
    exact (rest value ends.2.2 middle (ends.1.program_eq.trans same)).2.trans stays

/-- Returning a value keeps to the guard. -/
theorem pure {value : α} {post : α → Prop} (holds : post value) :
    guard.Does (Pure.pure value : Exec α) post := fun machine _ => ⟨⟨.refl machine, holds⟩, rfl⟩

/-- An action that looks at the machine first. -/
theorem get {next : Machine → Exec β} {post : β → Prop}
    (rest : ∀ machine, machine.program = guard.program → guard.Does (next machine) post) :
    guard.Does (MonadState.get >>= next) post :=
  fun machine same => rest machine same machine same

/-- A change of something beside the scopes. -/
theorem modify {change : Machine → Machine}
    (stack : ∀ machine, (change machine).stack = machine.stack)
    (evolves : ∀ machine : Machine, machine.Evolves (change machine)) :
    guard.Does (MonadState.modifyGet fun machine => (PUnit.unit, change machine))
      fun _ => True :=
  fun machine _ => ⟨⟨evolves machine, trivial⟩, congrArg Stack.places (stack machine)⟩

/-- Running out of fuel keeps to the guard. -/
theorem starved {post : α → Prop} : guard.Does Exec.starved post :=
  fun machine _ => ⟨⟨.refl machine, trivial⟩, rfl⟩

/-- Stopping keeps to the guard. -/
theorem throw {stop : Stop} {post : α → Prop} (permitted : guard.permits stop) :
    guard.Does (MonadExcept.throw stop : Exec α) post :=
  fun machine _ => ⟨⟨.refl machine, permitted⟩, rfl⟩

/-- A failure keeps to the guard. -/
theorem fail {cause : RunCause} {line : Nat} {post : α → Prop} (allowed : guard.allows cause) :
    guard.Does (Exec.fail cause line : Exec α) post := throw allowed

/-- Stopping for a cause that does not point at a broken program. -/
theorem failFree {cause : RunCause} {line : Nat} {post : α → Prop}
    (free : cause.isStructural = false) :
    guard.Does (Exec.fail cause line : Exec α) post := fail (guard.allows_of_free cause free)

/-- Reading a line number keeps to the guard. -/
theorem lineAt (window : Window) (pos : Nat) :
    guard.Does (Exec.lineAt window pos) fun _ => True := by
  unfold Exec.lineAt Exec.currentLine
  split
  · split
    · exact .pure trivial
    · exact .get fun _ _ => .pure trivial
  · exact .get fun _ _ => .pure trivial

/-- A failure at a position keeps to the guard. -/
theorem failAt {window : Window} {pos : Nat} {cause : RunCause} {post : α → Prop}
    (allowed : guard.allows cause) : guard.Does (Exec.failAt window pos cause : Exec α) post :=
  (lineAt window pos).bind fun _ _ => fail allowed

/-- Stopping at a position for a cause that does not point at a broken program. -/
theorem failAtFree {window : Window} {pos : Nat} {cause : RunCause} {post : α → Prop}
    (free : cause.isStructural = false) :
    guard.Does (Exec.failAt window pos cause : Exec α) post :=
  failAt (guard.allows_of_free cause free)

/-- The token that was asked for stands at the position. -/
theorem expect (window : Window) (pos : Nat) (kind : TokenKind) (wanted : String) :
    guard.Does (Exec.expect window pos kind wanted) fun token =>
      window.token? pos = some token ∧ token.kind = kind := by
  unfold Exec.expect
  split
  · rename_i token found
    split
    · rename_i same
      exact .pure ⟨found, same⟩
    · exact failAtFree rfl
  · exact failAtFree rfl

/-- A token of a plain kind that was asked for is passed over. -/
theorem expectPlain {window : Window} {pos : Nat} {kind : TokenKind} {wanted : String}
    (plain : kind.isPlain) :
    guard.Does (Exec.expect window pos kind wanted) fun _ => window.Passes pos (pos + 1) :=
  (expect window pos kind wanted).mono fun _ ⟨found, same⟩ => .one found (same ▸ plain)

/-- Tracing keeps to the guard. -/
theorem trace (text : Unit → String) : guard.Does (Exec.trace text) fun _ => True :=
  modify (fun _ => rfl) fun _ => .aside rfl rfl rfl ⟨rfl, rfl⟩

end Does

end Guard

end LineScript
