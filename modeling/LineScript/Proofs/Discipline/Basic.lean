import LineScript.Interpreter.Declaration
import LineScript.Proofs.Layout.Seek
import LineScript.Proofs.Machine.Beside
import LineScript.Proofs.Machine.Evolution
import LineScript.Proofs.Run.Scopes
import LineScript.Proofs.Watch.Engine

/-!
# Declarations and disciplines

Which variables a declaration declares, and what a stretch of a run without forbidden beginnings leaves of
the scopes.
-/

namespace LineScript

/-!
## Disciplines

A discipline says what a stretch of a run leaves of the scopes, provided that it comes past no point
at which something forbidden begins: a declaration, or a function of the library. The run is watched
and stopped at these points, so what is proved of it holds of a run that meets none of them, and a
run that breaks the discipline has met one.
-/

/-- Control leaves the function with a value. -/
def Flow.isReturned : Flow → Bool
  | returned _ => true
  | _ => false

/-- What a stretch of a run leaves of the scopes, as long as nothing forbidden begins. -/
structure Discipline where
  /-- The points at which something forbidden begins. -/
  stops : Occurrence → Machine → Bool
  /-- The stacks that the stretch is about. -/
  Fits : Stack → Prop
  /-- What holds between the scopes before and after. -/
  Keeps : Stack → Stack → Prop
  /-- What holds between them when control leaves a function with a value. -/
  Leaves : Stack → Stack → Prop
  /-- A variable of a name, in small letters, may be declared. -/
  Permits : Stack → DeclScope → String → Prop
  /-- A function of the library may be called. -/
  Serves : Stack → Builtin → Args → Prop
  refl : ∀ stack, Keeps stack stack
  trans : ∀ {first second third}, Keeps first second → Keeps second third → Keeps first third
  leaves : ∀ {before after}, Keeps before after → Leaves before after
  leaves_after : ∀ {first second third}, Keeps first second → Leaves second third →
    Leaves first third
  leaves_before : ∀ {first second third}, Leaves first second → Keeps second third →
    Leaves first third
  fits : ∀ {before after}, Fits before → Keeps before after → Fits after
  permits : ∀ {before after target key}, Permits before target key → Keeps before after →
    Permits after target key
  /-- The innermost scope is written to, or the place that a plain assignment finds. -/
  write : ∀ {stack : Stack} {position : Nat} {key : String}, Fits stack →
    position = 0 ∨ position = stack.assignPosition key → ∀ variable',
    Keeps stack (stack.write position key variable')
  /-- A variable is declared. -/
  declare : ∀ {stack : Stack} {target : DeclScope} {key : String}, Fits stack → Permits stack target key → ∀ variable',
    Keeps stack (stack.write (stack.declPosition target) key variable')
  /-- The two codes of the running function are set. -/
  codes : ∀ {stack} {change : Registers → Registers}, Fits stack →
    (∀ registers, (change registers).returnValue = registers.returnValue) →
    Keeps stack (stack.modifyFrame fun scope => { scope with registers := change scope.registers })
  /-- The running function is left with a value. -/
  returns : ∀ {stack : Stack}, Fits stack → ∀ value,
    Leaves stack (stack.modifyFrame fun scope =>
      { scope with registers := { scope.registers with returnValue := value } })
  /-- The innermost scope moves on. -/
  move : ∀ (stack : Stack) (pos : Nat), Keeps stack (stack.modifyTop fun scope => { scope with pos })
  /-- A function of the library does its work. -/
  serve : ∀ {machine : Machine} {function : Builtin} {args : Args}, Fits machine.stack →
    Serves machine.stack function args →
    Keeps machine.stack ((function.run args).final machine).stack
  /-- A new scope is innermost. -/
  push : ∀ {stack : Stack}, Fits stack → ∀ scope, Fits (stack.push scope)
  /-- A block is left. -/
  block : ∀ {stack after : Stack} {scope : Scope}, Fits stack → scope.kind = .block →
    Keeps (stack.push scope) after → Keeps stack after.pop
  /-- A block is left, and the function around it with a value. -/
  block_leaves : ∀ {stack after : Stack} {scope : Scope}, Fits stack → scope.kind = .block →
    Leaves (stack.push scope) after → Leaves stack after.pop
  /-- A call is left. -/
  call : ∀ {stack after : Stack} {scope : Scope} {name : String}, Fits stack → scope.kind = .function name →
    Leaves (stack.push scope) after → Keeps stack after.pop
  /-- What a statement that is not forbidden declares is permitted. -/
  permits_statement : ∀ {machine : Machine}, Fits machine.stack →
    stops .statement machine = false → ∀ {target : DeclScope} {key : String},
    machine.stack.top.code.Declares machine.stack.top.pos target key →
    Permits machine.stack target key
  /-- A function that is not forbidden may be called. -/
  serves_library : ∀ {machine : Machine} {function : Builtin} {args : Args},
    stops (.library function args) machine = false →
    Serves machine.stack function args

namespace Discipline

variable {α β : Type} (discipline : Discipline)

/-- What holds between the scopes before and after, by whether control leaves the function with a
value. -/
def Yields (leaving : Bool) (before after : Stack) : Prop :=
  if leaving then discipline.Leaves before after else discipline.Keeps before after

/-- What was reached from a stack. -/
def Reached (before : Stack) (post : α → Stack → Prop) : EStateM.Result Stop Machine α → Prop
  | .ok value after => post value after.stack
  | .error _ after => discipline.Keeps before after.stack

/-- How an action ends on a machine. -/
def Ends (before : Machine) (action : Exec α) (post : α → Stack → Prop) : Prop :=
  discipline.Reached before.stack post (action before)

/-- An action keeps the discipline on every stack that it is about; `leaving` says of its result
whether control leaves the function with a value. -/
def Gives (leaving : α → Bool) (action : Exec α) (post : α → Prop) : Prop :=
  ∀ machine : Machine, discipline.Fits machine.stack →
    discipline.Ends machine action fun value after =>
      discipline.Yields (leaving value) machine.stack after ∧ post value

/-- An action after which control goes on keeps the discipline. -/
abbrev Does (action : Exec α) (post : α → Prop) : Prop :=
  discipline.Gives (fun _ => false) action post

variable {discipline} {before machine : Machine}

namespace Yields

variable {first second third : Stack} {leaving : Bool}

/-- A change that keeps the discipline yields it, whether control leaves or not. -/
theorem of_keeps (keeps : discipline.Keeps first second) (leaving : Bool) :
    discipline.Yields leaving first second := by
  cases leaving with
  | true => exact discipline.leaves keeps
  | false => exact keeps

/-- A yielded discipline is left in order. -/
theorem leaves (yields : discipline.Yields leaving first second) :
    discipline.Leaves first second := by
  cases leaving with
  | true => exact yields
  | false => exact discipline.leaves yields

/-- A kept stretch before a yielded one is yielded with it. -/
theorem precede (keeps : discipline.Keeps first second)
    (yields : discipline.Yields leaving second third) : discipline.Yields leaving first third := by
  cases leaving with
  | true => exact discipline.leaves_after keeps yields
  | false => exact discipline.trans keeps yields

/-- A kept stretch behind a yielded one is yielded with it. -/
theorem proceed (yields : discipline.Yields leaving first second)
    (keeps : discipline.Keeps second third) : discipline.Yields leaving first third := by
  cases leaving with
  | true => exact discipline.leaves_before yields keeps
  | false => exact discipline.trans yields keeps

end Yields

/-- What was reached from what an earlier part has kept. -/
theorem Reached.precede {first second : Stack} {leaving : α → Bool}
    {result : EStateM.Result Stop Machine α} (keeps : discipline.Keeps first second)
    (reached : discipline.Reached second
      (fun value after => discipline.Yields (leaving value) second after) result) :
    discipline.Reached first
      (fun value after => discipline.Yields (leaving value) first after) result := by
  cases result with
  | ok value after => exact Yields.precede keeps reached
  | error stop after => exact discipline.trans keeps reached

/-- The same where something is known of the value, too. -/
theorem Reached.after {first second : Stack} {leaving : α → Bool} {post : α → Prop}
    {result : EStateM.Result Stop Machine α} (keeps : discipline.Keeps first second)
    (reached : discipline.Reached second
      (fun value after => discipline.Yields (leaving value) second after ∧ post value) result) :
    discipline.Reached first
      (fun value after => discipline.Yields (leaving value) first after ∧ post value) result := by
  cases result with
  | ok value after => exact ⟨Yields.precede keeps reached.1, reached.2⟩
  | error stop after => exact discipline.trans keeps reached

namespace Ends

variable {action : Exec α} {post : α → Stack → Prop}

/-- However an action ended, control may have left the function with a value. -/
theorem leaves {leaving : α → Bool} {post : α → Prop}
    (ends : discipline.Ends machine action fun value after =>
      discipline.Yields (leaving value) machine.stack after ∧ post value) :
    discipline.Leaves machine.stack (action.final machine).stack := by
  unfold Ends at ends
  unfold Exec.final
  cases outcome : action machine with
  | ok value after =>
    rw [outcome] at ends
    exact ends.1.leaves
  | error stop after =>
    rw [outcome] at ends
    exact discipline.leaves ends

/-- An end in order is one under a weaker condition. -/
theorem mono {other : α → Stack → Prop} (ends : discipline.Ends before action post)
    (weaker : ∀ value after, post value after → other value after) :
    discipline.Ends before action other := by
  unfold Ends at *
  cases outcome : action before with
  | ok value after =>
    rw [outcome] at ends
    exact weaker value after.stack ends
  | error stop after =>
    rw [outcome] at ends
    exact ends

/-- The rest of an action runs on what the first part has kept. -/
theorem bind {next : α → Exec β} {later : β → Stack → Prop}
    (first : discipline.Ends before action fun value after =>
      discipline.Keeps before.stack after ∧ post value after)
    (rest : ∀ value middle, discipline.Keeps before.stack middle.stack → post value middle.stack →
      discipline.Ends middle (next value) later) :
    discipline.Ends before (action >>= next) later := by
  unfold Ends at *
  simp only [Bind.bind, EStateM.bind]
  cases outcome : action before with
  | error stop middle =>
    rw [outcome] at first
    exact first
  | ok value middle =>
    rw [outcome] at first
    have ends := rest value middle first.1 first.2
    dsimp only
    cases last : next value middle with
    | ok result after =>
      rw [last] at ends
      exact ends
    | error stop after =>
      rw [last] at ends
      exact discipline.trans first.1 ends

/-- What follows an action with whose result control may leave: where it does, little follows. -/
theorem follow {leaving : α → Bool} {leavingNext : β → Bool} {next : α → Exec β} {post : α → Prop}
    {later : β → Prop}
    (first : discipline.Ends before action fun value after =>
      discipline.Yields (leaving value) before.stack after ∧ post value)
    (rest : ∀ value middle, post value → leaving value = false →
      discipline.Keeps before.stack middle.stack →
      discipline.Ends middle (next value) fun result after =>
        discipline.Yields (leavingNext result) middle.stack after ∧ later result)
    (left : ∀ value middle, post value → leaving value = true → ∃ last after,
      next value middle = .ok last after ∧ leavingNext last = true ∧
        discipline.Keeps middle.stack after.stack ∧ later last) :
    discipline.Ends before (action >>= next) fun result after =>
      discipline.Yields (leavingNext result) before.stack after ∧ later result := by
  unfold Ends at first ⊢
  simp only [Bind.bind, EStateM.bind]
  cases outcome : action before with
  | error stop middle =>
    rw [outcome] at first
    exact first
  | ok value middle =>
    rw [outcome] at first
    obtain ⟨yields, holds⟩ := first
    dsimp only
    cases away : leaving value with
    | true =>
      rw [away] at yields
      obtain ⟨last, after, ran, leaves, keeps, held⟩ := left value middle holds away
      rw [ran]
      show discipline.Yields (leavingNext last) before.stack after.stack ∧ later last
      rw [leaves]
      exact ⟨yields.proceed keeps, held⟩
    | false =>
      rw [away] at yields
      exact Reached.after yields (rest value middle holds away yields)

end Ends

namespace Gives

variable {leaving : α → Bool} {action : Exec α} {post : α → Prop} {next : α → Exec β}
  {leavingNext : β → Bool} {later : β → Prop}

/-- A sequence keeps the discipline when both parts do. -/
theorem bind (first : discipline.Does action post)
    (rest : ∀ value, post value → discipline.Gives leavingNext (next value) later) :
    discipline.Gives leavingNext (action >>= next) later := by
  intro machine fits
  refine Ends.bind (first machine fits) fun value middle keeps holds => ?_
  exact (rest value holds middle (discipline.fits fits keeps)).mono fun _ _ ends =>
    ⟨.precede keeps ends.1, ends.2⟩

/-- What is known of the scopes alone. -/
theorem ends (gives : discipline.Gives leaving action post) (fits : discipline.Fits machine.stack) :
    discipline.Ends machine action fun value after =>
      discipline.Yields (leaving value) machine.stack after :=
  (gives machine fits).mono fun _ _ holds => holds.1

/-- What follows an action with whose result control may leave. -/
theorem follow (first : discipline.Gives leaving action post)
    (rest : ∀ value, leaving value = false →
      discipline.Gives leavingNext (next value) fun _ => True)
    (left : ∀ value middle, leaving value = true → ∃ last after,
      next value middle = .ok last after ∧ leavingNext last = true ∧
        discipline.Keeps middle.stack after.stack) :
    discipline.Gives leavingNext (action >>= next) fun _ => True :=
  fun machine fits => Ends.follow (first machine fits)
    (fun value middle _ goes keeps => rest value goes middle (discipline.fits fits keeps))
    fun value middle _ away =>
      have ⟨last, after, ran, leaves, keeps⟩ := left value middle away
      ⟨last, after, ran, leaves, keeps, trivial⟩

/-- A change of the result. -/
theorem change (first : discipline.Gives leaving action post) {other : α → β}
    (same : ∀ value, leavingNext (other value) = leaving value) :
    discipline.Gives leavingNext (action >>= fun value => Pure.pure (other value))
      fun _ => True :=
  first.follow (fun value goes machine _ =>
      ⟨by rw [same, goes]; exact discipline.refl machine.stack, trivial⟩)
    fun value middle goes => ⟨_, middle, rfl, (same value).trans goes, discipline.refl _⟩

/-- What follows an action whose result may be anything. -/
theorem thenAny (first : discipline.Does action fun _ => True)
    (rest : ∀ value, discipline.Gives leavingNext (next value) later) :
    discipline.Gives leavingNext (action >>= next) later := first.bind fun value _ => rest value

/-- Returning a value keeps the discipline. -/
theorem pure {value : α} (holds : post value) :
    discipline.Gives leaving (Pure.pure value : Exec α) post :=
  fun machine _ => ⟨.of_keeps (discipline.refl machine.stack) _, holds⟩

/-- An action that looks at the machine first. -/
theorem get {next : Machine → Exec β}
    (rest : ∀ machine, discipline.Gives leavingNext (next machine) later) :
    discipline.Gives leavingNext (MonadState.get >>= next) later :=
  fun machine fits => rest machine machine fits

/-- Stopping keeps the discipline. -/
theorem throw (stop : Stop) : discipline.Gives leaving (MonadExcept.throw stop : Exec α) post :=
  fun machine _ => discipline.refl machine.stack

/-- Running out of fuel keeps the discipline. -/
theorem starved : discipline.Gives leaving (Exec.starved : Exec α) post := throw _

/-- A failure keeps the discipline. -/
theorem fail (cause : RunCause) (line : Nat) :
    discipline.Gives leaving (Exec.fail cause line : Exec α) post := throw _

/-- What keeps the discipline however it ends. -/
theorem of_final {machine : Machine}
    (keeps : discipline.Keeps machine.stack (action.final machine).stack) :
    discipline.Ends machine action fun value after =>
      discipline.Yields (leaving value) machine.stack after ∧ True := by
  unfold Exec.final at keeps
  unfold Ends
  cases outcome : action machine with
  | ok value after =>
    rw [outcome] at keeps
    exact ⟨.of_keeps keeps _, trivial⟩
  | error stop after =>
    rw [outcome] at keeps
    exact keeps

/-- What leaves the scopes alone keeps every discipline. -/
theorem of_beside (beside : action.Beside) : discipline.Gives leaving action fun _ => True :=
  fun machine _ => of_final ((beside.stays machine).stack ▸ discipline.refl _)

/-- A change of something beside the scopes. -/
theorem modify {change : Machine → Machine}
    (stack : ∀ machine, (change machine).stack = machine.stack) :
    discipline.Does (MonadState.modifyGet fun machine => (PUnit.unit, change machine))
      fun _ => True := by
  intro machine _
  refine ⟨?_, trivial⟩
  show discipline.Keeps machine.stack (change machine).stack
  rw [stack]
  exact discipline.refl _

/-- Moving the cursor keeps the discipline. -/
theorem moveTo (pos : Nat) : discipline.Does (LineScript.moveTo pos) fun _ => True :=
  fun machine _ => ⟨discipline.move machine.stack pos, trivial⟩

/-- Changing the registers keeps the discipline. -/
theorem modifyRegisters {change : Registers → Registers}
    (codes : ∀ registers, (change registers).returnValue = registers.returnValue) :
    discipline.Does (Machine.modifyRegisters change) fun _ => True :=
  fun _ fits => ⟨discipline.codes fits codes, trivial⟩

/-- A variable is written where it may be. -/
theorem writeVariable_ends {position : Nat} {name : String} {constant : Bool} {value : Value}
    (keeps : ∀ variable', discipline.Keeps machine.stack
      (machine.stack.write position (Text.lower name) variable')) :
    discipline.Ends machine (Machine.writeVariable position name value constant) fun _ after =>
      discipline.Yields false machine.stack after ∧ True := by
  unfold Ends
  rw [Machine.writeVariable_eq]
  split
  · exact discipline.refl machine.stack
  · exact ⟨keeps _, trivial⟩

/-- Setting a variable keeps the discipline. -/
theorem setVariable (name : String) (value : Value) :
    discipline.Does (Machine.setVariable name value) fun _ => True :=
  fun _ fits => writeVariable_ends (discipline.write fits (.inl rfl))

/-- Assigning a variable keeps the discipline. -/
theorem assignVariable (name : String) (value : Value) :
    discipline.Does (Machine.assignVariable name value) fun _ => True := by
  intro machine fits
  have keeps : ∀ variable', discipline.Keeps machine.stack (machine.stack.write
      (machine.stack.assignPosition (Text.lower name)) (Text.lower (Text.lower name)) variable') := by
    rw [Text.lower_lower]
    exact discipline.write fits (.inr rfl)
  exact writeVariable_ends keeps

/-- A declaration that is permitted. -/
theorem declareVariable_ends {target : DeclScope} {name : String} (fits : discipline.Fits machine.stack)
    (permits : discipline.Permits machine.stack target (Text.lower name)) (value : Value)
    (constant : Bool) :
    discipline.Ends machine (Machine.declareVariable target name value constant) fun _ after =>
      discipline.Yields false machine.stack after ∧ True :=
  writeVariable_ends (discipline.declare fits permits)

end Gives

end Discipline

/-- An engine keeps a discipline in everything that is asked of it. -/
structure Engine.Follows (low : Engine) (discipline : Discipline) : Prop where
  /-- Terms. -/
  term : ∀ window pos, discipline.Does (low.term window pos) fun result =>
    window.Skips pos result.2
  /-- Expressions. -/
  value : ∀ window pos, discipline.Does (low.value window pos) fun result =>
    window.Skips pos result.2
  /-- Calls. -/
  call : ∀ name args line, discipline.Does (low.call name args line) fun _ => True
  /-- Scopes. -/
  runScope : discipline.Gives Flow.isReturned low.runScope fun _ => True

end LineScript
