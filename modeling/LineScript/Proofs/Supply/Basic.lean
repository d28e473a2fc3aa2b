import LineScript.Proofs.Custody.Engine

/-!
# Actions that do not run out of fuel

With enough fuel an action returns or stops with a fault. How much is enough depends on how many
more calls may run inside each other; a `Supply` says how many, and of which program. An action that
needs no fuel at all is enough supplied by any supply (`Supply.Does.of_guard`).
-/

namespace LineScript

open Machine

/-- Custody of actions that need no fuel. -/
def Custody.satisfied (start : Heap) : Custody :=
  { strict := False, closable := fun _ => True, lax := False, full := True, start }

/-- Nothing is asked of values there. -/
theorem Custody.admits_satisfied {start : Heap} {count : Nat} {value : Value} :
    (satisfied start).Admits count value := False.elim

/-- A program, and how many more of its calls may run inside each other. -/
structure Supply where
  /-- The program. -/
  program : Program
  /-- How many more calls may be entered before one of them is left. -/
  calls : Nat

namespace Supply

variable {α β : Type}

/-- The guard that every run of the program keeps to. -/
abbrev guard (supply : Supply) : Guard := .free supply.program

variable (supply : Supply)

/-- The machine runs the program, does not wait and enters no more calls than supplied. -/
structure Fits (machine : Machine) : Prop where
  /-- It runs the program. -/
  program_eq : machine.program = supply.program
  /-- Further calls are refused. -/
  calls : maxCallDepth ≤ machine.callDepth + supply.calls
  /-- It does not wait. -/
  awake : machine.Awake

/-- What was reached from a machine: either the machine evolved, does not wait and what was returned
is as it should be, or there was a fault. -/
def Reached (before : Machine) (post : α → Machine → Prop) : EStateM.Result Stop Machine α → Prop
  | .ok value after => before.Evolves after ∧ after.Awake ∧ post value after
  | .error stop _ => stop ≠ .starved

/-- How an action on a machine ends. -/
def Ends (before : Machine) (action : Exec α) (post : α → Machine → Prop) : Prop :=
  Reached before post (action before)

/-- An action returns or has a fault on every machine that the supply fits, and all scopes stay where
they are. -/
def Does (action : Exec α) (post : α → Prop) : Prop :=
  ∀ machine : Machine, supply.Fits machine → Ends machine action fun value after =>
    after.stack.places = machine.stack.places ∧ post value

variable {supply}

/-- The supply still fits a machine that has evolved and does not wait. -/
theorem Fits.evolves {before after : Machine} (fits : supply.Fits before)
    (evolves : before.Evolves after) (awake : after.Awake) : supply.Fits after where
  program_eq := evolves.program_eq.trans fits.program_eq
  calls := by
    rw [evolves.callDepth_eq]
    exact fits.calls
  awake := awake

/-- What was reached from a machine that another one evolved into. -/
theorem Reached.after {before middle : Machine} {post : α → Machine → Prop}
    {result : EStateM.Result Stop Machine α} (evolves : before.Evolves middle)
    (reached : Reached middle post result) : Reached before post result := by
  cases result with
  | ok value after => exact ⟨evolves.trans reached.1, reached.2⟩
  | error stop after => exact reached

namespace Ends

variable {before : Machine} {action : Exec α} {next : α → Exec β} {post : α → Machine → Prop}

/-- What ends well ends well under a weaker condition. -/
theorem mono {other : α → Machine → Prop} (ends : Ends before action post)
    (weaker : ∀ value after, before.Evolves after → post value after → other value after) :
    Ends before action other := by
  unfold Ends at *
  cases outcome : action before with
  | error stop after =>
    rw [outcome] at ends
    exact ends
  | ok value after =>
    rw [outcome] at ends
    exact ⟨ends.1, ends.2.1, weaker value after ends.1 ends.2.2⟩

/-- A sequence ends well when both parts do. -/
theorem bind {later : β → Machine → Prop} (first : Ends before action post)
    (rest : ∀ value middle, before.Evolves middle → middle.Awake → post value middle →
      Ends middle (next value) later) : Ends before (action >>= next) later := by
  unfold Ends at *
  simp only [Bind.bind, EStateM.bind]
  cases outcome : action before with
  | error stop middle =>
    rw [outcome] at first
    exact first
  | ok value middle =>
    rw [outcome] at first
    obtain ⟨evolves, awake, holds⟩ := first
    exact (rest value middle evolves awake holds).after evolves

/-- Returning a value does not run out of fuel. -/
theorem pure {value : α} (awake : before.Awake) (holds : post value before) :
    Ends before (Pure.pure value) post := ⟨.refl before, awake, holds⟩

/-- An action that looks at the machine first. -/
theorem get {next : Machine → Exec β} {later : β → Machine → Prop}
    (rest : Ends before (next before) later) : Ends before (MonadState.get >>= next) later := rest

/-- An action that looks at the innermost scope first. -/
theorem topScope {next : Scope → Exec β} {later : β → Machine → Prop}
    (rest : Ends before (next before.stack.top) later) :
    Ends before (LineScript.topScope >>= next) later := rest

/-- A change of something beside the scopes. -/
theorem modify {change : Machine → Machine} (evolves : before.Evolves (change before))
    (awake : (change before).Awake) :
    Ends before (MonadState.modifyGet fun machine => (PUnit.unit, change machine))
      fun _ after => after = change before := ⟨evolves, awake, rfl⟩

/-- Moving the cursor does not run out of fuel. -/
theorem moveTo (awake : before.Awake) (pos : Nat) :
    Ends before (LineScript.moveTo pos) fun _ after =>
      after.stack.top = { before.stack.top with pos } :=
  ⟨.move before pos, ⟨awake.1, awake.2⟩, Stack.top_modifyTop _ _⟩

/-- A fault does not run out of fuel. -/
theorem fault (fault : Fault) :
    Ends before (MonadExcept.throw (.fault fault) : Exec α) post := Stop.noConfusion

/-- A failure does not run out of fuel. -/
theorem fail (cause : RunCause) (line : Nat) : Ends before (Exec.fail cause line : Exec α) post :=
  fault _

/-- What would come after a failure does not matter. -/
theorem failFirst (cause : RunCause) (line : Nat) {later : β → Machine → Prop} :
    Ends before (Exec.fail cause line >>= next) later :=
  (fail cause line : Ends before _ fun _ _ => False).bind fun _ _ _ _ => False.elim

end Ends

namespace Does

variable {action : Exec α} {next : α → Exec β} {post : α → Prop} {later : β → Prop}

/-- How an action ends on a machine that the supply fits. -/
theorem ends (does : supply.Does action post) {machine : Machine} (fits : supply.Fits machine) :
    Ends machine action fun value after =>
      after.stack.top.place = machine.stack.top.place ∧ post value :=
  (does machine fits).mono fun _ _ _ reached =>
    ⟨Stack.top_place_of_places reached.1, reached.2⟩

/-- What does not run out of fuel gives what is weaker than before. -/
theorem mono {other : α → Prop} (does : supply.Does action post)
    (weaker : ∀ value, post value → other value) : supply.Does action other :=
  fun machine fits => (does machine fits).mono fun value _ _ reached =>
    ⟨reached.1, weaker value reached.2⟩

/-- What is known from a guard of the value returned. -/
theorem keeping (does : supply.Does action fun _ => True)
    (keeps : supply.guard.Does action post) : supply.Does action post := by
  intro machine fits
  have ends := does machine fits
  have known := (keeps machine fits.program_eq).1
  unfold Ends at *
  unfold Guard.Ends at known
  cases outcome : action machine with
  | error stop after =>
    rw [outcome] at ends
    exact ends
  | ok value after =>
    rw [outcome] at ends known
    exact ⟨ends.1, ends.2.1, ends.2.2.1, known.2⟩

/-- What needs no fuel does not run out of it. -/
theorem of_guard {other : Heap → Nat → α → Prop} (keeps : supply.guard.Does action post)
    (fed : ∀ start, (Custody.satisfied start).Does 0 action action (other start)) :
    supply.Does action post := by
  intro machine fits
  have reached := fed machine.heap machine (.of_not_strict id (.refl _)) (Nat.zero_le _)
  obtain ⟨known, stays⟩ := keeps machine fits.program_eq
  unfold Custody.Ends at reached
  unfold Guard.Ends at known
  unfold Exec.final at stays
  unfold Ends
  cases outcome : action machine with
  | error stop after =>
    rw [outcome] at reached
    rintro rfl
    exact reached.fed trivial after rfl
  | ok value after =>
    rw [outcome] at reached known stays
    exact ⟨known.1, reached.later.awake fits.awake, stays, known.2⟩

/-- A sequence does not run out of fuel when neither part does. -/
theorem bind (first : supply.Does action post)
    (rest : ∀ value, post value → supply.Does (next value) later) :
    supply.Does (action >>= next) later :=
  fun machine fits => (first machine fits).bind fun value middle evolves awake ⟨stays, holds⟩ =>
    (rest value holds middle (fits.evolves evolves awake)).mono
      fun _ _ _ ⟨staysToo, reached⟩ => ⟨staysToo.trans stays, reached⟩

/-- Returning a value does not run out of fuel. -/
theorem pure {value : α} (holds : post value) : supply.Does (Pure.pure value) post :=
  fun _ fits => .pure fits.awake ⟨rfl, holds⟩

/-- An action that looks at the machine first. -/
theorem get {next : Machine → Exec β}
    (rest : ∀ machine, supply.Fits machine → supply.Does (next machine) later) :
    supply.Does (MonadState.get >>= next) later :=
  fun machine fits => rest machine fits machine fits

/-- Changing what an action returns needs no fuel. -/
theorem map {change : α → β} (first : supply.Does action post)
    (holds : ∀ value, post value → later (change value)) :
    supply.Does (change <$> action) later := by
  rw [map_eq_pure_bind]
  exact first.bind fun value held => .pure (holds value held)

/-- A fault does not run out of fuel. -/
theorem fault (fault : Fault) :
    supply.Does (MonadExcept.throw (.fault fault) : Exec α) post := fun _ _ => .fault fault

/-- A failure does not run out of fuel. -/
theorem fail (cause : RunCause) (line : Nat) :
    supply.Does (Exec.fail cause line : Exec α) post := fault _

/-- What would come after a failure does not matter. -/
theorem failFirst (cause : RunCause) (line : Nat) :
    supply.Does (Exec.fail cause line >>= next) later := fun _ _ => .failFirst cause line

/-- A failure at a position does not run out of fuel. -/
theorem failAt (window : Window) (pos : Nat) (cause : RunCause) :
    supply.Does (Exec.failAt window pos cause : Exec α) post := by
  have fed : ∀ start, (Custody.satisfied start).Does 0 (Exec.failAt window pos cause : Exec α)
      (Exec.failAt window pos cause) fun _ _ => True := fun _ => .failAt window pos cause
  exact .of_guard (.failAt trivial) fed

/-- The outcome of a pure computation does not run out of fuel. -/
theorem ofExcept {outcome : Except Fault α} (holds : ∀ value, outcome = .ok value → post value) :
    supply.Does (Exec.ofExcept outcome) post := by
  cases outcome with
  | ok value => exact .pure (holds value rfl)
  | error fault => exact .fault fault

/-- The token that was asked for is passed over, if it is plain. -/
theorem expect (window : Window) (pos : Nat) {kind : TokenKind} (wanted : String)
    (plain : kind.isPlain) :
    supply.Does (Exec.expect window pos kind wanted) fun _ => window.Passes pos (pos + 1) :=
  .of_guard (.expectPlain plain) fun _ => .expect window pos kind wanted

/-- Tracing does not run out of fuel. -/
theorem trace (text : Unit → String) : supply.Does (Exec.trace text) fun _ => True :=
  .of_guard (.trace text) fun _ => .trace text

/-- A change of the objects does not run out of fuel. -/
theorem setHeap (change : Machine → Heap) :
    supply.Does (MonadState.modifyGet fun machine : Machine =>
      (PUnit.unit, { machine with heap := change machine })) fun _ => True :=
  fun _ fits => (Ends.modify (.aside rfl rfl rfl ⟨rfl, rfl⟩) ⟨fits.awake.1, fits.awake.2⟩).mono
    fun _ _ _ same => ⟨same ▸ rfl, trivial⟩

/-- Assigning a variable does not run out of fuel. -/
theorem assignVariable (name : String) (value : Value) :
    supply.Does (Machine.assignVariable name value) fun _ => True :=
  .of_guard (.assignVariable name value) fun _ => .assignVariable name Custody.admits_satisfied

/-- Handling values does not run out of fuel. -/
theorem of_permitted {permit : Permit} {own action : Exec α} (handling : Exec.Handling permit own action) :
    supply.Does action fun _ => True := by
  induction handling with
  | pure => exact .pure trivial
  | bind _ _ first rest => exact first.bind fun value _ => rest value
  | look _ _ rest => exact .get fun machine _ => rest machine
  | fail => exact .fail _ _
  | failAt => exact .failAt _ _ _
  | crash => exact fun _ _ never => by cases never
  | addObject object =>
    exact .get fun _ _ => (setHeap _).bind fun _ _ => (trace _).bind fun _ _ => .pure trivial
  | setObject | modifyObject => exact setHeap _
  | assignVariable _ name value => exact .assignVariable name value

/-- Nothing that is done with values runs out of fuel. -/
theorem handles {action : Exec α} (handling : Exec.Handling (.all True) action action) :
    supply.Does action fun _ => True := of_permitted handling

/-- Setting a variable does not run out of fuel. -/
theorem setVariable (name : String) (value : Value) :
    supply.Does (Machine.setVariable name value) fun _ => True :=
  .of_guard (.setVariable name value) fun _ => .writeVariable 0 name false Custody.admits_satisfied

/-- Declaring a variable does not run out of fuel. -/
theorem declareVariable (scope : DeclScope) (name : String) (value : Value) (constant : Bool) :
    supply.Does (Machine.declareVariable scope name value constant) fun _ => True :=
  .of_guard (.declareVariable scope name value constant)
    fun _ => .declareVariable scope name constant Custody.admits_satisfied

/-- Changing the registers does not run out of fuel. -/
theorem modifyRegisters (change : Registers → Registers) :
    supply.Does (Machine.modifyRegisters change) fun _ => True :=
  .of_guard (.of_tame (tame_modifyRegisters change))
    fun _ => .modifyRegisters fun _ _ _ _ => Custody.admits_satisfied

/-- Checking a number of arguments does not run out of fuel. -/
theorem checkArity (name : String) (greatest required given line : Nat) :
    supply.Does (LineScript.checkArity name greatest required given line) fun _ => True :=
  .of_guard (.checkArity name greatest required given line)
    fun _ => .checkArity name greatest required given line

/-- A call of a library function does not run out of fuel. -/
theorem callBuiltin (function : Builtin) (args : List Value) (line : Nat) :
    supply.Does (LineScript.callBuiltin function args line) fun _ => True :=
  .of_guard (.callBuiltin function args line) fun _ =>
    Custody.Pairs.watchedBuiltin (Custody.tends_idle fun _ => trivial) function line
      fun _ _ => Custody.admits_satisfied

end Does

end Supply

end LineScript
