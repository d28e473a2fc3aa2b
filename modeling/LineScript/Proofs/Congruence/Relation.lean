import LineScript.Proofs.Congruence.Control
import LineScript.Proofs.Machine.Beside
import LineScript.Proofs.Machine.Evolution

/-!
# Relations that evaluating keeps

A relation between actions that holds of every step beside the scopes, and of a chain of steps when it
holds of its parts, is a logic in which nothing is asked of values and lines. It therefore holds of
every construct as soon as it holds of the terms, expressions, calls and blocks that the two engines are
asked for. A property of one engine is such a relation too, one that looks at its left side only.
-/

namespace LineScript

open Machine

/-- The parts of a choice over several lines are missing as soon as they are looked for. -/
theorem choiceBranches_raised {window : Window} {opener : Token} {pos found : Nat} {fault : Fault}
    (failed : choiceBranches window opener pos found = .error fault) :
    (Stop.fault fault).Raised := by
  rcases choiceBranches_fault failed with ⟨_, rfl⟩ | ⟨_, _, _, _, _, _, rfl⟩
  · exact .fault _ _
  · exact .fault _ _

/-- So are the parts of a selection. -/
theorem clauses_raised {window : Window} {opener : Token} {start : Nat} {closer : TokenKind}
    {name : String} {fault : Fault} (failed : clauses window opener start closer name = .error fault) :
    (Stop.fault fault).Raised := by
  rcases clauses_fault failed with ⟨_, rfl⟩ | ⟨_, _, rfl⟩
  · exact .fault _ _
  · exact .fault _ _

/-- Nothing is asked of tokens, but that a fault arises where it is raised. -/
def Ground.open : Ground where
  block _ := True
  place _ _ := True
  isLine _ := True
  permits fault := (Stop.fault fault).Raised
  Path _ _ _ := True
  Inner _ _ _ := True
  Course _ _ _ := True
  Ends _ _ _ := True
  path_refl _ _ := trivial
  path_trans _ _ := trivial
  path_one _ _ _ := trivial
  path_brackets _ _ := trivial
  inner_bracket _ _ := trivial
  inner_comma _ _ _ := trivial
  inner_path _ _ := trivial
  block_of_place _ := trivial
  course_path _ := trivial
  course_pass _ := trivial
  course_trans _ _ := trivial
  ends_course _ _ := trivial
  line_of_token _ _ _ := trivial
  line_of_pos _ _ _ := trivial
  permits_free _ _ := .fault _ _
  permits_end _ _ _ := .fault _ _
  choice _ _ _ := by
    split
    · exact .fault _ _
    · dsimp only
      split
      · exact ⟨trivial, trivial⟩
      · split
        · rename_i failed
          exact choiceBranches_raised failed
        · exact ⟨fun _ _ => trivial, trivial⟩
  selection _ _ _ _ := by
    split
    · rename_i failed
      exact clauses_raised failed
    · exact ⟨fun _ _ => trivial, trivial⟩
  whileLoop _ _ _ := by
    dsimp only
    split
    · exact .fault _ _
    · exact ⟨trivial, trivial⟩
  doLoop _ _ _ := by
    split
    · exact .fault _ _
    · exact ⟨trivial, trivial⟩

/-- A relation between actions with results of the same type. -/
abbrev ExecRelation := ∀ ⦃α : Type⦄, Exec α → Exec α → Prop

namespace Exec

/-- A relation that holds of every action beside the scopes and of chains of what it holds of. -/
structure Congruence (R : ExecRelation) : Prop where
  /-- An action beside the scopes. -/
  beside : ∀ {α : Type} {action : Exec α}, action.Beside → R action action
  /-- One action after another. -/
  bind : ∀ {α β : Type} {left right : Exec α} {next other : α → Exec β}, R left right →
    (∀ value, R (next value) (other value)) → R (left >>= next) (right >>= other)
  /-- An action that looks at the machine first, but not at its margin. -/
  get : ∀ {β : Type} {next other : Machine → Exec β},
    (∀ (machine : Machine) (margin : Margin), other (machine.withMargin margin) = other machine) →
    (∀ machine, R (next machine) (other machine)) →
    R (MonadState.get >>= next) (MonadState.get >>= other)

namespace Congruence

variable {R : ExecRelation} (law : Congruence R) {α β : Type}
include law

/-- Returning a value is related in engines that are alike. -/
theorem pure (value : α) : R (Pure.pure value : Exec α) (Pure.pure value) := law.beside (.pure value)

/-- Running out of fuel is related in engines that are alike. -/
theorem starved : R (Exec.starved : Exec α) Exec.starved := law.beside .starved

/-- A failure is related in engines that are alike. -/
theorem fail (cause : RunCause) (line : Nat) :
    R (Exec.fail cause line : Exec α) (Exec.fail cause line) := law.beside (.fail cause line)

/-- Changing what related actions return keeps them related. -/
theorem map {left right : Exec α} (related : R left right) (change : α → β) :
    R (change <$> left) (change <$> right) := by
  rw [map_eq_pure_bind, map_eq_pure_bind]
  exact law.bind related fun _ => law.pure _

/-- Handling values without assigning a variable is related in engines that are alike. -/
theorem handles {action : Exec α} (handling : Handling (.all False) action action) : R action action :=
  law.beside (.of_handling handling)

/-- An action beside the scopes, and what is done with its value. -/
theorem after {action : Exec α} (beside : action.Beside) {next other : α → Exec β}
    (rest : ∀ value, R (next value) (other value)) : R (action >>= next) (action >>= other) :=
  law.bind (law.beside beside) rest

end Congruence

end Exec

/-!
## Relations that writing and running keep
-/

/-- A change of one scope. -/
abbrev Machine.modifyScope (machine : Machine) (position : Nat) (change : Scope → Scope) : Machine :=
  { machine with stack := machine.stack.modifyAt position change }

namespace Exec

/-- A relation that also holds of every change of one scope. -/
structure WritingCongruence (R : ExecRelation) : Prop extends Congruence R where
  /-- A change of one scope that leaves what it belongs to. -/
  write : ∀ (position : Machine → Nat) {change : Scope → Scope},
    (∀ (machine : Machine) (margin : Margin), position (machine.withMargin margin) = position machine) →
    (∀ scope, (change scope).kind = scope.kind) →
    R (MonadState.modifyGet fun machine =>
        (PUnit.unit, machine.modifyScope (position machine) change) : Exec PUnit)
      (MonadState.modifyGet fun machine =>
        (PUnit.unit, machine.modifyScope (position machine) change))

namespace WritingCongruence

variable {R : ExecRelation} (law : WritingCongruence R)
include law

/-- Writing a variable is related in engines that are alike. -/
theorem writeVariable (position : Nat) (name : String) (value : Value) (constant : Bool) :
    R (Machine.writeVariable position name value constant)
      (Machine.writeVariable position name value constant) := by
  unfold Machine.writeVariable
  refine law.get (fun _ _ => rfl) fun machine => ?_
  dsimp only
  split
  · exact law.fail _ _
  · exact law.write (fun _ => position) (fun _ _ => rfl) fun _ => rfl

/-- Assigning a variable is related in engines that are alike. -/
theorem assignVariable (name : String) (value : Value) :
    R (Machine.assignVariable name value) (Machine.assignVariable name value) :=
  law.get (fun _ _ => rfl) fun _ => law.writeVariable _ _ _ _

/-- Declaring a variable is related in engines that are alike. -/
theorem declareVariable (scope : DeclScope) (name : String) (value : Value) (constant : Bool) :
    R (Machine.declareVariable scope name value constant)
      (Machine.declareVariable scope name value constant) :=
  law.get (fun _ _ => rfl) fun _ => law.writeVariable _ _ _ _

/-- Changing the registers is related in engines that are alike. -/
theorem modifyRegisters (change : Registers → Registers) :
    R (Machine.modifyRegisters change) (Machine.modifyRegisters change) :=
  law.write (·.stack.framePosition) (fun _ _ => rfl) fun _ => rfl

/-- Handling values is related to itself in engines that are alike. -/
theorem of_permitted {α : Type} {permit : Permit} {own action : Exec α}
    (handling : Handling permit own action) : R action action := by
  induction handling with
  | pure value => exact law.pure value
  | bind _ _ first rest => exact law.bind first rest
  | look shared _ rest =>
    exact law.get (fun machine margin => shared machine _ (machine.shares_withMargin margin)) rest
  | fail => exact law.fail _ _
  | failAt => exact law.beside (.failAt _ _ _)
  | crash due => exact law.beside (.throw (.crashed _ due))
  | addObject object => exact law.beside (.addObject object)
  | setObject _ object => exact law.beside (.setObject _ object)
  | modifyObject _ change => exact law.beside (.modifyObject _ change)
  | assignVariable _ name value => exact law.assignVariable name value

/-- Everything that is done with values is related in engines that are alike. -/
theorem handles {α : Type} {action : Exec α} (handling : Handling (.all True) action action) :
    R action action := law.of_permitted handling

/-- Moving the cursor is related in engines that are alike. -/
theorem moveTo (pos : Nat) : R (LineScript.moveTo pos) (LineScript.moveTo pos) := by
  unfold LineScript.moveTo
  simp only [Stack.modifyTop_eq_modifyAt]
  exact law.write (fun _ => 0) (fun _ _ => rfl) fun _ => rfl

/-- Skipping a function is related in engines that are alike. -/
theorem skipFunction : R Engine.skipFunction Engine.skipFunction :=
  law.after .topScope fun _ => law.moveTo _

end WritingCongruence

end Exec

/-!
## The logic of a relation
-/

namespace Exec

variable {α β : Type}

/-- The action may return the value. -/
def Returns (action : Exec α) (value : α) : Prop :=
  ∃ machine after, action machine = .ok value after

/-- What comes after an action need only be known of the values that it may return. -/
theorem bind_cut {action : Exec α} {P : α → Prop} [DecidablePred P]
    (returns : ∀ value, action.Returns value → P value) (next : α → Exec β) :
    action >>= next = action >>= fun value => if P value then next value else starved := by
  funext machine
  simp only [Bind.bind, EStateM.bind]
  cases outcome : action machine with
  | error stop after => rfl
  | ok value after => simp only [if_pos (returns value ⟨machine, after, outcome⟩)]

/-- What two actions in turn return, the second one returns after a value of the first. -/
theorem Returns.of_bind {action : Exec α} {next : α → Exec β} {result : β}
    (returns : (action >>= next).Returns result) :
    ∃ value, action.Returns value ∧ (next value).Returns result := by
  obtain ⟨machine, after, ran⟩ := returns
  obtain ⟨value, middle, first, later⟩ := run_bind_eq_ok.mp ran
  exact ⟨value, ⟨machine, middle, first⟩, middle, after, later⟩

/-- A returned value is the one that was given. -/
theorem Returns.of_pure {value result : α} (returns : (Pure.pure value : Exec α).Returns result) :
    result = value := by
  obtain ⟨machine, after, ran⟩ := returns
  cases ran
  rfl

end Exec

/-- A relation between actions with some of whose results control leaves. -/
abbrev FlowRelation := ∀ ⦃α : Type⦄, (α → Bool) → Exec α → Exec α → Prop

namespace Exec

/-- A relation between evaluations, and one between actions with some of whose results control leaves,
after which nothing more is done. -/
structure FlowCongruence (R : ExecRelation) (S : FlowRelation) (leaves : Flow → Bool) : Prop extends
    Congruence R where
  /-- With these flows control leaves the function. -/
  leaves_out : ∀ {flow : Flow}, leaves flow = true → flow = .exit ∨ ∃ value, flow = .returned value
  /-- Where control never leaves, the actions are evaluations. -/
  calm : ∀ {α : Type} {left right : Exec α}, S (fun _ => false) left right → R left right
  /-- Evaluations may be followed by anything. -/
  loose : ∀ {α : Type} {leaving : α → Bool} {left right : Exec α}, R left right → S leaving left right
  /-- What follows; where control leaves, nothing but a result does. -/
  follow : ∀ {α β : Type} {leaving : α → Bool} {leavingNext : β → Bool} {left right : Exec α}
    {next other : α → Exec β}, S leaving left right →
    (∀ value, left.Returns value ∨ right.Returns value → leaving value = false →
      S leavingNext (next value) (other value)) →
    (∀ value, left.Returns value ∨ right.Returns value → leaving value = true →
      ∃ result, next value = Pure.pure result ∧ other value = Pure.pure result ∧
        leavingNext result = true) →
    S leavingNext (left >>= next) (right >>= other)
  /-- An action that looks at the machine first, but not at its margin. -/
  look : ∀ {β : Type} {leaving : β → Bool} {next other : Machine → Exec β},
    (∀ (machine : Machine) (margin : Margin), other (machine.withMargin margin) = other machine) →
    (∀ machine, S leaving (next machine) (other machine)) →
    S leaving (MonadState.get >>= next) (MonadState.get >>= other)

/-- A relation in which it does not matter with which flow control leaves. -/
theorem Congruence.flow {R : ExecRelation} (law : Congruence R) :
    FlowCongruence R (fun _ _ left right => R left right) fun _ => false where
  toCongruence := law
  leaves_out := Logic.out_of_never
  calm related := related
  loose related := related
  follow {α β leaving leavingNext left right next other} first rest leaves := by
    classical
    let met : α → Prop := fun value => left.Returns value ∨ right.Returns value
    have cutLeft := bind_cut (fun value returns => (Or.inl returns : met value)) next
    have cutRight := bind_cut (fun value returns => (Or.inr returns : met value)) other
    rw [cutLeft, cutRight]
    refine law.bind first fun value => ?_
    by_cases returned : met value
    · rw [if_pos returned, if_pos returned]
      cases away : leaving value with
      | false => exact rest value returned away
      | true =>
        obtain ⟨result, same, also, _⟩ := leaves value returned away
        rw [same, also]
        exact law.pure result
    · rw [if_neg returned, if_neg returned]
      exact law.starved
  look := law.get

namespace FlowCongruence

variable {R : ExecRelation} {S : FlowRelation} {leaves : Flow → Bool}

/-- The logic of a relation: nothing is asked of values and lines, and what two actions return is known
of every value that one of them may return. -/
def logic (law : FlowCongruence R S leaves) : Logic where
  toGround := .open
  World := Unit
  Leads _ _ := True
  Knows _ _ := True
  Admits _ _ := True
  MayDeclare _ _ _ := True
  lax := False
  leaves
  Gives leaving world left right post :=
    S leaving left right ∧ ∀ value, left.Returns value ∨ right.Returns value → post world value
  leads_refl _ := trivial
  leads_trans _ _ := trivial
  admits_free _ := trivial
  admits_mono _ _ := trivial
  mayDeclare_mono _ _ := trivial
  mayDeclare_comma _ _ _ _ _ := trivial
  leaves_out := law.leaves_out
  pure holds := by
    refine ⟨law.loose (law.pure _), fun value returns => ?_⟩
    rcases returns with returns | returns
    · exact returns.of_pure ▸ holds () trivial
    · exact returns.of_pure ▸ holds () trivial
  follow {α β leaving leavingNext world left right next other post later} first rest left' := by
    refine ⟨law.follow first.1 (fun value returns stays => ?_) fun value returns away => ?_,
      fun result returns => ?_⟩
    · exact (rest () value trivial (first.2 value returns) stays).1
    · obtain ⟨result, same, also, leaves, _⟩ := left' () value trivial (first.2 value returns) away
      exact ⟨result, same, also, leaves⟩
    · -- Each side returned a value in between.
      have after : ∀ value, left.Returns value ∨ right.Returns value →
          (next value).Returns result ∨ (other value).Returns result → later () result := by
        intro value met returns
        cases away : leaving value with
        | false => exact (rest () value trivial (first.2 value met) away).2 result returns
        | true =>
          obtain ⟨last, same, also, _, holds⟩ := left' () value trivial (first.2 value met) away
          rw [same, also, or_self] at returns
          exact returns.of_pure ▸ holds () trivial
      rcases returns with returns | returns
      · obtain ⟨value, met, later⟩ := returns.of_bind
        exact after value (.inl met) (.inl later)
      · obtain ⟨value, met, later⟩ := returns.of_bind
        exact after value (.inr met) (.inr later)
  mono gives weaker := ⟨gives.1, fun value returns => weaker () value trivial (gives.2 value returns)⟩
  get {β leaving world next other post} unseen rest := by
    refine ⟨law.look unseen fun machine => (rest () machine trivial trivial).1, fun value returns => ?_⟩
    rcases returns with ⟨machine, after, ran⟩ | ⟨machine, after, ran⟩
    · exact (rest () machine trivial trivial).2 value (.inl ⟨machine, after, ran⟩)
    · exact (rest () machine trivial trivial).2 value (.inr ⟨machine, after, ran⟩)
  raise raised := ⟨law.loose (law.beside (.throw raised)), fun value returns => by
    rcases returns with ⟨_, _, ran⟩ | ⟨_, _, ran⟩ <;> cases ran⟩
  starved := ⟨law.loose law.starved, fun value returns => by
    rcases returns with ⟨_, _, ran⟩ | ⟨_, _, ran⟩ <;> cases ran⟩
  starve := False.elim
  macroValue _ _ := ⟨law.loose (law.handles (.macroValue rfl (.inl rfl) trivial)), fun _ _ => trivial⟩
  variableValue _ := ⟨law.loose (law.handles (.variableValue (.refl trivial))), fun _ _ => trivial⟩
  element _ _ _ _ := ⟨law.loose (law.handles (.element trivial _ _)), fun _ _ => trivial⟩
  newArray _ := ⟨law.loose (law.handles (.newArray _)), fun _ _ => trivial⟩
  combine _ _ _ _ := ⟨law.loose (law.handles (.combine trivial _ _ _)), fun _ _ => trivial⟩
  line_known _ := trivial
  site_known _ _ := ⟨fun _ _ => trivial, trivial⟩
  site_missing _ _ _ _ _ _ := .fault _ _
  loop_known _ _ := ⟨fun _ _ => trivial, trivial, trivial⟩
  loop_missing _ _ _ _ _ := .fault _ _
  members_admitted _ _ _ _ := trivial

variable (law : FlowCongruence R S leaves)
include law

/-- Actions that go together in the logic are related. -/
theorem related {α : Type} {leaving : α → Bool} {left right : Exec α} {post : Unit → α → Prop}
    (gives : law.logic.Gives leaving () left right post) : S leaving left right := gives.1

/-- Evaluations that go together in the logic are related. -/
theorem evaluated {α : Type} {left right : Exec α} {post : Unit → α → Prop}
    (does : law.logic.Does () left right post) : R left right := law.calm does.1

/-- What declarations and assignments do is covered if the relation holds of writing. -/
theorem writes (writing : WritingCongruence R) : law.logic.Writes where
  declaredValue _ _ _ _ := ⟨law.loose (writing.handles (.declaredValue (.refl trivial) _ _)), fun _ _ => trivial⟩
  declareVariable _ _ _ := ⟨law.loose (writing.declareVariable _ _ _ _), fun _ _ => trivial⟩
  setVariable _ _ _ := ⟨law.loose (writing.writeVariable _ _ _ _), fun _ _ => trivial⟩
  assignTo _ _ _ _ _ _ _ _ := ⟨law.loose (writing.handles
    (.assignTo (.refl trivial) trivial (fun _ => trivial) trivial _ _ _)), fun _ _ => trivial⟩
  introduce _ _ := ⟨law.loose (writing.handles (.introduce (.refl trivial) trivial _)), fun _ _ => trivial⟩
  resize _ _ _ := ⟨law.loose (writing.handles (.resize (.refl trivial) trivial _ _)), fun _ _ => trivial⟩

end FlowCongruence

end Exec

/-- What two engines evaluate is related. -/
structure Engine.Alike (R : ExecRelation) (left right : Engine) : Prop where
  /-- They may make the same number of rounds. -/
  fuel : left.fuel = right.fuel
  /-- Terms are. -/
  term : ∀ window pos, R (left.term window pos) (right.term window pos)
  /-- Expressions are. -/
  value : ∀ window pos, R (left.value window pos) (right.value window pos)
  /-- Calls are. -/
  call : ∀ name args line, R (left.call name args line) (right.call name args line)

namespace Engine.Alike

variable {R : ExecRelation} {S : FlowRelation} {leaves : Flow → Bool} {left right : Engine}
  (alike : left.Alike R right)
include alike

/-- Engines that are alike go together in the logic of the relation. -/
theorem relates (law : Exec.FlowCongruence R S leaves) : law.logic.Relates left right where
  fuel := .inl alike.fuel
  term _ window pos _ := ⟨law.loose (alike.term window pos), fun _ _ => ⟨trivial, trivial⟩⟩
  value _ window pos _ := ⟨law.loose (alike.value window pos), fun _ _ => ⟨trivial, trivial⟩⟩
  call _ _ _ _ _ := ⟨law.loose (alike.call _ _ _), fun _ _ => trivial⟩

/-- So they do in statements if blocks are related. -/
theorem runs (law : Exec.FlowCongruence R S leaves)
    (block : ∀ code bindings, S leaves (left.runBlock code bindings) (right.runBlock code bindings)) :
    law.logic.Runs left right where
  toRelates := alike.relates law
  block _ _ := ⟨block _ _, fun _ _ _ _ => trivial⟩

/-- A statement is related if blocks are. -/
theorem statement (law : Exec.FlowCongruence R S leaves) (writing : Exec.WritingCongruence R)
    (block : ∀ code bindings, S leaves (left.runBlock code bindings) (right.runBlock code bindings))
    (window : Window) (pos : Nat) :
    S (fun result => leaves result.1) (left.statement window pos) (right.statement window pos) :=
  law.related ((alike.runs law block).statement (law.writes writing) trivial fun _ _ _ => trivial)

section

variable (law : Exec.Congruence R) (window : Window)
include law

/-- Reading a term is related in engines that are alike. -/
theorem evalTerm (pos : Nat) : R (left.evalTerm window pos) (right.evalTerm window pos) :=
  law.flow.evaluated ((alike.relates law.flow).evalTerm trivial pos)

/-- Evaluating an expression is related in engines that are alike. -/
theorem evalValue (pos : Nat) : R (left.evalValue window pos) (right.evalValue window pos) :=
  law.flow.evaluated ((alike.relates law.flow).evalValue trivial pos)

/-- Reading subscripts is related in engines that are alike. -/
theorem subscripts (pos : Nat) : R (left.subscripts window pos) (right.subscripts window pos) :=
  law.flow.evaluated ((alike.relates law.flow).subscripts trivial pos)

/-- Reading an initialiser is related in engines that are alike. -/
theorem initialiser (pos : Nat) :
    R (left.initialiser window pos) (right.initialiser window pos) :=
  law.flow.evaluated ((alike.relates law.flow).initialiser trivial pos)

end

/-!
## Statements that run no block
-/

variable (law : Exec.WritingCongruence R)
include law

/-- Binding parameters is related in engines that are alike. -/
theorem bindParams (function : UserFunction) (line : Nat) (params : List Param)
    (args : List Value) :
    R (left.bindParams function line params args) (right.bindParams function line params args) := by
  have flow := law.toCongruence.flow
  exact flow.evaluated ((alike.relates flow).bindParams (flow.writes law) function trivial
    (fun _ _ _ _ => trivial) fun _ _ => trivial)

/-- Evaluating an expression of the innermost scope is related in engines that are alike. -/
theorem scopeValue : R left.scopeValue right.scopeValue := by
  refine law.after .topScope fun scope => ?_
  refine law.bind (alike.value _ _) fun ⟨value, pos⟩ => ?_
  exact law.bind (law.moveTo _) fun _ => law.pure _

/-- Executing a flag is related in engines that are alike. -/
theorem flag (token : Token) : R (left.flag token) (right.flag token) := by
  have rest : R (do
        let scope ← LineScript.topScope
        if scope.code.hasOperator scope.pos "=" then
          LineScript.moveTo (scope.pos + 1)
          let value ← left.scopeValue
          Exec.trace fun _ => "flag: #" ++ token.lexeme ++ " = " ++ value.display
        else Exec.trace fun _ => "flag: ignoring #" ++ token.lexeme) (do
        let scope ← LineScript.topScope
        if scope.code.hasOperator scope.pos "=" then
          LineScript.moveTo (scope.pos + 1)
          let value ← right.scopeValue
          Exec.trace fun _ => "flag: #" ++ token.lexeme ++ " = " ++ value.display
        else Exec.trace fun _ => "flag: ignoring #" ++ token.lexeme) := by
    refine law.after .topScope fun scope => ?_
    split
    · refine law.bind (law.moveTo _) fun _ => ?_
      exact law.bind (alike.scopeValue law) fun _ => law.beside (.trace _)
    · exact law.beside (.trace _)
  unfold Engine.flag
  dsimp only
  split
  · refine law.after (.modify (fun _ _ => rfl) fun machine => ?_) fun _ => rest
    exact ⟨rfl, rfl⟩
  · exact law.after (.fail _ _) fun _ => rest
  · exact law.after (.fail _ _) fun _ => rest
  · exact rest

/-- A return is related in engines that are alike. -/
theorem returning : R left.returning right.returning := by
  have leave : ∀ value : Value, R
      (do setReturnValue value; return StepResult.leave (.returned value))
      (do setReturnValue value; return StepResult.leave (.returned value)) :=
    fun value => law.bind (law.modifyRegisters _) fun _ => law.pure _
  unfold Engine.returning
  refine law.after .atLineEnd fun atEnd => ?_
  dsimp only
  split
  · exact law.after (.pure _) fun value => leave value
  · exact law.bind (alike.scopeValue law) fun value => leave value

/-- A jump is related in engines that are alike. -/
theorem jumping (token : Token) (flow : UInt32 → Flow) :
    R (left.jumping token flow) (right.jumping token flow) := by
  have leave : ∀ level : Int64, R
      (if level < 1 then Exec.fail (.loopLevel token.lexeme level) token.line
        else return StepResult.leave (flow level.toUInt64.toUInt32))
      (if level < 1 then Exec.fail (.loopLevel token.lexeme level) token.line
        else return StepResult.leave (flow level.toUInt64.toUInt32)) := by
    intro level
    split
    · exact law.fail _ _
    · exact law.pure _
  unfold Engine.jumping
  refine law.after .atLineEnd fun atEnd => ?_
  dsimp only
  split
  · exact law.after (.pure _) fun level => leave level
  · exact law.bind (law.map (alike.scopeValue law) Value.asInt) fun level => leave level

end Engine.Alike

end LineScript
