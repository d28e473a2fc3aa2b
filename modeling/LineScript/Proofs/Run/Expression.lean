import LineScript.Interpreter.Expression
import LineScript.Proofs.Congruence.Walk
import LineScript.Proofs.Machine.Evolution
import LineScript.Proofs.Machine.Handling
import LineScript.Proofs.Machine.Library
import LineScript.Proofs.Run.Guard

/-!
# Expressions, declarations and assignments keep to a guard

What reads and writes values stops only for causes that do not point at a broken program, and writes only
variables that it may reach. A guard is therefore a logic of one engine: whatever is evaluated is made
of plain tokens and keeps to the guard.
-/

namespace LineScript

open Machine

variable {guard : Guard} {α : Type}

/-!
## Reading and writing
-/

namespace Guard.Does

/-- A tame action keeps to the guard. -/
theorem of_tame {action : Exec α} (tame : action.Tame True) : guard.Does action fun _ => True := by
  intro machine _
  refine ⟨?_, tame.stays machine⟩
  have evolves := tame.evolves machine
  unfold Ends
  unfold Exec.final at evolves
  cases outcome : action machine with
  | ok value after =>
    rw [outcome] at evolves
    exact ⟨evolves, trivial⟩
  | error stop after =>
    rw [outcome] at evolves
    cases tame.stops outcome with
    | replacement => exact ⟨evolves, guard.allows_of_free _ rfl⟩
    | crashed _ due => exact ⟨evolves, due⟩

end Guard.Does

/-- Writing a variable: a constant stays, and anything else is replaced. -/
theorem Machine.writeVariable_eq (position : Nat) (name : String) (value : Value)
    (constant : Bool) (machine : Machine) :
    writeVariable position name value constant machine =
      match (machine.stack.scopeAt position).vars.get? (Text.lower name) with
      | some { constant := true, .. } =>
        .error (.fault (.running (.constantWrite name) machine.line [])) machine
      | _ =>
        .ok () { machine with
          stack := machine.stack.modifyAt position fun scope =>
            { scope with vars := scope.vars.insert (Text.lower name) ⟨value, constant⟩ } } := by
  unfold writeVariable
  simp only [bind, EStateM.bind, run_get]
  rcases (machine.stack.scopeAt position).vars.get? (Text.lower name) with _ | ⟨_, _ | _⟩ <;> rfl

namespace Guard.Does

/-- A variable of the running function or of the script is written. -/
theorem writeVariable_ends {machine : Machine} {position : Nat} (name : String) (value : Value)
    (constant : Bool)
    (reach : position ≤ machine.stack.framePosition ∨ position = machine.stack.inner.length) :
    guard.Ends machine (writeVariable position name value constant) (fun _ _ => True) ∧
      ((writeVariable position name value constant).final machine).stack.places =
        machine.stack.places := by
  unfold Guard.Ends Exec.final
  rw [writeVariable_eq]
  split
  · exact ⟨⟨.refl machine, guard.allows_of_free _ rfl⟩, rfl⟩
  · rename_i free
    refine ⟨⟨.write machine position _ _ reach fun held found => ?_, trivial⟩,
      Stack.places_modifyAt _ _ _ fun _ => rfl⟩
    cases constant : held.constant with
    | false => rfl
    | true =>
      obtain ⟨held, _⟩ := held
      subst constant
      exact absurd found (free held)

/-- Setting a variable keeps to the guard. -/
theorem setVariable (name : String) (value : Value) :
    guard.Does (Machine.setVariable name value) fun _ => True :=
  fun _ _ => writeVariable_ends name value false (.inl (Nat.zero_le _))

/-- Assigning a variable keeps to the guard. -/
theorem assignVariable (name : String) (value : Value) :
    guard.Does (Machine.assignVariable name value) fun _ => True :=
  fun machine _ => writeVariable_ends _ value false (machine.stack.assignPosition_reach _)

/-- Declaring a variable keeps to the guard. -/
theorem declareVariable (scope : DeclScope) (name : String) (value : Value) (constant : Bool) :
    guard.Does (Machine.declareVariable scope name value constant) fun _ => True :=
  fun machine _ => writeVariable_ends name value constant (machine.stack.declPosition_reach _)

/-- Handling values keeps to the guard. -/
theorem of_permitted {permit : Permit} {own action : Exec α} (handling : Exec.Handling permit own action) :
    guard.Does action fun _ => True := by
  induction handling with
  | pure => exact .pure trivial
  | bind _ _ first rest => exact first.bind fun value _ => rest value
  | look _ _ rest => exact .get fun machine _ => rest machine
  | fail _ free => exact .failFree free
  | failAt free => exact .failAtFree free
  | crash due => exact .throw due
  | addObject object => exact .of_tame (tame_addObject object)
  | setObject _ object => exact .of_tame (tame_setObject _ object)
  | modifyObject _ change => exact .of_tame (tame_modifyObject _ change)
  | assignVariable _ name value => exact .assignVariable name value

/-- Everything that is done with values keeps to the guard. -/
theorem handles {action : Exec α} (handling : Exec.Handling (.all True) action action) :
    guard.Does action fun _ => True := of_permitted handling

end Guard.Does

/-!
## The logic of a guard
-/

namespace Guard

variable (guard : Guard)

/-- What a guard takes for granted of tokens: expressions and statements read plain ones, and all lines
may be reported. -/
def ground : Ground where
  block := guard.block
  place := guard.place
  isLine _ := True
  permits fault := guard.permits (.fault fault)
  Path := Window.Passes
  Inner := Window.Passes
  Course := Window.Passes
  Ends window _ later := guard.place window later
  path_refl := .refl
  path_trans := .trans
  path_one found plain _ := .one found plain
  path_brackets opened inner := (Window.passes_of_hasKind opened rfl).trans inner
  inner_bracket found kind := .one found (by rw [kind]; rfl)
  inner_comma found kind inner := (Window.Passes.one found (by rw [kind]; rfl)).trans inner
  inner_path := .trans
  course_path := id
  course_pass := id
  course_trans := .trans
  ends_course := guard.place_pass
  block_of_place := guard.block_of_place
  line_of_token _ _ _ := trivial
  line_of_pos _ _ _ := trivial
  permits_free free _ := guard.allows_of_free _ free
  permits_end {_ _ _ cause} _ _ isEnd := guard.allows_of_free cause (by
    cases cause <;> first | rfl | cases isEnd)
  choice {window pos opener} inside found isChoice := by
    have parts := guard.choice inside found isChoice
    cases known : Layout.findThen window.tokens pos window.stop with
    | none =>
      rw [known] at parts
      exact parts "Then"
    | some ending =>
      rw [known] at parts
      exact parts
  selection := guard.selection
  whileLoop {window pos opener} inside found isLoop := by
    have parts := guard.whileLoop inside found isLoop
    dsimp only at parts ⊢
    split
    · rename_i missing
      rw [missing] at parts
      exact parts "WEnd"
    · rename_i halted
      rw [halted] at parts
      exact parts
  doLoop {window pos opener} inside found isLoop := by
    have parts := guard.doLoop inside found isLoop
    split
    · rename_i missing
      rw [missing] at parts
      exact parts "Until"
    · rename_i halted
      rw [halted] at parts
      exact parts

/-- The logic of a guard looks at one engine only. Of the machine it is known that it runs the program
of the guard. -/
def logic : Logic where
  toGround := guard.ground
  World := Unit
  Leads _ _ := True
  Knows _ machine := machine.program = guard.program
  Admits _ _ := True
  MayDeclare _ _ _ := True
  lax := False
  leaves _ := false
  Gives _ world _ right post := guard.Does right (post world)
  leads_refl _ := trivial
  leads_trans _ _ := trivial
  admits_free _ := trivial
  admits_mono _ _ := trivial
  mayDeclare_mono _ _ := trivial
  mayDeclare_comma _ _ _ _ _ := trivial
  leaves_out := Logic.out_of_never
  pure holds := .pure (holds () trivial)
  follow {_ _ leaving} _ _ _ _ _ _ _ _ first rest out := first.bind fun value held => by
    cases away : leaving value with
    | false => exact rest () value trivial held away
    | true =>
      obtain ⟨result, _, same, _, holds⟩ := out () value trivial held away
      rw [same]
      exact .pure (holds () trivial)
  mono gives weaker := gives.mono fun value held => weaker () value trivial held
  get _ rest := .get fun machine same => rest () machine trivial same
  raise permitted := .throw permitted
  starved := .starved
  starve := False.elim
  macroValue name _ := .handles (.macroValue rfl (.inl rfl) trivial)
  variableValue _ := .handles (.variableValue (.refl trivial))
  element _ _ _ _ := .handles (.element trivial _ _)
  newArray _ := .handles (.newArray _)
  combine _ _ _ _ := .handles (.combine trivial _ _ _)
  line_known _ := trivial
  site_known same stored := ⟨guard.block_arg (same ▸ stored), trivial⟩
  site_missing same inside found isCall missing _ :=
    guard.call_known inside (Window.token?_eq_some.mp found).2 isCall (same ▸ missing)
  loop_known same stored :=
    ⟨guard.block_head (same ▸ stored), guard.place_loop (same ▸ stored), trivial⟩
  loop_missing same inside found isLoop missing :=
    guard.loop_known inside (Window.token?_eq_some.mp found).2 isLoop (same ▸ missing)
  members_admitted _ _ _ _ := trivial

variable {guard}

/-- What goes along with the guard keeps to it. -/
theorem Does.of_gives {leaving : α → Bool} {left right : Exec α} {post : Unit → α → Prop}
    (gives : guard.logic.Gives leaving () left right post) : guard.Does right (post ()) := gives

variable (guard)

/-- The logic of a guard covers declarations and assignments. -/
theorem writes : guard.logic.Writes where
  declaredValue _ _ _ _ := .handles (.declaredValue (.refl trivial) _ _)
  declareVariable _ _ _ := Does.declareVariable _ _ _ _
  setVariable _ _ _ := Does.setVariable _ _
  assignTo _ _ _ _ _ _ _ _ :=
    .handles (.assignTo (.refl trivial) trivial (fun _ => trivial) trivial _ _ _)
  introduce _ _ := .handles (.introduce (.refl trivial) trivial _)
  resize _ _ _ := .handles (.resize (.refl trivial) trivial _ _)

end Guard

/-- What an engine of a guard does: it reads plain tokens where it evaluates, and runs scopes whose
statements stand where the guard says. -/
structure Engine.Obeys (low : Engine) (guard : Guard) : Prop where
  /-- Terms are made of plain tokens. -/
  term : ∀ (window : Window) (pos : Nat), guard.block window.tokens →
    guard.Does (low.term window pos) fun result => window.Passes pos result.2
  /-- Expressions are made of plain tokens. -/
  value : ∀ (window : Window) (pos : Nat), guard.block window.tokens →
    guard.Does (low.value window pos) fun result => window.Passes pos result.2
  /-- Calls keep to the guard. -/
  call : ∀ (name : String) (args : List Value) (line : Nat),
    guard.Does (low.call name args line) fun _ => True
  /-- Scopes at a place of the guard keep to it. -/
  runScope : ∀ machine : Machine, machine.program = guard.program →
    guard.place machine.stack.top.code machine.stack.top.pos →
    guard.Ends machine low.runScope fun _ _ => True

namespace Engine.Obeys

variable {low : Engine} (obeys : low.Obeys guard) {window : Window}
include obeys

/-- An engine of a guard goes along with it in what it evaluates. -/
theorem relates : guard.logic.Relates low low where
  fuel := .inl rfl
  term _ window pos inside := (obeys.term window pos inside).mono fun _ read => ⟨read, trivial⟩
  value _ window pos inside := (obeys.value window pos inside).mono fun _ read => ⟨read, trivial⟩
  call _ _ _ _ _ := obeys.call _ _ _

/-- A complete expression keeps to the guard. -/
theorem whole (inside : guard.block window.tokens) :
    guard.Does (low.whole window) fun _ => True :=
  .of_gives (obeys.relates.whole inside)

/-- Reading an array literal keeps to the guard. -/
theorem arrayLiteral (inside : guard.block window.tokens) (pos : Nat) :
    guard.Does (low.arrayLiteral window pos) fun result => window.Passes pos result.2 :=
  (Guard.Does.of_gives (obeys.relates.arrayLiteral inside pos)).mono fun _ read => read.1

/-- Reading a term keeps to the guard. -/
theorem evalTerm (inside : guard.block window.tokens) (pos : Nat) :
    guard.Does (low.evalTerm window pos) fun result => window.Passes pos result.2 :=
  (Guard.Does.of_gives (obeys.relates.evalTerm inside pos)).mono fun _ read => read.1

/-- Evaluating an expression keeps to the guard. -/
theorem evalValue (inside : guard.block window.tokens) (pos : Nat) :
    guard.Does (low.evalValue window pos) fun result => window.Passes pos result.2 :=
  (Guard.Does.of_gives (obeys.relates.evalValue inside pos)).mono fun _ read => read.1

/-- Reading subscripts keeps to the guard. -/
theorem subscripts (inside : guard.block window.tokens) (pos : Nat) :
    guard.Does (low.subscripts window pos) fun result => window.Passes pos result.2 :=
  .of_gives (obeys.relates.subscripts inside pos)

/-- Binding parameters keeps to the guard. -/
theorem bindParams (function : UserFunction) (line : Nat) (params : List Param)
    (args : List Value)
    (inside : ∀ param ∈ params, ∀ tokens, param.fallback = some tokens → guard.block tokens) :
    guard.Does (low.bindParams function line params args) fun _ => True :=
  .of_gives (obeys.relates.bindParams guard.writes function trivial inside fun _ _ => trivial)

end Engine.Obeys

end LineScript
