import LineScript.Interpreter.Statement
import LineScript.Proofs.Congruence.Relation
import LineScript.Proofs.Discipline.Basic
import LineScript.Proofs.Run.Control

/-!
# Expressions and statements keep a discipline

An expression changes the scopes only through the calls in it, and what it reads is closed in itself.
An assignment writes where a plain assignment finds its variable; a declaration writes the variables of
its list, each of which has to be permitted. A value with which control leaves the function passes
through every block, choice, selection and loop at once: nothing runs after it.
-/

namespace LineScript

open Machine Discipline

variable {discipline : Discipline} {low : Engine} {window : Window}

namespace Discipline.Gives

/-- Handling values keeps the discipline. -/
theorem of_permitted {α : Type} {permit : Permit} {own action : Exec α}
    (handling : Exec.Handling permit own action) : discipline.Does action fun _ => True := by
  induction handling with
  | pure => exact .pure trivial
  | bind _ _ first rest => exact first.thenAny rest
  | look _ _ rest => exact .get rest
  | fail => exact .fail _ _
  | failAt => exact .of_beside (.failAt _ _ _)
  | crash => exact .throw _
  | addObject object => exact .of_beside (.addObject object)
  | setObject _ object => exact .of_beside (.setObject _ object)
  | modifyObject _ change => exact .of_beside (.modifyObject _ change)
  | assignVariable _ name value => exact .assignVariable name value

/-- Everything that is done with values keeps the discipline. -/
theorem handles {α : Type} {action : Exec α} (handling : Exec.Handling (.all True) action action) :
    discipline.Does action fun _ => True := of_permitted handling

end Discipline.Gives

/-!
## The logic of a discipline
-/

/-- Between the brackets of a subscript or an array literal no variable of a list is looked for. -/
def Ground.closed : Ground :=
  { Ground.open with
    Path := fun window pos later => window.Skips pos later
    Inner := fun window pos later => window.Closes pos later
    path_refl := .refl
    path_trans := .trans
    path_one := fun found _ => .one found
    path_brackets := .brackets
    inner_bracket := .bracket
    inner_comma := fun found kind inner => inner.comma found kind
    inner_path := fun path inner => inner.skips path
    course_path := fun _ => trivial
    selection := fun inside found isSelection _ =>
      Ground.open.selection inside found isSelection trivial }

namespace Discipline

variable (discipline)

/-- The logic of a discipline looks at one engine only. What is known is which variables may be
declared. -/
def logic : Logic where
  toGround := .closed
  World := DeclScope → String → Prop
  Leads world after := world = after
  Knows _ _ := True
  Admits _ _ := True
  MayDeclare world target key := world target key
  lax := False
  leaves := Flow.isReturned
  Gives {_} leaving world _ right post := ∀ machine : Machine, discipline.Fits machine.stack →
    (∀ target key, world target key → discipline.Permits machine.stack target key) →
    discipline.Ends machine right fun value after =>
      discipline.Yields (leaving value) machine.stack after ∧ post world value
  leads_refl _ := rfl
  leads_trans := Eq.trans
  admits_free _ := trivial
  admits_mono _ _ := trivial
  mayDeclare_mono may same := same ▸ may
  mayDeclare_comma path comma listed key member :=
    listed key (Window.listed_subset_comma path comma key member)
  leaves_out {flow} away := by
    cases flow with
    | returned value => exact .inr ⟨value, rfl⟩
    | _ => cases away
  pure {_ leaving _ _ _} holds machine _ _ :=
    ⟨.of_keeps (discipline.refl machine.stack) _, holds _ rfl⟩
  follow first rest out machine fits permits := by
    refine Ends.follow (first machine fits permits) (fun value middle held goes keeps => ?_)
      fun value middle held away => ?_
    · exact rest _ value rfl held goes middle (discipline.fits fits keeps) fun target key may =>
        discipline.permits (permits target key may) keeps
    · obtain ⟨result, _, same, leaves, holds⟩ := out _ value rfl held away
      rw [same]
      exact ⟨result, middle, rfl, leaves, discipline.refl middle.stack, holds _ rfl⟩
  mono gives weaker machine fits permits := (gives machine fits permits).mono fun value _ ends =>
    ⟨ends.1, weaker _ value rfl ends.2⟩
  get _ rest machine fits permits := rest _ machine rfl trivial machine fits permits
  raise _ machine _ _ := discipline.refl machine.stack
  starved machine _ _ := discipline.refl machine.stack
  starve := False.elim
  macroValue name _ machine fits _ := Gives.handles (.macroValue rfl (.inl rfl) trivial) machine fits
  variableValue _ machine fits _ := Gives.handles (.variableValue (.refl trivial)) machine fits
  element _ _ _ _ machine fits _ := Gives.handles (.element trivial _ _) machine fits
  newArray _ machine fits _ := Gives.handles (.newArray _) machine fits
  combine _ _ _ _ machine fits _ := Gives.handles (.combine trivial _ _ _) machine fits
  line_known _ := trivial
  site_known _ _ := ⟨fun _ _ => trivial, trivial⟩
  site_missing _ _ _ _ _ _ := .fault _ _
  loop_known _ _ := ⟨fun _ _ => trivial, trivial, trivial⟩
  loop_missing _ _ _ _ _ := .fault _ _
  members_admitted _ _ _ _ := trivial

/-- What is written by declarations and assignments is permitted. -/
theorem writes : discipline.logic.Writes where
  declaredValue _ _ _ _ machine fits _ := Gives.handles (.declaredValue (.refl trivial) _ _) machine fits
  declareVariable _ may _ _ fits permits :=
    Gives.declareVariable_ends fits (permits _ _ may) _ _
  setVariable _ _ _ machine fits _ := Gives.setVariable _ _ machine fits
  assignTo _ _ _ _ _ _ _ _ machine fits _ :=
    Gives.handles (.assignTo (.refl trivial) trivial (fun _ => trivial) trivial _ _ _) machine fits
  introduce _ _ machine fits _ := Gives.handles (.introduce (.refl trivial) trivial _) machine fits
  resize _ _ _ machine fits _ := Gives.handles (.resize (.refl trivial) trivial _ _) machine fits

variable {discipline}

/-- What goes along with the logic, whatever may be declared, keeps the discipline. -/
theorem Gives.of_logic {α : Type} {leaving : α → Bool} {left right : Exec α}
    {post : (DeclScope → String → Prop) → α → Prop} {other : α → Prop}
    (gives : discipline.logic.Gives leaving (fun _ _ => False) left right post)
    (weaker : ∀ value, post (fun _ _ => False) value → other value) :
    discipline.Gives leaving right other := fun machine fits =>
  (gives machine fits fun _ _ => False.elim).mono fun value _ ends =>
    ⟨ends.1, weaker value ends.2⟩

end Discipline

namespace Engine.Follows

variable (follows : low.Follows discipline)
include follows

/-- An engine that keeps a discipline goes along with its logic in what it evaluates. -/
theorem relates : discipline.logic.Relates low low where
  fuel := .inl rfl
  term _ window pos _ machine fits _ := (follows.term window pos machine fits).mono
    fun _ _ ends => ⟨ends.1, ends.2, trivial⟩
  value _ window pos _ machine fits _ := (follows.value window pos machine fits).mono
    fun _ _ ends => ⟨ends.1, ends.2, trivial⟩
  call _ _ _ _ _ machine fits _ := follows.call _ _ _ machine fits

/-- Reading a term keeps the discipline. -/
theorem evalTerm (pos : Nat) :
    discipline.Does (low.evalTerm window pos) fun result => window.Skips pos result.2 :=
  .of_logic (follows.relates.evalTerm trivial pos) fun _ read => read.1

/-- Evaluating an expression keeps the discipline. -/
theorem evalValue (pos : Nat) :
    discipline.Does (low.evalValue window pos) fun result => window.Skips pos result.2 :=
  .of_logic (follows.relates.evalValue trivial pos) fun _ read => read.1

/-- Binding parameters keeps the discipline. -/
theorem bindParams (function : UserFunction) (line : Nat) (params : List Param)
    (args : List Value) :
    discipline.Does (low.bindParams function line params args) fun _ => True :=
  .of_logic (follows.relates.bindParams discipline.writes function trivial (fun _ _ _ _ => trivial)
    fun _ _ => trivial) fun _ _ => trivial

/-- Running a block keeps the discipline. -/
theorem runBlock (code : Window) (bindings : List (String × Value)) :
    discipline.Gives Flow.isReturned (low.runBlock code bindings) fun _ => True := by
  intro machine fits
  have inside := follows.runScope
    { machine with stack := machine.stack.push (blockScope code bindings) }
    (discipline.push fits (blockScope code bindings))
  unfold Ends at *
  rw [runBlock_eq]
  cases outcome : low.runScope
      { machine with stack := machine.stack.push (blockScope code bindings) } with
  | ok flow after =>
    rw [outcome] at inside
    obtain ⟨yields, _⟩ := inside
    refine ⟨?_, trivial⟩
    cases away : flow.isReturned with
    | true =>
      rw [away] at yields
      exact discipline.block_leaves fits rfl yields
    | false =>
      rw [away] at yields
      exact discipline.block fits rfl yields
  | error stop after =>
    rw [outcome] at inside
    exact discipline.block fits rfl inside

/-- It does so in the blocks that it runs. -/
theorem runs : discipline.logic.Runs low low where
  toRelates := follows.relates
  block _ _ machine fits _ := (follows.runBlock _ _ machine fits).mono
    fun _ _ ends => ⟨ends.1, fun _ _ => trivial⟩

/-- A statement whose declarations are permitted keeps the discipline. -/
theorem statement {pos : Nat} {machine : Machine} (fits : discipline.Fits machine.stack)
    (permits : ∀ target key, window.Declares pos target key →
      discipline.Permits machine.stack target key) :
    discipline.Ends machine (low.statement window pos) fun result after =>
      discipline.Yields result.1.isReturned machine.stack after ∧ True :=
  have ran : discipline.logic.Gives (fun result => result.1.isReturned)
      (discipline.Permits machine.stack) (low.statement window pos) (low.statement window pos)
      (discipline.logic.Ran window pos) :=
    follows.runs.statement discipline.writes trivial permits
  (ran machine fits fun _ _ may => may).mono fun _ _ ends => ⟨ends.1, trivial⟩

end Engine.Follows

end LineScript
