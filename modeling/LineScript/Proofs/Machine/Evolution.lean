import LineScript.Interpreter.Statement
import LineScript.Machine.Variables
import LineScript.Proofs.Outcome

/-!
# How running a script changes a machine

Whatever a script does, its machine changes by a few kinds of steps: something beside the scopes
changes, a variable is written, a register is set, the innermost scope moves on, or a new scope is
put on the stack, run and taken off again. `Machine.Evolves` holds between two machines when such
steps lead from one to the other, and what every run keeps is proved once, from the steps.
-/

namespace LineScript

/-- Where a scope stands: what it belongs to, the tokens it runs and its position in them. -/
def Scope.place (scope : Scope) : ScopeKind × Window × Nat := (scope.kind, scope.code, scope.pos)

namespace Stack

/-- Where all scopes stand, innermost first. -/
def places (stack : Stack) : List (ScopeKind × Window × Nat) := stack.scopes.map Scope.place

/-- Where all scopes stand, except for the position of the innermost one. -/
def outline (stack : Stack) : List (ScopeKind × Window × Nat) :=
  stack.places.modifyHead fun place => (place.1, place.2.1, 0)

/-- A pushed scope puts its place in front. -/
@[simp] theorem places_push (stack : Stack) (scope : Scope) :
    (stack.push scope).places = scope.place :: stack.places := rfl

/-- The places of a stack start with that of its innermost scope. -/
theorem places_head (stack : Stack) : ∃ below, stack.places = stack.top.place :: below := by
  rcases stack with ⟨_ | ⟨scope, rest⟩, root⟩
  · exact ⟨[], rfl⟩
  · exact ⟨(rest ++ [root]).map Scope.place, rfl⟩

/-- Scopes that stand where they stood have their innermost one where it stood. -/
theorem top_place_of_places {stack other : Stack} (same : other.places = stack.places) :
    other.top.place = stack.top.place := by
  obtain ⟨_, first⟩ := stack.places_head
  obtain ⟨_, second⟩ := other.places_head
  rw [first, second] at same
  exact (List.cons.inj same).1

/-- Changing the innermost scope changes what is innermost. -/
theorem top_modifyTop (stack : Stack) (change : Scope → Scope) :
    (stack.modifyTop change).top = change stack.top := by
  rcases stack with ⟨_ | ⟨scope, rest⟩, root⟩ <;> rfl

/-- Changing the innermost scope is changing the scope at position zero. -/
theorem modifyTop_eq_modifyAt (stack : Stack) (change : Scope → Scope) :
    stack.modifyTop change = stack.modifyAt 0 change := by
  rcases stack with ⟨_ | ⟨scope, rest⟩, root⟩ <;> rfl

/-- A change of one scope that a view does not show is not seen in the views of all scopes. -/
theorem map_scopes_modifyAt {View : Type} (view : Scope → View) (stack : Stack) (position : Nat)
    (change : Scope → Scope) (stays : ∀ scope, view (change scope) = view scope) :
    (stack.modifyAt position change).scopes.map view = stack.scopes.map view := by
  unfold modifyAt
  split
  · have inner : ∀ (scopes : List Scope) (position : Nat),
        (scopes.modify position change).map view = scopes.map view := by
      intro scopes
      induction scopes with
      | nil => intro position; simp
      | cons scope rest ih =>
        intro position
        cases position with
        | zero => simp [stays]
        | succ position => simp [ih]
    simp [scopes, inner]
  · simp [scopes, stays]

/-- A change of one scope that leaves it where it is leaves all scopes where they are. -/
theorem places_modifyAt (stack : Stack) (position : Nat) (change : Scope → Scope)
    (stays : ∀ scope, (change scope).place = scope.place) :
    (stack.modifyAt position change).places = stack.places :=
  map_scopes_modifyAt Scope.place stack position change stays

/-- A change that keeps the place of a scope keeps the outline. -/
theorem outline_modifyAt (stack : Stack) (position : Nat) (change : Scope → Scope)
    (stays : ∀ scope, (change scope).place = scope.place) :
    (stack.modifyAt position change).outline = stack.outline := by
  rw [outline, places_modifyAt stack position change stays, outline]

/-- Moving the cursor keeps the outline. -/
theorem outline_modifyTop_pos (stack : Stack) (pos : Nat) :
    (stack.modifyTop fun scope => { scope with pos }).outline = stack.outline := by
  rcases stack with ⟨_ | ⟨scope, rest⟩, root⟩ <;> rfl

/-- The outline of a stack starts with its innermost scope. -/
theorem outline_head (stack : Stack) :
    ∃ below, stack.outline = (stack.top.kind, stack.top.code, 0) :: below := by
  obtain ⟨below, head⟩ := stack.places_head
  exact ⟨below, by simp [outline, head, Scope.place]⟩

/-- Equal outlines have the same innermost code. -/
theorem top_code_of_outline {stack other : Stack} (same : other.outline = stack.outline) :
    other.top.code = stack.top.code := by
  obtain ⟨_, first⟩ := stack.outline_head
  obtain ⟨_, second⟩ := other.outline_head
  rw [first, second] at same
  simp only [List.cons.injEq, Prod.mk.injEq] at same
  exact same.1.2.1

/-- Equal outlines have the same innermost kind. -/
theorem top_kind_of_outline {stack other : Stack} (same : other.outline = stack.outline) :
    other.top.kind = stack.top.kind := by
  obtain ⟨_, first⟩ := stack.outline_head
  obtain ⟨_, second⟩ := other.outline_head
  rw [first, second] at same
  simp only [List.cons.injEq, Prod.mk.injEq] at same
  exact same.1.1

/-- A scope of a popped stack was one before. -/
theorem mem_scopes_pop {stack : Stack} {scope : Scope} (member : scope ∈ stack.pop.scopes) :
    scope ∈ stack.scopes := by
  rcases List.mem_append.mp member with inner | root
  · exact List.mem_append_left _ (List.mem_of_mem_tail inner)
  · exact List.mem_append_right _ root

/-- The innermost scope is one of the scopes. -/
theorem top_mem_scopes (stack : Stack) : stack.top ∈ stack.scopes := by
  rcases stack with ⟨_ | ⟨scope, rest⟩, root⟩
  · exact List.mem_cons_self
  · exact List.mem_cons_self

/-- The variables of all scopes, innermost first. -/
def tables (stack : Stack) : List Variables := stack.scopes.map Scope.vars

/-- A change of one scope that leaves its variables alone leaves all variables alone. -/
theorem tables_modifyAt (stack : Stack) (position : Nat) (change : Scope → Scope)
    (stays : ∀ scope, (change scope).vars = scope.vars) :
    (stack.modifyAt position change).tables = stack.tables :=
  map_scopes_modifyAt Scope.vars stack position change stays

/-- Once the scope that was put on a stack is taken off, every scope stands where it stood. -/
theorem places_pop_of_outline {stack after : Stack} {scope : Scope}
    (same : after.outline = (stack.push scope).outline) : after.pop.places = stack.places := by
  obtain ⟨inner, root⟩ := after
  cases inner with
  | nil =>
    have lengths := congrArg List.length same
    simp [outline, places, scopes, push] at lengths
  | cons first rest =>
    simp only [outline, places_push, List.modifyHead_cons] at same
    simp only [places, scopes, List.cons_append, List.map_cons, List.modifyHead_cons,
      List.cons.injEq] at same
    simpa [places, scopes, pop] using same.2

/-- A plain assignment writes inside the running function or to the script. -/
theorem assignPosition_reach (stack : Stack) (key : String) :
    stack.assignPosition key ≤ stack.framePosition ∨
      stack.assignPosition key = stack.inner.length := by
  have inFrame : ∀ (scopes : List Scope) (position : Nat),
      positionInFrame? key scopes = some position → position ≤ scopes.findIdx Scope.isFrame := by
    intro scopes
    induction scopes with
    | nil => intro position found; simp [positionInFrame?] at found
    | cons scope rest ih =>
      intro position found
      simp only [positionInFrame?] at found
      split at found
      · simp only [Option.some.injEq] at found
        omega
      · split at found
        · simp at found
        · rename_i notFrame
          simp only [Option.map_eq_some_iff] at found
          obtain ⟨later, foundLater, rfl⟩ := found
          have := ih later foundLater
          simp only [List.findIdx_cons, notFrame, cond_false]
          omega
  unfold assignPosition
  split
  · rename_i position found
    exact Or.inl (inFrame stack.inner position found)
  · split
    · exact Or.inr rfl
    · exact Or.inl (Nat.zero_le _)

/-- A declaration writes inside the running function or to the script. -/
theorem declPosition_reach (stack : Stack) (scope : DeclScope) :
    stack.declPosition scope ≤ stack.framePosition ∨
      stack.declPosition scope = stack.inner.length := by
  cases scope with
  | inner => exact Or.inl (Nat.zero_le _)
  | static => exact Or.inl (Nat.le_refl _)
  | global => exact Or.inr rfl

end Stack

namespace Machine

/-- The changes that running a script makes to a machine. -/
inductive Evolves : Machine → Machine → Prop where
  /-- Nothing changes. -/
  | refl (machine : Machine) : Evolves machine machine
  /-- One change follows another. -/
  | trans {first second third : Machine} (earlier : Evolves first second)
      (later : Evolves second third) : Evolves first third
  /-- Something beside the scopes changes: the heap, the host, the output, the line, the way the
  script ends. Whether the machine is running and what is still to be prepared stays. -/
  | aside {before after : Machine} (stack : after.stack = before.stack)
      (program : after.program = before.program)
      (callDepth : after.callDepth = before.callDepth)
      (status : after.running = before.running ∧ after.pending = before.pending := by
        exact ⟨rfl, rfl⟩) : Evolves before after
  /-- A variable that is not constant is written, in the running function or in the script. -/
  | write (machine : Machine) (position : Nat) (key : String) (variable' : Variable)
      (reach : position ≤ machine.stack.framePosition ∨ position = machine.stack.inner.length)
      (free : ∀ held, (machine.stack.scopeAt position).vars.get? key = some held →
        held.constant = false) :
      Evolves machine
        { machine with
          stack := machine.stack.modifyAt position fun scope =>
            { scope with vars := scope.vars.insert key variable' } }
  /-- Registers of the running function are set. -/
  | registers (machine : Machine) (change : Registers → Registers) :
      Evolves machine
        { machine with
          stack := machine.stack.modifyFrame fun scope =>
            { scope with registers := change scope.registers } }
  /-- The innermost scope moves to another position. -/
  | move (machine : Machine) (pos : Nat) :
      Evolves machine
        { machine with stack := machine.stack.modifyTop fun scope => { scope with pos } }
  /-- A block is run in a scope of its own. -/
  | block {before after : Machine} (scope : Scope) (isBlock : scope.kind = .block)
      (inside : Evolves { before with stack := before.stack.push scope } after) :
      Evolves before { after with stack := after.stack.pop }
  /-- A function is run in a scope of its own, as one call more. -/
  | call {before after : Machine} (scope : Scope) (name : String)
      (isCall : scope.kind = .function name) (room : before.callDepth < maxCallDepth)
      (inside : Evolves
        { before with stack := before.stack.push scope, callDepth := before.callDepth + 1 } after) :
      Evolves before
        { after with stack := after.stack.pop, callDepth := after.callDepth - 1 }

namespace Evolves

/-- No run changes the program. -/
theorem program_eq {before after : Machine} (evolves : before.Evolves after) :
    after.program = before.program := by
  induction evolves with
  | refl => rfl
  | trans _ _ earlier later => rw [later, earlier]
  | aside _ program _ => exact program
  | write | registers | move => rfl
  | block _ _ _ inside => exact inside
  | call _ _ _ _ _ inside => exact inside

/-- Scopes keep their kinds and code, and those below the innermost one their positions. -/
theorem outline_eq {before after : Machine} (evolves : before.Evolves after) :
    after.stack.outline = before.stack.outline := by
  induction evolves with
  | refl => rfl
  | trans _ _ earlier later => rw [later, earlier]
  | aside stack _ _ => rw [stack]
  | write machine position => exact Stack.outline_modifyAt _ _ _ fun _ => rfl
  | registers machine change => exact Stack.outline_modifyAt _ _ _ fun _ => rfl
  | move machine pos => exact Stack.outline_modifyTop_pos _ _
  | block scope _ _ inside => simp only [Stack.outline, Stack.places_pop_of_outline inside]
  | call scope _ _ _ _ inside => simp only [Stack.outline, Stack.places_pop_of_outline inside]

/-- No run starts or stops the machine, or prepares a script. -/
theorem status_eq {before after : Machine} (evolves : before.Evolves after) :
    after.running = before.running ∧ after.pending = before.pending := by
  induction evolves with
  | refl => exact ⟨rfl, rfl⟩
  | trans _ _ earlier later => exact ⟨later.1.trans earlier.1, later.2.trans earlier.2⟩
  | aside _ _ _ status => exact status
  | write | registers | move => exact ⟨rfl, rfl⟩
  | block _ _ _ inside => exact inside
  | call _ _ _ _ _ inside => exact inside

/-- Every call that was entered is left again. -/
theorem callDepth_eq {before after : Machine} (evolves : before.Evolves after) :
    after.callDepth = before.callDepth := by
  induction evolves with
  | refl => rfl
  | trans _ _ earlier later => rw [later, earlier]
  | aside _ _ callDepth => exact callDepth
  | write | registers | move => rfl
  | block _ _ _ inside => exact inside
  | call _ _ _ _ _ inside => simp only [inside, Nat.add_sub_cancel]

/-- The innermost scope keeps its code. -/
theorem top_code {before after : Machine} (evolves : before.Evolves after) :
    after.stack.top.code = before.stack.top.code :=
  Stack.top_code_of_outline evolves.outline_eq

/-- The innermost scope keeps its kind. -/
theorem top_kind {before after : Machine} (evolves : before.Evolves after) :
    after.stack.top.kind = before.stack.top.kind :=
  Stack.top_kind_of_outline evolves.outline_eq

end Evolves

end Machine

/-!
## Scopes by their height

Positions of scopes are counted from the innermost one, so they change when a scope is put on. The
height of a scope is counted from the script's scope at the bottom and stays with the scope for as
long as it is there.
-/

namespace Stack

/-- The scope at a height; the script's is at height zero. -/
def atHeight? (stack : Stack) (height : Nat) : Option Scope :=
  (stack.root :: stack.inner.reverse)[height]?

/-- The height of the scope at a position. -/
def heightOf (stack : Stack) (position : Nat) : Nat := stack.inner.length - position

/-- The height of the innermost frame. -/
def frameHeight (stack : Stack) : Nat := stack.heightOf stack.framePosition

/-- There is a scope at a height exactly when the height is below the depth. -/
theorem atHeight?_isSome {stack : Stack} {height : Nat} :
    (stack.atHeight? height).isSome ↔ height < stack.depth := by
  simp [atHeight?, depth]

/-- A height at which a scope is found is below the depth. -/
theorem atHeight?_lt {stack : Stack} {height : Nat} {scope : Scope}
    (found : stack.atHeight? height = some scope) : height < stack.depth :=
  atHeight?_isSome.mp (by rw [found]; rfl)

/-- The root scope stands at height zero. -/
@[simp] theorem atHeight?_zero (stack : Stack) : stack.atHeight? 0 = some stack.root := rfl

/-- A scope that is put on leaves the others at their heights. -/
theorem atHeight?_push (stack : Stack) (scope : Scope) {height : Nat} (below : height < stack.depth) :
    (stack.push scope).atHeight? height = stack.atHeight? height := by
  have inside : height < (stack.root :: stack.inner.reverse).length := by simpa [depth] using below
  simp only [atHeight?, push, List.reverse_cons]
  rw [← List.cons_append, List.getElem?_append_left inside]

/-- The scope that is put on stands above all others. -/
theorem atHeight?_push_top (stack : Stack) (scope : Scope) :
    (stack.push scope).atHeight? stack.depth = some scope := by
  simp only [atHeight?, push, List.reverse_cons, depth]
  rw [← List.cons_append, List.getElem?_append_right (by simp)]
  simp

/-- A scope that is taken off leaves the others at their heights. -/
theorem atHeight?_pop (stack : Stack) {height : Nat} (below : height < stack.depth - 1) :
    stack.pop.atHeight? height = stack.atHeight? height := by
  obtain ⟨_ | ⟨scope, rest⟩, root⟩ := stack
  · rfl
  · exact (atHeight?_push ⟨rest, root⟩ scope (by simpa [depth] using below)).symm

/-- The innermost scope stands above all others. -/
theorem atHeight?_top (stack : Stack) :
    stack.atHeight? stack.inner.length = some stack.top := by
  obtain ⟨_ | ⟨scope, rest⟩, root⟩ := stack
  · rfl
  · exact atHeight?_push_top ⟨rest, root⟩ scope

/-- Changing the scope at a position changes the one at its height. -/
theorem atHeight?_modifyAt (stack : Stack) (position : Nat) (change : Scope → Scope) (height : Nat) :
    (stack.modifyAt position change).atHeight? height =
      if height = stack.heightOf position then (stack.atHeight? height).map change
      else stack.atHeight? height := by
  unfold modifyAt heightOf atHeight?
  by_cases inside : position < stack.inner.length
  · rw [if_pos inside]
    cases height with
    | zero => simp [show ¬ 0 = stack.inner.length - position by omega]
    | succ height =>
      simp only [List.getElem?_cons_succ]
      by_cases bound : height < stack.inner.length
      · rw [List.getElem?_reverse (by simpa using bound), List.getElem?_reverse bound,
          List.getElem?_modify, List.length_modify]
        split
        · rw [if_pos (by omega)]
          rfl
        · rw [if_neg (by omega)]
          simp
      · rw [List.getElem?_eq_none (by simpa using Nat.le_of_not_lt bound),
          List.getElem?_eq_none (by simpa using Nat.le_of_not_lt bound)]
        simp
  · rw [if_neg inside]
    have bottom : stack.inner.length - position = 0 := by omega
    cases height with
    | zero => simp [bottom]
    | succ height => simp [bottom]

/-- The scope at a position stands at the height of the position. -/
theorem scopeAt_eq (stack : Stack) (position : Nat) :
    stack.atHeight? (stack.heightOf position) = some (stack.scopeAt position) := by
  unfold heightOf scopeAt atHeight?
  by_cases inside : position < stack.inner.length
  · obtain ⟨height, is⟩ : ∃ height, stack.inner.length - position = height + 1 :=
      ⟨stack.inner.length - position - 1, by omega⟩
    have back : stack.inner.length - 1 - height = position := by omega
    rw [is, List.getElem?_cons_succ, List.getElem?_reverse (by omega), back,
      List.getElem?_eq_getElem inside, Option.getD_some]
  · rw [List.getElem?_eq_none (Nat.le_of_not_lt inside), Option.getD_none,
      show stack.inner.length - position = 0 by omega, List.getElem?_cons_zero]

/-- The innermost frame is the scope at its height. -/
theorem atHeight?_frameHeight (stack : Stack) :
    stack.atHeight? stack.frameHeight = some stack.frame := stack.scopeAt_eq _

end Stack

namespace Machine.Evolves

/-- There are as many scopes as before. -/
theorem depth_eq {before after : Machine} (evolves : before.Evolves after) :
    after.stack.depth = before.stack.depth := by
  have lengths := congrArg List.length evolves.outline_eq
  simpa [Stack.outline, Stack.places, Stack.scopes, Stack.depth] using lengths

/-- What relates each scope to what becomes of it, whichever change a run makes: each scope is still
at its height, and the relation holds if it holds for each kind of change of one scope. -/
theorem atHeight {Keeps : Scope → Scope → Prop} (refl : ∀ scope, Keeps scope scope)
    (trans : ∀ {first second third}, Keeps first second → Keeps second third → Keeps first third)
    (write : ∀ (scope : Scope) (key : String) (variable' : Variable),
      (∀ held, scope.vars.get? key = some held → held.constant = false) →
      Keeps scope { scope with vars := scope.vars.insert key variable' })
    (registers : ∀ (scope : Scope) (change : Registers → Registers),
      Keeps scope { scope with registers := change scope.registers })
    (move : ∀ (scope : Scope) (pos : Nat), Keeps scope { scope with pos })
    {before after : Machine} (evolves : before.Evolves after) {height : Nat} {scope : Scope}
    (found : before.stack.atHeight? height = some scope) :
    ∃ later, after.stack.atHeight? height = some later ∧ Keeps scope later := by
  have changed : ∀ (stack : Stack) (position : Nat) (change : Scope → Scope),
      Keeps (stack.scopeAt position) (change (stack.scopeAt position)) →
      ∀ {height scope}, stack.atHeight? height = some scope →
        ∃ later, (stack.modifyAt position change).atHeight? height = some later ∧
          Keeps scope later := by
    intro stack position change keeps height scope found
    rw [Stack.atHeight?_modifyAt]
    split
    · rename_i same
      rw [same, stack.scopeAt_eq] at found
      cases found
      rw [same, stack.scopeAt_eq]
      exact ⟨_, rfl, keeps⟩
    · exact ⟨scope, found, refl scope⟩
  induction evolves generalizing scope with
  | refl => exact ⟨scope, found, refl scope⟩
  | trans _ _ earlier later =>
    obtain ⟨middle, foundMiddle, keeps⟩ := earlier found
    obtain ⟨last, foundLast, keepsLast⟩ := later foundMiddle
    exact ⟨last, foundLast, trans keeps keepsLast⟩
  | aside stack =>
    rw [stack]
    exact ⟨scope, found, refl scope⟩
  | write machine position key variable' _ free =>
    exact changed _ position _ (write _ key variable' free) found
  | registers machine change => exact changed _ _ _ (registers _ change) found
  | move machine pos =>
    simp only [Stack.modifyTop_eq_modifyAt]
    exact changed _ 0 _ (move _ pos) found
  | @block before after pushed _ inside ih | @call before after pushed _ _ _ inside ih =>
    have below := Stack.atHeight?_lt found
    have deep : after.stack.depth = before.stack.depth + 1 := inside.depth_eq
    obtain ⟨later, foundLater, keeps⟩ := ih ((Stack.atHeight?_push _ pushed below).trans found)
    refine ⟨later, ?_, keeps⟩
    show after.stack.pop.atHeight? height = some later
    rw [Stack.atHeight?_pop _ (by omega)]
    exact foundLater

end Machine.Evolves

/-!
## Pieces of the engine

Some of the engine's functions do one thing in several of their cases, or go on in one way behind
several of them. What is said of such a function is said of that piece first, so it has a name here.
-/

namespace Engine

variable (low : Engine)

/-- The term behind a sign, with what the sign makes of its value. -/
def signed (window : Window) (pos : Nat) (change : Value → Value) : Exec (Value × Nat) := do
  let (operand, pos) ← low.term window pos
  return (change operand, pos)

/-- Behind an operator: what it makes of the next term is merged with what follows. -/
def joined (window : Window) (fuel pos : Nat) (result : Value → Exec Value) :
    Exec (Value × Nat) := do
  let (right, pos) ← low.term window (pos + 1)
  low.merge window fuel pos (← result right)

/-- Behind an item of a clause: the items behind a comma, or else the end of the header. -/
def moreItems (header : Window) (fuel pos : Nat) (items : List CaseItem) :
    Exec (List CaseItem) :=
  match header.token? pos with
  | none => return items
  | some token =>
    if token.kind = .separator then low.caseItemsFrom header fuel (pos + 1) items
    else Exec.failAt header pos (.inCase token.display)

/-- Whether a clause is chosen for a value: a last resort always is, any other when an item fits. -/
def isChosen (subject : Value) : Option (List CaseItem) → Bool
  | none => true
  | some items => items.any (CaseItem.fits subject)

/-- A step over the statement in front of the position. -/
def stepStatement : Exec StepResult := do
  let scope ← topScope
  moveTo (scope.pos - 1)
  let (flow, pos) ← low.statement scope.code (scope.pos - 1)
  moveTo pos
  if flow = .normal then
    expectLineEnd
    return .goOn
  else return .leave flow

/-- What a scope does once it was found not to be suspended: something as its next statement begins,
the statement, and what comes after that. -/
def awake (begins : Exec Unit) (again : Exec Flow) : Exec Flow := do
  if (← get).exitRequested then return .exit
  else
    begins
    match ← low.step with
    | .goOn => again
    | .ended => return .normal
    | .leave flow =>
      if (← topScope).isFrame && needsSurroundings flow then
        Exec.fail (.flowOutside flow.trace) (← Exec.currentLine)
      else return flow

end Engine

end LineScript
