import LineScript.Interpreter.Statement
import LineScript.Proofs.Congruence.Relation
import LineScript.Proofs.Custody.Objects
import LineScript.Proofs.Run.Control

/-!
# Pairs of engines keep values in custody

Two engines that end alike in custody evaluate expressions and run statements alike, and the values
are admitted. A block starts with the variables that are bound in it, so their values have to be
admitted; those of a loop over an array are its elements. When its scope is taken off, what the others
keep may still be relied on.
-/

namespace LineScript

open Machine

namespace Custody

/-- The value of a term or expression is admitted. -/
def AdmitsFirst (c : Custody) (count : Nat) (result : Value × Nat) : Prop := c.Admits count result.1

/-- The value with which control leaves is admitted. -/
def AdmitsFlow (c : Custody) (count : Nat) : Flow → Prop
  | .returned value => c.Admits count value
  | _ => True

/-- Two engines end alike in custody, whatever is asked of them. -/
structure Pairs (c : Custody) (left right : Engine) : Prop where
  /-- Something needs fuel. -/
  hungry : ¬ c.full
  /-- Loops may make as many rounds, or more on the right. -/
  fuel : left.fuel = right.fuel ∨ c.lax ∧ left.fuel ≤ right.fuel
  /-- Terms. -/
  term : ∀ count window pos,
    c.Does count (left.term window pos) (right.term window pos) c.AdmitsFirst
  /-- Expressions. -/
  value : ∀ count window pos,
    c.Does count (left.value window pos) (right.value window pos) c.AdmitsFirst
  /-- Calls with admitted arguments. -/
  call : ∀ count name args line, (∀ value ∈ args, c.Admits count value) →
    c.Does count (left.call name args line) (right.call name args line) c.Admits
  /-- Scopes. -/
  runScope : ∀ count, c.Does count left.runScope right.runScope c.AdmitsFlow

variable {c : Custody} {count : Nat} {left right : Engine} {machine : Machine}

/-- The value with which control leaves stays admitted as the heap grows. -/
theorem AdmitsFlow.mono {flow : Flow} {more : Nat} (admits : c.AdmitsFlow count flow)
    (grows : count ≤ more) : c.AdmitsFlow more flow := by
  cases flow with
  | returned value => exact Admits.mono admits grows
  | _ => trivial

/-- So it is where every returned value is. -/
theorem admitsFlow_iff {flow : Flow} :
    c.AdmitsFlow count flow ↔ ∀ value, flow = .returned value → c.Admits count value := by
  cases flow with
  | returned value => exact ⟨fun admits _ same => Flow.returned.inj same ▸ admits, fun all => all _ rfl⟩
  | _ => exact ⟨fun _ => nofun, fun _ => trivial⟩

/-- A scope with admitted values is put on. -/
theorem Keeps.push (keeps : c.Keeps machine) {scope : Scope}
    (good : scope.Holds (c.Admits machine.heap.slots.size)) :
    c.Keeps { machine with stack := machine.stack.push scope } := by
  refine ⟨⟨fun other member => ?_, keeps.holds.objects⟩, keeps.grown⟩
  rcases List.mem_cons.mp member with rfl | rest
  · exact good
  · exact keeps.holds.scopes other rest

/-- The innermost scope is taken off. -/
theorem Keeps.pop (keeps : c.Keeps machine) :
    c.Keeps { machine with stack := machine.stack.pop } :=
  ⟨⟨fun scope member => keeps.holds.scopes scope (Stack.mem_scopes_pop member),
    keeps.holds.objects⟩, keeps.grown⟩

/-- A scope of admitted bindings. -/
theorem blockScope_holds (code : Window) {bindings : List (String × Value)}
    (good : ∀ binding ∈ bindings, c.Admits count binding.2) :
    (Engine.blockScope code bindings).Holds (c.Admits count) := by
  refine ⟨?_, fun _ => trivial⟩
  have bound : ∀ (bindings : List (String × Value)) (vars : Variables),
      (∀ binding ∈ bindings, c.Admits count binding.2) →
      (∀ entry ∈ vars, c.Admits count entry.2.value) →
      ∀ entry ∈ bindings.foldl (fun vars binding =>
        vars.insert (Text.lower binding.1) ⟨binding.2, false⟩) vars,
        c.Admits count entry.2.value := by
    intro bindings
    induction bindings with
    | nil => exact fun _ _ held => held
    | cons binding bindings ih =>
      intro vars good held
      refine ih _ (fun other member => good other (List.mem_cons_of_mem _ member))
        fun entry member => ?_
      rcases Variables.mem_insert member with old | rfl
      · exact held entry old
      · exact good binding List.mem_cons_self
  exact bound bindings [] good (by simp)

/-- The members of a collection. -/
theorem admits_members (keeps : c.Keeps machine) {collection : Value}
    {members : List Value} (found : members? machine collection = some members) :
    ∀ member ∈ members, c.Admits machine.heap.slots.size member := by
  unfold members? at found
  split at found
  · rename_i items object
    cases found
    exact fun member among => keeps.itemsOf object member (Array.mem_toList_iff.mp among)
  · cases found
    intro member among
    obtain ⟨key, _, rfl⟩ := List.mem_map.mp among
    exact fun _ => trivial
  · cases found

/-!
## The logic of a custody
-/

/-- Two actions that end alike in custody. What is known is how many objects were made. -/
def logic (c : Custody) (hungry : ¬ c.full) : Logic where
  toGround := .open
  World := Nat
  Leads count more := count ≤ more
  Knows count machine := c.Keeps machine ∧ count = machine.heap.slots.size
  Admits := c.Admits
  MayDeclare _ _ _ := True
  lax := c.lax
  leaves _ := false
  Gives _ count left right post := c.Does count left right post
  leads_refl := Nat.le_refl
  leads_trans := Nat.le_trans
  admits_free {count value} free _ := free.within count
  admits_mono admits grows := admits.mono grows
  mayDeclare_mono _ _ := trivial
  mayDeclare_comma _ _ _ _ _ := trivial
  leaves_out := Logic.out_of_never
  pure holds := .pure holds
  follow {_ _ leaving} _ _ _ _ _ _ _ _ first rest out := first.bind fun more value grows held => by
    cases away : leaving value with
    | false => exact rest more value grows held away
    | true =>
      obtain ⟨result, same, also, _, holds⟩ := out more value grows held away
      rw [same, also]
      exact .pure holds
  mono gives weaker machine keeps enough :=
    have ends := gives machine keeps enough
    { ends with
      returns := fun value after returned =>
        weaker _ value (Nat.le_trans enough (by
          have grown := ends.later.heap.size
          rw [returned] at grown
          exact grown)) (ends.returns value after returned) }
  get _ rest := .get fun machine keeps enough => rest _ machine enough ⟨keeps, rfl⟩
  raise _ := .fault _
  starved := .throw fun full => absurd full hungry
  starve lax gives := gives.starve lax
  macroValue name _ := .macroValue name _
  variableValue _ := .variableValue _
  element _ _ _ _ := .element _ _ _ _
  newArray good := .newArray good
  combine _ _ _ _ := .combine _ _ _ _
  line_known _ := trivial
  site_known _ _ := ⟨fun _ _ => trivial, trivial⟩
  site_missing _ _ _ _ _ _ := .fault _ _
  loop_known _ _ := ⟨fun _ _ => trivial, trivial, trivial⟩
  loop_missing _ _ _ _ _ := .fault _ _
  members_admitted known listed := by
    obtain ⟨keeps, rfl⟩ := known
    exact admits_members keeps listed

/-- Declarations and assignments keep the custody. -/
theorem writes (hungry : ¬ c.full) : (c.logic hungry).Writes where
  declaredValue _ _ _ good := Does.declaredValue _ _ good
  declareVariable _ _ admits := Does.declareVariable _ _ _ admits
  setVariable _ _ admits := Does.writeVariable _ _ _ admits
  assignTo _ _ _ _ _ _ _ admits := Does.assignTo _ _ _ _ _ admits
  introduce _ _ := Does.introduce _ _
  resize _ _ _ := Does.resize _ _ _

namespace Pairs

variable (pairs : c.Pairs left right)
include pairs

/-- Two engines that end alike in custody go together in its logic. -/
theorem relates : (c.logic pairs.hungry).Relates left right where
  fuel := pairs.fuel
  term count window pos _ :=
    (c.logic pairs.hungry).mono (pairs.term count window pos) fun _ _ _ admits => ⟨trivial, admits⟩
  value count window pos _ :=
    (c.logic pairs.hungry).mono (pairs.value count window pos) fun _ _ _ admits => ⟨trivial, admits⟩
  call _ _ _ _ good := pairs.call _ _ _ _ good

/-- Reading a term keeps the custody. -/
theorem evalTerm (window : Window) (pos : Nat) :
    c.Does count (left.evalTerm window pos) (right.evalTerm window pos) c.AdmitsFirst :=
  (c.logic pairs.hungry).mono (pairs.relates.evalTerm trivial pos) fun _ _ _ read => read.2

/-- Evaluating an expression keeps the custody. -/
theorem evalValue (window : Window) (pos : Nat) :
    c.Does count (left.evalValue window pos) (right.evalValue window pos) c.AdmitsFirst :=
  (c.logic pairs.hungry).mono (pairs.relates.evalValue trivial pos) fun _ _ _ read => read.2

/-- Making the call that a token stands for keeps the custody. -/
theorem callSite (window : Window) (pos id : Nat) :
    c.Does count (left.callSite window pos id) (right.callSite window pos id) c.Admits :=
  pairs.relates.callSite trivial fun _ _ _ _ => .fault _ _

/-- Binding parameters keeps the custody. -/
theorem bindParams (function : UserFunction) (line : Nat) (params : List Param)
    {args : List Value} (good : ∀ value ∈ args, c.Admits count value) :
    c.Does count (left.bindParams function line params args)
      (right.bindParams function line params args) fun _ _ => True :=
  pairs.relates.bindParams (writes pairs.hungry) function trivial (fun _ _ _ _ => trivial) good

/-- Running a block keeps the custody. -/
theorem runBlock (code : Window) {bindings : List (String × Value)}
    (good : ∀ binding ∈ bindings, c.Admits count binding.2) :
    c.Does count (left.runBlock code bindings) (right.runBlock code bindings) c.AdmitsFlow := by
  intro machine keeps enough
  have pushed := keeps.push (blockScope_holds code
    fun binding member => (good binding member).mono enough)
  obtain ⟨kept, later, same, returns, _⟩ := pairs.runScope _ _ pushed (Nat.le_refl _)
  unfold Ends
  rw [Engine.runBlock_eq, Engine.runBlock_eq]
  have popped : ∀ after : Machine,
      c.Later { machine with stack := machine.stack.push (Engine.blockScope code bindings) } after →
      c.Later machine { after with stack := after.stack.pop } :=
    fun after later => ⟨later.heap, fun awake => ⟨(later.awake ⟨awake.1, awake.2⟩).1,
      (later.awake ⟨awake.1, awake.2⟩).2⟩⟩
  cases outcome : right.runScope
      { machine with stack := machine.stack.push (Engine.blockScope code bindings) } with
  | ok flow after =>
    rw [outcome] at kept later same
    have reached := Reached.ok kept.pop (popped after later) (returns flow after outcome)
    rcases same with same | ⟨lax, starved, same, leads⟩
    · rw [same]
      exact reached
    · rw [same]
      exact reached.starve lax leads
  | error stop after =>
    rw [outcome] at kept later same
    have reached : c.Reached machine (.error stop { after with stack := after.stack.pop })
        (.error stop { after with stack := after.stack.pop }) c.AdmitsFlow :=
      .error kept.pop (popped after later) fun full => absurd full pairs.hungry
    rcases same with same | ⟨lax, starved, same, leads⟩
    · rw [same]
      exact reached
    · rw [same]
      exact reached.starve lax leads

/-- So they do in the blocks that they run. -/
theorem runs : (c.logic pairs.hungry).Runs left right where
  toRelates := pairs.relates
  block _ good := (c.logic pairs.hungry).mono (pairs.runBlock _ good) fun _ _ _ => admitsFlow_iff.mp

/-- A statement keeps the custody. -/
theorem statement (window : Window) (pos : Nat) :
    c.Does count (left.statement window pos) (right.statement window pos)
      fun more result => c.AdmitsFlow more result.1 :=
  (c.logic pairs.hungry).mono
    (pairs.runs.statement (writes pairs.hungry) trivial fun _ _ _ => trivial)
    fun _ _ _ ran => admitsFlow_iff.mpr ran.2

end Pairs

end Custody

end LineScript
