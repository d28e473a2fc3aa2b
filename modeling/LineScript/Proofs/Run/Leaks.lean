import LineScript.Proofs.Discipline.Engine
import LineScript.Proofs.Outcome
import LineScript.Proofs.Run.Constants

/-!
# Variables of a block stay in it

A block may write the variables around it, but a name that is new comes into the block's own scope,
and goes with it. Only a declaration reaches further out: one for the script, or one that the frame
keeps.
-/

namespace LineScript

open Machine

namespace Variables

/-- A write adds the name that is written, and no other. -/
theorem has_insert (vars : Variables) (key other : String) (variable' : Variable) :
    has (vars.insert key variable') other = (other == key || vars.has other) := by
  by_cases same : other = key
  · subst same
    simp [has, get?_insert_self]
  · simp [has, get?_insert_of_ne vars same, beq_eq_false_iff_ne.mpr same]

end Variables

/-- The name is not new. -/
def Scope.AddsNot (key : String) (before after : Scope) : Prop :=
  after.vars.has key = true → before.vars.has key = true

/-- No name is lost. -/
def Scope.KeepsNames (before after : Scope) : Prop :=
  ∀ key, before.vars.has key = true → after.vars.has key = true

/-- Every scope keeps its own names. -/
theorem Scope.KeepsNames.refl (scope : Scope) : scope.KeepsNames scope := fun _ has => has

/-- Keeping names is transitive. -/
theorem Scope.KeepsNames.trans {first second third : Scope} (earlier : first.KeepsNames second)
    (later : second.KeepsNames third) : first.KeepsNames third :=
  fun key has => later key (earlier key has)

namespace Stack

variable {stack : Stack} {height position : Nat} {key other : String}

/-- A plain assignment makes a variable in the innermost scope only. -/
theorem has_assignPosition (stack : Stack) (key : String) :
    stack.assignPosition key = 0 ∨
      (stack.scopeAt (stack.assignPosition key)).vars.has key = true := by
  have inFrame : ∀ (scopes : List Scope) (position : Nat),
      positionInFrame? key scopes = some position →
      ∃ scope, scopes[position]? = some scope ∧ scope.vars.has key = true := by
    intro scopes
    induction scopes with
    | nil => intro position found; cases found
    | cons scope rest ih =>
      intro position found
      simp only [positionInFrame?] at found
      split at found
      · rename_i has
        cases found
        exact ⟨scope, rfl, has⟩
      · split at found
        · cases found
        · obtain ⟨later, foundLater, rfl⟩ := Option.map_eq_some_iff.mp found
          exact ih later foundLater
  unfold assignPosition
  split
  · rename_i position found
    obtain ⟨scope, stored, has⟩ := inFrame stack.inner position found
    exact .inr (by rw [scopeAt, stored]; exact has)
  · split
    · rename_i has
      exact .inr (by rw [scopeAt, List.getElem?_eq_none (Nat.le_refl _)]; exact has)
    · exact .inl rfl

/-- A write at another height, or of another name, or of a name that is there, adds nothing. -/
theorem KeepsAt.write (quiet : stack.heightOf position = height →
      other = key → (stack.scopeAt position).vars.has key = true) (variable' : Variable) :
    KeepsAt height (Scope.AddsNot key) stack (stack.write position other variable') := by
  refine .modifyAt (fun _ has => has) (fun _ => rfl) fun same has => ?_
  rw [Variables.has_insert, Bool.or_eq_true, beq_iff_eq] at has
  obtain written | has := has
  · exact quiet same written.symm
  · exact has

/-- The innermost scope is above the others. -/
theorem heightOf_zero_ne (below : height + 1 < stack.depth) : stack.heightOf 0 ≠ height := by
  unfold heightOf
  unfold depth at below
  omega

end Stack

/-- The statement that begins declares a variable that goes to the scope at a height: the script's,
or the frame in which the statement stands. -/
def declaresAt (height : Nat) (key : String) : Occurrence → Machine → Bool
  | .statement, { stack, .. } =>
    (height == 0 && decide (stack.top.code.Declares stack.top.pos .global key)) ||
      (stack.frameHeight == height && decide (stack.top.code.Declares stack.top.pos .static key))
  | _, _ => false

/-- A name does not come into the scope at a height, which is not innermost. The run is stopped at
declarations that are for that scope; where none can be, because the scope is neither the script's
nor the frame, it is not stopped. -/
def Discipline.keepsName (height : Nat) (key : String) (reachable : Bool) : Discipline where
  stops occurrence machine := reachable && declaresAt height key occurrence machine
  Fits stack := height + 1 < stack.depth ∧
    (reachable = false → height ≠ 0 ∧ stack.frameHeight ≠ height)
  Keeps := Stack.KeepsAt height (Scope.AddsNot key)
  Leaves := Stack.KeepsAt height (Scope.AddsNot key)
  Permits stack target other := other = key →
    (target = .global → height ≠ 0) ∧ (target = .static → stack.frameHeight ≠ height)
  Serves _ _ _ := True
  refl := .refl fun _ has => has
  trans := .trans fun earlier later has => earlier (later has)
  leaves keeps := keeps
  leaves_after := .trans fun earlier later has => earlier (later has)
  leaves_before := .trans fun earlier later has => earlier (later has)
  fits fits keeps := by
    rw [Stack.depth_of_kinds keeps.kinds, Stack.frameHeight_of_kinds keeps.kinds]
    exact fits
  permits permits keeps := by
    rw [Stack.frameHeight_of_kinds keeps.kinds]
    exact permits
  write {stack position other} fits aims variable' := by
    refine Stack.KeepsAt.write (fun same written => ?_) variable'
    obtain rfl | rfl := aims
    · exact absurd same (Stack.heightOf_zero_ne fits.1)
    · obtain innermost | has := stack.has_assignPosition other
      · rw [innermost] at same
        exact absurd same (Stack.heightOf_zero_ne fits.1)
      · rw [← written]
        exact has
  declare {stack target other} fits permits variable' := by
    refine Stack.KeepsAt.write (fun same written => ?_) variable'
    obtain ⟨notGlobal, notStatic⟩ := permits written
    cases target with
    | inner => exact absurd same (Stack.heightOf_zero_ne fits.1)
    | static => exact absurd same (notStatic rfl)
    | global =>
      refine absurd ?_ (notGlobal rfl)
      rw [← same, Stack.declPosition, Stack.heightOf, Nat.sub_self]
  codes _ _ := .modifyAt (fun _ has => has) (fun _ => rfl) fun _ has => has
  returns _ _ := .modifyAt (fun _ has => has) (fun _ => rfl) fun _ has => has
  move stack pos := by
    rw [Stack.modifyTop_eq_modifyAt]
    exact .modifyAt (fun _ has => has) (fun _ => rfl) fun _ has => has
  serve {machine function args} _ _ := by
    have tame := function.tame_run args
    refine .of_view Scope.vars (Stack.Matches.of_outline (tame.evolves machine).outline_eq).kinds
      (tame.spares machine).tables ?_
    intro scope later same has
    rwa [same] at has
  push {stack} fits scope := by
    refine ⟨Nat.lt_succ_of_lt fits.1, fun closed => ⟨(fits.2 closed).1, ?_⟩⟩
    rw [Stack.frameHeight_push]
    split
    · exact Nat.ne_of_gt (Nat.lt_of_succ_lt fits.1)
    · exact (fits.2 closed).2
  block fits _ inside := inside.pop (Nat.lt_of_succ_lt fits.1)
  block_leaves fits _ inside := inside.pop (Nat.lt_of_succ_lt fits.1)
  call fits _ inside := inside.pop (Nat.lt_of_succ_lt fits.1)
  permits_statement {machine} fits passed := by
    rintro target _ declares rfl
    cases reachable with
    | false =>
      obtain ⟨notRoot, notFrame⟩ := fits.2 rfl
      exact ⟨fun _ => notRoot, fun _ => notFrame⟩
    | true =>
      simp only [declaresAt, Bool.true_and, Bool.or_eq_false_iff, Bool.and_eq_false_iff,
        beq_eq_false_iff_ne, decide_eq_false_iff_not] at passed
      refine ⟨?_, ?_⟩
      · rintro rfl
        exact passed.1.resolve_right fun none => none declares
      · rintro rfl
        exact passed.2.resolve_right fun none => none declares
  serves_library _ := trivial

/-- A block, watched: no scope around it gets the name. -/
theorem Discipline.keepsName_block {height : Nat} (key : String) (reachable : Bool)
    {machine : Machine} (below : height < machine.stack.depth)
    (closed : reachable = false → height ≠ 0 ∧ machine.stack.frameHeight ≠ height) (fuel : Nat)
    (code : Window) (bindings : List (String × Value)) :
    Stack.KeepsAt height (Scope.AddsNot key) machine.stack
      (((watchedEngine (keepsName height key reachable).watch fuel).runBlock code bindings).final
        machine).stack := by
  let scope := Engine.blockScope code bindings
  have fits : (keepsName height key reachable).Fits (machine.stack.push scope) := by
    refine ⟨Nat.succ_lt_succ below, fun unreachable => ⟨(closed unreachable).1, ?_⟩⟩
    rw [Stack.frameHeight_push]
    exact (closed unreachable).2
  have inside := (watchedEngine_follows (keepsName height key reachable) fuel).runScope
    { machine with stack := machine.stack.push scope } fits
  unfold Discipline.Ends at inside
  unfold Exec.final
  rw [Engine.runBlock_eq]
  cases outcome : (watchedEngine (keepsName height key reachable).watch fuel).runScope
      { machine with stack := machine.stack.push scope } with
  | ok flow after =>
    rw [outcome] at inside
    exact Stack.KeepsAt.pop below inside.1.leaves
  | error stop after =>
    rw [outcome] at inside
    exact Stack.KeepsAt.pop below inside

namespace Engine

variable {low : Engine}

/-- The engine that runs only scopes that are as they should be. -/
def runningOnly (low : Engine) (permitted : Scope → Bool) : Engine :=
  { low with
    runScope := fun machine =>
      if permitted machine.stack.top then low.runScope machine else Exec.starved machine }

/-- A block at its start that has these variables and no others. -/
def startsWith (names : List String) (scope : Scope) : Bool :=
  scope.kind == .block && scope.pos == scope.code.start && scope.vars.map Prod.fst == names

/-- The guarded engine runs a block as the engine does, when the block's scope is permitted. -/
theorem runningOnly_runBlock {permitted : Scope → Bool} (code : Window)
    (bindings : List (String × Value)) (starts : permitted (blockScope code bindings) = true) :
    (low.runningOnly permitted).runBlock code bindings = low.runBlock code bindings := by
  funext machine
  have same : (low.runningOnly permitted).runScope
      { machine with stack := machine.stack.push (blockScope code bindings) } =
      low.runScope { machine with stack := machine.stack.push (blockScope code bindings) } :=
    if_pos starts
  rw [runBlock_eq, runBlock_eq, same]

/-- A round begins with the variable of the loop alone. -/
theorem runningOnly_round (low : Engine) (loop : ForLoop) (index : Value) :
    (low.runningOnly (startsWith [Text.lower loop.index])).round loop index =
      low.round loop index := by
  unfold Engine.round
  rw [runningOnly_runBlock]
  simp [startsWith, blockScope, Scope.ofCode, Variables.insert]

/-- The guarded engine counts as the engine does. -/
theorem runningOnly_countFrom (low : Engine) (loop : ForLoop) (step : Option TokenBlock)
    (last : Float) (fuel : Nat) (index amount : Float) :
    (low.runningOnly (startsWith [Text.lower loop.index])).countFrom loop step last fuel index
      amount = low.countFrom loop step last fuel index amount := by
  induction fuel generalizing index amount with
  | zero => rfl
  | succ fuel ih =>
    unfold countFrom
    simp only [runningOnly_round, ih]
    rfl

/-- The guarded engine visits the members as the engine does. -/
theorem runningOnly_visitEach (low : Engine) (loop : ForLoop) (members : List Value) :
    (low.runningOnly (startsWith [Text.lower loop.index])).visitEach loop members =
      low.visitEach loop members := by
  induction members with
  | nil => rfl
  | cons member members ih =>
    unfold visitEach
    simp only [runningOnly_round, ih]

/-- The variables with which the rounds of the loop of a number begin. -/
def loopNames (machine : Machine) (id : Nat) : List String :=
  (machine.program.loops[id]?).toList.map fun loop => Text.lower loop.index

/-- The guarded engine runs a loop over an index as the engine does. -/
theorem runningOnly_forLoop (low : Engine) (token : Token) (id : Nat) (machine : Machine) :
    (low.runningOnly (startsWith (loopNames machine id))).forLoop token id machine =
      low.forLoop token id machine := by
  unfold forLoop
  simp only [Bind.bind, EStateM.bind, run_get]
  cases stored : machine.program.loops[id]? with
  | none => rfl
  | some loop =>
    have names : loopNames machine id = [Text.lower loop.index] := by simp [loopNames, stored]
    dsimp only
    cases loop.head with
    | range first last step =>
      unfold count
      simp only [names, runningOnly_countFrom]
      rfl
    | each collection =>
      simp only [names, runningOnly_visitEach]
      rfl

/-- The guarded engine repeats while a condition holds as the engine does. -/
theorem runningOnly_whileRounds (low : Engine) (condition body : Window) (fuel : Nat) :
    (low.runningOnly (startsWith [])).whileRounds condition body fuel =
      low.whileRounds condition body fuel := by
  induction fuel with
  | zero => rfl
  | succ fuel ih =>
    unfold whileRounds
    rw [runningOnly_runBlock body [] (by simp [startsWith, blockScope, Scope.ofCode])]
    simp only [ih]
    rfl

/-- The guarded engine repeats until a condition holds as the engine does. -/
theorem runningOnly_untilRounds (low : Engine) (condition body : Window) (fuel : Nat) :
    (low.runningOnly (startsWith [])).untilRounds condition body fuel =
      low.untilRounds condition body fuel := by
  induction fuel with
  | zero => rfl
  | succ fuel ih =>
    unfold untilRounds
    rw [runningOnly_runBlock body [] (by simp [startsWith, blockScope, Scope.ofCode])]
    simp only [ih]
    rfl

/-- The guarded engine runs a loop with its condition in front as the engine does. -/
theorem runningOnly_whileLoop (low : Engine) (window : Window) (opener : Token) (pos : Nat) :
    (low.runningOnly (startsWith [])).whileLoop window opener pos =
      low.whileLoop window opener pos := by
  unfold whileLoop
  simp only [runningOnly_whileRounds]
  rfl

/-- The guarded engine runs a loop with its condition behind as the engine does. -/
theorem runningOnly_doLoop (low : Engine) (window : Window) (opener : Token) (pos : Nat) :
    (low.runningOnly (startsWith [])).doLoop window opener pos =
      low.doLoop window opener pos := by
  unfold doLoop
  simp only [runningOnly_untilRounds]
  rfl

end Engine

namespace Machine

/-- No name of a scope is lost. -/
theorem Evolves.keepsNames {before after : Machine} (evolves : before.Evolves after) {height : Nat}
    {scope : Scope} (found : before.stack.atHeight? height = some scope) :
    ∃ later, after.stack.atHeight? height = some later ∧ scope.KeepsNames later := by
  have write : ∀ (scope : Scope) (key : String) (variable' : Variable),
      scope.KeepsNames { scope with vars := scope.vars.insert key variable' } := by
    intro scope key variable' name has
    rw [Variables.has_insert, has, Bool.or_true]
  exact evolves.atHeight Scope.KeepsNames.refl Scope.KeepsNames.trans
    (fun scope key variable' _ => write scope key variable') (fun scope _ => .refl scope)
    (fun scope _ => .refl scope) found

/-- Variables of a block stay in it. Whatever machine runs a block, with whatever variables bound in
it, and however the block ends, every scope around it is still there and has the names that it had. It
has a new name only if it is the script's scope or the frame in which the block stands, and then the
run came past a declaration of that name for it. The rounds of loops begin in a block that has the
variable of the loop, or none. -/
theorem block_names_stay :
    (∀ (fuel : Nat) (code : Window) (bindings : List (String × Value)) (machine : Machine),
      let after := ((runBlock fuel code bindings).final machine).stack
      after.depth = machine.stack.depth ∧
      ∀ height scope, machine.stack.atHeight? height = some scope →
        ∃ later, after.atHeight? height = some later ∧ ∀ key,
          (scope.vars.has key = true → later.vars.has key = true) ∧
          (later.vars.has key = true → scope.vars.has key = false →
            (height = 0 ∨ height = machine.stack.frameHeight) ∧
            ComesPast (declaresAt height key) fuel (fun high => high.runBlock code bindings)
              machine)) ∧
    ∀ low : Engine,
      (∀ (token : Token) (id : Nat) (machine : Machine),
        (low.runningOnly (Engine.startsWith (Engine.loopNames machine id))).forLoop token id
          machine = low.forLoop token id machine) ∧
      ∀ (window : Window) (opener : Token) (pos : Nat),
        (low.runningOnly (Engine.startsWith [])).whileLoop window opener pos =
          low.whileLoop window opener pos ∧
        (low.runningOnly (Engine.startsWith [])).doLoop window opener pos =
          low.doLoop window opener pos := by
  refine ⟨fun fuel code bindings machine => ?_, fun low => ⟨low.runningOnly_forLoop,
    fun window opener pos => ⟨low.runningOnly_whileLoop window opener pos,
      low.runningOnly_doLoop window opener pos⟩⟩⟩
  have evolves := ((Operation.block code bindings).evolves fuel machine).1
  refine ⟨evolves.depth_eq, fun height scope found => ?_⟩
  obtain ⟨later, foundLater, kept⟩ := evolves.keepsNames found
  have below := Stack.atHeight?_lt found
  refine ⟨later, foundLater, fun key => ⟨kept key, fun has lacks => ⟨?_, fun same => ?_⟩⟩⟩
  · -- No declaration is for a scope that is neither the script's nor the frame.
    refine Decidable.byContradiction fun elsewhere => ?_
    obtain ⟨notRoot, notFrame⟩ := not_or.mp elsewhere
    have keeps := Discipline.keepsName_block key false below
      (fun _ => ⟨notRoot, fun same => notFrame same.symm⟩) fuel code bindings
    have idle : watchedEngine (Discipline.keepsName height key false).watch fuel = engine fuel :=
      watchedEngine_idle fuel
    rw [idle] at keeps
    rw [keeps.keeps scope later found foundLater has] at lacks
    cases lacks
  · have keeps := Discipline.keepsName_block key true below
      (fun open' => Bool.noConfusion open') fuel code bindings
    unfold Exec.final at keeps
    have unwatched : ((watchedEngine (Discipline.keepsName height key true).watch fuel).runBlock
        code bindings) machine = runBlock fuel code bindings machine := same
    rw [unwatched] at keeps
    rw [keeps.keeps scope later found foundLater has] at lacks
    cases lacks

/-- In a function, above a script without variables. -/
def inWork : Machine :=
  { ofTokens {} "main" [] with
    stack :=
      { inner := [callScope ⟨"Work", [], #[], 1⟩ 0]
        root := Scope.ofCode .script .empty }
    callDepth := 1 }

/-- A scope that has been left with a name, by its height, after a source was run as a block in the
function. -/
def workHas (tokens : List Token) (height : Nat) (key : String) : Bool :=
  (((runBlock 20 (.whole tokens.toArray) []).final inWork).stack.atHeight? height).any
    (·.vars.has key)

/-- A block in a function gives the script a variable and the function another one, and keeps two of
its own for itself. -/
theorem block_names_stay_declared : ∃ tokens,
    tokenize "Global $g = 1\n$x = 2\nStatic $s = $x\nLocal $y = 3\n" = .ok tokens ∧
    (workHas tokens 0 "g" ∧ workHas tokens 1 "s" ∧
      !workHas tokens 0 "x" ∧ !workHas tokens 1 "x" ∧ !workHas tokens 0 "y" ∧
      !workHas tokens 1 "y") ∧
    ComesPast (declaresAt 0 "g") 20 (fun high => high.runBlock (.whole tokens.toArray) []) inWork ∧
    ComesPast (declaresAt 1 "s") 20 (fun high => high.runBlock (.whole tokens.toArray) [])
      inWork := by
  have seen : (tokenize "Global $g = 1\n$x = 2\nStatic $s = $x\nLocal $y = 3\n").toOption.any
      fun tokens => workHas tokens 0 "g" && workHas tokens 1 "s" &&
        (!workHas tokens 0 "x" && !workHas tokens 1 "x" && !workHas tokens 0 "y" &&
          !workHas tokens 1 "y") := by decide +kernel
  obtain ⟨tokens, read, seen⟩ := (Option.any_eq_true _ _).mp seen
  simp only [Bool.and_eq_true, and_assoc] at seen
  -- What is new in a scope has been declared for it.
  have declared : ∀ height key scope, inWork.stack.atHeight? height = some scope →
      scope.vars.has key = false → workHas tokens height key = true →
      ComesPast (declaresAt height key) 20 (fun high => high.runBlock (.whole tokens.toArray) [])
        inWork := by
    intro height key scope found lacks has
    obtain ⟨later, foundLater, names⟩ :=
      (block_names_stay.1 20 (.whole tokens.toArray) [] inWork).2 height scope found
    rw [workHas, foundLater] at has
    exact ((names key).2 has lacks).2
  exact ⟨tokens, eq_ok_of_toOption read, seen, declared 0 "g" _ rfl rfl seen.1,
    declared 1 "s" _ rfl rfl seen.2.1⟩

end Machine

end LineScript
