import LineScript.Proofs.Discipline.Engine
import LineScript.Proofs.Outcome

/-!
# Registers of a call reach its caller

A call clears the two codes of the frame it is made from, and runs in a frame of its own. When it has
returned, its codes are those of the frame it was made from; whatever happens in between sets
registers of its own frame or of frames above it. What it returns without a `Return` is in a register
that only two functions of the library write.
-/

namespace LineScript

open Machine

/-- The value that a function of the library leaves to be returned. -/
def Builtin.leaves? (function : Builtin) (args : Args) : Option Value :=
  match function with
  | .setError => some (args.value 2)
  | .setExtended => some (args.value 1)
  | _ => none

/-- A function of the library begins that leaves such a value in the frame at a height. -/
def leavesReturn (height : Nat) (leaves : Value → Bool) : Occurrence → Machine → Bool
  | .library function args, { stack, .. } =>
    stack.frameHeight == height && (function.leaves? args).any leaves
  | _, _ => false

/-- A value of these does not come into the register for what is returned. -/
def Scope.KeepsReturn (excluded : Value → Bool) (before after : Scope) : Prop :=
  excluded before.registers.returnValue = false → excluded after.registers.returnValue = false

namespace Scope.KeepsReturn

variable {excluded : Value → Bool}

/-- Every scope keeps its own return register. -/
theorem refl (scope : Scope) : scope.KeepsReturn excluded scope := fun without => without

/-- Keeping the return register is transitive. -/
theorem trans {first second third : Scope} (earlier : first.KeepsReturn excluded second)
    (later : second.KeepsReturn excluded third) : first.KeepsReturn excluded third :=
  fun without => later (earlier without)

end Scope.KeepsReturn

/-- The stack with the registers of the innermost frame changed. -/
def Stack.recode (stack : Stack) (change : Registers → Registers) : Stack :=
  stack.modifyFrame fun scope => { scope with registers := change scope.registers }

namespace Stack

/-- Recoding keeps the kinds of the scopes. -/
theorem kinds_recode (stack : Stack) (change : Registers → Registers) :
    (stack.recode change).kinds = stack.kinds := kinds_modifyAt _ _ fun _ => rfl

/-- Recoding twice is recoding by both changes. -/
theorem recode_recode (stack : Stack) (first second : Registers → Registers) :
    (stack.recode first).recode second = stack.recode (second ∘ first) := by
  have position : (stack.recode first).framePosition = stack.framePosition :=
    framePosition_of_kinds (stack.kinds_recode first)
  unfold recode modifyFrame at *
  rw [position]
  unfold modifyAt
  by_cases inside : stack.framePosition < stack.inner.length
  · simp [inside, List.modify_modify_eq]
    rfl
  · simp [inside]

/-- The registers of the innermost frame are changed, and no others. -/
theorem atHeight?_recode (stack : Stack) (change : Registers → Registers) (height : Nat) :
    (stack.recode change).atHeight? height =
      if height = stack.frameHeight then
        (stack.atHeight? height).map fun scope =>
          { scope with registers := change scope.registers }
      else stack.atHeight? height := atHeight?_modifyAt _ _ _ _

/-- Recoding changes the registers of the frame. -/
theorem frame_recode (stack : Stack) (change : Registers → Registers) :
    (stack.recode change).frame = { stack.frame with registers := change stack.frame.registers } := by
  have found := (stack.recode change).atHeight?_frameHeight
  rw [frameHeight_of_kinds (stack.kinds_recode change), atHeight?_recode, if_pos rfl,
    atHeight?_frameHeight] at found
  exact (Option.some.inj found).symm

/-- The registers of the frame at a height are changed, or those of another frame. -/
theorem KeepsAt.recode {height : Nat} {Keeps : Scope → Scope → Prop} {stack : Stack}
    (change : Registers → Registers) (reflexive : ∀ scope, Keeps scope scope)
    (keeps : stack.frameHeight = height →
      Keeps stack.frame { stack.frame with registers := change stack.frame.registers }) :
    KeepsAt height Keeps stack (stack.recode change) := by
  refine ⟨stack.kinds_recode change, fun scope later found foundLater => ?_⟩
  rw [atHeight?_recode] at foundLater
  split at foundLater
  · rename_i same
    subst same
    rw [atHeight?_frameHeight] at found foundLater
    cases found
    cases foundLater
    exact keeps rfl
  · rw [found] at foundLater
    cases foundLater
    exact reflexive scope

end Stack

/-- What leaves a value leaves it in the running frame, and may write the codes besides. -/
theorem Builtin.run_leaves {function : Builtin} {args : Args} {value : Value}
    (leaves : function.leaves? args = some value) (machine : Machine) :
    ∃ change : Registers → Registers, (∀ registers, (change registers).returnValue = value) ∧
      ((function.run args).final machine).stack = machine.stack.recode change := by
  cases function with
  | setError =>
    cases leaves
    have ran : ((setError.run args).final machine).stack = ((machine.stack.recode
        fun registers => { registers with error := args.int 0 }).recode
        fun registers => { registers with extended := args.int 1 }).recode
        fun registers => { registers with returnValue := args.value 2 } := rfl
    exact ⟨_, fun _ => rfl, by rw [ran, Stack.recode_recode, Stack.recode_recode]⟩
  | setExtended =>
    cases leaves
    have ran : ((setExtended.run args).final machine).stack = (machine.stack.recode
        fun registers => { registers with extended := args.int 0 }).recode
        fun registers => { registers with returnValue := args.value 1 } := rfl
    exact ⟨_, fun _ => rfl, by rw [ran, Stack.recode_recode]⟩
  | _ => cases leaves

/-- In the frame at a height some values do not come into the register for what is returned, as long as
control does not leave that frame with a value. The run is stopped where one of them is left. -/
def Discipline.keepsReturn (height : Nat) (excluded : Value → Bool) : Discipline where
  stops := leavesReturn height excluded
  Fits stack := height < stack.depth
  Keeps := Stack.KeepsAt height (Scope.KeepsReturn excluded)
  Leaves before after := after.kinds = before.kinds ∧
    (before.frameHeight ≠ height → Stack.KeepsAt height (Scope.KeepsReturn excluded) before after)
  Permits _ _ _ := True
  Serves stack function args := stack.frameHeight = height →
    ∀ value, function.leaves? args = some value → excluded value = false
  refl := .refl .refl
  trans := .trans .trans
  leaves keeps := ⟨keeps.kinds, fun _ => keeps⟩
  leaves_after earlier later := ⟨later.1.trans earlier.kinds, fun other =>
    earlier.trans .trans (later.2 (Stack.frameHeight_of_kinds earlier.kinds ▸ other))⟩
  leaves_before earlier later := ⟨later.kinds.trans earlier.1, fun other =>
    (earlier.2 other).trans .trans later⟩
  fits fits keeps := by
    rw [Stack.depth_of_kinds keeps.kinds]
    exact fits
  permits _ _ := trivial
  write _ _ _ := .modifyAt .refl (fun _ => rfl) fun _ => .refl _
  declare _ _ _ := .modifyAt .refl (fun _ => rfl) fun _ => .refl _
  codes {stack change} _ same := by
    refine Stack.KeepsAt.recode change .refl fun _ without => ?_
    rwa [same]
  returns {stack} _ value := by
    let change (registers : Registers) : Registers := { registers with returnValue := value }
    exact ⟨stack.kinds_recode change, fun other =>
      Stack.KeepsAt.recode change .refl fun same => absurd same other⟩
  move stack pos := by
    rw [Stack.modifyTop_eq_modifyAt]
    exact .modifyAt .refl (fun _ => rfl) fun _ => .refl _
  serve {machine function args} _ serves := by
    cases leaves : function.leaves? args with
    | some value =>
      obtain ⟨change, left, is⟩ := Builtin.run_leaves leaves machine
      rw [is]
      refine .recode _ .refl fun same _ => ?_
      rw [left]
      exact serves same value leaves
    | none =>
      have never : ¬(function = .setError ∨ function = .setExtended) := by
        rintro (rfl | rfl) <;> cases leaves
      have tame := function.tame_run args
      refine .of_view (fun scope => scope.registers.returnValue)
        (Stack.Matches.of_outline (tame.evolves machine).outline_eq).kinds
        (tame.returns never machine) ?_
      intro scope later same without
      rwa [same]
  push fits _ := Nat.lt_succ_of_lt fits
  block fits _ inside := inside.pop fits
  block_leaves {stack after scope} fits isBlock inside := by
    refine ⟨Stack.kinds_pop inside.1, fun other => (inside.2 ?_).pop fits⟩
    rw [Stack.frameHeight_push]
    simpa [Scope.isFrame, isBlock] using other
  call {stack after scope name} fits isCall inside := by
    refine (inside.2 ?_).pop fits
    rw [Stack.frameHeight_push]
    have above : stack.depth ≠ height := Nat.ne_of_gt fits
    simpa [Scope.isFrame, isCall] using above
  permits_statement _ _ := fun _ => trivial
  serves_library {machine function args} passed := by
    intro same value leaves
    simpa [leavesReturn, same, leaves] using passed

/-- A scope keeps its registers and its count of arguments. -/
def Scope.KeepsRegisters (before after : Scope) : Prop :=
  after.registers = before.registers ∧ after.numParams = before.numParams

namespace Scope.KeepsRegisters

/-- Every scope keeps its own registers. -/
theorem refl (scope : Scope) : scope.KeepsRegisters scope := ⟨rfl, rfl⟩

/-- Keeping the registers is transitive. -/
theorem trans {first second third : Scope} (earlier : first.KeepsRegisters second)
    (later : second.KeepsRegisters third) : first.KeepsRegisters third :=
  ⟨later.1.trans earlier.1, later.2.trans earlier.2⟩

end Scope.KeepsRegisters

/-- Whatever a run does, it sets the registers of the running frame and of frames above it. -/
theorem Machine.Evolves.keepsRegisters {before after : Machine} (evolves : before.Evolves after)
    {height : Nat} (below : height < before.stack.depth) (other : before.stack.frameHeight ≠ height) :
    Stack.KeepsAt height Scope.KeepsRegisters before.stack after.stack := by
  induction evolves with
  | refl machine => exact .refl .refl _
  | trans _ _ ihEarlier ihLater =>
    have earlier := ihEarlier below other
    refine earlier.trans .trans (ihLater ?_ ?_)
    · rw [Stack.depth_of_kinds earlier.kinds]
      exact below
    · rw [Stack.frameHeight_of_kinds earlier.kinds]
      exact other
  | aside stack =>
    rw [stack]
    exact .refl .refl _
  | write machine position key variable' =>
    let change (scope : Scope) : Scope := { scope with vars := scope.vars.insert key variable' }
    show Stack.KeepsAt height Scope.KeepsRegisters machine.stack
      (machine.stack.modifyAt position change)
    exact .modifyAt .refl (fun _ => rfl) fun _ => ⟨rfl, rfl⟩
  | registers machine change =>
    exact Stack.KeepsAt.recode change Scope.KeepsRegisters.refl fun same => absurd same other
  | move machine pos =>
    simp only [Stack.modifyTop_eq_modifyAt]
    exact Stack.KeepsAt.modifyAt Scope.KeepsRegisters.refl (fun _ => rfl) fun _ => ⟨rfl, rfl⟩
  | @block before after scope isBlock inside ih =>
    refine (ih (Nat.lt_succ_of_lt below) ?_).pop below
    rw [Stack.frameHeight_push]
    simpa [Scope.isFrame, isBlock] using other
  | @call before after scope name isCall room inside ih =>
    refine (ih (Nat.lt_succ_of_lt below) ?_).pop below
    have above : before.stack.depth ≠ height := Nat.ne_of_gt below
    rw [Stack.frameHeight_push]
    simpa [Scope.isFrame, isCall] using above

/-- The two codes of the innermost frame were set; the rest of the registers, also of all other
scopes, is as it was. -/
structure Stack.Recoded (error extended : Int64) (before after : Stack) : Prop where
  /-- The scopes belong to the same. -/
  kinds : after.kinds = before.kinds
  /-- What became of each scope. -/
  scopes : ∀ height scope, before.atHeight? height = some scope →
    ∃ later, after.atHeight? height = some later ∧ later.numParams = scope.numParams ∧
      later.registers =
        if height = before.frameHeight then { scope.registers with error, extended }
        else scope.registers

namespace Stack.Recoded

variable {stack middle after : Stack} {error extended : Int64}

/-- Setting both codes recodes a stack. -/
theorem recode (stack : Stack) (error extended : Int64) :
    stack.Recoded error extended
      (stack.recode fun registers => { registers with error, extended }) := by
  refine ⟨stack.kinds_recode _, fun height scope found => ?_⟩
  rw [atHeight?_recode, found]
  split
  · exact ⟨_, rfl, rfl, rfl⟩
  · exact ⟨_, rfl, rfl, rfl⟩

/-- Codes that are set later are the ones that stay. -/
theorem again (earlier : stack.Recoded error extended middle) {error' extended' : Int64}
    (later : middle.Recoded error' extended' after) : stack.Recoded error' extended' after := by
  refine ⟨later.kinds.trans earlier.kinds, fun height scope found => ?_⟩
  obtain ⟨between, foundBetween, params, registers⟩ := earlier.scopes height scope found
  obtain ⟨last, foundLast, paramsLast, registersLast⟩ := later.scopes height between foundBetween
  refine ⟨last, foundLast, paramsLast.trans params, ?_⟩
  rw [registersLast, registers, frameHeight_of_kinds earlier.kinds]
  split <;> rfl

/-- Codes stay while no scope changes its registers. -/
theorem keep (earlier : stack.Recoded error extended middle) (kinds : after.kinds = middle.kinds)
    (keeps : ∀ height, height < middle.depth → KeepsAt height Scope.KeepsRegisters middle after) :
    stack.Recoded error extended after := by
  refine ⟨kinds.trans earlier.kinds, fun height scope found => ?_⟩
  obtain ⟨between, foundBetween, params, registers⟩ := earlier.scopes height scope found
  have below := atHeight?_lt foundBetween
  have inside : height < after.depth := by
    rw [depth_of_kinds kinds]
    exact below
  obtain ⟨last, foundLast⟩ := Option.isSome_iff_exists.mp (atHeight?_isSome.mpr inside)
  have kept := (keeps height below).keeps between last foundBetween foundLast
  exact ⟨last, foundLast, kept.2.trans params, kept.1.trans registers⟩

end Stack.Recoded

/-- As many arguments as a function takes. -/
def UserFunction.Accepts (function : UserFunction) (given : Nat) : Prop :=
  function.required ≤ given ∧ given ≤ function.params.length

instance (function : UserFunction) (given : Nat) : Decidable (function.Accepts given) :=
  inferInstanceAs (Decidable (_ ∧ _))

/-- Why a function refuses so many arguments. -/
def UserFunction.arityCause (function : UserFunction) (given : Nat) : RunCause :=
  if function.params.length < given then
    .tooManyArguments function.name given function.params.length
  else .tooFewArguments function.name given function.required

/-- The arity check accepts exactly the accepted numbers of arguments. -/
theorem UserFunction.checkArity_eq (function : UserFunction) (given line : Nat) :
    checkArity function.name function.params.length function.required given line =
      if function.Accepts given then pure () else Exec.fail (function.arityCause given) line := by
  unfold checkArity arityCause
  by_cases many : function.params.length < given
  · have refused : ¬function.Accepts given := fun accepts => Nat.not_lt.mpr accepts.2 many
    rw [if_pos many, if_neg refused, if_pos many]
  · rw [if_neg many, if_neg many]
    by_cases few : given < function.required
    · have refused : ¬function.Accepts given := fun accepts => Nat.not_lt.mpr accepts.1 few
      rw [if_pos few, if_neg refused]
    · have accepts : function.Accepts given := ⟨Nat.not_lt.mp few, Nat.not_lt.mp many⟩
      rw [if_neg few, if_pos accepts]

namespace Machine

/-- The machine with the two codes of the running frame cleared. -/
def cleared (machine : Machine) : Machine :=
  { machine with
    stack := machine.stack.recode fun registers => { registers with error := 0, extended := 0 } }

/-- The machine on which the body of a function is run, for so many arguments. -/
def entered (machine : Machine) (function : UserFunction) (given line : Nat) : Machine :=
  called machine.cleared (callScope function given) fun _ => "call: " ++ function.name ++ "(" ++
    toString given ++ " args) from line " ++ toString line

end Machine

namespace Engine

/-- A call that is refused stops and changes nothing. -/
theorem callUser_refused (low : Engine) {function : UserFunction} {args : List Value}
    (refused : ¬ function.Accepts args.length) (line : Nat) (machine : Machine) :
    ∃ stop, low.callUser function args line machine = .error stop machine := by
  rw [Engine.callUser, Engine.callUserBy_attempt]
  rw [function.checkArity_eq, if_neg refused]
  exact ⟨_, rfl⟩

/-- An accepted call is a depth error on a full stack, and runs the body otherwise. -/
theorem callUser_eq (low : Engine) {function : UserFunction} {args : List Value}
    (accepts : function.Accepts args.length) (line : Nat) (machine : Machine) :
    low.callUser function args line machine =
      if maxCallDepth ≤ machine.callDepth then
        .error (.fault (.running (.callDepth function.name) line [])) machine.cleared
      else
        match low.runBody function args line (machine.entered function args.length line) with
        | .ok flow last =>
          let registers := last.stack.top.registers
          .ok (returnedValue flow registers)
            { returned last with
              stack := last.stack.pop.recode fun before =>
                { before with error := registers.error, extended := registers.extended } }
        | .error stop last => .error (stop.leaving function.name line) (returned last) := by
  rw [Engine.callUser, Engine.callUserBy_attempt]
  rw [function.checkArity_eq, if_pos accepts]
  refine (Exec.inCall_eq (callScope function args.length) (low.runBody function args line) _
    function.name line _ machine.cleared).trans ?_
  by_cases full : maxCallDepth ≤ machine.callDepth
  · exact (if_pos full).trans (if_pos full).symm
  · refine (if_neg full).trans (Eq.trans ?_ (if_neg full).symm)
    unfold entered Exec.final
    cases low.runBody function args line (called machine.cleared (callScope function args.length)
      fun _ => "call: " ++ function.name ++ "(" ++ toString args.length ++ " args) from line " ++
        toString line) <;> rfl

/-- The parameters and the body of a function keep every discipline. -/
theorem Follows.runBody {low : Engine} {discipline : Discipline} (follows : low.Follows discipline)
    (function : UserFunction) (args : List Value) (line : Nat) :
    discipline.Gives Flow.isReturned (low.runBody function args line) fun _ => True :=
  (follows.bindParams _ _ _ _).bind fun _ _ => follows.runScope

end Engine

namespace Machine

/-- Clearing the registers keeps the depth. -/
theorem depth_cleared (machine : Machine) : machine.cleared.stack.depth = machine.stack.depth :=
  Stack.depth_of_kinds (machine.stack.kinds_recode _)

/-- The scope of a call stands above all others, as one for this function. -/
theorem atHeight?_callee {machine last : Machine} {function : UserFunction} {given line : Nat}
    (kinds : last.stack.kinds = (machine.entered function given line).stack.kinds) :
    last.stack.atHeight? machine.stack.depth = some last.stack.top ∧
      last.stack.top.kind = .function function.name := by
  have deep : last.stack.depth = machine.cleared.stack.depth + 1 := Stack.depth_of_kinds kinds
  refine ⟨?_, Stack.top_kind_of_kinds kinds⟩
  rw [← last.stack.atHeight?_top, ← depth_cleared, ← Nat.add_right_cancel deep]

/-- While a function is run, no register of the frames below its own is set. -/
theorem recoded_body {function : UserFunction} {given line : Nat} {machine last : Machine}
    (evolves : (machine.entered function given line).Evolves last) :
    machine.stack.Recoded 0 0 last.stack.pop := by
  have kinds := (Stack.Matches.of_outline evolves.outline_eq).kinds
  refine (Stack.Recoded.recode machine.stack 0 0).keep (Stack.kinds_pop kinds) fun height below => ?_
  refine (evolves.keepsRegisters (Nat.lt_succ_of_lt below) ?_).pop below
  show (Stack.push _ _).frameHeight ≠ height
  rw [Stack.frameHeight_push]
  exact Nat.ne_of_gt below

/-- A value other than zero that a function has to return at the end of its body was left by one of
the two functions of the library that leave values. -/
theorem returnValue_left {fuel : Nat} {function : UserFunction} {args : List Value} {line : Nat}
    {machine : Machine} {flow : Flow} {last : Machine}
    (ran : (engine fuel).runBody function args line (machine.entered function args.length line) =
      .ok flow last) (goes : flow.isReturned = false) :
    last.stack.top.registers.returnValue = .number 0 ∨
      ComesPast (leavesReturn machine.stack.depth
          fun value => decide (value = last.stack.top.registers.returnValue)) fuel
        (fun high => high.runBody function args line) (machine.entered function args.length line) := by
  by_cases zero : last.stack.top.registers.returnValue = .number 0
  · exact .inl zero
  refine .inr fun never => ?_
  let discipline := Discipline.keepsReturn machine.stack.depth
    fun value => decide (value = last.stack.top.registers.returnValue)
  have fits : discipline.Fits (machine.entered function args.length line).stack := by
    show machine.stack.depth < machine.cleared.stack.depth + 1
    rw [depth_cleared]
    exact Nat.lt_succ_self _
  have ends := ((watchedEngine_follows discipline fuel).runBody function args line).unwatched
    (fun high => high.runBody function args line) fits never
  unfold Discipline.Ends at ends
  rw [ran] at ends
  have keeps : discipline.Keeps (machine.entered function args.length line).stack last.stack := by
    have yields : discipline.Yields flow.isReturned _ last.stack := ends
    rwa [goes] at yields
  have begun : (machine.entered function args.length line).stack.atHeight? machine.stack.depth =
      some (callScope function args.length) := by
    rw [← depth_cleared]
    exact Stack.atHeight?_push_top _ _
  have kept := keeps.keeps _ _ begun (atHeight?_callee keeps.kinds).1
  have excluded := kept (decide_eq_false fun begins => zero begins.symm)
  exact of_decide_eq_false excluded rfl

/-- A value that is left to be returned stays until another one is left, or control leaves the
function with a value. -/
theorem returnValue_stays {fuel : Nat} {machine last : Machine} {flow : Flow}
    (ran : (engine fuel).runScope machine = .ok flow last) (goes : flow.isReturned = false) :
    last.registers.returnValue = machine.registers.returnValue ∨
      ComesPast (leavesReturn machine.stack.frameHeight
          fun value => decide (value ≠ machine.registers.returnValue)) fuel
        (fun high => high.runScope) machine := by
  by_cases stays : last.registers.returnValue = machine.registers.returnValue
  · exact .inl stays
  refine .inr fun never => ?_
  let discipline := Discipline.keepsReturn machine.stack.frameHeight
    fun value => decide (value ≠ machine.registers.returnValue)
  have ends := (watchedEngine_follows discipline fuel).runScope.unwatched
    (fun high => high.runScope) (Stack.atHeight?_lt machine.stack.atHeight?_frameHeight) never
  unfold Discipline.Ends at ends
  rw [ran] at ends
  have keeps : discipline.Keeps machine.stack last.stack := by
    have yields : discipline.Yields flow.isReturned _ last.stack := ends
    rwa [goes] at yields
  have found := last.stack.atHeight?_frameHeight
  rw [Stack.frameHeight_of_kinds keeps.kinds] at found
  have excluded := keeps.keeps _ _ machine.stack.atHeight?_frameHeight found
    (decide_eq_false fun other => other rfl)
  exact of_decide_eq_false excluded stays

/-- While the script goes on, a call of one of its functions runs that function. -/
theorem call_eq_callUser (fuel : Nat) {name : String} {function : UserFunction} {machine : Machine}
    (going : machine.exitRequested = false)
    (found : machine.program.function? name = some function) (args : List Value) (line : Nat) :
    Machine.call (fuel + 1) name args line machine =
      (engine fuel).callUser function args line machine := by
  show (engine fuel).callFunction name args line machine = _
  unfold Engine.callFunction Engine.callNamed
  simp only [bind, EStateM.bind, run_get, going, found]
  rfl

/-- Control that neither leaves the function with a value nor ends the script gives what the register
holds. -/
theorem returnedValue_register {flow : Flow} (goes : flow.isReturned = false) (stays : flow ≠ .exit)
    (registers : Registers) : returnedValue flow registers = registers.returnValue := by
  cases flow with
  | returned operand => cases goes
  | exit => exact absurd rfl stays
  | _ => rfl

/-- What a body that has run leaves of its registers to the frame it was called from. -/
theorem returned_registers {fuel : Nat} {function : UserFunction} {args : List Value} {line : Nat}
    {machine : Machine} {flow : Flow} {last : Machine}
    (ran : (engine fuel).runBody function args line (machine.entered function args.length line) =
      .ok flow last) :
    last.stack.atHeight? machine.stack.depth = some last.stack.top ∧
      last.stack.top.kind = .function function.name ∧
      machine.stack.Recoded last.stack.top.registers.error last.stack.top.registers.extended
        (last.stack.pop.recode fun before =>
          { before with
            error := last.stack.top.registers.error
            extended := last.stack.top.registers.extended }) := by
  have evolves : (machine.entered function args.length line).Evolves
      (((engine fuel).runBody function args line).final
        (machine.entered function args.length line)) := evolves_body fuel function args line _
  unfold Exec.final at evolves
  rw [ran] at evolves
  obtain ⟨above, kind⟩ := atHeight?_callee (Stack.Matches.of_outline evolves.outline_eq).kinds
  exact ⟨above, kind, (recoded_body evolves).again (.recode _ _ _)⟩

/-- A body that has stopped leaves the codes of the frame it was called from cleared. -/
theorem stopped_registers {fuel : Nat} {function : UserFunction} {args : List Value} {line : Nat}
    {machine last : Machine} {stop : Stop}
    (ran : (engine fuel).runBody function args line (machine.entered function args.length line) =
      .error stop last) : machine.stack.Recoded 0 0 last.stack.pop := by
  have evolves : (machine.entered function args.length line).Evolves
      (((engine fuel).runBody function args line).final
        (machine.entered function args.length line)) := evolves_body fuel function args line _
  unfold Exec.final at evolves
  rw [ran] at evolves
  exact recoded_body evolves

/-- Registers of a call reach its caller and no other frame. When a function of the script is called and
returns, the two codes of the frame it was called from are those that the frame of the call had at the
end; the rest of the registers, and those of all other scopes, are as before. Returned is the operand
of a `Return`, no value after an `Exit`, and else what the register for that held: zero or what one of
two functions of the library has left there, where it stays until the next is left. A call with the
wrong number of arguments changes nothing, and one that fails later clears the two codes. -/
theorem call_registers (fuel : Nat) {name : String} {function : UserFunction} {machine : Machine}
    (going : machine.exitRequested = false)
    (found : machine.program.function? name = some function) (args : List Value) (line : Nat) :
    (match Machine.call (fuel + 1) name args line machine with
    | .ok value after =>
      ∃ flow last callee,
        (engine fuel).runBody function args line (machine.entered function args.length line) =
          .ok flow last ∧
        last.stack.atHeight? machine.stack.depth = some callee ∧
        callee.kind = .function function.name ∧
        machine.stack.Recoded callee.registers.error callee.registers.extended after.stack ∧
        (∀ operand, flow = .returned operand → value = operand) ∧
        (flow = .exit → value = .null) ∧
        (flow.isReturned = false → flow ≠ .exit → value = callee.registers.returnValue ∧
          (value = .number 0 ∨
            ComesPast (leavesReturn machine.stack.depth fun left => decide (left = value)) fuel
              (fun high => high.runBody function args line)
              (machine.entered function args.length line)))
    | .error _ after =>
      if function.Accepts args.length then machine.stack.Recoded 0 0 after.stack
      else after = machine) ∧
    (∀ (leaving : Builtin) (given : Args) (value : Value), leaving.leaves? given = some value →
      ∀ state : Machine, ((leaving.run given).final state).registers.returnValue = value) ∧
    ∀ (resumed last : Machine) (flow : Flow), (engine fuel).runScope resumed = .ok flow last →
      flow.isReturned = false → last.registers.returnValue = resumed.registers.returnValue ∨
        ComesPast (leavesReturn resumed.stack.frameHeight
            fun value => decide (value ≠ resumed.registers.returnValue)) fuel
          (fun high => high.runScope) resumed := by
  refine ⟨?_, fun leaving given value leaves state => ?_,
    fun resumed last flow ran goes => returnValue_stays ran goes⟩
  · rw [call_eq_callUser fuel going found]
    by_cases accepts : function.Accepts args.length
    · rw [Engine.callUser_eq _ accepts]
      by_cases full : maxCallDepth ≤ machine.callDepth
      · rw [if_pos full]
        exact (if_pos accepts).mpr (Stack.Recoded.recode machine.stack 0 0)
      · rw [if_neg full]
        cases ran : (engine fuel).runBody function args line
            (machine.entered function args.length line) with
        | error stop last => exact (if_pos accepts).mpr (stopped_registers ran)
        | ok flow last =>
          obtain ⟨above, kind, recoded⟩ := returned_registers ran
          refine ⟨flow, last, last.stack.top, rfl, above, kind, recoded, ?_, ?_,
            fun goes stays => ?_⟩
          · rintro operand rfl
            rfl
          · rintro rfl
            rfl
          · rw [returnedValue_register goes stays]
            exact ⟨rfl, returnValue_left ran goes⟩
    · obtain ⟨stop, refused⟩ := (engine fuel).callUser_refused accepts line machine
      rw [refused]
      exact (if_neg accepts).mpr rfl
  · obtain ⟨change, left, is⟩ := Builtin.run_leaves leaves state
    rw [Machine.registers, is, Stack.frame_recode]
    exact left _

/-- A function that leaves two codes and a value. -/
def leavingFunction : UserFunction := ⟨"Fail", [], #[⟨.userCall 0, "SetError", 2, 1⟩], 1⟩

/-- A script with this function. -/
def withLeaving : Machine :=
  { ofTokens {} "main" [] with
    program :=
      { functions := [("fail", leavingFunction)]
        calls := #[⟨"SetError",
          [#[⟨.number, "3", 2, 1⟩], #[⟨.number, "4", 2, 1⟩], #[⟨.number, "7", 2, 1⟩]], 2⟩] } }

/-- The script calls the function, finds its codes and gets the value. -/
theorem call_registers_left : ∃ after,
    Machine.call 20 "FAIL" [] 9 withLeaving = .ok (.number 7) after ∧
      withLeaving.stack.Recoded 3 4 after.stack ∧
      ComesPast (leavesReturn 1 fun left => decide (left = .number 7)) 19
        (fun high => high.runBody leavingFunction [] 9) (withLeaving.entered leavingFunction 0 9) := by
  have found : withLeaving.program.function? "FAIL" = some leavingFunction := by decide +kernel
  have returned : (match Machine.call 20 "FAIL" [] 9 withLeaving with
      | .ok value _ => decide (value = .number 7)
      | .error .. => false) = true := by decide +kernel
  have ended : (match (engine 19).runBody leavingFunction [] 9
        (withLeaving.entered leavingFunction 0 9) with
      | .ok flow last => decide (flow = .normal ∧
          (last.stack.atHeight? 1).map Scope.registers = some ⟨3, 4, .number 7⟩)
      | .error .. => false) = true := by decide +kernel
  have going : withLeaving.exitRequested = false := rfl
  have outcome := (call_registers 19 going found [] 9).1
  cases called : Machine.call 20 "FAIL" [] 9 withLeaving with
  | error stop after =>
    rw [called] at returned
    cases returned
  | ok value after =>
    rw [called] at returned outcome
    obtain rfl := of_decide_eq_true returned
    obtain ⟨flow, last, callee, ran, above, _, recoded, _, _, left⟩ := outcome
    have seen := ended
    rw [show (engine 19).runBody leavingFunction [] 9 (withLeaving.entered leavingFunction 0 9) =
      .ok flow last from ran] at seen
    obtain ⟨rfl, registers⟩ := of_decide_eq_true seen
    have top : last.stack.atHeight? 1 = some callee := above
    rw [top] at registers
    have codes : callee.registers = ⟨3, 4, .number 7⟩ := Option.some.inj registers
    rw [codes] at recoded
    exact ⟨after, rfl, recoded, (left rfl nofun).2.resolve_left nofun⟩

end Machine

end LineScript
