import LineScript.Proofs.Machine.Evolution
import LineScript.Proofs.Run.Scopes

/-!
# Constants never change

A write looks at the variable it is about to replace and is refused if that is constant; nothing
else writes variables. So whatever is asked of a machine, what is constant in a scope stays there,
constant and with its value, for as long as the scope does.
-/

namespace LineScript

namespace Variables

/-- A variable of another name is found as before. -/
theorem get?_insert_of_ne (vars : Variables) {key other : String} (differs : other ≠ key)
    (variable' : Variable) : get? (vars.insert key variable') other = get? vars other := by
  have apart : (other == key) = false := beq_eq_false_iff_ne.mpr differs
  induction vars with
  | nil => simp [insert, get?, List.lookup_cons, apart]
  | cons entry rest ih =>
    obtain ⟨name, held⟩ := entry
    simp only [insert]
    split
    · rename_i same
      rw [eq_of_beq same]
      simp [get?, List.lookup_cons, apart]
    · simp only [get?, List.lookup_cons]
      split
      · rfl
      · exact ih

end Variables

/-- What is constant in a scope is still there, constant and with the same value. -/
def Scope.KeepsConstants (before after : Scope) : Prop :=
  ∀ key held, before.vars.get? key = some held → held.constant = true →
    after.vars.get? key = some held

namespace Scope.KeepsConstants

/-- Every scope keeps its own constants. -/
theorem refl (scope : Scope) : scope.KeepsConstants scope := fun _ _ found _ => found

/-- Keeping constants is transitive. -/
theorem trans {first second third : Scope} (earlier : first.KeepsConstants second)
    (later : second.KeepsConstants third) : first.KeepsConstants third :=
  fun key held found constant => later key held (earlier key held found constant) constant

/-- The variable that is written is none of the constants. -/
theorem write (scope : Scope) (key : String) (variable' : Variable)
    (free : ∀ held, scope.vars.get? key = some held → held.constant = false) :
    scope.KeepsConstants { scope with vars := scope.vars.insert key variable' } := by
  intro name held found constant
  by_cases same : name = key
  · rw [same] at found
    rw [free held found] at constant
    cases constant
  · rw [← found]
    exact Variables.get?_insert_of_ne scope.vars same variable'

end Scope.KeepsConstants

/-- Every scope that is on both stacks keeps its constants. -/
def Stack.KeepsConstants (before after : Stack) : Prop :=
  ∀ height scope later, before.atHeight? height = some scope →
    after.atHeight? height = some later → scope.KeepsConstants later

namespace Machine

/-- Each scope is still there after whatever a run does, and keeps its constants. -/
theorem Evolves.scope_keepsConstants {before after : Machine} (evolves : before.Evolves after)
    {height : Nat} {scope : Scope} (found : before.stack.atHeight? height = some scope) :
    ∃ later, after.stack.atHeight? height = some later ∧ scope.KeepsConstants later :=
  evolves.atHeight Scope.KeepsConstants.refl Scope.KeepsConstants.trans Scope.KeepsConstants.write
    (fun scope _ => .refl scope) (fun scope _ => .refl scope) found

/-- A machine that evolves keeps the constants of its scopes. -/
theorem Evolves.keepsConstants {before after : Machine} (evolves : before.Evolves after) :
    before.stack.KeepsConstants after.stack := by
  intro height scope later found foundLater
  obtain ⟨other, foundOther, keeps⟩ := evolves.scope_keepsConstants found
  rw [foundOther] at foundLater
  cases foundLater
  exact keeps

/-- The script's scope keeps its constants, whatever a run does. -/
theorem Evolves.root_keepsConstants {before after : Machine} (evolves : before.Evolves after) :
    before.stack.root.KeepsConstants after.stack.root :=
  evolves.keepsConstants 0 _ _ rfl rfl

/-- A single write of a variable. -/
inductive Write where
  /-- To the innermost scope. -/
  | set
  /-- A plain assignment. -/
  | assign
  /-- A declaration. -/
  | declare (scope : DeclScope) (constant : Bool)

namespace Write

/-- The write of a value under a name. -/
def exec (write : Write) (name : String) (value : Value) : Exec Unit :=
  match write with
  | set => setVariable name value
  | assign => assignVariable name value
  | declare scope constant => declareVariable scope name value constant

/-- The position of the scope that is written to. -/
def position (write : Write) (stack : Stack) (name : String) : Nat :=
  match write with
  | set => 0
  | assign => stack.assignPosition (Text.lower name)
  | declare scope _ => stack.declPosition scope

/-- The variable that is written over, if there is one. -/
def target? (write : Write) (machine : Machine) (name : String) : Option Variable :=
  (machine.stack.scopeAt (write.position machine.stack name)).vars.get? (Text.lower name)

/-- A write over a constant is refused, and changes nothing. -/
theorem exec_constant (write : Write) {machine : Machine} {name : String} {held : Variable}
    (target : write.target? machine name = some held) (constant : held.constant = true)
    (value : Value) :
    ∃ fault, write.exec name value machine = .error (.fault fault) machine ∧
      fault.kind = some .constError := by
  obtain ⟨kept, _⟩ := held
  cases constant
  have refused : ∀ (written : String) (marked : Bool), Text.lower written = Text.lower name →
      writeVariable (write.position machine.stack name) written value marked machine =
        .error (.fault (.running (.constantWrite written) machine.line [])) machine := by
    intro written marked same
    rw [writeVariable_eq, same]
    unfold target? at target
    rw [target]
  cases write with
  | set => exact ⟨_, refused name false rfl, rfl⟩
  | assign => exact ⟨_, refused (Text.lower name) false (Text.lower_lower name), rfl⟩
  | declare scope constant => exact ⟨_, refused name constant rfl, rfl⟩

/-- A write reaches the running function or the script. -/
theorem position_reach (write : Write) (stack : Stack) (name : String) :
    write.position stack name ≤ stack.framePosition ∨
      write.position stack name = stack.inner.length := by
  cases write with
  | set => exact .inl (Nat.zero_le _)
  | assign => exact stack.assignPosition_reach (Text.lower name)
  | declare scope constant => exact stack.declPosition_reach scope

/-- A write is one of the changes that a run makes. -/
theorem evolves (write : Write) (name : String) (value : Value) (machine : Machine) :
    machine.Evolves ((write.exec name value).final machine) := by
  have reach := write.position_reach machine.stack name
  have ends : ∀ (written : String) (marked : Bool), machine.Evolves
      ((writeVariable (write.position machine.stack name) written value marked).final machine) := by
    intro written marked
    have free : (Guard.free machine.program).Ends machine
        (writeVariable (write.position machine.stack name) written value marked) fun _ _ => True :=
      (Guard.Does.writeVariable_ends written value marked reach).1
    exact free.evolves
  cases write with
  | set => exact ends name false
  | assign => exact ends (Text.lower name) false
  | declare scope constant => exact ends name constant

end Write

/-- What a host can ask of a machine, or a machine of itself while it runs its script. -/
inductive Request where
  /-- Something of the interpreter. -/
  | operate (operation : Operation)
  /-- To prepare the script. -/
  | prepare
  /-- To run the script, for the first time or again. -/
  | run
  /-- To write a variable. -/
  | write (form : Write) (name : String) (value : Value)

/-- The machine after a request, however that ended. -/
def Request.final (request : Request) (fuel : Nat) : Machine → Machine :=
  match request with
  | .operate operation => operation.final fuel
  | .prepare => Exec.final Machine.prepare
  | .run => Exec.final (Machine.run fuel)
  | .write form name value => Exec.final (form.exec name value)

/-- The scopes above the script's are as they were or gone, and the script's keeps its constants. -/
def KeepsRoot (before after : Machine) : Prop :=
  (after.stack.inner = before.stack.inner ∨ after.stack.inner = []) ∧
    before.stack.root.KeepsConstants after.stack.root

/-- A machine that keeps its root keeps the constants of its scopes. -/
theorem KeepsRoot.keepsConstants {before after : Machine} (keeps : before.KeepsRoot after) :
    before.stack.KeepsConstants after.stack := by
  intro height scope later found foundLater
  cases height with
  | zero =>
    cases found
    cases foundLater
    exact keeps.2
  | succ height =>
    simp only [Stack.atHeight?, List.getElem?_cons_succ] at found foundLater
    obtain same | gone := keeps.1
    · rw [same, found] at foundLater
      cases foundLater
      exact .refl scope
    · simp [gone] at foundLater

/-- Preparing a script changes no variable. -/
theorem prepare_keepsRoot (machine : Machine) : machine.KeepsRoot (prepare.final machine) := by
  obtain ⟨console, prepared⟩ := prepare_eq machine
  unfold Exec.final
  rw [prepared]
  split
  · exact ⟨.inl rfl, .refl _⟩
  · split
    · exact ⟨.inl rfl, .refl _⟩
    · exact ⟨.inl rfl, fun _ _ found _ => found⟩

/-- The function for the end of the script runs above the script's scope alone. -/
theorem runExitHandler_keepsRoot {machine : Machine} (alone : machine.stack.inner = [])
    (fuel : Nat) :
    ((runExitHandler fuel).final machine).stack.inner = [] ∧
      machine.stack.root.KeepsConstants ((runExitHandler fuel).final machine).stack.root := by
  unfold Exec.final
  rw [runExitHandler_eq]
  cases registered : machine.exitHandler with
  | none => exact ⟨alone, .refl _⟩
  | some name =>
    have evolves := ((Operation.call name [] machine.line).evolves fuel (machine.ending name)).1
    unfold Operation.final Exec.final at evolves
    dsimp only at evolves ⊢
    cases outcome : Machine.call fuel name [] machine.line (machine.ending name) with
    | ok _ after | error _ after =>
      rw [outcome] at evolves
      exact ⟨Rested.alone_of_outline evolves.outline_eq alone, evolves.root_keepsConstants⟩

/-- A run, also a second one, starts with the variables that are there and keeps the constants among
them. -/
theorem run_keepsRoot (fuel : Nat) (machine : Machine) :
    machine.KeepsRoot ((run fuel).final machine) := by
  unfold Exec.final
  rw [run_eq]
  split
  · exact ⟨.inl rfl, .refl _⟩
  · have beginning := prepare_keepsRoot machine
    unfold Exec.final at beginning
    cases prepared : prepare machine with
    | error stop failed =>
      rw [prepared] at beginning
      exact beginning
    | ok _ ready =>
      rw [prepared] at beginning
      have evolves : ready.started.Evolves ((runScope fuel).final ready.started) :=
        ((engine_obeys (.free ready.program) fuel).runScope ready.started rfl trivial).evolves
      have keeps : machine.stack.root.KeepsConstants
          ((runScope fuel).final ready.started).stack.root :=
        beginning.2.trans evolves.root_keepsConstants
      unfold Exec.final at keeps
      dsimp only
      cases ran : runScope fuel ready.started with
      | error stop last =>
        rw [ran] at keeps
        exact ⟨.inr rfl, keeps⟩
      | ok flow last =>
        rw [ran] at keeps
        have single : (last.finished flow).stack.inner = [] := rfl
        obtain ⟨alone, kept⟩ := runExitHandler_keepsRoot single fuel
        exact ⟨.inr alone, keeps.trans kept⟩

/-- Constants never change. Whatever is asked of a machine, and however it ends, what is constant in a
scope that is still there is there, constant and with the same value. A single write over a constant
stops with a fault for that and changes nothing. -/
theorem constants_kept (machine : Machine) :
    (∀ (request : Request) (fuel : Nat),
      machine.stack.KeepsConstants (request.final fuel machine).stack) ∧
    ∀ (form : Write) (name : String) (value : Value) (held : Variable),
      form.target? machine name = some held → held.constant = true →
      ∃ fault, form.exec name value machine = .error (.fault fault) machine ∧
        fault.kind = some .constError := by
  refine ⟨fun request fuel => ?_, fun form name value held target constant =>
    form.exec_constant target constant value⟩
  cases request with
  | operate operation => exact (operation.evolves fuel machine).1.keepsConstants
  | prepare => exact (prepare_keepsRoot machine).keepsConstants
  | run => exact (run_keepsRoot fuel machine).keepsConstants
  | write form name value => exact (form.evolves name value machine).keepsConstants

/-- A block of a script that has a constant: an assignment in the block is aimed at it. -/
theorem constants_kept_block : ∃ machine : Machine,
    machine.stack.depth = 2 ∧
    Write.assign.target? machine "LIMIT" = some ⟨.number 5, true⟩ ∧
    (∃ fault, Write.assign.exec "LIMIT" (.number 6) machine = .error (.fault fault) machine ∧
      fault.kind = some .constError) ∧
    ∀ fuel : Nat, machine.stack.KeepsConstants (Request.run.final fuel machine).stack := by
  have target : Write.assign.target?
      { ofTokens {} "main" [] with
        stack :=
          { inner := [Scope.ofCode .block .empty]
            root := { Scope.ofCode .script .empty with
              vars := [("limit", ⟨.number 5, true⟩)] } } } "LIMIT" = some ⟨.number 5, true⟩ := by
    decide +kernel
  exact ⟨_, rfl, target, (constants_kept _).2 .assign "LIMIT" (.number 6) _ target rfl,
    fun fuel => (constants_kept _).1 .run fuel⟩

end Machine

end LineScript
