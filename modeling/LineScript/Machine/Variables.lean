import LineScript.Machine.Basic

/-!
# Variables and registers

Reading a variable looks through all scopes; writing one stays inside the running function, except
that the script's own variables can always be reached. A constant is never written again.
-/

namespace LineScript.Machine

/-- The value of a variable, whatever the case of its name. -/
def varValue? (machine : Machine) (name : String) : Option Value :=
  (machine.stack.lookup? (Text.lower name)).map Variable.value

/-- A variable of this name exists in some scope. -/
def hasVariable (machine : Machine) (name : String) : Bool :=
  (machine.stack.lookup? (Text.lower name)).isSome

/-- Writes a variable of the scope at a position, unless it is constant there. -/
def writeVariable (position : Nat) (name : String) (value : Value) (constant : Bool) :
    Exec Unit := do
  let machine ← get
  let key := Text.lower name
  match (machine.stack.scopeAt position).vars.get? key with
  | some { constant := true, .. } => Exec.fail (.constantWrite name) machine.line
  | _ =>
    modify fun machine =>
      { machine with
        stack := machine.stack.modifyAt position fun scope =>
          { scope with vars := scope.vars.insert key ⟨value, constant⟩ } }

/-- Writes a variable of the innermost scope. -/
def setVariable (name : String) (value : Value) : Exec Unit :=
  writeVariable 0 name value false

/-- A plain assignment. -/
def assignVariable (name : String) (value : Value) : Exec Unit := do
  let key := Text.lower name
  writeVariable ((← get).stack.assignPosition key) key value false

/-- A declaration. -/
def declareVariable (scope : DeclScope) (name : String) (value : Value) (constant : Bool) :
    Exec Unit := do
  writeVariable ((← get).stack.declPosition scope) name value constant

/-- The innermost frame already has the variable that a static declaration would make. -/
def declaredStatic (machine : Machine) (name : String) : Bool :=
  machine.stack.frame.vars.has (Text.lower name)

/-- The registers of the innermost frame. -/
def registers (machine : Machine) : Registers := machine.stack.frame.registers

/-- Changes the registers of the innermost frame. -/
def modifyRegisters (change : Registers → Registers) : Exec Unit :=
  modify fun machine =>
    { machine with
      stack := machine.stack.modifyFrame fun scope =>
        { scope with registers := change scope.registers } }

/-- Sets the error register. -/
def setError (code : Int64) : Exec Unit :=
  modifyRegisters fun registers => { registers with error := code }

/-- Sets the extended register. -/
def setExtended (code : Int64) : Exec Unit :=
  modifyRegisters fun registers => { registers with extended := code }

/-- Sets the value that a function returns when it ends without saying so. -/
def setReturnValue (value : Value) : Exec Unit :=
  modifyRegisters fun registers => { registers with returnValue := value }

/-- The number of arguments of the call that is running. -/
def numParams (machine : Machine) : Nat := machine.stack.frame.numParams

/-- Clears the two codes, as every call does. -/
def resetRegisters : Exec Unit :=
  modifyRegisters fun registers => { registers with error := 0, extended := 0 }

end LineScript.Machine
