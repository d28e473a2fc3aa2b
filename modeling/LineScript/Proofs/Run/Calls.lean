import LineScript.Proofs.Custody.Heap
import LineScript.Proofs.Program.Tables
import LineScript.Proofs.Run.Registers

/-!
# What a call gives

A call of a script's function is refused over the number of its arguments or when too many calls are
running, and otherwise gives what its body leaves. A call of a function of the library stops over its
arguments, or for a reason of the library.
-/

namespace LineScript

section

open Machine

/-- What a call gives, by how the running of its body ended. -/
def callResult (function : UserFunction) (line : Nat) :
    EStateM.Result Stop Machine Flow → EStateM.Result Stop Machine Value
  | .ok flow last =>
    let registers := last.stack.top.registers
    .ok (returnedValue flow registers)
      { returned last with
        stack := last.stack.pop.recode fun before =>
          { before with error := registers.error, extended := registers.extended } }
  | .error stop last => .error (stop.leaving function.name line) (returned last)

namespace Engine

/-- A call with a number of arguments that is not accepted is an arity error and changes nothing. -/
theorem callUser_arity (low : Engine) {function : UserFunction} {args : List Value}
    (refused : ¬function.Accepts args.length) (line : Nat) (machine : Machine) :
    low.callUser function args line machine =
      .error (.fault (.running (function.arityCause args.length) line [])) machine := by
  rw [Engine.callUser, Engine.callUserBy_attempt, Engine.runBody]
  rw [function.checkArity_eq, if_neg refused]
  rfl

/-- A call on a full stack is a depth error and changes nothing. -/
theorem callUser_full (low : Engine) {function : UserFunction} {args : List Value}
    (accepts : function.Accepts args.length) (line : Nat) {machine : Machine}
    (full : maxCallDepth ≤ machine.callDepth) :
    low.callUser function args line machine =
      .error (.fault (.running (.callDepth function.name) line [])) machine.cleared := by
  rw [callUser_eq low accepts, if_pos full]

/-- A call with room runs the body in a new frame. -/
theorem callUser_room (low : Engine) {function : UserFunction} {args : List Value}
    (accepts : function.Accepts args.length) (line : Nat) {machine : Machine}
    (room : ¬maxCallDepth ≤ machine.callDepth) :
    low.callUser function args line machine =
      callResult function line
        (low.runBody function args line (machine.entered function args.length line)) := by
  rw [callUser_eq low accepts, if_neg room]
  unfold callResult
  cases low.runBody function args line (machine.entered function args.length line) <;> rfl

end Engine

/-- The parameters of a function of the library that must be given come first. -/
theorem Builtin.required_first (function : Builtin) :
    function.params.Pairwise fun earlier later => later.fallback.isNone → earlier.fallback.isNone := by
  cases function <;> decide

/-- What a function of the library has no value for is a parameter without a default whose argument is
missing or asks for the default. -/
theorem Args.fill_error {params : List BuiltinParam} {given : List Value} {name : String}
    (failed : Args.fill params given = .error name) :
    ∃ (position : Nat) (param : BuiltinParam), params[position]? = some param ∧
      param.name = name ∧ param.fallback = none ∧
      given[position]?.getD .defaultWord = .defaultWord := by
  induction params generalizing given with
  | nil => cases failed
  | cons param params ih =>
    have later : ∀ value : Value,
        (do return value :: (← Args.fill params given.tail) : Except String (List Value)) =
          .error name →
        ∃ (position : Nat) (other : BuiltinParam), (param :: params)[position]? = some other ∧
          other.name = name ∧ other.fallback = none ∧
          given[position]?.getD .defaultWord = .defaultWord := by
      intro value failed
      obtain failed | ⟨_, _, ⟨⟩⟩ := bind_eq_error.mp failed
      obtain ⟨position, other, at', named, none', asks⟩ := ih failed
      rw [List.getElem?_tail] at asks
      exact ⟨position + 1, other, at', named, none', asks⟩
    unfold Args.fill at failed
    dsimp only at failed
    split at failed
    · rename_i asks
      split at failed
      · exact later _ failed
      · rename_i none'
        cases failed
        rw [List.head?_eq_getElem?] at asks
        exact ⟨0, param, rfl, rfl, none', asks⟩
    · exact later _ failed

/-- A number of arguments that is accepted is enough, and nothing has happened yet. -/
theorem checkArity_ok {name : String} {greatest required given line : Nat} {machine after : Machine}
    (accepted : checkArity name greatest required given line machine = .ok () after) :
    required ≤ given ∧ machine = after := by
  unfold checkArity at accepted
  repeat' split at accepted
  all_goals cases accepted
  exact ⟨by omega, rfl⟩

/-- A call of a function of the library stops over its arguments, that is their number or one that is
missing although there are enough, or for a reason of the library. -/
theorem callBuiltin_fault {function : Builtin} {args : List Value} {line : Nat} {stop : Stop}
    {machine after : Machine} (failed : callBuiltin function args line machine = .error stop after) :
    (∃ cause, stop = .fault (.running cause line []) ∧
      ∀ name parameter, cause = .noDefault name parameter →
        function.required ≤ args.length ∧ Args.fill function.params args = .error parameter) ∨
    stop.OfLibrary machine.line := by
  unfold callBuiltin callBuiltinBy at failed
  rcases run_bind_eq_error.mp failed with refused | ⟨_, _, checked, failed⟩
  · unfold checkArity at refused
    repeat' split at refused
    all_goals cases refused
    all_goals exact .inl ⟨_, rfl, nofun⟩
  · obtain ⟨enough, rfl⟩ := checkArity_ok checked
    cases fills : Args.fill function.params args with
    | error missing =>
      rw [fills] at failed
      cases failed
      refine .inl ⟨_, rfl, fun name parameter same => ?_⟩
      cases same
      exact ⟨enough, rfl⟩
    | ok values =>
      rw [fills] at failed
      exact .inr ((tame_served function args.length values).stops failed)

/-- A function of the library that says that a parameter has no default was asked for it. -/
theorem callBuiltin_noDefault {function : Builtin} {args : List Value} {line at' : Nat}
    {machine after : Machine} {name parameter : String} {calls : List CallFrame}
    (failed : callBuiltin function args line machine =
      .error (.fault (.running (.noDefault name parameter) at' calls)) after) :
    ∃ (position : Nat) (param : BuiltinParam), function.params[position]? = some param ∧
      param.name = parameter ∧ position < function.required ∧
      args[position]? = some .defaultWord := by
  obtain ⟨_, same, missing⟩ := (callBuiltin_fault failed).resolve_right nofun
  cases same
  obtain ⟨enough, fills⟩ := missing _ _ rfl
  obtain ⟨position, param, at', named, none', asks⟩ := Args.fill_error fills
  have early : position < function.required :=
    (first_of_pairwise function.required_first at').mp (by simp [none'])
  have there := List.getElem?_eq_getElem (Nat.lt_of_lt_of_le early enough)
  rw [there, Option.getD_some] at asks
  exact ⟨position, param, at', named, early, by rw [there, asks]⟩

end

/-!
## Calls of the library that are accepted

A call with as many arguments as the function takes clears the two codes, is traced and runs the function on the
values of its parameters (`Machine.callBuiltin_readied`).
-/

/-- The action returns a value and leaves all objects as they are. -/
def Exec.Gives (action : Exec Value) (machine : Machine) (value : Value) : Prop :=
  ∃ after, action machine = .ok value after ∧ after.heap = machine.heap

/-- The action returns a new array of these items and leaves an error code. -/
def Exec.GivesArray (action : Exec Value) (machine : Machine) (items : List Value) (error : Int64) : Prop :=
  ∃ after, action machine = .ok (.handle machine.heap.nextId) after ∧
    after.heap = machine.heap.add (.array items.toArray) ∧ after.registers.error = error

/-- An action gives one value only. -/
theorem Exec.Gives.value_eq {action : Exec Value} {machine : Machine} {value other : Value}
    (gives : action.Gives machine value) (again : action.Gives machine other) : value = other := by
  obtain ⟨after, ran, -⟩ := gives
  obtain ⟨last, same, -⟩ := again
  rw [ran] at same
  exact (EStateM.Result.ok.inj same).1

/-- An action gives the items of one array only. -/
theorem Exec.GivesArray.items_eq {action : Exec Value} {machine : Machine} {items others : List Value}
    {error code : Int64} (gives : action.GivesArray machine items error)
    (other : action.GivesArray machine others code) : items = others := by
  obtain ⟨after, ran, heap, -⟩ := gives
  obtain ⟨last, again, added, -⟩ := other
  rw [ran] at again
  obtain ⟨-, rfl⟩ := EStateM.Result.ok.inj again
  have object : (machine.heap.add (.array items.toArray)).get? machine.heap.nextId =
      (machine.heap.add (.array others.toArray)).get? machine.heap.nextId := by rw [← heap, added]
  rw [Heap.get?_add, if_pos rfl, Heap.get?_add, if_pos rfl] at object
  exact List.toArray_inj (HeapObject.array.inj (Option.some.inj object))

/-- Making an array gives the array of its items. -/
theorem Machine.newArray_gives (items : List Value) (machine : Machine) :
    (newArray items.toArray).GivesArray machine items machine.registers.error :=
  ⟨_, rfl, rfl, rfl⟩

namespace Machine

/-- The machine with the registers of the innermost frame changed. -/
def recoded (machine : Machine) (change : Registers → Registers) : Machine :=
  { machine with stack := machine.stack.recode change }

/-- The registers of a recoded machine are the changed ones. -/
@[simp] theorem registers_recoded (machine : Machine) (change : Registers → Registers) :
    (machine.recoded change).registers = change machine.registers :=
  congrArg Scope.registers (machine.stack.frame_recode change)

/-- The machine on which a function of the library runs when it is called with so many arguments. -/
def readied (machine : Machine) (function : Builtin) (count : Nat) : Machine :=
  let cleared := machine.recoded fun registers => { registers with error := 0, extended := 0 }
  { cleared with
    host := machine.host.trace fun _ => "call: " ++ function.name ++ "(" ++ toString count ++ " args)" }

/-- The registers of a readied machine have no error and no extended code. -/
@[simp] theorem registers_readied (machine : Machine) (function : Builtin) (count : Nat) :
    (machine.readied function count).registers = { machine.registers with error := 0, extended := 0 } :=
  machine.registers_recoded _

/-- A call that is accepted runs the function. -/
theorem callBuiltin_readied {function : Builtin} {args values : List Value}
    (most : args.length ≤ function.params.length) (least : function.required ≤ args.length)
    (filled : Args.fill function.params args = .ok values) (line : Nat) (machine : Machine) :
    callBuiltin function args line machine =
      function.run ⟨values, args.length⟩ (machine.readied function args.length) := by
  have accepted : checkArity function.name function.params.length function.required args.length line =
      pure () := by
    rw [checkArity, if_neg (Nat.not_lt.mpr most), if_neg (Nat.not_lt.mpr least)]
  unfold callBuiltin callBuiltinBy
  rw [accepted, filled]
  rfl

end Machine

end LineScript
