import Mathlib.Logic.Function.Basic
import LineScript.Proofs.Counting.Loop
import LineScript.Proofs.Machine.Grid
import LineScript.Proofs.Maps.Aside
import LineScript.Proofs.Maps.Entries
import LineScript.Proofs.Run.Calls

/-!
# The history of a map

A map is made, and then keys are stored in it, updated with an operator and removed, through whatever variables and
paths lead to it, while anything may be done with other objects (`History`). What can be observed of it is the finite
map that its history replays to: the value under the text of a key, whether a key is there, how many there are, and
all of them in increasing order (`map_replays`). The order is that of their bytes.
-/

namespace LineScript

open Machine Exec Text

/-! ## Loops over a list of values -/

namespace Engine

variable {low : Engine} {loop : ForLoop}

/-- How a loop ends whose body ended so, and did not go on. -/
def ending : EStateM.Result Stop Machine Flow → EStateM.Result Stop Machine Flow
  | .ok flow after =>
    match Round.ofFlow flow with
    | .leave outer => .ok outer after
    | _ => .ok .normal after
  | .error stop after => .error stop after

/-- The outcome of a loop over a list of values: its body ran for each of them in turn, or for all before one for
which it did not go on. -/
inductive Lists (low : Engine) (loop : ForLoop) (values : List Value) (machine : Machine) :
    EStateM.Result Stop Machine Flow → Prop
  /-- The body ran for all of them. -/
  | all {after : Machine} (rounds : low.Rounds loop values machine after) :
    Lists low loop values machine (.ok .normal after)
  /-- It ended the loop for one of them. -/
  | upTo {visited rest : List Value} {value : Value} {middle : Machine}
      (split : values = visited ++ value :: rest) (rounds : low.Rounds loop visited machine middle)
      (ends : ∀ flow after,
        low.runBlock (.whole loop.body) [(loop.index, value)] middle = .ok flow after → ¬ goesOn flow) :
    Lists low loop values machine (ending (low.runBlock (.whole loop.body) [(loop.index, value)] middle))

/-- One more round before the others. -/
theorem Lists.round {values : List Value} {value : Value} {machine middle : Machine} {flow : Flow}
    {outcome : EStateM.Result Stop Machine Flow}
    (ran : low.runBlock (.whole loop.body) [(loop.index, value)] machine = .ok flow middle) (on : goesOn flow)
    (later : low.Lists loop values middle outcome) : low.Lists loop (value :: values) machine outcome := by
  cases later with
  | all rounds => exact .all (.round ran on rounds)
  | upTo split rounds ends =>
    rw [split]
    exact .upTo rfl (.round ran on rounds) ends

/-- A body that does not go on ends the loop. -/
theorem round_eq_ending {value : Value} (members : List Value) {machine : Machine}
    (ends : ∀ flow after,
      low.runBlock (.whole loop.body) [(loop.index, value)] machine = .ok flow after → ¬ goesOn flow) :
    low.visitEach loop (value :: members) machine =
      ending (low.runBlock (.whole loop.body) [(loop.index, value)] machine) := by
  unfold visitEach Engine.round
  simp only [bind, EStateM.bind]
  cases ran : low.runBlock (.whole loop.body) [(loop.index, value)] machine with
  | error stop after => rfl
  | ok flow after =>
    cases flow with
    | normal => exact absurd trivial (ends _ _ ran)
    | continueLoop levels =>
      have further : levels ≠ 1 := ends _ _ ran
      simp only [ending, Round.ofFlow, if_neg further]
      rfl
    | exitLoop levels =>
      simp only [ending, Round.ofFlow]
      by_cases last : levels = 1
      · rw [if_pos last]
        rfl
      · rw [if_neg last]
        rfl
    | _ => rfl

/-- A loop over a list lists it. -/
theorem visitEach_lists (values : List Value) (machine : Machine) :
    low.Lists loop values machine (low.visitEach loop values machine) := by
  induction values generalizing machine with
  | nil => exact .all .done
  | cons value values ih =>
    by_cases goes : ∃ flow middle,
        low.runBlock (.whole loop.body) [(loop.index, value)] machine = .ok flow middle ∧ goesOn flow
    · obtain ⟨flow, middle, ran, on⟩ := goes
      have visits : low.visitEach loop (value :: values) machine = low.visitEach loop values middle := by
        conv_lhs => unfold visitEach
        simp only [bind, EStateM.bind, round_eq ran on]
      rw [visits]
      exact .round ran on (ih middle)
    · have ends (flow : Flow) (after : Machine)
          (ran : low.runBlock (.whole loop.body) [(loop.index, value)] machine = .ok flow after) : ¬ goesOn flow :=
        fun on => goes ⟨flow, after, ran, on⟩
      rw [round_eq_ending values ends]
      exact .upTo rfl .done ends

end Engine

/-! ## Histories -/

/-- What is done with a map, or beside it. -/
inductive MapStep where
  /-- A value is stored under a key. -/
  | store (key : String) (value : Value)
  /-- What an operator makes of the value under a key and a given one is stored there. -/
  | update (key operator : String) (given : Value)
  /-- A key is removed. -/
  | remove (key : String)
  /-- Something else happens. -/
  | beside

/-- What a step makes of a finite map. An update needs a value under its key to which its operator applies. -/
def MapStep.apply (contents : String → Option Value) : MapStep → String → Option Value
  | store key value => Function.update contents key (some value)
  | update key operator given =>
    match (contents key).bind fun held => (Value.combine operator held given 0).toOption with
    | some value => Function.update contents key (some value)
    | none => contents
  | remove key => Function.update contents key none
  | beside => contents

/-- The finite map that steps lead to from the empty one. -/
def replay (steps : List MapStep) : String → Option Value := steps.foldl MapStep.apply fun _ => none

/-- What a machine does, as a step of the map of a handle. -/
inductive Does (id : HandleId) : MapStep → Machine → Machine → Prop
  /-- A plain assignment through a variable and a path that lead to the map. -/
  | store {machine after : Machine} {window : Window} {pos : Nat} {variable' : Token} {path : List Value}
      {key value : Value} (leads : machine.target? variable'.lexeme path = some (.handle id))
      (ran : assignTo window pos variable' (path ++ [key]) "=" value machine = .ok () after) :
    Does id (.store key.display value) machine after
  /-- An assignment with an operator. -/
  | update {machine after : Machine} {window : Window} {pos : Nat} {variable' : Token} {path : List Value}
      {key given : Value} {operator base : String} (compound : compoundBase? operator = some base)
      (leads : machine.target? variable'.lexeme path = some (.handle id))
      (ran : assignTo window pos variable' (path ++ [key]) operator given machine = .ok () after) :
    Does id (.update key.display base given) machine after
  /-- A call that removes a key. -/
  | remove {machine after : Machine} {line : Nat} {key result : Value} (given : key ≠ .defaultWord)
      (ran : callBuiltin .mapRemove [.handle id, key] line machine = .ok result after) :
    Does id (.remove key.display) machine after
  /-- Anything that leaves the object of the handle alone. -/
  | beside {machine after : Machine} (still : after.heap.get? id = machine.heap.get? id) :
    Does id .beside machine after

/-- What was done with the map of a handle since it was made. -/
inductive History (id : HandleId) : List MapStep → Machine → Prop
  /-- It was made. -/
  | made {machine after : Machine} (ran : newMap machine = .ok (.handle id) after) : History id [] after
  /-- One more step. -/
  | step {steps : List MapStep} {step : MapStep} {machine after : Machine} (earlier : History id steps machine)
      (does : Does id step machine after) : History id (steps ++ [step]) after

/-! ## What a step makes of the entries -/

/-- The object of a handle is a map with these contents. -/
structure Represents (id : HandleId) (contents : String → Option Value) (entries : Entries) (machine : Machine) :
    Prop where
  /-- It has the entries. -/
  held : machine.heap.get? id = some (.map entries)
  /-- They are in order. -/
  sorted : entries.Sorted
  /-- They are the contents. -/
  contains : ∀ key, entries.get? key = contents key

variable {id : HandleId} {contents : String → Option Value} {entries : Entries} {machine after : Machine}

/-- An assignment through a path that leads to a handle computes its value on the machine and stores it. -/
theorem assignTo_through {variable' : Token} {path : List Value}
    (leads : machine.target? variable'.lexeme path = some (.handle id)) (window : Window) (pos : Nat) (key : Value)
    (operator : String) (given : Value) : assignTo window pos variable' (path ++ [key]) operator given machine =
      (storedValue operator (element window pos (.handle id) key) given variable'.line >>= storeElement id key)
        machine := by
  have walk := holder_finds machine window pos variable' path
  rw [leads] at walk
  rw [assignTo_element, walk.then_eq]

/-- A call that a function of the library with two arguments, both needed, accepts. -/
theorem fill_pair {first second : String} {value key : Value} (given : value ≠ .defaultWord)
    (keyGiven : key ≠ .defaultWord) :
    Args.fill [Builtin.needs first, Builtin.needs second] [value, key] = .ok [value, key] := by
  cases value <;> cases key <;> first | rfl | exact absurd rfl given | exact absurd rfl keyGiven

namespace Represents

variable (represents : Represents id contents entries machine)

include represents

/-- The handle of a represented map has been issued. -/
theorem issued : machine.heap.Issued id := Heap.Live.issued ⟨_, represents.held⟩

/-- The handle refers to the map. -/
theorem objectOf?_eq : machine.objectOf? (.handle id) = some (.map entries) := represents.held

/-- An element of a represented map is what its contents say. -/
theorem element?_eq (key : Value) : machine.element? (.handle id) key = contents key.display := by
  unfold element?
  simp only [represents.held]
  exact represents.contains _

/-- Anything that leaves the object alone. -/
theorem beside (still : after.heap.get? id = machine.heap.get? id) : Represents id contents entries after :=
  ⟨still.trans represents.held, represents.sorted, represents.contains⟩

/-- A value was put under a key. -/
theorem inserted (key : String) (value : Value)
    (set : after.heap = machine.heap.set id (.map (entries.insert key value))) :
    Represents id (Function.update contents key (some value)) (entries.insert key value) after := by
  refine ⟨?_, represents.sorted.insert key value, fun other => ?_⟩
  · rw [set, Heap.get?_set_self represents.issued]
  · rw [Entries.get?_insert, Function.update_apply, represents.contains]

/-- A key was taken out. -/
theorem erased (key : String) (set : after.heap = machine.heap.set id (.map (entries.erase key))) :
    Represents id (Function.update contents key none) (entries.erase key) after := by
  refine ⟨?_, represents.sorted.erase key, fun other => ?_⟩
  · rw [set, Heap.get?_set_self represents.issued]
  · rw [Entries.get?_erase, Function.update_apply, represents.contains]

/-- A value that is stored is put under the text of its key. -/
theorem storeElement_eq (key value : Value) : storeElement id key value machine =
    .ok () { machine with heap := machine.heap.set id (.map (entries.insert key.display value)) } := by
  have held := represents.held
  simp only [storeElement, mapSet, setObject, bind, EStateM.bind, run_get, held]
  rfl

variable {variable' : Token} {path : List Value}

/-- A plain assignment to a key stores the value in the entries. -/
theorem assignTo_plain (leads : machine.target? variable'.lexeme path = some (.handle id)) (window : Window)
    (pos : Nat) (key value : Value) : assignTo window pos variable' (path ++ [key]) "=" value machine =
      .ok () { machine with heap := machine.heap.set id (.map (entries.insert key.display value)) } := by
  rw [assignTo_through leads, storedValue_plain, pure_bind, represents.storeElement_eq]

/-- Reading a key finds what the contents say. -/
theorem element_finds (window : Window) (pos : Nat) (key : Value) :
    Finds (element window pos (.handle id) key) machine (contents key.display) := by
  rw [element_eq, ← represents.element?_eq]
  exact Expression.select_finds machine _ _ key

/-- Reading a key that is present gives its value. -/
theorem element_ok {key held : Value} (found : contents key.display = some held) (window : Window) (pos : Nat) :
    element window pos (.handle id) key machine = .ok held machine := by
  have finds := represents.element_finds window pos key
  rwa [found] at finds

/-- Reading a missing key is a key error. -/
theorem element_missing {key : Value} (missing : contents key.display = none) (window : Window) (pos : Nat) :
    (element window pos (.handle id) key).Faults machine .keyError (.keyMissing key.display) machine.line := by
  have held := represents.held
  have absent : entries.get? key.display = none := (represents.contains _).trans missing
  refine ⟨?_, rfl⟩
  simp only [element, mapGet, bind, EStateM.bind, run_get, held, absent]
  rfl

/-- A compound assignment to a present key stores the combined value. -/
theorem assignTo_update {operator base : String} (compound : compoundBase? operator = some base)
    (leads : machine.target? variable'.lexeme path = some (.handle id)) {key held : Value}
    (found : contents key.display = some held) (window : Window) (pos : Nat) (given : Value) :
    assignTo window pos variable' (path ++ [key]) operator given machine =
      (Exec.ofExcept (Value.combine base held given variable'.line) >>= storeElement id key) machine := by
  rw [assignTo_through leads, storedValue, compound]
  simp only [bind, EStateM.bind, represents.element_ok found]

/-- A compound assignment to a missing key is a key error. -/
theorem assignTo_missing {operator base : String} (compound : compoundBase? operator = some base)
    (leads : machine.target? variable'.lexeme path = some (.handle id)) {key : Value}
    (missing : contents key.display = none) (window : Window) (pos : Nat) (given : Value) :
    (assignTo window pos variable' (path ++ [key]) operator given).Faults machine .keyError
      (.keyMissing key.display) machine.line := by
  have failed := (represents.element_missing missing window pos).1
  refine ⟨?_, rfl⟩
  rw [assignTo_through leads, storedValue, compound]
  simp only [bind, EStateM.bind, failed]

/-! ### The library -/

variable {key : Value}

/-- Removing a key tells whether it was present and erases it. -/
theorem mapRemove_eq (given : key ≠ .defaultWord) (line : Nat) : ∃ after,
    callBuiltin .mapRemove [.handle id, key] line machine = .ok (.bool (contents key.display).isSome) after ∧
      after.heap = machine.heap.set id (.map (entries.erase key.display)) := by
  let ready := machine.readied .mapRemove 2
  have held : ready.heap.get? id = some (.map entries) := represents.held
  have called : callBuiltin .mapRemove [.handle id, key] line machine =
      Library.mapRemove ⟨[.handle id, key], 2⟩ ready :=
    @callBuiltin_readied .mapRemove [.handle id, key] _ (Nat.le_refl 2) (Nat.le_refl 2) (fill_pair nofun given)
      line machine
  have removed : Library.mapRemove ⟨[.handle id, key], 2⟩ ready = .ok (.bool (entries.get? key.display).isSome)
      { ready with heap := ready.heap.set id (.map (entries.erase key.display)) } := by
    unfold Library.mapRemove
    simp only [Args.value, List.getD_cons_zero, bind, EStateM.bind, run_get, held]
    rfl
  rw [called, removed, represents.contains]
  exact ⟨_, rfl, rfl⟩

/-- Looking for a key tells whether it is present. -/
theorem mapExists_gives (given : key ≠ .defaultWord) (line : Nat) :
    (callBuiltin .mapExists [.handle id, key] line).Gives machine (.bool (contents key.display).isSome) := by
  let ready := machine.readied .mapExists 2
  have object : ready.objectOf? (.handle id) = some (.map entries) := represents.objectOf?_eq
  have called : callBuiltin .mapExists [.handle id, key] line machine =
      Library.mapExists ⟨[.handle id, key], 2⟩ ready :=
    @callBuiltin_readied .mapExists [.handle id, key] _ (Nat.le_refl 2) (Nat.le_refl 2) (fill_pair nofun given)
      line machine
  have told : Library.mapExists ⟨[.handle id, key], 2⟩ ready =
      .ok (.bool (entries.get? key.display).isSome) ready := by
    unfold Library.mapExists
    simp only [Args.value, List.getD_cons_zero, bind, EStateM.bind, run_get, object]
    rfl
  rw [told, represents.contains] at called
  exact ⟨_, called, rfl⟩

/-- The size of a represented map is the number of its keys. -/
theorem uBound_gives (line : Nat) :
    (callBuiltin .uBound [.handle id] line).Gives machine (.number (Int64.ofNat entries.keys.length)) := by
  let ready := machine.readied .uBound 1
  have object : ready.objectOf? (.handle id) = some (.map entries) := represents.objectOf?_eq
  have called : callBuiltin .uBound [.handle id] line machine =
      Library.uBound ⟨[.handle id, .number 1], 1⟩ ready :=
    @callBuiltin_readied .uBound [.handle id] _ (Nat.le_succ 1) (Nat.le_refl 1) rfl line machine
  have counted : Library.extent ready 1 true 0 (.handle id) = .ok entries.length := by
    unfold Library.extent
    simp only [object]
    rfl
  have told : Library.uBound ⟨[.handle id, .number 1], 1⟩ ready =
      .ok (.number (Int64.ofNat entries.length)) ready := by
    unfold Library.uBound
    have first : (⟨[.handle id, .number 1], 1⟩ : Args).int 1 = 1 := rfl
    have outermost : ((1 : Int64).toInt - 1).toNat = 0 := by decide
    simp only [Args.value, List.getD_cons_zero, bind, EStateM.bind, run_get, first, outermost, counted]
    rfl
  rw [told] at called
  rw [Entries.keys, List.length_map]
  exact ⟨_, called, rfl⟩

/-- The keys of a represented map are listed in their order. -/
theorem mapKeys_gives (line : Nat) :
    (callBuiltin .mapKeys [.handle id] line).GivesArray machine (entries.keys.map Value.string) 0 := by
  let ready := machine.readied .mapKeys 1
  have object : ready.objectOf? (.handle id) = some (.map entries) := represents.objectOf?_eq
  have called : callBuiltin .mapKeys [.handle id] line machine = Library.mapKeys ⟨[.handle id], 1⟩ ready :=
    @callBuiltin_readied .mapKeys [.handle id] _ (Nat.le_refl 1) (Nat.le_refl 1) rfl line machine
  have listed : Library.mapKeys ⟨[.handle id], 1⟩ ready =
      newArray (entries.keys.map Value.string).toArray ready := by
    unfold Library.mapKeys
    simp only [Args.value, List.getD_cons_zero, bind, EStateM.bind, run_get, object]
  obtain ⟨after, made, heap, error⟩ := newArray_gives (entries.keys.map Value.string) ready
  refine ⟨after, called.trans (listed.trans made), heap, ?_⟩
  rw [error, registers_readied]

/-- A loop over the map lists the keys that it has when the loop begins. -/
theorem forLoop_lists {low : Engine} {loop : ForLoop} {collection : TokenBlock} {number : Nat} {before : Machine}
    (found : before.program.loops[number]? = some loop) (head : loop.head = .each collection)
    (evaluates : low.whole (.whole collection) before = .ok (.handle id) machine) (token : Token) :
    low.Lists loop (entries.keys.map Value.string) machine (low.forLoop token number before) := by
  have object := represents.objectOf?_eq
  have members : members? machine (.handle id) = some (entries.keys.map Value.string) := by
    unfold members?
    simp only [object]
  have visits : low.forLoop token number before = low.visitEach loop (entries.keys.map Value.string) machine := by
    unfold Engine.forLoop
    simp only [bind, EStateM.bind, run_get, found, head, evaluates, members]
  rw [visits]
  exact Engine.visitEach_lists _ machine

end Represents

/-- Each step makes of the map what it makes of a finite map. -/
theorem Does.represents {step : MapStep} (does : Does id step machine after)
    (before : Represents id contents entries machine) :
    ∃ later, Represents id (step.apply contents) later after := by
  cases does with
  | store leads ran =>
    rw [before.assignTo_plain leads] at ran
    cases ran
    exact ⟨_, before.inserted _ _ rfl⟩
  | @update _ _ window pos _ _ key given _ base compound leads ran =>
    rw [assignTo_through leads, stored_ok_iff (before.element_finds window pos key) compound] at ran
    obtain ⟨held, result, found, combined, stored⟩ := ran
    rw [before.storeElement_eq] at stored
    cases stored
    refine ⟨entries.insert key.display result, ?_⟩
    have applies : ((contents key.display).bind fun held => (Value.combine base held given 0).toOption) =
        some result := by rw [found, Option.bind_some, combined]
    rw [MapStep.apply, applies]
    exact before.inserted _ _ rfl
  | remove given ran =>
    obtain ⟨last, removed, set⟩ := before.mapRemove_eq given _
    rw [removed] at ran
    cases ran
    exact ⟨_, before.erased _ set⟩
  | beside still => exact ⟨_, before.beside still⟩

/-- The map of a history is what the history replays to. -/
theorem History.represents {steps : List MapStep} (history : History id steps machine) :
    ∃ entries, Represents id (replay steps) entries machine := by
  induction history with
  | @made machine after ran =>
    cases ran
    refine ⟨[], ?_, .nil, fun _ => rfl⟩
    change (machine.heap.add (.map [])).get? machine.heap.nextId = _
    rw [Heap.get?_add, if_pos rfl]
  | step _ does ih =>
    obtain ⟨entries, before⟩ := ih
    rw [replay, List.foldl_concat]
    exact does.represents before

/-! ## What can be observed -/

/-- What can be observed of the map of a handle is a finite map. -/
structure Observed (id : HandleId) (contents : String → Option Value) (machine : Machine) : Prop where
  /-- A subscript reads the value under the text of its key, or stops. -/
  reads (window : Window) (pos : Nat) (key : Value) :
    match contents key.display with
    | some value => element window pos (.handle id) key machine = .ok value machine
    | none => (element window pos (.handle id) key).Faults machine .keyError (.keyMissing key.display) machine.line
  /-- A plain assignment to an element succeeds. -/
  stores {variable' : Token} {path : List Value} (leads : machine.target? variable'.lexeme path = some (.handle id))
    (window : Window) (pos : Nat) (key value : Value) :
    ∃ after, assignTo window pos variable' (path ++ [key]) "=" value machine = .ok () after
  /-- An assignment with an operator does when there is a value to which the operator applies. -/
  updates {variable' : Token} {path : List Value} {operator base : String}
    (compound : compoundBase? operator = some base)
    (leads : machine.target? variable'.lexeme path = some (.handle id)) (window : Window) (pos : Nat)
    (key given : Value) :
    match contents key.display with
    | some held =>
      match Value.combine base held given variable'.line with
      | .ok _ => ∃ after, assignTo window pos variable' (path ++ [key]) operator given machine = .ok () after
      | .error fault =>
        assignTo window pos variable' (path ++ [key]) operator given machine = .error (.fault fault) machine
    | none =>
      (assignTo window pos variable' (path ++ [key]) operator given).Faults machine .keyError
        (.keyMissing key.display) machine.line
  /-- The library tells whether a key is there. -/
  tells {key : Value} (given : key ≠ .defaultWord) (line : Nat) :
    (callBuiltin .mapExists [.handle id, key] line).Gives machine (.bool (contents key.display).isSome)
  /-- Removing a key tells whether it was there. -/
  removes {key : Value} (given : key ≠ .defaultWord) (line : Nat) : ∃ after,
    callBuiltin .mapRemove [.handle id, key] line machine = .ok (.bool (contents key.display).isSome) after
  /-- The keys that are there, in increasing order of their bytes, are counted, listed and looped over. -/
  lists : ∃ keys : List String, (∀ key, key ∈ keys ↔ (contents key).isSome) ∧
    keys.Pairwise (fun key later => Utf8.encode key < Utf8.encode later) ∧
    (∀ line, (callBuiltin .uBound [.handle id] line).Gives machine (.number (Int64.ofNat keys.length))) ∧
    (∀ line, (callBuiltin .mapKeys [.handle id] line).GivesArray machine (keys.map Value.string) 0) ∧
    ∀ (low : Engine) (loop : ForLoop) (collection : TokenBlock) (number : Nat) (before : Machine) (token : Token),
      before.program.loops[number]? = some loop → loop.head = .each collection →
      low.whole (.whole collection) before = .ok (.handle id) machine →
      low.Lists loop (keys.map Value.string) machine (low.forLoop token number before)

/-- What is done with other objects leaves the map of a handle alone. -/
structure Elsewhere (id : HandleId) (machine : Machine) : Prop where
  /-- A call of the library, unless it removes a key from the map. -/
  calls {function : Builtin} {args : List Value} {line : Nat} {value : Value} {after : Machine}
    (other : function = .mapRemove → args.head? ≠ some (.handle id))
    (ran : callBuiltin function args line machine = .ok value after) : Does id .beside machine after
  /-- An assignment, unless it is one to an element of the map. -/
  assigns {variable' : Token} {keys : List Value} {window : Window} {pos : Nat} {operator : String} {given : Value}
    {after : Machine}
    (other : ∀ path key, keys = path ++ [key] → machine.target? variable'.lexeme path ≠ some (.handle id))
    (ran : assignTo window pos variable' keys operator given machine = .ok () after) : Does id .beside machine after
  /-- A new object. -/
  makes {object : HeapObject} {other : HandleId} {after : Machine}
    (ran : addObject object machine = .ok other after) : Does id .beside machine after
  /-- A variable that is written, by an assignment or a declaration. -/
  writes {position : Nat} {name : String} {value : Value} {constant : Bool} {after : Machine}
    (ran : writeVariable position name value constant machine = .ok () after) : Does id .beside machine after
  /-- A new map, array or text in a variable. -/
  introduces {variable' : Token} {subscripts : Subscripts} {after : Machine}
    (ran : introduce variable' subscripts machine = .ok () after) : Does id .beside machine after
  /-- A resize. -/
  resizes {variable' : Token} {sizes : List Value} {first : Value} {after : Machine}
    (ran : resize variable' sizes first machine = .ok () after) : Does id .beside machine after

/-- A represented map is observed as its contents say. -/
theorem Represents.observed (represents : Represents id contents entries machine) :
    Observed id contents machine where
  reads window pos key := by
    split
    · rename_i found
      exact represents.element_ok found window pos
    · rename_i missing
      exact represents.element_missing missing window pos
  stores leads window pos key value := ⟨_, represents.assignTo_plain leads window pos key value⟩
  updates compound leads window pos key given := by
    split
    · rename_i held found
      rw [represents.assignTo_update compound leads found]
      split
      · rename_i value combined
        refine ⟨_, run_bind_eq_ok.mpr ⟨value, machine, ?_, represents.storeElement_eq key value⟩⟩
        rw [combined]
        rfl
      · rename_i fault combined
        rw [combined]
        rfl
    · rename_i missing
      exact represents.assignTo_missing compound leads missing window pos given
  tells := represents.mapExists_gives
  removes given line := by
    obtain ⟨after, removed, -⟩ := represents.mapRemove_eq given line
    exact ⟨after, removed⟩
  lists := by
    refine ⟨entries.keys, fun key => ?_, ?_, represents.uBound_gives, represents.mapKeys_gives, ?_⟩
    · rw [Entries.mem_keys_iff, represents.contains]
    · exact represents.sorted.keys.imp Utf8.encode_lt_encode
    · intro low loop collection number before token found head evaluates
      exact represents.forLoop_lists found head evaluates token

/-- A step that spares the map leaves it alone. -/
theorem Represents.spared {α : Type} (represents : Represents id contents entries machine) {action : Exec α}
    {value : α} (ran : action machine = .ok value after)
    (spares : (action.final machine).heap.get? id = some (.map entries)) : Does id .beside machine after := by
  unfold Exec.final at spares
  rw [ran] at spares
  exact .beside (spares.trans represents.held.symm)

/-- A represented map is left alone by what happens elsewhere. -/
theorem Represents.elsewhere (represents : Represents id contents entries machine) : Elsewhere id machine where
  calls other ran := represents.spared ran (callBuiltin_spares other _ machine represents.held)
  assigns other ran := represents.spared ran (assignTo_spares represents.held other _ _ _ _)
  makes ran := represents.spared ran (Spares.addObject _ machine represents.held)
  writes ran := represents.spared ran (spares_writeVariable _ _ _ _ machine represents.held)
  introduces ran := represents.spared ran (spares_introduce _ _ machine represents.held)
  resizes ran := represents.spared ran (spares_resize _ _ _ machine represents.held)

/-- After every history of a map, what can be observed of it is the finite map that the history replays to, and
what is done with other objects is no part of its history. -/
theorem map_replays {steps : List MapStep} (history : History id steps machine) :
    Observed id (replay steps) machine ∧ Elsewhere id machine := by
  obtain ⟨entries, represents⟩ := history.represents
  exact ⟨represents.observed, represents.elsewhere⟩

/-- Two variables name the first object of a heap. -/
def twiceNamed (objects : List HeapObject) : Machine :=
  { ofTokens {} "main" [] with
    stack := { root := { Scope.ofCode .script .empty with
      vars := [("m", ⟨.handle 1, false⟩), ("n", ⟨.handle 1, false⟩)] } }
    heap := ⟨(objects.map some).toArray⟩ }

/-- What is done with the map in the example. -/
def twiceNamedSteps : List MapStep :=
  [.store "b" (.number 1), .store "10" (.string "x"), .beside, .update "b" "+" (.number 2), .remove "10",
    .store "True" .null]

/-- A map is written through both variables, another map is made, a value is updated, a key removed and another one
stored. -/
theorem map_replays_twiceNamed : ∃ last, History 1 twiceNamedSteps last ∧
    element (.whole #[]) 0 (.handle 1) (.string "b") last = .ok (.number 3) last ∧
    (element (.whole #[]) 0 (.handle 1) (.number 10)).Faults last .keyError (.keyMissing "10") last.line ∧
    (callBuiltin .mapExists [.handle 1, .bool true] 1).Gives last (.bool true) ∧
    (callBuiltin .mapKeys [.handle 1] 1).GivesArray last [.string "True", .string "b"] 0 := by
  have made : newMap (twiceNamed []) = .ok (.handle 1) (twiceNamed [.map []]) := rfl
  have first : assignTo (.whole #[]) 0 ⟨.variableName, "m", 1, 1⟩ ([] ++ [.string "b"]) "=" (.number 1)
      (twiceNamed [.map []]) = .ok () (twiceNamed [.map [("b", .number 1)]]) := rfl
  have second : assignTo (.whole #[]) 0 ⟨.variableName, "n", 1, 1⟩ ([] ++ [.number 10]) "=" (.string "x")
      (twiceNamed [.map [("b", .number 1)]]) =
        .ok () (twiceNamed [.map [("10", .string "x"), ("b", .number 1)]]) := rfl
  have other : Does 1 .beside (twiceNamed [.map [("10", .string "x"), ("b", .number 1)]])
      (twiceNamed [.map [("10", .string "x"), ("b", .number 1)], .map []]) := .beside rfl
  have third : assignTo (.whole #[]) 0 ⟨.variableName, "n", 1, 1⟩ ([] ++ [.string "b"]) "+=" (.number 2)
      (twiceNamed [.map [("10", .string "x"), ("b", .number 1)], .map []]) =
        .ok () (twiceNamed [.map [("10", .string "x"), ("b", .number 3)], .map []]) := rfl
  have fourth : callBuiltin .mapRemove [.handle 1, .number 10] 1
      (twiceNamed [.map [("10", .string "x"), ("b", .number 3)], .map []]) =
        .ok (.bool true) (twiceNamed [.map [("b", .number 3)], .map []]) := rfl
  have fifth : assignTo (.whole #[]) 0 ⟨.variableName, "m", 1, 1⟩ ([] ++ [.bool true]) "=" .null
      (twiceNamed [.map [("b", .number 3)], .map []]) =
        .ok () (twiceNamed [.map [("True", .null), ("b", .number 3)], .map []]) := rfl
  have written := ((History.made made).step (.store rfl first)).step (.store rfl second)
  have updated := (written.step other).step (.update rfl rfl third)
  have removed := updated.step (.remove (Value.noConfusion : Value.number 10 ≠ .defaultWord) fourth)
  have history : History 1 twiceNamedSteps (twiceNamed [.map [("True", .null), ("b", .number 3)], .map []]) :=
    removed.step (.store rfl fifth)
  obtain ⟨observed, -⟩ := map_replays history
  obtain ⟨keys, -, -, -, lists, -⟩ := observed.lists
  have shown : (callBuiltin .mapKeys [.handle 1] 1).GivesArray
      (twiceNamed [.map [("True", .null), ("b", .number 3)], .map []]) [.string "True", .string "b"] 0 :=
    ⟨_, rfl, rfl, rfl⟩
  refine ⟨_, history, observed.reads (.whole #[]) 0 (.string "b"), observed.reads (.whole #[]) 0 (.number 10),
    observed.tells (Value.noConfusion : Value.bool true ≠ .defaultWord) 1, ?_⟩
  rw [← (lists 1).items_eq shown]
  exact lists 1

end LineScript
