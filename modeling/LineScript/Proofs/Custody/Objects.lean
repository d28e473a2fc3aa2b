import LineScript.Interpreter.Statement
import LineScript.Proofs.Congruence.Logic
import LineScript.Proofs.Custody.Basic
import LineScript.Proofs.Machine.Evolution

/-!
# Values stay in custody

What is read from a variable, a register or an object may be relied on, because all that is kept
may be; writing a value that may be relied on keeps it that way. A new object gets the next number,
so a handle of it names an object that was made.
-/

namespace LineScript

open Machine

/-- A value that names no object is within every count. -/
theorem Value.IsFree.within {value : Value} (free : value.IsFree) (count : Nat) :
    value.Within count := by
  cases value with
  | handle id => exact free.elim
  | _ => trivial

/-- An entry of a table after an insertion is an old one or the new one. -/
theorem Variables.mem_insert {key : String} {variable' : Variable} {vars : Variables}
    {entry : String × Variable} (member : entry ∈ vars.insert key variable') :
    entry ∈ vars ∨ entry = (key, variable') := by
  induction vars with
  | nil => exact .inr (List.mem_singleton.mp member)
  | cons first rest ih =>
    unfold Variables.insert at member
    split at member
    · rcases List.mem_cons.mp member with here | there
      · exact .inr here
      · exact .inl (List.mem_cons_of_mem _ there)
    · rcases List.mem_cons.mp member with rfl | there
      · exact .inl List.mem_cons_self
      · exact (ih there).imp_left (List.mem_cons_of_mem _)

/-- An entry of a map after an insertion is an old one or the new one. -/
theorem Entries.mem_insert {key : String} {value : Value} {entries : Entries}
    {entry : String × Value} (member : entry ∈ entries.insert key value) :
    entry ∈ entries ∨ entry = (key, value) := by
  induction entries with
  | nil => exact .inr (List.mem_singleton.mp member)
  | cons first rest ih =>
    unfold Entries.insert at member
    split at member
    · exact (List.mem_cons.mp member).symm
    · split at member
      · rcases List.mem_cons.mp member with here | there
        · exact .inr here
        · exact .inl (List.mem_cons_of_mem _ there)
      · rcases List.mem_cons.mp member with rfl | there
        · exact .inl List.mem_cons_self
        · exact (ih there).imp_left (List.mem_cons_of_mem _)

/-- Setting an element to a good value keeps an object's values good. -/
theorem HeapObject.Holds.setElement {object : HeapObject} {good : Value → Prop}
    (holds : object.Holds good) (position : Nat) {value : Value} (admitted : good value) :
    (object.setElement position value).Holds good := by
  cases object with
  | array items =>
    intro item member
    rcases Array.mem_or_eq_of_mem_setIfInBounds member with old | rfl
    · exact holds item old
    · exact admitted
  | _ => exact holds

namespace Stack

/-- A scope of a modified stack is an old one or the change of an old one. -/
theorem mem_of_mem_modify {change : Scope → Scope} {scopes : List Scope} {position : Nat}
    {scope : Scope} (member : scope ∈ scopes.modify position change) :
    scope ∈ scopes ∨ ∃ old ∈ scopes, scope = change old := by
  induction scopes generalizing position with
  | nil => simp at member
  | cons first rest ih =>
    cases position with
    | zero =>
      rcases List.mem_cons.mp member with rfl | there
      · exact .inr ⟨first, List.mem_cons_self, rfl⟩
      · exact .inl (List.mem_cons_of_mem _ there)
    | succ position =>
      rcases List.mem_cons.mp member with rfl | there
      · exact .inl List.mem_cons_self
      · rcases ih there with old | ⟨old, among, rfl⟩
        · exact .inl (List.mem_cons_of_mem _ old)
        · exact .inr ⟨old, List.mem_cons_of_mem _ among, rfl⟩

/-- A scope after a change of one of them is an old one or the changed one. -/
theorem mem_scopes_modifyAt {stack : Stack} {position : Nat} {change : Scope → Scope}
    {scope : Scope} (member : scope ∈ (stack.modifyAt position change).scopes) :
    scope ∈ stack.scopes ∨ ∃ old ∈ stack.scopes, scope = change old := by
  unfold modifyAt at member
  split at member
  · rcases List.mem_append.mp member with inner | root
    · rcases mem_of_mem_modify inner with old | ⟨old, among, rfl⟩
      · exact .inl (List.mem_append_left _ old)
      · exact .inr ⟨old, List.mem_append_left _ among, rfl⟩
    · exact .inl (List.mem_append_right _ root)
  · rcases List.mem_append.mp member with inner | root
    · exact .inl (List.mem_append_left _ inner)
    · have isRoot := List.mem_singleton.mp root
      exact .inr ⟨stack.root, List.mem_append_right _ List.mem_cons_self, isRoot⟩

end Stack

namespace Custody

variable {c : Custody} {count : Nat}

namespace Keeps

variable {machine : Machine} (keeps : c.Keeps machine)
include keeps

/-- The value of a variable. -/
theorem variableValue {name : String} {value : Value} (found : machine.varValue? name = some value) :
    c.Admits machine.heap.slots.size value := by
  have ofScope : ∀ scope ∈ machine.stack.scopes, ∀ held,
      scope.vars.get? (Text.lower name) = some held → c.Admits machine.heap.slots.size held.value := by
    intro scope member held looked
    obtain ⟨before, after, split, _⟩ := List.lookup_eq_some_iff.mp looked
    have among : (Text.lower name, held) ∈ scope.vars := split ▸ List.mem_append_right _ List.mem_cons_self
    exact (keeps.holds.scopes scope member).vars _ among
  obtain ⟨held, looked, rfl⟩ := Option.map_eq_some_iff.mp found
  unfold Stack.lookup? at looked
  split at looked
  · rename_i inner found
    cases looked
    obtain ⟨scope, member, looked⟩ := List.exists_of_findSome?_eq_some found
    exact ofScope scope (List.mem_append_left _ member) _ looked
  · exact ofScope _ (List.mem_append_right _ List.mem_cons_self) _ looked

/-- The elements of an array. -/
theorem items {id : HandleId} {items : Array Value} (found : machine.heap.get? id = some (.array items)) :
    ∀ item ∈ items, c.Admits machine.heap.slots.size item := keeps.holds.objects id _ found

/-- The values of a map. -/
theorem entries {id : HandleId} {entries : Entries} (found : machine.heap.get? id = some (.map entries)) :
    ∀ entry ∈ entries, c.Admits machine.heap.slots.size entry.2 := keeps.holds.objects id _ found

/-- The elements of the array that a value refers to. -/
theorem itemsOf {given : Value} {items : Array Value} (found : machine.objectOf? given = some (.array items)) :
    ∀ item ∈ items, c.Admits machine.heap.slots.size item := by
  obtain ⟨id, _, found⟩ := Option.bind_eq_some_iff.mp found
  exact keeps.items found

/-- An object is replaced by one of the same kind that keeps admitted values. -/
theorem set {id : HandleId} {held : HeapObject} (live : machine.heap.get? id = some held)
    (object : HeapObject) (kind : object.kind = held.kind)
    (good : object.Holds (c.Admits machine.heap.slots.size)) :
    c.Keeps { machine with heap := machine.heap.set id object } ∧
      c.Later machine { machine with heap := machine.heap.set id object } := by
  have later : c.Later machine { machine with heap := machine.heap.set id object } :=
    ⟨.set live kind, fun awake => ⟨awake.1, awake.2⟩⟩
  refine ⟨keeps.later later ⟨?_, fun other held found => ?_⟩, later⟩
  · rw [Heap.size_set]
    exact keeps.holds.scopes
  · rw [Heap.size_set]
    by_cases here : other = id
    · subst here
      rw [Heap.get?_set_self (Heap.Live.issued ⟨_, live⟩)] at found
      cases found
      exact good
    · rw [Heap.get?_set_ne _ here] at found
      exact keeps.holds.objects other held found

/-- Objects are changed to others of their kind that keep admitted values. -/
theorem modify (id : HandleId) {change : HeapObject → HeapObject}
    (kind : ∀ object, (change object).kind = object.kind)
    (good : ∀ object : HeapObject, object.Holds (c.Admits machine.heap.slots.size) →
      (change object).Holds (c.Admits machine.heap.slots.size)) :
    c.Keeps { machine with heap := machine.heap.modify id change } ∧
      c.Later machine { machine with heap := machine.heap.modify id change } := by
  have later : c.Later machine { machine with heap := machine.heap.modify id change } :=
    ⟨.modify _ id kind, fun awake => ⟨awake.1, awake.2⟩⟩
  refine ⟨keeps.later later ⟨?_, fun other held found => ?_⟩, later⟩
  · rw [Heap.size_modify]
    exact keeps.holds.scopes
  · rw [Heap.size_modify]
    rw [Heap.get?_modify] at found
    split at found
    · obtain ⟨old, live, rfl⟩ := Option.map_eq_some_iff.mp found
      exact good old (keeps.holds.objects id old live)
    · exact keeps.holds.objects other held found

end Keeps

namespace Does

/-- A failure at the current line keeps the custody. -/
theorem failHere {α : Type} (cause : RunCause) {post : Nat → α → Prop} :
    c.Does count (Exec.failHere cause : Exec α) (Exec.failHere cause) post :=
  .bind (.get fun _ _ _ => .pure fun _ _ => trivial : c.Does count Exec.currentLine
    Exec.currentLine fun _ _ => True) fun _ _ _ _ => fail _ _

/-- The error for a handle that is not live keeps the custody. -/
theorem notLive {α : Type} (kind : String) (id : HandleId) {post : Nat → α → Prop} :
    c.Does count (Machine.notLive kind id : Exec α) (Machine.notLive kind id) post := failHere _

/-- Reading a variable gives an admitted value. -/
theorem variableValue (token : Token) :
    c.Does count (LineScript.variableValue token) (LineScript.variableValue token) c.Admits := by
  unfold LineScript.variableValue
  refine .get fun machine keeps _ => ?_
  split
  · rename_i value found
    exact .pure fun _ grows => (keeps.variableValue found).mono grows
  · exact fail _ _

/-- Reading a macro gives an admitted value. -/
theorem macroValue (name : String) (line : Nat) :
    c.Does count (Machine.macroValue name line) (Machine.macroValue name line) c.Admits := by
  unfold Machine.macroValue
  refine .get fun machine _ _ => ?_
  split
  · rename_i value found
    refine .pure fun _ _ _ => ?_
    unfold macroValue? at found
    dsimp only at found
    split at found
    all_goals cases found
    all_goals trivial
  · exact fail _ _

/-- Reading a map gives an admitted value. -/
theorem mapGet (id : HandleId) (key : String) :
    c.Does count (Machine.mapGet id key) (Machine.mapGet id key) c.Admits := by
  unfold Machine.mapGet
  refine .get fun machine keeps _ => ?_
  split
  · rename_i entries found
    split
    · rename_i value looked
      obtain ⟨before, after, split, _⟩ := List.lookup_eq_some_iff.mp looked
      have among : (key, value) ∈ entries := split ▸ List.mem_append_right _ List.mem_cons_self
      exact .pure fun _ grows => (keeps.entries found _ among).mono grows
    · exact fail _ _
  · exact notLive _ _

/-- Reading an array gives an admitted value. -/
theorem arrayGet (id : HandleId) (index : Int64) :
    c.Does count (Machine.arrayGet id index) (Machine.arrayGet id index) c.Admits := by
  unfold Machine.arrayGet
  refine .get fun machine keeps _ => ?_
  split
  · rename_i items found
    split
    · rename_i value looked
      obtain ⟨position, _, looked⟩ := Option.bind_eq_some_iff.mp looked
      exact .pure fun _ grows => (keeps.items found value (Array.mem_of_getElem? looked)).mono grows
    · exact fail _ _
  · exact notLive _ _

/-- Reading an element of any container gives an admitted value. -/
theorem element (window : Window) (pos : Nat) (base key : Value) :
    c.Does count (LineScript.element window pos base key) (LineScript.element window pos base key)
      c.Admits := by
  unfold LineScript.element
  split
  · refine .get fun machine keeps enough => ?_
    split
    · exact arrayGet _ _
    · exact mapGet _ _
    · exact notLive _ _
  · exact failAt _ _ _

/-- A new object that keeps admitted values. -/
theorem addObject {object : HeapObject} (good : object.Holds (c.Admits count)) :
    c.Does count (Machine.addObject object) (Machine.addObject object)
      fun more id => 1 ≤ id ∧ id ≤ more := by
  intro machine keeps enough
  have wider : ∀ value, c.Admits machine.heap.slots.size value →
      c.Admits (machine.heap.add object).slots.size value :=
    fun value admits => admits.mono (by simp)
  have later : c.Later machine { machine with
      heap := machine.heap.add object
      host := machine.host.trace fun _ => "handle: added " ++ object.kind ++ " " ++
        HandleId.display machine.heap.nextId } :=
    ⟨.add _ _, fun awake => ⟨awake.1, awake.2⟩⟩
  refine .ok (keeps.later later ⟨fun scope member => ?_, fun id held found => ?_⟩) later ?_
  · exact (keeps.holds.scopes scope member).mono wider
  · rw [Heap.get?_add] at found
    split at found
    · cases found
      exact good.mono fun value admits => wider value (admits.mono enough)
    · exact (keeps.holds.objects id held found).mono wider
  · exact ⟨Nat.succ_pos _, Nat.le_of_eq (Heap.size_add _ _).symm⟩

/-- The handle of a new map is admitted. -/
theorem newMap : c.Does count Machine.newMap Machine.newMap c.Admits := by
  have empty : (HeapObject.map []).Holds (c.Admits count) := fun _ member => by cases member
  exact (addObject empty).bind fun _ _ _ named => .pure fun _ grows _ =>
    ⟨named.1, Nat.le_trans named.2 grows⟩

/-- The handle of a new array of admitted values is admitted. -/
theorem newArray {items : Array Value} (good : ∀ item ∈ items, c.Admits count item) :
    c.Does count (Machine.newArray items) (Machine.newArray items) c.Admits := by
  have held : (HeapObject.array items).Holds (c.Admits count) := good
  exact (addObject held).bind fun _ _ _ named => .pure fun _ grows _ =>
    ⟨named.1, Nat.le_trans named.2 grows⟩

/-- Storing an admitted value in a map keeps the custody. -/
theorem mapSet (id : HandleId) (key : String) {value : Value} (good : c.Admits count value) :
    c.Does count (Machine.mapSet id key value) (Machine.mapSet id key value) fun _ _ => True := by
  unfold Machine.mapSet
  refine .look fun machine keeps enough => ?_
  split
  · rename_i entries found
    obtain ⟨kept, later⟩ := keeps.set found (.map (entries.insert key value)) rfl
      fun entry member => by
        rcases Entries.mem_insert member with old | rfl
        · exact keeps.entries found entry old
        · exact good.mono enough
    exact .modify kept later
  · exact notLive _ _ machine keeps enough

/-- Storing an admitted value in an array keeps the custody. -/
theorem arraySet (id : HandleId) (index : Int64) {value : Value} (good : c.Admits count value) :
    c.Does count (Machine.arraySet id index value) (Machine.arraySet id index value)
      fun _ _ => True := by
  unfold Machine.arraySet
  refine .look fun machine keeps enough => ?_
  split
  · rename_i items found
    split
    · rename_i position _
      obtain ⟨kept, later⟩ := keeps.modify id
        (fun object => HeapObject.kind_setElement position value object)
        fun object holds => holds.setElement position (good.mono enough)
      exact .modify kept later
    · exact fail _ _ machine keeps enough
  · exact notLive _ _ machine keeps enough

/-- Storing an admitted value in any container keeps the custody. -/
theorem storeElement (id : HandleId) (key : Value) {value : Value} (good : c.Admits count value) :
    c.Does count (LineScript.storeElement id key value) (LineScript.storeElement id key value)
      fun _ _ => True := by
  unfold LineScript.storeElement
  refine .get fun machine _ enough => ?_
  split
  · exact arraySet _ _ (good.mono enough)
  · exact mapSet _ _ (good.mono enough)
  · exact notLive _ _

/-- A change of one scope after which its values are admitted. -/
theorem modifyAt (position : Stack → Nat) {change : Scope → Scope}
    (good : ∀ more, count ≤ more → ∀ scope : Scope, scope.Holds (c.Admits more) →
      (change scope).Holds (c.Admits more)) :
    c.Does count
      (MonadState.modifyGet fun machine : Machine => (PUnit.unit,
        { machine with stack := machine.stack.modifyAt (position machine.stack) change }))
      (MonadState.modifyGet fun machine : Machine => (PUnit.unit,
        { machine with stack := machine.stack.modifyAt (position machine.stack) change }))
      fun _ _ => True := by
  refine modifyStack (fun stack => stack.modifyAt (position stack) change)
    fun machine keeps enough scope member => ?_
  rcases Stack.mem_scopes_modifyAt member with old | ⟨old, among, rfl⟩
  · exact keeps.holds.scopes scope old
  · exact good _ enough old (keeps.holds.scopes old among)

/-- Writing an admitted value to a scope keeps the custody. -/
theorem writeVariable (position : Nat) (name : String) {value : Value} (constant : Bool)
    (good : c.Admits count value) :
    c.Does count (Machine.writeVariable position name value constant)
      (Machine.writeVariable position name value constant) fun _ _ => True := by
  unfold Machine.writeVariable
  refine .get fun machine _ enough => ?_
  dsimp only
  split
  · exact fail _ _
  · refine modifyAt (fun _ => position) fun more grows scope holds => ⟨?_, holds.2⟩
    intro entry member
    rcases Variables.mem_insert member with old | rfl
    · exact holds.vars entry old
    · exact (good.mono enough).mono grows

/-- Assigning an admitted value to a variable keeps the custody. -/
theorem assignVariable (name : String) {value : Value} (good : c.Admits count value) :
    c.Does count (Machine.assignVariable name value) (Machine.assignVariable name value)
      fun _ _ => True :=
  .get fun _ _ enough => writeVariable _ _ _ (good.mono enough)

/-- Declaring a variable with an admitted value keeps the custody. -/
theorem declareVariable (scope : DeclScope) (name : String) {value : Value} (constant : Bool)
    (good : c.Admits count value) :
    c.Does count (Machine.declareVariable scope name value constant)
      (Machine.declareVariable scope name value constant) fun _ _ => True :=
  .get fun _ _ enough => writeVariable _ _ _ (good.mono enough)

/-- Registers are changed to others with an admitted value. -/
theorem modifyRegisters {change : Registers → Registers}
    (good : ∀ more, count ≤ more → ∀ registers : Registers, c.Admits more registers.returnValue →
      c.Admits more (change registers).returnValue) :
    c.Does count (Machine.modifyRegisters change) (Machine.modifyRegisters change)
      fun _ _ => True :=
  modifyAt Stack.framePosition fun more grows scope holds =>
    ⟨holds.vars, good more grows scope.registers holds.returnValue⟩

/-- Setting the error register keeps the custody. -/
theorem setError (code : Int64) :
    c.Does count (Machine.setError code) (Machine.setError code) fun _ _ => True :=
  modifyRegisters fun _ _ _ admits => admits

/-- Setting the extended register keeps the custody. -/
theorem setExtended (code : Int64) :
    c.Does count (Machine.setExtended code) (Machine.setExtended code) fun _ _ => True :=
  modifyRegisters fun _ _ _ admits => admits

/-- Clearing the registers keeps the custody. -/
theorem resetRegisters :
    c.Does count Machine.resetRegisters Machine.resetRegisters fun _ _ => True :=
  modifyRegisters fun _ _ _ admits => admits

/-- Setting the return register to an admitted value keeps the custody. -/
theorem setReturnValue {value : Value} (good : c.Admits count value) :
    c.Does count (Machine.setReturnValue value) (Machine.setReturnValue value) fun _ _ => True :=
  modifyRegisters fun _ grows _ _ => good.mono grows

/-- Moving the cursor keeps the custody. -/
theorem moveTo (pos : Nat) : c.Does count (LineScript.moveTo pos) (LineScript.moveTo pos)
    fun _ _ => True := by
  refine modifyStack (fun stack => stack.modifyTop fun scope => { scope with pos })
    fun machine keeps _ scope member => ?_
  rw [Stack.modifyTop_eq_modifyAt] at member
  rcases Stack.mem_scopes_modifyAt member with old | ⟨old, among, rfl⟩
  · exact keeps.holds.scopes scope old
  · exact ⟨(keeps.holds.scopes old among).vars, (keeps.holds.scopes old among).returnValue⟩

/-- Looking up the innermost scope keeps the custody. -/
theorem topScope : c.Does count LineScript.topScope LineScript.topScope fun _ _ => True :=
  .get fun _ _ _ => .pure fun _ _ => trivial

/-! Making and changing arrays, and assigning. -/

/-- Asking for memory keeps the custody. -/
theorem reserve (present cells : Nat) :
    c.Does count (Machine.reserve present cells) (Machine.reserve present cells) fun _ _ => True := by
  unfold Machine.reserve
  split
  · exact throw fun _ => nofun
  · exact .pure fun _ _ => trivial

/-- Repeating an action gives admitted values when each run of it does. -/
theorem replicate {action : Exec Value} (does : ∀ more, c.Does more action action c.Admits)
    (times : Nat) {items : Array Value} (good : ∀ item ∈ items, c.Admits count item) :
    c.Does count (Exec.replicate action times items) (Exec.replicate action times items)
      fun more items => ∀ item ∈ items, c.Admits more item := by
  induction times generalizing count items with
  | zero => exact .pure fun _ grows item member => (good item member).mono grows
  | succ times ih =>
    refine (does count).bind fun more value grows admits => ih fun item member => ?_
    rcases Array.mem_push.mp member with old | rfl
    · exact (good item old).mono grows
    · exact admits

/-- The handle of a sized array is admitted. -/
theorem sizedArray (line : Nat) (sizes : List Value) :
    c.Does count (LineScript.sizedArray line sizes) (LineScript.sizedArray line sizes)
      c.Admits := by
  induction sizes generalizing count with
  | nil => exact .pure fun _ _ _ => trivial
  | cons first rest ih =>
    unfold LineScript.sizedArray
    dsimp only
    split
    · exact fail _ _
    · refine (reserve _ _).bind fun _ _ _ _ => ?_
      exact (replicate (fun _ => ih) _ (by simp)).bind fun _ _ _ good => newArray good

/-- Overwriting cells with admitted values keeps the custody. -/
theorem overwriteCells (id : HandleId) {cells : List (Value × Nat)}
    (good : ∀ cell ∈ cells, c.Admits count cell.1) :
    c.Does count (LineScript.overwriteCells id cells) (LineScript.overwriteCells id cells)
      fun _ _ => True := by
  induction cells generalizing count with
  | nil => exact .pure fun _ _ => trivial
  | cons cell cells ih =>
    refine (arraySet _ _ (good cell List.mem_cons_self)).bind fun _ _ grows _ => ih ?_
    exact fun other member => (good other (List.mem_cons_of_mem _ member)).mono grows

/-- The handle of a declared array is admitted. -/
theorem declaredArray (variable' : Token) (sizes : List Value) (initial : Option Value) :
    c.Does count (LineScript.declaredArray variable' sizes initial)
      (LineScript.declaredArray variable' sizes initial) c.Admits := by
  unfold LineScript.declaredArray
  refine (sizedArray _ _).bind fun _ array _ admits => ?_
  split
  · exact .pure fun _ grows => admits.mono grows
  · refine .get fun machine keeps enough => ?_
    split
    · rename_i items id found
      refine (overwriteCells _ fun cell member => ?_).bind fun _ _ grows _ =>
        .pure fun _ further => admits.mono (Nat.le_trans (Nat.le_trans enough grows) further)
      exact keeps.itemsOf found _ (Array.mem_toList_iff.mp (List.fst_mem_of_mem_zipIdx member))
    · exact .pure fun _ grows => admits.mono (Nat.le_trans enough grows)
    · exact fail _ _

/-- The value a declaration stores is admitted when its initial value is. -/
theorem declaredValue (variable' : Token) (subscripts : Subscripts) {initial : Option Value}
    (good : ∀ value, initial = some value → c.Admits count value) :
    c.Does count (LineScript.declaredValue variable' subscripts initial)
      (LineScript.declaredValue variable' subscripts initial) c.Admits := by
  unfold LineScript.declaredValue
  split
  · split
    · exact newMap
    · rename_i given
      refine .get fun machine _ enough => ?_
      split
      · exact .pure fun _ grows => (good given rfl).mono (Nat.le_trans enough grows)
      · exact fail _ _
  · split
    · cases initial with
      | none => exact .pure fun _ _ _ => trivial
      | some given => exact .pure fun _ grows => (good given rfl).mono grows
    · exact declaredArray _ _ _

/-- What an operator makes of two values is no handle. -/
theorem combine (operator : String) (left right : Value) (line : Nat) :
    c.Does count (Exec.ofExcept (Value.combine operator left right line))
      (Exec.ofExcept (Value.combine operator left right line)) c.Admits := by
  refine .ofExcept fun value combined more _ => ?_
  unfold Value.combine Value.arithmetic Value.floatArithmetic at combined
  repeat' split at combined
  all_goals first
    | exact Except.ok.inj combined ▸ (Value.isFree_ofFloat _).within _
    | cases combined
  all_goals trivial

/-- The value an assignment stores is admitted when the value given and the current one are. -/
theorem storedValue {current : Exec Value} (does : c.Does count current current c.Admits)
    (operator : String) {given : Value} (line : Nat) (good : c.Admits count given) :
    c.Does count (LineScript.storedValue operator current given line)
      (LineScript.storedValue operator current given line) c.Admits := by
  unfold LineScript.storedValue
  split
  · exact does.bind fun _ _ _ _ => combine _ _ _ _
  · exact .pure fun _ grows => good.mono grows

/-- Descending from an admitted value along subscripts ends at an admitted value. -/
theorem descend (window : Window) (pos : Nat) {base : Value} (keys : List Value)
    (good : c.Admits count base) :
    c.Does count (LineScript.descend window pos base keys)
      (LineScript.descend window pos base keys) c.Admits := by
  induction keys generalizing count base with
  | nil => exact .pure fun _ grows => good.mono grows
  | cons key keys ih => exact (element _ _ _ _).bind fun _ _ _ admits => ih admits

/-- Assigning an admitted value along a path keeps the custody. -/
theorem assignTo (window : Window) (pos : Nat) (variable' : Token) (subscripts : List Value)
    (operator : String) {given : Value} (good : c.Admits count given) :
    c.Does count (LineScript.assignTo window pos variable' subscripts operator given)
      (LineScript.assignTo window pos variable' subscripts operator given) fun _ _ => True := by
  unfold LineScript.assignTo
  split
  · exact (storedValue (variableValue _) _ _ good).bind fun _ _ _ admits => assignVariable _ admits
  · unfold LineScript.assignElement
    refine (variableValue _).bind fun _ _ grows base => (descend _ _ _ base).bind
      fun _ container further _ => ?_
    split
    · refine (storedValue (element _ _ _ _) _ _ (good.mono (Nat.le_trans grows further))).bind
        fun _ _ _ admits => storeElement _ _ admits
    · exact fail _ _

/-- Introducing a variable keeps the custody. -/
theorem introduce (variable' : Token) (subscripts : Subscripts) :
    c.Does count (LineScript.introduce variable' subscripts)
      (LineScript.introduce variable' subscripts) fun _ _ => True := by
  unfold LineScript.introduce
  split
  · exact newMap.bind fun _ _ _ admits => assignVariable _ admits
  · split
    · refine .get fun machine _ _ => ?_
      split
      · exact .pure fun _ _ => trivial
      · exact assignVariable _ fun _ => trivial
    · exact (sizedArray _ _).bind fun _ _ _ admits => assignVariable _ admits

/-- A resized array keeps some of its elements, and otherwise empty texts. -/
theorem resize (variable' : Token) (sizes : List Value) (first : Value) :
    c.Does count (LineScript.resize variable' sizes first)
      (LineScript.resize variable' sizes first) fun _ _ => True := by
  have replaced : ∀ machine, c.Keeps machine → c.Ends machine
      (do Machine.assignVariable variable'.lexeme (← LineScript.sizedArray variable'.line sizes))
      (do Machine.assignVariable variable'.lexeme (← LineScript.sizedArray variable'.line sizes))
      fun _ _ => True := fun machine keeps =>
    ((sizedArray _ _).bind fun _ _ _ admits => assignVariable _ admits) machine keeps (Nat.zero_le _)
  unfold LineScript.resize
  refine .look fun machine keeps enough => ?_
  split
  · split
    · rename_i items found
      obtain ⟨kept, later⟩ := keeps.set found
        (.array (resized items first.asInt.toInt.toNat)) rfl fun item member => by
          rcases Array.mem_append.mp member with old | new
          · obtain ⟨_, _, rfl⟩ := Array.mem_extract_iff_getElem.mp old
            exact keeps.items found _ (Array.getElem_mem _)
          · rw [(Array.mem_replicate.mp new).2]
            exact fun _ => trivial
      unfold LineScript.resizeItems Machine.reserve
      split
      · exact .error keeps (.refl machine) fun _ => nofun
      · exact .modify kept later
    · exact replaced machine keeps
  · exact replaced machine keeps

end Does

end Custody

end LineScript
