import LineScript.Proofs.Custody.Heap
import LineScript.Proofs.Outcome
import LineScript.Proofs.Run.Guard

/-!
# Two runs side by side in custody

Two engines that are to be compared are given the same machine, on which every value that is kept
somewhere may be relied on. They are in custody when they end alike and what is kept afterwards may
still be relied on. A `Custody` says what is relied on: whether handles name objects that were made,
which objects may be removed, whether the left engine may run out of fuel where the right one does
not, and whether there is anything that needs fuel at all. What an action returns is judged by how many objects were made when it returned, since
more of them only make more handles good.
-/

namespace LineScript

/-- A handle names one of the first `count` objects; other values are free to be anything. -/
def Value.Within (count : Nat) : Value → Prop
  | .handle id => 1 ≤ id ∧ id ≤ count
  | _ => True

/-- All values that a scope keeps have a property. -/
structure Scope.Holds (scope : Scope) (good : Value → Prop) : Prop where
  /-- Those of its variables. -/
  vars : ∀ entry ∈ scope.vars, good entry.2.value
  /-- The one in its registers. -/
  returnValue : good scope.registers.returnValue

/-- All values that an object keeps have a property. -/
def HeapObject.Holds (object : HeapObject) (good : Value → Prop) : Prop :=
  match object with
  | .map entries => ∀ entry ∈ entries, good entry.2
  | .array items => ∀ item ∈ items, good item
  | _ => True

/-- All values that a machine keeps have a property. -/
structure Machine.Holds (machine : Machine) (good : Value → Prop) : Prop where
  /-- Those in scopes. -/
  scopes : ∀ scope ∈ machine.stack.scopes, scope.Holds good
  /-- Those in objects. -/
  objects : ∀ id object, machine.heap.get? id = some object → object.Holds good

/-- The machine does not wait, and no other party makes it wait. -/
structure Machine.Awake (machine : Machine) : Prop where
  /-- It does not wait. -/
  suspended : machine.suspended = false
  /-- Nobody makes it wait. -/
  interference : ∀ wait ∈ machine.interference, wait = false

/-- What another party asks for does not make such a machine wait. -/
theorem Machine.Awake.look {machine : Machine} (awake : machine.Awake) {wait : Bool}
    {waits : List Bool} (listed : machine.interference = wait :: waits) :
    Machine.Awake { machine with suspended := wait, interference := waits } := by
  have quiet := awake.interference
  rw [listed] at quiet
  exact ⟨quiet wait List.mem_cons_self,
    fun other member => quiet other (List.mem_cons_of_mem _ member)⟩

/-- What is relied on while two engines run side by side. -/
structure Custody where
  /-- Handles name objects that were made. -/
  strict : Prop
  /-- Objects that may be removed, if they are open files. -/
  closable : HandleId → Prop
  /-- The left engine may stop early. -/
  lax : Prop
  /-- Nothing that needs fuel is done. -/
  full : Prop
  /-- The heap from which all changes are counted. -/
  start : Heap

/-- Custody in which nothing is relied on but that the left engine, where it does not stop early, ends
as the right one does. -/
def Custody.loose (start : Heap) : Custody :=
  { strict := False, closable := fun _ => True, lax := True, full := False, start }

/-- A value within a count is within every larger one. -/
theorem Value.Within.mono {count more : Nat} {value : Value} (within : value.Within count)
    (grows : count ≤ more) : value.Within more := by
  cases value with
  | handle id => exact ⟨within.1, Nat.le_trans within.2 grows⟩
  | _ => trivial

/-- A scope of good values is one of better values. -/
theorem Scope.Holds.mono {scope : Scope} {good better : Value → Prop} (holds : scope.Holds good)
    (weaker : ∀ value, good value → better value) : scope.Holds better where
  vars entry member := weaker _ (holds.vars entry member)
  returnValue := weaker _ holds.returnValue

/-- An object of good values is one of better values. -/
theorem HeapObject.Holds.mono {object : HeapObject} {good better : Value → Prop}
    (holds : object.Holds good) (weaker : ∀ value, good value → better value) :
    object.Holds better := by
  cases object with
  | map entries => exact fun entry member => weaker _ (holds entry member)
  | array items => exact fun item member => weaker _ (holds item member)
  | file | timer => trivial

/-- A machine of good values is one of better values. -/
theorem Machine.Holds.mono {machine : Machine} {good better : Value → Prop}
    (holds : machine.Holds good) (weaker : ∀ value, good value → better value) :
    machine.Holds better where
  scopes scope member := (holds.scopes scope member).mono weaker
  objects id object found := (holds.objects id object found).mono weaker

/-- What all values have, those that a machine keeps have. -/
theorem Machine.Holds.of_all (machine : Machine) {good : Value → Prop}
    (always : ∀ value, good value) : machine.Holds good where
  scopes scope _ := ⟨fun entry _ => always _, always _⟩
  objects _ object _ := by
    cases object with
    | map entries => exact fun entry _ => always _
    | array items => exact fun item _ => always _
    | file | timer => trivial

namespace Custody

variable {α β : Type} (c : Custody)

/-- A value that may be kept when `count` objects were made. -/
def Admits (count : Nat) (value : Value) : Prop := c.strict → value.Within count

/-- What a machine keeps may be relied on, and its heap grew from the one at the start. -/
structure Keeps (machine : Machine) : Prop where
  /-- All values that it keeps are admitted. -/
  holds : machine.Holds (c.Admits machine.heap.slots.size)
  /-- The heap grew from the one at the start. -/
  grown : c.start.Leads c.closable machine.heap

/-- What is sure of a machine after an action. -/
structure Later (before after : Machine) : Prop where
  /-- Its heap grew. -/
  heap : before.heap.Leads c.closable after.heap
  /-- It still does not wait. -/
  awake : before.Awake → after.Awake

/-- Two outcomes reached from a machine are alike, in custody. -/
structure Reached (machine : Machine) (left right : EStateM.Result Stop Machine α)
    (post : Nat → α → Prop) : Prop where
  /-- What is kept may be relied on. -/
  keeps : c.Keeps (Exec.left right)
  /-- The machine that is left comes later. -/
  later : c.Later machine (Exec.left right)
  /-- The outcomes are the same, unless the left action stopped early. -/
  same : left = right ∨ c.lax ∧ ∃ after, left = .error .starved after ∧
    after.heap.Leads c.closable (Exec.left right).heap
  /-- What was returned is as it should be. -/
  returns : ∀ value after, right = .ok value after → post after.heap.slots.size value
  /-- Where nothing needs fuel, nothing runs out of it. -/
  fed : c.full → ∀ after, right ≠ .error .starved after

/-- Two actions end alike on a machine, in custody. -/
def Ends (machine : Machine) (left right : Exec α) (post : Nat → α → Prop) : Prop :=
  c.Reached machine (left machine) (right machine) post

/-- Two actions end alike on every machine in custody on which at least `count` objects were
made. -/
def Does (count : Nat) (left right : Exec α) (post : Nat → α → Prop) : Prop :=
  ∀ machine : Machine, c.Keeps machine → count ≤ machine.heap.slots.size →
    c.Ends machine left right post

variable {c}

/-- An admitted value stays admitted as the heap grows. -/
theorem Admits.mono {count more : Nat} {value : Value} (admits : c.Admits count value)
    (grows : count ≤ more) : c.Admits more value := fun strict => (admits strict).mono grows

namespace Later

/-- Every machine is later than itself. -/
theorem refl (machine : Machine) : c.Later machine machine := ⟨.refl _, id⟩

/-- Being later is transitive. -/
theorem trans {first second third : Machine} (earlier : c.Later first second)
    (later : c.Later second third) : c.Later first third :=
  ⟨earlier.heap.trans later.heap, fun awake => later.awake (earlier.awake awake)⟩

end Later

/-- If handles are not relied on, only the heap counts. -/
theorem Keeps.of_not_strict {machine : Machine} (free : ¬ c.strict)
    (grown : c.start.Leads c.closable machine.heap) : c.Keeps machine :=
  ⟨.of_all machine fun _ strict => absurd strict free, grown⟩

/-- Nothing that is kept depends on the host. -/
theorem Keeps.host {machine : Machine} (keeps : c.Keeps machine) (host : Host) :
    c.Keeps { machine with host } :=
  ⟨⟨keeps.holds.scopes, keeps.holds.objects⟩, keeps.grown⟩

/-- What may be relied on may still be relied on later. -/
theorem Keeps.later {before after : Machine} (keeps : c.Keeps before) (later : c.Later before after)
    (holds : after.Holds (c.Admits after.heap.slots.size)) : c.Keeps after :=
  ⟨holds, keeps.grown.trans later.heap⟩

namespace Reached

variable {machine : Machine} {left right : EStateM.Result Stop Machine α}
  {post : Nat → α → Prop}

/-- What ended on a machine after another one. -/
theorem after {before : Machine} (earlier : c.Later before machine)
    (reached : c.Reached machine left right post) : c.Reached before left right post :=
  { reached with later := earlier.trans reached.later }

/-- Both return the same. -/
theorem ok {value : α} {after : Machine} (keeps : c.Keeps after) (later : c.Later machine after)
    (holds : post after.heap.slots.size value) :
    c.Reached machine (.ok value after) (.ok value after) post where
  keeps := keeps
  later := later
  same := .inl rfl
  returns _ _ returned := by
    cases returned
    exact holds
  fed _ _ stopped := by cases stopped

/-- Both stop for the same reason. -/
theorem error {stop : Stop} {after : Machine} (keeps : c.Keeps after)
    (later : c.Later machine after) (fed : c.full → stop ≠ .starved) :
    c.Reached machine (.error stop after : EStateM.Result Stop Machine α) (.error stop after)
      post where
  keeps := keeps
  later := later
  same := .inl rfl
  returns value last returned := by cases returned
  fed full last stopped := by
    cases stopped
    exact fed full rfl

/-- Both stop with the same fault. -/
theorem fault {fault : Fault} {after : Machine} (keeps : c.Keeps after)
    (later : c.Later machine after) :
    c.Reached machine (.error (.fault fault) after : EStateM.Result Stop Machine α)
      (.error (.fault fault) after) post := .error keeps later fun _ => nofun

/-- The left one stopped early. -/
theorem starve (reached : c.Reached machine left right post) (lax : c.lax) {after : Machine}
    (leads : after.heap.Leads c.closable (Exec.left right).heap) :
    c.Reached machine (.error .starved after) right post :=
  { reached with same := .inr ⟨lax, after, rfl, leads⟩ }

end Reached

namespace Ends

variable {machine : Machine} {left right : Exec α} {leftNext rightNext : α → Exec β}
  {post : Nat → α → Prop} {later : Nat → β → Prop}

/-- One action after another ends well when the first does and the second does from there. -/
theorem bind (first : c.Ends machine left right post)
    (rest : ∀ value middle, right machine = .ok value middle → c.Keeps middle →
      c.Later machine middle → post middle.heap.slots.size value →
      c.Ends middle (leftNext value) (rightNext value) later) :
    c.Ends machine (left >>= leftNext) (right >>= rightNext) later := by
  obtain ⟨kept, after, same, returns, fed⟩ := first
  unfold Ends at *
  simp only [Bind.bind, EStateM.bind]
  cases outcome : right machine with
  | error stop middle =>
    rw [outcome] at kept after same
    have stopped : c.Reached machine (.error stop middle : EStateM.Result Stop Machine β)
        (.error stop middle) later := .error kept after fun full is => fed full middle (is ▸ outcome)
    rcases same with same | ⟨lax, starved, same, leads⟩
    · rw [same]
      exact stopped
    · rw [same]
      exact stopped.starve lax leads
  | ok value middle =>
    rw [outcome] at kept after same
    have next := rest value middle outcome kept after (returns value middle outcome)
    rcases same with same | ⟨lax, starved, same, leads⟩
    · rw [same]
      exact next.after after
    · rw [same]
      exact (next.after after).starve lax (leads.trans next.later.heap)

/-- Returning a good value ends well. -/
theorem pure {value : α} (keeps : c.Keeps machine) (holds : post machine.heap.slots.size value) :
    c.Ends machine (Pure.pure value) (Pure.pure value) post := .ok keeps (.refl machine) holds

/-- Actions that look at the machine first. -/
theorem look {leftNext rightNext : Machine → Exec β}
    (rest : c.Ends machine (leftNext machine) (rightNext machine) later) :
    c.Ends machine (MonadState.get >>= leftNext) (MonadState.get >>= rightNext) later := rest

/-- The machine is replaced by another one that may be relied on. -/
theorem modify {change : Machine → Machine} (keeps : c.Keeps (change machine))
    (after : c.Later machine (change machine)) :
    c.Ends machine (MonadState.modifyGet fun machine => (PUnit.unit, change machine))
      (MonadState.modifyGet fun machine => (PUnit.unit, change machine)) fun _ _ => True :=
  .ok keeps after trivial

end Ends

namespace Does

variable {count : Nat} {left right : Exec α} {leftNext rightNext : α → Exec β}
  {post : Nat → α → Prop} {later : Nat → β → Prop}

/-- One action after another keeps the custody when both do. -/
theorem bind (first : c.Does count left right post)
    (rest : ∀ more value, count ≤ more → post more value →
      c.Does more (leftNext value) (rightNext value) later) :
    c.Does count (left >>= leftNext) (right >>= rightNext) later :=
  fun machine keeps enough => (first machine keeps enough).bind
    fun value middle _ kept after holds =>
      rest _ value (Nat.le_trans enough after.heap.size) holds middle kept (Nat.le_refl _)

/-- Returning a good value keeps the custody. -/
theorem pure {value : α} (holds : ∀ more, count ≤ more → post more value) :
    c.Does count (Pure.pure value) (Pure.pure value) post :=
  fun machine keeps enough => .ok keeps (.refl machine) (holds _ enough)

/-- Actions that look at the machine first, and go on with it. -/
theorem look {leftNext rightNext : Machine → Exec β}
    (rest : ∀ machine, c.Keeps machine → count ≤ machine.heap.slots.size →
      c.Ends machine (leftNext machine) (rightNext machine) later) :
    c.Does count (MonadState.get >>= leftNext) (MonadState.get >>= rightNext) later := rest

/-- Actions that look at the machine first. -/
theorem get {leftNext rightNext : Machine → Exec β}
    (rest : ∀ machine, c.Keeps machine → count ≤ machine.heap.slots.size →
      c.Does machine.heap.slots.size (leftNext machine) (rightNext machine) later) :
    c.Does count (MonadState.get >>= leftNext) (MonadState.get >>= rightNext) later :=
  fun machine keeps enough => rest machine keeps enough machine keeps (Nat.le_refl _)

/-- A change of something that is not in custody. -/
theorem modify {change : Machine → Machine}
    (stays : ∀ machine : Machine, (change machine).stack = machine.stack ∧
      (change machine).heap = machine.heap ∧ (machine.Awake → (change machine).Awake)) :
    c.Does count (MonadState.modifyGet fun machine => (PUnit.unit, change machine))
      (MonadState.modifyGet fun machine => (PUnit.unit, change machine)) fun _ _ => True := by
  intro machine keeps _
  obtain ⟨stack, heap, awake⟩ := stays machine
  have later : c.Later machine (change machine) := ⟨by rw [heap]; exact .refl _, awake⟩
  refine .ok (keeps.later later ⟨?_, ?_⟩) later trivial
  · rw [stack, heap]
    exact keeps.holds.scopes
  · rw [heap]
    exact keeps.holds.objects

/-- A change of the scopes after which the values that they keep are admitted. -/
theorem modifyStack (change : Stack → Stack)
    (holds : ∀ machine : Machine, c.Keeps machine → count ≤ machine.heap.slots.size →
      ∀ scope ∈ (change machine.stack).scopes, scope.Holds (c.Admits machine.heap.slots.size)) :
    c.Does count
      (MonadState.modifyGet fun machine : Machine =>
        (PUnit.unit, { machine with stack := change machine.stack }))
      (MonadState.modifyGet fun machine : Machine =>
        (PUnit.unit, { machine with stack := change machine.stack })) fun _ _ => True := by
  intro machine keeps enough
  have later : c.Later machine { machine with stack := change machine.stack } :=
    ⟨.refl _, fun awake => ⟨awake.1, awake.2⟩⟩
  exact .ok (keeps.later later ⟨holds machine keeps enough, keeps.holds.objects⟩) later trivial

/-- Stopping keeps the custody, except for lack of fuel where the fuel is full. -/
theorem throw {stop : Stop} (fed : c.full → stop ≠ .starved) :
    c.Does count (MonadExcept.throw stop : Exec α) (MonadExcept.throw stop) post :=
  fun machine keeps _ => .error keeps (.refl machine) fed

/-- A fault keeps the custody. -/
theorem fault (fault : Fault) :
    c.Does count (MonadExcept.throw (.fault fault) : Exec α) (MonadExcept.throw (.fault fault)) post :=
  throw fun _ => nofun

/-- A failure at a line keeps the custody. -/
theorem fail (cause : RunCause) (line : Nat) :
    c.Does count (Exec.fail cause line : Exec α) (Exec.fail cause line) post := fault _

/-- What would come after a failure does not matter. -/
theorem failFirst (cause : RunCause) (line : Nat) (next other : α → Exec β)
    {post : Nat → β → Prop} :
    c.Does count (Exec.fail cause line >>= next) (Exec.fail cause line >>= other) post :=
  (fail cause line : c.Does count _ _ fun _ _ => False).bind fun _ _ _ impossible =>
    impossible.elim

/-- The left action may run out of fuel at once. -/
theorem starve (does : c.Does count left right post) (lax : c.lax) :
    c.Does count Exec.starved right post :=
  fun machine keeps enough =>
    have ends := does machine keeps enough
    ends.starve lax ends.later.heap

/-- Tracing keeps the custody. -/
theorem trace (text : Unit → String) :
    c.Does count (Exec.trace text) (Exec.trace text) fun _ _ => True :=
  modify fun _ => ⟨rfl, rfl, fun awake => ⟨awake.1, awake.2⟩⟩

/-- Reading a line number keeps the custody. -/
theorem lineAt (window : Window) (pos : Nat) :
    c.Does count (Exec.lineAt window pos) (Exec.lineAt window pos) fun _ _ => True := by
  unfold Exec.lineAt Exec.currentLine
  split
  · split
    · exact .pure fun _ _ => trivial
    · exact .get fun _ _ _ => .pure fun _ _ => trivial
  · exact .get fun _ _ _ => .pure fun _ _ => trivial

/-- A failure at a position keeps the custody. -/
theorem failAt (window : Window) (pos : Nat) (cause : RunCause) :
    c.Does count (Exec.failAt window pos cause : Exec α) (Exec.failAt window pos cause) post :=
  (lineAt window pos).bind fun _ _ _ _ => fail _ _

/-- The outcome of a pure computation keeps the custody when its values are good. -/
theorem ofExcept {outcome : Except Fault α}
    (holds : ∀ value, outcome = .ok value → ∀ more, post more value) :
    c.Does count (Exec.ofExcept outcome) (Exec.ofExcept outcome) post := by
  cases outcome with
  | ok value => exact .pure fun more _ => holds value rfl more
  | error fault => exact .fault fault

/-- Expecting a token keeps the custody. -/
theorem expect (window : Window) (pos : Nat) (kind : TokenKind) (wanted : String) :
    c.Does count (Exec.expect window pos kind wanted) (Exec.expect window pos kind wanted)
      fun _ _ => True := by
  unfold Exec.expect
  split
  · split
    · exact .pure fun _ _ => trivial
    · exact failAt _ _ _
  · exact failAt _ _ _

end Does

end Custody

end LineScript
