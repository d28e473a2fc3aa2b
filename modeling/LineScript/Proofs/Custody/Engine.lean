import LineScript.Proofs.Custody.Library
import LineScript.Proofs.Custody.Pairs
import LineScript.Proofs.Run.Script
import LineScript.Proofs.Watch.Engine

/-!
# Whole runs keep values in custody

A call passes admitted arguments on and returns an admitted value, and a statement keeps what it
finds. So two engines end alike in custody, by induction on their fuel: one beside itself, one
beside another of more fuel, or two that are watched by watchers that cannot be told apart where
values are in custody. Where any value is admitted, the second says that more fuel never changes an
outcome (`Exec.Below.of_does`).
-/

namespace LineScript

section

open Machine

/-- What a parameter of the library is when it is left out is no handle. -/
theorem Builtin.fallback_plain (function : Builtin) :
    function.params.all fun param => param.fallback.all (·.asHandle?.isNone) := by
  cases function <;> rfl

namespace Custody

variable {c : Custody} {count : Nat} {left right : Engine} {α β : Type}

/-- Arguments with defaults filled in. -/
theorem admits_fill {params : List BuiltinParam} {args values : List Value}
    (plain : params.all fun param => param.fallback.all (·.asHandle?.isNone))
    (good : ∀ value ∈ args, c.Admits count value) (filled : Args.fill params args = .ok values) :
    ∀ value ∈ values, c.Admits count value := by
  induction params generalizing args values with
  | nil =>
    cases filled
    exact fun _ member => by cases member
  | cons param params ih =>
    rw [List.all_cons, Bool.and_eq_true] at plain
    have default : ∀ value, param.fallback = some value → c.Admits count value := by
      intro value fallback _
      have free := plain.1
      rw [fallback] at free
      cases value with
      | handle id => cases free
      | _ => trivial
    have head : c.Admits count (args.head?.getD .defaultWord) := by
      cases args with
      | nil => exact fun _ => trivial
      | cons first rest => exact good first List.mem_cons_self
    have rest : ∀ value, c.Admits count value →
        (do return value :: (← Args.fill params args.tail)) = Except.ok values →
        ∀ value ∈ values, c.Admits count value := by
      intro value admits returned
      obtain ⟨later, filledLater, same⟩ := bind_eq_ok.mp returned
      cases same
      intro other member
      rcases List.mem_cons.mp member with rfl | among
      · exact admits
      · exact ih plain.2 (fun value among => good value (List.mem_of_mem_tail among)) filledLater
          other among
    unfold Args.fill at filled
    dsimp only at filled
    split at filled
    · split at filled
      · rename_i value fallback
        exact rest value (default value fallback) filled
      · cases filled
    · exact rest _ head filled

namespace Does

/-- Checking a number of arguments keeps the custody. -/
theorem checkArity (name : String) (greatest required given line : Nat) :
    c.Does count (LineScript.checkArity name greatest required given line)
      (LineScript.checkArity name greatest required given line) fun _ _ => True := by
  unfold LineScript.checkArity
  split
  · exact fail _ _
  · split
    · exact fail _ _
    · exact .pure fun _ _ => trivial

end Does

variable {machine last : Machine}

/-- The scope of a call with admitted values is put on. -/
theorem Keeps.called (keeps : c.Keeps machine) {scope : Scope}
    (good : scope.Holds (c.Admits machine.heap.slots.size)) (text : Unit → String) :
    c.Keeps (called machine scope text) :=
  ⟨⟨(keeps.push good).holds.scopes, keeps.holds.objects⟩, keeps.grown⟩

/-- The scope of a call is taken off. -/
theorem Keeps.returned (keeps : c.Keeps machine) : c.Keeps (returned machine) :=
  ⟨⟨keeps.pop.holds.scopes, keeps.holds.objects⟩, keeps.grown⟩

/-- What comes later inside of a call does so behind it. -/
theorem Later.returned {scope : Scope} {text : Unit → String}
    (later : c.Later (called machine scope text) last) : c.Later machine (returned last) :=
  ⟨later.heap, fun awake => ⟨(later.awake ⟨awake.1, awake.2⟩).1,
    (later.awake ⟨awake.1, awake.2⟩).2⟩⟩

/-- The value with which an action ended is one that it returned. -/
theorem Reached.returnsEnded {left right : EStateM.Result Stop Machine α} {post : Nat → α → Prop}
    (reached : c.Reached machine left right post) {value : α} (same : Exec.ended right = .ok value) :
    post (Exec.left right).heap.slots.size value := by
  cases right with
  | ok other after =>
    cases same
    exact reached.returns value after rfl
  | error stop after => cases same

namespace Does

/-- Two actions in a scope of their own, counted as one more call. -/
theorem inCall {scope : Scope} {first second : Exec α} {next : Except Stop α × Scope → Exec β}
    {name : String} {line : Nat} {text : Unit → String} (post : Nat → α → Prop)
    {later : Nat → β → Prop} (good : scope.Holds (c.Admits count))
    (inside : ∀ more, count ≤ more → c.Does more first second post)
    (rest : ∀ more result, (∀ value, result.1 = .ok value → post more value) →
      result.2.Holds (c.Admits more) → c.Does more (next result) (next result) later)
    (throws : ∀ stop left machine,
      next (.error stop, left) machine = .error (stop.leaving name line) machine) :
    c.Does count
      (do
        enterCall name line
        Exec.trace text
        let result ← Exec.inScope scope first
        leaveCall
        next result)
      (do
        enterCall name line
        Exec.trace text
        let result ← Exec.inScope scope second
        leaveCall
        next result) later := by
  intro machine keeps enough
  unfold Ends
  rw [Exec.inCall_eq, Exec.inCall_eq]
  split
  · exact .fault keeps (.refl machine)
  · have entered := keeps.called (good.mono fun value admits => admits.mono enough) text
    have ended := inside _ enough _ entered (Nat.le_refl _)
    have top : (Exec.left (second (called machine scope text))).stack.top.Holds
        (c.Admits (Exec.left (second (called machine scope text))).heap.slots.size) :=
      ended.keeps.holds.scopes _ (Stack.top_mem_scopes _)
    have reached := rest _ (Exec.ended (second (called machine scope text)), _)
      (fun value same => ended.returnsEnded same) top _ ended.keeps.returned (Nat.le_refl _)
    have back := ended.later.returned
    rcases ended.same with same | ⟨lax, starved, same, leads⟩
    · rw [Exec.final, same]
      exact reached.after back
    · -- Inside the call the left action stopped early, and so does the call.
      rw [Exec.final, same]
      dsimp only [Exec.ended]
      rw [throws]
      exact (reached.after back).starve lax (leads.trans reached.later.heap)

/-- Asking whether the machine is suspended keeps the custody. -/
theorem isSuspended :
    c.Does count Engine.isSuspended Engine.isSuspended fun _ _ => True := by
  refine .bind (.modify fun machine => ⟨?_, ?_, fun awake => ?_⟩)
    fun _ _ _ _ => .get fun _ _ _ => .pure fun _ _ => trivial
  · split <;> rfl
  · split <;> rfl
  · split
    · exact awake
    · rename_i wait waits listed
      exact awake.look listed

/-- Looking for the end of a line keeps the custody. -/
theorem atLineEnd : c.Does count LineScript.atLineEnd LineScript.atLineEnd fun _ _ => True :=
  topScope.bind fun _ _ _ _ => .pure fun _ _ => trivial

/-- Expecting the end of a line keeps the custody. -/
theorem expectLineEnd :
    c.Does count LineScript.expectLineEnd LineScript.expectLineEnd fun _ _ => True := by
  unfold LineScript.expectLineEnd
  refine topScope.bind fun _ _ _ _ => ?_
  split
  · split
    · exact .pure fun _ _ => trivial
    · exact fail _ _
  · exact .pure fun _ _ => trivial

/-- Skipping a function keeps the custody. -/
theorem skipFunction :
    c.Does count Engine.skipFunction Engine.skipFunction fun _ _ => True :=
  topScope.bind fun _ _ _ _ => moveTo _

end Does

/-- Two watchers cannot be told apart where values are in custody, and let no file be closed that
may not be removed. -/
structure Tends (c : Custody) (left right : Watch) : Prop where
  /-- They end alike. -/
  ends : ∀ occurrence machine, c.Keeps machine →
    c.Ends machine (left occurrence) (right occurrence) fun _ _ => True
  /-- Where the right one goes on, a file that is to be closed may be removed. -/
  closing : ∀ function args machine after, c.Keeps machine →
    right (.library function args) machine = .ok () after → c.MayClose function args after

/-- The value with which control leaves a scope is admitted. -/
def AdmitsStep (c : Custody) (count : Nat) : StepResult → Prop
  | .leave flow => c.AdmitsFlow count flow
  | _ => True

namespace Pairs

variable (pairs : c.Pairs left right)
include pairs

/-- Functions of the script, watched. -/
theorem watchedUser {first second : Watch} (tends : c.Tends first second)
    (function : UserFunction) {args : List Value} (line : Nat)
    (good : ∀ value ∈ args, c.Admits count value) :
    c.Does count (left.watchedUser first function args line)
      (right.watchedUser second function args line) c.Admits := by
  refine (Does.checkArity _ _ _ _ _).bind fun _ _ grows _ => ?_
  refine Does.resetRegisters.bind fun _ _ further _ => ?_
  have still : ∀ more, _ ≤ more → ∀ value ∈ args, c.Admits more value := fun more most value among =>
    (good value among).mono (Nat.le_trans (Nat.le_trans grows further) most)
  refine Does.inCall c.AdmitsFlow ⟨by simp [callScope, Scope.ofCode], fun _ => trivial⟩
    (fun more most => ?_) (fun more ⟨outcome, left⟩ returns holds => ?_) fun _ _ _ => rfl
  · refine Does.bind (fun machine keeps _ => tends.ends (.body function) machine keeps)
      fun _ _ after _ => ?_
    exact (pairs.bindParams function line _ (still _ (Nat.le_trans most after))).bind
      fun _ _ _ _ => pairs.runScope _
  · cases outcome with
    | error stop => exact .throw fun full => absurd full pairs.hungry
    | ok flow =>
      dsimp only
      refine .bind (.modifyRegisters fun _ _ _ admits => admits) fun _ _ grows _ => ?_
      refine .pure fun _ further => ?_
      have admits := returns flow rfl
      cases flow with
      | returned value => exact Admits.mono admits (Nat.le_trans grows further)
      | exit => exact fun _ => trivial
      | _ => exact Admits.mono holds.returnValue (Nat.le_trans grows further)

omit pairs in
/-- Functions of the library, watched. -/
theorem watchedBuiltin {first second : Watch} (tends : c.Tends first second) (function : Builtin)
    {args : List Value} (line : Nat) (good : ∀ value ∈ args, c.Admits count value) :
    c.Does count (Engine.watchedBuiltin first function args line)
      (Engine.watchedBuiltin second function args line) c.Admits := by
  refine (Does.checkArity _ _ _ _ _).bind fun _ _ grows _ => ?_
  cases filled : Args.fill function.params args with
  | error parameter => exact .fail _ _
  | ok values =>
    have admits := admits_fill function.fallback_plain good filled
    refine Does.resetRegisters.bind fun _ _ further _ => (Does.trace _).bind fun _ _ most _ => ?_
    intro machine keeps enough
    refine (tends.ends _ machine keeps).bind fun _ after ran kept later _ => ?_
    refine function.ends_run kept (fun value among => ?_) (tends.closing _ _ _ _ keeps ran)
    have grows := later.heap.size
    exact (admits value among).mono (by omega)

/-- A watched call by name keeps the custody. -/
theorem watchedCall {first second : Watch} (tends : c.Tends first second) (name : String)
    {args : List Value} (line : Nat) (good : ∀ value ∈ args, c.Admits count value) :
    c.Does count (left.watchedCall first name args line)
      (right.watchedCall second name args line) c.Admits := by
  refine .get fun machine _ enough => ?_
  have still : ∀ value ∈ args, c.Admits machine.heap.slots.size value :=
    fun value among => (good value among).mono enough
  split
  · exact .pure fun _ _ _ => trivial
  · split
    · exact pairs.watchedUser tends _ line still
    · split
      · exact watchedBuiltin tends _ line still
      · exact .fail _ _

/-- Reading a watched term keeps the custody. -/
theorem watchedTerm {first second : Watch} (tends : c.Tends first second) (window : Window)
    (pos : Nat) :
    c.Does count (left.watchedTerm first window pos) (right.watchedTerm second window pos)
      c.AdmitsFirst :=
  .bind (fun machine keeps _ => tends.ends .term machine keeps) fun _ _ _ _ =>
    pairs.evalTerm window pos

/-- Evaluating an expression of the innermost scope keeps the custody. -/
theorem scopeValue : c.Does count left.scopeValue right.scopeValue c.Admits := by
  unfold Engine.scopeValue
  refine Does.topScope.bind fun _ _ _ _ => (pairs.value _ _ _).bind fun _ _ _ admits => ?_
  exact (Does.moveTo _).bind fun _ _ grows _ => .pure fun _ further =>
    Admits.mono admits (Nat.le_trans grows further)

/-- Executing a flag keeps the custody. -/
theorem flag (token : Token) :
    c.Does count (left.flag token) (right.flag token) fun _ _ => True := by
  have rest : ∀ more, c.Does more (do
        let scope ← topScope
        if scope.code.hasOperator scope.pos "=" then
          moveTo (scope.pos + 1)
          let value ← left.scopeValue
          Exec.trace fun _ => "flag: #" ++ token.lexeme ++ " = " ++ value.display
        else Exec.trace fun _ => "flag: ignoring #" ++ token.lexeme) (do
        let scope ← topScope
        if scope.code.hasOperator scope.pos "=" then
          moveTo (scope.pos + 1)
          let value ← right.scopeValue
          Exec.trace fun _ => "flag: #" ++ token.lexeme ++ " = " ++ value.display
        else Exec.trace fun _ => "flag: ignoring #" ++ token.lexeme) fun _ _ => True := by
    refine fun _ => Does.topScope.bind fun _ _ _ _ => ?_
    split
    · refine (Does.moveTo _).bind fun _ _ _ _ => pairs.scopeValue.bind fun _ _ _ _ => ?_
      exact .trace _
    · exact .trace _
  unfold Engine.flag
  dsimp only
  split
  · exact .bind (.modify fun _ => ⟨rfl, rfl, fun awake => ⟨awake.1, awake.2⟩⟩) fun _ _ _ _ => rest _
  · exact Does.failFirst _ _ _ _
  · exact Does.failFirst _ _ _ _
  · exact rest _

/-- A return keeps the custody. -/
theorem returning : c.Does count left.returning right.returning c.AdmitsStep := by
  have leave : ∀ (more : Nat) (value : Value), c.Admits more value →
      c.Does more (do setReturnValue value; return StepResult.leave (.returned value))
        (do setReturnValue value; return StepResult.leave (.returned value)) c.AdmitsStep :=
    fun _ _ admits => (Does.setReturnValue admits).bind fun _ _ grows _ =>
      .pure fun _ further => Admits.mono admits (Nat.le_trans grows further)
  unfold Engine.returning
  refine Does.atLineEnd.bind fun _ atEnd _ _ => ?_
  dsimp only
  split
  · have zero : ∀ more, c.Admits more (.number 0) := fun _ _ => trivial
    exact (Does.pure fun _ _ => zero _).bind fun _ _ _ admits => leave _ _ admits
  · exact pairs.scopeValue.bind fun _ _ _ admits => leave _ _ admits

/-- An exit keeps the custody. -/
theorem exiting : c.Does count left.exiting right.exiting c.AdmitsStep := by
  have rest : ∀ more, c.Does more (do
        let code := (← get).exitCode
        Exec.trace fun _ => "exit: code " ++ toString code.toInt
        modify fun machine => { machine with exitRequested := true }
        return StepResult.leave .exit) (do
        let code := (← get).exitCode
        Exec.trace fun _ => "exit: code " ++ toString code.toInt
        modify fun machine => { machine with exitRequested := true }
        return StepResult.leave .exit) c.AdmitsStep := fun _ =>
    .get fun _ _ _ => (Does.trace _).bind fun _ _ _ _ =>
      .bind (.modify fun _ => ⟨rfl, rfl, fun awake => ⟨awake.1, awake.2⟩⟩) fun _ _ _ _ =>
      .pure fun _ _ => trivial
  unfold Engine.exiting
  refine Does.atLineEnd.bind fun _ atEnd _ _ => ?_
  dsimp only
  split
  · exact pairs.scopeValue.bind fun _ _ _ _ =>
      .bind (.modify fun _ => ⟨rfl, rfl, fun awake => ⟨awake.1, awake.2⟩⟩) fun _ _ _ _ => rest _
  · exact rest _

/-- A jump keeps the custody. -/
theorem jumping (token : Token) {flow : UInt32 → Flow}
    (free : ∀ levels more, c.AdmitsFlow more (flow levels)) :
    c.Does count (left.jumping token flow) (right.jumping token flow) c.AdmitsStep := by
  have leave : ∀ (more : Nat) (level : Int64), c.Does more
      (if level < 1 then Exec.fail (.loopLevel token.lexeme level) token.line
        else return StepResult.leave (flow level.toUInt64.toUInt32))
      (if level < 1 then Exec.fail (.loopLevel token.lexeme level) token.line
        else return StepResult.leave (flow level.toUInt64.toUInt32)) c.AdmitsStep := by
    intro more level
    split
    · exact .fail _ _
    · exact .pure fun _ _ => free _ _
  unfold Engine.jumping
  refine Does.atLineEnd.bind fun _ atEnd _ _ => ?_
  dsimp only
  split
  · exact leave _ 1
  · simp only [map_eq_pure_bind, bind_assoc, pure_bind]
    exact pairs.scopeValue.bind fun _ _ _ _ => leave _ _

/-- Executing a token keeps the custody. -/
theorem runToken (token : Token) :
    c.Does count (left.runToken token) (right.runToken token) c.AdmitsStep := by
  have ended : ∀ more, c.Does more (do expectLineEnd; return StepResult.goOn)
      (do expectLineEnd; return StepResult.goOn) c.AdmitsStep :=
    fun _ => Does.expectLineEnd.bind fun _ _ _ _ => .pure fun _ _ => trivial
  have ran : c.Does count left.stepStatement right.stepStatement c.AdmitsStep := by
    refine Does.topScope.bind fun _ _ _ _ => (Does.moveTo _).bind fun _ _ _ _ => ?_
    refine (pairs.statement _ _).bind fun _ result _ admits => ?_
    refine (Does.moveTo _).bind fun _ _ grows _ => ?_
    split
    · exact ended _
    · exact .pure fun _ further => AdmitsFlow.mono admits (Nat.le_trans grows further)
  unfold Engine.runToken
  split
  case h_1 | h_2 | h_7 => exact .pure fun _ _ => trivial
  case h_3 => exact pairs.returning
  case h_4 => exact pairs.exiting
  case h_5 | h_6 => exact pairs.jumping _ fun _ _ => trivial
  case h_8 => exact (pairs.flag _).bind fun _ _ _ _ => ended _
  case h_9 => exact Does.skipFunction.bind fun _ _ _ _ => ended _
  case h_22 | h_23 | h_24 => exact .fail _ _
  all_goals exact ran

/-- A step keeps the custody. -/
theorem step : c.Does count left.step right.step c.AdmitsStep := by
  unfold Engine.step
  refine Does.topScope.bind fun _ scope _ _ => ?_
  split
  · exact .pure fun _ _ => trivial
  · refine (Does.moveTo _).bind fun _ _ _ _ => ?_
    split
    · exact .bind (.modify fun _ => ⟨rfl, rfl, fun awake => ⟨awake.1, awake.2⟩⟩) fun _ _ _ _ =>
        pairs.runToken _
    · exact pairs.runToken _

/-- The statements of a scope, watched. -/
theorem watchedStatements {first second : Watch} (tends : c.Tends first second) {fuel more : Nat}
    (bound : fuel = more ∨ c.lax ∧ fuel ≤ more) :
    c.Does count (left.watchedStatements first fuel) (right.watchedStatements second more)
      c.AdmitsFlow := by
  show (c.logic pairs.hungry).Does count _ _ c.AdmitsFlow
  refine (c.logic pairs.hungry).rounds (fun fuel (_ : Unit) => left.watchedStatements first fuel)
    (fun fuel (_ : Unit) => right.watchedStatements second fuel) (fun _ _ => True)
    (fun _ => c.AdmitsFlow) (fun _ => rfl) (fun _ => rfl) (fun fuel more ih count _ _ => ?_)
    bound () trivial
  unfold Engine.watchedStatements
  refine Does.isSuspended.bind fun most suspended _ _ => ?_
  split
  · exact ih most () trivial
  · refine .get fun machine _ _ => ?_
    split
    · exact .pure fun _ _ => trivial
    · refine .bind (fun machine keeps _ => tends.ends .statement machine keeps) fun _ _ _ _ => ?_
      refine pairs.step.bind fun most result _ admits => ?_
      split
      · exact ih most () trivial
      · exact .pure fun _ _ => trivial
      · refine Does.topScope.bind fun _ _ grows _ => ?_
        split
        · exact .get fun _ _ _ => .fail _ _
        · exact .pure fun _ further => AdmitsFlow.mono admits (Nat.le_trans grows further)

end Pairs

/-- With one step more of fuel on both sides two watched engines still end alike. -/
theorem Pairs.succ {first second : Watch} {fuel more : Nat}
    (pairs : c.Pairs (watchedEngine first fuel) (watchedEngine second more))
    (tends : c.Tends first second) (bound : fuel = more ∨ c.lax ∧ fuel ≤ more) :
    c.Pairs (watchedEngine first (fuel + 1)) (watchedEngine second (more + 1)) where
  hungry := pairs.hungry
  fuel := bound
  term _ window pos := pairs.watchedTerm tends window pos
  value _ window pos := pairs.evalValue window pos
  call _ name _ line good := pairs.watchedCall tends name line good
  runScope _ := pairs.watchedStatements tends bound

/-- An engine without fuel beside any other one. -/
theorem Pairs.starve (pairs : c.Pairs left right) (lax : c.lax) : c.Pairs (engine 0) right where
  hungry := pairs.hungry
  fuel := .inr ⟨lax, Nat.zero_le _⟩
  term count window pos := (pairs.term count window pos).starve lax
  value count window pos := (pairs.value count window pos).starve lax
  call count name args line good := (pairs.call count name args line good).starve lax
  runScope count := (pairs.runScope count).starve lax

/-- Two watched engines end alike in custody. -/
theorem watchedEngine_pairs {first second : Watch} (hungry : ¬ c.full)
    (tends : c.Tends first second) {fuel more : Nat} (bound : fuel = more ∨ c.lax ∧ fuel ≤ more) :
    c.Pairs (watchedEngine first fuel) (watchedEngine second more) := by
  have equal : ∀ fuel, c.Pairs (watchedEngine first fuel) (watchedEngine second fuel) := by
    intro fuel
    induction fuel with
    | zero =>
      have starved : ∀ {α : Type} {count : Nat} {post : Nat → α → Prop},
          c.Does count Exec.starved Exec.starved post := .throw fun full => absurd full hungry
      exact ⟨hungry, .inl rfl, fun _ _ _ => starved, fun _ _ _ => starved,
        fun _ _ _ _ _ => starved, fun _ => starved⟩
    | succ fuel ih => exact ih.succ tends (.inl rfl)
  rcases bound with rfl | ⟨lax, bound⟩
  · exact equal fuel
  · induction fuel generalizing more with
    | zero => exact (equal more).starve lax
    | succ fuel ih =>
      cases more with
      | zero => cases bound
      | succ more =>
        have atMost := Nat.le_of_succ_le_succ bound
        exact (ih atMost).succ tends (.inr ⟨lax, atMost⟩)

/-- Nobody watches, and every file may be closed. -/
theorem tends_idle (closable : ∀ id, c.closable id) : c.Tends .idle .idle :=
  ⟨fun _ _ keeps => .pure keeps trivial, fun _ _ _ _ _ _ _ id _ _ _ => closable id⟩

namespace Does

/-- Preparation keeps the custody. -/
theorem prepare : c.Does count Machine.prepare Machine.prepare fun _ _ => True := by
  intro machine keeps _
  obtain ⟨console, prepared⟩ := prepare_eq machine
  unfold Ends
  rw [prepared]
  have after : c.Later machine
      { machine with pending := none, host := { machine.host with console } } :=
    ⟨.refl _, fun awake => ⟨awake.1, awake.2⟩⟩
  split
  · exact .ok keeps (.refl machine) trivial
  · split
    · exact .fault ⟨⟨keeps.holds.scopes, keeps.holds.objects⟩, keeps.grown⟩ after
    · refine .ok ⟨⟨fun scope member => ?_, keeps.holds.objects⟩, keeps.grown⟩
        ⟨after.heap, fun awake => ⟨awake.1, awake.2⟩⟩ trivial
      rcases List.mem_append.mp member with inner | root
      · exact keeps.holds.scopes scope (List.mem_append_left _ inner)
      · have old := keeps.holds.scopes machine.stack.root
          (List.mem_append_right _ List.mem_cons_self)
        rw [List.mem_singleton.mp root]
        exact ⟨old.vars, old.returnValue⟩

/-- What is done after an action that was attempted, whatever became of it. -/
theorem attempt {first second : Exec α} {firstNext secondNext : Except Stop α → Exec β}
    {post : Nat → α → Prop} {later : Nat → β → Prop} (does : c.Does count first second post)
    (rest : ∀ more outcome, c.Does more (firstNext outcome) (secondNext outcome) later)
    (throws : ∀ machine, ∃ after, firstNext (.error .starved) machine = .error .starved after ∧
      after.heap = machine.heap) :
    c.Does count (Exec.attempt first >>= firstNext) (Exec.attempt second >>= secondNext) later := by
  intro machine keeps enough
  obtain ⟨kept, after, same, _, _⟩ := does machine keeps enough
  have returned : ∀ {action : Exec α} {next : Except Stop α → Exec β} {value : α} {last : Machine},
      action machine = .ok value last →
      (Exec.attempt action >>= next) machine = next (.ok value) last := by
    intro action next value last ran
    show EStateM.bind (Exec.attempt action) next machine = _
    unfold EStateM.bind Exec.attempt
    rw [ran]
  have failed : ∀ {action : Exec α} {next : Except Stop α → Exec β} {stop : Stop} {last : Machine},
      action machine = .error stop last →
      (Exec.attempt action >>= next) machine = next (.error stop) last := by
    intro action next stop last ran
    show EStateM.bind (Exec.attempt action) next machine = _
    unfold EStateM.bind Exec.attempt
    rw [ran]
  have stopped : ∀ {starved last : Machine} {right : EStateM.Result Stop Machine β}, c.lax →
      starved.heap.Leads c.closable last.heap → c.Later machine last →
      (∃ left, c.Reached last left right later) →
      c.Reached machine (firstNext (.error .starved) starved) right later := by
    rintro starved last right lax leads after ⟨_, reached⟩
    obtain ⟨final, thrown, heap⟩ := throws starved
    rw [thrown]
    exact (reached.after after).starve lax (heap ▸ leads.trans reached.later.heap)
  unfold Ends
  cases outcome : second machine with
  | ok value last =>
    rw [outcome] at kept after same
    have reached := rest _ (.ok value) last kept (Nat.le_refl _)
    rw [returned outcome]
    rcases same with same | ⟨lax, starved, same, leads⟩
    · rw [returned same]
      exact reached.after after
    · rw [failed same]
      exact stopped lax leads after ⟨_, reached⟩
  | error stop last =>
    rw [outcome] at kept after same
    have reached := rest _ (.error stop) last kept (Nat.le_refl _)
    rw [failed outcome]
    rcases same with same | ⟨lax, starved, same, leads⟩
    · rw [failed same]
      exact reached.after after
    · rw [failed same]
      exact stopped lax leads after ⟨_, reached⟩

/-- The outcome of an attempt keeps the custody. -/
theorem ofAttempt (hungry : ¬ c.full) (outcome : Except Stop α) :
    c.Does count (Exec.ofAttempt outcome) (Exec.ofAttempt outcome) fun _ _ => True := by
  cases outcome with
  | ok value => exact .pure fun _ _ => trivial
  | error stop => exact .throw fun full => absurd full hungry

end Does

namespace Pairs

variable (pairs : c.Pairs left right)
include pairs

/-- Running the exit handler keeps the custody. -/
theorem runExitHandlerBy :
    c.Does count (Machine.runExitHandlerBy Exec.attempt left) (Machine.runExitHandlerBy Exec.attempt right)
      fun _ _ => True := by
  unfold Machine.runExitHandlerBy
  refine .get fun machine _ _ => ?_
  split
  · exact .pure fun _ _ => trivial
  · refine .bind (.modify fun _ => ⟨rfl, rfl, fun awake => ⟨awake.1, awake.2⟩⟩) fun _ _ _ _ => ?_
    refine (Does.trace _).bind fun _ _ _ _ => ?_
    refine .bind (.modify fun _ => ⟨rfl, rfl, fun awake => ⟨awake.1, awake.2⟩⟩) fun _ _ _ _ => ?_
    refine .attempt (pairs.call _ _ _ _ (by simp)) (fun _ outcome => ?_) fun _ => ⟨_, rfl, rfl⟩
    exact .bind (.modify fun _ => ⟨rfl, rfl, fun awake => ⟨awake.1, awake.2⟩⟩) fun _ _ _ _ =>
      (Does.ofAttempt pairs.hungry outcome).bind fun _ _ _ _ =>
      .pure fun _ _ => trivial

/-- Two runs of a script end alike in custody. -/
theorem runBy :
    c.Does count (Machine.runBy Exec.attempt left) (Machine.runBy Exec.attempt right) fun _ _ => True := by
  have rewinds : ∀ more, c.Does more (modify rewound) (modify rewound) fun _ _ => True := by
    intro more machine keeps _
    have old := keeps.holds.scopes machine.stack.root (List.mem_append_right _ List.mem_cons_self)
    refine .modify ⟨⟨fun scope member => ?_, keeps.holds.objects⟩, keeps.grown⟩
      ⟨.refl _, fun awake => ⟨awake.1, awake.2⟩⟩
    rw [List.mem_singleton.mp member]
    exact ⟨old.vars, old.returnValue⟩
  unfold Machine.runBy
  refine .get fun machine _ _ => ?_
  split
  · exact .pure fun _ _ => trivial
  · refine Does.prepare.bind fun _ _ _ _ => ?_
    refine .bind (.modify fun _ => ⟨rfl, rfl, fun awake => ⟨awake.1, awake.2⟩⟩) fun _ _ _ _ => ?_
    refine .get fun _ _ _ => ?_
    refine (Does.trace _).bind fun _ _ _ _ => ?_
    refine .attempt (pairs.runScope _) (fun _ outcome => ?_) fun _ => ⟨_, rfl, rfl⟩
    refine (rewinds _).bind fun _ _ _ _ => (Does.ofAttempt pairs.hungry outcome).bind fun _ _ _ _ => ?_
    exact (Does.trace _).bind fun _ _ _ _ => pairs.runExitHandlerBy

end Pairs

end Custody

end

/-!
## More fuel never changes an outcome

An engine with less fuel beside one with more ends alike, unless it runs out of fuel. `Exec.Below`
says this of two actions. Two ways to do the same thing may need different amounts of fuel; they
agree (`Exec.Agrees`) if each of them is below the other one when that has enough.
-/

namespace Exec

variable {α β : Type}

/-- The left action ends as the right one does, unless it runs out of fuel. -/
def Below (left right : Exec α) : Prop :=
  ∀ machine, left machine = right machine ∨ ∃ after, left machine = .error .starved after

namespace Below

/-- Every action is below itself. -/
theorem refl (action : Exec α) : action.Below action := fun _ => .inl rfl

/-- Running out of fuel keeps the custody. -/
theorem starved (action : Exec α) : Below Exec.starved action := fun machine => .inr ⟨machine, rfl⟩

/-- Being below is transitive. -/
theorem trans {first second third : Exec α} (earlier : first.Below second)
    (later : second.Below third) : first.Below third := by
  intro machine
  rcases earlier machine with same | out
  · rw [same]
    exact later machine
  · exact .inr out

/-- Sequences of actions below each other are below each other. -/
theorem bind {left right : Exec α} {next other : α → Exec β} (first : left.Below right)
    (rest : ∀ value, (next value).Below (other value)) : (left >>= next).Below (right >>= other) := by
  intro machine
  simp only [Bind.bind, EStateM.bind]
  rcases first machine with same | ⟨after, out⟩
  · rw [same]
    cases right machine with
    | ok value middle => exact rest value middle
    | error stop middle => exact .inl rfl
  · rw [out]
    exact .inr ⟨after, rfl⟩

/-- An outcome of the left action is one of the right action, unless it is for want of fuel. -/
theorem eq_of_finished {left right : Exec α} (below : left.Below right) {machine : Machine}
    {outcome : EStateM.Result Stop Machine α} (ended : left machine = outcome)
    (finished : ∀ after, outcome ≠ .error .starved after) : right machine = outcome := by
  rcases below machine with same | ⟨after, out⟩
  · rw [← same, ended]
  · exact absurd (ended.symm.trans out) (finished after)

/-- What returns, returns the same with more fuel. -/
theorem eq_ok {left right : Exec α} (below : left.Below right) {machine last : Machine} {value : α}
    (returned : left machine = .ok value last) : right machine = .ok value last :=
  below.eq_of_finished returned (by rintro _ ⟨⟩)

/-- What two engines do is compared by comparing the engines. -/
theorem of_does {left right : Exec α} {post : Heap → Nat → α → Prop}
    (does : ∀ start : Heap, (Custody.loose start).Does 0 left right (post start)) :
    left.Below right := by
  intro machine
  have reached := does machine.heap machine (.of_not_strict id (.refl _)) (Nat.zero_le _)
  rcases reached.same with same | ⟨_, after, out, _⟩
  · exact .inl same
  · exact .inr ⟨after, out⟩

end Below

/-- Two actions are the same but for fuel: each is below the other one if that has enough. -/
structure Agrees (may enough : Prop) (left right : Exec α) : Prop where
  /-- The left action may need more fuel. -/
  below : may → left.Below right
  /-- The right action may need more fuel. -/
  above : enough → right.Below left

namespace Agrees

variable {may enough : Prop} {left right : Exec α} {next other : α → Exec β}

/-- Every action agrees with itself. -/
theorem refl (action : Exec α) : Agrees may enough action action :=
  ⟨fun _ => .refl action, fun _ => .refl action⟩

/-- Actions that agree do so under stronger premises and weaker promises. -/
theorem mono {may' enough' : Prop} (agrees : Agrees may enough left right) (weaker : may' → may)
    (stronger : enough' → enough) : Agrees may' enough' left right :=
  ⟨fun given => agrees.below (weaker given), fun given => agrees.above (stronger given)⟩

/-- Sequences of actions that agree agree. -/
theorem bind (first : Agrees may enough left right)
    (rest : ∀ value, Agrees may enough (next value) (other value)) :
    Agrees may enough (left >>= next) (right >>= other) :=
  ⟨fun given => (first.below given).bind fun value => (rest value).below given,
    fun given => (first.above given).bind fun value => (rest value).above given⟩

/-- Agreement is transitive. -/
theorem trans {third : Exec α} (earlier : Agrees may enough left right)
    (later : Agrees may enough right third) : Agrees may enough left third :=
  ⟨fun given => (earlier.below given).trans (later.below given),
    fun given => (later.above given).trans (earlier.above given)⟩

/-- Without fuel there is never enough. -/
theorem starved (none : ¬ enough) : Agrees may enough Exec.starved right :=
  ⟨fun _ => .starved right, fun given => absurd given none⟩

end Agrees

end Exec

/-- An engine beside another one with at least as much fuel. -/
theorem Custody.engine_pairs {fuel more : Nat} (le : fuel ≤ more) (start : Heap) :
    (loose start).Pairs (engine fuel) (engine more) := by
  have idle : (loose start).Tends .idle .idle := tends_idle fun _ => trivial
  have pairs := watchedEngine_pairs id idle (.inr ⟨trivial, le⟩ : fuel = more ∨ _)
  rwa [watchedEngine_idle, watchedEngine_idle] at pairs

/-- An engine may make one round less than it has fuel. -/
theorem engine_fuel (fuel : Nat) : (engine fuel).fuel = fuel - 1 := by
  cases fuel <;> rfl

end LineScript
