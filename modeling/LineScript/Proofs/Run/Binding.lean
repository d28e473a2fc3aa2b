import LineScript.Proofs.Congruence.Relation
import LineScript.Proofs.Run.Calls

/-!
# Parameters are bound to the arguments at their places

A call binds the parameters of its function in order in the scope that was put on for it: each one to
the argument at its place, or to its default, which is evaluated in that scope when the earlier ones
are bound there and nothing else is. Whatever the default does, it leaves that scope and those of the
callers as they are, except for their registers.
-/

namespace LineScript

/-!
## What evaluating leaves of the scopes

An expression writes no variable of the scope it is evaluated in: it can only call, and what is
called writes to its own scope and to the script's.
-/

section

open Machine

/-- The scopes of calls and blocks without their registers, innermost first. -/
def Stack.bare (stack : Stack) : List Scope := stack.inner.map fun scope => { scope with registers := {} }

/-- The numbers of arguments of all scopes, innermost first. -/
def Stack.givens (stack : Stack) : List Nat := stack.scopes.map Scope.numParams

namespace Stack

/-- Scopes that stand where they stood, with the variables and the number of arguments they had, differ
in their registers at most. -/
theorem bare_eq {stack other : Stack} (samePlaces : other.places = stack.places)
    (sameLocals : other.locals = stack.locals) (sameGivens : other.givens = stack.givens) :
    other.bare = stack.bare := by
  have inner : ∀ {View : Type} (view : Scope → View),
      other.scopes.map view = stack.scopes.map view →
      other.inner.map view = stack.inner.map view := by
    intro View view same
    simp only [scopes, List.map_append, List.map_cons, List.map_nil] at same
    exact (List.append_inj' same rfl).1
  have innerPlaces := inner Scope.place samePlaces
  have innerGivens := inner Scope.numParams sameGivens
  unfold locals at sameLocals
  unfold bare
  clear inner samePlaces sameGivens
  generalize other.inner = others at *
  generalize stack.inner = scopes at *
  induction scopes generalizing others with
  | nil => rw [List.map_eq_nil_iff.mp innerPlaces]
  | cons scope scopes ih =>
    cases others with
    | nil => cases innerPlaces
    | cons first rest =>
      simp only [List.map_cons, List.cons.injEq, Scope.place, Prod.mk.injEq] at *
      refine ⟨?_, ih rest sameLocals.2 innerPlaces.2 innerGivens.2⟩
      rw [innerPlaces.1.1, innerPlaces.1.2.1, innerPlaces.1.2.2, sameLocals.1, innerGivens.1]

/-- Once the scope that was put on a stack is taken off, there are the numbers of before. -/
theorem givens_pop {stack after : Stack} {scope : Scope}
    (same : after.givens = (stack.push scope).givens) : after.pop.givens = stack.givens := by
  obtain ⟨_ | ⟨first, rest⟩, root⟩ := after
  · have lengths := congrArg List.length same
    simp [givens, scopes, push] at lengths
  · exact (List.cons.inj same).2

end Stack

/-- No run changes a number of arguments. -/
theorem Machine.Evolves.givens_eq {before after : Machine} (evolves : before.Evolves after) :
    after.stack.givens = before.stack.givens := by
  induction evolves with
  | refl => rfl
  | trans _ _ earlier later => rw [later, earlier]
  | aside stack => rw [stack]
  | write machine position => exact Stack.map_scopes_modifyAt _ _ _ _ fun _ => rfl
  | registers machine change => exact Stack.map_scopes_modifyAt _ _ _ _ fun _ => rfl
  | move machine pos =>
    simp only [Stack.modifyTop_eq_modifyAt]
    exact Stack.map_scopes_modifyAt _ _ _ _ fun _ => rfl
  | block _ _ _ inside | call _ _ _ _ _ inside => exact Stack.givens_pop inside

/-- The action leaves all scopes but the script's as they are, except for their registers. -/
def Exec.KeepsBare : ExecRelation := fun _ action _ =>
  ∀ machine : Machine, (action.final machine).stack.bare = machine.stack.bare

/-- Keeping the bare scopes passes from an engine's parts to the whole. -/
theorem Exec.keepsBare_congruence : Exec.Congruence Exec.KeepsBare where
  beside beside machine := congrArg Stack.bare (beside.stays machine).stack
  bind first rest machine := by
    refine final_bind (Q := fun after => after.stack.bare = machine.stack.bare) (first machine)
      fun value middle stays => ?_
    exact (rest value middle).trans stays
  get _ rest machine := rest machine machine

namespace Machine

/-- A call leaves the scopes of its callers as they are, except for their registers. -/
theorem call_keepsBare (fuel : Nat) (name : String) (args : List Value) (line : Nat)
    (machine : Machine) :
    ((Machine.call fuel name args line).final machine).stack.bare = machine.stack.bare := by
  have does := (engine_obeys (.free machine.program) fuel).call name args line machine rfl
  exact Stack.bare_eq does.2 (call_locals fuel name args line machine) does.1.evolves.givens_eq

/-- So does an expression or a term. -/
theorem alike_keepsBare (fuel : Nat) : (engine fuel).Alike Exec.KeepsBare (engine fuel) := by
  have law := Exec.keepsBare_congruence
  induction fuel with
  | zero => exact ⟨rfl, fun _ _ => law.starved, fun _ _ => law.starved, fun _ _ _ => law.starved⟩
  | succ fuel ih =>
    exact ⟨rfl, ih.evalTerm law, ih.evalValue law, call_keepsBare (fuel + 1)⟩

end Machine

end

/-!
## Binding one parameter after the other
-/

section

open Machine

/-- The argument that is supplied for the parameter at a position: there is one, and it does not ask
for the default. -/
def supplied? (args : List Value) (position : Nat) : Option Value :=
  args[position]?.filter (· ≠ .defaultWord)

/-- The variables of a call in which parameters hold values. -/
def bindings (params : List Param) (values : List Value) : Variables :=
  List.zipWith (fun param value => (param.name, ⟨value, false⟩)) params values

/-- Binding one more parameter adds its entry at the end. -/
theorem bindings_append {params : List Param} {values : List Value}
    (lengths : values.length = params.length) (param : Param) (value : Value) :
    bindings (params ++ [param]) (values ++ [value]) =
      bindings params values ++ [(param.name, ⟨value, false⟩)] := by
  unfold bindings
  rw [List.zipWith_append lengths.symm]
  rfl

/-- What is not the name of a parameter is no variable of its call. -/
theorem get?_bindings {params : List Param} {name : String}
    (fresh : ∀ param ∈ params, param.name ≠ name) (values : List Value) :
    (bindings params values).get? name = none := by
  induction params generalizing values with
  | nil => rfl
  | cons param params ih =>
    obtain ⟨other, later⟩ := List.forall_mem_cons.mp fresh
    cases values with
    | nil => rfl
    | cons value values =>
      have apart : (name == param.name) = false := beq_eq_false_iff_ne.mpr other.symm
      simp only [bindings, List.zipWith_cons_cons, Variables.get?, List.lookup_cons, apart]
      exact ih later values

/-- A variable that does not exist comes last. -/
theorem Variables.insert_new {vars : Variables} {key : String} (new : vars.get? key = none)
    (variable' : Variable) : vars.insert key variable' = vars ++ [(key, variable')] := by
  induction vars with
  | nil => rfl
  | cons entry rest ih =>
    obtain ⟨other, held⟩ := entry
    rw [get?, List.lookup_cons] at new
    split at new
    · cases new
    · rename_i differs
      have apart : (other == key) = false := Bool.beq_comm.trans differs
      rw [insert, if_neg (by simp [apart]), ih new]
      rfl

/-- A call of a function with so many arguments runs on a machine, and in its scope these parameters
hold these values and there is no other variable. The callers' scopes are as they were, except for
their registers. -/
structure Machine.Binds (caller : Machine) (function : UserFunction) (given : Nat)
    (params : List Param) (values : List Value) (state : Machine) : Prop where
  /-- The scope of the call, at the start of the body, above those of the callers. -/
  scopes : state.stack.bare =
    { callScope function given with vars := bindings params values } :: caller.stack.bare
  /-- The number of arguments can be asked for. -/
  numParams : state.numParams = given

namespace Machine.Binds

variable {caller state : Machine} {function : UserFunction} {given : Nat} {params : List Param}
  {values : List Value}

/-- The scope of the call is the innermost one. -/
theorem top (scopes : state.stack.bare =
      { callScope function given with vars := bindings params values } :: caller.stack.bare) :
    ∃ registers rest, state.stack.inner =
      { callScope function given with vars := bindings params values, registers } :: rest ∧
        rest.map (fun scope => { scope with registers := {} }) = caller.stack.bare := by
  unfold Stack.bare at *
  cases inner : state.stack.inner with
  | nil =>
    rw [inner] at scopes
    cases scopes
  | cons scope rest =>
    rw [inner, List.map_cons] at scopes
    obtain ⟨same, below⟩ := List.cons.inj scopes
    refine ⟨scope.registers, rest, ?_, below⟩
    obtain ⟨kind, code, pos, vars, registers, numParams⟩ := scope
    cases same
    rfl

/-- A stack whose bare scopes are the callee's and the caller's is one of the call. -/
theorem of_scopes (scopes : state.stack.bare =
      { callScope function given with vars := bindings params values } :: caller.stack.bare) :
    caller.Binds function given params values state := by
  obtain ⟨registers, rest, inner, _⟩ := top scopes
  refine ⟨scopes, ?_⟩
  unfold Machine.numParams Stack.frame Stack.framePosition Stack.scopeAt
  rw [inner]
  rfl

/-- A call begins with no parameter bound. -/
theorem entered (caller : Machine) (function : UserFunction) (given line : Nat) :
    caller.Binds function given [] [] (caller.entered function given line) := by
  have bare : caller.cleared.stack.bare = caller.stack.bare :=
    Stack.bare_eq (Stack.places_modifyAt _ _ _ fun _ => rfl)
      (Stack.locals_of_tables (Stack.tables_modifyAt _ _ _ fun _ => rfl))
      (Stack.map_scopes_modifyAt _ _ _ _ fun _ => rfl)
  exact of_scopes (congrArg (_ :: ·) bare)

/-- What leaves the scopes as they are leaves the parameters bound. -/
theorem keep (binds : caller.Binds function given params values state) {after : Machine}
    (same : after.stack.bare = state.stack.bare) : caller.Binds function given params values after :=
  of_scopes (same.trans binds.scopes)

/-- One more parameter is bound. -/
theorem set (binds : caller.Binds function given params values state)
    (lengths : values.length = params.length) {param : Param}
    (small : Text.lower param.name = param.name) (fresh : ∀ other ∈ params, other.name ≠ param.name)
    (value : Value) :
    ∃ after, setVariable param.name value state = .ok () after ∧
      caller.Binds function given (params ++ [param]) (values ++ [value]) after := by
  obtain ⟨registers, rest, inner, below⟩ := top binds.scopes
  have new := get?_bindings fresh values
  have vars : (state.stack.scopeAt 0).vars = bindings params values := by
    unfold Stack.scopeAt
    rw [inner]
    rfl
  have written := writeVariable_eq 0 param.name value false state
  rw [small, vars, new] at written
  refine ⟨_, written, of_scopes ?_⟩
  unfold Stack.modifyAt Stack.bare
  rw [inner]
  simp only [List.length_cons, Nat.zero_lt_succ, if_true, List.modify_zero_cons, List.map_cons, below,
    Variables.insert_new new, bindings_append lengths]
  rfl

end Machine.Binds

/-- What is bound to a parameter on a machine: the argument that is supplied, or else the value of its
default there. -/
def Engine.Takes (low : Engine) (param : Param) (argument : Option Value) (before : Machine)
    (value : Value) : Prop :=
  match argument with
  | some given => value = given
  | none =>
    ∃ tokens pos after, param.fallback = some tokens ∧
      low.value (.whole tokens) 0 before = .ok (value, pos) after

/-- Why nothing is bound to a parameter on a machine. -/
inductive Engine.Withholds (low : Engine) (function : UserFunction) (line : Nat) (param : Param)
    (argument : Option Value) (before : Machine) : Stop → Machine → Prop
  /-- Its default stopped. -/
  | stopped {tokens : TokenBlock} {stop : Stop} {after : Machine}
      (fallback : param.fallback = some tokens)
      (ran : low.value (.whole tokens) 0 before = .error stop after) :
      Withholds low function line param argument before stop after
  /-- It has no default, and the argument asks for that. -/
  | asked (fallback : param.fallback = none) (asks : argument = some .defaultWord) :
      Withholds low function line param argument before
        (.fault (.running (.noDefault function.name ("$" ++ param.name)) line [])) before

namespace Engine

/-- The value that a parameter is bound to, from the argument at its place if there is one. -/
def paramValue (low : Engine) (function : UserFunction) (line : Nat) (param : Param)
    (argument : Option Value) : Exec Value :=
  match argument.filter (· ≠ .defaultWord) with
  | some value => pure value
  | none =>
    match param.fallback with
    | some tokens => Prod.fst <$> low.value (.whole tokens) 0
    | none => Exec.fail (.noDefault function.name ("$" ++ param.name)) line

/-- Binding a parameter evaluates its value, stores it and binds the others. -/
theorem bindParams_cons (low : Engine) (function : UserFunction) (line : Nat) (param : Param)
    (params : List Param) (args : List Value) :
    low.bindParams function line (param :: params) args = (do
      let value ← low.paramValue function line param args.head?
      setVariable param.name value
      low.bindParams function line params args.tail) := by
  rw [bindParams]
  unfold paramValue
  rcases args.head? with _ | given
  · cases param.fallback <;> rfl
  · by_cases asks : given = .defaultWord
    · have nothing : (some given).filter (· ≠ .defaultWord) = none := by simp [asks]
      rw [nothing, asks]
      cases param.fallback <;> rfl
    · have something : (some given).filter (· ≠ .defaultWord) = some given := by simp [asks]
      rw [something]
      cases given with
      | defaultWord => exact absurd rfl asks
      | _ => rfl

/-- A parameter takes a value, and the scopes stay as they are, or none is supplied and it has none. -/
theorem paramValue_ends {fuel : Nat} (function : UserFunction) (line : Nat) {param : Param}
    {argument : Option Value} (needed : param.fallback = none → argument.isSome) (state : Machine) :
    match (engine fuel).paramValue function line param argument state with
    | .ok value after => (engine fuel).Takes param (argument.filter (· ≠ .defaultWord)) state value ∧
      after.stack.bare = state.stack.bare
    | .error stop after => argument.filter (· ≠ .defaultWord) = none ∧
      (engine fuel).Withholds function line param argument state stop after := by
  unfold paramValue
  cases supplied : argument.filter (· ≠ .defaultWord) with
  | some value => exact ⟨rfl, rfl⟩
  | none =>
    cases fallback : param.fallback with
    | none =>
      -- An argument is there, so it asks for the default.
      obtain ⟨given, there⟩ := Option.isSome_iff_exists.mp (needed fallback)
      have asks : argument = some .defaultWord := by
        rw [there] at supplied ⊢
        simpa using supplied
      exact ⟨rfl, .asked fallback asks⟩
    | some tokens =>
      have keeps := (alike_keepsBare fuel).value (.whole tokens) 0 state
      unfold Exec.final at keeps
      simp only [map_eq_pure_bind, bind, EStateM.bind]
      cases ran : (engine fuel).value (.whole tokens) 0 state with
      | ok result after =>
        rw [ran] at keeps
        exact ⟨⟨tokens, result.2, after, fallback, ran⟩, keeps⟩
      | error stop after => exact ⟨trivial, .stopped fallback ran⟩

/-- How one parameter is bound, on a machine where the earlier ones are: it takes a value and is bound
to it, or the binding ends here. -/
theorem bindParams_step {fuel : Nat} {caller state : Machine} {function : UserFunction} {given : Nat}
    {earlier : List Param} {values : List Value}
    (binds : caller.Binds function given earlier values state)
    (lengths : values.length = earlier.length) {param : Param}
    (small : Text.lower param.name = param.name)
    (fresh : ∀ other ∈ earlier, other.name ≠ param.name) {args : List Value}
    (needed : param.fallback = none → 0 < args.length) (line : Nat) :
    (∃ value after, (engine fuel).Takes param (supplied? args 0) state value ∧
      caller.Binds function given (earlier ++ [param]) (values ++ [value]) after ∧
      ∀ params, (engine fuel).bindParams function line (param :: params) args state =
        (engine fuel).bindParams function line params args.tail after) ∨
    ∃ stop after, supplied? args 0 = none ∧
      (engine fuel).Withholds function line param args[0]? state stop after ∧
      ∀ params, (engine fuel).bindParams function line (param :: params) args state =
        .error stop after := by
  have first : args.head? = args[0]? := List.head?_eq_getElem?
  have there : param.fallback = none → args[0]?.isSome := fun none' => by simpa using needed none'
  have ends : match (engine fuel).paramValue function line param args[0]? state with
      | .ok value after => (engine fuel).Takes param (supplied? args 0) state value ∧
        after.stack.bare = state.stack.bare
      | .error stop after => supplied? args 0 = none ∧
        (engine fuel).Withholds function line param args[0]? state stop after :=
    paramValue_ends function line there state
  cases valued : (engine fuel).paramValue function line param args[0]? state with
  | ok value middle =>
    rw [valued] at ends
    obtain ⟨after, written, now⟩ := (binds.keep ends.2).set lengths small fresh value
    refine .inl ⟨value, after, ends.1, now, fun params => ?_⟩
    rw [bindParams_cons, first]
    simp only [bind, EStateM.bind, valued, written]
  | error stop after =>
    rw [valued] at ends
    refine .inr ⟨stop, after, ends.1, ends.2, fun params => ?_⟩
    rw [bindParams_cons, first]
    simp only [bind, EStateM.bind, valued]

/-- On the way through some parameters each of them takes its value on the machine on which the
earlier ones, and only those, are bound. -/
def InTurn (low : Engine) (function : UserFunction) (line : Nat) (args : List Value)
    (params : List Param) (start : Machine) (bound : Nat → Machine → Prop)
    (values : List Value) : Prop :=
  ∀ (position : Nat) (param : Param) (value : Value), params[position]? = some param →
    values[position]? = some value → ∃ before,
      low.bindParams function line (params.take position) args start = .ok () before ∧
      bound position before ∧ low.Takes param (supplied? args position) before value

/-- How some parameters are bound, on a machine where the ones before them are: all of them in turn,
or all up to one that gets no value. -/
theorem bindParams_ends (fuel : Nat) {caller : Machine} {function : UserFunction} {given : Nat}
    (line : Nat) (args : List Value) {params earlier : List Param} {values : List Value}
    {state : Machine} (binds : caller.Binds function given earlier values state)
    (lengths : values.length = earlier.length)
    (small : ∀ param ∈ params, Text.lower param.name = param.name)
    (distinct : ((earlier ++ params).map Param.name).Nodup)
    (needed : ∀ (position : Nat) (param : Param), params[position]? = some param →
      param.fallback = none → position < args.length) :
    (∃ more body, more.length = params.length ∧
      (engine fuel).bindParams function line params args state = .ok () body ∧
      caller.Binds function given (earlier ++ params) (values ++ more) body ∧
      (engine fuel).InTurn function line args params state (fun position =>
        caller.Binds function given (earlier ++ params.take position)
          (values ++ more.take position)) more) ∨
    ∃ position param more before stop after, params[position]? = some param ∧
      more.length = position ∧
      (engine fuel).bindParams function line (params.take position) args state = .ok () before ∧
      caller.Binds function given (earlier ++ params.take position) (values ++ more) before ∧
      supplied? args position = none ∧
      (engine fuel).Withholds function line param args[position]? before stop after ∧
      (engine fuel).bindParams function line params args state = .error stop after := by
  induction params generalizing earlier values state args with
  | nil => exact .inl ⟨[], state, rfl, rfl, by simpa using binds, nofun⟩
  | cons param params ih =>
    obtain ⟨smallFirst, smallRest⟩ := List.forall_mem_cons.mp small
    have fresh : ∀ other ∈ earlier, other.name ≠ param.name := by
      rw [List.map_append, List.nodup_append] at distinct
      exact fun other member => distinct.2.2 _ (List.mem_map_of_mem member) _ (by simp)
    rcases bindParams_step binds lengths smallFirst fresh (needed 0 param rfl) line with
      ⟨value, middle, takes, now, step⟩ | ⟨stop, after, nothing, withholds, step⟩
    · have neededRest : ∀ (position : Nat) (other : Param), params[position]? = some other →
          other.fallback = none → position < args.tail.length := by
        intro position other at' none'
        have := needed (position + 1) other (by simpa using at') none'
        simp only [List.length_tail]
        omega
      have tail : ∀ position, supplied? args.tail position = supplied? args (position + 1) :=
        fun position => by simp [supplied?]
      rcases ih args.tail now (by simp [lengths]) smallRest (by simpa using distinct) neededRest with
        ⟨more, body, enough, ran, all, inTurn⟩ |
        ⟨position, other, more, before, stop, after, at', enough, ran, some', nothing, withholds, fails⟩
      · refine .inl ⟨value :: more, body, by simp [enough], (step params).trans ran,
          by simpa using all, fun position other held at' taken => ?_⟩
        cases position with
        | zero =>
          cases at'
          cases taken
          exact ⟨state, rfl, by simpa using binds, takes⟩
        | succ position =>
          obtain ⟨before, ran, bound, takes⟩ := inTurn position other held at' taken
          rw [tail] at takes
          exact ⟨before, (step _).trans ran, by simpa using bound, takes⟩
      · rw [tail] at nothing
        rw [List.getElem?_tail] at withholds
        exact .inr ⟨position + 1, other, value :: more, before, stop, after, at', by simp [enough],
          (step _).trans ran, by simpa using some', nothing, withholds, (step params).trans fails⟩
    · exact .inr ⟨0, param, [], state, stop, after, rfl, rfl, rfl, by simpa using binds, nothing,
        withholds, step params⟩

end Engine

end

/-!
## Binding is positional and total
-/

namespace Machine

/-- Binding is positional and total. The parameters of a function of a prepared program have different
names in small letters, and those without a default come first. A call with too few or too many
arguments is refused and changes nothing. Any other, unless too many calls are running, binds the
parameters in order in its own scope: each one takes the argument at its place if that is supplied,
and else its default, evaluated where exactly the earlier ones are bound and the number of arguments
is known. The body begins when all are bound; before that the call ends only where a default stops or
an argument asks for the default of a parameter that must be given. Functions of the library, too, say
that a parameter has no default only when they are asked for it. -/
theorem parameters_bound {host : Host} {script : String} {tokens : List Token} {program : Program}
    (prepared : (Program.prepare host script tokens).result = .ok program) {name : String}
    {function : UserFunction} (found : program.function? name = some function) :
    function.WellFormed ∧
    (∀ (fuel : Nat) (args : List Value) (line : Nat) (machine : Machine),
      let low := engine fuel
      let start := machine.entered function args.length line
      let outcome := low.callUser function args line machine
      (¬function.Accepts args.length →
        (function.arityCause args.length).kind = some .arityError ∧
        outcome = .error (.fault (.running (function.arityCause args.length) line [])) machine) ∧
      (function.Accepts args.length → maxCallDepth ≤ machine.callDepth →
        outcome = .error (.fault (.running (.callDepth function.name) line [])) machine.cleared) ∧
      (function.Accepts args.length → ¬maxCallDepth ≤ machine.callDepth →
        (∃ values body, values.length = function.params.length ∧
          low.bindParams function line function.params args start = .ok () body ∧
          machine.Binds function args.length function.params values body ∧
          low.InTurn function line args function.params start (fun position =>
            machine.Binds function args.length (function.params.take position)
              (values.take position)) values ∧
          outcome = callResult function line (low.runScope body)) ∨
        ∃ position param values before stop after, function.params[position]? = some param ∧
          values.length = position ∧
          low.bindParams function line (function.params.take position) args start =
            .ok () before ∧
          machine.Binds function args.length (function.params.take position) values before ∧
          supplied? args position = none ∧
          low.Withholds function line param args[position]? before stop after ∧
          outcome = .error (stop.leaving function.name line) (returned after))) ∧
    ∀ (builtin : Builtin) (args : List Value) (line at' : Nat) (machine after : Machine)
      (callee parameter : String) (calls : List CallFrame),
      callBuiltin builtin args line machine =
        .error (.fault (.running (.noDefault callee parameter) at' calls)) after →
      ∃ (position : Nat) (param : BuiltinParam), builtin.params[position]? = some param ∧
        param.name = parameter ∧ position < builtin.required ∧
        args[position]? = some .defaultWord := by
  have wellFormed := Program.function_wellFormed prepared found
  refine ⟨wellFormed, fun fuel args line machine => ⟨fun refused => ?_, fun accepts full => ?_,
    fun accepts room => ?_⟩, fun _ _ _ _ _ _ _ _ _ => callBuiltin_noDefault⟩
  · refine ⟨?_, (engine fuel).callUser_arity refused line machine⟩
    unfold UserFunction.arityCause
    split <;> rfl
  · exact (engine fuel).callUser_full accepts line full
  · have called := (engine fuel).callUser_room accepts line room
    have needed : ∀ (position : Nat) (param : Param), function.params[position]? = some param →
        param.fallback = none → position < args.length := fun position param at' none' =>
      Nat.lt_of_lt_of_le ((wellFormed.required position param at').mp none') accepts.1
    rcases Engine.bindParams_ends fuel line args
        (Binds.entered machine function args.length line) rfl wellFormed.small wellFormed.distinct
        needed with
      ⟨values, body, enough, ran, binds, inTurn⟩ |
      ⟨position, param, values, before, stop, after, at', enough, ran, binds, nothing, withholds, fails⟩
    · refine .inl ⟨values, body, enough, ran, binds, inTurn, called.trans ?_⟩
      unfold Engine.runBody
      simp only [bind, EStateM.bind, ran]
    · refine .inr ⟨position, param, values, before, stop, after, at', enough, ran, binds, nothing,
        withholds, called.trans ?_⟩
      unfold Engine.runBody
      simp only [bind, EStateM.bind, fails]
      rfl

/-- The default of a second parameter: the first one. -/
def pairDefault : TokenBlock := #[⟨.variableName, "A", 1, 20⟩]

/-- A function whose second parameter is the first one unless it is given. -/
def pairFunction : UserFunction :=
  ⟨"Pair", [⟨"a", none⟩, ⟨"b", some pairDefault⟩],
    #[⟨.eol, "", 1, 23⟩, ⟨.kwReturn, "Return", 2, 1⟩, ⟨.variableName, "b", 2, 8⟩, ⟨.eol, "", 2, 10⟩],
    1⟩

/-- A program with this function. -/
def pairProgram : Program := { functions := [("pair", pairFunction)], tokens := #[⟨.eol, "", 3, 8⟩] }

/-- A script for this program. -/
def pairScript : Machine := { ofTokens {} "/main" [] with program := pairProgram }

/-- A call with one argument binds both parameters to it. -/
theorem parameters_bound_pair : ∃ tokens,
    tokenize "Func Pair($A, $B = $A)\nReturn $b\nEndFunc\n" = .ok tokens ∧
      (Program.prepare {} "/main" tokens).result = .ok pairProgram ∧
      pairProgram.function? "PAIR" = some pairFunction ∧ pairFunction.WellFormed ∧
      ∃ body, pairScript.Binds pairFunction 1 pairFunction.params [.number 7, .number 7] body ∧
        (engine 8).callUser pairFunction [.number 7] 9 pairScript =
          callResult pairFunction 9 ((engine 8).runScope body) := by
  have source : ((tokenize "Func Pair($A, $B = $A)\nReturn $b\nEndFunc\n").toOption.bind
      fun tokens => (Program.prepare {} "/main" tokens).result.toOption) = some pairProgram := by
    decide +kernel
  obtain ⟨tokens, read, prepares⟩ := Option.bind_eq_some_iff.mp source
  have prepared := eq_ok_of_toOption prepares
  have found : pairProgram.function? "PAIR" = some pairFunction := by decide +kernel
  have returns : returned? ((engine 8).callUser pairFunction [.number 7] 9 pairScript) =
      some (.number 7) := by decide +kernel
  have default : returned? ((do
      (engine 8).bindParams pairFunction 9 (pairFunction.params.take 1) [.number 7]
      Prod.fst <$> (engine 8).value (.whole pairDefault) 0 : Exec Value)
        (pairScript.entered pairFunction 1 9)) = some (.number 7) := by decide +kernel
  obtain ⟨wellFormed, calls, _⟩ := parameters_bound prepared found
  have bound := (calls 8 [.number 7] 9 pairScript).2.2 (by decide +kernel) (by decide +kernel)
  refine ⟨tokens, eq_ok_of_toOption read, prepared, found, wellFormed, ?_⟩
  rcases bound with ⟨values, body, enough, _, binds, inTurn, outcome⟩ |
    ⟨_, _, _, _, stop, after, _, _, _, _, _, _, outcome⟩
  · obtain ⟨first, second, rfl⟩ : ∃ first second, values = [first, second] := by
      rcases values with _ | ⟨first, _ | ⟨second, _ | _⟩⟩ <;> cases enough
      exact ⟨first, second, rfl⟩
    obtain ⟨_, _, _, takesFirst⟩ := inTurn 0 _ first rfl rfl
    obtain ⟨before, ran, _, takesSecond⟩ := inTurn 1 _ second rfl rfl
    obtain rfl : first = .number 7 := takesFirst
    obtain ⟨_, _, _, ⟨⟩, valued⟩ := takesSecond
    obtain ⟨_, both⟩ := eq_ok_of_returned? default
    obtain ⟨_, _, again, later⟩ := run_bind_eq_ok.mp both
    cases ran.symm.trans again
    rw [map_eq_pure_bind] at later
    obtain ⟨_, _, found, same⟩ := run_bind_eq_ok.mp later
    cases valued.symm.trans found
    cases same
    exact ⟨body, binds, outcome⟩
  · rw [outcome] at returns
    cases returns

end Machine

end LineScript
