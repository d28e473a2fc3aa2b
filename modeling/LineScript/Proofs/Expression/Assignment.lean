import LineScript.Proofs.Expression.Reading

/-!
# Assignments that apply an operator

An assignment with an operator reads the target it writes to, and so does the plain assignment that it is
written out to, `target = target operator (value)`. The first one goes down the path of subscripts once and
looks at the element where it writes it; the second one evaluates the target as an expression and goes down
the path again. They agree on what they find (`Machine.compound_assignment`).
-/

namespace LineScript

open Machine Exec

/-- A compound operator stores what it combines out of the current value and the given one. -/
theorem storedValue_finds {machine : Machine} {current : Exec Value} {found : Option Value}
    (finds : Finds current machine found) {operator base : String}
    (compound : compoundBase? operator = some base) (given : Value) (line : Nat) :
    Finds (storedValue operator current given line) machine
      (found.bind fun held => (Value.combine base held given line).toOption) := by
  unfold storedValue
  rw [compound]
  exact finds.bind fun held => ofExcept_finds machine _

/-- The plain operator stores the given value. -/
theorem storedValue_plain (current : Exec Value) (given : Value) (line : Nat) :
    storedValue "=" current given line = pure given := rfl

/-- What a target holds: a variable, or the element at the end of a path. -/
def Machine.target? (machine : Machine) (name : String) (keys : List Value) : Option Value :=
  (machine.varValue? name).bind fun base => machine.descend? base keys

/-- The object that holds the element which a path names. -/
theorem holder_finds (machine : Machine) (window : Window) (pos : Nat) (variable' : Token)
    (path : List Value) :
    Finds (variableValue variable' >>= fun base => descend window pos base path) machine
      (machine.target? variable'.lexeme path) :=
  (variableValue_finds machine variable').bind fun base => descend_finds machine window pos base path

/-- Assigning to an element descends to its container and stores there. -/
theorem assignTo_element (window : Window) (pos : Nat) (variable' : Token) (path : List Value) (key : Value)
    (operator : String) (given : Value) :
    assignTo window pos variable' (path ++ [key]) operator given =
      (variableValue variable' >>= fun base => descend window pos base path) >>= fun container =>
        match container with
        | .handle id => storedValue operator (element window pos container key) given variable'.line >>=
            storeElement id key
        | _ => Exec.fail (.notContainer variable'.lexeme) variable'.line := by
  unfold assignTo
  rw [List.getLast?_concat, List.dropLast_concat, bind_assoc]
  rfl

/-- The target of a longer path is an element of the target of the path. -/
theorem target?_concat (machine : Machine) (name : String) (path : List Value) (key : Value) :
    machine.target? name (path ++ [key]) =
      (machine.target? name path).bind fun container => machine.element? container key := by
  simp only [target?, descend?_append, Option.bind_assoc, descend?, Option.bind_fun_some]

/-- A value that is computed from what is found, and what is done with it. -/
theorem stored_ok_iff {machine after : Machine} {current : Exec Value} {found : Option Value}
    (finds : Finds current machine found) {operator base : String}
    (compound : compoundBase? operator = some base) (given : Value) (line : Nat)
    (store : Value → Exec Unit) :
    (storedValue operator current given line >>= store) machine = .ok () after ↔
      ∃ held result, found = some held ∧ (Value.combine base held given 0).toOption = some result ∧
        store result machine = .ok () after := by
  have stored := storedValue_finds finds compound given line
  rw [run_bind_eq_ok]
  simp only [stored.eq_ok_iff, Option.bind_eq_some_iff, Value.combine_line base _ given line 0]
  constructor
  · rintro ⟨result, _, ⟨⟨held, found, combined⟩, rfl⟩, stores⟩
    exact ⟨held, result, found, combined, stores⟩
  · rintro ⟨held, result, found, combined, stores⟩
    exact ⟨result, machine, ⟨⟨held, found, combined⟩, rfl⟩, stores⟩

/-- Assigning with an operator is assigning what it makes of the target's value and the given one. -/
theorem assignTo_compound {machine after : Machine} {operator base : String}
    (compound : compoundBase? operator = some base) (window : Window) (pos : Nat)
    (variable' : Token) (keys : List Value) (given : Value) :
    assignTo window pos variable' keys operator given machine = .ok () after ↔
      ∃ held result, machine.target? variable'.lexeme keys = some held ∧
        (Value.combine base held given 0).toOption = some result ∧
        assignTo window pos variable' keys "=" result machine = .ok () after := by
  obtain rfl | ⟨path, key, rfl⟩ := keys.eq_nil_or_concat
  · have target : machine.target? variable'.lexeme [] = machine.varValue? variable'.lexeme :=
      Option.bind_fun_some _
    rw [target]
    exact stored_ok_iff (variableValue_finds machine variable') compound given _ _
  · have walk := holder_finds machine window pos variable' path
    simp only [List.concat_eq_append, assignTo_element, target?_concat]
    cases held : machine.target? variable'.lexeme path with
    | none =>
      rw [held] at walk
      refine ⟨fun ended => absurd ended (walk.then_ne _ _ _), ?_⟩
      rintro ⟨_, _, none, -⟩
      cases none
    | some container =>
      rw [held] at walk
      simp only [walk.then_eq, Option.bind_some]
      cases container with
      | handle id =>
        refine stored_ok_iff ?_ compound given _ _
        rw [element_eq]
        exact Expression.select_finds machine _ _ _
      | _ =>
        constructor
        · intro ended
          cases ended
        · rintro ⟨_, _, none, -⟩
          cases none

/-- A plain assignment does the same wherever it stands. -/
theorem assignTo_plain {machine after : Machine} (window other : Window) (pos place : Nat)
    {variable' again : Token} (sameName : again.lexeme = variable'.lexeme) (keys : List Value)
    (given : Value) :
    assignTo window pos variable' keys "=" given machine = .ok () after ↔
      assignTo other place again keys "=" given machine = .ok () after := by
  obtain rfl | ⟨path, key, rfl⟩ := keys.eq_nil_or_concat
  · simp only [assignTo, List.getLast?_nil, storedValue_plain, sameName]
  · have first := holder_finds machine window pos variable' path
    have second := holder_finds machine other place again path
    rw [sameName] at second
    simp only [List.concat_eq_append, assignTo_element]
    cases held : machine.target? variable'.lexeme path with
    | none =>
      rw [held] at first second
      exact iff_of_false (first.then_ne _ _ _) (second.then_ne _ _ _)
    | some container =>
      rw [held] at first second
      rw [first.then_eq, second.then_eq]
      cases container with
      | handle id => simp only [storedValue_plain]
      | _ => exact iff_of_false nofun nofun

namespace Expression

/-! ## Subscripts and assignments -/

/-- The values of subscripts. -/
def Chain.keys (low : Engine) : Chain → Exec (List Value)
  | .done => return []
  | .more _ key closer rest => do
    let value ← key.value low (some closer.token)
    let values ← rest.keys low
    return value :: values

/-- The tokens at a position do not go on with subscripts, or go on with an open pair of brackets. -/
def StopsAt (window : Window) (pos : Nat) (isOpen : Bool) : Prop :=
  window.hasKind pos .lbracket = isOpen ∧ (isOpen = true → window.hasKind (pos + 1) .rbracket = true)

/-- Where no subscript follows, an expression stops. -/
theorem NoSubscript.stopsAt {window : Window} {pos : Nat} (behind : NoSubscript (window.token? pos)) :
    StopsAt window pos false := by
  refine ⟨?_, nofun⟩
  unfold Window.hasKind
  cases found : window.token? pos with
  | none => rfl
  | some token => exact beq_false_of_ne (behind token found)

/-- Subscripts with an expression each are read as they stand. -/
theorem Chain.subscripts_agree (chain : Chain) (fuel more rounds : Nat) (values : List Value)
    {window : Window} {pos last : Nat} {isOpen : Bool} (shown : window.Shows pos chain.render)
    (reach : pos + chain.render.length = last) (stops : StopsAt window last isOpen) :
    Agrees (fuel ≤ more) (more + 2 * chain.render.length + 2 ≤ fuel ∧ chain.render.length < rounds)
      ((engine fuel).subscriptsFrom window rounds pos values)
      (chain.keys (engine more) >>= fun keys =>
        pure (⟨values ++ keys, isOpen⟩, if isOpen then last + 2 else last)) := by
  cases rounds with
  | zero => exact .starved (by omega)
  | succ rounds =>
    unfold Engine.subscriptsFrom
    cases chain with
    | done =>
      subst reach
      obtain ⟨opens, closes⟩ := stops
      change window.hasKind pos .lbracket = isOpen at opens
      rw [opens, Chain.keys, pure_bind, List.append_nil]
      cases isOpen with
      | false => exact .refl _
      | true =>
        change true = true → window.hasKind (pos + 1) .rbracket = true at closes
        rw [if_pos rfl, closes rfl]
        exact .refl _
    | more opener key closer rest =>
      simp only [Chain.render, Window.shows_cons, Window.shows_append, List.length_cons,
        List.length_append] at shown reach ⊢
      obtain ⟨found, shownKey, closed, shownRest⟩ := shown
      have opens : window.hasKind pos .lbracket = true := by
        unfold Window.hasKind
        rw [found]
        exact beq_iff_eq.mpr opener.isKind
      have filled : window.hasKind (pos + 1) .rbracket = false := by
        obtain ⟨token, rest, render, other⟩ := key.begins
        rw [render, Window.shows_cons] at shownKey
        unfold Window.hasKind
        rw [shownKey.1]
        exact beq_false_of_ne other
      have keyAgrees := Expr.agrees key fuel more shownKey rfl closed (ends_word closer rfl)
      rw [opens, if_pos rfl, filled, if_neg Bool.false_ne_true, Chain.keys, bind_assoc]
      refine (keyAgrees.mono id (by omega)).andThen fun value => ?_
      dsimp only
      rw [expect_eq closer closed, pure_bind, bind_assoc]
      have restAgrees := Chain.subscripts_agree rest fuel more rounds (values ++ [value]) shownRest
        (by omega) stops
      simp only [List.append_assoc, List.singleton_append] at restAgrees
      simp only [pure_bind]
      exact restAgrees.mono id (by omega)

/-- Subscripts each of which is read on a machine and leaves it as it is. -/
def Chain.Reads (low : Engine) (machine : Machine) : Chain → List Value → Prop
  | .done, values => values = []
  | .more _ key closer rest, values => ∃ value others, values = value :: others ∧
    key.value low (some closer.token) machine = .ok value machine ∧ rest.Reads low machine others

/-- A chain that reads to keys evaluates its subscripts to them and keeps the machine. -/
theorem Chain.Reads.keys {low : Engine} {machine : Machine} {chain : Chain} {values : List Value}
    (reads : chain.Reads low machine values) : chain.keys low machine = .ok values machine := by
  match chain with
  | .done =>
    cases reads
    rfl
  | .more opener key closer rest =>
    obtain ⟨value, others, rfl, read, later⟩ := reads
    simp only [Chain.keys, Bind.bind, EStateM.bind, read, later.keys]
    rfl

/-- Whether a chain reads to keys does not depend on where it stands. -/
theorem Chain.Reads.unplaced_iff {low : Engine} {machine : Machine} {chain : Chain} {values : List Value} :
    chain.Reads low machine values ↔ chain.unplaced.Reads low machine values := by
  cases chain with
  | done => exact .rfl
  | more opener key closer rest =>
    refine exists_congr fun value => exists_congr fun others => and_congr_right fun _ => and_congr ?_ ?_
    · exact key.succeeds low _ _ machine value machine
    · exact unplaced_iff

/-- Subscripts that are read so select what their values name. -/
theorem Chain.Reads.select {low : Engine} {machine : Machine} {chain : Chain} {values : List Value}
    (reads : chain.Reads low machine values) (next : Option Token) (base : Value) :
    Finds (chain.select low next base) machine (machine.descend? base values) := by
  match chain with
  | .done =>
    cases reads
    exact .pure base
  | .more opener key closer rest =>
    obtain ⟨value, others, rfl, read, later⟩ := reads
    have found : Finds (key.value low (some closer.token)) machine (some value) := read
    exact found.after ((select_finds machine (ahead rest.render next) base value).bind fun element =>
      later.select next element)

/-- An assignment to a variable or to the element that subscripts name. -/
structure Assign where
  /-- The variable. -/
  name : Structured.Word .variableName
  /-- The subscripts. -/
  path : Chain
  /-- The operator. -/
  operator : Structured.Word .operator
  /-- It assigns. -/
  assigns : isAssignment operator.token.lexeme = true
  /-- The right-hand side. -/
  given : Expr

namespace Assign

/-- The tokens of an assignment. -/
def render (assign : Assign) : List Token :=
  assign.name.token :: (assign.path.render ++ (assign.operator.token :: assign.given.render))

/-- What an assignment does, which ends at a position of a window. -/
def run (low : Engine) (window : Window) (last : Nat) (assign : Assign) : Exec Unit := do
  let keys ← assign.path.keys low
  let value ← assign.given.value low (window.token? last)
  assignTo window last assign.name.token keys assign.operator.token.lexeme value

end Assign

/-- What comes next ends a statement. -/
def EndsStatement (next : Option Token) : Prop :=
  Ends next ∧ ∀ token ∈ next, token.kind ≠ .separator

/-- The end of the window ends a statement. -/
theorem EndsStatement.of_none : EndsStatement none := by
  constructor
  · rintro _ ⟨⟩
  · rintro _ ⟨⟩

/-- No separator stands where a statement ends. -/
theorem EndsStatement.noSeparator {window : Window} {pos : Nat}
    (ends : EndsStatement (window.token? pos)) : window.hasKind pos .separator = false := by
  unfold Window.hasKind
  cases behind : window.token? pos with
  | none => rfl
  | some token => exact beq_false_of_ne (ends.2 token behind)

/-- One assignment is read as it stands. -/
theorem Assign.one_agrees (assign : Assign) (fuel more : Nat) {window : Window} {pos last : Nat}
    (shown : window.Shows pos assign.render) (reach : pos + assign.render.length = last)
    (ends : Ends (window.token? last)) :
    Agrees (fuel ≤ more) (more + 2 * assign.render.length + 4 ≤ fuel)
      ((engine fuel).assignOne window pos)
      (assign.run (engine more) window last >>= fun _ => pure last) := by
  obtain ⟨name, path, operator, assigns, given⟩ := assign
  simp only [render, Window.shows_cons, Window.shows_append, List.length_cons,
    List.length_append] at shown reach ⊢
  obtain ⟨named, shownPath, signed, shownGiven⟩ := shown
  have stops : StopsAt window (pos + 1 + path.render.length) false := by
    refine NoSubscript.stopsAt ?_
    rw [signed]
    exact noSubscript_word operator (by decide)
  have assigned : window.assignment? (pos + 1 + path.render.length) = some operator.token.lexeme := by
    unfold Window.assignment?
    rw [signed]
    exact if_pos ⟨operator.isKind, assigns⟩
  have pathAgrees := path.subscripts_agree fuel more (engine fuel).fuel [] shownPath rfl stops
  have givenAgrees := given.agrees fuel more shownGiven (by omega) rfl ends
  unfold Engine.assignOne Engine.subscripts Assign.run
  rw [expect_eq name named, pure_bind, bind_assoc]
  refine (pathAgrees.mono id ?_).mapped fun keys => ?_
  · rw [engine_fuel]
    omega
  simp only [Bool.false_eq_true, if_false, assigned, bind_assoc]
  refine (givenAgrees.mono id (by omega)).andThen fun value => ?_
  exact .refl _

/-- An assignment does what its tree means. -/
theorem Assign.agrees (assign : Assign) (fuel more : Nat) {window : Window} {pos last : Nat}
    (shown : window.Shows pos assign.render) (reach : pos + assign.render.length = last)
    (ends : EndsStatement (window.token? last)) :
    Agrees (fuel ≤ more) (more + 2 * assign.render.length + 4 ≤ fuel)
      (Machine.evalStatement fuel window pos)
      (assign.run (engine more) window last >>= fun _ =>
        pure ⟨none, .normal, last - pos⟩) := by
  have named : window.token? pos = some assign.name.token := shown.1
  have isName := assign.name.isKind
  unfold Machine.evalStatement Engine.statement
  rw [named]
  simp only [isName]
  cases rounds : (engine fuel).fuel with
  | zero =>
    rw [engine_fuel] at rounds
    exact .starved (by omega)
  | succ rounds =>
    simp only [Engine.assignEach, bind_assoc]
    refine (assign.one_agrees fuel more shown reach ends.1).mapped fun _ => ?_
    simp only [ends.noSeparator, Bool.false_eq_true, if_false, pure_bind]
    exact .refl _

variable {window : Window} {pos last : Nat} {machine after : Machine}

/-- The statement succeeds if and only if its tree does with enough fuel, and leaves the same behind. -/
theorem Assign.statement_iff {assign : Assign} (shown : window.Shows pos assign.render)
    (reach : pos + assign.render.length = last) (ends : EndsStatement (window.token? last)) :
    (∃ fuel done, Machine.evalStatement fuel window pos machine = .ok done after) ↔
      ∃ least, ∀ more ≥ least, assign.run (engine more) window last machine = .ok () after := by
  constructor
  · rintro ⟨fuel, done, ended⟩
    refine ⟨fuel, fun more enough => ?_⟩
    have meant := ((assign.agrees fuel more shown reach ends).below enough).eq_ok ended
    obtain ⟨_, middle, ran, finished⟩ := run_bind_eq_ok.mp meant
    cases finished
    exact ran
  · rintro ⟨least, runs⟩
    have meant : (assign.run (engine least) window last >>= fun _ =>
        (pure ⟨none, .normal, last - pos⟩ : Exec Evaluated)) machine =
          .ok ⟨none, .normal, last - pos⟩ after :=
      run_bind_eq_ok.mpr ⟨(), after, runs least (Nat.le_refl _), rfl⟩
    exact ⟨_, _, ((assign.agrees _ least shown reach ends).above (Nat.le_refl _)).eq_ok meant⟩

/-- More fuel does not change the value of a tree. -/
theorem Expr.value_mono {tree : Expr} {next : Option Token} {value : Value} {fuel more : Nat} (ends : Ends next)
    (found : tree.value (engine fuel) next machine = .ok value after)
    (enough : fuel + 2 * tree.size + 4 ≤ more) : tree.value (engine more) next machine = .ok value after := by
  have shown := Window.shows_whole [] tree.render next.toList
  have behind : (Window.whole ([] ++ (tree.render ++ next.toList)).toArray).token?
      (0 + tree.render.length) = next := by
    cases next <;> simp [Window.token?, Window.whole]
  -- both engines are compared with one that reads the tree's tokens
  have least := tree.agrees (fuel + 2 * tree.size + 4) fuel shown rfl behind ends
  have most := tree.agrees (fuel + 2 * tree.size + 4) more shown rfl behind ends
  have meant : (tree.value (engine fuel) next).upTo (0 + tree.size) machine = .ok (value, 0 + tree.size) after :=
    run_bind_eq_ok.mpr ⟨value, after, found, rfl⟩
  have read := (least.above (Nat.le_refl _)).eq_ok meant
  obtain ⟨_, middle, same, finished⟩ := run_bind_eq_ok.mp ((most.below enough).eq_ok read)
  cases finished
  exact same

/-- A chain that reads to keys does so with more fuel. -/
theorem Chain.Reads.mono {chain : Chain} {keys : List Value} {fuel more : Nat}
    (reads : chain.Reads (engine fuel) machine keys) (enough : fuel + 2 * chain.render.length + 4 ≤ more) :
    chain.Reads (engine more) machine keys := by
  match chain with
  | .done => exact reads
  | .more opener key closer rest =>
    obtain ⟨value, others, same, read, later⟩ := reads
    simp only [Chain.render, List.length_cons, List.length_append] at enough
    have size : key.size = key.render.length := rfl
    exact ⟨value, others, same, Expr.value_mono (ends_word closer rfl) read (by omega),
      later.mono (by omega)⟩

/-! ## Writing an operator out -/

/-- An assignment with its operator written out: the target, the target's value, the operator and the
right-hand side in parentheses. -/
structure Expansion where
  /-- The variable that is assigned to. -/
  name : Structured.Word .variableName
  /-- Its subscripts. -/
  path : Chain
  /-- The sign that assigns. -/
  equals : Structured.Word .operator
  /-- It is a plain one. -/
  isPlain : equals.token.lexeme = "="
  /-- The variable that is read. -/
  again : Structured.Word .variableName
  /-- Its subscripts. -/
  pathAgain : Chain
  /-- The operator. -/
  operator : Structured.Word .operator
  /-- It does not assign. -/
  binary : isAssignment operator.token.lexeme = false
  /-- The parenthesis before the right-hand side. -/
  opener : Structured.Word .lparen
  /-- The right-hand side. -/
  given : Expr
  /-- The parenthesis behind it. -/
  closer : Structured.Word .rparen

namespace Expansion

/-- What is assigned. -/
def result (expansion : Expansion) : Expr :=
  .mk (.selected (.leaf (.variableName expansion.again)) expansion.pathAgain)
    (.more (.signs expansion.operator (.inr expansion.binary))
      (.selected (.group expansion.opener expansion.given expansion.closer) .done) .done)

/-- The assignment. -/
def assign (expansion : Expansion) : Assign where
  name := expansion.name
  path := expansion.path
  operator := expansion.equals
  assigns := by rw [expansion.isPlain]; decide
  given := expansion.result

/-- It is an assignment with an operator, written out. -/
structure Of (expansion : Expansion) (compound : Assign) : Prop where
  /-- The same variable is assigned to. -/
  name : expansion.name.token.lexeme = compound.name.token.lexeme
  /-- The same variable is read. -/
  again : expansion.again.token.lexeme = compound.name.token.lexeme
  /-- The operator is the one that is applied before assigning. -/
  operator : compoundBase? compound.operator.token.lexeme = some expansion.operator.token.lexeme

/-- The written-out form finds the value of its path combined with the given one. -/
theorem result_finds (expansion : Expansion) {low : Engine} {keys : List Value} {value : Value}
    (next : Option Token) (reads : expansion.pathAgain.Reads low machine keys)
    (read : expansion.given.value low (some expansion.closer.token) machine = .ok value machine) :
    Finds (expansion.result.value low next) machine
      ((machine.target? expansion.again.token.lexeme keys).bind fun held =>
        (Value.combine expansion.operator.token.lexeme held value 0).toOption) := by
  have held : Finds (Term.value low (some expansion.operator.token)
      (.selected (.leaf (.variableName expansion.again)) expansion.pathAgain)) machine
        (machine.target? expansion.again.token.lexeme keys) :=
    (variableValue_finds machine _).bind fun base => reads.select _ base
  have right : Finds (Term.value low next (.selected
      (.group expansion.opener expansion.given expansion.closer) .done)) machine (some value) := by
    refine Finds.after read ?_
    exact Finds.pure value
  refine held.bind fun left => right.after ?_
  have applied := ofExcept_finds machine
    (Value.combine expansion.operator.token.lexeme left value expansion.operator.token.line)
  rw [Value.combine_line _ _ _ _ 0] at applied
  have last := applied.bind fun result => Finds.pure result
  rwa [Option.bind_fun_some] at last

/-- The parts of an assignment with an operator and of what it is written out to are read on a machine as
the same keys and the same value, and leave it as it is. -/
structure SameParts (expansion : Expansion) (compound : Assign) (low : Engine) (next : Option Token)
    (machine : Machine) (keys : List Value) (value : Value) : Prop where
  /-- The subscripts before the operator that assigns. -/
  path : compound.path.Reads low machine keys
  /-- The right-hand side. -/
  given : compound.given.value low next machine = .ok value machine
  /-- The subscripts before the plain sign. -/
  target : expansion.path.Reads low machine keys
  /-- The subscripts behind it. -/
  again : expansion.pathAgain.Reads low machine keys
  /-- The right-hand side in parentheses. -/
  inner : expansion.given.value low (some expansion.closer.token) machine = .ok value machine

/-- The compound form and the written-out form end alike, with enough fuel for either. -/
theorem run_iff {expansion : Expansion} {compound : Assign} (isOf : expansion.Of compound) {low : Engine}
    {other : Window} {place : Nat} {keys : List Value} {value : Value}
    (parts : expansion.SameParts compound low (window.token? last) machine keys value) :
    compound.run low window last machine = .ok () after ↔
      expansion.assign.run low other place machine = .ok () after := by
  have left : compound.run low window last machine =
      assignTo window last compound.name.token keys compound.operator.token.lexeme value machine := by
    simp only [Assign.run, Bind.bind, EStateM.bind, parts.path.keys, parts.given]
  have found := expansion.result_finds (other.token? place) parts.again parts.inner
  have right : expansion.assign.run low other place machine =
      (expansion.result.value low (other.token? place) >>= fun result =>
        assignTo other place expansion.name.token keys "=" result) machine := by
    simp only [Assign.run, assign, Bind.bind, EStateM.bind, parts.target.keys, expansion.isPlain]
  rw [left, right, run_bind_eq_ok, assignTo_compound isOf.operator]
  simp only [found.eq_ok_iff, isOf.again, Option.bind_eq_some_iff]
  constructor
  · rintro ⟨held, result, isHeld, combined, stored⟩
    exact ⟨result, machine, ⟨⟨held, isHeld, combined⟩, rfl⟩,
      (assignTo_plain _ _ _ _ isOf.name _ _).mp stored⟩
  · rintro ⟨result, _, ⟨⟨held, isHeld, combined⟩, rfl⟩, stored⟩
    exact ⟨held, result, isHeld, combined, (assignTo_plain _ _ _ _ isOf.name _ _).mpr stored⟩

/-- Both forms have the same parts at every greater fuel. -/
theorem SameParts.mono {expansion : Expansion} {compound : Assign} {fuel : Nat} {next : Option Token}
    {keys : List Value} {value : Value} (ends : Ends next)
    (parts : expansion.SameParts compound (engine fuel) next machine keys value) :
    ∃ least, ∀ more ≥ least, expansion.SameParts compound (engine more) next machine keys value := by
  refine ⟨fuel + 2 * (compound.path.render.length + compound.given.size + expansion.path.render.length +
    expansion.pathAgain.render.length + expansion.given.size) + 4, fun more enough => ?_⟩
  exact ⟨parts.path.mono (by omega), Expr.value_mono ends parts.given (by omega),
    parts.target.mono (by omega), parts.again.mono (by omega),
    Expr.value_mono (ends_word expansion.closer rfl) parts.inner (by omega)⟩

/-- The subscripts and the right-hand side are written again, at other places. -/
structure Copies (expansion : Expansion) (compound : Assign) : Prop where
  /-- The subscripts before the plain sign. -/
  target : expansion.path.unplaced = compound.path.unplaced
  /-- The subscripts behind it. -/
  again : expansion.pathAgain.unplaced = compound.path.unplaced
  /-- The right-hand side. -/
  inner : expansion.given.unplaced = compound.given.unplaced

/-- What is written again is read again. -/
theorem Copies.sameParts {expansion : Expansion} {compound : Assign} (copies : expansion.Copies compound)
    {low : Engine} {next : Option Token} {keys : List Value} {value : Value}
    (path : compound.path.Reads low machine keys)
    (given : compound.given.value low next machine = .ok value machine) :
    expansion.SameParts compound low next machine keys value := by
  have text := Chain.Reads.unplaced_iff.mp path
  have result := (compound.given.succeeds low next none machine value machine).mp given
  refine ⟨path, given, ?_, ?_, ?_⟩
  · rwa [← copies.target, ← Chain.Reads.unplaced_iff] at text
  · rwa [← copies.again, ← Chain.Reads.unplaced_iff] at text
  · rw [← copies.inner] at result
    exact (expansion.given.succeeds low _ none machine value machine).mpr result

end Expansion

end Expression

namespace Machine

open Expression

/-- An assignment with an operator is the assignment that it is written out to. If the subscripts and the
right-hand side of both can be read, as the same values and without changing the machine, then one of them
succeeds if and only if the other one does, and both leave the same machine behind: variables, heap and
all the rest. Subscripts and right-hand sides that are written again at other places are read so as soon
as they are read so once. -/
theorem compound_assignment {compound : Assign} {expansion : Expansion} (isOf : expansion.Of compound)
    {window other : Window} {pos last place stop : Nat}
    (shown : window.Shows pos compound.render) (reach : pos + compound.render.length = last)
    (ends : EndsStatement (window.token? last))
    (written : other.Shows place expansion.assign.render)
    (reach' : place + expansion.assign.render.length = stop) (ends' : EndsStatement (other.token? stop))
    (machine : Machine) :
    (∀ (fuel : Nat) (keys : List Value) (value : Value),
      expansion.SameParts compound (engine fuel) (window.token? last) machine keys value →
      ∀ after, (∃ fuel done, evalStatement fuel window pos machine = .ok done after) ↔
        ∃ fuel done, evalStatement fuel other place machine = .ok done after) ∧
    (expansion.Copies compound → ∀ (low : Engine) (keys : List Value) (value : Value),
      compound.path.Reads low machine keys →
      compound.given.value low (window.token? last) machine = .ok value machine →
      expansion.SameParts compound low (window.token? last) machine keys value) := by
  refine ⟨fun fuel keys value parts after => ?_, fun copies low keys value => copies.sameParts⟩
  obtain ⟨enough, always⟩ := parts.mono ends.1
  rw [Assign.statement_iff shown reach ends, Assign.statement_iff written reach' ends']
  constructor
  · rintro ⟨least, runs⟩
    refine ⟨max least enough, fun more le => ?_⟩
    exact (Expansion.run_iff isOf (always more (by omega))).mp (runs more (by omega))
  · rintro ⟨least, runs⟩
    refine ⟨max least enough, fun more le => ?_⟩
    exact (Expansion.run_iff isOf (always more (by omega))).mpr (runs more (by omega))

/-- A word of a kind on a line. -/
def lineWord (line : Nat) (kind : TokenKind) (lexeme : String) : Structured.Word kind :=
  ⟨⟨kind, lexeme, line, 1⟩, rfl⟩

/-- The subscripts `["a"][0 + 1]`. -/
def linePath (line : Nat) : Chain :=
  .more (lineWord line .lbracket "[")
    (.mk (.selected (.leaf (.text (lineWord line .string "a"))) .done) .done) (lineWord line .rbracket "]")
    (.more (lineWord line .lbracket "[")
      (.mk (.selected (.leaf (.whole (lineWord line .number "0"))) .done)
        (.more (.signs (lineWord line .operator "+") (.inr rfl))
          (.selected (.leaf (.whole (lineWord line .number "1"))) .done) .done))
      (lineWord line .rbracket "]") .done)

/-- The expression `2 + @Error`. -/
def lineGiven (line : Nat) : Expr :=
  .mk (.selected (.leaf (.whole (lineWord line .number "2"))) .done)
    (.more (.signs (lineWord line .operator "+") (.inr rfl))
      (.selected (.leaf (.macroName (lineWord line .macroName "Error"))) .done) .done)

/-- The statement `$m["a"][0 + 1] *= 2 + @Error`. -/
def lineCompound (line : Nat) : Assign :=
  ⟨lineWord line .variableName "m", linePath line, lineWord line .operator "*=", rfl, lineGiven line⟩

/-- The same with the operator written out. -/
def lineExpansion (line : Nat) : Expansion :=
  ⟨lineWord line .variableName "m", linePath line, lineWord line .operator "=", rfl,
    lineWord line .variableName "m", linePath line, lineWord line .operator "*", rfl,
    lineWord line .lparen "(", lineGiven line, lineWord line .rparen ")"⟩

/-- The array `[5, 7]` under the key of a map in a variable. -/
def nestedMachine : Machine :=
  { ofTokens {} "/main" [] with
    stack := { root := { Scope.ofCode .script .empty with vars := [("m", ⟨.handle 1, false⟩)] } }
    heap := ⟨#[some (.map [("a", .handle 2)]), some (.array #[.number 5, .number 7])]⟩ }

/-- A compound assignment to an element of a nested array ends as its written-out form does. -/
theorem compound_assignment_nested :
    ∃ after, (∃ fuel done, evalStatement fuel (.whole (lineCompound 1).render.toArray) 0 nestedMachine =
        .ok done after) ∧
      (∃ fuel done, evalStatement fuel (.whole (lineExpansion 2).assign.render.toArray) 0 nestedMachine =
        .ok done after) ∧
      after.target? "m" [.string "a", .number 1] = some (.number 14) := by
  have shown := Window.shows_whole [] (lineCompound 1).render []
  have written := Window.shows_whole [] (lineExpansion 2).assign.render []
  simp only [List.nil_append, List.append_nil, List.length_nil] at shown written
  have ends : ∀ tokens : List Token, EndsStatement ((Window.whole tokens.toArray).token? (0 + tokens.length)) := by
    intro tokens
    rw [show (Window.whole tokens.toArray).token? (0 + tokens.length) = none by simp [Window.token?, Window.whole]]
    exact .of_none
  have isOf : (lineExpansion 2).Of (lineCompound 1) := ⟨rfl, rfl, rfl⟩
  obtain ⟨same, again⟩ :=
    compound_assignment isOf shown rfl (ends _) written rfl (ends _) nestedMachine
  have path : (lineCompound 1).path.Reads (engine 0) nestedMachine [.string "a", .number 1] :=
    ⟨_, _, rfl, rfl, _, _, rfl, rfl, rfl⟩
  have parts := again ⟨rfl, rfl, rfl⟩ (engine 0) _ (.number 2) path rfl
  have ran : ∃ done, evalStatement 60 (.whole (lineCompound 1).render.toArray) 0 nestedMachine =
      .ok done ((evalStatement 60 (.whole (lineCompound 1).render.toArray) 0).final nestedMachine) :=
    ⟨_, rfl⟩
  obtain ⟨done, ran⟩ := ran
  exact ⟨_, ⟨60, done, ran⟩, (same 0 _ _ parts _).mp ⟨60, done, ran⟩, by decide +kernel⟩

end Machine

end LineScript
