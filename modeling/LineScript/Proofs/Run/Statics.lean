import LineScript.Proofs.Expression.Assignment
import LineScript.Proofs.Run.Binding
import LineScript.Proofs.Run.Leaks

/-!
# A static declaration is made once

A declaration for the frame finds out that its variable is there only after it has evaluated what stands
behind the name, because that is also how it finds the end of it. So executing it again declares nothing,
but evaluates all subscripts and initial values once more: it does what they do, which may be to allocate,
to call and to write (`Machine.static_again`).
-/

namespace LineScript

open Machine Exec

namespace Engine

/-- Reads a declared variable with its subscripts and its initial value, and declares nothing. -/
def readOne (low : Engine) (window : Window) (constant : Bool) (pos : Nat) : Exec (Token × Nat) := do
  let variable' ← Exec.expect window pos .variableName "variable"
  let (_, pos) ← low.subscripts window (pos + 1)
  let (initial, pos) ← low.initialiser window pos
  if constant && initial.isNone then Exec.fail (.constantEmpty variable'.lexeme) variable'.line
  else return (variable', pos)

/-- Reads the variables of a declaration, and declares nothing. -/
def readEach (low : Engine) (window : Window) (constant : Bool) : Nat → Nat → Exec (List Token × Nat)
  | 0, _ => Exec.starved
  | fuel + 1, pos => do
    let (variable', pos) ← low.readOne window constant pos
    if window.hasKind pos .separator then
      let (others, pos) ← readEach low window constant fuel (pos + 1)
      return (variable' :: others, pos)
    else return ([variable'], pos)

/-- Reads a declaration from its first word, and declares nothing. -/
def readDeclaration (low : Engine) (window : Window) (pos : Nat) : Exec (List Token × Nat) :=
  low.readEach window (window.modifiers pos).constant low.fuel (window.behindWords pos)

/-- What two engines read is related. -/
theorem Alike.readOne {R : ExecRelation} {left right : Engine} (alike : left.Alike R right)
    (law : Exec.Congruence R) (window : Window) (constant : Bool) (pos : Nat) :
    R (left.readOne window constant pos) (right.readOne window constant pos) := by
  refine law.after (.expect _ _ _ _) fun variable' => ?_
  refine law.bind (alike.subscripts law window _) fun ⟨_, pos⟩ => ?_
  refine law.bind (alike.initialiser law window _) fun ⟨initial, pos⟩ => ?_
  dsimp only
  split
  · exact law.fail _ _
  · exact law.pure _

/-- Engines that are alike read declarations alike. -/
theorem Alike.readEach {R : ExecRelation} {left right : Engine} (alike : left.Alike R right)
    (law : Exec.Congruence R) (window : Window) (constant : Bool) (fuel pos : Nat) :
    R (left.readEach window constant fuel pos) (right.readEach window constant fuel pos) := by
  induction fuel generalizing pos with
  | zero => exact law.starved
  | succ fuel ih =>
    refine law.bind (alike.readOne law window constant pos) fun ⟨variable', pos⟩ => ?_
    dsimp only
    split
    · exact law.bind (ih _) fun _ => law.pure _
    · exact law.pure _

end Engine

/-- The frame keeps the names of its variables. -/
def Exec.KeepsStatics : ExecRelation := fun _ action _ =>
  ∀ (machine : Machine) (name : String), machine.declaredStatic name = true →
    (action.final machine).declaredStatic name = true

/-- Keeping the statics passes from an engine's parts to the whole. -/
theorem Exec.keepsStatics_congruence : Exec.Congruence Exec.KeepsStatics where
  beside beside machine name declared := by
    rw [Machine.declaredStatic, (beside.stays machine).stack]
    exact declared
  bind first rest machine name declared :=
    final_bind (Q := fun after => after.declaredStatic name = true) (first machine name declared)
      fun value middle kept => rest value middle name kept
  get _ rest machine := rest machine machine

namespace Machine

/-- No run makes the frame lose a variable. -/
theorem Evolves.declaredStatic {before after : Machine} (evolves : before.Evolves after) {name : String}
    (declared : before.declaredStatic name = true) : after.declaredStatic name = true := by
  obtain ⟨later, found, kept⟩ := evolves.keepsNames before.stack.atHeight?_frameHeight
  have same : after.stack.frameHeight = before.stack.frameHeight :=
    Stack.frameHeight_of_kinds (Stack.Matches.of_outline evolves.outline_eq).kinds
  rw [← same, after.stack.atHeight?_frameHeight, Option.some.injEq] at found
  rw [Machine.declaredStatic, found]
  exact kept _ declared

/-- Evaluating makes the frame lose no variable. -/
theorem alike_keepsStatics (fuel : Nat) : (engine fuel).Alike Exec.KeepsStatics (engine fuel) := by
  have law := Exec.keepsStatics_congruence
  induction fuel with
  | zero => exact ⟨rfl, fun _ _ => law.starved, fun _ _ => law.starved, fun _ _ _ => law.starved⟩
  | succ fuel ih =>
    exact ⟨rfl, ih.evalTerm law, ih.evalValue law, fun name args line machine _ declared =>
      ((Operation.call name args line).evolves (fuel + 1) machine).1.declaredStatic declared⟩

end Machine

namespace Engine

variable {fuel : Nat} {window : Window} {modifiers : Modifiers} {machine after : Machine}

/-- A variable that is there is not declared again. -/
theorem declareOne_of_readOne {low : Engine} {pos stop : Nat} {variable' : Token}
    (static : modifiers.scope = .static)
    (read : low.readOne window modifiers.constant pos machine = .ok (variable', stop) after)
    (declared : after.declaredStatic variable'.lexeme = true) :
    low.declareOne window modifiers pos machine = .ok stop after := by
  unfold readOne at read
  unfold declareOne
  rw [run_bind_eq_ok] at read ⊢
  obtain ⟨name, named, found, read⟩ := read
  refine ⟨name, named, found, ?_⟩
  rw [run_bind_eq_ok] at read ⊢
  obtain ⟨⟨subscripts, behind⟩, middle, subscripted, read⟩ := read
  refine ⟨_, middle, subscripted, ?_⟩
  rw [run_bind_eq_ok] at read ⊢
  obtain ⟨⟨initial, last⟩, ready, given, read⟩ := read
  refine ⟨_, ready, given, ?_⟩
  dsimp only at read ⊢
  split at read
  · cases read
  · rename_i enough
    cases read
    rw [if_neg enough, run_bind_eq_ok]
    refine ⟨after, after, rfl, ?_⟩
    rw [if_pos ⟨static, declared⟩]
    rfl

/-- Variables that are all there are not declared again. -/
theorem declareEach_of_readEach {names : List Token} {pos stop : Nat} (static : modifiers.scope = .static)
    (rounds : Nat)
    (read : (engine fuel).readEach window modifiers.constant rounds pos machine = .ok (names, stop) after)
    (declared : ∀ name ∈ names, machine.declaredStatic name.lexeme = true) :
    (engine fuel).declareEach window modifiers rounds pos machine = .ok stop after := by
  have law := Exec.keepsStatics_congruence
  have alike := Machine.alike_keepsStatics fuel
  induction rounds generalizing names pos machine with
  | zero => cases read
  | succ rounds ih =>
    unfold readEach at read
    unfold declareEach
    rw [run_bind_eq_ok] at read ⊢
    obtain ⟨⟨name, behind⟩, middle, one, read⟩ := read
    -- reading keeps the names that are there, for this variable and for the others
    have kept : ∀ other, machine.declaredStatic other = true → middle.declaredStatic other = true := by
      intro other present
      have kept := alike.readOne law window modifiers.constant pos machine other present
      rwa [Exec.final, one] at kept
    dsimp only at read
    split at read
    · rename_i more
      obtain ⟨⟨others, last⟩, ready, later, read⟩ := run_bind_eq_ok.mp read
      cases read
      refine ⟨behind, middle, declareOne_of_readOne static one (kept _ (declared _ (.head _))), ?_⟩
      rw [if_pos more]
      exact ih later fun other member => kept _ (declared _ (.tail _ member))
    · rename_i alone
      cases read
      refine ⟨stop, after, declareOne_of_readOne static one (kept _ (declared _ (.head _))), ?_⟩
      rw [if_neg alone]
      rfl

end Engine

/-! ## Parts without effects -/

/-- The action leaves every machine as it is, as long as it returns. -/
def Exec.Still {α : Type} (action : Exec α) : Prop :=
  ∀ machine value after, action machine = .ok value after → after = machine

namespace Exec.Still

variable {α β : Type}

/-- Returning a value is still. -/
theorem pure (value : α) : Still (Pure.pure value) := by
  rintro machine _ after ⟨⟩
  rfl

/-- A sequence is still when both parts are. -/
theorem bind {action : Exec α} {next : α → Exec β} (first : action.Still)
    (rest : ∀ value, (next value).Still) : (action >>= next).Still := by
  intro machine value after ended
  obtain ⟨found, middle, ran, later⟩ := run_bind_eq_ok.mp ended
  rw [rest found middle value after later, first machine found middle ran]

/-- An action that only finds a value is still. -/
theorem of_finds {action : Exec α} (finds : ∀ machine, ∃ found, action.Finds machine found) :
    action.Still := by
  intro machine value after ended
  obtain ⟨found, finds⟩ := finds machine
  exact (finds.eq_ok_iff.mp ended).2

end Exec.Still

namespace Expression

/-- The leaf calls nothing. -/
def Leaf.isStill : Leaf → Bool
  | .call .. | .userCall .. => false
  | _ => true

mutual

/-- The expression calls nothing and makes no array. -/
def Expr.isStill : Expr → Bool
  | .mk first rest => first.isStill && rest.isStill

/-- The terms call nothing and make no array. -/
def Tail.isStill : Tail → Bool
  | .done => true
  | .more _ term rest => term.isStill && rest.isStill

/-- The term calls nothing and makes no array. -/
def Term.isStill : Term → Bool
  | .signed _ operand => operand.isStill
  | .selected atom chain => atom.isStill && chain.isStill

/-- The subscripts call nothing and make no array. -/
def Chain.isStill : Chain → Bool
  | .done => true
  | .more _ key _ rest => key.isStill && rest.isStill

/-- The atom calls nothing and is no array. -/
def Atom.isStill : Atom → Bool
  | .leaf leaf => leaf.isStill
  | .group _ inner _ => inner.isStill
  | .nothing .. | .array .. => false

end

/-- A still leaf changes nothing. -/
theorem Leaf.still (leaf : Leaf) (low : Engine) (next : Option Token) (isStill : leaf.isStill = true) :
    (leaf.value low next).Still := by
  cases leaf with
  | call | userCall => cases isStill
  | variableName word => exact .of_finds fun machine => ⟨_, variableValue_finds machine word.token⟩
  | macroName word =>
    exact .of_finds fun machine => ⟨_, macroValue_finds machine word.token.lexeme word.token.line⟩
  | bytes word =>
    simp only [Leaf.value]
    split
    · exact .pure _
    · exact .of_finds fun machine => ⟨none, .fail _ _⟩
  | _ => exact .pure _

mutual

/-- A still expression changes nothing. -/
theorem Expr.still (tree : Expr) (low : Engine) (next : Option Token) (isStill : tree.isStill = true) :
    (tree.value low next).Still := by
  match tree with
  | .mk first rest =>
    obtain ⟨first', rest'⟩ := (Bool.and_eq_true ..).mp isStill
    exact (first.still low _ first').bind fun left => rest.still low _ left rest'

/-- A still tail of operators changes nothing. -/
theorem Tail.still (rest : Tail) (low : Engine) (next : Option Token) (left : Value)
    (isStill : rest.isStill = true) : (rest.fold low next left).Still := by
  match rest with
  | .done => exact .pure left
  | .more operator term rest =>
    obtain ⟨term', rest'⟩ := (Bool.and_eq_true ..).mp isStill
    refine (term.still low _ term').bind fun right => .bind ?_ fun result => rest.still low _ result rest'
    cases operator with
    | signs word => exact .of_finds fun machine => ⟨_, ofExcept_finds machine _⟩
    | and | or => exact .pure _

/-- A still term changes nothing. -/
theorem Term.still (term : Term) (low : Engine) (next : Option Token) (isStill : term.isStill = true) :
    (term.value low next).Still := by
  match term with
  | .signed sign operand => exact (operand.still low next isStill).bind fun _ => .pure _
  | .selected atom chain =>
    obtain ⟨atom', chain'⟩ := (Bool.and_eq_true ..).mp isStill
    exact (atom.still low _ atom').bind fun base => chain.still low next base chain'

/-- A still chain of subscripts changes nothing. -/
theorem Chain.still (chain : Chain) (low : Engine) (next : Option Token) (base : Value)
    (isStill : chain.isStill = true) : (chain.select low next base).Still := by
  match chain with
  | .done => exact .pure base
  | .more opener key closer rest =>
    obtain ⟨key', rest'⟩ := (Bool.and_eq_true ..).mp isStill
    refine (key.still low _ key').bind fun key => .bind ?_ fun element => rest.still low next element rest'
    exact .of_finds fun machine => ⟨_, select_finds machine _ base key⟩

/-- A still atom changes nothing. -/
theorem Atom.still (atom : Atom) (low : Engine) (next : Option Token) (isStill : atom.isStill = true) :
    (atom.value low next).Still := by
  match atom with
  | .leaf leaf => exact leaf.still low next isStill
  | .group opener inner closer => exact inner.still low _ isStill
  | .nothing .. | .array .. => cases isStill

end

/-- The keys of a still chain are read without a change. -/
theorem Chain.keys_still (chain : Chain) (low : Engine) (isStill : chain.isStill = true) :
    (chain.keys low).Still := by
  match chain with
  | .done => exact .pure _
  | .more opener key closer rest =>
    obtain ⟨key', rest'⟩ := (Bool.and_eq_true ..).mp isStill
    exact (key.still low _ key').bind fun _ => (rest.keys_still low rest').bind fun _ => .pure _

/-! ## Declarations as trees -/

/-- The initial value of a variable. -/
structure Initial where
  /-- The sign before it. -/
  equals : Structured.Word .operator
  /-- It is a plain one. -/
  isPlain : equals.token.lexeme = "="
  /-- The expression. -/
  given : Expr

/-- A declared variable. -/
structure Part where
  /-- Its name. -/
  name : Structured.Word .variableName
  /-- Its sizes. -/
  sizes : Chain
  /-- An open pair of brackets. -/
  brackets : Option (Structured.Word .lbracket × Structured.Word .rbracket)
  /-- Its initial value. -/
  initial : Option Initial

/-- Declared variables with commas between them. -/
inductive Parts where
  /-- The last variable. -/
  | one (part : Part)
  /-- A variable and further ones. -/
  | more (part : Part) (comma : Structured.Word .separator) (rest : Parts)

namespace Part

/-- The tokens of an open pair of brackets. -/
def open' (part : Part) : List Token :=
  match part.brackets with
  | none => []
  | some (opener, closer) => [opener.token, closer.token]

/-- The tokens of an initial value. -/
def behind (part : Part) : List Token :=
  match part.initial with
  | none => []
  | some initial => initial.equals.token :: initial.given.render

/-- The tokens of a declared variable. -/
def render (part : Part) : List Token :=
  part.name.token :: (part.sizes.render ++ (part.open' ++ part.behind))

/-- The sizes and the initial value call nothing and make no array. -/
def isStill (part : Part) : Bool :=
  part.sizes.isStill && part.initial.all fun initial => initial.given.isStill

/-- Reads the sizes and the initial value. -/
def read (low : Engine) (next : Option Token) (part : Part) : Exec Unit := do
  let _ ← part.sizes.keys low
  match part.initial with
  | none => return ()
  | some initial =>
    let _ ← initial.given.value low next
    return ()

end Part

namespace Parts

/-- The tokens of declared variables. -/
def render : Parts → List Token
  | one part => part.render
  | more part comma rest => part.render ++ (comma.token :: rest.render)

/-- The sizes and initial values call nothing and make no array. -/
def isStill : Parts → Bool
  | one part => part.isStill
  | more part _ rest => part.isStill && rest.isStill

/-- All variables have initial values. -/
def isFilled : Parts → Bool
  | one part => part.initial.isSome
  | more part _ rest => part.initial.isSome && rest.isFilled

/-- The names of the variables. -/
def names : Parts → List Token
  | one part => [part.name.token]
  | more part _ rest => part.name.token :: rest.names

/-- Reads the sizes and initial values, one variable after the other. -/
def read (low : Engine) (next : Option Token) : Parts → Exec Unit
  | one part => part.read low next
  | more part comma rest => do
    part.read low (some comma.token)
    rest.read low next

end Parts

/-- A still part of a declaration changes nothing. -/
theorem Part.still (part : Part) (low : Engine) (next : Option Token) (isStill : part.isStill = true) :
    (part.read low next).Still := by
  obtain ⟨sizes, initial⟩ := (Bool.and_eq_true ..).mp isStill
  refine (part.sizes.keys_still low sizes).bind fun _ => ?_
  cases given : part.initial with
  | none => exact .pure ()
  | some found =>
    rw [given] at initial
    exact (found.given.still low next initial).bind fun _ => .pure ()

/-- Still parts of a declaration change nothing. -/
theorem Parts.still (parts : Parts) (low : Engine) (next : Option Token) (isStill : parts.isStill = true) :
    (parts.read low next).Still := by
  induction parts with
  | one part => exact part.still low next isStill
  | more part comma rest ih =>
    obtain ⟨first, later⟩ := (Bool.and_eq_true ..).mp isStill
    exact (part.still low _ first).bind fun _ => ih later

/-- What ends an expression begins no initial value. -/
theorem Ends.noOperator {window : Window} {pos : Nat} (ends : Ends (window.token? pos)) (operator : String) :
    window.hasOperator pos operator = false := by
  unfold Window.hasOperator
  cases found : window.token? pos with
  | none => rfl
  | some token =>
    have ended := ends token found
    dsimp only
    unfold Token.isOperator
    cases kind : token.kind <;> simp_all [TokenKind.endsExpression]

/-- Behind the sizes stands an open pair of brackets, an initial value or the end. -/
theorem Part.stopsAt (part : Part) {window : Window} {pos last : Nat}
    (shown : window.Shows pos (part.open' ++ part.behind))
    (reach : pos + (part.open' ++ part.behind).length = last) (ends : Ends (window.token? last)) :
    StopsAt window pos part.brackets.isSome := by
  unfold open' behind at shown reach
  cases brackets : part.brackets with
  | some pair =>
    obtain ⟨opener, closer⟩ := pair
    rw [brackets] at shown
    simp only [List.cons_append, List.nil_append, Window.shows_cons] at shown
    refine ⟨?_, fun _ => ?_⟩ <;> unfold Window.hasKind
    · rw [shown.1]
      exact beq_iff_eq.mpr opener.isKind
    · rw [shown.2.1]
      exact beq_iff_eq.mpr closer.isKind
  | none =>
    rw [brackets] at shown reach
    refine NoSubscript.stopsAt ?_
    cases given : part.initial with
    | none =>
      rw [given] at reach
      rw [show pos = last from reach]
      exact ends.noSubscript
    | some initial =>
      rw [given] at shown
      rw [shown.1]
      exact noSubscript_word initial.equals (by decide)

/-- An initial value is read as it stands. -/
theorem Initial.agrees (initial : Initial) (fuel more : Nat) {window : Window} {pos last : Nat}
    (shown : window.Shows pos (initial.equals.token :: initial.given.render))
    (reach : pos + 1 + initial.given.render.length = last) (ends : Ends (window.token? last)) :
    Agrees (fuel ≤ more) (more + 2 * initial.given.render.length + 4 ≤ fuel)
      ((engine fuel).initialiser window pos)
      (initial.given.value (engine more) (window.token? last) >>= fun value =>
        pure (some value, last)) := by
  rw [Window.shows_cons] at shown
  have equals : window.hasOperator pos "=" = true := by
    unfold Window.hasOperator
    rw [shown.1]
    simp [Token.isOperator, initial.equals.isKind, initial.isPlain]
  have givenAgrees := initial.given.agrees fuel more shown.2 reach rfl ends
  unfold Engine.initialiser
  rw [equals, if_pos rfl]
  exact givenAgrees.andThen fun value => .refl _

/-- Where an expression would end there is no initial value. -/
theorem Ends.initialiser {window : Window} {pos : Nat} (ends : Ends (window.token? pos)) (low : Engine) :
    low.initialiser window pos = pure (none, pos) := by
  unfold Engine.initialiser
  rw [ends.noOperator]
  rfl

/-- A declared variable is read as it stands. -/
theorem Part.agrees (part : Part) (fuel more : Nat) {window : Window} {constant : Bool} {pos last : Nat}
    (shown : window.Shows pos part.render) (reach : pos + part.render.length = last)
    (ends : Ends (window.token? last)) (filled : constant = true → part.initial.isSome = true) :
    Agrees (fuel ≤ more) (more + 2 * part.render.length + 4 ≤ fuel)
      ((engine fuel).readOne window constant pos)
      (part.read (engine more) (window.token? last) >>= fun _ => pure (part.name.token, last)) := by
  unfold render at shown reach ⊢
  simp only [Window.shows_cons, List.length_cons] at shown reach ⊢
  rw [Window.shows_append] at shown
  rw [List.length_append] at reach ⊢
  obtain ⟨named, shownSizes, shownRest⟩ := shown
  have stops := part.stopsAt shownRest (by omega) ends
  have sizesAgree := part.sizes.subscripts_agree fuel more (engine fuel).fuel [] shownSizes rfl stops
  unfold Engine.readOne Engine.subscripts Part.read
  rw [expect_eq part.name named, pure_bind, bind_assoc]
  refine (sizesAgree.mono id ?_).mapped fun keys => ?_
  · rw [engine_fuel]
    omega
  -- the open brackets have been passed over
  have passed : (if part.brackets.isSome then pos + 1 + part.sizes.render.length + 2
      else pos + 1 + part.sizes.render.length) = pos + 1 + part.sizes.render.length + part.open'.length := by
    unfold open'
    cases part.brackets <;> rfl
  rw [Window.shows_append] at shownRest
  rw [List.length_append] at reach ⊢
  have shownInitial := shownRest.2
  unfold behind at shownInitial reach ⊢
  dsimp only
  rw [passed]
  cases given : part.initial with
  | none =>
    rw [given] at reach filled
    have reached : pos + 1 + part.sizes.render.length + part.open'.length = last := by
      rw [← reach]
      simp only [List.length_nil]
      omega
    have plain : constant = false := by
      cases constant with
      | false => rfl
      | true => cases filled rfl
    rw [reached, ends.initialiser, plain]
    exact .refl _
  | some initial =>
    rw [given] at shownInitial reach
    simp only [List.length_cons] at reach ⊢
    have initialAgrees := initial.agrees fuel more shownInitial (by omega) ends
    rw [bind_assoc]
    refine (initialAgrees.mono id (by omega)).mapped fun value => ?_
    simp only [pure_bind, Option.isNone_some, Bool.and_false, Bool.false_eq_true, if_false]
    exact .refl _

/-- Declared variables are read as they stand. -/
theorem Parts.agrees (parts : Parts) (fuel more rounds : Nat) {window : Window} {constant : Bool}
    {pos last : Nat} (shown : window.Shows pos parts.render) (reach : pos + parts.render.length = last)
    (ends : EndsStatement (window.token? last)) (filled : constant = true → parts.isFilled = true) :
    Agrees (fuel ≤ more) (more + 2 * parts.render.length + 4 ≤ fuel ∧ parts.render.length < rounds)
      ((engine fuel).readEach window constant rounds pos)
      (parts.read (engine more) (window.token? last) >>= fun _ => pure (parts.names, last)) := by
  cases rounds with
  | zero => exact .starved (by omega)
  | succ rounds =>
    unfold Engine.readEach
    match parts with
    | .one part =>
      refine ((part.agrees fuel more shown reach ends.1 filled).mono id And.left).mapped fun _ => ?_
      dsimp only
      rw [ends.noSeparator]
      exact .refl _
    | .more part comma rest =>
      simp only [Parts.render, Window.shows_append, Window.shows_cons, List.length_append,
        List.length_cons] at shown reach ⊢
      obtain ⟨shownPart, separated, shownRest⟩ := shown
      have first : constant = true → part.initial.isSome = true := fun given =>
        ((Bool.and_eq_true ..).mp (filled given)).1
      have others : constant = true → rest.isFilled = true := fun given =>
        ((Bool.and_eq_true ..).mp (filled given)).2
      have separator : window.hasKind (pos + part.render.length) .separator = true := by
        unfold Window.hasKind
        rw [separated]
        exact beq_iff_eq.mpr comma.isKind
      have partAgrees := part.agrees fuel more shownPart rfl
        (separated ▸ ends_word comma rfl) first
      rw [separated] at partAgrees
      rw [Parts.read, bind_assoc]
      refine (partAgrees.mono id (by omega)).mapped fun _ => ?_
      dsimp only
      rw [separator, if_pos rfl]
      have restAgrees := rest.agrees fuel more rounds shownRest (by omega) ends others
      refine ((restAgrees.mono id (by omega)).mapped fun _ => ?_)
      exact .refl _

end Expression

namespace Machine

open Expression

/-- Executing a static declaration again reads its sizes and initial values, and does nothing else. If the
frame has all its variables, whatever reading leaves behind is what the statement leaves behind; in any
case the scopes above the script's keep all their variables. So the statement changes nothing if reading
changes nothing, and that is so for expressions that call nothing and make no array. -/
theorem static_again {window : Window} {pos : Nat} (word : window.hasKind pos .kwScope = true)
    (static : (window.modifiers pos).scope = .static)
    (declares : window.hasKind (window.behindWords pos) .kwEnum = false) (machine : Machine) :
    (∀ {fuel : Nat} {names : List Token} {stop : Nat} {after : Machine},
      (engine fuel).readDeclaration window pos machine = .ok (names, stop) after →
      (∀ name ∈ names, machine.declaredStatic name.lexeme = true) →
      evalStatement fuel window pos machine = .ok ⟨none, .normal, stop - pos⟩ after ∧
        after.stack.bare = machine.stack.bare) ∧
    ∀ {parts : Parts} {last : Nat}, window.Shows (window.behindWords pos) parts.render →
      window.behindWords pos + parts.render.length = last → EndsStatement (window.token? last) →
      ((window.modifiers pos).constant = true → parts.isFilled = true) → parts.isStill = true →
      ∀ {fuel : Nat} {names : List Token} {stop : Nat} {after : Machine},
        (engine fuel).readDeclaration window pos machine = .ok (names, stop) after →
        names = parts.names ∧ stop = last ∧ after = machine := by
  refine ⟨fun {fuel names stop after} read declared => ⟨?_, ?_⟩,
    fun {parts last} shown reach ends filled still fuel names stop after read => ?_⟩
  · obtain ⟨token, found, isWord⟩ := Window.exists_of_hasKind word
    have again := Engine.declareEach_of_readEach static (engine fuel).fuel read declared
    have executed : (engine fuel).declaration window pos machine = .ok stop after := by
      rw [Engine.declaration_eq, declares, if_neg Bool.false_ne_true]
      exact again
    unfold evalStatement Engine.statement
    rw [found]
    simp only [isWord]
    simp only [Bind.bind, EStateM.bind, executed]
    rfl
  · have kept := (alike_keepsBare fuel).readEach Exec.keepsBare_congruence window
      (window.modifiers pos).constant (engine fuel).fuel (window.behindWords pos) machine
    unfold Exec.final at kept
    unfold Engine.readDeclaration at read
    rwa [read] at kept
  · have agrees := parts.agrees fuel fuel (engine fuel).fuel shown reach ends filled
    have meant := (agrees.below (Nat.le_refl _)).eq_ok read
    obtain ⟨_, middle, ran, finished⟩ := run_bind_eq_ok.mp meant
    cases finished
    exact ⟨rfl, rfl, parts.still _ _ still machine _ _ ran⟩

/-- The sign of a sum assigns nothing. -/
theorem sum_assigns_nothing : (sampleWord .operator "+").token.lexeme = "=" ∨
    isAssignment (sampleWord .operator "+").token.lexeme = false := .inr rfl

/-- A declaration of a sum and of an array of three cells. -/
def sumParts : Parts :=
  .more
    ⟨sampleWord .variableName "s", .done, none, some ⟨sampleWord .operator "=", rfl,
      .mk (.selected (sampleNumber "1") .done) (.more (.signs (sampleWord .operator "+") sum_assigns_nothing)
        (.selected (.leaf (.macroName (sampleWord .macroName "Error"))) .done) .done)⟩⟩
    (sampleWord .separator ",")
    (.one ⟨sampleWord .variableName "b", .more (sampleWord .lbracket "[")
      (.mk (.selected (sampleNumber "3") .done) .done) (sampleWord .rbracket "]") .done, none, none⟩)

/-- The declaration, for the frame. -/
def sumWindow : Window := .whole (⟨.kwScope, "Static", 1, 1⟩ :: sumParts.render).toArray

/-- In a function that has both variables, one of them written since. -/
def sumMachine : Machine :=
  { inWork with
    stack := { inWork.stack with
      inner := inWork.stack.inner.map fun scope =>
        { scope with vars := [("s", ⟨.number 5, false⟩), ("b", ⟨.handle 1, false⟩)] } }
    heap := ⟨#[some (.array #[.string "", .string "x", .string ""])]⟩ }

/-- A static declared again with a sum as initialiser leaves the machine unchanged. -/
theorem static_again_sum : evalStatement 60 sumWindow 0 sumMachine = .ok ⟨none, .normal, 11⟩ sumMachine := by
  have word : sumWindow.hasKind 0 .kwScope = true := by decide +kernel
  obtain ⟨reading, still⟩ := static_again word (by decide +kernel) (by decide +kernel) sumMachine
  obtain ⟨names, stop, after, read⟩ : ∃ names stop after,
      (engine 60).readDeclaration sumWindow 0 sumMachine = .ok (names, stop) after :=
    ⟨_, _, _, by with_unfolding_all rfl⟩
  have shown : sumWindow.Shows 1 sumParts.render := by
    have shown := Window.shows_whole [⟨.kwScope, "Static", 1, 1⟩] sumParts.render []
    rwa [List.append_nil] at shown
  have reach : 1 + sumParts.render.length = 11 := rfl
  have behind : sumWindow.behindWords 0 = 1 := by decide +kernel
  have ended : sumWindow.token? 11 = none := by decide +kernel
  rw [behind] at still
  obtain ⟨rfl, rfl, rfl⟩ := still shown reach (ended ▸ .of_none)
    (fun constant => absurd constant (by decide +kernel)) rfl read
  exact (reading read (by decide)).1

/-- The declaration of an array. -/
def arrayTokens : TokenBlock :=
  #[⟨.kwScope, "Static", 1, 1⟩, ⟨.variableName, "b", 1, 8⟩, ⟨.operator, "=", 1, 11⟩, ⟨.lbracket, "[", 1, 13⟩,
    ⟨.number, "7", 1, 14⟩, ⟨.rbracket, "]", 1, 15⟩]

/-- Executed again, the declaration of an array allocates the array again, although the variable keeps the
first one; and an initial value that calls and writes is called and writes in each round of a loop. -/
theorem static_evaluated_again :
    sumMachine.declaredStatic "b" = true ∧ sumMachine.heap.nextId = 2 ∧
    (evalStatement 20 (.whole arrayTokens) 0).final sumMachine =
      { sumMachine with heap := sumMachine.heap.add (.array #[.number 7]) } ∧
    (tokenize "For $i = 1 To 2\nStatic $a = [ConsoleWrite(\"x\")]\nNext\n").toOption.any (fun tokens =>
      let after := (run 40).final (.ofTokens {} "main" tokens)
      after.stdout = "xx" && after.heap.nextId = 3 && after.varValue? "a" = some (.handle 1)) = true := by
  refine ⟨by decide +kernel, by decide +kernel, by with_unfolding_all rfl, by decide +kernel⟩

end Machine

end LineScript
