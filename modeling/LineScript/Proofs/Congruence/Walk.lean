import LineScript.Interpreter.Call
import LineScript.Proofs.Congruence.Logic
import LineScript.Proofs.Machine.Evolution

/-!
# The walk over expressions, declarations and assignments

Two engines that go together in the terms, expressions and calls that they are asked for go together in
every construct that is made of these. This is proved once, for every logic.
-/

namespace LineScript

open Machine

namespace Logic.Relates

variable {logic : Logic} {left right : Engine} (relates : logic.Relates left right)
  {window : Window} {world : logic.World}
include relates

/-!
## Expressions
-/

/-- A complete expression. -/
theorem whole (inside : logic.block window.tokens) :
    logic.Does world (left.whole window) (right.whole window) logic.Admits := by
  refine logic.bind (relates.value world window window.start inside) fun _ ⟨value, pos⟩ _ read => ?_
  dsimp only
  split
  · split
    · exact logic.pure fun _ leads => logic.admits_mono read.2 leads
    · exact logic.failAtFree inside rfl
  · exact logic.pure fun _ leads => logic.admits_mono read.2 leads

/-- The items of an array literal, read to the end of its bracket. -/
theorem arrayItems (inside : logic.block window.tokens) {pos : Nat} {items : Array Value}
    (good : ∀ item ∈ items, logic.Admits world item) :
    logic.Does world (left.arrayItems window left.fuel pos items)
      (right.arrayItems window right.fuel pos items)
      fun after result => logic.Inner window pos result.2 ∧ logic.Admits after result.1 := by
  refine logic.rounds (fun fuel carried => left.arrayItems window fuel carried.1 carried.2)
    (fun fuel carried => right.arrayItems window fuel carried.1 carried.2)
    (fun world (carried : Nat × Array Value) => ∀ item ∈ carried.2, logic.Admits world item)
    (fun carried after result => logic.Inner window carried.1 result.2 ∧ logic.Admits after result.1)
    (fun _ => rfl) (fun _ => rfl) (fun fuel more ih world carried good => ?_) relates.fuel
    (pos, items) good
  unfold Engine.arrayItems
  refine logic.bind (relates.value world window carried.1 inside) fun after read leads held => ?_
  obtain ⟨path, admits⟩ := held
  have pushed : ∀ item ∈ carried.2.push read.1, logic.Admits after item := by
    intro item member
    rcases Array.mem_push.mp member with old | rfl
    · exact logic.admits_mono (good item old) leads
    · exact admits
  dsimp only
  split
  · rename_i token found
    split
    · rename_i kind
      refine logic.mono (ih after (read.2 + 1, carried.2.push read.1) pushed) fun _ _ _ held => ?_
      exact ⟨logic.inner_path path (logic.inner_comma found kind held.1), held.2⟩
    · rename_i kind
      refine logic.bind (logic.newArray pushed) fun _ _ _ made => logic.pure fun _ later => ?_
      exact ⟨logic.inner_path path (logic.inner_bracket found kind), logic.admits_mono made later⟩
    · exact logic.failToken inside found rfl (.inr rfl)
  · exact logic.failAtFree inside rfl

/-- An array literal, read to the end of its bracket. -/
theorem arrayLiteral (inside : logic.block window.tokens) (pos : Nat) :
    logic.Does world (left.arrayLiteral window pos) (right.arrayLiteral window pos)
      fun after result => logic.Inner window pos result.2 ∧ logic.Admits after result.1 := by
  unfold Engine.arrayLiteral
  split
  · rename_i closed
    obtain ⟨token, found, kind⟩ := Window.exists_of_hasKind closed
    refine logic.bind (logic.newArray (by simp)) fun _ _ _ made => logic.pure fun _ later => ?_
    exact ⟨logic.inner_bracket found kind, logic.admits_mono made later⟩
  · exact relates.arrayItems inside (by simp)

/-- The subscripts behind a value. -/
theorem subscripted (inside : logic.block window.tokens) {pos : Nat} {base : Value}
    (good : logic.Admits world base) :
    logic.Does world (left.subscripted window left.fuel pos base)
      (right.subscripted window right.fuel pos base) (logic.Reads window pos) := by
  refine logic.rounds (fun fuel carried => left.subscripted window fuel carried.1 carried.2)
    (fun fuel carried => right.subscripted window fuel carried.1 carried.2)
    (fun world (carried : Nat × Value) => logic.Admits world carried.2)
    (fun carried => logic.Reads window carried.1)
    (fun _ => rfl) (fun _ => rfl) (fun fuel more ih world carried good => ?_) relates.fuel
    (pos, base) good
  unfold Engine.subscripted
  split
  · rename_i opened
    refine logic.bind (relates.value world window _ inside) fun _ key _ read => ?_
    refine logic.bind (logic.expect inside key.2 .rbracket _) fun _ _ _ closer => ?_
    have past : logic.Path window carried.1 (key.2 + 1) := logic.path_brackets opened
      (logic.inner_path read.1 (logic.inner_bracket closer.1 closer.2))
    refine logic.bind (logic.element _ _ _ inside) fun after value _ admits => ?_
    refine logic.mono (ih after (key.2 + 1, value) admits) fun _ _ _ rest => ?_
    exact ⟨logic.path_trans past rest.1, rest.2⟩
  · exact logic.pure fun _ leads => ⟨logic.path_refl _ _, logic.admits_mono good leads⟩

/-- The arguments of a call. -/
theorem arguments {groups : List TokenBlock} (inside : ∀ group ∈ groups, logic.block group) :
    logic.Does world (left.arguments groups) (right.arguments groups)
      fun after values => ∀ value ∈ values, logic.Admits after value := by
  induction groups generalizing world with
  | nil => exact logic.pure fun _ _ => by simp
  | cons group groups ih =>
    obtain ⟨here, rest⟩ := List.forall_mem_cons.mp inside
    have block : logic.block (Window.whole group).tokens := here
    refine logic.bind (relates.whole block) fun _ first _ admits => ?_
    refine logic.bind (ih rest) fun _ values leads good => logic.pure fun _ later => ?_
    refine List.forall_mem_cons.mpr ⟨logic.admits_mono (logic.admits_mono admits leads) later, ?_⟩
    exact fun value member => logic.admits_mono (good value member) later

/-- A call that has an entry in the table, unless a run may stop for want of one. -/
theorem callSite {pos id : Nat} (inside : logic.block window.tokens)
    (absent : ∀ {after machine}, logic.Knows after machine → machine.program.calls[id]? = none →
      ∀ line, logic.isLine line → logic.permits (.running (.callUnknown id) line [])) :
    logic.Does world (left.callSite window pos id) (right.callSite window pos id) logic.Admits := by
  refine logic.get (fun _ _ => rfl) fun after machine _ known => ?_
  split
  · rename_i site stored
    obtain ⟨blocks, isLine⟩ := logic.site_known known stored
    exact logic.bind (relates.arguments blocks) fun _ _ _ good => relates.call _ isLine good
  · rename_i missing
    exact logic.failAt inside (absent known missing)

/-- A term without its subscripts, from the position after its first token on. -/
theorem atom {pos : Nat} {token : Token} (inside : logic.block window.tokens)
    (found : window.token? pos = some token) :
    logic.Does world (left.atom window token (pos + 1)) (right.atom window token (pos + 1))
      (logic.Reads window pos) := by
  have one : token.kind.isPlain = true → token.kind.shapesList = false →
      logic.Path window pos (pos + 1) := logic.path_one found
  have free : ∀ {value : Value}, logic.Path window pos (pos + 1) → value.IsFree →
      logic.Does world (Pure.pure (value, pos + 1)) (Pure.pure (value, pos + 1)) (logic.Reads window pos) :=
    fun path isFree => logic.pure fun _ _ => ⟨path, logic.admits_free isFree⟩
  have kept : ∀ {first second : Exec Value}, logic.Path window pos (pos + 1) →
      logic.Does world first second logic.Admits →
      logic.Does world (do return (← first, pos + 1)) (do return (← second, pos + 1))
        (logic.Reads window pos) :=
    fun path does => logic.bind does fun _ _ _ admits =>
      logic.pure fun _ leads => ⟨path, logic.admits_mono admits leads⟩
  have sign : ∀ change : Value → Value, logic.Path window pos (pos + 1) →
      (∀ value, (change value).IsFree) →
      logic.Does world (left.signed window (pos + 1) change) (right.signed window (pos + 1) change)
        (logic.Reads window pos) :=
    fun change path isFree => logic.bind (relates.term world window (pos + 1) inside)
      fun _ _ _ read => logic.pure fun _ _ =>
        ⟨logic.path_trans path read.1, logic.admits_free (isFree _)⟩
  unfold Engine.atom
  split
  case h_1 kind | h_4 kind | h_6 kind | h_7 kind | h_16 kind =>
    exact free (one (by rw [kind]; rfl) (by rw [kind]; rfl)) trivial
  case h_2 kind | h_3 kind =>
    exact free (one (by rw [kind]; rfl) (by rw [kind]; rfl)) (Value.isFree_parseNumber _)
  case h_5 kind =>
    split
    · exact free (one (by rw [kind]; rfl) (by rw [kind]; rfl)) trivial
    · exact logic.failToken inside found rfl (.inl (by rw [kind]; nofun))
  case h_8 kind =>
    have isLine := logic.line_of_token inside found (by rw [kind]; nofun)
    exact kept (one (by rw [kind]; rfl) (by rw [kind]; rfl)) (logic.macroValue _ isLine)
  case h_9 kind =>
    have isLine := logic.line_of_token inside found (by rw [kind]; nofun)
    exact kept (one (by rw [kind]; rfl) (by rw [kind]; rfl)) (logic.variableValue isLine)
  case h_10 kind =>
    exact sign (fun operand => .bool (!operand.asBool))
      (one (by rw [kind]; rfl) (by rw [kind]; rfl)) fun _ => trivial
  case h_11 kind =>
    have path := one (by rw [kind]; rfl) (by rw [kind]; rfl)
    split
    · exact sign Value.negate path Value.isFree_negate
    · exact sign Value.signed path Value.isFree_signed
    · exact logic.failToken inside found rfl (.inl (by rw [kind]; nofun))
  case h_12 kind =>
    refine logic.bind (relates.value world window (pos + 1) inside) fun _ inner _ read => ?_
    refine logic.bind (logic.expect inside inner.2 .rparen _) fun _ closer leads closes => ?_
    have opened := one (by rw [kind]; rfl) (by rw [kind]; rfl)
    have closed : logic.Path window inner.2 (inner.2 + 1) :=
      logic.path_one closes.1 (by rw [closes.2]; rfl) (by rw [closes.2]; rfl)
    refine logic.pure fun _ later => ?_
    exact ⟨logic.path_trans (logic.path_trans opened read.1) closed,
      logic.admits_mono (logic.admits_mono read.2 leads) later⟩
  case h_13 kind =>
    have opened : window.hasKind pos .lbracket = true := by simp [Window.hasKind, found, kind]
    exact logic.mono (relates.arrayLiteral inside (pos + 1)) fun _ _ _ held =>
      ⟨logic.path_brackets opened held.1, held.2⟩
  case h_14 id kind =>
    exact kept (one (by rw [kind]; rfl) (by rw [kind]; rfl))
      (relates.callSite inside fun known missing _ =>
        logic.site_missing known inside found (.inl kind) missing)
  case h_15 id kind =>
    exact kept (one (by rw [kind]; rfl) (by rw [kind]; rfl))
      (relates.callSite inside fun known missing _ =>
        logic.site_missing known inside found (.inr kind) missing)
  case h_17 | h_18 => exact logic.failToken inside found rfl (.inr rfl)
  case h_19 notEol _ => exact logic.failToken inside found rfl (.inl notEol)

/-- A term. -/
theorem evalTerm (inside : logic.block window.tokens) (pos : Nat) :
    logic.Does world (left.evalTerm window pos) (right.evalTerm window pos)
      (logic.Reads window pos) := by
  unfold Engine.evalTerm
  split
  · rename_i token found
    refine logic.bind (relates.atom inside found) fun _ base _ read => ?_
    refine logic.mono (relates.subscripted inside read.2) fun _ _ _ rest => ?_
    exact ⟨logic.path_trans read.1 rest.1, rest.2⟩
  · exact logic.failAtFree inside rfl

/-- The operators behind a term, folded from the left. -/
theorem merge (inside : logic.block window.tokens) {pos : Nat} {first : Value}
    (good : logic.Admits world first) :
    logic.Does world (left.merge window left.fuel pos first)
      (right.merge window right.fuel pos first) (logic.Reads window pos) := by
  refine logic.rounds (fun fuel carried => left.merge window fuel carried.1 carried.2)
    (fun fuel carried => right.merge window fuel carried.1 carried.2)
    (fun world (carried : Nat × Value) => logic.Admits world carried.2)
    (fun carried => logic.Reads window carried.1)
    (fun _ => rfl) (fun _ => rfl) (fun fuel more ih world carried good => ?_) relates.fuel
    (pos, first) good
  -- An operator, applied to the value so far and the term after it.
  have joined : ∀ {token : Token} (result : Value → Exec Value),
      window.token? carried.1 = some token → token.kind.isPlain = true →
      token.kind.shapesList = false →
      (∀ operand world, logic.Does world (result operand) (result operand) logic.Admits) →
      logic.Does world (left.joined window fuel carried.1 result)
        (right.joined window more carried.1 result) (logic.Reads window carried.1) := by
    intro token result found plain flat does
    have sign := logic.path_one found plain flat
    refine logic.bind (relates.term world window _ inside) fun after operand _ read => ?_
    refine logic.bind (does operand.1 after) fun most value _ admits => ?_
    refine logic.mono (ih most (operand.2, value) admits) fun _ _ _ rest => ?_
    exact ⟨logic.path_trans (logic.path_trans sign read.1) rest.1, rest.2⟩
  have stays : logic.Does world (Pure.pure (carried.2, carried.1)) (Pure.pure (carried.2, carried.1))
      (logic.Reads window carried.1) :=
    logic.pure fun _ leads => ⟨logic.path_refl _ _, logic.admits_mono good leads⟩
  unfold Engine.merge
  split
  · exact stays
  · rename_i token found
    split
    · rename_i kind
      split
      · exact logic.failAtFree inside rfl
      · have isLine := logic.line_of_token inside found (by rw [kind]; nofun)
        exact joined
          (fun operand => Exec.ofExcept (Value.combine token.lexeme carried.2 operand token.line))
          found (by rw [kind]; rfl) (by rw [kind]; rfl)
          fun operand _ => logic.combine _ _ operand isLine
    · rename_i kind
      exact joined (fun operand => Pure.pure (.bool (carried.2.asBool && operand.asBool))) found
        (by rw [kind]; rfl) (by rw [kind]; rfl)
        fun _ _ => logic.pure fun _ _ => logic.admits_free trivial
    · rename_i kind
      exact joined (fun operand => Pure.pure (.bool (carried.2.asBool || operand.asBool))) found
        (by rw [kind]; rfl) (by rw [kind]; rfl)
        fun _ _ => logic.pure fun _ _ => logic.admits_free trivial
    · split
      · exact stays
      · exact logic.failAtFree inside rfl

/-- An expression. -/
theorem evalValue (inside : logic.block window.tokens) (pos : Nat) :
    logic.Does world (left.evalValue window pos) (right.evalValue window pos)
      (logic.Reads window pos) := by
  unfold Engine.evalValue
  refine logic.bind (relates.term world window pos inside) fun _ first _ read => ?_
  refine logic.mono (relates.merge inside read.2) fun _ _ _ rest => ?_
  exact ⟨logic.path_trans read.1 rest.1, rest.2⟩

/-!
## Subscripts and initial values
-/

/-- Subscripts from a position on. -/
theorem subscripts (inside : logic.block window.tokens) (pos : Nat) :
    logic.Does world (left.subscripts window pos) (right.subscripts window pos)
      fun _ result => logic.Path window pos result.2 := by
  refine logic.rounds (fun fuel carried => left.subscriptsFrom window fuel carried.1 carried.2)
    (fun fuel carried => right.subscriptsFrom window fuel carried.1 carried.2)
    (fun _ (_ : Nat × List Value) => True)
    (fun carried _ result => logic.Path window carried.1 result.2)
    (fun _ => rfl) (fun _ => rfl) (fun fuel more ih world carried _ => ?_) relates.fuel
    (pos, []) trivial
  unfold Engine.subscriptsFrom
  split
  · rename_i opened
    split
    · rename_i closed
      obtain ⟨token, found, kind⟩ := Window.exists_of_hasKind closed
      exact logic.pure fun _ _ => logic.path_brackets opened (logic.inner_bracket found kind)
    · refine logic.bind (relates.value world window _ inside) fun _ key _ read => ?_
      refine logic.bind (logic.expect inside key.2 .rbracket _) fun after _ _ closer => ?_
      have past : logic.Path window carried.1 (key.2 + 1) := logic.path_brackets opened
        (logic.inner_path read.1 (logic.inner_bracket closer.1 closer.2))
      exact logic.mono (ih after (key.2 + 1, carried.2 ++ [key.1]) trivial) fun _ _ _ rest =>
        logic.path_trans past rest
  · exact logic.pure fun _ _ => logic.path_refl _ _

/-- An initial value, if one is given. -/
theorem initialiser (inside : logic.block window.tokens) (pos : Nat) :
    logic.Does world (left.initialiser window pos) (right.initialiser window pos)
      fun after result => logic.Path window pos result.2 ∧
        ∀ value, result.1 = some value → logic.Admits after value := by
  unfold Engine.initialiser
  split
  · rename_i equals
    obtain ⟨token, found, kind⟩ := Window.exists_of_hasOperator equals
    have sign : logic.Path window pos (pos + 1) :=
      logic.path_one found (by rw [kind]; rfl) (by rw [kind]; rfl)
    refine logic.bind (relates.value world window _ inside) fun _ read _ held => ?_
    refine logic.pure fun _ leads => ⟨logic.path_trans sign held.1, fun value same => ?_⟩
    cases same
    exact logic.admits_mono held.2 leads
  · exact logic.pure fun _ _ => ⟨logic.path_refl _ _, nofun⟩

/-!
## Declarations and assignments
-/

variable (writes : logic.Writes)
include writes

/-- The variable at a position is declared; what stands behind it is read. -/
theorem declareOne (inside : logic.block window.tokens) {modifiers : Modifiers} {pos : Nat}
    (permitted : ∀ key ∈ window.listed pos, logic.MayDeclare world modifiers.scope key) :
    logic.Does world (left.declareOne window modifiers pos) (right.declareOne window modifiers pos)
      fun _ later => logic.Path window pos later := by
  unfold Engine.declareOne
  refine logic.bind (logic.expect inside pos .variableName _) fun first variable' early named => ?_
  obtain ⟨found, kind⟩ := named
  have isLine := logic.line_of_token inside found (by rw [kind]; nofun)
  have one : logic.Path window pos (pos + 1) :=
    logic.path_one found (by rw [kind]; rfl) (by rw [kind]; rfl)
  refine logic.bind (relates.subscripts inside (pos + 1)) fun second subscripts next read => ?_
  refine logic.bind (relates.initialiser inside subscripts.2) fun third initial last held => ?_
  have past : logic.Path window pos initial.2 :=
    logic.path_trans (logic.path_trans one read) held.1
  dsimp only
  split
  · exact logic.failFree rfl isLine
  · refine logic.get (fun _ _ => rfl) fun fourth machine leads _ => ?_
    split
    · exact logic.pure fun _ _ => past
    · have admitted : ∀ value, initial.1 = some value → logic.Admits fourth value :=
        fun value same => logic.admits_mono (held.2 value same) leads
      refine logic.bind (writes.declaredValue _ isLine admitted) fun fifth value stored admits => ?_
      have leads := logic.leads_trans (logic.leads_trans (logic.leads_trans (logic.leads_trans early
        next) last) leads) stored
      have may := logic.mayDeclare_mono (permitted _ (Window.mem_listed_first found kind)) leads
      exact logic.bind (writes.declareVariable _ may admits) fun _ _ _ _ => logic.pure fun _ _ => past

/-- The variables of a list are declared. -/
theorem declareEach (inside : logic.block window.tokens) {modifiers : Modifiers} {pos : Nat}
    (permitted : ∀ key ∈ window.listed pos, logic.MayDeclare world modifiers.scope key) :
    logic.Does world (left.declareEach window modifiers left.fuel pos)
      (right.declareEach window modifiers right.fuel pos)
      fun _ later => logic.Course window pos later := by
  refine logic.rounds (left.declareEach window modifiers) (right.declareEach window modifiers)
    (fun world pos => ∀ key ∈ window.listed pos, logic.MayDeclare world modifiers.scope key)
    (fun pos _ later => logic.Course window pos later)
    (fun _ => rfl) (fun _ => rfl) (fun fuel more ih world pos permitted => ?_) relates.fuel
    pos permitted
  unfold Engine.declareEach
  refine logic.bind (relates.declareOne writes inside permitted) fun after last leads path => ?_
  split
  · rename_i comma
    refine logic.mono (ih after (last + 1) ?_) fun _ _ _ rest => ?_
    · exact logic.mayDeclare_comma path comma fun key member =>
        logic.mayDeclare_mono (permitted key member) leads
    · exact logic.course_trans (logic.course_trans (logic.course_path path)
        (logic.course_pass (Window.passes_of_hasKind comma rfl))) rest
  · exact logic.pure fun _ _ => logic.course_path path

/-- The constants of an enumeration are declared. -/
theorem enumerateEach (inside : logic.block window.tokens) {target : DeclScope} {pos : Nat}
    {count : Int64} (permitted : ∀ key ∈ window.listed pos, logic.MayDeclare world target key) :
    logic.Does world (left.enumerateEach window target left.fuel pos count)
      (right.enumerateEach window target right.fuel pos count)
      fun _ later => logic.Course window pos later := by
  refine logic.rounds (fun fuel carried => left.enumerateEach window target fuel carried.1 carried.2)
    (fun fuel carried => right.enumerateEach window target fuel carried.1 carried.2)
    (fun world (carried : Nat × Int64) =>
      ∀ key ∈ window.listed carried.1, logic.MayDeclare world target key)
    (fun carried _ later => logic.Course window carried.1 later)
    (fun _ => rfl) (fun _ => rfl) (fun fuel more ih world carried permitted => ?_) relates.fuel
    (pos, count) permitted
  unfold Engine.enumerateEach
  refine logic.bind (logic.expect inside carried.1 .variableName _) fun _ variable' early named => ?_
  obtain ⟨found, kind⟩ := named
  have one : logic.Path window carried.1 (carried.1 + 1) :=
    logic.path_one found (by rw [kind]; rfl) (by rw [kind]; rfl)
  refine logic.bind (relates.initialiser inside _) fun second given next read => ?_
  have path : logic.Path window carried.1 given.2 := logic.path_trans one read.1
  have may : ∀ key ∈ window.listed carried.1, logic.MayDeclare second target key :=
    fun key member => logic.mayDeclare_mono (permitted key member) (logic.leads_trans early next)
  refine logic.bind (writes.declareVariable _ (may _ (Window.mem_listed_first found kind))
    (logic.admits_free trivial)) fun after _ leads _ => ?_
  split
  · rename_i comma
    refine logic.mono (ih after (given.2 + 1, _) ?_) fun _ _ _ rest => ?_
    · exact logic.mayDeclare_comma path comma fun key member =>
        logic.mayDeclare_mono (may key member) leads
    · exact logic.course_trans (logic.course_trans (logic.course_path path)
        (logic.course_pass (Window.passes_of_hasKind comma rfl))) rest
  · exact logic.pure fun _ _ => logic.course_path path

/-- An enumeration. -/
theorem enumeration (inside : logic.block window.tokens) {target : DeclScope} {pos : Nat}
    (permitted : ∀ key ∈ window.listed pos, logic.MayDeclare world target key) :
    logic.Does world (left.enumeration window target pos) (right.enumeration window target pos)
      fun _ later => logic.Course window pos later := by
  unfold Engine.enumeration
  split
  · exact logic.failAtFree inside rfl
  · exact relates.enumerateEach writes inside permitted

/-- A declaration, whose variables may be declared. -/
theorem declaration (inside : logic.block window.tokens) {pos : Nat}
    (words : window.hasKind pos .kwScope = true)
    (permitted : ∀ target key, window.Declares pos target key → logic.MayDeclare world target key) :
    logic.Does world (left.declaration window pos) (right.declaration window pos)
      fun _ later => logic.Course window pos later := by
  have behind := logic.course_pass (Window.passes_behindWords window pos)
  have declares : ∀ key ∈ (window.declared pos).2,
      logic.MayDeclare world (window.declared pos).1 key :=
    fun key member => permitted _ key ⟨rfl, member⟩
  rw [Engine.declaration_eq, Engine.declaration_eq]
  simp only [Window.declared, words, Bool.true_or, if_true] at declares
  split
  · rename_i enum
    rw [if_pos enum] at declares
    have word := logic.course_pass (Window.passes_of_hasKind enum rfl)
    exact logic.mono (relates.enumeration writes inside declares) fun _ _ _ rest =>
      logic.course_trans (logic.course_trans behind word) rest
  · rename_i list
    rw [if_neg list] at declares
    exact logic.mono (relates.declareEach writes inside declares) fun _ _ _ rest =>
      logic.course_trans behind rest

/-- One assignment. -/
theorem assignOne (inside : logic.block window.tokens) (pos : Nat) :
    logic.Does world (left.assignOne window pos) (right.assignOne window pos)
      fun _ later => logic.Path window pos later := by
  unfold Engine.assignOne
  refine logic.bind (logic.expect inside pos .variableName _) fun _ variable' _ named => ?_
  obtain ⟨found, kind⟩ := named
  have isLine := logic.line_of_token inside found (by rw [kind]; nofun)
  have one : logic.Path window pos (pos + 1) :=
    logic.path_one found (by rw [kind]; rfl) (by rw [kind]; rfl)
  refine logic.bind (relates.subscripts inside _) fun _ subscripts _ read => ?_
  have path := logic.path_trans one read
  dsimp only
  split
  · rename_i operator assigns
    split
    · exact logic.failAtFree inside rfl
    · obtain ⟨token, at', sign⟩ := Window.exists_of_assignment? assigns
      have equals : logic.Path window subscripts.2 (subscripts.2 + 1) :=
        logic.path_one at' (by rw [sign]; rfl) (by rw [sign]; rfl)
      refine logic.bind (relates.value _ window _ inside) fun _ given _ held => ?_
      refine logic.bind (writes.assignTo _ _ _ inside isLine held.2) fun _ _ _ _ => ?_
      exact logic.pure fun _ _ => logic.path_trans (logic.path_trans path equals) held.1
  · exact logic.bind (writes.introduce _ isLine) fun _ _ _ _ => logic.pure fun _ _ => path

/-- The assignments of a list. -/
theorem assignEach (inside : logic.block window.tokens) (pos : Nat) :
    logic.Does world (left.assignEach window left.fuel pos) (right.assignEach window right.fuel pos)
      fun _ later => logic.Course window pos later := by
  refine logic.rounds (left.assignEach window) (right.assignEach window) (fun _ _ => True)
    (fun pos _ later => logic.Course window pos later)
    (fun _ => rfl) (fun _ => rfl) (fun fuel more ih world pos _ => ?_) relates.fuel pos trivial
  unfold Engine.assignEach
  refine logic.bind (relates.assignOne writes inside pos) fun after last _ path => ?_
  split
  · rename_i comma
    refine logic.mono (ih after (last + 1) trivial) fun _ _ _ rest => ?_
    exact logic.course_trans (logic.course_trans (logic.course_path path)
      (logic.course_pass (Window.passes_of_hasKind comma rfl))) rest
  · exact logic.pure fun _ _ => logic.course_path path

/-- A variable is resized. -/
theorem resizing (inside : logic.block window.tokens) {pos : Nat}
    (first : logic.Path window pos (pos + 1)) :
    logic.Does world (left.resizing window pos) (right.resizing window pos)
      fun _ later => logic.Path window pos later := by
  unfold Engine.resizing
  refine logic.bind (logic.expect inside (pos + 1) .variableName _) fun _ variable' _ named => ?_
  obtain ⟨found, kind⟩ := named
  have isLine := logic.line_of_token inside found (by rw [kind]; nofun)
  have name : logic.Path window (pos + 1) (pos + 2) :=
    logic.path_one found (by rw [kind]; rfl) (by rw [kind]; rfl)
  refine logic.bind (relates.subscripts inside _) fun _ subscripts _ read => ?_
  dsimp only
  split
  · refine logic.bind (writes.resize _ _ isLine) fun _ _ _ _ => logic.pure fun _ _ => ?_
    exact logic.path_trans (logic.path_trans first name) read
  · exact logic.failAtFree inside rfl

/-- The parameters of a call, bound in order to arguments that may be kept. -/
theorem bindParams (function : UserFunction) {line : Nat} {params : List Param} {args : List Value}
    (isLine : logic.isLine line)
    (inside : ∀ param ∈ params, ∀ tokens, param.fallback = some tokens → logic.block tokens)
    (good : ∀ value ∈ args, logic.Admits world value) :
    logic.Does world (left.bindParams function line params args)
      (right.bindParams function line params args) fun _ _ => True := by
  induction params generalizing world args with
  | nil => exact logic.pure fun _ _ => trivial
  | cons param params ih =>
    have bound : ∀ {after value}, logic.Leads world after → logic.Admits after value →
        logic.Does after (do
          setVariable param.name value
          left.bindParams function line params args.tail) (do
          setVariable param.name value
          right.bindParams function line params args.tail) fun _ _ => True := by
      intro after value leads admits
      refine logic.bind (writes.setVariable _ admits) fun last _ later _ => ?_
      refine ih (fun other member => inside other (List.mem_cons_of_mem _ member)) fun value member => ?_
      exact logic.admits_mono (good value (List.mem_of_mem_tail member)) (logic.leads_trans leads later)
    unfold Engine.bindParams
    split
    · split
      · rename_i tokens fallback
        have block : logic.block (Window.whole tokens).tokens :=
          inside param List.mem_cons_self tokens fallback
        have given : logic.Does world (Prod.fst <$> left.value (.whole tokens) 0)
            (Prod.fst <$> right.value (.whole tokens) 0) logic.Admits :=
          logic.map (relates.value world _ 0 block) fun _ _ held _ leads =>
            logic.admits_mono held.2 leads
        exact logic.bind given fun _ _ leads admits => bound leads admits
      · have failed : logic.Does world
            (Exec.fail (.noDefault function.name ("$" ++ param.name)) line : Exec Value)
            (Exec.fail (.noDefault function.name ("$" ++ param.name)) line) logic.Admits :=
          logic.failFree rfl isLine
        exact logic.bind failed fun _ _ leads admits => bound leads admits
    · have admits : logic.Admits world (args.head?.getD .defaultWord) := by
        cases args with
        | nil => exact logic.admits_free trivial
        | cons first rest => exact good first List.mem_cons_self
      exact logic.bind (logic.pure fun _ leads => logic.admits_mono admits leads)
        fun _ _ leads admits => bound leads admits

end Logic.Relates

end LineScript
