import LineScript.Proofs.Supply.Basic

/-!
# Enough fuel for expressions and assignments

Where the engine that an expression is evaluated with has enough fuel for all later positions of the
window, it is enough for the expression. Every round of a loop of the evaluator passes a token, so
as many rounds as there are tokens left are enough. Here the rounds are what is counted, where a `Logic`
lets a loop run out of them.
-/

namespace LineScript

section

open Machine

/-- The engine has enough fuel for the terms of a window from a position on. -/
def Engine.ReadsTerms (low : Engine) (supply : Supply) (window : Window) (first : Nat) : Prop :=
  ∀ pos, first ≤ pos →
    supply.Does (low.term window pos) fun result => window.Passes pos result.2

/-- The engine has enough fuel for the terms and expressions of a window from a position on. -/
structure Engine.Reads (low : Engine) (supply : Supply) (window : Window) (first : Nat) : Prop where
  /-- Terms. -/
  term : low.ReadsTerms supply window first
  /-- Expressions. -/
  value : ∀ pos, first ≤ pos →
    supply.Does (low.value window pos) fun result => window.Passes pos result.2

/-- The engine has enough fuel for the call of a number. -/
def Engine.Answers (low : Engine) (supply : Supply) (id : Nat) : Prop :=
  ∀ window pos, supply.Does (low.callSite window pos id) fun _ => True

variable {supply : Supply} {low : Engine} {window : Window} {pos : Nat}

/-- A position that holds a token is below the size of the block. -/
theorem Window.lt_of_token? {token : Token} (found : window.token? pos = some token) :
    pos < window.tokens.size :=
  (Array.getElem?_eq_some_iff.mp (token?_eq_some.mp found).2).1

/-- A token of a window is a token of its block. -/
theorem Window.mem_of_token? {token : Token} (found : window.token? pos = some token) :
    token ∈ window.tokens.toList :=
  Array.mem_toList_iff.mpr (Array.mem_of_getElem? (token?_eq_some.mp found).2)

/-- A position that has a kind is below the size of the block. -/
theorem Window.lt_of_hasKind {kind : TokenKind} (has : window.hasKind pos kind = true) :
    pos < window.tokens.size := by
  obtain ⟨token, found, _⟩ := exists_of_hasKind has
  exact lt_of_token? found

namespace Engine.Reads

/-- An engine that reads from a position on reads from later ones on. -/
theorem later (reads : low.Reads supply window pos) {more : Nat} (le : pos ≤ more) :
    low.Reads supply window more :=
  ⟨fun at' from' => reads.term at' (Nat.le_trans le from'),
    fun at' from' => reads.value at' (Nat.le_trans le from')⟩

/-- Reading the items of an array literal does not run out of fuel. -/
theorem arrayItems {rounds : Nat} (reads : low.Reads supply window pos)
    (enough : window.tokens.size - pos < rounds) (items : Array Value) :
    supply.Does (low.arrayItems window rounds pos items) fun _ => True := by
  induction rounds generalizing pos items with
  | zero => exact absurd enough (Nat.not_lt_zero _)
  | succ rounds ih =>
    unfold Engine.arrayItems
    refine (reads.value pos (Nat.le_refl pos)).bind fun item read => ?_
    have le := read.le
    dsimp only
    split
    · rename_i token found
      have inside := Window.lt_of_token? found
      split
      · exact ih (reads.later (by omega)) (by omega) _
      · exact (Supply.Does.handles (.newArray _)).bind fun _ _ => .pure trivial
      · exact .fail _ _
    · exact .failAt _ _ _

/-- Reading an array literal does not run out of fuel. -/
theorem arrayLiteral (reads : low.Reads supply window pos)
    (enough : window.tokens.size - pos < low.fuel) :
    supply.Does (low.arrayLiteral window pos) fun _ => True := by
  unfold Engine.arrayLiteral
  split
  · exact (Supply.Does.handles (.newArray _)).bind fun _ _ => .pure trivial
  · exact reads.arrayItems enough _

/-- Reading the subscripts behind a value does not run out of fuel. -/
theorem subscripted {rounds : Nat} (reads : low.Reads supply window pos)
    (enough : window.tokens.size - pos < rounds) (base : Value) :
    supply.Does (low.subscripted window rounds pos base) fun _ => True := by
  induction rounds generalizing pos base with
  | zero => exact absurd enough (Nat.not_lt_zero _)
  | succ rounds ih =>
    unfold Engine.subscripted
    split
    · rename_i opened
      have inside := Window.lt_of_hasKind opened
      refine (reads.value (pos + 1) (Nat.le_succ pos)).bind fun key read => ?_
      have le := read.le
      refine (Supply.Does.expect _ _ _ rfl).bind fun _ _ => ?_
      exact (Supply.Does.handles (.element trivial _ _)).bind fun value _ =>
        ih (reads.later (by omega)) (by omega) value
    · exact .pure trivial

/-- A complete expression. -/
theorem whole (reads : low.Reads supply window window.start) :
    supply.Does (low.whole window) fun _ => True := by
  unfold Engine.whole
  refine (reads.value _ (Nat.le_refl _)).bind fun _ _ => ?_
  dsimp only
  split
  · split
    · exact .pure trivial
    · exact .failAt _ _ _
  · exact .pure trivial

/-- Evaluating the arguments of a call does not run out of fuel. -/
theorem arguments {groups : List TokenBlock}
    (reads : ∀ group ∈ groups, low.Reads supply (.whole group) 0) :
    supply.Does (low.arguments groups) fun _ => True := by
  induction groups with
  | nil => exact .pure trivial
  | cons group groups ih =>
    unfold Engine.arguments
    refine (whole (reads group List.mem_cons_self)).bind fun _ _ => ?_
    refine (ih fun other member => reads other (List.mem_cons_of_mem _ member)).bind fun _ _ => ?_
    exact .pure trivial

end Engine.Reads

/-- The call of a number, whose arguments can be evaluated. -/
theorem Engine.answers {id : Nat}
    (args : ∀ site, supply.program.calls[id]? = some site →
      ∀ arg ∈ site.args, low.Reads supply (.whole arg) 0)
    (calls : ∀ name args line, supply.Does (low.call name args line) fun _ => True) :
    low.Answers supply id := by
  intro window pos
  unfold Engine.callSite
  refine .get fun machine fits => ?_
  rw [fits.program_eq]
  split
  · rename_i site known
    exact (Reads.arguments (args site known)).bind fun _ _ => calls _ _ _
  · exact .failAt _ _ _

namespace Engine.Reads

/-- A term without its subscripts, from the position after its first token on. -/
theorem atom {token : Token} (obeys : low.Obeys supply.guard) (reads : low.Reads supply window pos)
    (enough : window.tokens.size - pos < low.fuel)
    (calls : ∀ id, token.isCall id → low.Answers supply id) :
    supply.Does (low.atom window token pos) fun result => pos ≤ result.2 := by
  have plain : ∀ value : Value, supply.Does (pure (value, pos)) fun result => pos ≤ result.2 :=
    fun _ => .pure (Nat.le_refl pos)
  have sign : ∀ change : Value → Value, supply.Does
      (do let result ← low.term window pos; return (change result.1, result.2))
      fun result => pos ≤ result.2 :=
    fun _ => (reads.term pos (Nat.le_refl pos)).bind fun _ read => .pure read.le
  unfold Engine.atom
  split
  case h_1 | h_2 | h_3 | h_4 | h_6 | h_7 | h_16 => exact plain _
  case h_5 =>
    split
    · exact plain _
    · exact .fail _ _
  case h_8 => exact (Supply.Does.handles (.macroValue rfl (.inl rfl) trivial)).bind fun _ _ => plain _
  case h_9 => exact (Supply.Does.handles (.variableValue (.refl trivial))).bind fun _ _ => plain _
  case h_10 => exact sign fun operand => .bool (!operand.asBool)
  case h_11 =>
    split
    · exact sign Value.negate
    · exact sign Value.signed
    · exact .fail _ _
  case h_12 =>
    refine (reads.value pos (Nat.le_refl pos)).bind fun _ read => ?_
    exact (Supply.Does.expect _ _ _ rfl).bind fun _ _ => .pure (Nat.le_succ_of_le read.le)
  case h_13 =>
    have read := (reads.arrayLiteral enough).keeping (obeys.arrayLiteral trivial pos)
    exact read.mono fun _ passes => passes.le
  case h_14 id kind => exact (calls id (.inl kind) _ _).bind fun _ _ => plain _
  case h_15 id kind => exact (calls id (.inr kind) _ _).bind fun _ _ => plain _
  case h_17 | h_18 | h_19 => exact .fail _ _

/-- A term is read with an engine that has enough fuel for what comes after its first token. -/
theorem evalTerm (obeys : low.Obeys supply.guard)
    (reads : ∀ token, window.token? pos = some token → low.Reads supply window (pos + 1) ∧
      window.tokens.size - (pos + 1) < low.fuel ∧ ∀ id, token.isCall id → low.Answers supply id) :
    supply.Does (low.evalTerm window pos) fun result => window.Passes pos result.2 := by
  refine Supply.Does.keeping ?_ (obeys.evalTerm trivial pos)
  unfold Engine.evalTerm
  split
  · rename_i token found
    obtain ⟨rest, enough, calls⟩ := reads token found
    refine (rest.atom obeys enough calls).bind fun result past => ?_
    exact (rest.later past).subscripted (by omega) _
  · exact .failAt _ _ _

end Engine.Reads

namespace Engine.ReadsTerms

/-- Folding the operators behind a term does not run out of fuel. -/
theorem merge {rounds : Nat} (reads : low.ReadsTerms supply window pos)
    (enough : window.tokens.size - pos < rounds) (left : Value) :
    supply.Does (low.merge window rounds pos left) fun _ => True := by
  induction rounds generalizing pos left with
  | zero => exact absurd enough (Nat.not_lt_zero _)
  | succ rounds ih =>
    have joined : ∀ (token : Token) (result : Value → Exec Value),
        window.token? pos = some token → (∀ right, supply.Does (result right) fun _ => True) →
        supply.Does (do
          let operand ← low.term window (pos + 1)
          low.merge window rounds operand.2 (← result operand.1)) fun _ => True := by
      intro token result found does
      have inside := Window.lt_of_token? found
      refine (reads (pos + 1) (Nat.le_succ pos)).bind fun right read => ?_
      have le := read.le
      refine (does right.1).bind fun value _ => ih (fun at' from' => reads at' ?_) ?_ value
      · omega
      · omega
    unfold Engine.merge
    split
    · exact .pure trivial
    · rename_i token found
      split
      · split
        · exact .failAt _ _ _
        · exact joined token (fun right => Exec.ofExcept (Value.combine _ _ right _)) found
            fun _ => .ofExcept fun _ _ => trivial
      · exact joined token (fun right => pure (.bool (left.asBool && right.asBool))) found
          fun _ => .pure trivial
      · exact joined token (fun right => pure (.bool (left.asBool || right.asBool))) found
          fun _ => .pure trivial
      · split
        · exact .pure trivial
        · exact .failAt _ _ _

/-- An expression is read with an engine that has enough fuel for its terms. -/
theorem evalValue (obeys : low.Obeys supply.guard) (reads : low.ReadsTerms supply window pos)
    (enough : window.tokens.size - pos < low.fuel) :
    supply.Does (low.evalValue window pos) fun result => window.Passes pos result.2 := by
  refine Supply.Does.keeping ?_ (obeys.evalValue trivial pos)
  unfold Engine.evalValue
  refine (reads pos (Nat.le_refl pos)).bind fun first read => ?_
  have rest : low.ReadsTerms supply window first.2 :=
    fun at' from' => reads at' (Nat.le_trans read.le from')
  have le := read.le
  exact rest.merge (by omega) _

end Engine.ReadsTerms

end

/-!
## Enough fuel for declarations and assignments

Declarations and assignments evaluate expressions from their window only. Each of the parts that
are separated by commas passes its comma, so as many rounds as there are tokens left are enough.
-/

open Machine

variable {supply : Supply} {low : Engine} {window : Window} {pos : Nat}

namespace Engine.Reads

/-- Reading subscripts from a position on does not run out of fuel. -/
theorem subscriptsFrom {rounds : Nat} (reads : low.Reads supply window pos)
    (enough : window.tokens.size - pos < rounds) (values : List Value) :
    supply.Does (low.subscriptsFrom window rounds pos values) fun _ => True := by
  induction rounds generalizing pos values with
  | zero => exact absurd enough (Nat.not_lt_zero _)
  | succ rounds ih =>
    unfold Engine.subscriptsFrom
    split
    · rename_i opened
      have inside := Window.lt_of_hasKind opened
      split
      · exact .pure trivial
      · refine (reads.value (pos + 1) (Nat.le_succ pos)).bind fun value read => ?_
        have le := read.le
        refine (Supply.Does.expect _ _ _ rfl).bind fun _ _ => ?_
        exact ih (reads.later (by omega)) (by omega) _
    · exact .pure trivial

/-- Subscripts are passed over. -/
theorem subscripts (obeys : low.Obeys supply.guard) (reads : low.Reads supply window pos)
    (enough : window.tokens.size - pos < low.fuel) :
    supply.Does (low.subscripts window pos) fun result => pos ≤ result.2 := by
  unfold Engine.subscripts
  have read := (reads.subscriptsFrom enough []).keeping (obeys.subscripts trivial _)
  exact read.mono fun _ passes => passes.le

/-- Reading an initialiser does not run out of fuel. -/
theorem initialiser (reads : low.Reads supply window pos) :
    supply.Does (low.initialiser window pos) fun result => pos ≤ result.2 := by
  unfold Engine.initialiser
  split
  · exact (reads.value (pos + 1) (Nat.le_succ pos)).bind fun _ read =>
      .pure (Nat.le_trans (Nat.le_succ pos) read.le)
  · exact .pure (Nat.le_refl pos)

/-- Declaring one variable does not run out of fuel. -/
theorem declareOne (obeys : low.Obeys supply.guard) (reads : low.Reads supply window pos)
    (enough : window.tokens.size - pos < low.fuel) (modifiers : Modifiers) :
    supply.Does (low.declareOne window modifiers pos) fun last => pos ≤ last := by
  unfold Engine.declareOne
  refine (Supply.Does.expect _ _ _ rfl).bind fun variable' _ => ?_
  have start := reads.later (Nat.le_succ pos)
  refine (start.subscripts obeys (by omega)).bind fun subscripts read => ?_
  refine (start.later read).initialiser.bind fun initial given => ?_
  have passed : pos ≤ initial.2 := Nat.le_trans (Nat.le_succ pos) (Nat.le_trans read given)
  dsimp only
  split
  · exact .fail _ _
  · refine .get fun machine _ => ?_
    split
    · exact .pure passed
    · refine (Supply.Does.handles (.declaredValue (.refl trivial) _ _)).bind fun _ _ => ?_
      exact (Supply.Does.declareVariable _ _ _ _).bind fun _ _ => .pure passed

/-- Declaring the variables of a list does not run out of fuel. -/
theorem declareEach {rounds : Nat} (obeys : low.Obeys supply.guard)
    (reads : low.Reads supply window pos) (enough : window.tokens.size - pos < low.fuel)
    (left : window.tokens.size - pos < rounds) (modifiers : Modifiers) :
    supply.Does (low.declareEach window modifiers rounds pos) fun _ => True := by
  induction rounds generalizing pos with
  | zero => exact absurd left (Nat.not_lt_zero _)
  | succ rounds ih =>
    unfold Engine.declareEach
    refine (reads.declareOne obeys enough modifiers).bind fun last read => ?_
    split
    · rename_i comma
      have inside := Window.lt_of_hasKind comma
      exact ih (reads.later (by omega)) (by omega) (by omega)
    · exact .pure trivial

/-- Enumerating constants does not run out of fuel. -/
theorem enumerateEach {rounds : Nat} (reads : low.Reads supply window pos)
    (left : window.tokens.size - pos < rounds) (target : DeclScope) (count : Int64) :
    supply.Does (low.enumerateEach window target rounds pos count) fun _ => True := by
  induction rounds generalizing pos count with
  | zero => exact absurd left (Nat.not_lt_zero _)
  | succ rounds ih =>
    unfold Engine.enumerateEach
    refine (Supply.Does.expect _ _ _ rfl).bind fun variable' _ => ?_
    refine (reads.later (Nat.le_succ pos)).initialiser.bind fun given read => ?_
    refine (Supply.Does.declareVariable _ _ _ _).bind fun _ _ => ?_
    split
    · rename_i comma
      have inside := Window.lt_of_hasKind comma
      exact ih (reads.later (by omega)) (by omega) _
    · exact .pure trivial

/-- An enumeration does not run out of fuel. -/
theorem enumeration (reads : low.Reads supply window pos)
    (enough : window.tokens.size - pos < low.fuel) (target : DeclScope) :
    supply.Does (low.enumeration window target pos) fun _ => True := by
  unfold Engine.enumeration
  split
  · exact .failAt _ _ _
  · exact reads.enumerateEach enough target 0

/-- A declaration does not run out of fuel. -/
theorem declaration (obeys : low.Obeys supply.guard) (reads : low.Reads supply window pos)
    (enough : window.tokens.size - pos < low.fuel) :
    supply.Does (low.declaration window pos) fun _ => True := by
  have passed := Layout.le_seek (fun token => token.kind != .kwScope) window.tokens pos window.stop
  unfold Engine.declaration
  dsimp only
  split
  · exact (reads.later (Nat.le_succ_of_le passed)).enumeration (by omega) _
  · exact (reads.later passed).declareEach obeys (by omega) (by omega) _

/-- One assignment does not run out of fuel. -/
theorem assignOne (obeys : low.Obeys supply.guard) (reads : low.Reads supply window pos)
    (enough : window.tokens.size - pos < low.fuel) :
    supply.Does (low.assignOne window pos) fun last => pos ≤ last := by
  unfold Engine.assignOne
  refine (Supply.Does.expect _ _ _ rfl).bind fun variable' _ => ?_
  have start := reads.later (Nat.le_succ pos)
  refine (start.subscripts obeys (by omega)).bind fun subscripts read => ?_
  dsimp only
  split
  · split
    · exact .failAt _ _ _
    · refine (start.value _ (Nat.le_succ_of_le read)).bind fun given value => ?_
      have le := value.le
      refine (Supply.Does.handles ?_).bind fun _ _ => .pure (by omega)
      exact .assignTo (.refl trivial) trivial (fun _ => trivial) trivial _ _ _
  · exact (Supply.Does.handles (.introduce (.refl trivial) trivial _)).bind fun _ _ => .pure (by omega)

/-- The assignments of a list does not run out of fuel. -/
theorem assignEach {rounds : Nat} (obeys : low.Obeys supply.guard)
    (reads : low.Reads supply window pos) (enough : window.tokens.size - pos < low.fuel)
    (left : window.tokens.size - pos < rounds) :
    supply.Does (low.assignEach window rounds pos) fun _ => True := by
  induction rounds generalizing pos with
  | zero => exact absurd left (Nat.not_lt_zero _)
  | succ rounds ih =>
    unfold Engine.assignEach
    refine (reads.assignOne obeys enough).bind fun last read => ?_
    split
    · rename_i comma
      have inside := Window.lt_of_hasKind comma
      exact ih (reads.later (by omega)) (by omega) (by omega)
    · exact .pure trivial

/-- Resizing a variable does not run out of fuel. -/
theorem resizing (obeys : low.Obeys supply.guard) (reads : low.Reads supply window pos)
    (enough : window.tokens.size - pos < low.fuel) :
    supply.Does (low.resizing window pos) fun _ => True := by
  unfold Engine.resizing
  refine (Supply.Does.expect _ _ _ rfl).bind fun variable' _ => ?_
  refine ((reads.later (Nat.le_add_right pos 2)).subscripts obeys (by omega)).bind fun _ _ => ?_
  dsimp only
  split
  · exact (Supply.Does.handles (.resize (.refl trivial) trivial _ _)).bind fun _ _ => .pure trivial
  · exact .failAt _ _ _

end Engine.Reads

end LineScript
