import LineScript.Interpreter.Assignment
import LineScript.Interpreter.Call
import LineScript.Interpreter.Selection
import LineScript.Proofs.Rendition.Machine

/-!
# Renditions of expressions, declarations and assignments

Evaluating an expression over a window, and over one that shows it further on, gives the same value and
stops at places that correspond. A term is never evaluated right behind the word that opens a function,
the one place where a name that stands for itself may be spelled anew. What an assignment or a
declaration writes is the same, too.
-/

namespace LineScript

open Machine Exec

variable {respells : Prop} {shift : Nat} {shifts : List Nat}

/-- The same was read further on, and reading stopped at the place that corresponds. -/
def Reads {α : Type} (shift : Nat) (result other : α × Nat) : Prop :=
  other = (result.1, shift + result.2)

/-- Reading stopped at the place that corresponds. -/
def Stops (shift : Nat) (pos other : Nat) : Prop := other = shift + pos

namespace Engine

/-- What the engine may be asked for does the same to every rendition. -/
structure Echoes (respells : Prop) (low : Engine) : Prop where
  /-- Terms, where no name of a function stands. -/
  term : ∀ {shifts : List Nat} {shift : Nat} {near far : Window} {pos : Nat},
    near.Renders respells shift far → near.ShowsAt respells False shift far pos →
    Exec.Echoes respells shifts (Reads shift) (low.term near pos) (low.term far (shift + pos))
  /-- Expressions, where no name of a function stands. -/
  value : ∀ {shifts : List Nat} {shift : Nat} {near far : Window} {pos : Nat},
    near.Renders respells shift far → near.ShowsAt respells False shift far pos →
    Exec.Echoes respells shifts (Reads shift) (low.value near pos) (low.value far (shift + pos))
  /-- Calls, however the name is spelled. -/
  call : ∀ {shifts : List Nat} {name other : String} (args : List Value) (line : Nat),
    NameRenders respells name other →
    Exec.Echoes respells shifts Eq (low.call name args line) (low.call other args line)
  /-- Scopes. -/
  runScope : low.runScope.Blind respells

namespace Echoes

variable {low : Engine} (echoes : low.Echoes respells) {near far : Window} {pos : Nat}
include echoes

section Windows

variable (window : near.Renders respells shift far)
include window

/-! ### Expressions -/

/-- Reading the items of an array literal echoes itself. -/
theorem arrayItems (fuel : Nat) (items : Array Value)
    (here : near.ShowsAt respells False shift far pos) :
    Exec.Echoes respells shifts (Reads shift) (low.arrayItems near fuel pos items)
      (low.arrayItems far fuel (shift + pos) items) := by
  induction fuel generalizing pos items with
  | zero => exact .starved
  | succ fuel ih =>
    unfold Engine.arrayItems
    refine .bind (echoes.value window here) ?_
    rintro ⟨item, pos⟩ _ rfl
    dsimp only
    rcases window.token pos with ⟨missing, missing'⟩ | ⟨token, other, found, found', same⟩
    · rw [missing, missing']
      exact .failAt window pos (.refl _)
    · rw [found, found']
      dsimp only
      rw [same.kind, same.line]
      split
      · rename_i separator
        exact ih _ (window.next found (by simp [separator]))
      · exact .andThen (.handles (.newArray _)) fun _ => .pure rfl
      · exact .fail (same.cause (fun token => .inArray token.display) fun _ _ => rfl) _

/-- Reading an array literal echoes itself. -/
theorem arrayLiteral (here : near.ShowsAt respells False shift far pos) :
    Exec.Echoes respells shifts (Reads shift) (low.arrayLiteral near pos)
      (low.arrayLiteral far (shift + pos)) := by
  unfold Engine.arrayLiteral
  rw [window.hasKind]
  split
  · exact .andThen (.handles (.newArray _)) fun _ => .pure rfl
  · exact echoes.arrayItems window _ _ here

/-- Reading the subscripts behind a value echoes itself. -/
theorem subscripted (fuel pos : Nat) (base : Value) :
    Exec.Echoes respells shifts (Reads shift) (low.subscripted near fuel pos base)
      (low.subscripted far fuel (shift + pos) base) := by
  induction fuel generalizing pos base with
  | zero => exact .starved
  | succ fuel ih =>
    unfold Engine.subscripted
    rw [window.hasKind]
    split
    · rename_i opens
      refine .bind (echoes.value window (window.behind opens (by decide))) ?_
      rintro ⟨key, pos⟩ _ rfl
      refine .bind (.expect window pos _ _) fun _ _ _ => ?_
      exact .andThen (.handles (.element (window.permits (pos + 1)) _ _)) fun _ => ih (pos + 1) _
    · exact .pure rfl

/-- Evaluating a complete expression echoes itself. -/
theorem whole : Exec.Echoes respells shifts Eq (low.whole near) (low.whole far) := by
  unfold Engine.whole
  rw [window.start]
  refine .bind (echoes.value window window.first) ?_
  rintro ⟨value, pos⟩ _ rfl
  dsimp only
  rcases window.token pos with ⟨missing, missing'⟩ | ⟨token, other, found, found', same⟩
  · rw [missing, missing']
    exact .pure rfl
  · rw [found, found']
    dsimp only
    rw [same.endsLine]
    split
    · exact .pure rfl
    · exact .failAt window pos
        (same.cause (fun token => .inExpression token.display) fun _ _ => rfl)

omit window in
/-- Evaluating the arguments of a call echoes itself. -/
theorem arguments {groups others : List TokenBlock}
    (same : List.Forall₂ (TokenBlock.Renders respells) groups others) :
    Exec.Echoes respells shifts Eq (low.arguments groups) (low.arguments others) := by
  induction same with
  | nil => exact .pure rfl
  | cons group _ ih =>
    exact .andThen (echoes.whole group) fun _ => .andThen ih fun _ => .pure rfl

/-- Making the call that a token stands for echoes itself. -/
theorem callSite (pos id : Nat) :
    Exec.Echoes respells shifts Eq (low.callSite near pos id)
      (low.callSite far (shift + pos) id) := by
  unfold Engine.callSite
  refine .get fun machine last renders => ?_
  have found := renders.program.call id
  generalize machine.program.calls[id]? = site? at found ⊢
  generalize last.program.calls[id]? = other? at found ⊢
  cases found with
  | none => exact .failAt window pos (.refl _)
  | @some site other same =>
    have args : List.Forall₂ (TokenBlock.Renders respells) site.args other.args :=
      TokenBlock.Renders.forall₂ (same.map CallSite.args fun _ => rfl)
    have name : NameRenders respells site.name other.name :=
      .small (same.map CallSite.name fun _ => rfl)
    dsimp only
    rw [same.look CallSite.line fun _ => rfl]
    exact .andThen (echoes.arguments args) fun values => echoes.call values site.line name

/-- Reading a signed term echoes itself. -/
theorem signed (change : Value → Value) (here : near.ShowsAt respells False shift far pos) :
    Exec.Echoes respells shifts (Reads shift) (low.signed near pos change)
      (low.signed far (shift + pos) change) :=
  .bind (echoes.term window here) fun _ _ same => same ▸ .pure rfl

/-- A term without its subscripts, whose token stands before the position. -/
theorem atom {token other : Token} (found : near.token? pos = some token)
    (same : token.Renders respells False other) :
    Exec.Echoes respells shifts (Reads shift) (low.atom near token (pos + 1))
      (low.atom far other (shift + (pos + 1))) := by
  have kept (verbatim : token.kind.isVerbatim = true) : other = token :=
    same.eq_of_isVerbatim verbatim fun _ => id
  have behind (notFunc : token.kind ≠ .kwFunc) :
      near.ShowsAt respells False shift far (pos + 1) := window.next found notFunc
  unfold Engine.atom
  rw [same.kind]
  split
  case h_1 kind | h_2 kind | h_3 kind | h_4 kind | h_16 kind =>
    rw [kept (by rw [kind]; rfl)]
    exact .pure rfl
  case h_5 kind =>
    rw [kept (by rw [kind]; rfl)]
    split
    · exact .pure rfl
    · exact .fail (.refl _) _
  case h_6 | h_7 => exact .pure rfl
  case h_8 =>
    rw [same.line]
    refine .andThen (.handles ?_) fun _ => .pure rfl
    exact .macroValue same.name (NameRenders.ofToken same).spelled trivial
  case h_9 => exact .andThen (.handles (.variableValue same.names)) fun _ => .pure rfl
  case h_10 kind =>
    exact echoes.signed window (fun operand => .bool (!operand.asBool)) (behind (by simp [kind]))
  case h_11 kind =>
    rw [kept (by rw [kind]; rfl)]
    split
    · exact echoes.signed window Value.negate (behind (by simp [kind]))
    · exact echoes.signed window Value.signed (behind (by simp [kind]))
    · exact .fail (.refl _) _
  case h_12 kind =>
    refine .bind (echoes.value window (behind (by simp [kind]))) ?_
    rintro ⟨inner, pos⟩ _ rfl
    exact .bind (.expect window pos _ _) fun _ _ _ => .pure rfl
  case h_13 kind => exact echoes.arrayLiteral window (behind (by simp [kind]))
  case h_14 | h_15 => exact .andThen (echoes.callSite window _ _) fun _ => .pure rfl
  case h_17 | h_18 =>
    rw [same.line]
    exact .fail (.refl _) _
  case h_19 =>
    rw [same.line]
    exact .fail (same.cause (fun token => .inExpression token.display) fun _ _ => rfl) _

/-- The term at a position. -/
theorem evalTerm (here : near.ShowsAt respells False shift far pos) :
    Exec.Echoes respells shifts (Reads shift) (low.evalTerm near pos)
      (low.evalTerm far (shift + pos)) := by
  unfold Engine.evalTerm
  rcases here with ⟨missing, missing'⟩ | ⟨token, other, found, found', same⟩
  · rw [missing, missing']
    exact .failAt window pos (.refl _)
  · rw [found, found']
    refine .bind (echoes.atom window found same) ?_
    rintro ⟨base, pos⟩ _ rfl
    exact echoes.subscripted window _ pos base

/-- Folding the operators behind a term echoes itself. -/
theorem merge (fuel pos : Nat) (left : Value) :
    Exec.Echoes respells shifts (Reads shift) (low.merge near fuel pos left)
      (low.merge far fuel (shift + pos) left) := by
  induction fuel generalizing pos left with
  | zero => exact .starved
  | succ fuel ih =>
    -- An operator, applied to the value so far and the term after it.
    have joined {token : Token} (found : near.token? pos = some token)
        (notFunc : token.kind ≠ .kwFunc) (result : Value → Exec Value)
        (blind : ∀ right, Exec.Echoes respells shifts Eq (result right) (result right)) :
        Exec.Echoes respells shifts (Reads shift) (low.joined near fuel pos result)
          (low.joined far fuel (shift + pos) result) := by
      refine .bind (echoes.term window (window.next found notFunc)) ?_
      rintro ⟨right, pos⟩ _ rfl
      exact .andThen (blind right) fun value => ih pos value
    unfold Engine.merge
    rcases window.token pos with ⟨missing, missing'⟩ | ⟨token, other, found, found', same⟩
    · rw [missing, missing']
      exact .pure rfl
    · rw [found, found']
      dsimp only
      rw [same.kind, same.line]
      split
      · rename_i kind
        rw [same.eq_of_isVerbatim (by rw [kind]; rfl) (by simp [kind])]
        split
        · exact .failAt window pos (.refl _)
        · exact joined found (by simp [kind])
            (fun right => Exec.ofExcept (Value.combine token.lexeme left right token.line))
            fun _ => .handles (.combine trivial _ _ _)
      · rename_i kind
        exact joined found (by simp [kind])
          (fun right => pure (.bool (left.asBool && right.asBool))) fun _ => .pure rfl
      · rename_i kind
        exact joined found (by simp [kind])
          (fun right => pure (.bool (left.asBool || right.asBool))) fun _ => .pure rfl
      · split
        · exact .pure rfl
        · exact .failAt window pos
            (same.cause (fun token => .afterValue token.display) fun _ _ => rfl)

/-- The expression at a position. -/
theorem evalValue (here : near.ShowsAt respells False shift far pos) :
    Exec.Echoes respells shifts (Reads shift) (low.evalValue near pos)
      (low.evalValue far (shift + pos)) := by
  refine .bind (echoes.term window here) ?_
  rintro ⟨first, pos⟩ _ rfl
  exact echoes.merge window _ pos first

/-! ### Declarations and assignments -/

/-- Reading subscripts from a position on echoes itself. -/
theorem subscriptsFrom (fuel pos : Nat) (values : List Value) :
    Exec.Echoes respells shifts (Reads shift) (low.subscriptsFrom near fuel pos values)
      (low.subscriptsFrom far fuel (shift + pos) values) := by
  induction fuel generalizing pos values with
  | zero => exact .starved
  | succ fuel ih =>
    unfold Engine.subscriptsFrom
    rw [window.hasKind, Nat.add_assoc, window.hasKind]
    split
    · rename_i opens
      split
      · exact .pure rfl
      · refine .bind (echoes.value window (window.behind opens (by decide))) ?_
        rintro ⟨value, pos⟩ _ rfl
        exact .bind (.expect window pos _ _) fun _ _ _ => ih (pos + 1) _
    · exact .pure rfl

/-- Reading subscripts echoes itself. -/
theorem subscripts (pos : Nat) :
    Exec.Echoes respells shifts (Reads shift) (low.subscripts near pos)
      (low.subscripts far (shift + pos)) := echoes.subscriptsFrom window low.fuel pos []

/-- Reading an initialiser echoes itself. -/
theorem initialiser (pos : Nat) :
    Exec.Echoes respells shifts (Reads shift) (low.initialiser near pos)
      (low.initialiser far (shift + pos)) := by
  unfold Engine.initialiser
  rw [window.hasOperator]
  split
  · rename_i equals
    exact .bind (echoes.value window (window.behindOperator equals)) fun _ _ same =>
      same ▸ .pure rfl
  · exact .pure rfl

/-- Declaring one variable echoes itself. -/
theorem declareOne (pos : Nat) (modifiers : Modifiers) :
    Exec.Echoes respells shifts (Stops shift) (low.declareOne near modifiers pos)
      (low.declareOne far modifiers (shift + pos)) := by
  unfold Engine.declareOne
  refine .bind (.expect window pos _ _) fun token other same => ?_
  have name := NameRenders.ofToken same
  refine .bind (echoes.subscripts window (pos + 1)) ?_
  rintro ⟨subscripts, pos⟩ _ rfl
  refine .bind (echoes.initialiser window pos) ?_
  rintro ⟨initial, pos⟩ _ rfl
  dsimp only
  rw [same.line]
  split
  · exact .fail (name.cause _ fun _ _ => rfl) _
  · refine .get fun machine last renders => ?_
    rw [renders.declaredStatic same.name]
    split
    · exact .pure rfl
    · refine .andThen (.handles (.declaredValue same.names _ _)) fun _ => ?_
      exact .andThen (.declareVariable _ name _ _) fun _ => .pure rfl

/-- Declaring the variables of a list echoes itself. -/
theorem declareEach (modifiers : Modifiers) (fuel pos : Nat) :
    Exec.Echoes respells shifts (Stops shift) (low.declareEach near modifiers fuel pos)
      (low.declareEach far modifiers fuel (shift + pos)) := by
  induction fuel generalizing pos with
  | zero => exact .starved
  | succ fuel ih =>
    unfold Engine.declareEach
    refine .bind (echoes.declareOne window pos modifiers) ?_
    rintro pos _ rfl
    rw [window.hasKind]
    split
    · exact ih (pos + 1)
    · exact .pure rfl

/-- Enumerating constants echoes itself. -/
theorem enumerateEach (target : DeclScope) (fuel pos : Nat) (count : Int64) :
    Exec.Echoes respells shifts (Stops shift) (low.enumerateEach near target fuel pos count)
      (low.enumerateEach far target fuel (shift + pos) count) := by
  induction fuel generalizing pos count with
  | zero => exact .starved
  | succ fuel ih =>
    unfold Engine.enumerateEach
    refine .bind (.expect window pos _ _) fun token other same => ?_
    refine .bind (echoes.initialiser window (pos + 1)) ?_
    rintro ⟨given, pos⟩ _ rfl
    dsimp only
    refine .andThen (.declareVariable _ (.ofToken same) _ _) fun _ => ?_
    rw [window.hasKind]
    split
    · exact ih (pos + 1) _
    · exact .pure rfl

/-- An enumeration echoes itself. -/
theorem enumeration (target : DeclScope) (pos : Nat) :
    Exec.Echoes respells shifts (Stops shift) (low.enumeration near target pos)
      (low.enumeration far target (shift + pos)) := by
  unfold Engine.enumeration
  rw [window.hasKind]
  split
  · exact .failAt window pos (.refl _)
  · exact echoes.enumerateEach window _ _ pos _

/-- One assignment echoes itself. -/
theorem assignOne (pos : Nat) :
    Exec.Echoes respells shifts (Stops shift) (low.assignOne near pos)
      (low.assignOne far (shift + pos)) := by
  unfold Engine.assignOne
  refine .bind (.expect window pos _ _) fun token other same => ?_
  refine .bind (echoes.subscripts window (pos + 1)) ?_
  rintro ⟨subscripts, pos⟩ _ rfl
  dsimp only
  rw [window.assignment?]
  split
  · rename_i operator assigns
    split
    · exact .failAt window (pos + 1) ((NameRenders.ofToken same).cause _ fun _ _ => rfl)
    · refine .bind (echoes.value window (window.behindAssignment assigns)) ?_
      rintro ⟨given, pos⟩ _ rfl
      refine .andThen (.handles ?_) fun _ => .pure rfl
      exact .assignTo same.names trivial (fun _ => trivial) (window.permits _) _ _ _
  · exact .andThen (.handles (.introduce same.names trivial _)) fun _ => .pure rfl

/-- The assignments of a list echo themselves. -/
theorem assignEach (fuel pos : Nat) :
    Exec.Echoes respells shifts (Stops shift) (low.assignEach near fuel pos)
      (low.assignEach far fuel (shift + pos)) := by
  induction fuel generalizing pos with
  | zero => exact .starved
  | succ fuel ih =>
    unfold Engine.assignEach
    refine .bind (echoes.assignOne window pos) ?_
    rintro pos _ rfl
    rw [window.hasKind]
    split
    · exact ih (pos + 1)
    · exact .pure rfl

/-- Resizing a variable echoes itself. -/
theorem resizing (pos : Nat) :
    Exec.Echoes respells shifts (Stops shift) (low.resizing near pos)
      (low.resizing far (shift + pos)) := by
  unfold Engine.resizing
  refine .bind (.expect window (pos + 1) _ _) fun token other same => ?_
  refine .bind (echoes.subscripts window (pos + 2)) ?_
  rintro ⟨subscripts, last⟩ _ rfl
  dsimp only
  split
  · exact .andThen (.handles (.resize same.names trivial _ _)) fun _ => .pure rfl
  · exact .failAt window last ((NameRenders.ofToken same).cause _ fun _ _ => rfl)

end Windows

/-- A declaration echoes itself. -/
theorem declaration (copies : near.Copies respells shift far) (pos : Nat) :
    Exec.Echoes respells shifts (Stops shift) (low.declaration near pos)
      (low.declaration far (shift + pos)) := by
  have words := (copies.kinds.of_kinds (fun token => token.kind != .kwScope)
    fun _ _ kind => by rw [kind]).seek (Nat.le_refl _) pos
  unfold Engine.declaration
  dsimp only
  rw [copies.stop, words, copies.renders.hasKind, copies.extract_words]
  split
  · exact echoes.enumeration copies.renders _ _
  · exact echoes.declareEach copies.renders _ _ _

end Echoes

end Engine

end LineScript
