import LineScript.Proofs.Expression.Refinement
import LineScript.Proofs.Outcome

/-!
# What is read

Elements and variables are found or not, and finding them changes nothing (`Exec.Finds`). Where a token
stands in a source shows in faults only, so the same text at another place has the same value
(`Expr.succeeds`).
-/

namespace LineScript

open Machine

/-! ## Reading elements -/

namespace Machine

variable {machine after : Machine}

/-- The element that a key selects from a value. -/
def element? (machine : Machine) (base key : Value) : Option Value :=
  match base with
  | .handle id =>
    match machine.heap.get? id with
    | some (.array items) => (position? items key.asInt).bind (items[·]?)
    | some (.map entries) => entries.get? key.display
    | _ => none
  | _ => none

/-- The value at the end of a path of keys. -/
def descend? (machine : Machine) (base : Value) : List Value → Option Value
  | [] => some base
  | key :: keys => (machine.element? base key).bind fun element => machine.descend? element keys

/-- Descending along two paths is descending along the first and then along the second. -/
theorem descend?_append (base : Value) (path keys : List Value) :
    machine.descend? base (path ++ keys) =
      (machine.descend? base path).bind fun element => machine.descend? element keys := by
  induction path generalizing base with
  | nil => rfl
  | cons key path ih => simp only [List.cons_append, descend?, Option.bind_assoc, ih]

end Machine

namespace Exec

variable {α β : Type} {machine : Machine}

/-- An action that changes nothing and returns a value if there is one, or stops. -/
def Finds (action : Exec α) (machine : Machine) : Option α → Prop
  | some value => action machine = .ok value machine
  | none => ∃ stop, action machine = .error stop machine

namespace Finds

/-- Returning a value finds it. -/
theorem pure (value : α) : Finds (Pure.pure value) machine (some value) := rfl

/-- A failure finds nothing. -/
theorem fail (cause : RunCause) (line : Nat) : Finds (Exec.fail cause line : Exec α) machine none :=
  ⟨_, rfl⟩

/-- A sequence finds what its second part finds for the value of its first. -/
theorem bind {action : Exec α} {next : α → Exec β} {found : Option α} {rest : α → Option β}
    (first : Finds action machine found) (later : ∀ value, Finds (next value) machine (rest value)) :
    Finds (action >>= next) machine (found.bind rest) := by
  cases found with
  | none =>
    obtain ⟨stop, stopped⟩ := first
    exact ⟨stop, by simp only [Bind.bind, EStateM.bind, stopped]⟩
  | some value =>
    have found := later value
    change action machine = .ok value machine at first
    have same : (action >>= next) machine = next value machine := by
      simp only [Bind.bind, EStateM.bind, first]
    rw [Option.bind_some]
    unfold Finds at found ⊢
    rwa [same]

/-- An action that looks at the machine first. -/
theorem look {next : Machine → Exec α} {found : Option α} (later : Finds (next machine) machine found) :
    Finds (get >>= next) machine found := later

/-- After a value was found, the rest goes on with it. -/
theorem then_eq {action : Exec α} {value : α} (finds : Finds action machine (some value))
    (next : α → Exec β) : (action >>= next) machine = next value machine := by
  change action machine = .ok value machine at finds
  simp only [Bind.bind, EStateM.bind, finds]

/-- After an action that finds a value, the rest finds what it finds for that value. -/
theorem after {action : Exec α} {value : α} (finds : Finds action machine (some value))
    {next : α → Exec β} {found : Option β} (later : Finds (next value) machine found) :
    Finds (action >>= next) machine found := by
  unfold Finds at later ⊢
  rwa [finds.then_eq]

/-- Where nothing is found, nothing is returned. -/
theorem then_ne {action : Exec α} (finds : Finds action machine none) (next : α → Exec β) (value : β)
    (after : Machine) : (action >>= next) machine ≠ .ok value after := by
  obtain ⟨stop, stopped⟩ := finds
  simp [Bind.bind, EStateM.bind, stopped]

/-- What is found is what is returned. -/
theorem eq_ok_iff {action : Exec α} {found : Option α} (finds : Finds action machine found)
    {value : α} {after : Machine} :
    action machine = .ok value after ↔ found = some value ∧ after = machine := by
  cases found with
  | none =>
    obtain ⟨stop, stopped⟩ := finds
    simp [stopped]
  | some other =>
    change action machine = .ok other machine at finds
    simp [finds, eq_comm]

end Finds

end Exec

open Exec

/-- Reading a variable finds its value. -/
theorem variableValue_finds (machine : Machine) (token : Token) :
    Finds (variableValue token) machine (machine.varValue? token.lexeme) := by
  refine .look ?_
  cases machine.varValue? token.lexeme with
  | none => exact .fail _ _
  | some value => exact .pure value

/-- Reading a macro finds its value. -/
theorem macroValue_finds (machine : Machine) (name : String) (line : Nat) :
    Finds (macroValue name line) machine (machine.macroValue? (Text.lower name)) := by
  refine .look ?_
  cases machine.macroValue? (Text.lower name) with
  | none => exact .fail _ _
  | some value => exact .pure value

/-- The error for a handle that is not live finds nothing. -/
theorem notLive_finds {α : Type} (machine : Machine) (kind : String) (id : HandleId) :
    Finds (notLive kind id : Exec α) machine none := ⟨_, rfl⟩

/-- The line before a token is always found. -/
theorem lineBefore_finds (machine : Machine) (next : Option Token) :
    ∃ line, Finds (Expression.lineBefore next) machine (some line) := by
  cases next with
  | none => exact ⟨_, rfl⟩
  | some token =>
    unfold Expression.lineBefore
    dsimp only
    split
    · exact ⟨_, rfl⟩
    · exact ⟨_, rfl⟩

/-- Selecting an element finds the element. -/
theorem Expression.select_finds (machine : Machine) (next : Option Token) (base key : Value) :
    Finds (Expression.select next base key) machine (machine.element? base key) := by
  cases base with
  | handle id =>
    refine .look ?_
    dsimp only [element?]
    cases stored : machine.heap.get? id with
    | none => exact notLive_finds _ _ _
    | some object =>
      cases object with
      | file | timer => exact notLive_finds _ _ _
      | array items =>
        refine .look ?_
        rw [stored]
        dsimp only
        cases (position? items key.asInt).bind (items[·]?) with
        | none => exact .fail _ _
        | some value => exact .pure value
      | map entries =>
        refine .look ?_
        rw [stored]
        dsimp only
        cases entries.get? key.display with
        | none => exact .fail _ _
        | some value => exact .pure value
  | _ =>
    obtain ⟨line, found⟩ := lineBefore_finds machine next
    exact found.bind fun line => .fail _ line

/-- Descending along keys finds the element they lead to. -/
theorem descend_finds (machine : Machine) (window : Window) (pos : Nat) (base : Value)
    (keys : List Value) : Finds (descend window pos base keys) machine (machine.descend? base keys) := by
  induction keys generalizing base with
  | nil => exact .pure base
  | cons key keys ih =>
    unfold descend
    rw [element_eq]
    exact (Expression.select_finds machine _ base key).bind ih

/-- The outcome of a pure computation finds its value. -/
theorem ofExcept_finds {α : Type} (machine : Machine) (outcome : Except Fault α) :
    Finds (Exec.ofExcept outcome) machine outcome.toOption := by
  cases outcome with
  | ok value => exact .pure value
  | error fault => exact ⟨_, rfl⟩

namespace Value

/-- Whether arithmetic on doubles succeeds, and with what, does not depend on the line. -/
theorem floatArithmetic_line (operator : String) (a b : Float) (line other : Nat) :
    (floatArithmetic operator a b line).toOption = (floatArithmetic operator a b other).toOption := by
  unfold floatArithmetic
  split
  case h_4 => split <;> rfl
  all_goals rfl

/-- Whether arithmetic succeeds, and with what, does not depend on the line. -/
theorem arithmetic_line (operator : String) (left right : Value) (line other : Nat) :
    (arithmetic operator left right line).toOption = (arithmetic operator left right other).toOption := by
  unfold arithmetic
  split
  · split
    · rfl
    · exact floatArithmetic_line _ _ _ _ _
  · exact floatArithmetic_line _ _ _ _ _

/-- An operator finds the same value at any line. -/
theorem combine_line (operator : String) (left right : Value) (line other : Nat) :
    (combine operator left right line).toOption = (combine operator left right other).toOption := by
  unfold combine
  split
  case h_2 | h_3 | h_4 | h_5 => exact arithmetic_line _ _ _ _ _
  all_goals rfl

end Value

namespace Structured

/-- The word without its place in a source. -/
def Word.unplaced {kind : TokenKind} (word : Word kind) : Word kind :=
  ⟨{ word.token with line := 0, col := 0 }, word.isKind⟩

end Structured

namespace Exec

/-- Two actions that succeed alike, whatever faults they have. -/
def SucceedsAs {α : Type} (left right : Exec α) : Prop :=
  ∀ machine value after, left machine = .ok value after ↔ right machine = .ok value after

namespace SucceedsAs

variable {α β : Type}

/-- Every action succeeds as itself. -/
theorem refl (action : Exec α) : action.SucceedsAs action := fun _ _ _ => .rfl

/-- Sequences of actions that succeed alike succeed alike. -/
theorem bind {left right : Exec α} {next other : α → Exec β} (first : left.SucceedsAs right)
    (rest : ∀ value, (next value).SucceedsAs (other value)) :
    (left >>= next).SucceedsAs (right >>= other) := by
  intro machine value after
  rw [run_bind_eq_ok, run_bind_eq_ok]
  exact exists_congr fun found => exists_congr fun middle =>
    and_congr (first machine found middle) (rest found middle value after)

/-- Actions that succeed alike for every machine do so after reading the machine. -/
theorem get {next other : Machine → Exec α} (rest : ∀ machine, (next machine).SucceedsAs (other machine)) :
    (MonadState.get >>= next).SucceedsAs (MonadState.get >>= other) :=
  bind (refl _) rest

/-- Failures succeed alike, whatever their lines. -/
theorem fail (cause : RunCause) (line other : Nat) :
    SucceedsAs (Exec.fail cause line : Exec α) (Exec.fail cause other) :=
  fun _ _ _ => iff_of_false nofun nofun

/-- Actions that find what is there on every machine succeed alike. -/
theorem of_finds {left right : Exec α} {found : Machine → Option α}
    (first : ∀ machine, left.Finds machine (found machine))
    (second : ∀ machine, right.Finds machine (found machine)) : left.SucceedsAs right := by
  intro machine value after
  rw [(first machine).eq_ok_iff, (second machine).eq_ok_iff]

end SucceedsAs

end Exec

namespace Expression

/-! ## The same text at another place -/

/-- The operator without its place. -/
def Operator.unplaced : Operator → Operator
  | .signs word binary => .signs word.unplaced binary
  | .and word => .and word.unplaced
  | .or word => .or word.unplaced

/-- The sign without its place. -/
def Sign.unplaced : Sign → Sign
  | .minus word is => .minus word.unplaced is
  | .plus word is => .plus word.unplaced is
  | .not word => .not word.unplaced

/-- The leaf without its place. -/
def Leaf.unplaced : Leaf → Leaf
  | .text word => .text word.unplaced
  | .whole word => .whole word.unplaced
  | .fraction word => .fraction word.unplaced
  | .truth word => .truth word.unplaced
  | .bytes word => .bytes word.unplaced
  | .null word => .null word.unplaced
  | .default word => .default word.unplaced
  | .macroName word => .macroName word.unplaced
  | .variableName word => .variableName word.unplaced
  | .call id word => .call id word.unplaced
  | .userCall id word => .userCall id word.unplaced
  | .name word => .name word.unplaced

mutual

/-- The expression without the places of its tokens. -/
def Expr.unplaced : Expr → Expr
  | .mk first rest => .mk first.unplaced rest.unplaced

/-- The operators with a term each without their places. -/
def Tail.unplaced : Tail → Tail
  | .done => .done
  | .more operator term rest => .more operator.unplaced term.unplaced rest.unplaced

/-- The term without the places of its tokens. -/
def Term.unplaced : Term → Term
  | .signed sign operand => .signed sign.unplaced operand.unplaced
  | .selected atom chain => .selected atom.unplaced chain.unplaced

/-- The subscripts without the places of their tokens. -/
def Chain.unplaced : Chain → Chain
  | .done => .done
  | .more opener key closer rest =>
    .more opener.unplaced key.unplaced closer.unplaced rest.unplaced

/-- The atom without the places of its tokens. -/
def Atom.unplaced : Atom → Atom
  | .leaf leaf => .leaf leaf.unplaced
  | .group opener inner closer => .group opener.unplaced inner.unplaced closer.unplaced
  | .nothing opener closer => .nothing opener.unplaced closer.unplaced
  | .array opener first rest closer =>
    .array opener.unplaced first.unplaced rest.unplaced closer.unplaced

/-- The further elements without the places of their tokens. -/
def Items.unplaced : Items → Items
  | .done => .done
  | .more comma item rest => .more comma.unplaced item.unplaced rest.unplaced

end

/-- An operator succeeds alike wherever it stands. -/
theorem Operator.succeeds (operator : Operator) (left right : Value) :
    (operator.apply left right).SucceedsAs (operator.unplaced.apply left right) := by
  cases operator with
  | signs word binary =>
    refine .of_finds (fun machine => ofExcept_finds machine _) fun machine => ?_
    rw [Value.combine_line word.token.lexeme left right word.token.line 0]
    exact ofExcept_finds machine _
  | and word | or word => exact .refl _

/-- A sign acts alike wherever it stands. -/
theorem Sign.apply_unplaced (sign : Sign) (operand : Value) :
    sign.unplaced.apply operand = sign.apply operand := by
  cases sign <;> rfl

/-- A leaf succeeds alike wherever it stands. -/
theorem Leaf.succeeds (leaf : Leaf) (low : Engine) (next other : Option Token) :
    (leaf.value low next).SucceedsAs (leaf.unplaced.value low other) := by
  have calls : ∀ id, (made low next id).SucceedsAs (made low other id) := by
    intro id
    refine .get fun machine => ?_
    split
    · exact .refl _
    · intro machine value after
      obtain ⟨_, first⟩ := lineBefore_finds machine next
      obtain ⟨_, second⟩ := lineBefore_finds machine other
      simp only [first.then_eq, second.then_eq]
      exact SucceedsAs.fail _ _ _ machine value after
  cases leaf with
  | call id word | userCall id word => exact calls id
  | variableName word =>
    exact .of_finds (fun machine => variableValue_finds machine _) fun machine =>
      variableValue_finds machine word.unplaced.token
  | macroName word =>
    exact .of_finds (fun machine => macroValue_finds machine _ _) fun machine =>
      macroValue_finds machine word.unplaced.token.lexeme _
  | bytes word =>
    simp only [unplaced, Structured.Word.unplaced, value]
    cases Text.Hex.decode? word.token.lexeme with
    | none => exact .fail _ _ _
    | some decoded => exact .refl _
  | _ => exact .refl _

/-- Selecting an element succeeds alike whatever follows. -/
theorem select_succeeds (next other : Option Token) (base key : Value) :
    (select next base key).SucceedsAs (select other base key) :=
  .of_finds (fun machine => select_finds machine next base key) fun machine =>
    select_finds machine other base key

mutual

/-- An expression succeeds alike wherever it stands. -/
theorem Expr.succeeds (tree : Expr) (low : Engine) (next other : Option Token) :
    (tree.value low next).SucceedsAs (tree.unplaced.value low other) := by
  match tree with
  | .mk first rest =>
    exact (first.succeeds low _ _).bind fun left => rest.succeeds low _ _ left

/-- A tail of operators succeeds alike wherever it stands. -/
theorem Tail.succeeds (rest : Tail) (low : Engine) (next other : Option Token) (left : Value) :
    (rest.fold low next left).SucceedsAs (rest.unplaced.fold low other left) := by
  match rest with
  | .done => exact .refl _
  | .more operator term rest =>
    exact (term.succeeds low _ _).bind fun right => (operator.succeeds left right).bind fun result =>
      rest.succeeds low _ _ result

/-- A term succeeds alike wherever it stands. -/
theorem Term.succeeds (term : Term) (low : Engine) (next other : Option Token) :
    (term.value low next).SucceedsAs (term.unplaced.value low other) := by
  match term with
  | .signed sign operand =>
    simp only [Term.unplaced, Term.value, Sign.apply_unplaced]
    exact (operand.succeeds low next other).bind fun _ => .refl _
  | .selected atom chain =>
    exact (atom.succeeds low _ _).bind fun base => chain.succeeds low next other base

/-- A chain of subscripts succeeds alike wherever it stands. -/
theorem Chain.succeeds (chain : Chain) (low : Engine) (next other : Option Token) (base : Value) :
    (chain.select low next base).SucceedsAs (chain.unplaced.select low other base) := by
  match chain with
  | .done => exact .refl _
  | .more opener key closer rest =>
    exact (key.succeeds low _ _).bind fun key => (select_succeeds _ _ base key).bind fun element =>
      rest.succeeds low next other element

/-- An atom succeeds alike wherever it stands. -/
theorem Atom.succeeds (atom : Atom) (low : Engine) (next other : Option Token) :
    (atom.value low next).SucceedsAs (atom.unplaced.value low other) := by
  match atom with
  | .leaf leaf => exact leaf.succeeds low next other
  | .group opener inner closer => exact inner.succeeds low _ _
  | .nothing opener closer => exact .refl _
  | .array opener first rest closer =>
    exact (first.succeeds low _ _).bind fun item => rest.succeeds low _ _ #[item]

/-- The items of an array literal succeed alike wherever they stand. -/
theorem Items.succeeds (rest : Items) (low : Engine) (closer last : Token) (items : Array Value) :
    (rest.collect low closer items).SucceedsAs (rest.unplaced.collect low last items) := by
  match rest with
  | .done => exact .refl _
  | .more comma item rest =>
    exact (item.succeeds low _ _).bind fun item => rest.succeeds low closer last (items.push item)

end

end Expression

end LineScript
