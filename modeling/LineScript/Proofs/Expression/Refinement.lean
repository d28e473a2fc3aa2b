import LineScript.Proofs.Custody.Engine
import LineScript.Proofs.Expression.Tree

/-!
# Evaluating tokens is evaluating the tree

Where the tokens of a tree stand in a window, before a token that ends an expression or before the
window's end, the evaluator reads exactly these tokens and does what the tree means. The two differ
in the fuel they need: the evaluator takes some for every token it reads, the tree only for calls.
-/

namespace LineScript

open Exec

/-- A list of tokens stands at a position of a window. -/
def Window.Shows (window : Window) : Nat → List Token → Prop
  | _, [] => True
  | pos, token :: rest => window.token? pos = some token ∧ window.Shows (pos + 1) rest

namespace Window

variable {window : Window} {pos : Nat}

/-- Every window shows no tokens. -/
@[simp] theorem shows_nil : window.Shows pos [] ↔ True := .rfl

/-- A window shows a token and others when the token stands there and the others behind it. -/
@[simp] theorem shows_cons {token : Token} {rest : List Token} :
    window.Shows pos (token :: rest) ↔
      window.token? pos = some token ∧ window.Shows (pos + 1) rest := .rfl

/-- A window shows two runs of tokens when it shows the second behind the first. -/
@[simp] theorem shows_append {first rest : List Token} :
    window.Shows pos (first ++ rest) ↔
      window.Shows pos first ∧ window.Shows (pos + first.length) rest := by
  induction first generalizing pos with
  | nil => simp
  | cons token first ih =>
    simp only [List.cons_append, shows_cons, ih, List.length_cons, and_assoc]
    rw [show pos + 1 + first.length = pos + (first.length + 1) by omega]

/-- A run of tokens shows each of its stretches where it stands. -/
theorem shows_whole (before tokens behind : List Token) :
    (Window.whole (before ++ (tokens ++ behind)).toArray).Shows before.length tokens := by
  induction tokens generalizing before with
  | nil => trivial
  | cons token tokens ih =>
    refine ⟨by simp [Window.token?, Window.whole], ?_⟩
    simpa using ih (before ++ [token])

/-- The token at which a list begins, or the one after it. -/
theorem Shows.ahead {tokens : List Token} {next : Option Token} (shown : window.Shows pos tokens)
    (after : window.token? (pos + tokens.length) = next) :
    window.token? pos = Expression.ahead tokens next := by
  cases tokens with
  | nil => exact after
  | cons token rest => exact shown.1

end Window

namespace Exec

variable {α β : Type} {may enough : Prop}

/-- The value of an action, with a position. -/
def upTo (action : Exec Value) (pos : Nat) : Exec (Value × Nat) := do
  return (← action, pos)

/-- The end of a sequence is put behind its last part. -/
theorem bind_upTo (action : Exec α) (next : α → Exec Value) (pos : Nat) :
    (action >>= next).upTo pos = action >>= fun value => (next value).upTo pos := by
  simp [upTo]

/-- What follows a part whose value is put differently. -/
theorem Agrees.mapped {γ : Type} {left : Exec γ}
    {right : Exec α} {put : α → γ} {next : γ → Exec β} {other : α → Exec β}
    (first : Agrees may enough left (right >>= fun value => pure (put value)))
    (rest : ∀ value, Agrees may enough (next (put value)) (other value)) :
    Agrees may enough (left >>= next) (right >>= other) := by
  refine (first.bind fun result => .refl (next result)).trans ?_
  simp only [bind_assoc, pure_bind]
  exact (Agrees.refl right).bind rest

/-- What follows a part that was read up to a position. -/
theorem Agrees.andThen {left : Exec (Value × Nat)} {right : Exec Value} {pos : Nat}
    {next : Value × Nat → Exec β} {other : Value → Exec β}
    (first : Agrees may enough left (right.upTo pos))
    (rest : ∀ value, Agrees may enough (next (value, pos)) (other value)) :
    Agrees may enough (left >>= next) (right >>= other) :=
  first.mapped rest

/-- Expecting a word that stands there gives its token. -/
theorem expect_eq {window : Window} {pos : Nat} {kind : TokenKind} (word : Structured.Word kind)
    (found : window.token? pos = some word.token) (wanted : String) :
    Exec.expect window pos kind wanted = pure word.token := by
  unfold Exec.expect
  rw [found]
  exact if_pos word.isKind

end Exec

/-- Reading an element is selecting it, with the token that follows. -/
theorem element_eq (window : Window) (pos : Nat) (base key : Value) :
    element window pos base key = Expression.select (window.token? pos) base key := by
  cases base <;> rfl

/-- Reading a call site is making the call, with the token that follows. -/
theorem Engine.callSite_eq (low : Engine) (window : Window) (pos id : Nat) :
    low.callSite window pos id = Expression.made low (window.token? pos) id := rfl

namespace Expression

variable {next : Option Token}

/-- What comes next does not go on with subscripts. -/
def NoSubscript (next : Option Token) : Prop := ∀ token ∈ next, token.kind ≠ .lbracket

/-- What comes next ends an expression. -/
def Ends (next : Option Token) : Prop := ∀ token ∈ next, token.kind.endsExpression = true

/-- No subscript follows where an expression ends. -/
theorem Ends.noSubscript (ends : Ends next) : NoSubscript next := by
  intro token is bracket
  have ended := ends token is
  rw [bracket] at ended
  cases ended

/-- A word other than an opening bracket is no subscript. -/
theorem noSubscript_word {kind : TokenKind} (word : Structured.Word kind) (other : kind ≠ .lbracket) :
    NoSubscript (some word.token) := by
  rintro token ⟨⟩
  rw [word.isKind]
  exact other

/-- A word that ends expressions ends one. -/
theorem ends_word {kind : TokenKind} (word : Structured.Word kind)
    (ends : kind.endsExpression = true) : Ends (some word.token) := by
  rintro token ⟨⟩
  rw [word.isKind]
  exact ends

/-- No subscript follows the operand before a tail. -/
theorem Tail.noSubscript (rest : Tail) (ends : Ends next) : NoSubscript (ahead rest.render next) := by
  cases rest with
  | done => exact ends.noSubscript
  | more operator term rest =>
    cases operator with
    | signs word | and word | or word => exact noSubscript_word word (by decide)

/-- Each item ends where the next one or the closing bracket stands. -/
theorem Items.ends (rest : Items) (ends : Ends next) : Ends (ahead rest.render next) := by
  cases rest with
  | done => exact ends
  | more comma item rest => exact ends_word comma rfl

/-- An atom starts with a token that is no closing bracket. -/
theorem Atom.begins (atom : Atom) :
    ∃ token rest, atom.render = token :: rest ∧ token.kind ≠ .rbracket := by
  cases atom with
  | leaf leaf =>
    refine ⟨leaf.token, [], rfl, ?_⟩
    cases leaf with
    | call id word | userCall id word | _ word =>
      intro bracket
      exact nomatch word.isKind.symm.trans bracket
  | group word | nothing word | array word =>
    refine ⟨word.token, _, rfl, ?_⟩
    intro bracket
    exact nomatch word.isKind.symm.trans bracket

/-- A term starts with a token that is no closing bracket. -/
theorem Term.begins (term : Term) :
    ∃ token rest, term.render = token :: rest ∧ token.kind ≠ .rbracket := by
  cases term with
  | signed sign operand =>
    refine ⟨sign.token, operand.render, rfl, ?_⟩
    cases sign with
    | minus word | plus word | not word =>
      intro bracket
      exact nomatch word.isKind.symm.trans bracket
  | selected atom chain =>
    obtain ⟨token, rest, render, other⟩ := atom.begins
    exact ⟨token, rest ++ chain.render, by simp [render], other⟩

/-- An expression has a first token, which closes nothing. -/
theorem Expr.begins (tree : Expr) :
    ∃ token rest, tree.render = token :: rest ∧ token.kind ≠ .rbracket := by
  cases tree with
  | mk first tail =>
    obtain ⟨token, rest, render, other⟩ := first.begins
    exact ⟨token, rest ++ tail.render, by simp [render], other⟩

/-- A sign applies to the term after it. -/
theorem Sign.atom_eq (sign : Sign) (low : Engine) (window : Window) (pos : Nat) :
    low.atom window sign.token pos = low.term window pos >>= fun result =>
      pure (sign.apply result.1, result.2) := by
  unfold Engine.atom
  cases sign with
  | minus word is | plus word is =>
    rw [Sign.token, word.isKind, is]
    rfl
  | not word =>
    rw [Sign.token, word.isKind]
    rfl

/-- A term of a single token. -/
theorem Leaf.agrees (leaf : Leaf) (fuel more : Nat) {window : Window} {pos : Nat}
    (after : window.token? pos = next) :
    Agrees (fuel ≤ more) (more ≤ fuel) ((engine fuel).atom window leaf.token pos)
      ((leaf.value (engine more) next).upTo pos) := by
  have calls : ∀ {fuel more : Nat} (id : Nat), fuel ≤ more →
      ((engine fuel).callSite window pos id).Below ((engine more).callSite window pos id) :=
    fun id le => .of_does fun start => (Custody.engine_pairs le start).callSite window pos id
  unfold Engine.atom
  cases leaf with
  | call id word | userCall id word =>
    rw [Leaf.token, word.isKind, Leaf.value, ← after, ← Engine.callSite_eq]
    exact .bind ⟨calls id, calls id⟩ fun _ => .refl _
  | bytes word =>
    rw [Leaf.token, word.isKind, Leaf.value]
    dsimp only
    cases Text.Hex.decode? word.token.lexeme with
    | none | some decoded => exact .refl _
  | _ word =>
    rw [Leaf.token, word.isKind]
    exact .refl _

/-- Where no subscript follows, a value is left as it is. -/
theorem subscripted_agrees {may : Prop} (fuel rounds : Nat) (base : Value) {window : Window}
    {pos : Nat} (after : window.token? pos = next) (behind : NoSubscript next) :
    Agrees may (0 < rounds) ((engine fuel).subscripted window rounds pos base)
      ((pure base : Exec Value).upTo pos) := by
  cases rounds with
  | zero => exact .starved (Nat.lt_irrefl 0)
  | succ rounds =>
    have none : window.hasKind pos .lbracket = false := by
      unfold Window.hasKind
      rw [after]
      cases next with
      | none => rfl
      | some token => exact beq_false_of_ne (behind token rfl)
    unfold Engine.subscripted
    rw [none]
    exact .refl _

/-- Where an expression ends, the value so far is its value. -/
theorem merge_ended {may : Prop} (fuel rounds : Nat) (left : Value) {window : Window} {pos : Nat}
    (after : window.token? pos = next) (ends : Ends next) :
    Agrees may (0 < rounds) ((engine fuel).merge window rounds pos left)
      ((pure left : Exec Value).upTo pos) := by
  cases rounds with
  | zero => exact .starved (Nat.lt_irrefl 0)
  | succ rounds =>
    unfold Engine.merge
    rw [after]
    cases next with
    | none => exact .refl _
    | some token =>
      have ended := ends token rfl
      dsimp only
      split
      case h_4 => rw [if_pos ended]; exact .refl _
      all_goals
        rename_i kind
        rw [kind] at ended
        cases ended

/-- An operator is applied to the value so far and to the term behind it. -/
theorem Operator.merge_eq (operator : Operator) (low : Engine) (rounds : Nat) (left : Value)
    {window : Window} {pos : Nat} (found : window.token? pos = some operator.token) :
    low.merge window (rounds + 1) pos left = low.term window (pos + 1) >>= fun right =>
      operator.apply left right.1 >>= fun value => low.merge window rounds right.2 value := by
  cases operator with
  | signs word binary =>
    have isKind := word.isKind
    have kept : ¬ (word.token.lexeme ≠ "=" ∧ isAssignment word.token.lexeme) := by
      rintro ⟨different, assigns⟩
      exact binary.elim different (by simp [assigns])
    rw [Engine.merge, show window.token? pos = some word.token from found]
    simp only [isKind]
    rw [if_neg kept]
    rfl
  | and word | or word =>
    have isKind := word.isKind
    rw [Engine.merge, show window.token? pos = some word.token from found]
    simp only [isKind]
    rfl

/-- An array without elements. -/
theorem nothing_eq (opener : Structured.Word .lbracket) (closer : Structured.Word .rbracket)
    (low : Engine) {window : Window} {pos : Nat} (closed : window.token? pos = some closer.token) :
    low.atom window opener.token pos = do
      let value ← Machine.newArray #[]
      return (value, pos + 1) := by
  have closes : window.hasKind pos .rbracket = true := by
    unfold Window.hasKind
    rw [closed]
    exact beq_iff_eq.mpr closer.isKind
  have isKind := opener.isKind
  simp only [Engine.atom, isKind, Engine.arrayLiteral]
  rw [closes, if_pos rfl]

/-- An array whose elements begin with an expression. -/
theorem array_eq (opener : Structured.Word .lbracket) (first : Expr) (low : Engine) {window : Window}
    {pos : Nat} (shown : window.Shows pos first.render) :
    low.atom window opener.token pos = low.arrayItems window low.fuel pos #[] := by
  have opened : window.hasKind pos .rbracket = false := by
    obtain ⟨token, rest, render, other⟩ := first.begins
    rw [render, Window.shows_cons] at shown
    unfold Window.hasKind
    rw [shown.1]
    exact beq_false_of_ne other
  have isKind := opener.isKind
  simp only [Engine.atom, isKind, Engine.arrayLiteral]
  rw [opened, if_neg Bool.false_ne_true]

mutual

/-- An expression reads as its tree with fuel for twice its tokens, and any successful reading is
the tree's. -/
theorem Expr.agrees (tree : Expr) (fuel more : Nat) {window : Window} {pos last : Nat}
    {next : Option Token} (shown : window.Shows pos tree.render)
    (reach : pos + tree.render.length = last) (after : window.token? last = next)
    (ends : Ends next) :
    Agrees (fuel ≤ more) (more + 2 * tree.render.length + 4 ≤ fuel)
      ((engine fuel).value window pos) ((tree.value (engine more) next).upTo last) := by
  match tree with
  | .mk first rest =>
    cases fuel with
    | zero => exact .starved (by omega)
    | succ fuel =>
      simp only [Expr.render, Window.shows_append, List.length_append] at shown reach ⊢
      rw [Expr.value, bind_upTo]
      have restAt := shown.2.ahead (by rw [Nat.add_assoc, reach, after])
      have firstAgrees := Term.agrees first fuel more shown.1 rfl restAt (rest.noSubscript ends)
      refine (firstAgrees.mono Nat.le_of_succ_le (by omega)).andThen fun left => ?_
      refine (Tail.agrees rest fuel more _ left shown.2 (by omega) after ends).mono
        Nat.le_of_succ_le ?_
      rw [engine_fuel]
      omega

/-- A tail of operators folds as its tree does, with enough rounds. -/
theorem Tail.agrees (rest : Tail) (fuel more rounds : Nat) (left : Value) {window : Window}
    {pos last : Nat} {next : Option Token} (shown : window.Shows pos rest.render)
    (reach : pos + rest.render.length = last) (after : window.token? last = next)
    (ends : Ends next) :
    Agrees (fuel ≤ more) (more + 2 * rest.render.length + 1 ≤ fuel ∧ rest.render.length < rounds)
      ((engine fuel).merge window rounds pos left)
      ((rest.fold (engine more) next left).upTo last) := by
  match rest with
  | .done =>
    subst reach
    exact (merge_ended fuel rounds left after ends).mono id (by omega)
  | .more operator term rest =>
    cases rounds with
    | zero => exact .starved (by omega)
    | succ rounds =>
      simp only [Tail.render, Window.shows_cons, Window.shows_append, List.length_cons,
        List.length_append] at shown reach ⊢
      obtain ⟨found, shownTerm, shownRest⟩ := shown
      have restAfter : window.token? (pos + 1 + term.render.length + rest.render.length) = next := by
        rw [← after]
        congr 1
        omega
      have restAt := shownRest.ahead restAfter
      have termAgrees := Term.agrees term fuel more shownTerm rfl restAt (rest.noSubscript ends)
      rw [operator.merge_eq (engine fuel) rounds left found, Tail.fold, bind_upTo]
      refine (termAgrees.mono id (by omega)).andThen fun right => ?_
      rw [bind_upTo]
      refine (Agrees.refl _).bind fun value => ?_
      have restAgrees := Tail.agrees rest fuel more rounds value shownRest (by omega) after ends
      exact restAgrees.mono id (by omega)

/-- A term reads as its tree does. -/
theorem Term.agrees (term : Term) (fuel more : Nat) {window : Window} {pos last : Nat}
    {next : Option Token} (shown : window.Shows pos term.render)
    (reach : pos + term.render.length = last) (after : window.token? last = next)
    (behind : NoSubscript next) :
    Agrees (fuel ≤ more) (more + 2 * term.render.length + 3 ≤ fuel)
      ((engine fuel).term window pos) ((term.value (engine more) next).upTo last) := by
  cases fuel with
  | zero => exact .starved (by omega)
  | succ fuel =>
    show Agrees _ _ ((engine fuel).evalTerm window pos) _
    unfold Engine.evalTerm
    match term with
    | .signed sign operand =>
      simp only [Term.render, Window.shows_cons, List.length_cons] at shown reach ⊢
      have operandAgrees := Term.agrees operand fuel more shown.2 (by omega) after behind
      rw [shown.1, Term.value, bind_upTo]
      dsimp only
      rw [sign.atom_eq, bind_assoc]
      refine (operandAgrees.mono Nat.le_of_succ_le (by omega)).andThen fun value => ?_
      rw [pure_bind]
      -- the operand has taken all subscripts, so none is left for the sign
      refine (subscripted_agrees fuel _ _ after behind).mono id ?_
      rw [engine_fuel]
      omega
    | .selected atom chain =>
      simp only [Term.render, Window.shows_append, List.length_append] at shown reach ⊢
      have chainAfter : window.token? (pos + atom.render.length + chain.render.length) = next := by
        rw [Nat.add_assoc, reach, after]
      obtain ⟨token, found, atomAgrees⟩ :=
        Atom.agrees atom fuel more shown.1 rfl (shown.2.ahead chainAfter)
      rw [found, Term.value, bind_upTo]
      refine (atomAgrees.mono Nat.le_of_succ_le (by omega)).andThen fun base => ?_
      refine (Chain.agrees chain fuel more _ base shown.2 (by omega) after behind).mono
        Nat.le_of_succ_le ?_
      rw [engine_fuel]
      omega

/-- A chain of subscripts selects as its tree does, with enough rounds. -/
theorem Chain.agrees (chain : Chain) (fuel more rounds : Nat) (base : Value) {window : Window}
    {pos last : Nat} {next : Option Token} (shown : window.Shows pos chain.render)
    (reach : pos + chain.render.length = last) (after : window.token? last = next)
    (behind : NoSubscript next) :
    Agrees (fuel ≤ more) (more + 2 * chain.render.length + 2 ≤ fuel ∧ chain.render.length < rounds)
      ((engine fuel).subscripted window rounds pos base)
      ((chain.select (engine more) next base).upTo last) := by
  cases rounds with
  | zero => exact .starved (by omega)
  | succ rounds =>
    match chain with
    | .done =>
      subst reach
      exact (subscripted_agrees fuel _ base after behind).mono id (by omega)
    | .more opener key closer rest =>
      unfold Engine.subscripted
      simp only [Chain.render, Window.shows_cons, Window.shows_append, List.length_cons,
        List.length_append] at shown reach ⊢
      obtain ⟨found, shownKey, closed, shownRest⟩ := shown
      have opens : window.hasKind pos .lbracket = true := by
        unfold Window.hasKind
        rw [found]
        exact beq_iff_eq.mpr opener.isKind
      have restAfter : window.token? (pos + 1 + key.render.length + 1 + rest.render.length) = next := by
        rw [← after]
        congr 1
        omega
      have restAt := shownRest.ahead restAfter
      have keyAgrees := Expr.agrees key fuel more shownKey rfl closed (ends_word closer rfl)
      rw [opens, if_pos rfl, Chain.select, bind_upTo]
      refine (keyAgrees.mono id (by omega)).andThen fun value => ?_
      dsimp only
      rw [expect_eq closer closed, pure_bind, element_eq, restAt, bind_upTo]
      refine (Agrees.refl _).bind fun element => ?_
      exact (Chain.agrees rest fuel more rounds element shownRest (by omega) after behind).mono id
        (by omega)

/-- An atom reads as its tree does. -/
theorem Atom.agrees (atom : Atom) (fuel more : Nat) {window : Window} {pos last : Nat}
    {next : Option Token} (shown : window.Shows pos atom.render)
    (reach : pos + atom.render.length = last) (after : window.token? last = next) :
    ∃ token, window.token? pos = some token ∧
      Agrees (fuel ≤ more) (more + 2 * atom.render.length + 2 ≤ fuel)
        ((engine fuel).atom window token (pos + 1))
        ((atom.value (engine more) next).upTo last) := by
  match atom with
  | .leaf leaf =>
    refine ⟨leaf.token, shown.1, ?_⟩
    subst reach
    exact (leaf.agrees fuel more after).mono id (by omega)
  | .group opener inner closer =>
    simp only [Atom.render, Window.shows_cons, Window.shows_append, List.length_cons,
      List.length_append, List.length_nil] at shown reach ⊢
    obtain ⟨found, shownInner, closed, -⟩ := shown
    refine ⟨opener.token, found, ?_⟩
    have isKind := opener.isKind
    simp only [Engine.atom, isKind]
    have innerAgrees := Expr.agrees inner fuel more shownInner rfl closed (ends_word closer rfl)
    rw [Atom.value, upTo]
    refine (innerAgrees.mono id (by omega)).andThen fun value => ?_
    dsimp only
    rw [expect_eq closer closed, pure_bind, show pos + 1 + inner.render.length + 1 = last by omega]
    exact .refl _
  | .nothing opener closer =>
    obtain ⟨found, closed, -⟩ := shown
    refine ⟨opener.token, found, ?_⟩
    rw [nothing_eq opener closer _ closed, ← reach]
    exact .refl _
  | .array opener first rest closer =>
    simp only [Atom.render, Window.shows_cons, Window.shows_append, List.length_cons,
      List.length_append, List.length_nil] at shown reach ⊢
    obtain ⟨found, shownFirst, shownRest, closed, -⟩ := shown
    refine ⟨opener.token, found, ?_⟩
    have restAfter : window.token? (pos + 1 + first.render.length + rest.render.length) =
        some closer.token := closed
    have firstAgrees := Expr.agrees first fuel more shownFirst rfl (shownRest.ahead restAfter)
      (rest.ends (ends_word closer rfl))
    rw [array_eq opener first _ shownFirst, Atom.value]
    rw [← show pos + 1 + first.render.length + rest.render.length + 1 = last by omega]
    refine (Items.agrees rest fuel more _ #[] _ closer firstAgrees shownRest rfl closed).mono id ?_
    rw [engine_fuel]
    omega

/-- The items of an array literal are collected as their tree does, with enough rounds. -/
theorem Items.agrees (rest : Items) (fuel more rounds : Nat) (items : Array Value)
    (first : Exec Value) {enough : Prop} {window : Window} {pos middle last : Nat}
    (closer : Structured.Word .rbracket)
    (firstAgrees : Agrees (fuel ≤ more) enough ((engine fuel).value window pos) (first.upTo middle))
    (shown : window.Shows middle rest.render)
    (reach : middle + rest.render.length = last)
    (closed : window.token? last = some closer.token) :
    Agrees (fuel ≤ more)
      (enough ∧ more + 2 * rest.render.length + 2 ≤ fuel ∧ rest.render.length < rounds)
      ((engine fuel).arrayItems window rounds pos items)
      ((first >>= fun item => rest.collect (engine more) closer.token (items.push item)).upTo
        (last + 1)) := by
  cases rounds with
  | zero => exact .starved (by omega)
  | succ rounds =>
    unfold Engine.arrayItems
    rw [bind_upTo]
    refine (firstAgrees.mono id And.left).andThen fun value => ?_
    dsimp only
    match rest with
    | .done =>
      subst reach
      have isKind := closer.isKind
      rw [show window.token? middle = some closer.token from closed]
      simp only [isKind]
      exact .refl _
    | .more comma item rest =>
      simp only [Items.render, Window.shows_cons, Window.shows_append, List.length_cons,
        List.length_append] at shown reach ⊢
      obtain ⟨found, shownItem, shownRest⟩ := shown
      have restAfter : window.token? (middle + 1 + item.render.length + rest.render.length) =
          some closer.token := by
        rw [← closed]
        congr 1
        omega
      have itemAgrees := Expr.agrees item fuel more shownItem rfl (shownRest.ahead restAfter)
        (rest.ends (ends_word closer rfl))
      have isKind := comma.isKind
      rw [found]
      simp only [isKind]
      rw [Items.collect]
      exact (Items.agrees rest fuel more rounds (items.push value) _ closer itemAgrees shownRest
        (by omega) closed).mono id (by omega)

end

/-- The tree and the evaluator end alike, and the evaluator needs some fuel for every token. -/
theorem Expr.read_agrees (tree : Expr) (fuel more : Nat) {window : Window} {pos : Nat}
    (shown : window.Shows pos tree.render) (after : window.token? (pos + tree.size) = next)
    (ends : Ends next) :
    Agrees (fuel ≤ more) (more + 2 * tree.size + 4 ≤ fuel)
      (Machine.evalExpression fuel window pos) (tree.read (engine more) next) := by
  unfold Machine.evalExpression Expr.read
  refine (tree.agrees fuel more shown rfl after ends).andThen fun value => ?_
  dsimp only
  rw [Nat.add_sub_cancel_left]
  exact .refl _

end Expression

namespace Machine

open Expression

/-- Where a window shows the tokens of a tree, before its end or before a token that ends an
expression, evaluating there does what the tree means and reads exactly these tokens: whatever
outcome one of the two has, values, faults and changes of the machine included, the other one has
as well. -/
theorem evalExpression_means (tree : Expr) (window : Window) (pos : Nat)
    (shown : window.Shows pos tree.render) (ends : Ends (window.token? (pos + tree.size)))
    (machine : Machine) (fuel : Nat) (outcome : EStateM.Result Stop Machine Evaluated)
    (finished : ∀ after, outcome ≠ .error .starved after) :
    (evalExpression fuel window pos machine = outcome →
      tree.read (engine fuel) (window.token? (pos + tree.size)) machine = outcome) ∧
    (tree.read (engine fuel) (window.token? (pos + tree.size)) machine = outcome →
      ∀ more, fuel + 2 * tree.size + 4 ≤ more →
        evalExpression more window pos machine = outcome) := by
  refine ⟨fun evaluated => ?_, fun meant more enough => ?_⟩
  · exact ((tree.read_agrees fuel fuel shown rfl ends).below (Nat.le_refl fuel)).eq_of_finished
      evaluated finished
  · exact ((tree.read_agrees more fuel shown rfl ends).above enough).eq_of_finished meant finished

/-- A word of a kind. -/
def sampleWord (kind : TokenKind) (lexeme : String) : Structured.Word kind :=
  ⟨⟨kind, lexeme, 1, 1⟩, rfl⟩

/-- A numeral. -/
def sampleNumber (lexeme : String) : Atom := .leaf (.whole (sampleWord .number lexeme))

/-- The tree of `-[4, 5][1] + 2 * 3`. -/
def sampleTree : Expr :=
  .mk
    (.signed (.minus (sampleWord .operator "-") rfl)
      (.selected
        (.array (sampleWord .lbracket "[") (.mk (.selected (sampleNumber "4") .done) .done)
          (.more (sampleWord .separator ",") (.mk (.selected (sampleNumber "5") .done) .done) .done)
          (sampleWord .rbracket "]"))
        (.more (sampleWord .lbracket "[") (.mk (.selected (sampleNumber "1") .done) .done)
          (sampleWord .rbracket "]") .done)))
    (.more (.signs (sampleWord .operator "+") (.inr (by decide)))
      (.selected (sampleNumber "2") .done)
      (.more (.signs (sampleWord .operator "*") (.inr (by decide)))
        (.selected (sampleNumber "3") .done) .done))

/-- The subscript comes before the sign, and the sum before the product. -/
theorem evalExpression_means_sample :
    ∃ after, evalExpression 50 (.whole (sampleTree.render ++ [Token.insertedEol]).toArray) 0
      (ofTokens {} "main" []) =
        .ok { value := some (.number (-9)), flow := .normal, consumed := 13 } after := by
  let window := Window.whole (sampleTree.render ++ [Token.insertedEol]).toArray
  have shown : window.Shows 0 sampleTree.render := 
    Window.shows_whole [] sampleTree.render [Token.insertedEol]
  have behind : window.token? (0 + sampleTree.size) = some .insertedEol := by decide +kernel
  have ends : Ends (some .insertedEol) := by
    rintro _ ⟨⟩
    rfl
  obtain ⟨after, meant⟩ : ∃ after, sampleTree.read (engine 0) (some .insertedEol)
      (ofTokens {} "main" []) =
        .ok { value := some (.number (-9)), flow := .normal, consumed := 13 } after :=
    ⟨_, rfl⟩
  have finished : ∀ last, EStateM.Result.ok
      ({ value := some (.number (-9)), flow := .normal, consumed := 13 } : Evaluated) after ≠
        .error Stop.starved last := fun _ other => nomatch other
  rw [← behind] at ends meant
  exact ⟨after, (evalExpression_means sampleTree window 0 shown ends _ 0 _ finished).2 meant 50
    (by decide +kernel)⟩

end Machine

end LineScript
