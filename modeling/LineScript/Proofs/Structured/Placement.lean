import LineScript.Proofs.Layout.Seek
import LineScript.Proofs.Structured.Tree

/-!
# Structured scripts in a run of tokens

Where a part of a tree is written in a run of tokens, the searches of the layout find its
keywords: a phrase ends at the first token that is not plain.
-/

namespace LineScript.Structured

open Layout

variable {tokens : Array Token} {pos stop : Nat}

/-- A list of tokens is written at a position. -/
def Holds (tokens : Array Token) : Nat → List Token → Prop
  | _, [] => True
  | pos, token :: rest => tokens[pos]? = some token ∧ Holds tokens (pos + 1) rest

/-- No tokens stand anywhere. -/
@[simp] theorem holds_nil : Holds tokens pos [] = True := rfl

/-- A list stands where its first token stands and the others behind it. -/
@[simp] theorem holds_cons {token : Token} {rest : List Token} :
    Holds tokens pos (token :: rest) ↔ tokens[pos]? = some token ∧ Holds tokens (pos + 1) rest :=
  .rfl

/-- Two lists stand where the first stands and the second behind it. -/
@[simp] theorem holds_append {first rest : List Token} :
    Holds tokens pos (first ++ rest) ↔
      Holds tokens pos first ∧ Holds tokens (pos + first.length) rest := by
  induction first generalizing pos with
  | nil => simp
  | cons token first ih =>
    simp only [List.cons_append, holds_cons, ih, List.length_cons, and_assoc]
    rw [show pos + 1 + first.length = pos + (first.length + 1) by omega]

/-- The token at an index of the list is the token that many positions on. -/
theorem Holds.getElem? {list : List Token} {index : Nat} {token : Token}
    (holds : Holds tokens pos list) (found : list[index]? = some token) :
    tokens[pos + index]? = some token := by
  induction list generalizing pos index with
  | nil => simp at found
  | cons first rest ih =>
    cases index with
    | zero =>
      simp only [List.getElem?_cons_zero, Option.some.injEq] at found
      rw [← found]
      exact holds.1
    | succ index =>
      have := ih holds.2 (by simpa using found)
      rwa [show pos + (index + 1) = pos + 1 + index by omega]

section

variable {condition : Phrase} {body : Body} {clauses : Clauses} {ending : Ending}

/-- A conditional stands where each of its parts does. -/
theorem holds_choice {opener : Word .kwIf} {then' : Word .kwThen} {branches : Branches}
    {closer : Word .kwEndIf} :
    Holds tokens pos (Statement.choice opener condition then' body branches closer).render ↔
      tokens[pos]? = some opener.token ∧ Holds tokens (pos + 1) condition.tokens ∧
      tokens[pos + 1 + condition.size]? = some then'.token ∧
      Holds tokens (pos + 1 + condition.size + 1) body.render ∧
      Holds tokens (pos + 1 + condition.size + 1 + body.size) branches.render ∧
      tokens[pos + 1 + condition.size + 1 + body.size + branches.size]? = some closer.token := by
  simp only [Statement.render, List.cons_append, holds_cons, holds_append, holds_nil, and_true]
  rfl

/-- A switch stands where each of its parts does. -/
theorem holds_switch {opener : Word .kwSwitch} {closer : Word .kwEndSwitch} :
    Holds tokens pos (Statement.switch opener condition ending clauses closer).render ↔
      tokens[pos]? = some opener.token ∧ Holds tokens (pos + 1) condition.tokens ∧
      tokens[pos + 1 + condition.size]? = some ending.token ∧
      Holds tokens (pos + 1 + condition.size + 1) clauses.render ∧
      tokens[pos + 1 + condition.size + 1 + clauses.size]? = some closer.token := by
  simp only [Statement.render, List.cons_append, holds_cons, holds_append, holds_nil, and_true]
  rfl

/-- A selection stands where each of its parts does. -/
theorem holds_select {opener : Word .kwSelect} {closer : Word .kwEndSelect} :
    Holds tokens pos (Statement.select opener ending clauses closer).render ↔
      tokens[pos]? = some opener.token ∧ tokens[pos + 1]? = some ending.token ∧
      Holds tokens (pos + 2) clauses.render ∧
      tokens[pos + 2 + clauses.size]? = some closer.token := by
  simp only [Statement.render, List.cons_append, holds_cons, holds_append, holds_nil, and_true]
  rfl

/-- A loop with its condition in front stands where each of its parts does. -/
theorem holds_whileLoop {opener : Word .kwWhile} {closer : Word .kwWEnd} :
    Holds tokens pos (Statement.whileLoop opener condition body closer).render ↔
      tokens[pos]? = some opener.token ∧ Holds tokens (pos + 1) condition.tokens ∧
      Holds tokens (pos + 1 + condition.size) body.render ∧
      tokens[pos + 1 + condition.size + body.size]? = some closer.token := by
  simp only [Statement.render, List.cons_append, holds_cons, holds_append, holds_nil, and_true]
  rfl

/-- A loop with its condition behind stands where each of its parts does. -/
theorem holds_doLoop {opener : Word .kwDo} {closer : Word .kwUntil} :
    Holds tokens pos (Statement.doLoop opener body closer condition).render ↔
      tokens[pos]? = some opener.token ∧ Holds tokens (pos + 1) body.render ∧
      tokens[pos + 1 + body.size]? = some closer.token ∧
      Holds tokens (pos + 1 + body.size + 1) condition.tokens := by
  simp only [Statement.render, List.cons_append, holds_cons, holds_append]
  rfl

/-- A line stands where its statement, its end and the other lines do. -/
theorem holds_line {statement : Statement} {rest : Block} :
    Holds tokens pos (Block.line statement ending rest).render ↔
      Holds tokens pos statement.render ∧ tokens[pos + statement.size]? = some ending.token ∧
      Holds tokens (pos + statement.size + 1) rest.render := by
  simp only [Block.render, holds_cons, holds_append]
  rfl

/-- A single-line conditional stands where it, its line feed and the other lines do. -/
theorem holds_choiceLine {choice : LineChoice} {eol : Word .eol} {rest : Block} :
    Holds tokens pos (Block.choiceLine choice eol rest).render ↔
      Holds tokens pos choice.render ∧ tokens[pos + choice.size]? = some eol.token ∧
      Holds tokens (pos + choice.size + 1) rest.render := by
  simp only [Block.render, holds_cons, holds_append]
  rfl

/-- An ElseIf branch stands where each of its parts does. -/
theorem holds_elseIf {word : Word .kwElseIf} {then' : Word .kwThen} {rest : Branches} :
    Holds tokens pos (Branches.elseIf word condition then' body rest).render ↔
      tokens[pos]? = some word.token ∧ Holds tokens (pos + 1) condition.tokens ∧
      tokens[pos + 1 + condition.size]? = some then'.token ∧
      Holds tokens (pos + 1 + condition.size + 1) body.render ∧
      Holds tokens (pos + 1 + condition.size + 1 + body.size) rest.render := by
  simp only [Branches.render, List.cons_append, holds_cons, holds_append]
  rfl

/-- A Case clause stands where each of its parts does. -/
theorem holds_case {word : Word .kwCase} {rest : Clauses} :
    Holds tokens pos (Clauses.case word condition body rest).render ↔
      tokens[pos]? = some word.token ∧ Holds tokens (pos + 1) condition.tokens ∧
      Holds tokens (pos + 1 + condition.size) body.render ∧
      Holds tokens (pos + 1 + condition.size + body.size) rest.render := by
  simp only [Clauses.render, List.cons_append, holds_cons, holds_append]
  rfl

/-- A Case Else clause stands where each of its parts does. -/
theorem holds_caseElse {word : Word .kwCase} {else' : Word .kwElse} {rest : Clauses} :
    Holds tokens pos (Clauses.otherwise word else' body rest).render ↔
      tokens[pos]? = some word.token ∧ tokens[pos + 1]? = some else'.token ∧
      Holds tokens (pos + 2) body.render ∧ Holds tokens (pos + 2 + body.size) rest.render := by
  simp only [Clauses.render, List.cons_append, holds_cons, holds_append]
  rfl

end

/-- A run of tokens, written between two others, stands where the first one ends. -/
theorem holds_mid (before list after : List Token) :
    Holds (before ++ list ++ after).toArray before.length list := by
  have all : ∀ (list before : List Token), Holds (before ++ list).toArray before.length list := by
    intro list
    induction list with
    | nil => simp
    | cons token rest ih =>
      intro before
      refine ⟨by simp, ?_⟩
      have := ih (before ++ [token])
      simpa using this
  have whole := all (list ++ after) before
  rw [holds_append] at whole
  simpa using whole.1

/-- The rest of a list stands that many positions on. -/
theorem Holds.drop {list : List Token} (holds : Holds tokens pos list) {count : Nat}
    (le : count ≤ list.length) : Holds tokens (pos + count) (list.drop count) := by
  have parts := holds
  rw [← List.take_append_drop count list, holds_append, List.length_take, Nat.min_eq_left le]
    at parts
  exact parts.2

/-- Each position that a list covers holds one of its tokens. -/
theorem Holds.mem_at {list : List Token} (holds : Holds tokens pos list) {at' : Nat}
    (from' : pos ≤ at') (before : at' < pos + list.length) :
    ∃ token ∈ list, tokens[at']? = some token := by
  have inside : at' - pos < list.length := by omega
  refine ⟨list[at' - pos], List.getElem_mem inside, ?_⟩
  have stored := holds.getElem? (List.getElem?_eq_getElem inside)
  rwa [show pos + (at' - pos) = at' by omega] at stored

/-- A list that is written somewhere ends before the run of tokens does. -/
theorem Holds.le_size {list : List Token} (holds : Holds tokens pos list) (nonempty : list ≠ []) :
    pos + list.length ≤ tokens.size := by
  have positive := List.length_pos_iff.mpr nonempty
  obtain ⟨token, _, stored⟩ :=
    holds.mem_at (show pos ≤ pos + list.length - 1 by omega) (by omega)
  have := (Array.getElem?_eq_some_iff.mp stored).1
  omega

/-- Looking for a token that a list does not contain stops behind the list. -/
theorem Holds.seek_eq {list : List Token} {accept : Token → Bool} {start : Nat} {token : Token}
    (holds : Holds tokens pos list) (inside : pos + list.length < stop) (from' : pos ≤ start)
    (before : start ≤ pos + list.length) (rejects : ∀ token ∈ list, accept token = false)
    (stored : tokens[pos + list.length]? = some token) (accepts : accept token = true) :
    seek accept tokens start stop = pos + list.length := by
  refine Layout.seek_eq before (Nat.le_of_lt inside) (fun at' after earlier => ?_)
    (.inr ⟨token, stored, accepts⟩)
  obtain ⟨other, member, storedOther⟩ := holds.mem_at (by omega) earlier
  exact ⟨other, storedOther, rejects other member⟩

/-- A statement ends where its tokens end. -/
theorem Phrase.statementEnd_eq {phrase : Phrase} {ending : Ending} {start : Nat}
    (holds : Holds tokens pos phrase.tokens) (inside : pos + phrase.size < stop)
    (from' : pos ≤ start) (before : start ≤ pos + phrase.size)
    (ended : tokens[pos + phrase.size]? = some ending.token) :
    statementEnd tokens start stop = pos + phrase.size :=
  holds.seek_eq inside from' before
    (fun token member => Token.endsLine_of_isPlain (phrase.plain token member)) ended
    ending.endsLine

/-- A condition ends at the keyword behind its phrase. -/
theorem Phrase.findThen_eq {phrase : Phrase} {then' : Word .kwThen}
    (holds : Holds tokens (pos + 1) phrase.tokens) (inside : pos + 1 + phrase.size < stop)
    (ended : tokens[pos + 1 + phrase.size]? = some then'.token) :
    findThen tokens pos stop = some (pos + 1 + phrase.size) := by
  have rejects : ∀ token ∈ phrase.tokens,
      (token.kind == .kwThen || token.kind == .eol) = false := by
    intro token member
    have plain := phrase.plain token member
    rw [TokenKind.beq_of_isPlain plain rfl, TokenKind.beq_of_isPlain plain rfl]
    rfl
  have found := holds.seek_eq inside (Nat.le_refl _) (Nat.le_add_right _ _) rejects ended
    (by simp [then'.isKind])
  have ended' : tokens[pos + 1 + phrase.tokens.length]? = some then'.token := ended
  unfold findThen
  rw [found]
  simp [Phrase.size, ended', then'.isKind, show pos + 1 + phrase.tokens.length < stop from inside]

/-- The kind at a stored position is the token's. -/
theorem hasKind_eq {kind : TokenKind} {token : Token} (stored : tokens[pos]? = some token) :
    hasKind tokens pos kind = (token.kind == kind) := by
  simp [hasKind, stored]

/-- Behind a condition whose line goes on, a choice stands on one line. -/
theorem isSingleLineIf_eq {found : Nat} {token : Token}
    (ends : findThen tokens pos stop = some found) (inside : found + 1 < stop)
    (stored : tokens[found + 1]? = some token) :
    isSingleLineIf tokens pos stop = !token.endsLine := by
  simp [isSingleLineIf, ends, inside, stored]

/-- Only a choice on one line has a closing word that ends its line. -/
theorem trailingEndIf_eq_none {token : Token} (stored : tokens[pos]? = some token)
    (other : token.kind ≠ .kwIf ∨ isSingleLineIf tokens pos stop = false) :
    trailingEndIf tokens pos stop = none := by
  have none' : (hasKind tokens pos .kwIf && isSingleLineIf tokens pos stop) = false := by
    rcases other with kind | onLine
    · simp [hasKind_eq stored, kind]
    · simp [onLine]
  simp [trailingEndIf, none']

namespace LineChoice

variable {choice : LineChoice} {ending : Word .eol}

/-- The position of the keyword that ends the condition. -/
def found (choice : LineChoice) (pos : Nat) : Nat := pos + 1 + choice.condition.size

/-- The position behind the branch. -/
def bodyEnd (choice : LineChoice) (pos : Nat) : Nat := choice.found pos + 1 + choice.body.size

/-- The size of a single-line conditional is that of its parts. -/
theorem size_eq (choice : LineChoice) :
    choice.size = 1 + choice.condition.size + 1 + choice.body.size +
      (if choice.closer.isSome then 1 else 0) := by
  cases closer : choice.closer <;> simp [size, render, closer, Phrase.size] <;> omega

/-- The line of a choice ends behind it. -/
theorem endsLine_eq_false {token : Token} (member : token ∈ choice.render) :
    token.endsLine = false := by
  have words : ∀ kind, kind ≠ .eol → kind ≠ .comment → token.kind = kind →
      token.endsLine = false := by
    intro kind notEol notComment isKind
    simp [Token.endsLine, isKind, notEol, notComment]
  have plain : ∀ phrase : Phrase, token ∈ phrase.tokens → token.endsLine = false :=
    fun phrase member => Token.endsLine_of_isPlain (phrase.plain token member)
  simp only [render, List.mem_append, List.mem_cons, Option.mem_toList,
    Option.map_eq_some_iff] at member
  rcases member with (rfl | member) | (rfl | member) | ⟨closer, _, rfl⟩
  · exact words .kwIf (by decide) (by decide) choice.opener.isKind
  · exact plain choice.condition member
  · exact words .kwThen (by decide) (by decide) choice.then'.isKind
  · exact plain choice.body.toPhrase member
  · exact words .kwEndIf (by decide) (by decide) closer.isKind

/-- A choice on one line is written at a position, with the end of its line behind it. -/
structure Placed (choice : LineChoice) (ending : Word .eol) (tokens : Array Token)
    (pos stop : Nat) : Prop where
  /-- Its tokens are there. -/
  holds : Holds tokens pos choice.render
  /-- The end of its line is there. -/
  ended : tokens[pos + choice.size]? = some ending.token
  /-- All of that stands before the stop. -/
  inside : pos + choice.size < stop

namespace Placed

variable (placed : choice.Placed ending tokens pos stop)
include placed

/-- The opener stands at the position. -/
theorem opener : tokens[pos]? = some choice.opener.token := placed.holds.1

/-- The condition stands behind the opener. -/
theorem condition : Holds tokens (pos + 1) choice.condition.tokens := by
  have := placed.holds
  simp only [render, List.cons_append, holds_cons, holds_append] at this
  exact this.2.1

/-- The Then stands where it is found. -/
theorem then' : tokens[choice.found pos]? = some choice.then'.token := by
  have := placed.holds
  simp only [render, List.cons_append, holds_cons, holds_append] at this
  exact this.2.2.1

/-- The body stands behind the Then. -/
theorem body : Holds tokens (choice.found pos + 1) choice.body.tokens := by
  have := placed.holds
  simp only [render, List.cons_append, holds_cons, holds_append] at this
  exact this.2.2.2.1

/-- A closing EndIf stands where the body ends. -/
theorem closer {word : Word .kwEndIf} (has : choice.closer = some word) :
    tokens[choice.bodyEnd pos]? = some word.token := by
  have := placed.holds
  simp only [render, List.cons_append, holds_cons, holds_append, has, Option.map_some,
    Option.toList_some] at this
  exact this.2.2.2.2.1

/-- The search for the header's end finds the Then. -/
theorem findThen_eq : findThen tokens pos stop = some (choice.found pos) := by
  have := placed.inside
  have := choice.size_eq
  exact Phrase.findThen_eq placed.condition (by omega) placed.then'

/-- A placed single-line conditional is recognised as one. -/
theorem isSingleLineIf_eq_true : isSingleLineIf tokens pos stop = true := by
  have inside := placed.inside
  have size := choice.size_eq
  have found : choice.found pos = pos + 1 + choice.condition.size := rfl
  have positive := List.length_pos_iff.mpr choice.body.nonempty
  have body : choice.body.size = choice.body.tokens.length := rfl
  obtain ⟨token, member, stored⟩ := placed.body.mem_at (Nat.le_refl _) (by omega)
  have plain := Token.endsLine_of_isPlain (choice.body.plain token member)
  rw [isSingleLineIf_eq placed.findThen_eq (by omega) stored, plain]
  rfl

/-- The statement ends where the line does, from any of its positions. -/
theorem statementEnd_eq {start : Nat} (from' : pos ≤ start) (before : start ≤ pos + choice.size) :
    statementEnd tokens start stop = pos + choice.size :=
  placed.holds.seek_eq placed.inside from' before
    (fun _ member => endsLine_eq_false member) placed.ended
    (by simp [Token.endsLine, ending.isKind])

/-- The line ends where the conditional does, from any of its positions. -/
theorem lineEnd_eq {start : Nat} (from' : pos ≤ start) (before : start ≤ pos + choice.size) :
    lineEnd tokens start stop = pos + choice.size := by
  refine placed.holds.seek_eq placed.inside from' before (fun token member => ?_) placed.ended
    (by simp [ending.isKind])
  have := endsLine_eq_false member
  simp only [Token.endsLine, Bool.or_eq_false_iff] at this
  exact this.1

/-- The closing word is the last token of the line, if there is one. -/
theorem trailingEndIf_eq :
    trailingEndIf tokens pos stop = choice.closer.map fun _ => choice.bodyEnd pos := by
  have size := choice.size_eq
  have isIf : hasKind tokens pos .kwIf = true := by
    simp [hasKind_eq placed.opener, choice.opener.isKind]
  have positive := List.length_pos_iff.mpr choice.body.nonempty
  have body : choice.body.size = choice.body.tokens.length := rfl
  have bodyEnd : choice.bodyEnd pos = pos + 1 + choice.condition.size + 1 + choice.body.size := rfl
  unfold trailingEndIf
  rw [isIf, placed.isSingleLineIf_eq_true, placed.statementEnd_eq (Nat.le_refl _) (by omega)]
  cases has : choice.closer with
  | some word =>
    rw [has] at size
    have last : pos + choice.size - 1 = choice.bodyEnd pos := by simp at size; omega
    have closes : hasKind tokens (choice.bodyEnd pos) .kwEndIf = true := by
      simp [hasKind_eq (placed.closer has), word.isKind]
    simp [last, closes]
    omega
  | none =>
    rw [has] at size
    simp only [Option.isSome_none, Bool.false_eq_true, if_false] at size
    have found : choice.found pos = pos + 1 + choice.condition.size := rfl
    have last : choice.found pos + 1 ≤ pos + choice.size - 1 := by omega
    obtain ⟨token, member, stored⟩ := placed.body.mem_at last (by omega)
    have plain := choice.body.plain token member
    have notCloser : hasKind tokens (pos + choice.size - 1) .kwEndIf = false := by
      rw [hasKind_eq stored]
      exact TokenKind.beq_of_isPlain plain rfl
    simp [notCloser]

end Placed

end LineChoice

end LineScript.Structured
