import LineScript.Program.Structure
import LineScript.Proofs.Structured.Refinement

/-!
# Structured scripts are accepted and run as trees

The check of blocks goes over a structured script with the blocks that were open before it, so it
accepts every rendering. Together with the refinement this says what a host sees: the rendering of
a tree is accepted, and running it is running the tree.
-/

namespace LineScript

namespace Structure

open Layout

variable {tokens : Array Token} {pos : Nat} {blocks : List OpenBlock} {skip : Option Nat}
  {token : Token}

/-- The check goes on with what the step at a token leaves. -/
theorem checkFrom_eq {effect : Effect} (stored : tokens[pos]? = some token)
    (live : skip ≠ some pos) (stepped : step tokens pos token blocks skip = .ok effect) :
    checkFrom tokens pos blocks skip =
      checkFrom tokens (pos + 1 + if effect.takesNext then 1 else 0) effect.blocks
        effect.skip := by
  obtain ⟨inside, rfl⟩ := Array.getElem?_eq_some_iff.mp stored
  rw [checkFrom.eq_def, dif_pos inside, if_neg live, stepped]

/-- The check leaves out the closing word of a choice on one line. -/
theorem checkFrom_skip (inside : pos < tokens.size) :
    checkFrom tokens pos blocks (some pos) = checkFrom tokens (pos + 1) blocks (some pos) := by
  rw [checkFrom.eq_def, dif_pos inside, if_pos rfl]

/-- Behind the last token no block may be open. -/
theorem checkFrom_end : checkFrom tokens tokens.size [] skip = .ok () := by
  rw [checkFrom, dif_neg (Nat.lt_irrefl _)]

/-- Kinds of tokens that the check passes over. -/
def isPassed (kind : TokenKind) : Bool :=
  kind.isPlain || kind == .eol || kind == .comment || kind == .kwThen

/-- The checker passes a token of no concern to it. -/
theorem step_passed (passed : isPassed token.kind = true) :
    step tokens pos token blocks skip = .ok { blocks, skip } := by
  unfold step
  generalize token.kind = kind at passed
  cases kind <;> first | rfl | cases passed

end Structure

namespace Structured

open Layout Structure

variable {tokens : Array Token} {pos : Nat} {blocks : List OpenBlock} {token : Token}

/-- The check goes from one position and list of open blocks to another. -/
def Checks (tokens : Array Token) (pos : Nat) (blocks : List OpenBlock) (pos' : Nat)
    (blocks' : List OpenBlock) : Prop :=
  ∀ skip, Stale skip pos → ∃ skip', Stale skip' pos' ∧
    checkFrom tokens pos blocks skip = checkFrom tokens pos' blocks' skip'

/-- The tokens of a phrase are of no concern to the checker. -/
theorem Phrase.passed (phrase : Phrase) :
    ∀ token ∈ phrase.tokens, isPassed token.kind = true := by
  intro token member
  simp [isPassed, phrase.plain token member]

/-- The end of a line is of no concern to the checker. -/
theorem Ending.passed (ending : Ending) : isPassed ending.token.kind = true := by
  have ends := ending.endsLine
  rw [Token.endsLine] at ends
  generalize ending.token.kind = kind at ends
  cases kind <;> first | rfl | cases ends

/-- The check passes over tokens that change nothing, none of which it leaves out. -/
theorem checkFrom_list {list : List Token} {skip : Option Nat} (holds : Holds tokens pos list)
    (apart : ∀ at', skip = some at' → at' < pos ∨ pos + list.length ≤ at')
    (passed : ∀ token ∈ list, isPassed token.kind = true) :
    checkFrom tokens pos blocks skip = checkFrom tokens (pos + list.length) blocks skip := by
  induction list generalizing pos with
  | nil => rfl
  | cons token rest ih =>
    simp only [List.length_cons] at apart
    have live : skip ≠ some pos := fun is => by
      have := apart pos is
      omega
    have later := ih holds.2 (fun at' is => by have := apart at' is; omega)
      fun other member => passed other (List.mem_cons_of_mem _ member)
    rw [checkFrom_eq holds.1 live (step_passed (passed token List.mem_cons_self)),
      List.length_cons, show pos + (rest.length + 1) = pos + 1 + rest.length by omega]
    exact later

namespace Checks

/-- The checker is where it is. -/
theorem refl (pos : Nat) (blocks : List OpenBlock) : Checks tokens pos blocks pos blocks :=
  fun skip stale => ⟨skip, stale, rfl⟩

/-- Two stretches checked one after the other are one. -/
theorem trans {pos' last : Nat} {blocks' blocks'' : List OpenBlock}
    (first : Checks tokens pos blocks pos' blocks')
    (second : Checks tokens pos' blocks' last blocks'') :
    Checks tokens pos blocks last blocks'' := by
  intro skip stale
  obtain ⟨middle, staleMiddle, checked⟩ := first skip stale
  obtain ⟨skip', staleLast, checkedLater⟩ := second middle staleMiddle
  exact ⟨skip', staleLast, checked.trans checkedLater⟩

/-- The position reached may be written in another way. -/
theorem at_eq {pos' last : Nat} {blocks' : List OpenBlock}
    (checks : Checks tokens pos blocks pos' blocks') (same : pos' = last) :
    Checks tokens pos blocks last blocks' := same ▸ checks

/-- One token whose step leaves nothing out. -/
theorem one {blocks' : List OpenBlock} (stored : tokens[pos]? = some token)
    (stepped : ∀ skip, step tokens pos token blocks skip = .ok { blocks := blocks', skip }) :
    Checks tokens pos blocks (pos + 1) blocks' :=
  fun skip stale => ⟨skip, stale.mono (Nat.le_succ pos), checkFrom_eq stored stale.ne (stepped skip)⟩

/-- Tokens that change nothing. -/
theorem list {list : List Token} (holds : Holds tokens pos list)
    (passed : ∀ token ∈ list, isPassed token.kind = true) :
    Checks tokens pos blocks (pos + list.length) blocks := fun skip stale =>
  ⟨skip, stale.mono (Nat.le_add_right _ _),
    checkFrom_list holds (fun at' is => .inl (stale at' is)) passed⟩

/-- The checker passes a phrase. -/
theorem phrase {phrase : Phrase} (holds : Holds tokens pos phrase.tokens) :
    Checks tokens pos blocks (pos + phrase.size) blocks := .list holds phrase.passed

/-- The checker passes the end of a line. -/
theorem ending {ending : Ending} (stored : tokens[pos]? = some ending.token) :
    Checks tokens pos blocks (pos + 1) blocks :=
  .one stored fun _ => step_passed ending.passed

/-- The checker passes a word of no concern to it. -/
theorem word {kind : TokenKind} (word : Word kind) (stored : tokens[pos]? = some word.token)
    (passed : isPassed kind = true) : Checks tokens pos blocks (pos + 1) blocks :=
  .one stored fun _ => step_passed (by rw [word.isKind]; exact passed)

/-- A keyword that always opens a block. -/
theorem opensWord {kind : TokenKind} (word : Word kind) (stored : tokens[pos]? = some word.token)
    (opener : kind = .kwSwitch ∨ kind = .kwSelect ∨ kind = .kwWhile ∨ kind = .kwDo) :
    Checks tokens pos blocks (pos + 1) (⟨kind, word.token.line⟩ :: blocks) := by
  refine .one stored fun skip => ?_
  have isKind := word.isKind
  rcases opener with rfl | rfl | rfl | rfl <;> simp only [step, isKind]

/-- The keyword of a choice over several lines. -/
theorem opensChoice {opener : Word .kwIf} {found : Nat} (stored : tokens[pos]? = some opener.token)
    (ends : findThen tokens pos tokens.size = some found)
    (overLines : isSingleLineIf tokens pos tokens.size = false) :
    Checks tokens pos blocks (pos + 1) (⟨.kwIf, opener.token.line⟩ :: blocks) := by
  refine .one stored fun skip => ?_
  simp only [step, opener.isKind, ends, overLines, Option.isNone_some, Bool.false_eq_true, if_false]

/-- The keyword that closes the innermost block. -/
theorem closesWord {kind opener : TokenKind} {line : Nat} (word : Word kind)
    (stored : tokens[pos]? = some word.token) (closes : closer? opener = some kind) :
    Checks tokens pos (⟨opener, line⟩ :: blocks) (pos + 1) blocks := by
  refine .one stored fun skip => ?_
  have isKind := word.isKind
  have closed : closeBlock (⟨opener, line⟩ :: blocks) word.token = .ok blocks := by
    simp only [closeBlock, isKind, closes, if_true]
  cases opener <;> cases closes <;> simp only [step, isKind, closed] <;> rfl

end Checks

/-- A choice on one line changes nothing; its closing word is left out. -/
theorem LineChoice.checks {choice : LineChoice} {ending : Word .eol}
    (placed : choice.Placed ending tokens pos tokens.size) :
    Checks tokens pos blocks (pos + choice.size) blocks := by
  intro skip stale
  have size := choice.size_eq
  have inside := placed.inside
  have bodyEnd : choice.bodyEnd pos = pos + 1 + choice.condition.size + 1 + choice.body.size := rfl
  have holds : Holds tokens (pos + 1)
      (choice.condition.tokens ++ choice.then'.token :: choice.body.tokens) := by
    rw [holds_append, holds_cons]
    exact ⟨placed.condition, placed.then', placed.body⟩
  have length : pos + 1 + (choice.condition.tokens ++
      choice.then'.token :: choice.body.tokens).length = choice.bodyEnd pos := by
    rw [List.length_append, List.length_cons, bodyEnd]
    simp only [Phrase.size]
    omega
  have passed : ∀ token ∈ choice.condition.tokens ++ choice.then'.token :: choice.body.tokens,
      isPassed token.kind = true := by
    intro token member
    rcases List.mem_append.mp member with member | member
    · exact choice.condition.passed token member
    · rcases List.mem_cons.mp member with rfl | member
      · rw [choice.then'.isKind]
        rfl
      · exact choice.body.passed token member
  have stepped : step tokens pos choice.opener.token blocks skip =
      .ok { blocks, skip := choice.closer.map fun _ => choice.bodyEnd pos } := by
    simp only [step, choice.opener.isKind, placed.findThen_eq, placed.isSingleLineIf_eq_true,
      placed.trailingEndIf_eq, Option.isNone_some, Bool.false_eq_true, if_false, if_true]
  have opened := checkFrom_eq placed.opener stale.ne stepped
  have inner := @checkFrom_list tokens (pos + 1) blocks _
    (choice.closer.map fun _ => choice.bodyEnd pos) holds (fun at' is => by
      obtain ⟨_, _, rfl⟩ := Option.map_eq_some_iff.mp is
      exact .inr (Nat.le_of_eq length)) passed
  rw [length] at inner
  refine ⟨choice.closer.map fun _ => choice.bodyEnd pos, fun at' is => ?_, ?_⟩
  · obtain ⟨word, has, rfl⟩ := Option.map_eq_some_iff.mp is
    rw [has] at size
    simp only [Option.isSome_some, if_true] at size
    omega
  · refine (opened.trans inner).trans ?_
    cases has : choice.closer with
    | none =>
      rw [has] at size
      simp only [Option.isSome_none, Bool.false_eq_true, if_false] at size
      rw [show choice.bodyEnd pos = pos + choice.size by omega]
    | some word =>
      rw [has] at size
      simp only [Option.isSome_some, if_true] at size
      rw [Option.map_some, checkFrom_skip (by omega),
        show choice.bodyEnd pos + 1 = pos + choice.size by omega]

namespace Checks

/-- A divider inside a choice. -/
theorem elseIf {word : Word .kwElseIf} {line found : Nat} (stored : tokens[pos]? = some word.token)
    (ends : findThen tokens pos tokens.size = some found) :
    Checks tokens pos (⟨.kwIf, line⟩ :: blocks) (pos + 1) (⟨.kwIf, line⟩ :: blocks) :=
  .one stored fun skip => by simp [step, word.isKind, ends, insideOf]

/-- The last resort of a choice. -/
theorem otherwise {word : Word .kwElse} {line : Nat} (stored : tokens[pos]? = some word.token) :
    Checks tokens pos (⟨.kwIf, line⟩ :: blocks) (pos + 1) (⟨.kwIf, line⟩ :: blocks) :=
  .one stored fun skip => by simp [step, word.isKind, insideOf]

/-- The opener of a selection. -/
def selects (opener : TokenKind) : Prop := opener = .kwSwitch ∨ opener = .kwSelect

/-- A clause of a selection. -/
theorem case {word : Word .kwCase} {opener : TokenKind} {line : Nat} (selection : selects opener)
    (stored : tokens[pos]? = some word.token)
    (notElse : hasKind tokens (pos + 1) .kwElse = false) :
    Checks tokens pos (⟨opener, line⟩ :: blocks) (pos + 1) (⟨opener, line⟩ :: blocks) :=
  .one stored fun skip => by
    rcases selection with rfl | rfl <;> simp [step, word.isKind, insideOf, notElse]

/-- The clause of a selection that always fits: both of its words are one step. -/
theorem caseElse {word : Word .kwCase} {else' : Word .kwElse} {opener : TokenKind} {line : Nat}
    (selection : selects opener) (stored : tokens[pos]? = some word.token)
    (next : tokens[pos + 1]? = some else'.token) :
    Checks tokens pos (⟨opener, line⟩ :: blocks) (pos + 2) (⟨opener, line⟩ :: blocks) := by
  intro skip stale
  have isElse : hasKind tokens (pos + 1) .kwElse = true := by
    rw [hasKind_eq next, else'.isKind]
    rfl
  have stepped : step tokens pos word.token (⟨opener, line⟩ :: blocks) skip =
      .ok { blocks := ⟨opener, line⟩ :: blocks, takesNext := true, skip } := by
    rcases selection with rfl | rfl <;> simp [step, word.isKind, insideOf, isElse]
  exact ⟨skip, stale.mono (Nat.le_add_right _ _), checkFrom_eq stored stale.ne stepped⟩

end Checks

mutual

/-- The check passes over a statement. -/
theorem Statement.checks : ∀ (statement : Statement) {pos : Nat} {blocks : List OpenBlock},
    Holds tokens pos statement.render →
    Checks tokens pos blocks (pos + statement.size) blocks
  | .simple sentence, pos, blocks, holds => Checks.phrase holds
  | .choice opener condition then' body branches closer, pos, blocks, holds => by
    simp only [holds_choice, Statement.size_choice] at holds ⊢
    obtain ⟨opened, condition', ended, body', branches', closed⟩ := holds
    have found : findThen tokens pos tokens.size = some (pos + 1 + condition.size) :=
      condition.findThen_eq condition' (Array.getElem?_eq_some_iff.mp ended).1 ended
    have overLines : isSingleLineIf tokens pos tokens.size = false := by
      obtain ⟨ending, lines⟩ := body
      exact not_isSingleLineIf condition' ended body'.1 (Array.getElem?_eq_some_iff.mp body'.1).1
    refine Checks.at_eq (.trans (.opensChoice opened found overLines)
      (.trans (.phrase condition') (.trans (.word then' ended rfl) (.trans (body.checks body')
      (.trans (branches.checks branches') (.closesWord closer closed rfl)))))) (by omega)
  | .switch opener subject ending clauses closer, pos, blocks, holds => by
    simp only [holds_switch, Statement.size_switch] at holds ⊢
    obtain ⟨opened, subject', ended, clauses', closed⟩ := holds
    refine Checks.at_eq (.trans (.opensWord opener opened (.inl rfl))
      (.trans (.phrase subject') (.trans (.ending ended)
      (.trans (clauses.checks (.inl rfl) clauses') (.closesWord closer closed rfl)))))
      (by omega)
  | .select opener ending clauses closer, pos, blocks, holds => by
    simp only [holds_select, Statement.size_select] at holds ⊢
    obtain ⟨opened, ended, clauses', closed⟩ := holds
    refine Checks.at_eq (.trans (.opensWord opener opened (.inr (.inl rfl)))
      (.trans (.ending ended) (.trans (clauses.checks (.inr rfl) clauses')
      (.closesWord closer closed rfl)))) (by omega)
  | .whileLoop opener condition body closer, pos, blocks, holds => by
    simp only [holds_whileLoop, Statement.size_whileLoop] at holds ⊢
    obtain ⟨opened, condition', body', closed⟩ := holds
    refine Checks.at_eq (.trans (.opensWord opener opened (.inr (.inr (.inl rfl))))
      (.trans (.phrase condition') (.trans (body.checks body')
      (.closesWord closer closed rfl)))) (by omega)
  | .doLoop opener body closer condition, pos, blocks, holds => by
    simp only [holds_doLoop, Statement.size_doLoop] at holds ⊢
    obtain ⟨opened, body', closed, condition'⟩ := holds
    refine Checks.at_eq (.trans (.opensWord opener opened (.inr (.inr (.inr rfl))))
      (.trans (body.checks body') (.trans (.closesWord closer closed rfl)
      (.phrase condition')))) (by omega)

/-- The check passes over lines. -/
theorem Block.checks : ∀ (block : Block) {pos : Nat} {blocks : List OpenBlock},
    Holds tokens pos block.render → Checks tokens pos blocks (pos + block.size) blocks
  | .nil, pos, blocks, _ => .refl pos blocks
  | .blank ending rest, pos, blocks, holds => by
    simp only [Block.size_blank]
    exact Checks.at_eq (.trans (.ending holds.1) (rest.checks holds.2)) (by omega)
  | .line statement ending rest, pos, blocks, holds => by
    simp only [holds_line, Block.size_line] at holds ⊢
    obtain ⟨statement', ended, rest'⟩ := holds
    exact Checks.at_eq (.trans (statement.checks statement') (.trans (.ending ended)
      (rest.checks rest'))) (by omega)
  | .choiceLine choice ending rest, pos, blocks, holds => by
    simp only [holds_choiceLine, Block.size_choiceLine] at holds ⊢
    obtain ⟨choice', ended, rest'⟩ := holds
    have placed : choice.Placed ending tokens pos tokens.size :=
      ⟨choice', ended, (Array.getElem?_eq_some_iff.mp ended).1⟩
    exact Checks.at_eq (.trans (LineChoice.checks placed) (.trans (.word ending ended rfl)
      (rest.checks rest'))) (by omega)

/-- The check passes over a body. -/
theorem Body.checks : ∀ (body : Body) {pos : Nat} {blocks : List OpenBlock},
    Holds tokens pos body.render → Checks tokens pos blocks (pos + body.size) blocks
  | .mk ending lines, pos, blocks, holds => by
    simp only [Body.size_mk]
    exact Checks.at_eq (.trans (.ending holds.1) (lines.checks holds.2)) (by omega)

/-- The check passes over the further branches of the choice that it is inside of. -/
theorem Branches.checks : ∀ (branches : Branches) {pos line : Nat} {blocks : List OpenBlock},
    Holds tokens pos branches.render →
    Checks tokens pos (⟨.kwIf, line⟩ :: blocks) (pos + branches.size) (⟨.kwIf, line⟩ :: blocks)
  | .done, pos, line, blocks, _ => .refl pos _
  | .elseIf word condition then' body rest, pos, line, blocks, holds => by
    simp only [holds_elseIf, Branches.size_elseIf] at holds ⊢
    obtain ⟨opened, condition', ended, body', rest'⟩ := holds
    have found : findThen tokens pos tokens.size = some (pos + 1 + condition.size) :=
      condition.findThen_eq condition' (Array.getElem?_eq_some_iff.mp ended).1 ended
    exact Checks.at_eq (.trans (.elseIf opened found) (.trans (.phrase condition')
      (.trans (.word then' ended rfl) (.trans (body.checks body') (rest.checks rest'))))) (by omega)
  | .otherwise word body, pos, line, blocks, holds => by
    simp only [Branches.size_otherwise]
    exact Checks.at_eq (.trans (.otherwise holds.1) (body.checks holds.2)) (by omega)

/-- The check passes over the clauses of the selection that it is inside of. -/
theorem Clauses.checks : ∀ (clauses : Clauses) {pos line : Nat} {opener : TokenKind}
    {blocks : List OpenBlock}, Checks.selects opener → Holds tokens pos clauses.render →
    Checks tokens pos (⟨opener, line⟩ :: blocks) (pos + clauses.size) (⟨opener, line⟩ :: blocks)
  | .done, pos, _, _, _, _, _ => .refl pos _
  | .case word header body rest, pos, line, opener, blocks, selection, holds => by
    have notElse : hasKind tokens (pos + 1) .kwElse = false := Clauses.not_hasElse holds
    simp only [holds_case, Clauses.size_case] at holds ⊢
    obtain ⟨opened, header', body', rest'⟩ := holds
    exact Checks.at_eq (.trans (.case selection opened notElse) (.trans (.phrase header')
      (.trans (body.checks body') (rest.checks selection rest')))) (by omega)
  | .otherwise word else' body rest, pos, line, opener, blocks, selection, holds => by
    simp only [holds_caseElse, Clauses.size_otherwise] at holds ⊢
    obtain ⟨opened, elsed, body', rest'⟩ := holds
    exact Checks.at_eq (.trans (.caseElse selection opened elsed) (.trans (body.checks body')
      (rest.checks selection rest'))) (by omega)

end

/-- The rendering of a tree is accepted. -/
theorem Block.check_render (block : Block) : Structure.check block.render.toArray = .ok () := by
  have holds : Holds block.render.toArray 0 block.render := by
    have whole := holds_mid [] block.render []
    simpa using whole
  obtain ⟨skip, _, checked⟩ := @Block.checks block.render.toArray block 0 [] holds none (.nothing _)
  have size : 0 + block.size = block.render.toArray.size := by simp [Block.size]
  rw [size, checkFrom_end] at checked
  exact checked

/-- The rendering of a tree is accepted, and wherever it stands in a run of tokens, running its
window as a block does what the tree means: the same flow or fault, and the same machine. -/
theorem Block.runBlock_render (block : Block) (before after : List Token)
    (bindings : List (String × Value)) (fuel : Nat) (machine : Machine) :
    Structure.check block.render.toArray = .ok () ∧
      Machine.runBlock fuel (.slice (before ++ block.render ++ after).toArray before.length
          (before.length + block.size)) bindings machine =
        block.run fuel (.slice (before ++ block.render ++ after).toArray before.length
          (before.length + block.size)) bindings machine := by
  refine ⟨block.check_render, ?_⟩
  have holds := holds_mid before block.render after
  have size : before.length + block.size =
      min (before.length + block.size) (before ++ block.render ++ after).toArray.size := by
    simp [Block.size]
  exact congrFun (block.run_eq fuel holds size bindings) machine

end Structured

end LineScript
