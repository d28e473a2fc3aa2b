import LineScript.Interpreter.Repetition
import LineScript.Proofs.Rendition.Expression

/-!
# Renditions of choices, selections and loops

The parts of a block are found at places that correspond, so the same bodies are run, as often, and
control goes on at the place that corresponds. A body is run in a scope whose window shows that of the
body again. A loop that was set aside when the script was prepared is run without any window.
-/

namespace LineScript

open Machine Exec

variable {respells named : Prop} {shift : Nat} {shifts : List Nat}

/-! ### Loops that are set aside -/

/-- The other head shows the expressions of a loop's head again. -/
inductive LoopHead.Renders (respells : Prop) : LoopHead → LoopHead → Prop where
  /-- Counting loops. -/
  | range {first first' last last' : TokenBlock} {step step' : Option TokenBlock}
      (firsts : first.Renders respells first') (lasts : last.Renders respells last')
      (steps : Option.Rel (TokenBlock.Renders respells) step step') :
      Renders respells (.range first last step) (.range first' last' step')
  /-- Loops over a collection. -/
  | each {collection collection' : TokenBlock} (same : collection.Renders respells collection') :
      Renders respells (.each collection) (.each collection')

/-- The other loop shows the loop again. -/
structure ForLoop.Renders (respells : Prop) (loop other : ForLoop) : Prop where
  /-- Its variable is spelled anew if at all. -/
  index : Anew respells Text.lower loop.index other.index
  /-- Its head is shown. -/
  head : loop.head.Renders respells other.head
  /-- Its body is shown. -/
  body : (Window.whole loop.body).Copies respells 0 (.whole other.body)
  /-- It stands on the same line. -/
  line : other.line = loop.line

/-- A head shows itself. -/
theorem LoopHead.Renders.refl (head : LoopHead) : head.Renders respells head := by
  cases head with
  | range first last step => exact .range (.refl first) (.refl last) (TokenBlock.Renders.rel (.inl rfl))
  | each collection => exact .each (.refl collection)

/-- A head shows itself in small letters. -/
theorem LoopHead.Renders.small (may : respells) (head : LoopHead) :
    head.Renders respells head.small := by
  cases head with
  | range first last step =>
    exact .range (.small may first) (.small may last) (TokenBlock.Renders.rel (.inr ⟨may, rfl⟩))
  | each collection => exact .each (.small may collection)

/-- A loop of the other program shows the loop again. -/
theorem ForLoop.Renders.of_anew {loop other : ForLoop}
    (same : Anew respells ForLoop.small loop other) : loop.Renders respells other := by
  rcases same with rfl | ⟨may, rfl⟩
  · exact ⟨.refl _, .refl _, .refl _, rfl⟩
  · refine ⟨.inr ⟨may, rfl⟩, .small may _, ?_, rfl⟩
    have body : Window.whole loop.small.body = (Window.whole loop.body).small := Window.small_whole _
    rw [body]
    exact .small may _

namespace Engine

/-- Names that are bound in a block, with their values, in small letters. -/
def smallBindings (bindings : List (String × Value)) : List (String × Value) :=
  bindings.map fun binding => (Text.lower binding.1, binding.2)

/-- The scope of a block stands further on in the other window. -/
theorem blockScope_renders {near far : Window} (copies : near.Copies respells shift far)
    {bindings others : List (String × Value)}
    (bound : Anew respells smallBindings bindings others) :
    (blockScope near bindings).Renders respells shift (blockScope far others) := by
  have same : (blockScope far others) = { blockScope near bindings with
      kind := .block, code := far, pos := shift + near.start } := by
    rw [← copies.start]
    rcases bound with rfl | ⟨_, rfl⟩
    · rfl
    · unfold blockScope smallBindings
      simp only [List.foldl_map, Text.lower_lower]
      rfl
  rw [same]
  exact @Scope.Renders.mk _ _ (blockScope near bindings) _ _ (.refl _) copies

namespace Echoes

variable {low : Engine} (echoes : low.Echoes respells) {near far : Window}
include echoes

/-- A block echoes itself in a window that shows it again. -/
theorem runBlock (copies : near.Copies respells shift far) {bindings others : List (String × Value)}
    (bound : Anew respells smallBindings bindings others) :
    Exec.Echoes respells shifts Eq (low.runBlock near bindings) (low.runBlock far others) :=
  .bind (.inScope (blockScope_renders copies bound) (echoes.runScope _)) fun _ _ ended =>
    .ofAttempt ended.1

/-- A block that binds no names echoes itself in a window that shows it again. -/
theorem body (copies : near.Copies respells shift far) :
    Exec.Echoes respells shifts Eq (low.runBlock near) (low.runBlock far) :=
  echoes.runBlock copies (.refl [])

/-! ### Choices -/

/-- Running the branches of a choice echoes itself. -/
theorem runBranches {branches others : List Branch}
    (same : List.Forall₂ (Branch.Renders respells shift) branches others) :
    Exec.Echoes respells shifts Eq (low.runBranches branches) (low.runBranches others) := by
  induction same with
  | nil => exact .pure rfl
  | @cons branch other branches others here _ ih =>
    obtain ⟨condition, body⟩ := branch
    obtain ⟨condition', body'⟩ := other
    obtain ⟨conditions, bodies⟩ := here
    cases conditions with
    | none => exact echoes.body bodies
    | some conditions =>
      refine .andThen (echoes.whole conditions.renders) fun value => ?_
      split
      · exact echoes.body bodies
      · exact ih

variable (copies : near.Copies respells shift far)
include copies

/-- A choice on one line echoes itself. -/
theorem choiceOnLine {pos found : Nat}
    (ends : Layout.findThen near.tokens pos near.stop = some found) :
    Exec.Echoes respells shifts (Reads shift) (low.choiceOnLine near pos found)
      (low.choiceOnLine far (shift + pos) (shift + found)) := by
  have after := Layout.lt_of_findThen ends
  have before := (Layout.findThen_eq_some.mp ends).2.1
  have within : Layout.lineEnd near.tokens (found + 1) near.stop ≤ near.stop :=
    Layout.seek_le _ _ before
  have trailing := copies.trailingEndIf (show pos < near.stop by omega)
  have bodyEnd : (Layout.trailingEndIf near.tokens pos near.stop).getD
      (Layout.statementEnd near.tokens (found + 1)
        (Layout.lineEnd near.tokens (found + 1) near.stop)) ≤ near.stop := by
    cases closed : Layout.trailingEndIf near.tokens pos near.stop with
    | none =>
      exact Nat.le_trans (Layout.seek_le _ _ (Layout.le_seek _ _ _ _)) within
    | some last =>
      have ending := (Layout.trailingEndIf_eq_some.mp closed).2.2.1
      have : Layout.statementEnd near.tokens pos near.stop ≤ near.stop :=
        Layout.seek_le _ _ (by omega)
      exact show last ≤ _ by omega
  have moved (last : Option Nat) (other : Nat) :
      (last.map (shift + ·)).getD (shift + other) = shift + last.getD other := by
    cases last <;> rfl
  unfold Engine.choiceOnLine
  dsimp only
  rw [Nat.add_assoc, Nat.add_assoc, copies.lineEnd, copies.kinds.statementEnd within, trailing, moved]
  refine .andThen (echoes.whole (copies.slice (pos + 1) (Nat.le_of_lt before)).renders) fun value => ?_
  split
  · exact .andThen (echoes.body (copies.slice (found + 1) bodyEnd)) fun _ => .pure rfl
  · exact .pure rfl

/-- A choice echoes itself. -/
theorem choice {opener other : Token} (same : opener.Renders respells named other) (pos : Nat) :
    Exec.Echoes respells shifts (Reads shift) (low.choice near opener pos)
      (low.choice far other (shift + pos)) := by
  unfold Engine.choice
  rw [copies.findThen, copies.isSingleLineIf]
  cases ends : Layout.findThen near.tokens pos near.stop with
  | none => exact .ofExcept (.error (closerFault_renders same _))
  | some found =>
    dsimp only [Option.map_some]
    split
    · exact echoes.choiceOnLine copies ends
    · refine .bind (.ofExcept (copies.choiceBranches same pos
        (Nat.le_of_lt (Layout.findThen_eq_some.mp ends).2.1))) ?_
      rintro ⟨branches, close⟩ ⟨others, _⟩ ⟨parts, rfl⟩
      exact .andThen (echoes.runBranches parts) fun _ => .pure rfl

/-! ### Selections -/

omit copies in
/-- Running clauses echoes itself. -/
theorem runClauses {clauses others : List Clause}
    (same : List.Forall₂ (Clause.Renders respells shift) clauses others) :
    Exec.Echoes respells shifts Eq (low.runClauses clauses) (low.runClauses others) := by
  induction same with
  | nil => exact .pure rfl
  | cons here _ ih =>
    refine .andThen (echoes.body here.body) fun flow => ?_
    split
    · exact ih
    · exact .pure rfl

omit copies in
/-- Reading the items of a case echoes itself. -/
theorem caseItemsFrom (header : near.Renders respells shift far) (fuel : Nat) {pos : Nat}
    (here : near.ShowsAt respells False shift far pos) (items : List CaseItem) :
    Exec.Echoes respells shifts Eq (low.caseItemsFrom near fuel pos items)
      (low.caseItemsFrom far fuel (shift + pos) items) := by
  induction fuel generalizing pos items with
  | zero => exact .starved
  | succ fuel ih =>
    have more (pos : Nat) (items : List CaseItem) :
        Exec.Echoes respells shifts Eq (low.moreItems near fuel pos items)
          (low.moreItems far fuel (shift + pos) items) := by
      unfold Engine.moreItems
      rcases header.token pos with ⟨missing, missing'⟩ | ⟨token, other, found, found', same⟩
      · rw [missing, missing']
        exact .pure rfl
      · rw [found, found']
        dsimp only
        rw [same.kind]
        split
        · rename_i separator
          exact ih (header.next found (by simp [separator])) items
        · exact .failAt header pos
            (same.cause (fun token => .inCase token.display) fun _ _ => rfl)
    unfold Engine.caseItemsFrom
    refine .bind (echoes.value header here) ?_
    rintro ⟨first, pos⟩ _ rfl
    dsimp only
    rw [header.hasKind]
    split
    · rename_i isRange
      refine .bind (echoes.value header (header.behind isRange (by decide))) ?_
      rintro ⟨last, pos⟩ _ rfl
      exact more pos (items ++ [.range first last])
    · exact more pos (items ++ [.single first])

omit copies in
/-- Reading the items of all cases echoes itself. -/
theorem caseItems {clauses others : List Clause}
    (same : List.Forall₂ (Clause.Renders respells shift) clauses others) :
    Exec.Echoes respells shifts Eq (low.caseItems clauses) (low.caseItems others) := by
  induction same with
  | nil => exact .pure rfl
  | @cons clause other clauses others here _ ih =>
    have items : Exec.Echoes respells shifts Eq _ _ :=
      echoes.caseItemsFrom here.header.renders low.fuel here.header.renders.first []
    have rest (items : Option (List CaseItem)) :
        Exec.Echoes respells shifts Eq (do return items :: (← low.caseItems clauses))
          (do return items :: (← low.caseItems others)) :=
      .andThen ih fun _ => .pure rfl
    unfold Engine.caseItems
    rw [here.isElse, here.header.start]
    split
    · exact .andThen (.pure rfl) rest
    · exact .andThen (.map items fun _ _ same => congrArg some same) rest

/-- A selection by value echoes itself. -/
theorem switch {opener other : Token} (same : opener.Renders respells named other) (pos : Nat) :
    Exec.Echoes respells shifts (Reads shift) (low.switch near opener pos)
      (low.switch far other (shift + pos)) := by
  unfold Engine.switch
  refine .bind (echoes.value copies.renders (copies.showsAt (pos + 1))) ?_
  rintro ⟨subject, pos⟩ _ rfl
  refine .bind (.ofExcept (copies.clauses same pos
    (show .kwEndSwitch ≠ TokenKind.kwCase by decide) "EndSwitch")) ?_
  rintro ⟨clauses, close⟩ ⟨others, _⟩ ⟨parts, rfl⟩
  refine .andThen (echoes.caseItems parts) fun items => ?_
  exact .andThen (echoes.runClauses (List.forall₂_drop _ parts)) fun _ => .pure rfl

omit copies in
/-- Choosing among clauses echoes itself. -/
theorem selectFrom {clauses others : List Clause}
    (same : List.Forall₂ (Clause.Renders respells shift) clauses others) :
    Exec.Echoes respells shifts Eq (low.selectFrom clauses) (low.selectFrom others) := by
  induction same with
  | nil => exact .pure rfl
  | cons here later ih =>
    have chosen : Exec.Echoes respells shifts Eq _ _ := echoes.runClauses (.cons here later)
    unfold Engine.selectFrom
    rw [here.isElse]
    split
    · exact chosen
    · refine .andThen (echoes.whole here.header.renders) fun condition => ?_
      split
      · exact chosen
      · exact ih

/-- A selection by conditions echoes itself. -/
theorem select {opener other : Token} (same : opener.Renders respells named other) (pos : Nat) :
    Exec.Echoes respells shifts (Reads shift) (low.select near opener pos)
      (low.select far other (shift + pos)) := by
  have strays : (near.token? (pos + 1)).filter (!·.endsLine) = none ∧
      (far.token? (shift + (pos + 1))).filter (!·.endsLine) = none ∨
      ∃ token stray, (near.token? (pos + 1)).filter (!·.endsLine) = some token ∧
        (far.token? (shift + (pos + 1))).filter (!·.endsLine) = some stray ∧
        token.Renders respells False stray := by
    rcases copies.showsAt (pos + 1) with ⟨missing, missing'⟩ | ⟨token, stray, found, found', same⟩
    · rw [missing, missing']
      exact .inl ⟨rfl, rfl⟩
    · rw [found, found', Option.filter_some, Option.filter_some, same.endsLine]
      cases token.endsLine with
      | true => exact .inl ⟨rfl, rfl⟩
      | false => exact .inr ⟨token, stray, rfl, rfl, same⟩
  unfold Engine.select
  rw [Nat.add_assoc]
  rcases strays with ⟨clear, clear'⟩ | ⟨token, stray, found, found', shown⟩
  · rw [clear, clear']
    refine .bind (.ofExcept (copies.clauses same (pos + 1)
      (show .kwEndSelect ≠ TokenKind.kwCase by decide) "EndSelect")) ?_
    rintro ⟨clauses, close⟩ ⟨others, _⟩ ⟨parts, rfl⟩
    exact .andThen (echoes.selectFrom parts) fun _ => .pure rfl
  · rw [found, found']
    exact .failAt copies.renders (pos + 1)
      (shown.cause (fun token => .afterSelect token.display) fun _ _ => rfl)

/-! ### Loops -/

omit echoes copies in
/-- What a loop does after a round. -/
theorem afterRound {α : Type} {action other : Exec α}
    (rounds : Exec.Echoes respells shifts Eq action other) (view : α → Round)
    {next otherNext : Exec Flow} (later : Exec.Echoes respells shifts Eq next otherNext) :
    Exec.Echoes respells shifts Eq
      (do match view (← action) with
        | .leave flow => return flow
        | .done => return .normal
        | .next => next)
      (do match view (← other) with
        | .leave flow => return flow
        | .done => return .normal
        | .next => otherNext) := by
  refine .andThen rounds fun value => ?_
  split
  · exact .pure rfl
  · exact .pure rfl
  · exact later

section Counted

omit copies

/-- Reading the step of a loop echoes itself. -/
theorem stepOf {step other : Option TokenBlock}
    (same : Option.Rel (TokenBlock.Renders respells) step other) :
    Exec.Echoes respells shifts Eq (low.stepOf step) (low.stepOf other) := by
  cases same with
  | none => exact .pure rfl
  | some same => exact .andThen (echoes.whole same) fun _ => .pure rfl

variable {loop other : ForLoop} (same : loop.Renders respells other)
include same

/-- A round of a loop echoes itself. -/
theorem round (index : Value) :
    Exec.Echoes respells shifts Eq (low.round loop index) (low.round other index) := by
  have bound : Anew respells smallBindings [(loop.index, index)] [(other.index, index)] :=
    same.index.map (fun name => [(name, index)]) fun _ => rfl
  exact .andThen (echoes.runBlock same.body bound) fun _ => .pure rfl

/-- Counting rounds echoes itself. -/
theorem countFrom {step step' : Option TokenBlock}
    (steps : Option.Rel (TokenBlock.Renders respells) step step') (last : Float) (fuel : Nat)
    (index amount : Float) :
    Exec.Echoes respells shifts Eq (low.countFrom loop step last fuel index amount)
      (low.countFrom other step' last fuel index amount) := by
  induction fuel generalizing index amount with
  | zero => exact .starved
  | succ fuel ih =>
    refine afterRound (echoes.round same _) (fun round => round) ?_
    split
    · exact .pure rfl
    · exact .andThen (echoes.stepOf steps) fun _ => ih _ _

/-- A counting loop echoes itself. -/
theorem count {first first' last last' : TokenBlock} {step step' : Option TokenBlock}
    (firsts : first.Renders respells first') (lasts : last.Renders respells last')
    (steps : Option.Rel (TokenBlock.Renders respells) step step') :
    Exec.Echoes respells shifts Eq (low.count loop first last step)
      (low.count other first' last' step') := by
  unfold Engine.count
  refine .andThen (echoes.whole firsts) fun _ => .andThen (echoes.whole lasts) fun _ => ?_
  refine .andThen (echoes.stepOf steps) fun amount => ?_
  split
  · exact .pure rfl
  · exact echoes.countFrom same steps _ _ _ _

/-- Visiting the members of a collection echoes itself. -/
theorem visitEach (members : List Value) :
    Exec.Echoes respells shifts Eq (low.visitEach loop members) (low.visitEach other members) := by
  induction members with
  | nil => exact .pure rfl
  | cons member members ih => exact afterRound (echoes.round same member) (fun round => round) ih

end Counted

omit copies in
/-- A loop that was set aside echoes itself. -/
theorem forLoop {token other : Token} (same : token.Renders respells named other) (id : Nat) :
    Exec.Echoes respells shifts Eq (low.forLoop token id) (low.forLoop other id) := by
  unfold Engine.forLoop
  refine .get fun machine last renders => ?_
  have found := renders.program.loop id
  generalize machine.program.loops[id]? = loop? at found ⊢
  generalize last.program.loops[id]? = other? at found ⊢
  cases found with
  | none =>
    rw [same.line]
    exact .fail (.refl _) _
  | @some loop other same =>
    have renders := ForLoop.Renders.of_anew same
    have heads := renders.head
    dsimp only
    rw [renders.line]
    generalize loop.head = head at heads ⊢
    generalize other.head = head' at heads ⊢
    cases heads with
    | range firsts lasts steps => exact echoes.count renders firsts lasts steps
    | each collections =>
      refine .andThen (echoes.whole collections) fun value => .get fun machine last same => ?_
      have members : members? last value = members? machine value := by cases same; rfl
      rw [members]
      split
      · exact echoes.visitEach renders _
      · exact .fail (.refl _) _

section Rounds

omit copies

variable {shift' : Nat} {condition condition' body body' : Window}
  (tested : condition.Copies respells shift condition') (run : body.Copies respells shift' body')
include tested run

/-- Repeating while a condition holds echoes itself. -/
theorem whileRounds (fuel : Nat) :
    Exec.Echoes respells shifts Eq (low.whileRounds condition body fuel)
      (low.whileRounds condition' body' fuel) := by
  induction fuel with
  | zero => exact .starved
  | succ fuel ih =>
    refine .andThen (echoes.whole tested.renders) fun holds => ?_
    split
    · exact afterRound (echoes.body run) Round.ofFlow ih
    · exact .pure rfl

/-- Repeating until a condition holds echoes itself. -/
theorem untilRounds (fuel : Nat) :
    Exec.Echoes respells shifts Eq (low.untilRounds condition body fuel)
      (low.untilRounds condition' body' fuel) := by
  induction fuel with
  | zero => exact .starved
  | succ fuel ih =>
    refine afterRound (echoes.body run) Round.ofFlow ?_
    refine .andThen (echoes.whole tested.renders) fun holds => ?_
    split
    · exact .pure rfl
    · exact ih

end Rounds

/-- A loop with its condition in front echoes itself. -/
theorem whileLoop {opener other : Token} (same : opener.Renders respells named other) {pos : Nat}
    (inside : pos < near.stop) :
    Exec.Echoes respells shifts (Reads shift) (low.whileLoop near opener pos)
      (low.whileLoop far other (shift + pos)) := by
  have ending : Layout.statementEnd near.tokens (pos + 1) near.stop ≤ near.stop :=
    Layout.seek_le _ _ inside
  have within := Layout.scanFrom_within (fun token => token.kind == .kwWEnd) near.tokens
    near.stop (Layout.statementEnd near.tokens (pos + 1) near.stop) 0 none
  unfold Engine.whileLoop
  dsimp only
  rw [Nat.add_assoc, copies.statementEnd, copies.scanOutermost (· == .kwWEnd)]
  unfold Layout.scanOutermost
  generalize Layout.scanFrom (fun token => token.kind == .kwWEnd) near.tokens near.stop _ 0 none
    = met at within ⊢
  obtain ⟨positions, _ | close⟩ := met
  · exact .ofExcept (.error (closerFault_renders same _))
  · have before := Nat.le_of_lt (within.halted close rfl).1
    exact .andThen (echoes.whileRounds (copies.slice (pos + 1) ending) (copies.slice _ before) _)
      fun _ => .pure rfl

/-- A loop with its condition behind echoes itself. -/
theorem doLoop {opener other : Token} (same : opener.Renders respells named other) (pos : Nat) :
    Exec.Echoes respells shifts (Reads shift) (low.doLoop near opener pos)
      (low.doLoop far other (shift + pos)) := by
  have within := Layout.scanFrom_within (fun token => token.kind == .kwUntil) near.tokens
    near.stop (pos + 1) 0 none
  unfold Engine.doLoop
  dsimp only
  rw [Nat.add_assoc, copies.scanOutermost (· == .kwUntil)]
  unfold Layout.scanOutermost
  generalize Layout.scanFrom (fun token => token.kind == .kwUntil) near.tokens near.stop
    (pos + 1) 0 none = met at within ⊢
  obtain ⟨positions, _ | close⟩ := met
  · exact .ofExcept (.error (closerFault_renders same _))
  · have before := (within.halted close rfl).1
    have le : Layout.statementEnd near.tokens (close + 1) near.stop ≤ near.stop :=
      Layout.seek_le _ _ before
    dsimp only [Layout.Visit.shifted, Option.map_some]
    rw [Nat.add_assoc, copies.statementEnd]
    exact .andThen (echoes.untilRounds (copies.slice (close + 1) le)
      (copies.slice (pos + 1) (Nat.le_of_lt before)) _) fun _ => .pure rfl

end Echoes

end Engine

end LineScript
