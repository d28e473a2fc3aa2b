import LineScript.Proofs.Blocks.Line
import LineScript.Proofs.Machine.Evolution
import LineScript.Proofs.Supply.Expression

/-!
# Enough fuel for choices, selections and loops over collections

The blocks that a statement runs stand behind its first token, so an engine that has enough fuel for
all blocks behind a position has enough for the statement there. A loop over a collection goes
through the members that are there when it begins, so it needs no rounds.
-/

namespace LineScript

open Machine

variable {supply : Supply} {low : Engine} {window : Window} {pos : Nat}

/-- All branches of a choice begin behind a position. -/
theorem Branch.split_behind {close : Nat} {condition : Option Window} {start : Nat}
    {markers : List Nat} {branches : List Branch}
    (made : split window close condition start markers = .ok branches) (first : pos < start)
    (behind : ∀ marker ∈ markers, pos < marker) : ∀ branch ∈ branches, pos < branch.body.start := by
  induction markers generalizing condition start branches with
  | nil =>
    cases made
    exact List.forall_mem_singleton.mpr first
  | cons marker markers ih =>
    obtain ⟨here, later⟩ := List.forall_mem_cons.mp behind
    have rest : ∀ {condition start others}, pos < start →
        split window close condition start markers = .ok others →
        ∀ branch ∈ others, pos < branch.body.start := fun first made => ih made first later
    simp only [split] at made
    split at made
    · cases made
      exact List.forall_mem_singleton.mpr first
    · split at made
      · split at made
        · rename_i found ends
          have := Layout.lt_of_findThen ends
          obtain ⟨others, madeOthers, same⟩ := bind_eq_ok.mp made
          cases same
          exact List.forall_mem_cons.mpr ⟨first, rest (by omega) madeOthers⟩
        · cases made
      · obtain ⟨others, madeOthers, same⟩ := bind_eq_ok.mp made
        cases same
        exact List.forall_mem_cons.mpr ⟨first, rest (by omega) madeOthers⟩

/-- All parts of a choice over several lines stand behind its first token. -/
theorem choiceBranches_behind {opener : Token} {found close : Nat} {branches : List Branch}
    (made : choiceBranches window opener pos found = .ok (branches, close)) (after : pos < found) :
    pos ≤ close ∧ ∀ branch ∈ branches, pos < branch.body.start := by
  obtain ⟨visited, halted⟩ := Layout.le_scanFrom (fun token => token.kind == .kwEndIf)
    window.tokens window.stop (found + 1) 0 none
  unfold choiceBranches Layout.scanOutermost at made
  dsimp only at made
  split at made
  · cases made
  · rename_i ending stops
    obtain ⟨others, split, same⟩ := bind_eq_ok.mp made
    cases same
    have := halted _ stops
    refine ⟨by omega, Branch.split_behind split (by omega) fun marker member => ?_⟩
    have := visited marker (List.mem_filter.mp member).1
    omega

/-- The bodies of clauses lie behind the positions of their words. -/
theorem clausesAt_behind {tokens : TokenBlock} {close : Nat} {cases' : List Nat}
    (behind : ∀ case' ∈ cases', pos ≤ case') :
    ∀ clause ∈ clausesAt tokens close cases', pos < clause.body.start := by
  induction cases' with
  | nil => simp [clausesAt]
  | cons case' cases' ih =>
    obtain ⟨here, later⟩ := List.forall_mem_cons.mp behind
    have := Layout.le_seek Token.endsLine tokens (case' + 1) close
    exact List.forall_mem_cons.mpr ⟨Nat.lt_of_le_of_lt here this, ih later⟩

/-- All parts of a selection stand behind the position from which on they are looked for. -/
theorem clauses_behind {opener : Token} {close : Nat} {closer : TokenKind} {name : String}
    {found : List Clause} (made : clauses window opener pos closer name = .ok (found, close)) :
    pos ≤ close ∧ ∀ clause ∈ found, pos < clause.body.start := by
  obtain ⟨visited, halted⟩ := Layout.le_scanFrom (fun token => token.kind == closer)
    window.tokens window.stop pos 0 none
  have behind : ∀ {close}, ∀ clause ∈ clausesAt window.tokens close (positionsOf window.tokens
      (· == .kwCase) (Layout.scanFrom (fun token => token.kind == closer) window.tokens window.stop
        pos 0 none).visited), pos < clause.body.start :=
    clausesAt_behind fun case' member => visited case' (List.mem_filter.mp member).1
  unfold clauses Layout.scanOutermost at made
  dsimp only at made
  split at made
  · cases made
  · rename_i ending stops
    have le := halted _ stops
    repeat' split at made
    all_goals cases made
    all_goals exact ⟨le, behind⟩

/-- The engine has enough fuel to run a window as a block. -/
def Engine.Runs (low : Engine) (supply : Supply) (code : Window) : Prop :=
  ∀ bindings, supply.Does (low.runBlock code bindings) fun _ => True

/-- The engine has enough fuel for the statement at a position of a window, which is no loop of open
end. -/
structure Engine.Serves (low : Engine) (supply : Supply) (window : Window) (pos : Nat) : Prop where
  /-- It keeps to the program. -/
  obeys : low.Obeys supply.guard
  /-- A loop may make a round for each token, and one more. -/
  room : window.tokens.size < low.fuel
  /-- It has enough for all expressions. -/
  reads : ∀ part : Window, part.tokens = window.tokens → low.Reads supply part 0
  /-- It has enough for the blocks that begin behind the position. -/
  runs : ∀ body : Window, body.tokens = window.tokens → pos < body.start → low.Runs supply body
  /-- A loop of the table that stands at the position goes through a collection, and there is enough
  for its parts. -/
  loops : ∀ token, window.token? pos = some token → ∀ id, token.kind = .loop id →
    ∀ loop, supply.program.loops[id]? = some loop → low.Runs supply (.whole loop.body) ∧
      ∃ collection, loop.head = .each collection ∧ low.Reads supply (.whole collection) 0
  /-- No loop of open end begins at the position. -/
  closed : ∀ token, window.token? pos = some token →
    token.kind ≠ .kwWhile ∧ token.kind ≠ .kwDo

namespace Engine.Serves

variable (serves : low.Serves supply window pos)
include serves

/-- The engine that serves a window reads it from every position on. -/
theorem read : low.Reads supply window pos := (serves.reads window rfl).later (Nat.zero_le pos)

/-- The engine that serves a window has fuel for all of its positions. -/
theorem enough (at' : Nat) : window.tokens.size - at' < low.fuel :=
  Nat.lt_of_le_of_lt (Nat.sub_le _ _) serves.room

/-- Evaluating a complete expression does not run out of fuel. -/
theorem whole {part : Window} (same : part.tokens = window.tokens) :
    supply.Does (low.whole part) fun _ => True :=
  ((serves.reads part same).later (Nat.zero_le _)).whole

/-- Running the branches of a conditional does not run out of fuel. -/
theorem runBranches {branches : List Branch} (parts : ∀ branch ∈ branches, branch.IsOf window.tokens)
    (behind : ∀ branch ∈ branches, pos < branch.body.start) :
    supply.Does (low.runBranches branches) fun _ => True := by
  induction branches with
  | nil => exact .pure trivial
  | cons branch branches ih =>
    obtain ⟨part, otherParts⟩ := List.forall_mem_cons.mp parts
    obtain ⟨here, later⟩ := List.forall_mem_cons.mp behind
    have body := serves.runs branch.body part.1 here []
    unfold Engine.runBranches
    split
    · exact body
    · rename_i header condition
      refine (serves.whole (part.2 header condition)).bind fun _ _ => ?_
      split
      · exact body
      · exact ih otherParts later

/-- A conditional does not run out of fuel. -/
theorem choice (opener : Token) :
    supply.Does (low.choice window opener pos) fun result => pos ≤ result.2 := by
  unfold Engine.choice
  split
  · exact .fault _
  · rename_i found ends
    have after := Layout.lt_of_findThen ends
    split
    · unfold Engine.choiceOnLine
      have line := Layout.le_seek (fun token => token.kind == .eol) window.tokens (found + 1)
        window.stop
      have passed : pos ≤ Layout.lineEnd window.tokens (found + 1) window.stop := by
        unfold Layout.lineEnd
        omega
      have condition : supply.Does (low.whole (.slice window.tokens (pos + 1) found)) fun _ => True :=
        serves.whole rfl
      refine condition.bind fun _ _ => ?_
      split
      · refine Supply.Does.bind (serves.runs _ ?_ ?_ []) fun _ _ => .pure passed
        · rfl
        · exact Nat.lt_succ_of_lt after
      · exact .pure passed
    · have parts : supply.Does (Exec.ofExcept (choiceBranches window opener pos found))
          fun result => (∀ branch ∈ result.1, branch.IsOf window.tokens) ∧ pos ≤ result.2 ∧
            ∀ branch ∈ result.1, pos < branch.body.start :=
        .ofExcept fun result made => ⟨choiceBranches_isOf made, choiceBranches_behind made after⟩
      refine parts.bind fun result holds => ?_
      obtain ⟨isOf, le, behind⟩ := holds
      exact (serves.runBranches isOf behind).bind fun _ _ => .pure (Nat.le_succ_of_le le)

/-- Running clauses does not run out of fuel. -/
theorem runClauses {clauses : List Clause} (parts : ∀ clause ∈ clauses, clause.IsOf window.tokens)
    (behind : ∀ clause ∈ clauses, pos < clause.body.start) :
    supply.Does (low.runClauses clauses) fun _ => True := by
  induction clauses with
  | nil => exact .pure trivial
  | cons clause clauses ih =>
    obtain ⟨part, otherParts⟩ := List.forall_mem_cons.mp parts
    obtain ⟨here, later⟩ := List.forall_mem_cons.mp behind
    unfold Engine.runClauses
    refine (serves.runs clause.body part.1 here []).bind fun _ _ => ?_
    split
    · exact ih otherParts later
    · exact .pure trivial

/-- Reading the items of a case does not run out of fuel. -/
theorem caseItemsFrom {header : Window} (same : header.tokens = window.tokens) {rounds at' : Nat}
    (left : window.tokens.size - at' < rounds) (items : List CaseItem) :
    supply.Does (low.caseItemsFrom header rounds at' items) fun _ => True := by
  induction rounds generalizing at' items with
  | zero => exact absurd left (Nat.not_lt_zero _)
  | succ rounds ih =>
    have reads := serves.reads header same
    have rest : ∀ (item : CaseItem) (last : Nat), at' ≤ last →
        supply.Does (low.moreItems header rounds last (items ++ [item])) fun _ => True := by
      intro item last le
      unfold Engine.moreItems
      split
      · exact .pure trivial
      · rename_i token found
        have inside := Window.lt_of_token? found
        rw [same] at inside
        split
        · exact ih (by omega) _
        · exact .failAt _ _ _
    unfold Engine.caseItemsFrom
    refine (reads.value at' (Nat.zero_le _)).bind fun first read => ?_
    dsimp only
    split
    · simp only [pure_bind]
      refine (reads.value _ (Nat.zero_le _)).bind fun last further => ?_
      have := read.le
      have := further.le
      exact rest _ _ (by omega)
    · exact rest _ _ read.le

/-- Reading the items of all cases does not run out of fuel. -/
theorem caseItems {clauses : List Clause} (parts : ∀ clause ∈ clauses, clause.IsOf window.tokens) :
    supply.Does (low.caseItems clauses) fun _ => True := by
  induction clauses with
  | nil => exact .pure trivial
  | cons clause clauses ih =>
    obtain ⟨part, otherParts⟩ := List.forall_mem_cons.mp parts
    have rest : ∀ items : Option (List CaseItem), supply.Does (do
        let others ← low.caseItems clauses
        return items :: others) fun _ => True :=
      fun _ => (ih otherParts).bind fun _ _ => .pure trivial
    unfold Engine.caseItems
    dsimp only
    split
    · exact rest none
    · have given : supply.Does
          (some <$> low.caseItemsFrom clause.header low.fuel clause.header.start [])
          fun _ => True :=
        (serves.caseItemsFrom part.2 (serves.enough _) []).map fun _ _ => trivial
      exact given.bind fun items _ => rest items

omit serves in
/-- What is done with the clauses of a selection, which stand behind the position. -/
theorem selection {opener : Token} {start : Nat} {closer : TokenKind} {name : String}
    {next : List Clause × Nat → Exec (Flow × Nat)} (after : pos < start)
    (does : ∀ parts : List Clause × Nat, (∀ clause ∈ parts.1, clause.IsOf window.tokens) →
      (∀ clause ∈ parts.1, pos < clause.body.start) → pos ≤ parts.2 + 1 →
      supply.Does (next parts) fun result => pos ≤ result.2) :
    supply.Does (Exec.ofExcept (clauses window opener start closer name) >>= next)
      fun result => pos ≤ result.2 := by
  have parts : supply.Does (Exec.ofExcept (clauses window opener start closer name))
      fun result => (∀ clause ∈ result.1, clause.IsOf window.tokens) ∧ start ≤ result.2 ∧
        ∀ clause ∈ result.1, start < clause.body.start :=
    .ofExcept fun result made => ⟨clauses_isOf made, clauses_behind made⟩
  refine parts.bind fun result holds => ?_
  obtain ⟨isOf, le, behind⟩ := holds
  exact does result isOf (fun clause member => Nat.lt_trans after (behind clause member)) (by omega)

/-- A switch does not run out of fuel. -/
theorem switch (opener : Token) :
    supply.Does (low.switch window opener pos) fun result => pos ≤ result.2 := by
  unfold Engine.switch
  refine (serves.read.value _ (Nat.le_succ pos)).bind fun subject read => ?_
  refine selection (Nat.lt_of_succ_le read.le) fun parts isOf behind le => ?_
  refine (serves.caseItems isOf).bind fun items _ => ?_
  refine (serves.runClauses (fun clause member => isOf clause (List.mem_of_mem_drop member))
    fun clause member => behind clause (List.mem_of_mem_drop member)).bind fun _ _ => ?_
  exact .pure le

/-- Choosing among clauses does not run out of fuel. -/
theorem selectFrom {clauses : List Clause} (parts : ∀ clause ∈ clauses, clause.IsOf window.tokens)
    (behind : ∀ clause ∈ clauses, pos < clause.body.start) :
    supply.Does (low.selectFrom clauses) fun _ => True := by
  induction clauses with
  | nil => exact .pure trivial
  | cons clause clauses ih =>
    have chosen := serves.runClauses parts behind
    obtain ⟨part, otherParts⟩ := List.forall_mem_cons.mp parts
    unfold Engine.selectFrom
    split
    · exact chosen
    · refine (serves.whole part.2).bind fun _ _ => ?_
      split
      · exact chosen
      · exact ih otherParts (List.forall_mem_cons.mp behind).2

/-- A selection does not run out of fuel. -/
theorem select (opener : Token) :
    supply.Does (low.select window opener pos) fun result => pos ≤ result.2 := by
  unfold Engine.select
  split
  · exact .failAt _ _ _
  · refine selection (Nat.lt_succ_self pos) fun parts isOf behind le => ?_
    exact (serves.selectFrom isOf behind).bind fun _ _ => .pure le

omit serves in
/-- Visiting the members of a collection does not run out of fuel. -/
theorem visitEach {loop : ForLoop} (runs : low.Runs supply (.whole loop.body)) (members : List Value) :
    supply.Does (low.visitEach loop members) fun _ => True := by
  induction members with
  | nil => exact .pure trivial
  | cons member members ih =>
    unfold Engine.visitEach
    have round : supply.Does (low.round loop member) fun _ => True :=
      (runs _).bind fun _ _ => .pure trivial
    refine round.bind fun _ _ => ?_
    split
    · exact .pure trivial
    · exact .pure trivial
    · exact ih

/-- A loop over an index does not run out of fuel. -/
theorem forLoop {token : Token} (found : window.token? pos = some token) {id : Nat}
    (isLoop : token.kind = .loop id) : supply.Does (low.forLoop token id) fun _ => True := by
  unfold Engine.forLoop
  refine .get fun machine fits => ?_
  rw [fits.program_eq]
  split
  · exact .fail _ _
  · rename_i loop known
    obtain ⟨runs, collection, head, reads⟩ := serves.loops token found id isLoop loop known
    rw [head]
    refine (reads.later (Nat.zero_le _)).whole.bind fun _ _ => .get fun _ _ => ?_
    split
    · exact visitEach runs _
    · exact .fail _ _

/-- A statement that begins with a plain token. -/
theorem statement_plain {token : Token} (found : window.token? pos = some token)
    (plain : token.kind.isPlain) :
    supply.Does (low.statement window pos) fun result => pos ≤ result.2 := by
  have normal : ∀ {action : Exec Nat}, supply.Does action (fun _ => True) →
      supply.Does (do return (Flow.normal, ← action)) fun _ => True :=
    fun does => does.bind fun _ _ => .pure trivial
  have call : supply.Does
      (do let result ← low.value window pos; return (Flow.normal, result.2)) fun _ => True :=
    (serves.read.value pos (Nat.le_refl pos)).bind fun _ _ => .pure trivial
  have enough := serves.enough pos
  have does : supply.Does (low.statement window pos) fun _ => True := by
    unfold Engine.statement
    rw [found]
    dsimp only
    split
    case h_1 => exact normal (serves.read.declaration serves.obeys enough)
    case h_2 =>
      exact normal ((serves.read.later (Nat.le_succ pos)).enumeration (serves.enough _) _)
    case h_3 => exact normal (serves.read.assignEach serves.obeys enough enough)
    case h_4 | h_5 => exact call
    case h_6 => exact normal (serves.read.resizing serves.obeys enough)
    case h_10 kind => exact (serves.forLoop found kind).bind fun _ _ => .pure trivial
    case h_15 => exact .failAt _ _ _
    all_goals
      rename_i kind
      rw [kind] at plain
      cases plain
  exact (does.keeping (serves.obeys.statement_plain trivial found plain)).mono
    fun _ passes => passes.le

/-- The statement at the position. -/
theorem statement :
    supply.Does (low.statement window pos) fun result => pos ≤ result.2 := by
  cases found : window.token? pos with
  | none =>
    unfold Engine.statement
    rw [found]
    exact .pure (Nat.le_refl pos)
  | some token =>
    by_cases plain : token.kind.isPlain
    · exact serves.statement_plain found plain
    · obtain ⟨notWhile, notDo⟩ := serves.closed token found
      unfold Engine.statement
      rw [found]
      dsimp only
      split
      case h_7 => exact serves.choice token
      case h_8 => exact serves.switch token
      case h_9 => exact serves.select token
      case h_11 kind => exact absurd kind notWhile
      case h_12 kind => exact absurd kind notDo
      case h_13 | h_14 => exact .pure (Nat.le_refl pos)
      case h_15 => exact .failAt _ _ _
      all_goals
        rename_i kind
        rw [kind] at plain
        exact absurd rfl plain

end Engine.Serves

end LineScript
