import LineScript.Proofs.Structured.Placement

/-!
# Scans pass over structured scripts

A scan of a window (`Layout.scanFrom`) that meets lines of a structured script comes out behind
them at the depth it went in with, has halted nowhere in them, and has visited none of the
keywords that divide a choice or selection.
-/

namespace LineScript

namespace Layout

variable {halt : Token → Bool} {tokens : Array Token} {stop pos depth : Nat} {skip : Option Nat}
  {token : Token}

/-- What was visited before the rest of a scan. -/
def Visit.after (visited : List Nat) (rest : Visit) : Visit :=
  ⟨visited ++ rest.visited, rest.halted⟩

/-- Nothing visited before leaves a visit alone. -/
@[simp] theorem Visit.after_nil (rest : Visit) : rest.after [] = rest := rfl

/-- What is visited before and before that is visited in this order. -/
@[simp] theorem Visit.after_after (first second : List Nat) (rest : Visit) :
    (rest.after second).after first = rest.after (first ++ second) := by
  simp [Visit.after]

/-- One token of a scan that neither halts nor leaves the token out. -/
theorem scanFrom_eq (inside : pos < stop) (stored : tokens[pos]? = some token)
    (live : skip ≠ some pos) (goesOn : depth = 0 → halt token = false) :
    scanFrom halt tokens stop pos depth skip =
      (match trailingEndIf tokens pos stop with
      | some ending => scanFrom halt tokens stop (pos + 1) depth (some ending)
      | none =>
        if opensBlock tokens pos stop then scanFrom halt tokens stop (pos + 1) (depth + 1) skip
        else if closesBlock token.kind then scanFrom halt tokens stop (pos + 1) (depth - 1) skip
        else scanFrom halt tokens stop (pos + 1) depth skip).after
        (if depth = 0 then [pos] else []) := by
  have noHalt : ¬(depth = 0 ∧ halt token = true) := by
    rintro ⟨outermost, halts⟩
    simp [goesOn outermost] at halts
  rw [scanFrom, if_pos inside, stored]
  simp only [live, noHalt, if_false]
  split
  · rfl
  · exact (Visit.after_nil _).symm

/-- A scan leaves out the closing word of a choice on one line. -/
theorem scanFrom_skip (inside : pos < stop) (stored : tokens[pos]? = some token) :
    scanFrom halt tokens stop pos depth (some pos) =
      scanFrom halt tokens stop (pos + 1) depth (some pos) := by
  rw [scanFrom, if_pos inside, stored]
  simp

/-- A scan halts at an accepted token of the outermost level. -/
theorem scanFrom_halt (inside : pos < stop) (stored : tokens[pos]? = some token)
    (live : skip ≠ some pos) (halts : halt token = true) :
    scanFrom halt tokens stop pos 0 skip = ⟨[pos], some pos⟩ := by
  rw [scanFrom, if_pos inside, stored]
  simp [live, halts]

end Layout

namespace Structured

open Layout

/-- Keywords that divide a choice or a selection. -/
def isMarker : TokenKind → Bool
  | .kwElseIf | .kwElse | .kwCase => true
  | _ => false

/-- Kinds that neither open nor close a block. -/
def isInert (kind : TokenKind) : Bool :=
  kind != .kwIf && (closer? kind).isNone && !closesBlock kind

/-- No divider stands at any of some positions. -/
def Unmarked (tokens : Array Token) (visited : List Nat) : Prop :=
  ∀ pos ∈ visited, ∀ token, tokens[pos]? = some token → isMarker token.kind = false

/-- Two unmarked stretches are unmarked together. -/
theorem Unmarked.append {tokens : Array Token} {first second : List Nat}
    (unmarked : Unmarked tokens first) (later : Unmarked tokens second) :
    Unmarked tokens (first ++ second) := fun at' member =>
  (List.mem_append.mp member).elim (unmarked at') (later at')

/-- A closing word left out lies before a position. -/
def Stale (skip : Option Nat) (pos : Nat) : Prop := ∀ at', skip = some at' → at' < pos

/-- Nothing to skip is stale. -/
theorem Stale.nothing (pos : Nat) : Stale none pos := fun _ same => by cases same

/-- What is stale stays so at later positions. -/
theorem Stale.mono {skip : Option Nat} {pos later : Nat} (stale : Stale skip pos)
    (le : pos ≤ later) : Stale skip later := fun at' is => Nat.lt_of_lt_of_le (stale at' is) le

/-- A stale skip is not at the position. -/
theorem Stale.ne {skip : Option Nat} {pos : Nat} (stale : Stale skip pos) : skip ≠ some pos :=
  fun is => Nat.lt_irrefl _ (stale pos is)

/-- A scan goes from one position and depth to another, past no divider of the outermost level. -/
def Scans (halt : Token → Bool) (tokens : Array Token) (stop pos depth pos' depth' : Nat) : Prop :=
  ∀ skip, Stale skip pos → ∃ skip' visited, Stale skip' pos' ∧ Unmarked tokens visited ∧
    scanFrom halt tokens stop pos depth skip =
      (scanFrom halt tokens stop pos' depth' skip').after visited

section

variable {halt : Token → Bool} {tokens : Array Token} {stop pos depth : Nat} {token : Token}

namespace Scans

/-- A scan is where it is. -/
theorem refl (pos depth : Nat) : Scans halt tokens stop pos depth pos depth :=
  fun skip stale => ⟨skip, [], stale, nofun, rfl⟩

/-- Two scans that meet are one. -/
theorem trans {pos' depth' last lastDepth : Nat}
    (first : Scans halt tokens stop pos depth pos' depth')
    (second : Scans halt tokens stop pos' depth' last lastDepth) :
    Scans halt tokens stop pos depth last lastDepth := by
  intro skip stale
  obtain ⟨middle, visited, staleMiddle, unmarked, scanned⟩ := first skip stale
  obtain ⟨skip', later, staleLast, unmarkedLater, scannedLater⟩ := second middle staleMiddle
  refine ⟨skip', visited ++ later, staleLast, unmarked.append unmarkedLater, ?_⟩
  rw [scanned, scannedLater, Visit.after_after]

/-- The position reached may be written in another way. -/
theorem at_eq {pos' depth' last : Nat} (scans : Scans halt tokens stop pos depth pos' depth')
    (same : pos' = last) : Scans halt tokens stop pos depth last depth' := same ▸ scans

end Scans

/-- Only tokens of the outermost level are visited. -/
theorem unmarked_visited (stored : tokens[pos]? = some token)
    (unmarked : depth = 0 → isMarker token.kind = false) :
    Unmarked tokens (if depth = 0 then [pos] else []) := by
  intro at' member other storedOther
  split at member
  · rename_i outermost
    rw [List.mem_singleton.mp member, stored] at storedOther
    cases storedOther
    exact unmarked outermost
  · simp at member

/-- An inert token opens nothing. -/
theorem opensBlock_eq_false (stored : tokens[pos]? = some token)
    (inert : isInert token.kind = true) : opensBlock tokens pos stop = false := by
  unfold opensBlock
  rw [stored]
  dsimp only
  generalize token.kind = kind at inert
  cases kind <;> first | rfl | cases inert

/-- A word that closes a block opens none. -/
theorem not_opens_of_closes (stored : tokens[pos]? = some token)
    (closes : closesBlock token.kind = true) : opensBlock tokens pos stop = false := by
  unfold opensBlock
  rw [stored]
  dsimp only
  generalize token.kind = kind at closes
  cases kind <;> first | rfl | cases closes

/-- An inert token closes nothing. -/
theorem closesBlock_eq_false {kind : TokenKind} (inert : isInert kind = true) :
    closesBlock kind = false := by
  simp only [isInert, Bool.and_eq_true, Bool.not_eq_true'] at inert
  exact inert.2

/-- A scan passes over an inert token that it does not leave out. -/
theorem scanFrom_inert {skip : Option Nat} (inside : pos < stop)
    (stored : tokens[pos]? = some token) (live : skip ≠ some pos)
    (inert : isInert token.kind = true) (goesOn : depth = 0 → halt token = false) :
    scanFrom halt tokens stop pos depth skip =
      (scanFrom halt tokens stop (pos + 1) depth skip).after
        (if depth = 0 then [pos] else []) := by
  have notIf : token.kind ≠ .kwIf := by
    intro kind
    simp [isInert, kind] at inert
  rw [scanFrom_eq inside stored live goesOn, trailingEndIf_eq_none stored (.inl notIf),
    opensBlock_eq_false stored inert, closesBlock_eq_false inert]
  rfl

/-- Tokens of a phrase are inert and no dividers. -/
theorem Phrase.inert (phrase : Phrase) :
    ∀ token ∈ phrase.tokens, isInert token.kind = true ∧ isMarker token.kind = false := by
  intro token member
  have plain := phrase.plain token member
  generalize token.kind = kind at plain
  cases kind <;> first | exact ⟨rfl, rfl⟩ | cases plain

/-- A line end is inert and no divider. -/
theorem Ending.inert (ending : Ending) :
    isInert ending.token.kind = true ∧ isMarker ending.token.kind = false := by
  have ends := ending.endsLine
  rw [Token.endsLine] at ends
  generalize ending.token.kind = kind at ends
  cases kind <;> first | exact ⟨rfl, rfl⟩ | cases ends

variable (halts : ∀ token : Token, halt token = true → closesBlock token.kind = true)
include halts

/-- Nothing but a closing word halts the scan. -/
theorem halt_eq_false (other : closesBlock token.kind = false) : halt token = false := by
  cases accepted : halt token with
  | false => rfl
  | true => simp [halts token accepted] at other

/-- A scan passes over inert tokens, none of which it leaves out. -/
theorem scanFrom_list {list : List Token} {skip : Option Nat} (holds : Holds tokens pos list)
    (inside : pos + list.length ≤ stop)
    (apart : ∀ at', skip = some at' → at' < pos ∨ pos + list.length ≤ at')
    (inert : ∀ token ∈ list, isInert token.kind = true ∧ isMarker token.kind = false) :
    ∃ visited, Unmarked tokens visited ∧ scanFrom halt tokens stop pos depth skip =
      (scanFrom halt tokens stop (pos + list.length) depth skip).after visited := by
  induction list generalizing pos with
  | nil => exact ⟨[], nofun, rfl⟩
  | cons token rest ih =>
    simp only [List.length_cons] at inside apart
    have here := inert token List.mem_cons_self
    have live : skip ≠ some pos := fun is => by
      have := apart pos is
      omega
    obtain ⟨visited, unmarked, later⟩ := ih holds.2 (by omega)
      (fun at' is => by have := apart at' is; omega)
      fun other member => inert other (List.mem_cons_of_mem _ member)
    refine ⟨(if depth = 0 then [pos] else []) ++ visited,
      (unmarked_visited holds.1 fun _ => here.2).append unmarked, ?_⟩
    rw [scanFrom_inert (by omega) holds.1 live here.1 fun _ =>
      halt_eq_false halts (closesBlock_eq_false here.1), later, Visit.after_after,
      List.length_cons, show pos + (rest.length + 1) = pos + 1 + rest.length by omega]

namespace Scans

/-- Inert tokens that are no dividers are passed over. -/
theorem list {list : List Token} (holds : Holds tokens pos list)
    (inside : pos + list.length ≤ stop)
    (inert : ∀ token ∈ list, isInert token.kind = true ∧ isMarker token.kind = false) :
    Scans halt tokens stop pos depth (pos + list.length) depth := by
  intro skip stale
  obtain ⟨visited, unmarked, scanned⟩ :=
    scanFrom_list halts holds inside (fun at' is => .inl (stale at' is)) inert
  exact ⟨skip, visited, stale.mono (Nat.le_add_right _ _), unmarked, scanned⟩

omit halts in
/-- A divider below the outermost level is passed over. -/
theorem marker (inside : pos < stop) (stored : tokens[pos]? = some token)
    (inert : isInert token.kind = true) :
    Scans halt tokens stop pos (depth + 1) (pos + 1) (depth + 1) := by
  intro skip stale
  refine ⟨skip, [], stale.mono (Nat.le_succ pos), nofun, ?_⟩
  rw [scanFrom_inert inside stored stale.ne inert (by omega)]
  rfl

/-- An opening word adds a level. -/
theorem opens (inside : pos < stop) (stored : tokens[pos]? = some token)
    (noTrailing : trailingEndIf tokens pos stop = none)
    (opened : opensBlock tokens pos stop = true) (word : closesBlock token.kind = false)
    (unmarked : isMarker token.kind = false) :
    Scans halt tokens stop pos depth (pos + 1) (depth + 1) := by
  intro skip stale
  refine ⟨skip, if depth = 0 then [pos] else [], stale.mono (Nat.le_succ pos),
    unmarked_visited stored fun _ => unmarked, ?_⟩
  rw [scanFrom_eq inside stored stale.ne fun _ => halt_eq_false halts word, noTrailing, opened]
  rfl

omit halts in
/-- A closing word takes a level off. -/
theorem closes (inside : pos < stop) (stored : tokens[pos]? = some token)
    (closed : closesBlock token.kind = true) :
    Scans halt tokens stop pos (depth + 1) (pos + 1) depth := by
  intro skip stale
  refine ⟨skip, [], stale.mono (Nat.le_succ pos), nofun, ?_⟩
  have notIf : token.kind ≠ .kwIf := by
    intro kind
    simp [closesBlock, kind] at closed
  rw [scanFrom_eq inside stored stale.ne (by omega), trailingEndIf_eq_none stored (.inl notIf),
    not_opens_of_closes stored closed, closed]
  simp

end Scans

/-- A phrase is passed over. -/
theorem Scans.phrase {phrase : Phrase} (holds : Holds tokens pos phrase.tokens)
    (inside : pos + phrase.size ≤ stop) :
    Scans halt tokens stop pos depth (pos + phrase.size) depth :=
  .list halts holds inside phrase.inert

/-- One inert token that is no divider is passed over. -/
theorem Scans.one (inside : pos < stop) (stored : tokens[pos]? = some token)
    (inert : isInert token.kind = true ∧ isMarker token.kind = false) :
    Scans halt tokens stop pos depth (pos + 1) depth := by
  have holds : Holds tokens pos [token] := ⟨stored, trivial⟩
  refine Scans.list halts holds inside fun other member => ?_
  rw [List.mem_singleton.mp member]
  exact inert

namespace LineChoice

variable {choice : LineChoice} {ending : Word .eol}

/-- Condition, keyword and branch are passed over, whatever closing word behind them is left out. -/
theorem scanFrom_inner (placed : choice.Placed ending tokens pos stop) (depth : Nat)
    {skip : Option Nat}
    (apart : ∀ at', skip = some at' → at' < pos + 1 ∨ choice.bodyEnd pos ≤ at') :
    ∃ visited, Unmarked tokens visited ∧ scanFrom halt tokens stop (pos + 1) depth skip =
      (scanFrom halt tokens stop (choice.bodyEnd pos) depth skip).after visited := by
  have inside := placed.inside
  have size := choice.size_eq
  have bodyEnd : choice.bodyEnd pos = pos + 1 + choice.condition.size + 1 + choice.body.size := rfl
  have holds : Holds tokens (pos + 1)
      (choice.condition.tokens ++ choice.then'.token :: choice.body.tokens) := by
    rw [holds_append, holds_cons]
    exact ⟨placed.condition, placed.then', placed.body⟩
  have length : pos + 1 + (choice.condition.tokens ++
      choice.then'.token :: choice.body.tokens).length = choice.bodyEnd pos := by
    rw [List.length_append, List.length_cons, bodyEnd]
    simp only [Phrase.size]
    omega
  have passed := @scanFrom_list halt tokens stop (pos + 1) depth halts _ skip holds
    (by omega) (by rwa [length]) fun token member => by
      rcases List.mem_append.mp member with member | member
      · exact choice.condition.inert token member
      · rcases List.mem_cons.mp member with rfl | member
        · simp [choice.then'.isKind, isInert, isMarker, closer?, closesBlock]
        · exact choice.body.inert token member
  rwa [length] at passed

/-- A choice on one line is passed over; its closing word is left out. -/
theorem scans (placed : choice.Placed ending tokens pos stop) :
    Scans halt tokens stop pos depth (pos + choice.size) depth := by
  intro skip stale
  have inside : pos < stop := Nat.lt_of_le_of_lt (Nat.le_add_right _ _) placed.inside
  have size := choice.size_eq
  have kind := choice.opener.isKind
  have bodyEnd : choice.bodyEnd pos = pos + 1 + choice.condition.size + 1 + choice.body.size := rfl
  have notHalt : halt choice.opener.token = false :=
    halt_eq_false halts (by simp [kind, closesBlock])
  have unmarked : Unmarked tokens (if depth = 0 then [pos] else []) :=
    unmarked_visited placed.opener fun _ => by simp [kind, isMarker]
  have opened := scanFrom_eq inside placed.opener stale.ne fun _ : depth = 0 => notHalt
  rw [placed.trailingEndIf_eq] at opened
  cases has : choice.closer with
  | none =>
    have notOpen : opensBlock tokens pos stop = false := by
      simp [opensBlock, placed.opener, kind, placed.isSingleLineIf_eq_true]
    obtain ⟨visited, unmarkedRest, scanned⟩ := scanFrom_inner halts placed depth
      fun at' is => .inl (Nat.lt_succ_of_lt (stale at' is))
    have last : choice.bodyEnd pos = pos + choice.size := by
      rw [has] at size
      simp only [Option.isSome_none, Bool.false_eq_true, if_false] at size
      omega
    rw [last] at scanned
    simp only [has, Option.map_none, notOpen, kind, closesBlock, Bool.false_eq_true, if_false,
      scanned, Visit.after_after] at opened
    exact ⟨skip, _, stale.mono (Nat.le_add_right _ _), unmarked.append unmarkedRest, opened⟩
  | some word =>
    have apart : ∀ at', some (choice.bodyEnd pos) = some at' →
        at' < pos + 1 ∨ choice.bodyEnd pos ≤ at' := fun at' is => .inr (by cases is; omega)
    obtain ⟨visited, unmarkedRest, scanned⟩ := scanFrom_inner halts placed depth apart
    have last : choice.bodyEnd pos + 1 = pos + choice.size := by
      rw [has] at size
      simp only [Option.isSome_some, if_true] at size
      omega
    have left := placed.inside
    rw [scanFrom_skip (by omega) (placed.closer has), last] at scanned
    simp only [has, Option.map_some, scanned, Visit.after_after] at opened
    refine ⟨some (choice.bodyEnd pos), _, fun at' is => ?_, unmarked.append unmarkedRest, opened⟩
    cases is
    omega

end LineChoice

/-- A keyword of a kind that is inert and no divider is passed over. -/
theorem Scans.word {kind : TokenKind} (word : Word kind) (inside : pos < stop)
    (stored : tokens[pos]? = some word.token)
    (inert : isInert kind = true ∧ isMarker kind = false) :
    Scans halt tokens stop pos depth (pos + 1) depth :=
  .one halts inside stored (by rw [word.isKind]; exact inert)

/-- A keyword that always opens a block adds a level. -/
theorem Scans.opensWord {kind : TokenKind} (word : Word kind) (inside : pos < stop)
    (stored : tokens[pos]? = some word.token)
    (opener : kind = .kwSwitch ∨ kind = .kwSelect ∨ kind = .kwWhile ∨ kind = .kwDo) :
    Scans halt tokens stop pos depth (pos + 1) (depth + 1) := by
  have isKind := word.isKind
  refine .opens halts inside stored (trailingEndIf_eq_none stored (.inl ?_)) ?_ ?_ ?_
  · rcases opener with rfl | rfl | rfl | rfl <;> simp [isKind]
  · rcases opener with rfl | rfl | rfl | rfl <;> simp [opensBlock, stored, isKind]
  · rcases opener with rfl | rfl | rfl | rfl <;> simp [closesBlock, isKind]
  · rcases opener with rfl | rfl | rfl | rfl <;> simp [isMarker, isKind]

omit halts in
/-- A choice whose condition ends its line opens a block. -/
theorem not_isSingleLineIf {condition : Phrase} {then' : Word .kwThen} {ending : Ending}
    (holds : Holds tokens (pos + 1) condition.tokens)
    (ended : tokens[pos + 1 + condition.size]? = some then'.token)
    (lineEnd : tokens[pos + 1 + condition.size + 1]? = some ending.token)
    (inside : pos + 1 + condition.size + 1 < stop) : isSingleLineIf tokens pos stop = false := by
  rw [isSingleLineIf_eq (condition.findThen_eq holds (by omega) ended) inside lineEnd,
    ending.endsLine]
  rfl

/-- The keyword of a choice over several lines adds a level. -/
theorem Scans.opensChoice {opener : Word .kwIf} (inside : pos < stop)
    (stored : tokens[pos]? = some opener.token)
    (overLines : isSingleLineIf tokens pos stop = false) :
    Scans halt tokens stop pos depth (pos + 1) (depth + 1) := by
  have isKind := opener.isKind
  refine .opens halts inside stored (trailingEndIf_eq_none stored (.inr overLines)) ?_ ?_ ?_
  · simp [opensBlock, stored, isKind, overLines]
  · simp [closesBlock, isKind]
  · simp [isMarker, isKind]

omit halts in
/-- A closing keyword takes a level off. -/
theorem Scans.closesWord {kind : TokenKind} (word : Word kind) (inside : pos < stop)
    (stored : tokens[pos]? = some word.token) (closed : closesBlock kind = true) :
    Scans halt tokens stop pos (depth + 1) (pos + 1) depth :=
  .closes inside stored (by rw [word.isKind]; exact closed)

mutual

/-- A scan passes over a statement. -/
theorem Statement.scans : ∀ (statement : Statement) {pos depth : Nat},
    Holds tokens pos statement.render → pos + statement.size ≤ stop →
    Scans halt tokens stop pos depth (pos + statement.size) depth
  | .simple sentence, pos, depth, holds, inside => Scans.phrase halts holds inside
  | .choice opener condition then' body branches closer, pos, depth, holds, inside => by
    simp only [holds_choice, Statement.size_choice] at holds inside ⊢
    obtain ⟨opened, condition', ended, body', branches', closed⟩ := holds
    have overLines : isSingleLineIf tokens pos stop = false := by
      obtain ⟨ending, lines⟩ := body
      simp only [Body.size_mk] at inside
      exact not_isSingleLineIf condition' ended body'.1 (by omega)
    refine Scans.at_eq (.trans (.opensChoice halts (by omega) opened overLines)
      (.trans (.phrase halts condition' (by omega)) (.trans (.word halts then' (by omega) ended ⟨rfl, rfl⟩)
      (.trans (body.scans body' (by omega)) (.trans (branches.scans branches' (by omega))
      (.closesWord closer (by omega) closed rfl)))))) (by omega)
  | .switch opener subject ending clauses closer, pos, depth, holds, inside => by
    simp only [holds_switch, Statement.size_switch] at holds inside ⊢
    obtain ⟨opened, subject', ended, clauses', closed⟩ := holds
    refine Scans.at_eq (.trans (.opensWord halts opener (by omega) opened (.inl rfl))
      (.trans (.phrase halts subject' (by omega))
      (.trans (.one halts (by omega) ended ending.inert)
      (.trans (clauses.scans clauses' (by omega)) (.closesWord closer (by omega) closed rfl)))))
      (by omega)
  | .select opener ending clauses closer, pos, depth, holds, inside => by
    simp only [holds_select, Statement.size_select] at holds inside ⊢
    obtain ⟨opened, ended, clauses', closed⟩ := holds
    refine Scans.at_eq (.trans (.opensWord halts opener (by omega) opened (.inr (.inl rfl)))
      (.trans (.one halts (by omega) ended ending.inert)
      (.trans (clauses.scans clauses' (by omega)) (.closesWord closer (by omega) closed rfl))))
      (by omega)
  | .whileLoop opener condition body closer, pos, depth, holds, inside => by
    simp only [holds_whileLoop, Statement.size_whileLoop] at holds inside ⊢
    obtain ⟨opened, condition', body', closed⟩ := holds
    refine Scans.at_eq (.trans (.opensWord halts opener (by omega) opened (.inr (.inr (.inl rfl))))
      (.trans (.phrase halts condition' (by omega))
      (.trans (body.scans body' (by omega)) (.closesWord closer (by omega) closed rfl)))) (by omega)
  | .doLoop opener body closer condition, pos, depth, holds, inside => by
    simp only [holds_doLoop, Statement.size_doLoop] at holds inside ⊢
    obtain ⟨opened, body', closed, condition'⟩ := holds
    refine Scans.at_eq (.trans (.opensWord halts opener (by omega) opened (.inr (.inr (.inr rfl))))
      (.trans (body.scans body' (by omega)) (.trans (.closesWord closer (by omega) closed rfl)
      (.phrase halts condition' (by omega))))) (by omega)

/-- A scan passes over lines. -/
theorem Block.scans : ∀ (block : Block) {pos depth : Nat}, Holds tokens pos block.render →
    pos + block.size ≤ stop → Scans halt tokens stop pos depth (pos + block.size) depth
  | .nil, pos, depth, _, _ => .refl pos depth
  | .blank ending rest, pos, depth, holds, inside => by
    simp only [Block.size_blank] at inside ⊢
    refine Scans.at_eq (.trans (.one halts (by omega) holds.1 ending.inert)
      (rest.scans holds.2 (by omega))) (by omega)
  | .line statement ending rest, pos, depth, holds, inside => by
    simp only [holds_line, Block.size_line] at holds inside ⊢
    obtain ⟨statement', ended, rest'⟩ := holds
    refine Scans.at_eq (.trans (statement.scans statement' (by omega))
      (.trans (.one halts (by omega) ended ending.inert) (rest.scans rest' (by omega))))
      (by omega)
  | .choiceLine choice ending rest, pos, depth, holds, inside => by
    simp only [holds_choiceLine, Block.size_choiceLine] at holds inside ⊢
    obtain ⟨choice', ended, rest'⟩ := holds
    have placed : choice.Placed ending tokens pos stop := ⟨choice', ended, by omega⟩
    refine Scans.at_eq (.trans (LineChoice.scans halts placed)
      (.trans (.word halts ending (by omega) ended ⟨rfl, rfl⟩) (rest.scans rest' (by omega)))) (by omega)

/-- A scan passes over a body. -/
theorem Body.scans : ∀ (body : Body) {pos depth : Nat}, Holds tokens pos body.render →
    pos + body.size ≤ stop → Scans halt tokens stop pos depth (pos + body.size) depth
  | .mk ending lines, pos, depth, holds, inside => by
    simp only [Body.size_mk] at inside ⊢
    refine Scans.at_eq (.trans (.one halts (by omega) holds.1 ending.inert)
      (lines.scans holds.2 (by omega))) (by omega)

/-- A scan passes over the further branches of a choice that it is inside of. -/
theorem Branches.scans : ∀ (branches : Branches) {pos depth : Nat},
    Holds tokens pos branches.render → pos + branches.size ≤ stop →
    Scans halt tokens stop pos (depth + 1) (pos + branches.size) (depth + 1)
  | .done, pos, depth, _, _ => .refl pos (depth + 1)
  | .elseIf word condition then' body rest, pos, depth, holds, inside => by
    simp only [holds_elseIf, Branches.size_elseIf] at holds inside ⊢
    obtain ⟨opened, condition', ended, body', rest'⟩ := holds
    refine Scans.at_eq (.trans (.marker (by omega) opened (by rw [word.isKind]; rfl))
      (.trans (.phrase halts condition' (by omega)) (.trans (.word halts then' (by omega) ended ⟨rfl, rfl⟩)
      (.trans (body.scans body' (by omega)) (rest.scans rest' (by omega)))))) (by omega)
  | .otherwise word body, pos, depth, holds, inside => by
    simp only [Branches.size_otherwise] at inside ⊢
    refine Scans.at_eq (.trans (.marker (by omega) holds.1 (by rw [word.isKind]; rfl))
      (body.scans holds.2 (by omega))) (by omega)

/-- A scan passes over the clauses of a selection that it is inside of. -/
theorem Clauses.scans : ∀ (clauses : Clauses) {pos depth : Nat},
    Holds tokens pos clauses.render → pos + clauses.size ≤ stop →
    Scans halt tokens stop pos (depth + 1) (pos + clauses.size) (depth + 1)
  | .done, pos, depth, _, _ => .refl pos (depth + 1)
  | .case word header body rest, pos, depth, holds, inside => by
    simp only [holds_case, Clauses.size_case] at holds inside ⊢
    obtain ⟨opened, header', body', rest'⟩ := holds
    refine Scans.at_eq (.trans (.marker (by omega) opened (by rw [word.isKind]; rfl))
      (.trans (.phrase halts header' (by omega))
      (.trans (body.scans body' (by omega)) (rest.scans rest' (by omega))))) (by omega)
  | .otherwise word else' body rest, pos, depth, holds, inside => by
    simp only [holds_caseElse, Clauses.size_otherwise] at holds inside ⊢
    obtain ⟨opened, elsed, body', rest'⟩ := holds
    refine Scans.at_eq (.trans (.marker (by omega) opened (by rw [word.isKind]; rfl))
      (.trans (.marker (by omega) elsed (by rw [else'.isKind]; rfl))
      (.trans (body.scans body' (by omega)) (rest.scans rest' (by omega))))) (by omega)

end

end

end Structured

end LineScript
