import LineScript.Proofs.Structured.Acceptance

/-!
# Conditions and choices on one line

Where a window ends earlier, the searches of the layout find the same as long as what they find
lies before the new end. A choice on one line (`OneLine`) is passed over by scans and by the check
of blocks as a whole, together with the closing word that may end its line.
-/

namespace LineScript

namespace Layout

variable {tokens : Array Token} {pos stop last found : Nat}

/-- A position has a kind exactly when a token of that kind is stored there. -/
theorem hasKind_iff {kind : TokenKind} :
    hasKind tokens pos kind = true ↔ ∃ token, tokens[pos]? = some token ∧ token.kind = kind := by
  unfold hasKind
  cases tokens[pos]? <;> simp

/-- What ends a condition, or the line without having ended it. -/
def endsHead (token : Token) : Bool := token.kind == .kwThen || token.kind == .eol

/-- The header's end is found exactly where the search for it halts, at a Then before the stop. -/
theorem findThen_eq_some : findThen tokens pos stop = some found ↔
    seek endsHead tokens (pos + 1) stop = found ∧ found < stop ∧
      hasKind tokens found .kwThen = true := by
  have unfolded : findThen tokens pos stop =
      if seek endsHead tokens (pos + 1) stop < stop then
        if hasKind tokens (seek endsHead tokens (pos + 1) stop) .kwThen then
          some (seek endsHead tokens (pos + 1) stop)
        else none
      else none := by
    unfold findThen hasKind
    simp only [show endsHead = fun token : Token =>
      token.kind == .kwThen || token.kind == .eol from rfl]
    split
    · split <;> rfl
    · rfl
  rw [unfolded]
  constructor
  · intro is
    split at is
    · split at is
      · cases is
        exact ⟨rfl, ‹_›, ‹_›⟩
      · cases is
    · cases is
  · rintro ⟨rfl, inside, isThen⟩
    rw [if_pos inside, if_pos isThen]

/-- The word that ends a condition stands behind the word that opens it. -/
theorem lt_of_findThen (ends : findThen tokens pos stop = some found) : pos < found := by
  have := (findThen_eq_some.mp ends).1
  have := le_seek endsHead tokens (pos + 1) stop
  omega

/-- A condition that ends before a nearer stop ends there too. -/
theorem findThen_cut (ends : findThen tokens pos stop = some found) (before : found < last)
    (le : last ≤ stop) : findThen tokens pos last = some found := by
  have after := lt_of_findThen ends
  obtain ⟨is, inside, isThen⟩ := findThen_eq_some.mp ends
  refine findThen_eq_some.mpr ⟨?_, before, isThen⟩
  rw [seek_cut (by omega) le, is]
  omega

/-- A condition that ends before a nearer stop ends there in the whole window. -/
theorem findThen_extend (ends : findThen tokens pos last = some found) (le : last ≤ stop) :
    findThen tokens pos stop = some found := by
  have after := lt_of_findThen ends
  obtain ⟨is, inside, isThen⟩ := findThen_eq_some.mp ends
  have cut : seek endsHead tokens (pos + 1) last =
      min (seek endsHead tokens (pos + 1) stop) last := seek_cut (by omega) le
  exact findThen_eq_some.mpr ⟨by omega, by omega, isThen⟩

/-- A choice stands on one line if its line goes on behind the condition. -/
theorem isSingleLineIf_iff : isSingleLineIf tokens pos stop = true ↔
    ∃ found token, findThen tokens pos stop = some found ∧ found + 1 < stop ∧
      tokens[found + 1]? = some token ∧ token.endsLine = false := by
  unfold isSingleLineIf
  cases findThen tokens pos stop with
  | none => simp
  | some found =>
    by_cases inside : found + 1 < stop
    · cases stored : tokens[found + 1]? <;> simp [inside, stored]
    · simp [inside]

/-- A closing word that ends the line of a choice on one line is the last token of the line. -/
theorem trailingEndIf_eq_some : trailingEndIf tokens pos stop = some last ↔
    hasKind tokens pos .kwIf = true ∧ isSingleLineIf tokens pos stop = true ∧
      statementEnd tokens pos stop = last + 1 ∧ pos < last ∧
      hasKind tokens last .kwEndIf = true := by
  unfold trailingEndIf
  constructor
  · intro is
    split at is
    · rename_i onLine
      dsimp only at is
      split at is
      · rename_i closes
        cases is
        simp only [Bool.and_eq_true, decide_eq_true_eq] at onLine closes
        exact ⟨onLine.1, onLine.2, by omega, by omega, closes.2⟩
      · cases is
    · cases is
  · rintro ⟨isIf, onLine, ending, before, closes⟩
    rw [isIf, onLine, ending]
    simp [closes]
    omega

/-- Every word but that of a choice opens a block wherever it stands, or nowhere. -/
theorem opensBlock_eq_isSome {token : Token} (stored : tokens[pos]? = some token)
    (other : token.kind ≠ .kwIf) : opensBlock tokens pos stop = (closer? token.kind).isSome := by
  unfold opensBlock
  rw [stored]
  dsimp only
  cases kind : token.kind <;> first | rfl | exact absurd kind other

/-- The closer of any opener closes a block. -/
theorem closesBlock_of_closer? {opener kind : TokenKind} (closes : closer? opener = some kind) :
    closesBlock kind = true := by
  cases opener <;> cases closes <;> rfl

/-- The closing word depends on the stop through the extent of the line only. -/
theorem trailingEndIf_congr
    (onLine : isSingleLineIf tokens pos last = isSingleLineIf tokens pos stop)
    (ending : statementEnd tokens pos last = statementEnd tokens pos stop) :
    trailingEndIf tokens pos last = trailingEndIf tokens pos stop := by
  unfold trailingEndIf
  rw [onLine, ending]

/-- The statement behind a condition ends on its line. -/
theorem statementEnd_lineEnd (le : pos ≤ stop) :
    statementEnd tokens pos (lineEnd tokens pos stop) = statementEnd tokens pos stop := by
  have shorter : statementEnd tokens pos stop ≤ lineEnd tokens pos stop :=
    seek_le_seek (fun token isEol => by simp [Token.endsLine, eq_of_beq isEol]) tokens pos stop
  have cut : statementEnd tokens pos (lineEnd tokens pos stop) =
      min (statementEnd tokens pos stop) (lineEnd tokens pos stop) :=
    seek_cut (le_seek ..) (seek_le _ _ le)
  rw [cut, Nat.min_eq_left shorter]

end Layout

namespace Blocks

open Layout Structure Structured

variable {tokens : Array Token} {stop pos found last next : Nat} {token : Token}

/-- Only tokens that change no blocks stand from one position up to another. -/
def Quiet (tokens : Array Token) (first last : Nat) : Prop :=
  ∀ pos, first ≤ pos → pos < last →
    ∃ token, tokens[pos]? = some token ∧ isPassed token.kind = true

/-- What may stand in the branch of a choice on one line: tokens that change no blocks, and words of
further choices that have a condition and a branch before its end. -/
def Inline (tokens : Array Token) (first last : Nat) : Prop :=
  ∀ pos, first ≤ pos → pos < last →
    ∃ token, tokens[pos]? = some token ∧ (isPassed token.kind = true ∨ token.kind = .kwIf ∧
      ∃ found, findThen tokens pos last = some found ∧ Quiet tokens (pos + 1) found ∧
        found + 1 < last)

/-- A choice on one line: its condition ends at `found`, its branch before `last`, and its line goes
on at `next`, which is behind the closing word if there is one. -/
structure OneLine (tokens : Array Token) (stop pos found last next : Nat) : Prop where
  /-- The opening word. -/
  opener : hasKind tokens pos .kwIf = true
  /-- The end of the condition. -/
  ends : findThen tokens pos stop = some found
  /-- The line goes on behind it. -/
  single : isSingleLineIf tokens pos stop = true
  /-- The condition changes no blocks. -/
  head : Quiet tokens (pos + 1) found
  /-- The branch. -/
  body : Inline tokens (found + 1) last
  /-- The end of the statement. -/
  ending : statementEnd tokens (found + 1) stop = next
  /-- The closing word. -/
  closed : trailingEndIf tokens pos stop = some last ∧ next = last + 1 ∨
    trailingEndIf tokens pos stop = none ∧ next = last

/-- A line body stays one when its start moves forward. -/
theorem Inline.mono {first later : Nat} (body : Inline tokens first last) (le : first ≤ later) :
    Inline tokens later last := fun pos from' => body pos (Nat.le_trans le from')

/-- A quiet stretch stays one when its start moves forward. -/
theorem Quiet.mono {first later : Nat} (quiet : Quiet tokens first last) (le : first ≤ later) :
    Quiet tokens later last := fun pos from' => quiet pos (Nat.le_trans le from')

/-- No closing word stands in the branch. -/
theorem Inline.not_closes {first : Nat} (body : Inline tokens first last) (from' : first ≤ pos)
    (before : pos < last) : hasKind tokens pos .kwEndIf = false := by
  obtain ⟨token, stored, passed | ⟨isIf, _⟩⟩ := body pos from' before
  · rw [hasKind_eq stored, beq_eq_false_iff_ne]
    intro kind
    rw [kind] at passed
    cases passed
  · rw [hasKind_eq stored, isIf]
    rfl

namespace OneLine

variable (line : OneLine tokens stop pos found last next)
include line

/-- The line's first token is a stored If. -/
theorem stored : ∃ token, tokens[pos]? = some token ∧ token.kind = .kwIf := hasKind_iff.mp line.opener

/-- The header's end lies behind the If. -/
theorem pos_lt_found : pos < found := lt_of_findThen line.ends

/-- Something of the line follows its Then. -/
theorem found_lt : found + 1 < stop := by
  obtain ⟨other, _, ends, inside, _⟩ := isSingleLineIf_iff.mp line.single
  cases line.ends.symm.trans ends
  exact inside

/-- Something stands on the line behind the condition. -/
theorem found_lt_next : found + 1 < next := by
  obtain ⟨other, token, ends, inside, stored, goesOn⟩ := isSingleLineIf_iff.mp line.single
  cases line.ends.symm.trans ends
  have later : statementEnd tokens (found + 1) stop = statementEnd tokens (found + 2) stop := by
    rw [statementEnd, seek, if_pos inside, stored]
    simp only [goesOn, Bool.false_eq_true, if_false]
    rfl
  have := le_seek Token.endsLine tokens (found + 2) stop
  rw [← line.ending, later, statementEnd]
  omega

/-- What follows the line lies within the block. -/
theorem next_le : next ≤ stop := by
  rw [← line.ending]
  exact seek_le _ _ (Nat.le_of_lt line.found_lt)

/-- The line's last position is not behind what follows the line. -/
theorem last_le_next : last ≤ next := by
  rcases line.closed with ⟨_, same⟩ | ⟨_, same⟩ <;> omega

/-- No line ends from the branch up to the end of the statement. -/
theorem goesOn {at' : Nat} (from' : found + 1 ≤ at') (before : at' < next) :
    ∃ token, tokens[at']? = some token ∧ token.endsLine = false := by
  rw [← line.ending] at before
  exact not_accept_of_lt_seek from' before

/-- The statement ends in the condition, or where the statement behind the condition does. -/
theorem statementEnd_le : statementEnd tokens pos stop ≤ next := by
  rw [← line.ending]
  exact seek_mono (Nat.le_succ_of_le (Nat.le_of_lt line.pos_lt_found))

/-- The closing word stands behind the condition. -/
theorem found_lt_last : found < last := by
  have after := line.found_lt_next
  rcases line.closed with ⟨trailing, same⟩ | ⟨_, same⟩ <;> omega

/-- A line that is followed directly behind its last position ends with its own EndIf. -/
theorem closer_stored (closes : next = last + 1) : hasKind tokens last .kwEndIf = true := by
  rcases line.closed with ⟨trailing, _⟩ | ⟨_, same⟩
  · exact (trailingEndIf_eq_some.mp trailing).2.2.2.2
  · omega

/-- From inside the branch the statement ends at the same position. -/
theorem statementEnd_eq {at' : Nat} (from' : found + 1 ≤ at') (before : at' ≤ next) :
    statementEnd tokens at' stop = next := by
  have upTo : at' ≤ statementEnd tokens (found + 1) stop := by
    rw [line.ending]
    exact before
  have same : statementEnd tokens at' stop = statementEnd tokens (found + 1) stop :=
    seek_eq_of_le from' upTo
  rw [same, line.ending]

/-- A choice inside the branch is one on the same line, with the same closing word. -/
theorem nested {at' inner : Nat} (from' : found + 1 ≤ at') (opener : hasKind tokens at' .kwIf = true)
    (ends : findThen tokens at' last = some inner) (head : Quiet tokens (at' + 1) inner)
    (before : inner + 1 < last) : OneLine tokens stop at' inner last next := by
  have after := lt_of_findThen ends
  have lastLe := line.last_le_next
  have nextLe := line.next_le
  have endsHere : findThen tokens at' stop = some inner := findThen_extend ends (by omega)
  have single : isSingleLineIf tokens at' stop = true := by
    obtain ⟨token, stored, goesOn⟩ :=
      line.goesOn (show found + 1 ≤ inner + 1 by omega) (by omega)
    exact isSingleLineIf_iff.mpr ⟨inner, token, endsHere, by omega, stored, goesOn⟩
  have ending := line.statementEnd_eq from' (show at' ≤ next by omega)
  refine ⟨opener, endsHere, single, head, line.body.mono (by omega),
    line.statementEnd_eq (by omega) (by omega), ?_⟩
  rcases line.closed with ⟨trailing, same⟩ | ⟨none', same⟩
  · have closes := line.closer_stored same
    exact .inl ⟨trailingEndIf_eq_some.mpr
      ⟨opener, single, by omega, by omega, closes⟩, same⟩
  · refine .inr ⟨Option.eq_none_iff_forall_ne_some.mpr fun closer trailing => ?_, same⟩
    obtain ⟨_, _, ends', before', closes⟩ := trailingEndIf_eq_some.mp trailing
    have := line.body.not_closes (show found + 1 ≤ closer by omega) (by omega)
    simp [this] at closes

/-- All choices on the line have the same closing word. -/
theorem trailingEndIf_eq {at' inner : Nat} (nested : OneLine tokens stop at' inner last next) :
    trailingEndIf tokens at' stop = trailingEndIf tokens pos stop := by
  rcases nested.closed with ⟨is, same⟩ | ⟨is, same⟩ <;>
    rcases line.closed with ⟨other, same'⟩ | ⟨other, same'⟩
  · rw [is, other]
  · omega
  · omega
  · rw [is, other]

/-- Each position of the choice changes no blocks, or is the opening word of a choice on the same
line. -/
theorem each {at' : Nat} (from' : pos ≤ at') (before : at' < last) :
    ∃ token, tokens[at']? = some token ∧ (isPassed token.kind = true ∨
      ∃ inner, OneLine tokens stop at' inner last next) := by
  by_cases here : at' = pos
  · subst here
    obtain ⟨token, stored, _⟩ := line.stored
    exact ⟨token, stored, .inr ⟨found, line⟩⟩
  by_cases inHead : at' < found
  · obtain ⟨token, stored, passed⟩ := line.head at' (by omega) inHead
    exact ⟨token, stored, .inl passed⟩
  by_cases atThen : at' = found
  · subst atThen
    obtain ⟨token, stored, isThen⟩ := hasKind_iff.mp (findThen_eq_some.mp line.ends).2.2
    exact ⟨token, stored, .inl (by rw [isThen]; rfl)⟩
  obtain ⟨token, stored, passed | ⟨isIf, inner, ends, head, inside⟩⟩ :=
    line.body at' (by omega) before
  · exact ⟨token, stored, .inl passed⟩
  · refine ⟨token, stored, .inr ⟨inner, line.nested (by omega) ?_ ends head inside⟩⟩
    rw [hasKind_eq stored, isIf]
    rfl

/-- A choice on one line that ends before a nearer stop is one up to there too. -/
theorem cut {nearer : Nat} (before : next ≤ nearer) (le : nearer ≤ stop) :
    OneLine tokens nearer pos found last next := by
  have after := line.found_lt_next
  have order := line.pos_lt_found
  have ends := findThen_cut line.ends (show found < nearer by omega) le
  have single : isSingleLineIf tokens pos nearer = true := by
    obtain ⟨token, stored, goesOn⟩ := line.goesOn (Nat.le_refl _) (by omega)
    exact isSingleLineIf_iff.mpr ⟨found, token, ends, by omega, stored, goesOn⟩
  have statement : statementEnd tokens pos nearer = statementEnd tokens pos stop := by
    have cut : statementEnd tokens pos nearer = min (statementEnd tokens pos stop) nearer :=
      seek_cut (by omega) le
    have := line.statementEnd_le
    omega
  have ending : statementEnd tokens (found + 1) nearer = next := by
    have cut : statementEnd tokens (found + 1) nearer =
        min (statementEnd tokens (found + 1) stop) nearer := seek_cut (by omega) le
    rw [cut, line.ending]
    omega
  have trailing := trailingEndIf_congr (single.trans line.single.symm) statement
  refine ⟨line.opener, ends, single, line.head, line.body, ending, ?_⟩
  rw [trailing]
  exact line.closed

end OneLine

/-- In a window that is a branch on one line, a choice goes up to the end. -/
theorem Inline.oneLine {first : Nat} (body : Inline tokens first last)
    (goesOn : ∀ at', first ≤ at' → at' < last →
      ∃ token, tokens[at']? = some token ∧ token.endsLine = false)
    (from' : first ≤ pos) (opener : hasKind tokens pos .kwIf = true)
    (ends : findThen tokens pos last = some found) (head : Quiet tokens (pos + 1) found)
    (before : found + 1 < last) : OneLine tokens last pos found last last := by
  have after := lt_of_findThen ends
  have ending : ∀ at', first ≤ at' → at' ≤ last → statementEnd tokens at' last = last :=
    fun at' start le => seek_eq le (Nat.le_refl _)
      (fun other inside => goesOn other (by omega)) (.inl rfl)
  have single : isSingleLineIf tokens pos last = true := by
    obtain ⟨token, stored, notEnd⟩ := goesOn (found + 1) (by omega) before
    exact isSingleLineIf_iff.mpr ⟨found, token, ends, before, stored, notEnd⟩
  refine ⟨opener, ends, single, head, body.mono (by omega), ending _ (by omega) (by omega),
    .inr ⟨Option.eq_none_iff_forall_ne_some.mpr fun closer trailing => ?_, rfl⟩⟩
  obtain ⟨_, _, ends', before', closes⟩ := trailingEndIf_eq_some.mp trailing
  have := ending pos from' (by omega)
  have := body.not_closes (show first ≤ closer by omega) (by omega)
  simp [this] at closes

/-- Tokens that the check passes over open and close nothing and divide nothing. -/
theorem inert_of_isPassed {kind : TokenKind} (passed : isPassed kind = true) :
    isInert kind = true ∧ isMarker kind = false := by
  cases kind <;> first | exact ⟨rfl, rfl⟩ | cases passed

namespace OneLine

section

variable {halt : Token → Bool} {skip : Option Nat}
  (halts : ∀ token : Token, halt token = true → closesBlock token.kind = true)
  (line : OneLine tokens stop pos found last next)
include halts line

/-- The opening word adds no level, but its closing word is to be left out. -/
theorem scanFrom_opener (depth : Nat) (live : skip ≠ some pos) : ∃ visited, Unmarked tokens visited ∧
    scanFrom halt tokens stop pos depth skip =
      (scanFrom halt tokens stop (pos + 1) depth
        ((trailingEndIf tokens pos stop).or skip)).after visited := by
  obtain ⟨token, stored, isIf⟩ := line.stored
  have inside : pos < stop := by
    have := line.pos_lt_found
    have := line.found_lt
    omega
  have notHalt : halt token = false := halt_eq_false halts (by rw [isIf]; rfl)
  have notOpen : opensBlock tokens pos stop = false := by
    simp [opensBlock, stored, isIf, line.single]
  refine ⟨if depth = 0 then [pos] else [],
    unmarked_visited stored fun _ => by rw [isIf]; rfl, ?_⟩
  rw [scanFrom_eq inside stored live fun _ => notHalt, notOpen, isIf]
  cases trailingEndIf tokens pos stop <;> rfl

/-- Inside a choice on one line a scan goes on to the end of the branch. -/
theorem scanFrom_inner (depth : Nat) {at' : Nat} (from' : pos ≤ at') (le : at' ≤ last)
    (left : Stale skip at' ∧ next = last ∨ skip = some last ∧ next = last + 1) :
    ∃ visited, Unmarked tokens visited ∧ scanFrom halt tokens stop at' depth skip =
      (scanFrom halt tokens stop last depth skip).after visited := by
  by_cases here : at' = last
  · subst here
    exact ⟨[], nofun, rfl⟩
  have inside : at' < stop := by
    have := line.last_le_next
    have := line.next_le
    omega
  have live : skip ≠ some at' := by
    rcases left with ⟨stale, _⟩ | ⟨is, _⟩
    · exact stale.ne
    · rw [is]
      intro same
      cases same
      exact here rfl
  obtain ⟨visited, unmarked, scanned⟩ := scanFrom_inner depth (Nat.le_succ_of_le from')
    (show at' + 1 ≤ last by omega)
    (left.imp_left fun ⟨stale, same⟩ => ⟨stale.mono (Nat.le_succ at'), same⟩)
  obtain ⟨token, stored, passed | ⟨inner, nested⟩⟩ := line.each from' (by omega)
  · have inert := inert_of_isPassed passed
    refine ⟨(if depth = 0 then [at'] else []) ++ visited,
      (unmarked_visited stored fun _ => inert.2).append unmarked, ?_⟩
    rw [scanFrom_inert inside stored live inert.1 fun _ =>
      halt_eq_false halts (closesBlock_eq_false inert.1), scanned, Visit.after_after]
  · -- Another choice on the same line names the same closing word again.
    obtain ⟨first, unmarkedFirst, opened⟩ := nested.scanFrom_opener halts depth live
    have same : (trailingEndIf tokens at' stop).or skip = skip := by
      rcases nested.closed with ⟨trailing, beyond⟩ | ⟨none', _⟩
      · rcases left with ⟨_, other⟩ | ⟨is, _⟩
        · omega
        · rw [trailing, is]
          rfl
      · rw [none', Option.none_or]
    refine ⟨first ++ visited, unmarkedFirst.append unmarked, ?_⟩
    rw [opened, same, scanned, Visit.after_after]
termination_by last - at'

/-- A scan passes over a choice on one line. -/
theorem scans (depth : Nat) : Scans halt tokens stop pos depth next depth := by
  intro skip stale
  obtain ⟨first, unmarkedFirst, opened⟩ := line.scanFrom_opener halts depth stale.ne
  have order := line.pos_lt_found
  have behind := line.found_lt_last
  have after : pos ≤ pos + 1 := Nat.le_succ pos
  rcases line.closed with ⟨trailing, same⟩ | ⟨none', same⟩
  · obtain ⟨visited, unmarked, scanned⟩ := scanFrom_inner halts line depth after
      (by omega) (.inr ⟨rfl, same⟩)
    obtain ⟨closer, stored, _⟩ := hasKind_iff.mp (line.closer_stored same)
    have inside := line.next_le
    refine ⟨some last, first ++ visited, fun at' is => by cases is; omega,
      unmarkedFirst.append unmarked, ?_⟩
    rw [opened, trailing, Option.some_or, scanned, Visit.after_after,
      scanFrom_skip (by omega) stored, same]
  · obtain ⟨visited, unmarked, scanned⟩ := scanFrom_inner halts line depth after
      (by omega) (.inl ⟨stale.mono after, same⟩)
    refine ⟨skip, first ++ visited, stale.mono (by omega), unmarkedFirst.append unmarked, ?_⟩
    rw [opened, none', Option.none_or, scanned, Visit.after_after, same]

end

/-- The check goes on to the end of the branch, with the closing word to be left out. -/
theorem checkFrom_inner (blocks : List OpenBlock) {skip : Option Nat}
    (line : OneLine tokens tokens.size pos found last next)
    (left : skip = trailingEndIf tokens pos tokens.size) {at' : Nat} (from' : pos < at')
    (le : at' ≤ last) : checkFrom tokens at' blocks skip = checkFrom tokens last blocks skip := by
  by_cases here : at' = last
  · rw [here]
  have later := checkFrom_inner blocks line left (Nat.lt_succ_of_lt from')
    (show at' + 1 ≤ last by omega)
  have live : skip ≠ some at' := by
    rw [left]
    intro trailing
    rcases line.closed with ⟨is, _⟩ | ⟨none', _⟩
    · cases is.symm.trans trailing
      exact here rfl
    · cases none'.symm.trans trailing
  obtain ⟨token, stored, passed | ⟨inner, nested⟩⟩ := line.each (Nat.le_of_lt from') (by omega)
  · rw [checkFrom_eq stored live (step_passed passed)]
    exact later
  · obtain ⟨_, stored', isIf⟩ := nested.stored
    cases stored.symm.trans stored'
    have same : trailingEndIf tokens at' tokens.size = skip := by
      rw [left, line.trailingEndIf_eq nested]
    have stepped : step tokens at' token blocks skip = .ok { blocks, skip } := by
      simp only [step, isIf, nested.ends, nested.single, same, Option.isNone_some,
        Bool.false_eq_true, if_false, if_true]
    rw [checkFrom_eq stored live stepped]
    exact later
termination_by last - at'

/-- The check passes over a choice on one line. -/
theorem checks (line : OneLine tokens tokens.size pos found last next) (blocks : List OpenBlock) :
    Checks tokens pos blocks next blocks := by
  intro skip stale
  have order := line.pos_lt_found
  have behind := line.found_lt_last
  obtain ⟨token, stored, isIf⟩ := line.stored
  have stepped : step tokens pos token blocks skip =
      .ok { blocks, skip := trailingEndIf tokens pos tokens.size } := by
    simp only [step, isIf, line.ends, line.single, Option.isNone_some, Bool.false_eq_true,
      if_false, if_true]
  have inner := checkFrom_inner blocks line rfl (Nat.lt_succ_self pos) (by omega)
  have opened := (checkFrom_eq stored stale.ne stepped).trans inner
  refine ⟨trailingEndIf tokens pos tokens.size, fun at' is => ?_, opened.trans ?_⟩
  · rcases line.closed with ⟨trailing, same⟩ | ⟨none', _⟩
    · cases is.symm.trans trailing
      omega
    · cases is.symm.trans none'
  · rcases line.closed with ⟨trailing, same⟩ | ⟨none', same⟩
    · have inside := line.next_le
      rw [trailing, checkFrom_skip (by omega), same]
    · rw [same]

end OneLine

end Blocks

end LineScript
