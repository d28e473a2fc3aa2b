import LineScript.Proofs.Blocks.Path

/-!
# Accepted runs of tokens that are tidy

A run of tokens is tidy if the words of blocks keep away from conditions and from the branches of
choices on one line, where only further choices on the same line may stand. The check of blocks
does not ask for that. A tidy run that the check accepts is a regular window.
-/

namespace LineScript

namespace Blocks

open Layout Structure Structured

/-- Computes `Quiet`. -/
def isQuiet (tokens : TokenBlock) (first last : Nat) : Bool :=
  (List.range' first (last - first)).all fun pos => tokens[pos]?.any fun token =>
    isPassed token.kind

/-- Only tokens that change no blocks, and words of choices that have a condition and a branch
before the end, stand from one position up to another. -/
def isInline (tokens : TokenBlock) (first last : Nat) : Bool :=
  (List.range' first (last - first)).all fun pos => tokens[pos]?.any fun token =>
    isPassed token.kind ||
      token.kind == .kwIf && (findThen tokens pos last).any fun found => found + 1 < last

/-- The end of the branch of a choice on one line whose condition ends at `found`. -/
def branchEnd (tokens : TokenBlock) (pos found : Nat) : Nat :=
  (trailingEndIf tokens pos tokens.size).getD (statementEnd tokens (found + 1) tokens.size)

/-- The word at a position has no words of blocks in its condition or, if it is a choice on one
line, in its branch. -/
def isTidyAt (tokens : TokenBlock) (pos : Nat) : Bool :=
  tokens[pos]?.all fun token =>
    match token.kind with
    | .kwIf => (findThen tokens pos tokens.size).all fun found =>
      isQuiet tokens (pos + 1) found && (!isSingleLineIf tokens pos tokens.size ||
        isInline tokens (found + 1) (branchEnd tokens pos found))
    | .kwElseIf => (findThen tokens pos tokens.size).all fun found => isQuiet tokens (pos + 1) found
    | .kwWhile => isQuiet tokens (pos + 1) (statementEnd tokens (pos + 1) tokens.size)
    | _ => true

/-- No words of blocks stand in conditions or in branches of choices on one line. -/
def isTidy (tokens : TokenBlock) : Bool := (List.range tokens.size).all (isTidyAt tokens)

variable {tokens : TokenBlock} {pos first last found : Nat} {token : Token}

/-- The computed check for a quiet stretch is sound. -/
theorem quiet_of_isQuiet (quiet : isQuiet tokens first last = true) : Quiet tokens first last := by
  intro pos from' before
  have here := List.all_eq_true.mp quiet pos (List.mem_range'_1.mpr ⟨from', by omega⟩)
  simpa [Option.any_eq_true] using here

/-- The computed check for a line body gives what stands at each of its positions. -/
theorem inline_of_isInline (inline : isInline tokens first last = true) (from' : first ≤ pos)
    (before : pos < last) : ∃ token, tokens[pos]? = some token ∧ (isPassed token.kind = true ∨
      token.kind = .kwIf ∧ ∃ found, findThen tokens pos last = some found ∧ found + 1 < last) := by
  have here := List.all_eq_true.mp inline pos (List.mem_range'_1.mpr ⟨from', by omega⟩)
  simpa [Option.any_eq_true] using here

section

variable (tidy : isTidy tokens = true) (stored : tokens[pos]? = some token)
include tidy stored

/-- In a tidy block every position passes the computed check. -/
theorem isTidyAt_of_isTidy : isTidyAt tokens pos = true :=
  List.all_eq_true.mp tidy pos (List.mem_range.mpr (Array.getElem?_eq_some_iff.mp stored).1)

/-- Conditions of choices in a tidy run change no blocks. -/
theorem quiet_choice (isChoice : token.kind = .kwIf ∨ token.kind = .kwElseIf)
    (ends : findThen tokens pos tokens.size = some found) : Quiet tokens (pos + 1) found := by
  have here := isTidyAt_of_isTidy tidy stored
  rcases isChoice with kind | kind
  · simp only [isTidyAt, stored, kind, ends, Option.all_some, Bool.and_eq_true] at here
    exact quiet_of_isQuiet here.1
  · simp only [isTidyAt, stored, kind, ends, Option.all_some] at here
    exact quiet_of_isQuiet here

/-- Conditions of loops in a tidy run change no blocks. -/
theorem quiet_loop (kind : token.kind = .kwWhile) :
    Quiet tokens (pos + 1) (statementEnd tokens (pos + 1) tokens.size) := by
  have here := isTidyAt_of_isTidy tidy stored
  simp only [isTidyAt, stored, kind, Option.all_some] at here
  exact quiet_of_isQuiet here

/-- A branch on one line of a tidy run changes no blocks. -/
theorem inline_branch (kind : token.kind = .kwIf)
    (ends : findThen tokens pos tokens.size = some found)
    (single : isSingleLineIf tokens pos tokens.size = true)
    (le : branchEnd tokens pos found ≤ tokens.size) :
    Inline tokens (found + 1) (branchEnd tokens pos found) := by
  have here := isTidyAt_of_isTidy tidy stored
  simp only [isTidyAt, stored, kind, ends, single, Option.all_some, Bool.and_eq_true,
    Bool.not_true, Bool.false_or] at here
  intro at' from' before
  obtain ⟨other, stored', passed | ⟨isIf, inner, ends', inside⟩⟩ :=
    inline_of_isInline here.2 from' before
  · exact ⟨other, stored', .inl passed⟩
  · have quiet := quiet_choice tidy stored' (.inl isIf) (findThen_extend ends' le)
    exact ⟨other, stored', .inr ⟨isIf, inner, ends', quiet, inside⟩⟩

/-- In a tidy run every choice that the check takes to stand on one line is one. -/
theorem oneLine_of_isTidy (kind : token.kind = .kwIf)
    (single : isSingleLineIf tokens pos tokens.size = true) :
    ∃ found last next, OneLine tokens tokens.size pos found last next := by
  obtain ⟨found, follower, ends, inside, _⟩ := isSingleLineIf_iff.mp single
  have quiet := quiet_choice tidy stored (.inl kind) ends
  have order := lt_of_findThen ends
  have opener : hasKind tokens pos .kwIf = true := hasKind_iff.mpr ⟨token, stored, kind⟩
  have ending : statementEnd tokens (found + 1) tokens.size ≤ tokens.size :=
    seek_le _ _ (Nat.le_of_lt inside)
  cases trailing : trailingEndIf tokens pos tokens.size with
  | none =>
    have last : branchEnd tokens pos found = statementEnd tokens (found + 1) tokens.size := by
      rw [branchEnd, trailing]
      rfl
    have inline := inline_branch tidy stored kind ends single (by omega)
    rw [last] at inline
    exact ⟨found, _, _, opener, ends, single, quiet, inline, rfl, .inr ⟨trailing, rfl⟩⟩
  | some closer =>
    obtain ⟨_, _, statement, after, closes⟩ := trailingEndIf_eq_some.mp trailing
    have last : branchEnd tokens pos found = closer := by
      rw [branchEnd, trailing]
      rfl
    -- The closing word is none of the condition, so the statement goes on to it from there.
    have behind : found ≤ closer := by
      obtain ⟨word, stored', isCloser⟩ := hasKind_iff.mp closes
      have isBorder : Border tokens tokens.size closer :=
        border_of_closesBlock stored' (by rw [isCloser]; rfl)
      exact quiet.le_border isBorder after (by omega)
    have same : statementEnd tokens (found + 1) tokens.size = closer + 1 := by
      rw [← statement]
      exact seek_eq_of_le (by omega) (show found + 1 ≤ statementEnd tokens pos tokens.size by omega)
    have inline := inline_branch tidy stored kind ends single (by omega)
    rw [last] at inline
    exact ⟨found, closer, _, opener, ends, single, quiet, inline, rfl, .inl ⟨trailing, same⟩⟩

end

/-- What the check of one token can do to the open blocks. -/
inductive Checked (tokens : TokenBlock) (pos : Nat) (token : Token) (blocks : List OpenBlock)
    (skip : Option Nat) : Effect → Prop where
  /-- Nothing: it divides a block at most, possibly together with the word behind it. -/
  | passes {takesNext : Bool} (passed : isPassed token.kind = true ∨ isMarker token.kind = true)
    (next : takesNext = true → hasKind tokens (pos + 1) .kwElse = true) :
    Checked tokens pos token blocks skip { blocks, takesNext, skip }
  /-- It is a choice on one line. -/
  | line (isIf : token.kind = .kwIf) (single : isSingleLineIf tokens pos tokens.size = true) :
    Checked tokens pos token blocks skip
      { blocks, skip := trailingEndIf tokens pos tokens.size }
  /-- It opens a block. -/
  | opens (opened : opensBlock tokens pos tokens.size = true) :
    Checked tokens pos token blocks skip { blocks := ⟨token.kind, token.line⟩ :: blocks, skip }
  /-- It closes the innermost block. -/
  | closes {block : OpenBlock} {outer : List OpenBlock} (innermost : blocks = block :: outer)
    (closed : closer? block.opener = some token.kind) :
    Checked tokens pos token blocks skip { blocks := outer, skip }

section

variable {blocks : List OpenBlock} {skip : Option Nat} {effect : Effect}

/-- A close that succeeds takes the innermost block, and the token is that block's own closer. -/
theorem closeBlock_eq_ok {outer : List OpenBlock} (closed : closeBlock blocks token = .ok outer) :
    ∃ block, blocks = block :: outer ∧ closer? block.opener = some token.kind := by
  cases blocks with
  | nil => cases closed
  | cons block others =>
    simp only [closeBlock] at closed
    split at closed
    · rename_i closes
      cases closed
      exact ⟨block, rfl, closes⟩
    · cases closed

/-- A closing word is accepted where it closes the innermost block. -/
theorem checked_closer (stepped : step tokens pos token blocks skip = .ok effect)
    (closes : closesBlock token.kind = true) : Checked tokens pos token blocks skip effect := by
  have closing : (do return ({ blocks := ← closeBlock blocks token, skip } : Effect)) =
      Except.ok effect := by
    rw [← stepped]
    unfold step
    revert closes
    cases token.kind <;> intro closes <;> first | rfl | cases closes
  obtain ⟨outer, closed, same⟩ := bind_eq_ok.mp closing
  cases same
  obtain ⟨block, innermost, closes⟩ := closeBlock_eq_ok closed
  exact .closes innermost closes

/-- Words that the check does not pass over and that close nothing. -/
theorem word_cases {kind : TokenKind} (word : isPassed kind = false)
    (notCloser : closesBlock kind = false) :
    kind = .kwIf ∨ kind = .kwElseIf ∨ kind = .kwElse ∨ kind = .kwCase ∨
      (kind = .kwSwitch ∨ kind = .kwSelect ∨ kind = .kwWhile ∨ kind = .kwDo) ∨
      (kind = .kwFunc ∨ kind = .kwEndFunc ∨ kind = .kwWith ∨ kind = .kwEndWith ∨
        kind = .kwVolatile) := by
  cases kind <;> first | cases word; done | cases notCloser; done | simp

/-- What the check of a token that is accepted does; conditions have an end. -/
theorem checked_of_step (stored : tokens[pos]? = some token)
    (stepped : step tokens pos token blocks skip = .ok effect) :
    Checked tokens pos token blocks skip effect ∧
      (token.kind = .kwIf ∨ token.kind = .kwElseIf →
        (findThen tokens pos tokens.size).isSome = true) := by
  by_cases passed : isPassed token.kind = true
  · rw [step_passed passed] at stepped
    cases stepped
    refine ⟨.passes (.inl passed) nofun, ?_⟩
    rintro (kind | kind) <;> rw [kind] at passed <;> cases passed
  by_cases closes : closesBlock token.kind = true
  · refine ⟨checked_closer stepped closes, ?_⟩
    rintro (kind | kind) <;> rw [kind] at closes <;> cases closes
  unfold step at stepped
  rcases word_cases (Bool.eq_false_iff.mpr passed) (Bool.eq_false_iff.mpr closes) with
    kind | kind | kind | kind | opener | refused
  · simp only [kind] at stepped
    split at stepped
    · cases stepped
    · rename_i ended
      refine ⟨?_, fun _ => Option.isSome_iff_ne_none.mpr (by simpa using ended)⟩
      split at stepped
      · rename_i single
        cases stepped
        exact .line kind single
      · rename_i overLines
        cases stepped
        rw [← kind]
        exact .opens (by simpa [opensBlock, stored, kind] using overLines)
  · simp only [kind] at stepped
    repeat' split at stepped
    all_goals cases stepped
    rename_i ended
    exact ⟨.passes (.inr (by rw [kind]; rfl)) nofun, fun _ => Option.isSome_iff_ne_none.mpr (by simpa using ended)⟩
  · simp only [kind] at stepped
    split at stepped <;> cases stepped
    exact ⟨.passes (.inr (by rw [kind]; rfl)) nofun, by simp [kind]⟩
  · simp only [kind] at stepped
    split at stepped <;> cases stepped
    exact ⟨.passes (.inr (by rw [kind]; rfl)) id, by simp [kind]⟩
  · have isOpener : token.kind ≠ .kwIf ∧ (closer? token.kind).isSome = true ∧
        token.kind ≠ .kwElseIf := by
      rcases opener with kind | kind | kind | kind <;> simp [kind, closer?]
    have same : effect = { blocks := ⟨token.kind, token.line⟩ :: blocks, skip } := by
      rcases opener with kind | kind | kind | kind <;>
        (simp only [kind] at stepped; cases stepped; rw [kind])
    rw [same]
    refine ⟨.opens ?_, fun isChoice => (isChoice.elim isOpener.1 isOpener.2.2).elim⟩
    rw [opensBlock_eq_isSome stored isOpener.1]
    exact isOpener.2.1
  · rcases refused with kind | kind | kind | kind | kind <;>
      (simp only [kind] at stepped; cases stepped)

/-- A check that accepts the rest of a run leaves out the token, or the token is accepted and so is
what comes behind it. -/
theorem checkFrom_cases (inside : pos < tokens.size)
    (checked : checkFrom tokens pos blocks skip = .ok ()) :
    skip = some pos ∧ checkFrom tokens (pos + 1) blocks skip = .ok () ∨
      skip ≠ some pos ∧ ∃ token effect, tokens[pos]? = some token ∧
        step tokens pos token blocks skip = .ok effect ∧
        checkFrom tokens (pos + 1 + if effect.takesNext then 1 else 0) effect.blocks effect.skip =
          .ok () := by
  rw [checkFrom.eq_def, dif_pos inside] at checked
  split at checked
  · rename_i left
    exact .inl ⟨left, checked⟩
  · rename_i live
    split at checked
    · cases checked
    · rename_i effect stepped
      exact .inr ⟨live, tokens[pos], effect, Array.getElem?_eq_getElem inside, stepped, checked⟩

/-- In an accepted run every token is checked, apart from words that belong to an earlier one. -/
theorem stepped_of_checkFrom {start at' : Nat} {blocks : List OpenBlock} {skip : Option Nat}
    (checked : checkFrom tokens start blocks skip = .ok ())
    (left : ∀ closer, skip = some closer → hasKind tokens closer .kwEndIf = true)
    (from' : start ≤ at') (stored : tokens[at']? = some token) (notEndIf : token.kind ≠ .kwEndIf)
    (notElse : token.kind ≠ .kwElse) :
    ∃ blocks skip effect, step tokens at' token blocks skip = .ok effect := by
  have inside : start < tokens.size :=
    Nat.lt_of_le_of_lt from' (Array.getElem?_eq_some_iff.mp stored).1
  have other : ∀ {kind : TokenKind}, hasKind tokens at' kind = true →
      token.kind = kind := fun has => by
    obtain ⟨_, stored', kind⟩ := hasKind_iff.mp has
    cases stored.symm.trans stored'
    exact kind
  rcases checkFrom_cases inside checked with ⟨isSkip, later⟩ | ⟨_, word, effect, stored', stepped, later⟩
  · by_cases here : at' = start
    · subst here
      exact absurd (other (left at' isSkip)) notEndIf
    · exact stepped_of_checkFrom later left (by omega) stored notEndIf notElse
  · by_cases here : at' = start
    · subst here
      cases stored.symm.trans stored'
      exact ⟨_, _, _, stepped⟩
    have done := (checked_of_step stored' stepped).1
    have leftNext : ∀ closer, effect.skip = some closer →
        hasKind tokens closer .kwEndIf = true := by
      cases done with
      | line => exact fun closer trailing => (trailingEndIf_eq_some.mp trailing).2.2.2.2
      | _ => exact left
    have beyond : start + 1 + (if effect.takesNext then 1 else 0) ≤ at' := by
      split
      · rename_i takes
        have isElse : hasKind tokens (start + 1) .kwElse = true := by
          cases done with
          | passes _ next => exact next takes
          | _ => cases takes
        have apart : at' ≠ start + 1 := by
          rintro rfl
          exact notElse (other isElse)
        omega
      · omega
    exact stepped_of_checkFrom later leftNext beyond stored notEndIf notElse
termination_by tokens.size - start

/-- In an accepted run every condition of a choice has an end. -/
theorem findThen_of_check (checked : check tokens = .ok ()) {at' : Nat}
    (stored : tokens[at']? = some token) (isChoice : token.kind = .kwIf ∨ token.kind = .kwElseIf) :
    (findThen tokens at' tokens.size).isSome = true := by
  have others : token.kind ≠ .kwEndIf ∧ token.kind ≠ .kwElse := by
    rcases isChoice with kind | kind <;> simp [kind]
  obtain ⟨blocks, skip, effect, stepped⟩ := stepped_of_checkFrom checked (fun _ none => by cases none)
    (Nat.zero_le at') stored others.1 others.2
  exact (checked_of_step stored stepped).2 isChoice

/-- In an accepted run no function begins. -/
theorem not_func_of_check (checked : check tokens = .ok ()) {at' : Nat}
    (stored : tokens[at']? = some token) : token.kind ≠ .kwFunc := by
  intro isFunc
  obtain ⟨blocks, skip, effect, stepped⟩ := stepped_of_checkFrom checked (fun _ none => by cases none)
    (Nat.zero_le at') stored (by simp [isFunc]) (by simp [isFunc])
  simp only [step, isFunc] at stepped
  cases stepped

/-- In a tidy run that is accepted a path follows the check. -/
theorem reaches_of_checkFrom {start : Nat} {blocks : List OpenBlock} {skip : Option Nat}
    (tidy : isTidy tokens = true) (checked : checkFrom tokens start blocks skip = .ok ()) (stale : Stale skip start)
    (le : start ≤ tokens.size) :
    Reaches tokens tokens.size start (blocks.map OpenBlock.opener) tokens.size [] := by
  by_cases ended : start = tokens.size
  · subst ended
    rw [checkFrom.eq_def, dif_neg (Nat.lt_irrefl _)] at checked
    cases blocks with
    | nil => exact .refl _ _
    | cons => cases checked
  have inside : start < tokens.size := by omega
  rcases checkFrom_cases inside checked with ⟨isSkip, _⟩ | ⟨_, token, effect, stored, stepped, later⟩
  · exact absurd isSkip stale.ne
  have staleNext : Stale skip (start + 1) := stale.mono (Nat.le_succ start)
  cases (checked_of_step stored stepped).1 with
  | @passes takesNext passed next =>
    refine .step (.pass inside stored passed) ?_
    cases takesNext with
    | false => exact reaches_of_checkFrom tidy later staleNext inside
    | true =>
      obtain ⟨word, stored', isElse⟩ := hasKind_iff.mp (next rfl)
      have behind := (Array.getElem?_eq_some_iff.mp stored').1
      exact .step (.pass behind stored' (.inr (by rw [isElse]; rfl)))
        (reaches_of_checkFrom tidy later (staleNext.mono (Nat.le_succ _)) behind)
  | line isIf single =>
    obtain ⟨found, last, next, oneLine⟩ := oneLine_of_isTidy tidy stored isIf single
    obtain ⟨skip', stale', same⟩ := oneLine.checks blocks skip stale
    have order := oneLine.pos_lt_found
    have order' := oneLine.found_lt_next
    exact .step (.line oneLine)
      (reaches_of_checkFrom tidy (same.symm.trans checked) stale' oneLine.next_le)
  | opens opened =>
    exact .step (.opens inside stored opened) (reaches_of_checkFrom tidy later staleNext inside)
  | closes innermost closed =>
    rw [innermost]
    exact .step (.closes inside stored closed) (reaches_of_checkFrom tidy later staleNext inside)
termination_by tokens.size - start

/-- A tidy run that is accepted is a regular window. -/
theorem regular_of_check (tidy : isTidy tokens = true) (checked : check tokens = .ok ()) :
    Regular tokens 0 tokens.size where
  inside := Nat.le_refl _
  reaches := reaches_of_checkFrom tidy checked (.nothing _) (Nat.zero_le _)
  heads pos token _ _ stored := {
    choice isChoice := by
      obtain ⟨found, ends⟩ := Option.isSome_iff_exists.mp
        (findThen_of_check checked stored isChoice)
      exact ⟨found, ends, quiet_choice tidy stored isChoice ends⟩
    loop := quiet_loop tidy stored }

end

end Blocks

/-- A check of a whole list has accepted each of its members. -/
theorem Program.check_of_forM {α : Type} {entries : List α} {tokensOf : α → TokenBlock}
    (checked : (entries.forM fun entry => Structure.check (tokensOf entry)) = .ok ()) :
    ∀ entry ∈ entries, Structure.check (tokensOf entry) = .ok () :=
  forM_eq_ok.mp checked

end LineScript
