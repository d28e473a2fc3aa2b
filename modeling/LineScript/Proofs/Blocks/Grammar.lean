import LineScript.Proofs.Blocks.Accepted

/-!
# The grammar of blocks

The check of blocks goes over a run of tokens once, with a stack of open blocks, a word to leave
out and a jump over the word behind a clause's. What it accepts can be said without any of these:
conditions have an end, no word stands that cannot run, and the words of blocks that are left when
the choices on one line are dropped are derivable in a grammar of nested blocks
(`check_eq_ok_iff`). The stack is the left context of a derivation: what is left of the words must
complete each open block in turn (`Completes`).
-/

namespace LineScript

namespace Blocks

open Layout Structure Structured

/-- What stands directly inside a block, or outside all of them. -/
inductive Level where
  /-- Blocks. -/
  | body
  /-- Blocks, and words that begin a further branch of a choice. -/
  | choice
  /-- Blocks, and words that begin a clause of a selection. -/
  | selection
deriving DecidableEq

/-- The words that can stand at a level. -/
inductive Derives : Level → List TokenKind → Prop where
  /-- No words. -/
  | nil {level : Level} : Derives level []
  /-- A choice, and what follows it. -/
  | choice {level : Level} {inner rest : List TokenKind} (inside : Derives .choice inner)
    (later : Derives level rest) : Derives level (.kwIf :: inner ++ .kwEndIf :: rest)
  /-- A selection by value, and what follows it. -/
  | switch {level : Level} {inner rest : List TokenKind} (inside : Derives .selection inner)
    (later : Derives level rest) : Derives level (.kwSwitch :: inner ++ .kwEndSwitch :: rest)
  /-- A selection by conditions, and what follows it. -/
  | select {level : Level} {inner rest : List TokenKind} (inside : Derives .selection inner)
    (later : Derives level rest) : Derives level (.kwSelect :: inner ++ .kwEndSelect :: rest)
  /-- A loop with its condition first, and what follows it. -/
  | whileLoop {level : Level} {inner rest : List TokenKind} (inside : Derives .body inner)
    (later : Derives level rest) : Derives level (.kwWhile :: inner ++ .kwWEnd :: rest)
  /-- A loop with its condition last, and what follows it. -/
  | doLoop {level : Level} {inner rest : List TokenKind} (inside : Derives .body inner)
    (later : Derives level rest) : Derives level (.kwDo :: inner ++ .kwUntil :: rest)
  /-- A branch with a condition begins. -/
  | elseIf {rest : List TokenKind} (later : Derives .choice rest) :
    Derives .choice (.kwElseIf :: rest)
  /-- A branch without a condition begins. -/
  | otherwise {rest : List TokenKind} (later : Derives .choice rest) :
    Derives .choice (.kwElse :: rest)
  /-- A clause begins. -/
  | clause {rest : List TokenKind} (later : Derives .selection rest) :
    Derives .selection (.kwCase :: rest)

/-- The level inside the block that a word opens. -/
def levelIn : TokenKind → Level
  | .kwIf => .choice
  | .kwSwitch | .kwSelect => .selection
  | _ => .body

/-- The level inside the innermost of some open blocks. -/
def levelOf : List TokenKind → Level
  | [] => .body
  | opener :: _ => levelIn opener

/-- The word begins a part of a block at this level. -/
def Level.divides : Level → TokenKind → Bool
  | .choice, .kwElseIf | .choice, .kwElse | .selection, .kwCase => true
  | _, _ => false

/-- A block of any kind, and what follows it. -/
theorem Derives.block {opener closer : TokenKind} {level : Level} {inner rest : List TokenKind}
    (closes : closer? opener = some closer) (inside : Derives (levelIn opener) inner)
    (later : Derives level rest) : Derives level (opener :: inner ++ closer :: rest) := by
  cases opener <;> cases closes
  · exact .choice inside later
  · exact .whileLoop inside later
  · exact .doLoop inside later
  · exact .switch inside later
  · exact .select inside later

/-- A word that begins a part of a block, and what follows it. -/
theorem Derives.divider {level : Level} {word : TokenKind} {rest : List TokenKind}
    (divides : level.divides word = true) (later : Derives level rest) :
    Derives level (word :: rest) := by
  unfold Level.divides at divides
  split at divides
  · exact .elseIf later
  · exact .otherwise later
  · exact .clause later
  · cases divides

/-! ### Words on a stack -/

/-- The blocks that are open after a word, innermost first. -/
def advance (opened : List TokenKind) (word : TokenKind) : Option (List TokenKind) :=
  if (closer? word).isSome then some (word :: opened)
  else if (levelOf opened).divides word then some opened
  else
    match opened with
    | opener :: outer => if closer? opener = some word then some outer else none
    | [] => none

/-- Words with which all open blocks are completed, and what may follow them. -/
def Completes : List TokenKind → List TokenKind → Prop
  | [], words => Derives .body words
  | opener :: outer, words => ∃ inner closer rest, closer? opener = some closer ∧
    words = inner ++ closer :: rest ∧ Derives (levelIn opener) inner ∧ Completes outer rest

/-- A closing word opens no block and divides none. -/
theorem closer?_of_closes {opener closer : TokenKind} (closes : closer? opener = some closer) :
    closer? closer = none ∧ ∀ level : Level, level.divides closer = false := by
  cases opener <;> cases closes <;> exact ⟨rfl, fun level => by cases level <;> rfl⟩

/-- A word that divides a block opens none. -/
theorem closer?_of_divides {level : Level} {word : TokenKind}
    (divides : level.divides word = true) : closer? word = none := by
  unfold Level.divides at divides
  split at divides <;> first | rfl | cases divides

/-- A block may stand before what completes the open ones. -/
theorem Completes.block {opener closer : TokenKind} {opened inner rest : List TokenKind}
    (closes : closer? opener = some closer) (inside : Derives (levelIn opener) inner)
    (later : Completes opened rest) : Completes opened (opener :: inner ++ closer :: rest) := by
  cases opened with
  | nil => exact Derives.block closes inside later
  | cons outer opened =>
    obtain ⟨head, last, rest, closesOuter, rfl, derives, completes⟩ := later
    refine ⟨opener :: inner ++ closer :: head, last, rest, closesOuter, ?_,
      .block closes inside derives, completes⟩
    simp only [List.cons_append, List.append_assoc]

/-- A word that divides the innermost open block may stand before what completes it. -/
theorem Completes.divider {word : TokenKind} {opened rest : List TokenKind}
    (divides : (levelOf opened).divides word = true) (later : Completes opened rest) :
    Completes opened (word :: rest) := by
  cases opened with
  | nil => exact Derives.divider divides later
  | cons opener outer =>
    obtain ⟨inner, closer, rest, closes, rfl, derives, completes⟩ := later
    exact ⟨word :: inner, closer, rest, closes, rfl, .divider divides derives, completes⟩

/-- Words that leave no block open complete all of them. -/
theorem completes_of_advance {opened words : List TokenKind}
    (empties : words.foldlM advance opened = some []) : Completes opened words := by
  induction words generalizing opened with
  | nil =>
    cases empties
    exact .nil
  | cons word words ih =>
    rw [List.foldlM_cons] at empties
    obtain ⟨next, moved, empties⟩ := Option.bind_eq_some_iff.mp empties
    have later := ih empties
    unfold advance at moved
    split at moved
    · cases moved
      obtain ⟨inner, closer, rest, closes, rfl, derives, completes⟩ := later
      exact .block closes derives completes
    · split at moved
      · rename_i divides
        cases moved
        exact .divider divides later
      · split at moved
        · split at moved
          · rename_i closes
            cases moved
            exact ⟨[], word, words, closes, rfl, .nil, later⟩
          · cases moved
        · cases moved

/-- An opener puts itself on the opened blocks. -/
theorem advance_opener {opener closer : TokenKind} (closes : closer? opener = some closer)
    (opened : List TokenKind) : advance opened opener = some (opener :: opened) := by
  rw [advance.eq_def, closes]
  rfl

/-- A divider of the innermost block leaves the opened blocks alone. -/
theorem advance_divider {word : TokenKind} {opened : List TokenKind}
    (divides : (levelOf opened).divides word = true) : advance opened word = some opened := by
  rw [advance.eq_def, closer?_of_divides divides, if_pos divides]
  rfl

/-- A closer of the innermost opener leaves the blocks outside it. -/
theorem advance_closer {opener closer : TokenKind} (closes : closer? opener = some closer)
    (outer : List TokenKind) : advance (opener :: outer) closer = some outer := by
  obtain ⟨opensNone, dividesNone⟩ := closer?_of_closes closes
  rw [advance.eq_def, opensNone, dividesNone]
  simp [closes]

section

variable {opened later rest : List TokenKind}
  (after : (later ++ rest).foldlM advance opened = rest.foldlM advance opened)
include after

/-- A block is read with one block more open, then its closing word with that one innermost. -/
theorem foldlM_block {opener closer : TokenKind} {inner : List TokenKind}
    (closes : closer? opener = some closer)
    (inside : ∀ rest, (inner ++ rest).foldlM advance (opener :: opened) =
      rest.foldlM advance (opener :: opened)) :
    (opener :: inner ++ closer :: later ++ rest).foldlM advance opened =
      rest.foldlM advance opened := by
  rw [List.cons_append, List.cons_append, List.foldlM_cons, advance_opener closes,
    List.append_assoc, Option.bind_eq_bind, Option.bind_some, inside, List.cons_append,
    List.foldlM_cons, advance_closer closes, Option.bind_eq_bind, Option.bind_some, after]

/-- A divider at the front of the words can be dropped from the fold. -/
theorem foldlM_divider {word : TokenKind} (divides : (levelOf opened).divides word = true) :
    (word :: later ++ rest).foldlM advance opened = rest.foldlM advance opened := by
  rw [List.cons_append, List.foldlM_cons, advance_divider divides, Option.bind_eq_bind,
    Option.bind_some, after]

end

/-- A closing word closes the innermost open block or nothing. -/
theorem advance_of_closesBlock {word : TokenKind} (closes : closesBlock word = true)
    (opened : List TokenKind) : advance opened word =
      match opened with
      | opener :: outer => if closer? opener = some word then some outer else none
      | [] => none := by
  have opensNone : closer? word = none := by
    cases word <;> first | rfl | cases closes
  have dividesNone : ∀ level : Level, level.divides word = false := by
    intro level
    cases level <;> cases word <;> first | rfl | cases closes
  rw [advance.eq_def, opensNone, dividesNone]
  rfl

/-- A word that begins a part of a block can stand where it divides the innermost one. -/
theorem advance_of_isMarker {word : TokenKind} (marks : isMarker word = true)
    (opened : List TokenKind) : advance opened word =
      if (levelOf opened).divides word then some opened else none := by
  have opensNone : closer? word = none := by
    cases word <;> first | rfl | cases marks
  rw [advance.eq_def, opensNone]
  simp only [Option.isSome_none, Bool.false_eq_true, if_false]
  split
  · rfl
  · cases opened with
    | nil => rfl
    | cons opener outer =>
      cases word <;> cases marks <;> cases opener <;> rfl

/-- What can stand at the level of the open blocks leaves them as they are. -/
theorem foldlM_of_derives {level : Level} {words rest opened : List TokenKind}
    (derives : Derives level words) (same : levelOf opened = level) :
    (words ++ rest).foldlM advance opened = rest.foldlM advance opened := by
  induction derives generalizing rest opened with
  | nil => rfl
  | choice _ _ inside later => exact foldlM_block (later same) rfl fun _ => inside rfl
  | switch _ _ inside later => exact foldlM_block (later same) rfl fun _ => inside rfl
  | select _ _ inside later => exact foldlM_block (later same) rfl fun _ => inside rfl
  | whileLoop _ _ inside later => exact foldlM_block (later same) rfl fun _ => inside rfl
  | doLoop _ _ inside later => exact foldlM_block (later same) rfl fun _ => inside rfl
  | elseIf _ later => exact foldlM_divider (later same) (by rw [same]; rfl)
  | otherwise _ later => exact foldlM_divider (later same) (by rw [same]; rfl)
  | clause _ later => exact foldlM_divider (later same) (by rw [same]; rfl)

/-- Words that complete all open blocks leave none open. -/
theorem foldlM_of_completes {opened words : List TokenKind} (completes : Completes opened words) :
    words.foldlM advance opened = some [] := by
  induction opened generalizing words with
  | nil =>
    have read : (words ++ []).foldlM advance [] = some [] := foldlM_of_derives completes rfl
    rwa [List.append_nil] at read
  | cons opener outer ih =>
    obtain ⟨inner, closer, rest, closes, rfl, derives, completes⟩ := completes
    rw [foldlM_of_derives derives rfl, List.foldlM_cons, advance_closer closes,
      Option.bind_eq_bind, Option.bind_some, ih completes]

/-- Words leave no block open exactly if they are derivable. -/
theorem foldlM_eq_nil_iff {words : List TokenKind} :
    words.foldlM advance [] = some [] ↔ Derives .body words :=
  ⟨completes_of_advance, fun derives => foldlM_of_completes derives⟩

/-! ### Words of a run of tokens -/

/-- The word belongs to a block. -/
def isBlockWord : TokenKind → Bool
  | .kwIf | .kwElseIf | .kwElse | .kwEndIf | .kwSwitch | .kwCase | .kwEndSwitch | .kwSelect
  | .kwEndSelect | .kwWhile | .kwWEnd | .kwDo | .kwUntil => true
  | _ => false

/-- The word cannot run. -/
def isRefused : TokenKind → Bool
  | .kwFunc | .kwEndFunc | .kwWith | .kwEndWith | .kwVolatile => true
  | _ => false

/-- The condition begun at a position ends on the same line. -/
def HasThen (tokens : TokenBlock) (pos : Nat) : Prop :=
  ∃ found, pos < found ∧ hasKind tokens found .kwThen = true ∧
    ∀ between, pos < between → between < found → hasKind tokens between .eol = false

/-- The closing word of some choice on one line stands at a position. -/
def endsChoice (tokens : TokenBlock) (pos : Nat) : Bool :=
  (List.range tokens.size).any fun opener => trailingEndIf tokens opener tokens.size == some pos

/-- The word at a position is the second one of the words that begin a last clause. -/
def followsCase (tokens : TokenBlock) (pos : Nat) : Bool :=
  0 < pos && hasKind tokens (pos - 1) .kwCase && hasKind tokens pos .kwElse

/-- The word at a position begins or ends a choice on one line, or belongs to the word before it. -/
def isDropped (tokens : TokenBlock) (pos : Nat) : Bool :=
  endsChoice tokens pos || hasKind tokens pos .kwIf && isSingleLineIf tokens pos tokens.size ||
    followsCase tokens pos

/-- The word of a block at a position. -/
def word? (tokens : TokenBlock) (pos : Nat) : Option TokenKind :=
  match tokens[pos]? with
  | some token => if isBlockWord token.kind && !isDropped tokens pos then some token.kind else none
  | none => none

/-- The words of blocks from a position on. -/
def wordsFrom (tokens : TokenBlock) (pos : Nat) : List TokenKind :=
  (List.range' pos (tokens.size - pos)).filterMap (word? tokens)

/-- The words of blocks of a run of tokens, without those of choices on one line. -/
def words (tokens : TokenBlock) : List TokenKind := wordsFrom tokens 0

variable {tokens : TokenBlock} {pos last : Nat} {token : Token} {blocks : List OpenBlock}
  {skip : Option Nat}

/-- The search for a header's Then succeeds exactly when the header has one. -/
theorem findThen_isSome_iff :
    (findThen tokens pos tokens.size).isSome = true ↔ HasThen tokens pos := by
  rw [Option.isSome_iff_exists]
  constructor
  · rintro ⟨found, ends⟩
    obtain ⟨is, _, isThen⟩ := findThen_eq_some.mp ends
    refine ⟨found, lt_of_findThen ends, isThen, fun between after before => ?_⟩
    obtain ⟨token, stored, passed⟩ := not_accept_of_lt_seek (Nat.succ_le_of_lt after) (is ▸ before)
    rw [endsHead, Bool.or_eq_false_iff] at passed
    rw [hasKind, stored]
    exact passed.2
  · rintro ⟨found, after, isThen, noEol⟩
    -- The first word that could end the condition is not behind this one, and ends no line.
    obtain ⟨token, stored, kind⟩ := hasKind_iff.mp isThen
    have inside := (Array.getElem?_eq_some_iff.mp stored).1
    have upTo : seek endsHead tokens (pos + 1) tokens.size ≤ found := by
      refine Nat.le_of_not_lt fun beyond => ?_
      obtain ⟨other, stored', passed⟩ :=
        not_accept_of_lt_seek (Nat.succ_le_of_lt after) beyond
      cases stored.symm.trans stored'
      simp [endsHead, kind] at passed
    have within : seek endsHead tokens (pos + 1) tokens.size < tokens.size := by omega
    have accepted := accept_seek within (Array.getElem?_eq_getElem within)
    have from' := le_seek endsHead tokens (pos + 1) tokens.size
    refine ⟨_, findThen_eq_some.mpr ⟨rfl, within, ?_⟩⟩
    by_cases here : seek endsHead tokens (pos + 1) tokens.size = found
    · rw [here]
      exact isThen
    · have open' := noEol _ from' (by omega)
      rw [hasKind, Array.getElem?_eq_getElem within] at open' ⊢
      rw [endsHead, Bool.or_eq_true] at accepted
      exact accepted.resolve_right (by simpa using open')

/-- Beyond the block there are no words. -/
theorem wordsFrom_end (beyond : tokens.size ≤ pos) : wordsFrom tokens pos = [] := by
  rw [wordsFrom, Nat.sub_eq_zero_of_le beyond]
  rfl

/-- The words from a position on are the one there and those behind it. -/
theorem wordsFrom_eq (inside : pos < tokens.size) :
    wordsFrom tokens pos = (word? tokens pos).toList ++ wordsFrom tokens (pos + 1) := by
  have length : tokens.size - pos = tokens.size - (pos + 1) + 1 := by omega
  rw [wordsFrom, length, List.range'_succ, List.filterMap_cons, wordsFrom]
  cases word? tokens pos <;> rfl

/-- Conditions that begin with the token end, and it can run. -/
def isSoundAt (tokens : TokenBlock) (pos : Nat) (token : Token) : Bool :=
  !isRefused token.kind && (!(token.kind == .kwIf || token.kind == .kwElseIf) ||
    (findThen tokens pos tokens.size).isSome)

/-- The computed soundness of a token is that it is not refused and that its header has a Then. -/
theorem isSoundAt_iff : isSoundAt tokens pos token = true ↔ isRefused token.kind = false ∧
    (token.kind = .kwIf ∨ token.kind = .kwElseIf →
      (findThen tokens pos tokens.size).isSome = true) := by
  simp only [isSoundAt, Bool.and_eq_true, Bool.not_eq_true', Bool.or_eq_true,
    Bool.or_eq_false_iff, beq_eq_false_iff_ne]
  grind

/-- The word at a stored position is its kind, unless it is no block word or is dropped. -/
theorem word?_eq (stored : tokens[pos]? = some token) : word? tokens pos =
    if isBlockWord token.kind && !isDropped tokens pos then some token.kind else none := by
  rw [word?, stored]

/-- A branch can stand in a choice only. -/
theorem advance_branch (blocks : List OpenBlock) {word : TokenKind}
    (branches : word = .kwElseIf ∨ word = .kwElse) :
    advance (blocks.map OpenBlock.opener) word =
      if insideOf (· == .kwIf) blocks then some (blocks.map OpenBlock.opener) else none := by
  have divides : (levelOf (blocks.map OpenBlock.opener)).divides word =
      insideOf (· == .kwIf) blocks := by
    cases blocks with
    | nil => rcases branches with rfl | rfl <;> rfl
    | cons block outer =>
      simp only [List.map_cons, levelOf, insideOf]
      rcases branches with rfl | rfl <;> cases block.opener <;> rfl
  rw [advance_of_isMarker (by rcases branches with rfl | rfl <;> rfl), divides]

/-- A clause can stand in a selection only. -/
theorem advance_clause (blocks : List OpenBlock) : advance (blocks.map OpenBlock.opener) .kwCase =
    if insideOf (fun opener => opener == .kwSwitch || opener == .kwSelect) blocks then
      some (blocks.map OpenBlock.opener)
    else none := by
  have divides : (levelOf (blocks.map OpenBlock.opener)).divides .kwCase =
      insideOf (fun opener => opener == .kwSwitch || opener == .kwSelect) blocks := by
    cases blocks with
    | nil => rfl
    | cons block outer =>
      simp only [List.map_cons, levelOf, insideOf]
      cases block.opener <;> rfl
  rw [advance_of_isMarker rfl, divides]

/-- Closing the innermost block is what its closing word does. -/
theorem closeBlock_opener (blocks : List OpenBlock) (closes : closesBlock token.kind = true) :
    (closeBlock blocks token).toOption.map (List.map OpenBlock.opener) =
      advance (blocks.map OpenBlock.opener) token.kind := by
  rw [advance_of_closesBlock closes]
  cases blocks with
  | nil => rfl
  | cons block outer =>
    simp only [closeBlock, List.map_cons]
    split <;> rfl

/-- The check of a closing word. -/
theorem step_of_closesBlock (closes : closesBlock token.kind = true) :
    step tokens pos token blocks skip =
      (closeBlock blocks token).map fun outer => { blocks := outer, skip } := by
  unfold step
  revert closes
  cases token.kind <;> intro closes <;> first | rfl | cases closes

/-- The open blocks behind a token that is accepted. -/
def openedBy (checked : Except Fault Effect) : Option (List TokenKind) :=
  checked.toOption.map fun effect => effect.blocks.map OpenBlock.opener

section

variable (stored : tokens[pos]? = some token) (open' : endsChoice tokens pos = false)
  (first : followsCase tokens pos = false)
include stored open' first

/-- The dropped openers are the single-line conditionals. -/
theorem isDropped_eq : isDropped tokens pos =
    (token.kind == .kwIf && isSingleLineIf tokens pos tokens.size) := by
  rw [isDropped, open', first, hasKind_eq stored, Bool.false_or, Bool.or_false]

/-- The check of a token accepts it if it is sound and its word, if it is one, fits the open
blocks. -/
theorem openedBy_step (blocks : List OpenBlock) (skip : Option Nat) :
    openedBy (step tokens pos token blocks skip) =
    if isSoundAt tokens pos token then
      (word? tokens pos).toList.foldlM advance (blocks.map OpenBlock.opener)
    else none := by
  rw [word?_eq stored, isDropped_eq stored open' first, isSoundAt]
  by_cases passed : isPassed token.kind = true
  · rw [step_passed passed]
    revert passed
    cases token.kind <;> intro passed <;> first | rfl | cases passed
  by_cases closes : closesBlock token.kind = true
  · have word : isBlockWord token.kind = true ∧ isRefused token.kind = false ∧
        (token.kind == .kwIf) = false ∧ (token.kind == .kwElseIf) = false := by
      revert closes
      cases token.kind <;> intro closes <;> first | cases closes; done | exact ⟨rfl, rfl, rfl, rfl⟩
    have closed := closeBlock_opener blocks closes
    rw [step_of_closesBlock closes, openedBy]
    simp only [word, Bool.false_and, Bool.false_or, Bool.not_false, Bool.true_and, Bool.true_or,
      if_true, Option.toList_some, List.foldlM_cons, List.foldlM_nil, bind_pure]
    rw [← closed]
    cases closeBlock blocks token <;> rfl
  unfold step
  rcases word_cases (Bool.eq_false_iff.mpr passed) (Bool.eq_false_iff.mpr closes) with
    kind | kind | kind | kind | opener | refused
  · rw [kind]
    dsimp only
    cases findThen tokens pos tokens.size with
    | none => rfl
    | some found => cases isSingleLineIf tokens pos tokens.size <;> rfl
  · have advanced := advance_branch blocks (.inl kind)
    rw [kind] at advanced ⊢
    dsimp only
    cases inside : insideOf (· == .kwIf) blocks <;> cases findThen tokens pos tokens.size <;>
      simp [isRefused, isBlockWord, openedBy, Except.toOption, advanced, inside]
  · have advanced := advance_branch blocks (.inr kind)
    rw [kind] at advanced ⊢
    cases inside : insideOf (· == .kwIf) blocks <;>
      simp [isRefused, isBlockWord, openedBy, Except.toOption, advanced, inside]
  · rw [kind]
    cases inside : insideOf (fun opener => opener == .kwSwitch || opener == .kwSelect) blocks <;>
      simp [isRefused, isBlockWord, openedBy, Except.toOption, advance_clause, inside]
  · rcases opener with kind | kind | kind | kind <;> simp only [kind] <;> rfl
  · rcases refused with kind | kind | kind | kind | kind <;> simp only [kind] <;> rfl

end

/-- The second word of a last clause goes with the first, and a choice on one line names the closing
word to leave out. -/
theorem effect_of_step {effect : Effect}
    (stepped : step tokens pos token blocks skip = .ok effect) :
    effect.takesNext = (token.kind == .kwCase && hasKind tokens (pos + 1) .kwElse) ∧
      effect.skip = if token.kind == .kwIf && isSingleLineIf tokens pos tokens.size then
        trailingEndIf tokens pos tokens.size else skip := by
  by_cases passed : isPassed token.kind = true
  · rw [step_passed passed] at stepped
    cases stepped
    revert passed
    cases token.kind <;> intro passed <;> first | exact ⟨rfl, rfl⟩ | cases passed
  by_cases closes : closesBlock token.kind = true
  · rw [step_of_closesBlock closes] at stepped
    cases closed : closeBlock blocks token with
    | error fault =>
      rw [closed] at stepped
      cases stepped
    | ok outer =>
      rw [closed] at stepped
      cases stepped
      revert closes
      cases token.kind <;> intro closes <;> first | exact ⟨rfl, rfl⟩ | cases closes
  unfold step at stepped
  rcases word_cases (Bool.eq_false_iff.mpr passed) (Bool.eq_false_iff.mpr closes) with
    kind | kind | kind | kind | opener | refused
  · simp only [kind] at stepped ⊢
    repeat' split at stepped
    all_goals cases stepped
    all_goals simp_all
  · simp only [kind] at stepped ⊢
    repeat' split at stepped
    all_goals cases stepped
    exact ⟨rfl, rfl⟩
  · simp only [kind] at stepped ⊢
    split at stepped <;> cases stepped
    exact ⟨rfl, rfl⟩
  · simp only [kind] at stepped ⊢
    split at stepped <;> cases stepped
    exact ⟨rfl, rfl⟩
  · rcases opener with kind | kind | kind | kind <;>
      (simp only [kind] at stepped ⊢; cases stepped; exact ⟨rfl, rfl⟩)
  · rcases refused with kind | kind | kind | kind | kind <;>
      (simp only [kind] at stepped; cases stepped)

/-- The slot holds the closing word that a choice before the position leaves for behind it. -/
def Slot (tokens : TokenBlock) (pos : Nat) (skip : Option Nat) : Prop :=
  ∀ last, pos ≤ last → (skip = some last ↔
    ∃ opener, opener < pos ∧ trailingEndIf tokens opener tokens.size = some last)

/-- A slot is skipped exactly when it ends a choice. -/
theorem Slot.endsChoice_iff (slot : Slot tokens pos skip) :
    skip = some pos ↔ endsChoice tokens pos = true := by
  rw [slot pos (Nat.le_refl _), endsChoice, List.any_eq_true]
  constructor
  · rintro ⟨opener, before, trailing⟩
    obtain ⟨_, stored, _⟩ := hasKind_iff.mp (trailingEndIf_eq_some.mp trailing).1
    exact ⟨opener, List.mem_range.mpr (Array.getElem?_eq_some_iff.mp stored).1,
      beq_iff_eq.mpr trailing⟩
  · rintro ⟨opener, _, same⟩
    have trailing := eq_of_beq same
    exact ⟨opener, (trailingEndIf_eq_some.mp trailing).2.2.2.1, trailing⟩

/-- All choices on a line leave the same closing word, so none is lost when a later one takes the
slot. -/
theorem Slot.next (slot : Slot tokens pos skip) (stored : tokens[pos]? = some token) :
    Slot tokens (pos + 1) (if token.kind == .kwIf && isSingleLineIf tokens pos tokens.size then
      trailingEndIf tokens pos tokens.size else skip) := by
  intro last behind
  split
  · rename_i onLine
    rw [Bool.and_eq_true, beq_iff_eq] at onLine
    constructor
    · exact fun trailing => ⟨pos, Nat.lt_succ_self pos, trailing⟩
    · rintro ⟨opener, before, trailing⟩
      obtain ⟨_, _, ending, _, closes⟩ := trailingEndIf_eq_some.mp trailing
      have same : statementEnd tokens pos tokens.size = statementEnd tokens opener tokens.size :=
        seek_eq_of_le (Nat.le_of_lt_succ before)
          (show pos ≤ statementEnd tokens opener tokens.size by omega)
      exact trailingEndIf_eq_some.mpr ⟨hasKind_iff.mpr ⟨token, stored, onLine.1⟩, onLine.2,
        same.trans ending, behind, closes⟩
  · rename_i overLines
    rw [slot last (Nat.le_of_succ_le behind)]
    constructor
    · exact fun ⟨opener, before, trailing⟩ => ⟨opener, Nat.lt_succ_of_lt before, trailing⟩
    · rintro ⟨opener, before, trailing⟩
      have apart : opener ≠ pos := by
        rintro rfl
        obtain ⟨isIf, single, _⟩ := trailingEndIf_eq_some.mp trailing
        rw [hasKind_eq stored] at isIf
        exact overLines (by rw [isIf, single]; rfl)
      exact ⟨opener, by omega, trailing⟩

/-- From a position on every token is sound, and the words leave no block open. -/
structure Fits (tokens : TokenBlock) (pos : Nat) (opened : List TokenKind) : Prop where
  /-- Conditions end and no word is refused. -/
  sound : ∀ at' token, pos ≤ at' → tokens[at']? = some token → isSoundAt tokens at' token = true
  /-- The words close the open blocks and all that they open. -/
  closed : (wordsFrom tokens pos).foldlM advance opened = some []

/-- Fitting from a position is soundness of its token, one advance, and fitting from the next
position. -/
theorem fits_iff {opened : List TokenKind} (stored : tokens[pos]? = some token) :
    Fits tokens pos opened ↔ isSoundAt tokens pos token = true ∧
      ∃ later, (word? tokens pos).toList.foldlM advance opened = some later ∧
        Fits tokens (pos + 1) later := by
  have words := wordsFrom_eq (Array.getElem?_eq_some_iff.mp stored).1
  constructor
  · rintro ⟨sound, closed⟩
    rw [words, List.foldlM_append] at closed
    obtain ⟨later, here, closed⟩ := Option.bind_eq_some_iff.mp closed
    exact ⟨sound pos token (Nat.le_refl _) stored, later, here,
      fun at' other from' => sound at' other (Nat.le_of_succ_le from'), closed⟩
  · rintro ⟨soundHere, later, here, sound, closed⟩
    refine ⟨fun at' other from' stored' => ?_, ?_⟩
    · by_cases same : at' = pos
      · subst same
        cases stored.symm.trans stored'
        exact soundHere
      · exact sound at' other (by omega) stored'
    · rw [words, List.foldlM_append, here]
      exact closed

/-- A closing or second word that is left out changes nothing. -/
theorem fits_dropped {opened : List TokenKind} (stored : tokens[pos]? = some token)
    (other : token.kind = .kwEndIf ∨ token.kind = .kwElse) (dropped : isDropped tokens pos = true) :
    Fits tokens pos opened ↔ Fits tokens (pos + 1) opened := by
  have sound : isSoundAt tokens pos token = true := by
    unfold isSoundAt
    rcases other with kind | kind <;> rw [kind] <;> rfl
  have noWord : word? tokens pos = none := by simp [word?_eq stored, dropped]
  rw [fits_iff stored, noWord]
  simp [sound]

/-- Behind a word that is no clause's, nothing belongs to the word before. -/
theorem followsCase_of_ne (stored : tokens[pos]? = some token) (other : token.kind ≠ .kwCase) :
    followsCase tokens (pos + 1) = false := by
  simp [followsCase, hasKind_eq stored, other]

/-- Behind the last token, no block may be open. -/
theorem fits_end {opened : List TokenKind} (beyond : tokens.size ≤ pos) :
    Fits tokens pos opened ↔ opened = [] := by
  constructor
  · rintro ⟨_, closed⟩
    rw [wordsFrom_end beyond] at closed
    simpa using closed
  · rintro rfl
    refine ⟨fun at' token from' stored => ?_, by rw [wordsFrom_end beyond]; rfl⟩
    have := (Array.getElem?_eq_some_iff.mp stored).1
    omega

/-- A token fits where its check accepts it, and the ones behind it fit the blocks that it leaves
open. -/
theorem fits_step (stored : tokens[pos]? = some token) (open' : endsChoice tokens pos = false)
    (first : followsCase tokens pos = false) (blocks : List OpenBlock) (skip : Option Nat) :
    Fits tokens pos (blocks.map OpenBlock.opener) ↔
      ∃ effect, step tokens pos token blocks skip = .ok effect ∧
        Fits tokens (pos + 1) (effect.blocks.map OpenBlock.opener) := by
  have opened := openedBy_step stored open' first blocks skip
  rw [fits_iff stored]
  by_cases sound : isSoundAt tokens pos token = true
  · rw [if_pos sound] at opened
    rw [← opened]
    cases step tokens pos token blocks skip <;> simp [sound, openedBy, Except.toOption]
  · rw [if_neg sound] at opened
    cases stepped : step tokens pos token blocks skip with
    | error => simp [sound]
    | ok effect =>
      rw [stepped] at opened
      cases opened

/-- What the check accepts from a position on. -/
theorem checkFrom_eq_ok_iff {pos : Nat} {blocks : List OpenBlock} {skip : Option Nat}
    (slot : Slot tokens pos skip) (first : followsCase tokens pos = false) :
    checkFrom tokens pos blocks skip = .ok () ↔
      Fits tokens pos (blocks.map OpenBlock.opener) := by
  by_cases beyond : tokens.size ≤ pos
  · rw [checkFrom.eq_def, dif_neg (by omega), fits_end beyond]
    cases blocks <;> simp
  have inside : pos < tokens.size := by omega
  have stored : tokens[pos]? = some tokens[pos] := Array.getElem?_eq_getElem inside
  by_cases left : skip = some pos
  · -- The closing word of a choice on one line.
    obtain ⟨opener, _, trailing⟩ := (slot pos (Nat.le_refl _)).mp left
    have closes := (trailingEndIf_eq_some.mp trailing).2.2.2.2
    rw [hasKind_eq stored, beq_iff_eq] at closes
    have dropped : isDropped tokens pos = true := by
      rw [isDropped, slot.endsChoice_iff.mp left]
      rfl
    have behind : Slot tokens (pos + 1) skip := by simpa [closes] using slot.next stored
    rw [fits_dropped stored (.inl closes) dropped, checkFrom.eq_def, dif_pos inside, if_pos left]
    exact checkFrom_eq_ok_iff behind (followsCase_of_ne stored (by simp [closes]))
  have open' : endsChoice tokens pos = false :=
    Bool.eq_false_iff.mpr fun ends => left (slot.endsChoice_iff.mpr ends)
  rw [fits_step stored open' first blocks skip]
  cases stepped : step tokens pos tokens[pos] blocks skip with
  | error fault =>
    rw [checkFrom.eq_def, dif_pos inside, if_neg left, stepped]
    exact ⟨nofun, nofun⟩
  | ok effect =>
    obtain ⟨takes, skips⟩ := effect_of_step stepped
    have behind := slot.next stored
    rw [← skips] at behind
    simp only [Except.ok.injEq, exists_eq_left']
    rw [checkFrom_eq stored left stepped]
    cases takesNext : effect.takesNext with
    | false =>
      refine checkFrom_eq_ok_iff behind ?_
      simp [followsCase, hasKind_eq stored, ← takes, takesNext]
    | true =>
      -- The word behind a clause's is left out together with it.
      rw [takesNext, eq_comm, Bool.and_eq_true, beq_iff_eq] at takes
      obtain ⟨isCase, next⟩ := takes
      obtain ⟨word, stored', isElse⟩ := hasKind_iff.mp next
      have follows : followsCase tokens (pos + 1) = true := by
        simp [followsCase, hasKind_eq stored, isCase, next]
      have dropped : isDropped tokens (pos + 1) = true := by rw [isDropped, follows, Bool.or_true]
      have behind' : Slot tokens (pos + 2) effect.skip := by
        simpa [isElse] using behind.next stored'
      rw [fits_dropped stored' (.inr isElse) dropped]
      exact checkFrom_eq_ok_iff behind' (followsCase_of_ne stored' (by simp [isElse]))
termination_by tokens.size - pos

/-- The checker accepts a block exactly when the block fits from its start with nothing opened. -/
theorem check_iff_fits : check tokens = .ok () ↔ Fits tokens 0 [] :=
  checkFrom_eq_ok_iff (fun _ _ => ⟨nofun, fun ⟨_, before, _⟩ => nomatch before⟩) rfl

/-- No word that cannot run stands in an accepted run. -/
theorem not_refused_of_check (checked : check tokens = .ok ()) :
    ∀ token ∈ tokens, isRefused token.kind = false := by
  intro token member
  obtain ⟨pos, stored⟩ := Array.getElem?_of_mem member
  exact (isSoundAt_iff.mp ((check_iff_fits.mp checked).sound pos token (Nat.zero_le pos) stored)).1

/-- The check accepts exactly the runs in which every condition ends on its line, no word stands
that cannot run, and the words of blocks, without those of choices on one line, nest. -/
theorem check_eq_ok_iff (tokens : TokenBlock) : check tokens = .ok () ↔
    (∀ pos, hasKind tokens pos .kwIf = true ∨ hasKind tokens pos .kwElseIf = true →
      HasThen tokens pos) ∧
    (∀ token ∈ tokens, isRefused token.kind = false) ∧ Derives .body (words tokens) := by
  constructor
  · intro checked
    refine ⟨fun pos isChoice => ?_, not_refused_of_check checked,
      foldlM_eq_nil_iff.mp (check_iff_fits.mp checked).closed⟩
    obtain ⟨token, stored, kind⟩ : ∃ token, tokens[pos]? = some token ∧
        (token.kind = .kwIf ∨ token.kind = .kwElseIf) := by
      rcases isChoice with has | has <;> obtain ⟨token, stored, kind⟩ := hasKind_iff.mp has
      · exact ⟨token, stored, .inl kind⟩
      · exact ⟨token, stored, .inr kind⟩
    exact findThen_isSome_iff.mp (findThen_of_check checked stored kind)
  · rintro ⟨heads, runs, derives⟩
    refine check_iff_fits.mpr ⟨fun pos token _ stored => ?_, foldlM_eq_nil_iff.mpr derives⟩
    refine isSoundAt_iff.mpr ⟨runs token (Array.mem_of_getElem? stored), fun isChoice => ?_⟩
    refine findThen_isSome_iff.mpr (heads pos (isChoice.imp ?_ ?_)) <;>
      exact fun kind => hasKind_iff.mpr ⟨token, stored, kind⟩

end Blocks

end LineScript
