import LineScript.Proofs.Blocks.Line

/-!
# Paths through the blocks of a window

A path goes over the tokens of a window and keeps the words that opened the blocks it is in, the
innermost first. A closing word closes the innermost block or, outside all blocks, nothing; a
choice on one line is passed over as a whole. A window is regular if a path leads from its start
to its stop and leaves no block open.
-/

namespace LineScript

namespace Blocks

open Layout Structure Structured

section

variable {tokens : Array Token} {stop pos last : Nat} {blocks rest : List TokenKind}

/-- One token of a path, or a choice on one line. -/
inductive Step (tokens : Array Token) (stop : Nat) :
    Nat → List TokenKind → Nat → List TokenKind → Prop where
  /-- A token that changes no blocks or divides one. -/
  | pass {pos : Nat} {token : Token} {blocks : List TokenKind} (inside : pos < stop)
    (stored : tokens[pos]? = some token)
    (passed : isPassed token.kind = true ∨ isMarker token.kind = true) :
    Step tokens stop pos blocks (pos + 1) blocks
  /-- A choice on one line. -/
  | line {pos found last next : Nat} {blocks : List TokenKind}
    (oneLine : OneLine tokens stop pos found last next) : Step tokens stop pos blocks next blocks
  /-- A word that opens a block. -/
  | opens {pos : Nat} {token : Token} {blocks : List TokenKind} (inside : pos < stop)
    (stored : tokens[pos]? = some token) (opened : opensBlock tokens pos stop = true) :
    Step tokens stop pos blocks (pos + 1) (token.kind :: blocks)
  /-- The word that closes the innermost block. -/
  | closes {pos : Nat} {token : Token} {kind : TokenKind} {blocks : List TokenKind}
    (inside : pos < stop) (stored : tokens[pos]? = some token)
    (closed : closer? kind = some token.kind) :
    Step tokens stop pos (kind :: blocks) (pos + 1) blocks
  /-- A closing word outside all blocks. -/
  | stray {pos : Nat} {token : Token} (inside : pos < stop) (stored : tokens[pos]? = some token)
    (closed : closesBlock token.kind = true) : Step tokens stop pos [] (pos + 1) []

/-- A path from a position and the blocks open there to another. -/
inductive Reaches (tokens : Array Token) (stop : Nat) :
    Nat → List TokenKind → Nat → List TokenKind → Prop where
  /-- No step. -/
  | refl (pos : Nat) (blocks : List TokenKind) : Reaches tokens stop pos blocks pos blocks
  /-- One more step in front. -/
  | step {pos next last : Nat} {blocks blocks' rest : List TokenKind}
    (first : Step tokens stop pos blocks next blocks')
    (later : Reaches tokens stop next blocks' last rest) :
    Reaches tokens stop pos blocks last rest

/-- Words that no path passes over by themselves: they open, close or divide blocks. -/
def Border (tokens : Array Token) (stop pos : Nat) : Prop :=
  pos = stop ∨ ∃ token, tokens[pos]? = some token ∧ isPassed token.kind = false

/-- The condition behind a word changes no blocks. -/
structure HeadAt (tokens : Array Token) (stop pos : Nat) (token : Token) : Prop where
  /-- Conditions of choices are ended. -/
  choice : token.kind = .kwIf ∨ token.kind = .kwElseIf →
    ∃ found, findThen tokens pos stop = some found ∧ Quiet tokens (pos + 1) found
  /-- Conditions of loops end with the statement. -/
  loop : token.kind = .kwWhile → Quiet tokens (pos + 1) (statementEnd tokens (pos + 1) stop)

/-- The conditions of a part of a window change no blocks. -/
def Heads (tokens : Array Token) (first stop : Nat) : Prop :=
  ∀ pos token, first ≤ pos → pos < stop → tokens[pos]? = some token → HeadAt tokens stop pos token

/-- Conditions change no blocks, and a path leads through the window that leaves no block open. -/
structure Regular (tokens : Array Token) (pos stop : Nat) : Prop where
  /-- The window ends inside the run of tokens. -/
  inside : stop ≤ tokens.size
  /-- The path. -/
  reaches : Reaches tokens stop pos [] stop []
  /-- The conditions. -/
  heads : Heads tokens pos stop

/-- A condition that begins before a border ends before it. -/
theorem Quiet.le_border {first found border : Nat} (quiet : Quiet tokens first found)
    (isBorder : Border tokens stop border) (from' : first ≤ border) (inside : found ≤ stop) :
    found ≤ border := by
  refine Nat.le_of_not_lt fun beyond => ?_
  rcases isBorder with rfl | ⟨token, stored, word⟩
  · omega
  · obtain ⟨other, stored', passed⟩ := quiet border from' beyond
    cases stored.symm.trans stored'
    rw [word] at passed
    cases passed

/-- The word that ends a condition stands before each border behind the condition. -/
theorem HeadAt.findThen_lt {border found : Nat} (quiet : Quiet tokens (pos + 1) found)
    (ends : findThen tokens pos stop = some found) (isBorder : Border tokens stop border)
    (before : pos < border) : found < border := by
  obtain ⟨_, inside, isThen⟩ := findThen_eq_some.mp ends
  have le := quiet.le_border isBorder before (Nat.le_of_lt inside)
  refine Nat.lt_of_le_of_ne le fun same => ?_
  subst same
  obtain ⟨token, stored, kind⟩ := hasKind_iff.mp isThen
  rcases isBorder with rfl | ⟨other, stored', word⟩
  · omega
  · cases stored.symm.trans stored'
    rw [kind] at word
    cases word

/-- A head that begins before a border is one in the window that ends there. -/
theorem HeadAt.cut {border : Nat} {token : Token} (head : HeadAt tokens stop pos token)
    (isBorder : Border tokens stop border) (before : pos < border) (le : border ≤ stop) :
    HeadAt tokens border pos token where
  choice isChoice := by
    obtain ⟨found, ends, quiet⟩ := head.choice isChoice
    exact ⟨found, findThen_cut ends (HeadAt.findThen_lt quiet ends isBorder before) le, quiet⟩
  loop isLoop := by
    have quiet := head.loop isLoop
    have cut : statementEnd tokens (pos + 1) border =
        min (statementEnd tokens (pos + 1) stop) border := seek_cut before le
    intro at' from' inside
    exact quiet at' from' (by omega)

/-- Headers that stand before a border stand in the stretch cut there. -/
theorem Heads.cut {first border : Nat} (heads : Heads tokens first stop)
    (isBorder : Border tokens stop border) (le : border ≤ stop) : Heads tokens first border :=
  fun pos token from' before stored =>
    (heads pos token from' (by omega) stored).cut isBorder before le

/-- The headers of a stretch stay sound when its start moves forward. -/
theorem Heads.mono {first later : Nat} (heads : Heads tokens first stop) (le : first ≤ later) :
    Heads tokens later stop := fun pos token from' => heads pos token (Nat.le_trans le from')

/-- What a path passes over opens and closes nothing. -/
theorem inert_of_passed {kind : TokenKind} (passed : isPassed kind = true ∨ isMarker kind = true) :
    isInert kind = true := by
  rcases passed with passed | marker
  · exact (inert_of_isPassed passed).1
  · cases kind <;> first | rfl | cases marker

/-- No opening word closes a block or is passed over. -/
theorem not_inert_of_closer? {opener kind : TokenKind} (closes : closer? opener = some kind) :
    isInert opener = false ∧ closesBlock opener = false := by
  cases opener <;> first | exact ⟨rfl, rfl⟩ | cases closes

namespace Step

variable {next : Nat} {blocks' : List TokenKind}

/-- Every step moves the position forward. -/
theorem lt (step : Step tokens stop pos blocks next blocks') : pos < next := by
  cases step with
  | line oneLine =>
    have := oneLine.pos_lt_found
    have := oneLine.found_lt_next
    omega
  | _ => exact Nat.lt_succ_self _

/-- No step passes the stop. -/
theorem le_stop (step : Step tokens stop pos blocks next blocks') : next ≤ stop := by
  cases step with
  | line oneLine => exact oneLine.next_le
  | pass inside | opens inside | closes inside | stray inside => exact inside

/-- Blocks below those that a step can see stay where they are, as far as it does not close
them. -/
theorem drop {below : List TokenKind} (step : Step tokens stop pos (blocks ++ below) next blocks') :
    ∃ now under, Step tokens stop pos blocks next now ∧ blocks' = now ++ under := by
  generalize same : blocks ++ below = all at step
  cases step with
  | pass inside stored passed => exact ⟨blocks, below, .pass inside stored passed, same.symm⟩
  | line oneLine => exact ⟨blocks, below, .line oneLine, same.symm⟩
  | @opens token _ inside stored opened =>
    exact ⟨token.kind :: blocks, below, .opens inside stored opened, by rw [← same]; rfl⟩
  | @closes token kind _ inside stored closed =>
    cases blocks with
    | nil =>
      refine ⟨[], _, .stray inside stored ?_, rfl⟩
      exact closesBlock_of_closer? closed
    | cons top others =>
      cases same
      exact ⟨others, below, .closes inside stored closed, rfl⟩
  | stray inside stored closed =>
    obtain ⟨rfl, rfl⟩ := List.append_eq_nil_iff.mp same
    exact ⟨[], [], .stray inside stored closed, rfl⟩

/-- A step that ends before a border is one in the window that ends there. -/
theorem cut {border : Nat} (step : Step tokens stop pos blocks next blocks')
    (heads : Heads tokens pos stop) (isBorder : Border tokens stop border)
    (before : next ≤ border) (le : border ≤ stop) :
    Step tokens border pos blocks next blocks' := by
  cases step with
  | pass inside stored passed => exact .pass before stored passed
  | line oneLine => exact .line (oneLine.cut before le)
  | closes inside stored closed => exact .closes before stored closed
  | stray inside stored closed => exact .stray before stored closed
  | @opens token _ inside stored opened =>
    refine .opens before stored ?_
    by_cases isIf : token.kind = .kwIf
    · obtain ⟨found, ends, quiet⟩ := (heads pos token (Nat.le_refl _) inside stored).choice (.inl isIf)
      have found_lt := HeadAt.findThen_lt quiet ends isBorder before
      have overLines : isSingleLineIf tokens pos stop = false := by
        simpa [opensBlock, stored, isIf] using opened
      have overLinesHere : isSingleLineIf tokens pos border = false := by
        refine Bool.eq_false_iff.mpr fun single => ?_
        obtain ⟨other, follower, ends', inside', stored', goesOn⟩ := isSingleLineIf_iff.mp single
        cases ends'.symm.trans (findThen_cut ends found_lt le)
        rw [isSingleLineIf_iff.mpr ⟨found, follower, ends, by omega, stored', goesOn⟩] at overLines
        cases overLines
      simp [opensBlock, stored, isIf, overLinesHere]
    · rw [opensBlock_eq_isSome stored isIf] at opened ⊢
      exact opened

/-- Over a token that changes no blocks there is only the step that passes over it. -/
theorem of_passed {token : Token} (step : Step tokens stop pos blocks next blocks')
    (stored : tokens[pos]? = some token)
    (passed : isPassed token.kind = true ∨ isMarker token.kind = true) :
    next = pos + 1 ∧ blocks' = blocks := by
  have inert := inert_of_passed passed
  cases step with
  | pass => exact ⟨rfl, rfl⟩
  | line oneLine =>
    obtain ⟨_, stored', isIf⟩ := oneLine.stored
    cases stored.symm.trans stored'
    rw [isIf] at inert
    cases inert
  | opens inside stored' opened =>
    rw [opensBlock_eq_false stored inert] at opened
    cases opened
  | closes inside stored' closed =>
    cases stored.symm.trans stored'
    have := closesBlock_eq_false inert
    rw [closesBlock_of_closer? closed] at this
    cases this
  | stray inside stored' closed =>
    cases stored.symm.trans stored'
    rw [closesBlock_eq_false inert] at closed
    cases closed

/-- Over the opening word of a block there is the step that opens it, or the choice on one line. -/
theorem of_opener {token : Token} {kind : TokenKind}
    (step : Step tokens stop pos blocks next blocks') (stored : tokens[pos]? = some token)
    (opener : closer? token.kind = some kind) :
    next = pos + 1 ∧ blocks' = token.kind :: blocks ∧ opensBlock tokens pos stop = true ∨
      blocks' = blocks ∧ ∃ found last, OneLine tokens stop pos found last next := by
  have word := not_inert_of_closer? opener
  cases step with
  | pass inside stored' passed =>
    cases stored.symm.trans stored'
    rw [inert_of_passed passed] at word
    cases word.1
  | line oneLine => exact .inr ⟨rfl, _, _, oneLine⟩
  | opens inside stored' opened =>
    cases stored.symm.trans stored'
    exact .inl ⟨rfl, rfl, opened⟩
  | closes inside stored' closed =>
    cases stored.symm.trans stored'
    rw [closesBlock_of_closer? closed] at word
    cases word.2
  | stray inside stored' closes =>
    cases stored.symm.trans stored'
    rw [closes] at word
    cases word.2

end Step

namespace Reaches

/-- A path never moves backward. -/
theorem le (reaches : Reaches tokens stop pos blocks last rest) : pos ≤ last := by
  induction reaches with
  | refl => exact Nat.le_refl _
  | step first _ ih => exact Nat.le_trans (Nat.le_of_lt first.lt) ih

/-- Two paths that meet are one path. -/
theorem trans {middle : Nat} {between : List TokenKind}
    (reaches : Reaches tokens stop pos blocks middle between)
    (later : Reaches tokens stop middle between last rest) :
    Reaches tokens stop pos blocks last rest := by
  induction reaches with
  | refl => exact later
  | step first _ ih => exact .step first (ih later)

/-- A single step is a path. -/
theorem one {next : Nat} {blocks' : List TokenKind}
    (step : Step tokens stop pos blocks next blocks') :
    Reaches tokens stop pos blocks next blocks' := .step step (.refl _ _)

/-- A path goes on without the outer blocks that were open at its start. -/
theorem drop {below : List TokenKind}
    (reaches : Reaches tokens stop pos (blocks ++ below) last rest) :
    ∃ now under, Reaches tokens stop pos blocks last now ∧ rest = now ++ under := by
  generalize same : blocks ++ below = all at reaches
  induction reaches generalizing blocks below with
  | refl pos => exact ⟨blocks, below, .refl _ _, same.symm⟩
  | step first _ ih =>
    subst same
    obtain ⟨middle, under, stepped, same⟩ := first.drop
    obtain ⟨now, under', reached, same'⟩ := ih same.symm
    exact ⟨now, under', .step stepped reached, same'⟩

/-- A path that leaves no block open leads on from no open block. -/
theorem fresh (reaches : Reaches tokens stop pos blocks last []) :
    Reaches tokens stop pos [] last [] := by
  obtain ⟨now, under, reached, same⟩ := @drop tokens stop pos last [] [] blocks reaches
  obtain ⟨rfl, _⟩ := List.append_eq_nil_iff.mp same.symm
  exact reached

/-- A path that ends before a border is one in the window that ends there. -/
theorem cut {border : Nat} (reaches : Reaches tokens stop pos blocks last rest)
    (heads : Heads tokens pos stop) (isBorder : Border tokens stop border)
    (before : last ≤ border) (le : border ≤ stop) :
    Reaches tokens border pos blocks last rest := by
  induction reaches with
  | refl => exact .refl _ _
  | step first later ih =>
    have order := later.le
    exact .step (first.cut heads isBorder (by omega) le)
      (ih (heads.mono (Nat.le_of_lt first.lt)) before)

/-- A path goes on behind a token that changes no blocks. -/
theorem of_passed {token : Token} (reaches : Reaches tokens stop pos blocks last rest)
    (before : pos < last) (stored : tokens[pos]? = some token)
    (passed : isPassed token.kind = true ∨ isMarker token.kind = true) :
    Reaches tokens stop (pos + 1) blocks last rest := by
  cases reaches with
  | refl => omega
  | step first later =>
    obtain ⟨rfl, rfl⟩ := first.of_passed stored passed
    exact later

/-- A path goes on behind tokens that change no blocks. -/
theorem of_quiet {first later : Nat} (reaches : Reaches tokens stop first blocks last rest)
    (quiet : Quiet tokens first later) (le : first ≤ later) (before : later ≤ last) :
    Reaches tokens stop later blocks last rest := by
  by_cases here : first = later
  · exact here ▸ reaches
  obtain ⟨token, stored, passed⟩ := quiet first (Nat.le_refl _) (by omega)
  exact of_quiet (reaches.of_passed (by omega) stored (.inl passed))
    (quiet.mono (Nat.le_succ first)) (by omega) before
termination_by later - first

/-- From a place where each token is passed over or begins a choice that leads to an end, a path
leads to that end. -/
theorem of_each {next at' : Nat}
    (each : ∀ pos, at' ≤ pos → pos < last → ∃ token, tokens[pos]? = some token ∧
      (isPassed token.kind = true ∨ ∃ found, OneLine tokens stop pos found last next))
    (le : at' ≤ last) (inside : last ≤ stop) (ends : Reaches tokens stop last [] next []) :
    Reaches tokens stop at' [] next [] := by
  by_cases here : at' = last
  · exact here ▸ ends
  obtain ⟨token, stored, passed | ⟨found, oneLine⟩⟩ := each at' (Nat.le_refl _) (by omega)
  · exact .step (.pass (by omega) stored (.inl passed))
      (of_each (fun pos from' => each pos (by omega)) (by omega) inside ends)
  · exact .one (.line oneLine)
termination_by last - at'

end Reaches

/-- From inside a choice on one line a path leads to its end. -/
theorem OneLine.reaches {found next at' : Nat} (line : OneLine tokens stop pos found last next)
    (from' : pos ≤ at') (le : at' ≤ last) : Reaches tokens stop at' [] next [] := by
  have lastLe := line.last_le_next
  have nextLe := line.next_le
  refine .of_each (fun other start => line.each (by omega)) le (by omega) ?_
  rcases line.closed with ⟨_, same⟩ | ⟨_, same⟩
  · obtain ⟨token, stored, closes⟩ := hasKind_iff.mp (line.closer_stored same)
    rw [same]
    exact .one (.stray (by omega) stored (by rw [closes]; rfl))
  · rw [same]
    exact .refl _ _

namespace Reaches

/-- A path that leaves no block open can begin anew anywhere: what was opened before is closed by
closing words that then stand outside all blocks. -/
theorem anew {at' : Nat} (reaches : Reaches tokens stop pos blocks last []) (from' : pos ≤ at')
    (le : at' ≤ last) : Reaches tokens stop at' [] last [] := by
  generalize none' : ([] : List TokenKind) = rest at reaches
  induction reaches with
  | refl pos =>
    obtain rfl : at' = pos := by omega
    exact .refl _ _
  | @step pos next last blocks blocks' rest first later ih =>
    subst none'
    by_cases here : at' = pos
    · subst here
      exact fresh (.step first later)
    by_cases behind : next ≤ at'
    · exact ih behind le rfl
    -- The position is inside the step, which then is a choice on one line.
    cases first with
    | @line _ inner _ _ oneLine =>
      have before : at' ≤ inner := by
        rcases oneLine.closed with ⟨_, same⟩ | ⟨_, same⟩ <;> omega
      exact (oneLine.reaches (by omega) before).trans later.fresh
    | _ => omega

end Reaches

end

/-!
## Scans find the words that close blocks

On a path that leaves no block open, a scan from inside a block halts at the word that closes it
(`Reaches.found`). Paths lead there and to each divider that the scan has visited, so the part of
the block before each of them is a regular window.
-/

section

variable {tokens : TokenBlock} {stop pos close : Nat} {blocks : List TokenKind}
  {halt : Token → Bool} {accept : TokenKind → Bool}

/-- A divider is a border. -/
theorem border_of_isMarker {token : Token} (stored : tokens[pos]? = some token)
    (marker : isMarker token.kind = true) : Border tokens stop pos := by
  refine .inr ⟨token, stored, ?_⟩
  revert marker
  cases token.kind <;> intro marker <;> first | rfl | cases marker

/-- A closing word is a border. -/
theorem border_of_closesBlock {token : Token} (stored : tokens[pos]? = some token)
    (closes : closesBlock token.kind = true) : Border tokens stop pos := by
  refine .inr ⟨token, stored, ?_⟩
  revert closes
  cases token.kind <;> intro closes <;> first | rfl | cases closes

/-- What a path leads through up to a border is a regular window. -/
theorem Reaches.regular {border : Nat} (reaches : Reaches tokens stop pos [] border [])
    (heads : Heads tokens pos stop) (isBorder : Border tokens stop border) (le : border ≤ stop)
    (inside : stop ≤ tokens.size) : Regular tokens pos border where
  inside := Nat.le_trans le inside
  reaches := reaches.cut heads isBorder (Nat.le_refl _) le
  heads := heads.cut isBorder le

/-- A block that is open below others is closed before a position, and a scan that is inside of it
passes over all of that. -/
def Closes (halt : Token → Bool) (tokens : TokenBlock) (stop last depth : Nat) (kind : TokenKind)
    (outer : List TokenKind) (pos : Nat) (inner : List TokenKind) : Prop :=
  ∃ next, Reaches tokens stop pos (inner ++ [kind]) next [] ∧
    Scans halt tokens stop pos (inner.length + 1 + depth) next depth ∧
    Reaches tokens stop next outer last []

/-- A step whose scan keeps the depth can be put before a stretch that closes. -/
theorem Closes.step {last depth next : Nat} {kind : TokenKind} {outer inner inner' : List TokenKind}
    (first : Step tokens stop pos (inner ++ [kind]) next (inner' ++ [kind]))
    (scans : Scans halt tokens stop pos (inner.length + 1 + depth) next (inner'.length + 1 + depth))
    (closes : Closes halt tokens stop last depth kind outer next inner') :
    Closes halt tokens stop last depth kind outer pos inner := by
  obtain ⟨behind, reached, scansLater, later⟩ := closes
  exact ⟨behind, .step first reached, scans.trans scansLater, later⟩

section

variable (halts : ∀ token : Token, halt token = true → closesBlock token.kind = true)
include halts

/-- A word that opens a block adds a level. -/
theorem scans_opens {token : Token} (inside : pos < stop) (stored : tokens[pos]? = some token)
    (opened : opensBlock tokens pos stop = true) (depth : Nat) :
    Scans halt tokens stop pos depth (pos + 1) (depth + 1) := by
  have other : token.kind ≠ .kwIf ∨ isSingleLineIf tokens pos stop = false := by
    refine Classical.or_iff_not_imp_left.mpr fun isIf => ?_
    have isIf := Classical.not_not.mp isIf
    simpa [opensBlock, stored, isIf] using opened
  have word : closesBlock token.kind = false ∧ isMarker token.kind = false := by
    by_cases isIf : token.kind = .kwIf
    · rw [isIf]
      exact ⟨rfl, rfl⟩
    · rw [opensBlock_eq_isSome stored isIf] at opened
      revert opened
      cases token.kind <;> intro opened <;> first | exact ⟨rfl, rfl⟩ | cases opened
  exact .opens halts inside stored (trailingEndIf_eq_none stored other) opened word.1 word.2

/-- A path that leaves no block open closes each block that is open. -/
theorem Reaches.closing {last : Nat} {inner outer : List TokenKind} {kind : TokenKind}
    (reaches : Reaches tokens stop pos (inner ++ kind :: outer) last []) (depth : Nat) :
    Closes halt tokens stop last depth kind outer pos inner := by
  generalize same : inner ++ kind :: outer = blocks at reaches
  generalize none' : ([] : List TokenKind) = rest at reaches
  induction reaches generalizing inner with
  | refl =>
    subst none'
    simp at same
  | step first later ih =>
    subst none'
    cases first with
    | @pass token _ inside stored passed =>
      have scans : Scans halt tokens stop _ (inner.length + depth + 1) _ (inner.length + depth + 1) :=
        .marker inside stored (inert_of_passed passed)
      rw [show inner.length + depth + 1 = inner.length + 1 + depth by omega] at scans
      exact .step (.pass inside stored passed) scans (ih same rfl)
    | line oneLine => exact .step (.line oneLine) (oneLine.scans halts _) (ih same rfl)
    | @opens token _ inside stored opened =>
      have scans := scans_opens halts inside stored opened (inner.length + 1 + depth)
      have below : token.kind :: inner ++ kind :: outer = token.kind :: _ :=
        congrArg (token.kind :: ·) same
      rw [show inner.length + 1 + depth + 1 = (token.kind :: inner).length + 1 + depth by
        simp only [List.length_cons]; omega] at scans
      exact .step (.opens inside stored opened) scans (ih below rfl)
    | @closes token top _ inside stored closed =>
      have closes := closesBlock_of_closer? closed
      cases inner with
      | nil =>
        cases same
        have scans : Scans halt tokens stop _ (depth + 1) _ depth := .closes inside stored closes
        rw [show depth + 1 = 0 + 1 + depth by omega] at scans
        exact ⟨_, .one (.closes inside stored closed), scans, later⟩
      | cons other inner =>
        cases same
        have scans : Scans halt tokens stop _ (inner.length + 1 + depth + 1) _
          (inner.length + 1 + depth) := .closes inside stored closes
        rw [show inner.length + 1 + depth + 1 = (top :: inner).length + 1 + depth by
          simp only [List.length_cons]; omega] at scans
        exact .step (.closes inside stored closed) scans (ih rfl rfl)
    | stray inside stored closed => simp at same

end

/-- A divider of a block, to which a path leads from inside the block. -/
structure Divider (tokens : TokenBlock) (stop pos marker : Nat) : Prop where
  /-- It stands in the window. -/
  inside : marker < stop
  /-- The word. -/
  word : ∃ token, tokens[marker]? = some token ∧ isMarker token.kind = true
  /-- The path. -/
  reaches : Reaches tokens stop pos [] marker []

/-- What a scan from inside a block finds: the word that closes it, and its dividers. -/
structure Found (closer : TokenKind) (accept : TokenKind → Bool) (tokens : TokenBlock)
    (stop pos close : Nat) (markers : List Nat) : Prop where
  /-- The scan halts at the closing word and has visited the dividers. -/
  halts : Halts (haltsAt closer) accept tokens stop pos close markers
  /-- The closing word. -/
  closer : ∃ token, tokens[close]? = some token ∧ token.kind = closer
  /-- It stands in the window. -/
  inside : close < stop
  /-- A path leads to it. -/
  reaches : Reaches tokens stop pos [] close []
  /-- The dividers. -/
  dividers : ∀ marker ∈ markers, Divider tokens stop pos marker

/-- What leads to the start leads on to the divider. -/
theorem Divider.before {next marker : Nat} (divider : Divider tokens stop next marker)
    (reaches : Reaches tokens stop pos [] next []) : Divider tokens stop pos marker :=
  ⟨divider.inside, divider.word, reaches.trans divider.reaches⟩

namespace Found

variable {closer : TokenKind} {markers : List Nat}

/-- Something in front that a scan passes over. -/
theorem before {next : Nat} (scans : Scans (haltsAt closer) tokens stop pos 0 next 0)
    (accepts : ∀ kind, accept kind = true → isMarker kind = true)
    (reaches : Reaches tokens stop pos [] next [])
    (found : Found closer accept tokens stop next close markers) :
    Found closer accept tokens stop pos close markers where
  halts := .of_scans scans accepts found.halts
  closer := found.closer
  inside := found.inside
  reaches := reaches.trans found.reaches
  dividers marker member := (found.dividers marker member).before reaches

/-- A divider of the block in front. -/
theorem divider {token : Token} (inside : pos < stop) (stored : tokens[pos]? = some token)
    (isDivider : isMarker token.kind = true) (goesOn : haltsAt closer token = false)
    (found : Found closer accept tokens stop (pos + 1) close markers) :
    Found closer accept tokens stop pos close
      (if accept token.kind then pos :: markers else markers) := by
  have passed : Reaches tokens stop pos [] (pos + 1) [] :=
    .one (.pass inside stored (.inr isDivider))
  have later : ∀ marker ∈ markers, Divider tokens stop pos marker :=
    fun marker member => (found.dividers marker member).before passed
  refine ⟨.word inside stored (inert_of_passed (.inr isDivider)) goesOn found.halts, found.closer,
    found.inside, passed.trans found.reaches, ?_⟩
  split
  · exact List.forall_mem_cons.mpr ⟨⟨inside, ⟨token, stored, isDivider⟩, .refl _ _⟩, later⟩
  · exact later

/-- The parts of the block before its dividers and before its closing word are regular windows. -/
theorem regular (found : Found closer accept tokens stop pos close markers)
    (closes : closesBlock closer = true) (heads : Heads tokens pos stop)
    (size : stop ≤ tokens.size) {border : Nat} (isPart : border = close ∨ border ∈ markers) :
    Regular tokens pos border := by
  rcases isPart with rfl | member
  · obtain ⟨token, stored, isCloser⟩ := found.closer
    have isBorder : Border tokens stop border :=
      border_of_closesBlock stored (by rw [isCloser]; exact closes)
    exact found.reaches.regular heads isBorder (Nat.le_of_lt found.inside) size
  · have divider := found.dividers border member
    obtain ⟨token, stored, divides⟩ := divider.word
    exact divider.reaches.regular heads (border_of_isMarker stored divides)
      (Nat.le_of_lt divider.inside) size

end Found

/-- From inside a block, on a path that leaves no block open, a scan finds the word that closes
it. -/
theorem Reaches.found {kind closer : TokenKind} {first : Nat}
    (closes : closer? kind = some closer)
    (accepts : ∀ kind, accept kind = true → isMarker kind = true) (noCloser : accept closer = false)
    (reaches : Reaches tokens stop first [kind] stop []) :
    ∃ close markers, Found closer accept tokens stop first close markers := by
  have halts := closes_of_haltsAt closer (closesBlock_of_closer? closes)
  cases reaches with
  | step step later =>
    have forward := step.lt
    have inside := step.le_stop
    generalize same : [kind] = blocks at step
    cases step with
    | @pass token _ _ stored passed =>
      subst same
      obtain ⟨close, markers, found⟩ := Reaches.found closes accepts noCloser later
      by_cases marker : isMarker token.kind = true
      · have goesOn : haltsAt closer token = false :=
          halt_eq_false halts (closesBlock_eq_false (inert_of_passed passed))
        exact ⟨close, _, found.divider inside stored marker goesOn⟩
      · have inert := inert_of_isPassed (passed.resolve_right marker)
        exact ⟨close, markers, found.before (.one halts inside stored inert) accepts
          (.one (.pass inside stored passed))⟩
    | line oneLine =>
      subst same
      obtain ⟨close, markers, found⟩ := Reaches.found closes accepts noCloser later
      exact ⟨close, markers, found.before (oneLine.scans halts 0) accepts (.one (.line oneLine))⟩
    | @opens token _ _ stored opened =>
      subst same
      -- The block that is opened here is closed again, and the scan goes on behind it.
      obtain ⟨next, closed, scans, behind⟩ := @Reaches.closing tokens stop (first + 1)
        (haltsAt closer) halts stop [] [kind] token.kind later 0
      have := closed.le
      obtain ⟨close, markers, found⟩ := Reaches.found closes accepts noCloser behind
      exact ⟨close, markers, found.before ((scans_opens halts inside stored opened 0).trans scans)
        accepts (.step (.opens inside stored opened) closed)⟩
    | @closes token top _ _ stored closed =>
      cases same
      obtain rfl : closer = token.kind := Option.some.inj (closes.symm.trans closed)
      exact ⟨first, [], .here inside stored (by simp [haltsAt]) noCloser, ⟨token, stored, rfl⟩,
        inside, .refl _ _, nofun⟩
    | stray => cases same
termination_by stop - first

end

end Blocks

end LineScript
