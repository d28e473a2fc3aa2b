import LineScript.Proofs.Blocks.Grammar

/-!
# Words that belong together

The check of blocks and a scan of a window read the same words in different ways: the check keeps a
stack of open blocks and says which word it expects, a scan only counts. Here the check also keeps
a record (`Ledger`) of where the blocks on its stack were opened and of the pairs of words that it
took for the ends of a block. In an accepted run, a scan that begins behind an opening word at the
start of a line halts at the word that the check paired with it (`scan_finds_pair`).
-/

namespace LineScript

namespace Layout

open Structured

variable {halt : Token → Bool} {tokens : Array Token} {stop pos depth : Nat} {skip : Option Nat}
  {token : Token}

/-- Blocks that a scan counts behind a token, where it counted `depth` in front of it. -/
def depthAfter (tokens : Array Token) (stop pos : Nat) (token : Token) (depth : Nat) : Nat :=
  if opensBlock tokens pos stop then depth + 1
  else if closesBlock token.kind then depth - 1
  else depth

/-- The word of a choice on one line opens no block. -/
theorem opensBlock_of_trailing {last : Nat} (trailing : trailingEndIf tokens pos stop = some last) :
    opensBlock tokens pos stop = false := by
  obtain ⟨isIf, single, _⟩ := trailingEndIf_eq_some.mp trailing
  obtain ⟨token, stored, kind⟩ := hasKind_iff.mp isIf
  simp [opensBlock, stored, kind, single]

/-- A token that opens a block leaves no closing word out. -/
theorem trailingEndIf_of_opens (opened : opensBlock tokens pos stop = true) :
    trailingEndIf tokens pos stop = none := by
  cases trailing : trailingEndIf tokens pos stop with
  | none => rfl
  | some last =>
    rw [opensBlock_of_trailing trailing] at opened
    cases opened

/-- A scan ends where its window does. -/
theorem scanFrom_beyond (beyond : ¬ pos < stop) :
    scanFrom halt tokens stop pos depth skip = ⟨[], none⟩ := by
  rw [scanFrom, if_neg beyond]

/-- A scan ends where the tokens do. -/
theorem scanFrom_missing (missing : tokens[pos]? = none) :
    scanFrom halt tokens stop pos depth skip = ⟨[], none⟩ := by
  rw [scanFrom, missing]
  split <;> rfl

/-- One token of a scan that neither halts nor leaves the token out: what it counts behind it, and
what it leaves out from there. -/
theorem scanFrom_advance (inside : pos < stop) (stored : tokens[pos]? = some token)
    (live : skip ≠ some pos) (goesOn : depth = 0 → halt token = false) :
    scanFrom halt tokens stop pos depth skip =
      (scanFrom halt tokens stop (pos + 1) (depthAfter tokens stop pos token depth)
        ((trailingEndIf tokens pos stop).or skip)).after (if depth = 0 then [pos] else []) := by
  rw [scanFrom_eq inside stored live goesOn, depthAfter]
  cases trailing : trailingEndIf tokens pos stop with
  | none =>
    dsimp only [Option.none_or]
    repeat' split
    all_goals rfl
  | some last =>
    have isIf := (trailingEndIf_eq_some.mp trailing).1
    rw [hasKind_eq stored, beq_iff_eq] at isIf
    rw [opensBlock_of_trailing trailing, isIf]
    rfl

/-- What a scan of a window up to a stop can meet. -/
structure Visit.Within (halt : Token → Bool) (tokens : Array Token) (stop : Nat)
    (visit : Visit) : Prop where
  /-- It visits positions of the window. -/
  visited : ∀ at' ∈ visit.visited, at' < stop
  /-- It halts at a position of the window whose token is accepted. -/
  halted : ∀ close, visit.halted = some close → close < stop ∧
    ∃ token, tokens[close]? = some token ∧ halt token = true
  /-- It visits no position behind that one. -/
  last : ∀ close, visit.halted = some close → ∀ at' ∈ visit.visited, at' ≤ close

/-- A scan stays in its window. -/
theorem scanFrom_within (halt : Token → Bool) (tokens : Array Token) (stop pos depth : Nat)
    (skip : Option Nat) : (scanFrom halt tokens stop pos depth skip).Within halt tokens stop := by
  by_cases inside : pos < stop
  · cases stored : tokens[pos]? with
    | none =>
      rw [scanFrom_missing stored]
      exact ⟨nofun, nofun, nofun⟩
    | some token =>
      by_cases left : skip = some pos
      · subst left
        rw [scanFrom_skip inside stored]
        exact scanFrom_within halt tokens stop (pos + 1) depth (some pos)
      by_cases halts : depth = 0 ∧ halt token = true
      · obtain ⟨rfl, halts⟩ := halts
        rw [scanFrom_halt inside stored left halts]
        refine ⟨by simpa using inside, fun close same => ?_, by simp⟩
        cases same
        exact ⟨inside, token, stored, halts⟩
      · have goesOn : depth = 0 → halt token = false := fun outermost =>
          Bool.eq_false_iff.mpr fun accepted => halts ⟨outermost, accepted⟩
        rw [scanFrom_advance inside stored left goesOn]
        generalize depthAfter tokens stop pos token depth = later
        generalize (trailingEndIf tokens pos stop).or skip = passed
        have rest := scanFrom_within halt tokens stop (pos + 1) later passed
        have forward := (le_scanFrom halt tokens stop (pos + 1) later passed).2
        have here : ∀ at' ∈ (if depth = 0 then [pos] else []), at' = pos := by
          intro at' member
          split at member
          · exact List.mem_singleton.mp member
          · cases member
        refine ⟨fun at' member => ?_, rest.halted, fun close is at' member => ?_⟩
        · rcases List.mem_append.mp member with member | member
          · rw [here at' member]
            exact inside
          · exact rest.visited at' member
        · rcases List.mem_append.mp member with member | member
          · rw [here at' member]
            exact Nat.le_of_succ_le (forward close is)
          · exact rest.last close is at' member
  · rw [scanFrom_beyond inside]
    exact ⟨nofun, nofun, nofun⟩
termination_by stop - pos

end Layout

namespace Blocks

open Layout Structure Structured

variable {tokens : TokenBlock} {stop pos last opener depth : Nat} {token : Token}
  {blocks : List OpenBlock} {skip : Option Nat} {effect : Effect} {closer : TokenKind}

/-! ### What is left out -/

/-- What is left out behind a position is the closing word of a choice on one line before it. -/
def Named (tokens : TokenBlock) (stop pos : Nat) (skip : Option Nat) : Prop :=
  ∀ last, pos ≤ last → skip = some last →
    ∃ opener, opener < pos ∧ trailingEndIf tokens opener stop = some last

/-- Behind a position a word is left out exactly if a choice on one line before it ends there. -/
def Leaves (tokens : TokenBlock) (stop pos : Nat) (skip : Option Nat) : Prop :=
  ∀ last, pos ≤ last → (skip = some last ↔
    ∃ opener, opener < pos ∧ trailingEndIf tokens opener stop = some last)

/-- A scan goes on from a word to leave out to the next one. -/
theorem Named.next (named : Named tokens stop pos skip) :
    Named tokens stop (pos + 1) ((trailingEndIf tokens pos stop).or skip) := by
  intro last behind is
  cases trailing : trailingEndIf tokens pos stop with
  | some ending =>
    rw [trailing, Option.some_or] at is
    cases is
    exact ⟨pos, Nat.lt_succ_self pos, trailing⟩
  | none =>
    rw [trailing, Option.none_or] at is
    obtain ⟨opener, before, earlier⟩ := named last (by omega) is
    exact ⟨opener, by omega, earlier⟩

/-- Choices on one line that share the rest of their line leave the same word out. -/
theorem trailingEndIf_shared (isIf : hasKind tokens pos .kwIf = true)
    (single : isSingleLineIf tokens pos stop = true) (le : opener ≤ pos) (before : pos < last)
    (trailing : trailingEndIf tokens opener stop = some last) :
    trailingEndIf tokens pos stop = some last := by
  obtain ⟨_, _, ending, _, closes⟩ := trailingEndIf_eq_some.mp trailing
  have same : statementEnd tokens pos stop = statementEnd tokens opener stop :=
    seek_eq_of_le le (show pos ≤ statementEnd tokens opener stop by omega)
  exact trailingEndIf_eq_some.mpr ⟨isIf, single, same.trans ending, before, closes⟩

/-- A scan takes over the word that a choice on one line leaves out, and keeps its own where the
choice leaves none: then it has none to keep. -/
theorem Leaves.next (leaves : Leaves tokens stop pos skip) :
    Leaves tokens stop (pos + 1) ((trailingEndIf tokens pos stop).or skip) := by
  have named : Named tokens stop pos skip := fun last behind => (leaves last behind).mp
  refine fun last behind => ⟨named.next last behind, ?_⟩
  rintro ⟨opener, before, trailing⟩
  cases here : trailingEndIf tokens pos stop with
  | some ending =>
    obtain ⟨isIf, single, _⟩ := trailingEndIf_eq_some.mp here
    rw [trailingEndIf_shared isIf single (by omega) behind trailing] at here
    cases here
    rfl
  | none =>
    have apart : opener ≠ pos := by
      rintro rfl
      rw [here] at trailing
      cases trailing
    exact (leaves last (by omega)).mpr ⟨opener, by omega, trailing⟩

/-- A token that is no word of a choice changes nothing about what is left out. -/
theorem Leaves.pass (leaves : Leaves tokens stop pos skip) (stored : tokens[pos]? = some token)
    (other : token.kind ≠ .kwIf) : Leaves tokens stop (pos + 1) skip := by
  have next := leaves.next
  rwa [trailingEndIf_eq_none stored (.inl other), Option.none_or] at next

/-- Only a closing word of a choice is left out. -/
theorem Leaves.kind (leaves : Leaves tokens stop pos (some pos))
    (stored : tokens[pos]? = some token) : token.kind = .kwEndIf := by
  obtain ⟨opener, _, trailing⟩ := (leaves pos (Nat.le_refl pos)).mp rfl
  have closes := (trailingEndIf_eq_some.mp trailing).2.2.2.2
  rwa [hasKind_eq stored, beq_iff_eq] at closes

/-- No word but a closing word of a choice is left out. -/
theorem Leaves.live (leaves : Leaves tokens stop pos skip) (stored : tokens[pos]? = some token)
    (other : token.kind ≠ .kwEndIf) : skip ≠ some pos := by
  rintro rfl
  exact other (leaves.kind stored)

/-- The position begins a line. -/
def startsLine (tokens : TokenBlock) (pos : Nat) : Bool :=
  pos == 0 || tokens[pos - 1]?.any Token.endsLine

/-- Choices on earlier lines leave nothing out behind the start of a line. -/
theorem lt_of_startsLine (starts : startsLine tokens pos = true) (before : opener < pos)
    (trailing : trailingEndIf tokens opener stop = some last) : last < pos := by
  obtain ⟨_, _, ending, _, _⟩ := trailingEndIf_eq_some.mp trailing
  refine Nat.lt_of_not_le fun beyond => ?_
  have passed : pos - 1 < seek Token.endsLine tokens opener stop := by
    rw [show seek Token.endsLine tokens opener stop = last + 1 from ending]
    omega
  obtain ⟨other, stored, goesOn⟩ := not_accept_of_lt_seek (by omega) passed
  have notFirst : pos ≠ 0 := by omega
  simp [startsLine, notFirst, stored, goesOn] at starts

/-- A scan begun behind a word that opens a block at the start of a line has nothing to leave
out. -/
theorem leaves_nothing (starts : startsLine tokens pos = true)
    (opened : opensBlock tokens pos stop = true) : Leaves tokens stop (pos + 1) none := by
  refine fun last behind => ⟨nofun, fun ⟨opener, before, trailing⟩ => ?_⟩
  by_cases here : opener = pos
  · subst here
    rw [trailingEndIf_of_opens opened] at trailing
    cases trailing
  · have := lt_of_startsLine starts (by omega) trailing
    omega

/-! ### The check with a record of positions -/

/-- Where blocks begin and end, as far as a check has come. -/
structure Ledger where
  /-- Positions of the words that opened the open blocks, innermost first. -/
  opened : List Nat := []
  /-- Positions of the words that opened and closed a block, the block closed last in front. -/
  pairs : List (Nat × Nat) := []

namespace Ledger

/-- A block is opened at a position. -/
def push (ledger : Ledger) (pos : Nat) : Ledger := { ledger with opened := pos :: ledger.opened }

/-- The innermost block is closed at a position. -/
def pop (ledger : Ledger) (pos : Nat) : Ledger :=
  match ledger.opened with
  | opener :: outer => ⟨outer, (opener, pos) :: ledger.pairs⟩
  | [] => ledger

/-- The token at a position changed the number of open blocks from one number to another. -/
def note (ledger : Ledger) (pos before after : Nat) : Ledger :=
  if before < after then ledger.push pos
  else if after < before then ledger.pop pos
  else ledger

/-- An unchanged height writes nothing down. -/
@[simp] theorem note_same (ledger : Ledger) (pos height : Nat) :
    ledger.note pos height height = ledger := by
  simp [note]

/-- A height raised by one pushes the position. -/
@[simp] theorem note_push (ledger : Ledger) (pos height : Nat) :
    ledger.note pos height (height + 1) = ledger.push pos := by
  simp [note]

/-- A height lowered by one pops the innermost opener. -/
@[simp] theorem note_pop (ledger : Ledger) (pos height : Nat) :
    ledger.note pos (height + 1) height = ledger.pop pos := by
  simp [note, Nat.not_lt.mpr (Nat.le_succ height)]

end Ledger

/-- Checks the tokens from a position on and keeps the record. -/
def pairFrom (tokens : TokenBlock) (pos : Nat) (blocks : List OpenBlock) (skip : Option Nat)
    (ledger : Ledger) : Except Fault Ledger :=
  if inside : pos < tokens.size then
    if skip = some pos then pairFrom tokens (pos + 1) blocks skip ledger
    else
      match step tokens pos tokens[pos] blocks skip with
      | .error fault => .error fault
      | .ok effect =>
        pairFrom tokens (pos + 1 + if effect.takesNext then 1 else 0) effect.blocks effect.skip
          (ledger.note pos blocks.length effect.blocks.length)
  else
    match blocks with
    | [] => .ok ledger
    | block :: _ =>
      .error (.preparing
        (.blockOpen block.opener.name ((closer? block.opener).getD block.opener).name) block.line)
termination_by tokens.size - pos

/-- The pairs of words that the check takes for the ends of a block. -/
def pairs (tokens : TokenBlock) : Except Fault (List (Nat × Nat)) :=
  Ledger.pairs <$> pairFrom tokens 0 [] none {}

/-- The record changes nothing about the check. -/
theorem pairFrom_check (tokens : TokenBlock) (pos : Nat) (blocks : List OpenBlock)
    (skip : Option Nat) (ledger : Ledger) :
    (pairFrom tokens pos blocks skip ledger).map (fun _ => ()) =
      checkFrom tokens pos blocks skip := by
  fun_induction pairFrom tokens pos blocks skip ledger with
  | case1 pos blocks ledger inside ih => rw [checkFrom_skip inside, ih]
  | case2 pos blocks skip ledger inside live fault refused =>
    rw [checkFrom.eq_def, dif_pos inside, if_neg live, refused]
    rfl
  | case3 pos blocks skip ledger inside live effect stepped ih =>
    rw [checkFrom_eq (Array.getElem?_eq_getElem inside) live stepped]
    simpa only [dite_eq_ite] using ih
  | case4 pos skip ledger beyond =>
    rw [checkFrom.eq_def, dif_neg beyond]
    rfl
  | case5 pos skip ledger beyond block outer =>
    rw [checkFrom.eq_def, dif_neg beyond]
    rfl

/-- The pairs are a by-product of the check. -/
theorem pairs_check (tokens : TokenBlock) : (pairs tokens).map (fun _ => ()) = check tokens := by
  rw [check, ← pairFrom_check tokens 0 [] none {}, pairs]
  cases pairFrom tokens 0 [] none {} <;> rfl

/-- What an accepted token does to the open blocks shows in whether it opens or closes a block. -/
theorem Checked.blocks_cases (stored : tokens[pos]? = some token)
    (checked : Checked tokens pos token blocks skip effect) :
    opensBlock tokens pos tokens.size = false ∧ closesBlock token.kind = false ∧
        effect.blocks = blocks ∨
      opensBlock tokens pos tokens.size = true ∧
        effect.blocks = ⟨token.kind, token.line⟩ :: blocks ∨
      opensBlock tokens pos tokens.size = false ∧ closesBlock token.kind = true ∧
        ∃ block, blocks = block :: effect.blocks ∧ closer? block.opener = some token.kind := by
  cases checked with
  | passes passed =>
    have inert := inert_of_passed passed
    exact .inl ⟨opensBlock_eq_false stored inert, closesBlock_eq_false inert, rfl⟩
  | line isIf single =>
    refine .inl ⟨?_, by rw [isIf]; rfl, rfl⟩
    simp [opensBlock, stored, isIf, single]
  | opens opened => exact .inr (.inl ⟨opened, rfl⟩)
  | @closes block _ innermost closed =>
    have closes := closesBlock_of_closer? closed
    have other : token.kind ≠ .kwIf := by
      intro isIf
      rw [isIf] at closes
      cases closes
    refine .inr (.inr ⟨?_, closes, block, innermost, closed⟩)
    rw [opensBlock_eq_isSome stored other, (closer?_of_closes closed).1]
    rfl

/-- A check that keeps the record and accepts the rest of a run leaves out the token, or the token
is accepted and so is what comes behind it. -/
theorem pairFrom_cases {ledger last : Ledger} (inside : pos < tokens.size)
    (paired : pairFrom tokens pos blocks skip ledger = .ok last) :
    skip = some pos ∧ pairFrom tokens (pos + 1) blocks skip ledger = .ok last ∨
      skip ≠ some pos ∧ ∃ token effect, tokens[pos]? = some token ∧
        step tokens pos token blocks skip = .ok effect ∧
        pairFrom tokens (pos + 1 + if effect.takesNext then 1 else 0) effect.blocks effect.skip
          (ledger.note pos blocks.length effect.blocks.length) = .ok last := by
  rw [pairFrom.eq_def, dif_pos inside] at paired
  split at paired
  · rename_i left
    exact .inl ⟨left, paired⟩
  · rename_i live
    split at paired
    · cases paired
    · rename_i effect stepped
      exact .inr ⟨live, tokens[pos], effect, Array.getElem?_eq_getElem inside, stepped, paired⟩

/-- What holds of a record as far as the check has come. -/
structure Ledger.Kept (ledger : Ledger) (pos : Nat) : Prop where
  /-- Open blocks were opened before. -/
  behind : ∀ opener ∈ ledger.opened, opener < pos
  /-- Every open block has its own word. -/
  distinct : ledger.opened.Nodup
  /-- Words of closed blocks stand before and open no block that is still open. -/
  apart : ∀ pair ∈ ledger.pairs, pair.1 < pos ∧ pair.1 ∉ ledger.opened

namespace Ledger.Kept

variable {ledger : Ledger}

/-- A kept ledger stays kept at later positions. -/
theorem mono {later : Nat} (kept : ledger.Kept pos) (le : pos ≤ later) : ledger.Kept later where
  behind opener member := Nat.lt_of_lt_of_le (kept.behind opener member) le
  distinct := kept.distinct
  apart pair member :=
    ⟨Nat.lt_of_lt_of_le (kept.apart pair member).1 le, (kept.apart pair member).2⟩

/-- Pushing a position keeps the ledger for the next one. -/
theorem push (kept : ledger.Kept pos) : (ledger.push pos).Kept (pos + 1) where
  behind opener member := by
    rcases List.mem_cons.mp member with rfl | member
    · exact Nat.lt_succ_self opener
    · exact Nat.lt_succ_of_lt (kept.behind opener member)
  distinct :=
    List.nodup_cons.mpr ⟨fun member => Nat.lt_irrefl pos (kept.behind pos member), kept.distinct⟩
  apart pair member := by
    have ⟨before, closed⟩ := kept.apart pair member
    refine ⟨Nat.lt_succ_of_lt before, fun member => ?_⟩
    rcases List.mem_cons.mp member with here | member
    · omega
    · exact closed member

/-- Popping at a position keeps the ledger for the next one. -/
theorem pop (kept : ledger.Kept pos) : (ledger.pop pos).Kept (pos + 1) := by
  have later := kept.mono (Nat.le_succ pos)
  unfold Ledger.pop
  split
  · rename_i opener outer opened
    have distinct := kept.distinct
    rw [opened, List.nodup_cons] at distinct
    have member {other : Nat} (inner : other ∈ outer) : other ∈ ledger.opened := by
      rw [opened]
      exact List.mem_cons_of_mem _ inner
    refine ⟨fun other inner => later.behind other (member inner), distinct.2, fun pair paired => ?_⟩
    rcases List.mem_cons.mp paired with rfl | paired
    · exact ⟨later.behind opener (by rw [opened]; exact List.mem_cons_self), distinct.1⟩
    · have ⟨before, closed⟩ := later.apart pair paired
      exact ⟨before, fun inner => closed (member inner)⟩
  · exact later

/-- Noting any change of height keeps the ledger for the next position. -/
theorem note (kept : ledger.Kept pos) (before after : Nat) :
    (ledger.note pos before after).Kept (pos + 1) := by
  unfold Ledger.note
  split
  · exact kept.push
  · split
    · exact kept.pop
    · exact kept.mono (Nat.le_succ pos)

end Ledger.Kept

/-- The word behind a clause's goes with it. -/
theorem takesNext_iff (stepped : step tokens pos token blocks skip = .ok effect) :
    effect.takesNext = true ↔ token.kind = .kwCase ∧
      ∃ word, tokens[pos + 1]? = some word ∧ word.kind = .kwElse := by
  rw [(effect_of_step stepped).1, Bool.and_eq_true, beq_iff_eq, hasKind_iff]

/-- The check keeps track of what is left out as a scan does. -/
theorem Leaves.stepped (leaves : Leaves tokens tokens.size pos skip)
    (stored : tokens[pos]? = some token)
    (stepped : step tokens pos token blocks skip = .ok effect) :
    Leaves tokens tokens.size (pos + 1 + if effect.takesNext then 1 else 0) effect.skip := by
  have next : Leaves tokens tokens.size (pos + 1) effect.skip := by
    rw [(effect_of_step stepped).2]
    exact Slot.next leaves stored
  split
  · rename_i takes
    obtain ⟨_, word, storedWord, isElse⟩ := (takesNext_iff stepped).mp takes
    exact next.pass storedWord (by simp [isElse])
  · exact next

/-- The record says nothing new about a block that is closed. -/
theorem Ledger.note_closed {ledger : Ledger} (before : opener < pos)
    (closed : opener ∉ ledger.opened) (height later : Nat) :
    opener ∉ (ledger.note pos height later).opened ∧
      ∀ last, (opener, last) ∈ (ledger.note pos height later).pairs ↔
        (opener, last) ∈ ledger.pairs := by
  unfold Ledger.note Ledger.push Ledger.pop
  split
  · exact ⟨by simp [closed]; omega, fun _ => Iff.rfl⟩
  · split
    · split
      · rename_i other outer opened
        rw [opened, List.mem_cons, not_or] at closed
        exact ⟨closed.2, by simp [closed.1]⟩
      · exact ⟨closed, fun _ => Iff.rfl⟩
    · exact ⟨closed, fun _ => Iff.rfl⟩

/-- A check pairs the word of a closed block with no further word. -/
theorem settled {ledger final : Ledger} (before : opener < pos) (closed : opener ∉ ledger.opened)
    (paired : pairFrom tokens pos blocks skip ledger = .ok final) (last : Nat) :
    (opener, last) ∈ final.pairs ↔ (opener, last) ∈ ledger.pairs := by
  fun_induction pairFrom tokens pos blocks skip ledger with
  | case1 pos blocks ledger inside ih => exact ih (by omega) closed paired
  | case2 => cases paired
  | case3 pos blocks skip ledger inside live effect stepped ih =>
    obtain ⟨stillClosed, same⟩ :=
      Ledger.note_closed before closed blocks.length effect.blocks.length
    exact (ih (by omega) stillClosed paired).trans (same last)
  | case4 =>
    cases paired
    exact Iff.rfl
  | case5 => cases paired

/-- A check comes to every start of a line. -/
theorem arrives {start : Nat} {blocks : List OpenBlock} {skip : Option Nat}
    {ledger final : Ledger} (starts : startsLine tokens pos = true)
    (le : start ≤ pos) (inside : pos < tokens.size) (leaves : Leaves tokens tokens.size start skip)
    (kept : ledger.Kept start) (paired : pairFrom tokens start blocks skip ledger = .ok final) :
    ∃ blocks skip ledger, Leaves tokens tokens.size pos skip ∧ ledger.Kept pos ∧
      pairFrom tokens pos blocks skip ledger = .ok final := by
  by_cases here : start = pos
  · subst here
    exact ⟨blocks, skip, ledger, leaves, kept, paired⟩
  have before : start < pos := by omega
  rcases pairFrom_cases (by omega) paired with
    ⟨left, later⟩ | ⟨_, token, effect, stored, stepped, later⟩
  · subst left
    have stored : tokens[start]? = some tokens[start] := Array.getElem?_eq_getElem (by omega)
    have isCloser := leaves.kind stored
    exact arrives starts before inside (leaves.pass stored (by simp [isCloser]))
      (kept.mono (Nat.le_succ start)) later
  · -- A clause's second word does not begin a line.
    have beyond : start + 1 + (if effect.takesNext then 1 else 0) ≤ pos := by
      split
      · rename_i takes
        have apart : start + 1 ≠ pos := by
          rintro rfl
          have isCase := ((takesNext_iff stepped).mp takes).1
          simp [startsLine, stored, Token.endsLine, isCase] at starts
        omega
      · omega
    exact arrives starts beyond inside (leaves.stepped stored stepped)
      ((kept.note _ _).mono (by omega)) later
termination_by pos - start

/-- A check and a scan inside a block: they stand at the same token, and the block is the one that
the scan would leave next. -/
structure Inside (opener : Nat) (closer : TokenKind) (pos depth : Nat) (blocks : List OpenBlock)
    (ledger : Ledger) : Prop where
  /-- The record is sound. -/
  kept : ledger.Kept pos
  /-- The block was opened at `opener`, and `depth` blocks are open in it. -/
  entry : ledger.opened[depth]? = some opener
  /-- The word that closes it. -/
  block : ∃ block, blocks[depth]? = some block ∧ closer? block.opener = some closer

variable {ledger : Ledger}

/-- A token that does not close the block leaves check and scan inside it. -/
theorem Inside.next (inner : Inside opener closer pos depth blocks ledger)
    (stored : tokens[pos]? = some token)
    (stepped : step tokens pos token blocks skip = .ok effect)
    (stays : depth = 0 → closesBlock token.kind = false) :
    Inside opener closer (pos + 1) (depthAfter tokens tokens.size pos token depth) effect.blocks
      (ledger.note pos blocks.length effect.blocks.length) := by
  obtain ⟨kept, entry, block, isBlock, closes⟩ := inner
  have behind := kept.note blocks.length effect.blocks.length
  rcases (checked_of_step stored stepped).1.blocks_cases stored with
    ⟨opens, closesNone, same⟩ | ⟨opens, pushed⟩ | ⟨opens, closesOne, top, popped, _⟩
  · rw [depthAfter, opens, closesNone]
    refine ⟨behind, ?_, block, by rw [same]; exact isBlock, closes⟩
    rw [same, Ledger.note_same]
    exact entry
  · rw [depthAfter, opens]
    refine ⟨behind, ?_, block, by rw [pushed]; exact isBlock, closes⟩
    rw [pushed, List.length_cons, Ledger.note_push]
    exact entry
  · cases depth with
    | zero =>
      rw [stays rfl] at closesOne
      cases closesOne
    | succ depth =>
      rw [depthAfter, opens, closesOne]
      refine ⟨behind, ?_, block, by rw [popped] at isBlock; exact isBlock, closes⟩
      rw [popped, List.length_cons, Ledger.note_pop, Ledger.pop]
      cases opened : ledger.opened with
      | nil => simp [opened] at entry
      | cons other outer => simpa [opened] using entry

/-- A word that closes the block is the expected one, and the check pairs it with the block's. -/
theorem Inside.closed {final : Ledger} (inner : Inside opener closer pos 0 blocks ledger)
    (stored : tokens[pos]? = some token)
    (stepped : step tokens pos token blocks skip = .ok effect)
    (closes : closesBlock token.kind = true)
    (later : pairFrom tokens (pos + 1 + if effect.takesNext then 1 else 0) effect.blocks effect.skip
      (ledger.note pos blocks.length effect.blocks.length) = .ok final) :
    token.kind = closer ∧ ∀ last, (opener, last) ∈ final.pairs ↔ last = pos := by
  obtain ⟨kept, entry, block, isBlock, closesOpener⟩ := inner
  rcases (checked_of_step stored stepped).1.blocks_cases stored with
    ⟨_, closesNone, _⟩ | ⟨opens, _⟩ | ⟨_, _, top, popped, closesTop⟩
  · rw [closesNone] at closes
    cases closes
  · rw [not_opens_of_closes stored closes] at opens
    cases opens
  · cases opened : ledger.opened with
    | nil => simp [opened] at entry
    | cons other outer =>
      obtain rfl : other = opener := by simpa [opened] using entry
      obtain rfl : top = block := by simpa [popped] using isBlock
      have member : other ∈ ledger.opened := by
        rw [opened]
        exact List.mem_cons_self
      have distinct := kept.distinct
      rw [opened, List.nodup_cons] at distinct
      have noted : ledger.note pos blocks.length effect.blocks.length =
          ⟨outer, (other, pos) :: ledger.pairs⟩ := by
        rw [popped, List.length_cons, Ledger.note_pop, Ledger.pop, opened]
      rw [noted] at later
      have before := kept.behind other member
      refine ⟨Option.some.inj (closesTop.symm.trans closesOpener), fun last => ?_⟩
      rw [settled (by omega) distinct.1 later, List.mem_cons, Prod.mk.injEq]
      have unpaired : (other, last) ∉ ledger.pairs := fun paired =>
        (kept.apart _ paired).2 member
      simp [unpaired]

/-- A token that changes no blocks leaves check and scan where they are. -/
theorem Inside.mono {later : Nat} (inner : Inside opener closer pos depth blocks ledger)
    (le : pos ≤ later) : Inside opener closer later depth blocks ledger :=
  ⟨inner.kept.mono le, inner.entry, inner.block⟩

/-- What check and scan leave out is the same. -/
theorem Leaves.agree {other : Option Nat} (leaves : Leaves tokens stop pos skip)
    (leaves' : Leaves tokens stop pos other) : skip = some pos ↔ other = some pos :=
  (leaves pos (Nat.le_refl pos)).trans (leaves' pos (Nat.le_refl pos)).symm

/-- Inside a block of an accepted run, a scan that leaves out what the check does halts at the word
that the check pairs with the block's. -/
theorem Inside.meets {pos depth : Nat} {blocks : List OpenBlock} {skip passed : Option Nat}
    {ledger final : Ledger} (inner : Inside opener closer pos depth blocks ledger)
    (closes : closesBlock closer = true)
    (leaves : Leaves tokens tokens.size pos skip) (leaves' : Leaves tokens tokens.size pos passed)
    (paired : pairFrom tokens pos blocks skip ledger = .ok final) :
    ∃ close, (scanFrom (haltsAt closer) tokens tokens.size pos depth passed).halted = some close ∧
      ∀ last, (opener, last) ∈ final.pairs ↔ last = close := by
  by_cases beyond : tokens.size ≤ pos
  · obtain ⟨block, isBlock, _⟩ := inner.block
    rw [pairFrom.eq_def, dif_neg (by omega)] at paired
    cases blocks with
    | nil => simp at isBlock
    | cons => cases paired
  have inside : pos < tokens.size := by omega
  rcases pairFrom_cases inside paired with
    ⟨left, later⟩ | ⟨live, token, effect, stored, stepped, later⟩
  · have left' := (leaves.agree leaves').mp left
    subst left left'
    have stored : tokens[pos]? = some tokens[pos] := Array.getElem?_eq_getElem inside
    have isCloser := leaves.kind stored
    have other : tokens[pos].kind ≠ .kwIf := by simp [isCloser]
    rw [scanFrom_skip inside stored]
    exact (inner.mono (Nat.le_succ pos)).meets closes (leaves.pass stored other)
      (leaves'.pass stored other) later
  have live' : passed ≠ some pos := fun left => live ((leaves.agree leaves').mpr left)
  by_cases ends : depth = 0 ∧ closesBlock token.kind = true
  · obtain ⟨rfl, closesHere⟩ := ends
    obtain ⟨isCloser, pairs⟩ := inner.closed stored stepped closesHere later
    exact ⟨pos, by rw [scanFrom_halt inside stored live' (by simp [haltsAt, isCloser])], pairs⟩
  have stays : depth = 0 → closesBlock token.kind = false := fun outermost =>
    Bool.eq_false_iff.mpr fun closesHere => ends ⟨outermost, closesHere⟩
  have halts := closes_of_haltsAt closer closes
  rw [scanFrom_advance inside stored live' fun outermost => halt_eq_false halts (stays outermost)]
  have next := inner.next stored stepped stays
  have leavesNext := leaves.stepped stored stepped
  cases takes : effect.takesNext with
  | false =>
    rw [takes] at later leavesNext
    exact next.meets closes leavesNext leaves'.next later
  | true =>
    -- The check takes a clause's second word with the first; the scan passes over it.
    rw [takes] at later leavesNext
    obtain ⟨_, word, storedWord, isElse⟩ := (takesNext_iff stepped).mp takes
    have inert : isInert word.kind = true := by rw [isElse]; rfl
    have behind := (Array.getElem?_eq_some_iff.mp storedWord).1
    have liveWord := leaves'.next.live storedWord (by simp [isElse])
    have passedWord := leaves'.next.pass storedWord (by simp [isElse])
    rw [scanFrom_inert behind storedWord liveWord inert fun _ =>
      halt_eq_false halts (closesBlock_eq_false inert)]
    exact (next.mono (Nat.le_succ _)).meets closes leavesNext passedWord later
termination_by tokens.size - pos

/-- A token that opens a block is a word that some word closes. -/
theorem closer_of_opens (opened : opensBlock tokens pos stop = true) :
    ∃ token closer, tokens[pos]? = some token ∧ closer? token.kind = some closer := by
  cases stored : tokens[pos]? with
  | none => simp [opensBlock, stored] at opened
  | some token =>
    cases kind : token.kind <;> simp [opensBlock, stored, kind] at opened <;>
      exact ⟨token, _, rfl, by rw [kind]; rfl⟩

/-- Behind a word that opens a block, check and scan are inside the block. -/
theorem Inside.entered (kept : ledger.Kept pos) (stored : tokens[pos]? = some token)
    (closes : closer? token.kind = some closer) (opens : opensBlock tokens pos tokens.size = true)
    (stepped : step tokens pos token blocks skip = .ok effect) :
    Inside pos closer (pos + 1) 0 effect.blocks
      (ledger.note pos blocks.length effect.blocks.length) := by
  have pushed : effect.blocks = ⟨token.kind, token.line⟩ :: blocks := by
    rcases (checked_of_step stored stepped).1.blocks_cases stored with
      ⟨none, _⟩ | ⟨_, pushed⟩ | ⟨none, _⟩
    · rw [opens] at none
      cases none
    · exact pushed
    · rw [opens] at none
      cases none
  refine ⟨kept.note _ _, ?_, ⟨token.kind, token.line⟩, by rw [pushed]; rfl, closes⟩
  rw [pushed, List.length_cons, Ledger.note_push]
  rfl

/-- An accepted check can keep the record. -/
theorem pairFrom_of_check (accepted : checkFrom tokens pos blocks skip = .ok ()) (ledger : Ledger) :
    ∃ final, pairFrom tokens pos blocks skip ledger = .ok final := by
  have same := pairFrom_check tokens pos blocks skip ledger
  rw [accepted] at same
  cases paired : pairFrom tokens pos blocks skip ledger with
  | error fault =>
    rw [paired] at same
    cases same
  | ok final => exact ⟨final, rfl⟩

/-- The pairs are a by-product of the check. In an accepted run, a scan that begins behind a word that
opens a block at the start of a line halts at the word that the check paired with it. -/
theorem scan_finds_pair (accepted : check tokens = .ok ()) (starts : startsLine tokens pos = true)
    (opens : opensBlock tokens pos tokens.size = true) :
    (pairs tokens).map (fun _ => ()) = check tokens ∧
    ∃ token closer paired close, tokens[pos]? = some token ∧ closer? token.kind = some closer ∧
      pairs tokens = .ok paired ∧
      (scanOutermost tokens (pos + 1) tokens.size (haltsAt closer)).halted = some close ∧
      ∀ last, (pos, last) ∈ paired ↔ last = close := by
  obtain ⟨token, closer, stored, closes⟩ := closer_of_opens opens
  have inside := (Array.getElem?_eq_some_iff.mp stored).1
  obtain ⟨final, paired⟩ := pairFrom_of_check accepted {}
  have nothing : Leaves tokens tokens.size 0 none := fun _ _ =>
    ⟨nofun, fun ⟨_, before, _⟩ => nomatch before⟩
  have empty : Ledger.Kept {} 0 := ⟨by simp, List.nodup_nil, by simp⟩
  obtain ⟨blocks, skip, ledger, leaves, kept, later⟩ :=
    arrives starts (Nat.zero_le pos) inside nothing empty paired
  have live : skip ≠ some pos := leaves.live stored fun isCloser => by
    rw [isCloser] at closes
    cases closes
  rcases pairFrom_cases inside later with ⟨left, _⟩ | ⟨_, _, effect, stored', stepped, later⟩
  · exact absurd left live
  cases stored.symm.trans stored'
  have single : effect.takesNext = false := Bool.eq_false_iff.mpr fun takes => by
    rw [((takesNext_iff stepped).mp takes).1] at closes
    cases closes
  have leavesNext := leaves.stepped stored stepped
  rw [single] at later leavesNext
  obtain ⟨close, halted, only⟩ := (Inside.entered kept stored closes opens stepped).meets
    (closesBlock_of_closer? closes) leavesNext (leaves_nothing starts opens) later
  exact ⟨pairs_check tokens, token, closer, final.pairs, close, stored, closes,
    by rw [pairs, paired]; rfl, halted, only⟩

/-- A loop around a choice on one line, whose closing word pairs with nothing, and a choice over
several lines. -/
theorem scan_finds_pair_nested : ∃ tokens : List Token,
    tokenize "While True\nIf True Then $x = 1 EndIf\nIf False Then\nEndIf\nWEnd\n" = .ok tokens ∧
      check tokens.toArray = .ok () ∧ startsLine tokens.toArray 0 = true ∧
      opensBlock tokens.toArray 0 tokens.toArray.size = true ∧
      ∃ token closer paired close, tokens.toArray[0]? = some token ∧
        closer? token.kind = some closer ∧ pairs tokens.toArray = .ok paired ∧
        (scanOutermost tokens.toArray 1 tokens.toArray.size (haltsAt closer)).halted = some close ∧
        ∀ last, (0, last) ∈ paired ↔ last = close := by
  have tried : ((tokenize
      "While True\nIf True Then $x = 1 EndIf\nIf False Then\nEndIf\nWEnd\n").toOption.any
        fun tokens => (check tokens.toArray).isOk && startsLine tokens.toArray 0 &&
          opensBlock tokens.toArray 0 tokens.toArray.size) = true := by decide +kernel
  obtain ⟨tokens, read, facts⟩ := Option.any_eq_true _ _ |>.mp tried
  simp only [Bool.and_eq_true] at facts
  obtain ⟨⟨isOk, starts⟩, opens⟩ := facts
  have accepted : check tokens.toArray = .ok () := by
    cases checked : check tokens.toArray with
    | error fault =>
      rw [checked] at isOk
      cases isOk
    | ok => rfl
  exact ⟨tokens, eq_ok_of_toOption read, accepted, starts, opens,
    (scan_finds_pair accepted starts opens).2⟩

end Blocks

end LineScript
