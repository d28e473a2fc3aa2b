import LineScript.Interpreter.Run
import LineScript.Proofs.Blocks.Pairing
import LineScript.Proofs.Lists

/-!
# Choices on one line and the blocks around them

The parts of a block are found by a scan that begins behind its opening word. A choice on one line
is no block to such a scan: a word behind its condition that divides or closes a block is taken for
a word of the block around it, unless the line itself has opened a block for it. The check of blocks
accepts such words. Where every word of this kind on the line belongs to a block that is opened
behind the condition (`isContained`), no scan for an outer block reports a word of the line, and no
branch or clause of an outer block begins or ends in the body of the choice
(`contained_line_keeps_parts`).
-/

namespace LineScript

namespace Layout

/-- A statement ends on its line. -/
theorem statementEnd_le_lineEnd (tokens : Array Token) (pos stop : Nat) :
    statementEnd tokens pos stop ≤ lineEnd tokens pos stop :=
  seek_le_seek (fun token isEol => by simp [Token.endsLine, eq_of_beq isEol]) tokens pos stop

end Layout

namespace Blocks

open Layout Structure Structured

variable {tokens : TokenBlock} {stop pos first last depth found : Nat} {token : Token}
  {skip : Option Nat} {halt : Token → Bool}

/-- The word at a position is the closing word of a choice on one line. -/
def isLeftOut (tokens : TokenBlock) (stop pos : Nat) : Bool :=
  (List.range pos).any fun opener => trailingEndIf tokens opener stop == some pos

/-- The word at a position closes a block. -/
def closesAt (tokens : TokenBlock) (stop pos : Nat) : Bool :=
  tokens[pos]?.any (fun token => closesBlock token.kind) && !isLeftOut tokens stop pos

/-- The word at a position divides a block. -/
def dividesAt (tokens : TokenBlock) (pos : Nat) : Bool :=
  tokens[pos]?.any fun token => isMarker token.kind

/-- How many blocks are opened from one position up to another. -/
def openedIn (tokens : TokenBlock) (stop first last : Nat) : Nat :=
  (List.range' first (last - first)).countP fun pos => opensBlock tokens pos stop

/-- How many blocks are closed from one position up to another. -/
def closedIn (tokens : TokenBlock) (stop first last : Nat) : Nat :=
  (List.range' first (last - first)).countP fun pos => closesAt tokens stop pos

/-- Every word from one position up to another that divides or closes a block stands in a block that
was opened there. -/
def isContained (tokens : TokenBlock) (stop first last : Nat) : Bool :=
  (List.range' first (last - first)).all fun pos =>
    !(dividesAt tokens pos || closesAt tokens stop pos) ||
      closedIn tokens stop first pos < openedIn tokens stop first pos

/-- A scan reports no word from one position up to another: it visits no divider there and does not
halt there. -/
structure Apart (tokens : TokenBlock) (first last : Nat) (visit : Visit) : Prop where
  /-- No divider is visited. -/
  undivided : ∀ pos ∈ visit.visited, first ≤ pos → pos < last → dividesAt tokens pos = false
  /-- The scan does not halt there. -/
  unclosed : ∀ pos, visit.halted = some pos → pos < first ∨ last ≤ pos

/-- Away from what is left out, a position closes a block exactly when its token's kind does. -/
theorem closesAt_eq (stored : tokens[pos]? = some token)
    (live : isLeftOut tokens stop pos = false) :
    closesAt tokens stop pos = closesBlock token.kind := by
  simp [closesAt, stored, live]

/-- A stored position divides a block exactly when its token's kind is a marker. -/
theorem dividesAt_eq (stored : tokens[pos]? = some token) :
    dividesAt tokens pos = isMarker token.kind := by
  simp [dividesAt, stored]

/-- One more position adds one opener when it opens a block. -/
theorem openedIn_succ (tokens : TokenBlock) (stop : Nat) (le : first ≤ pos) :
    openedIn tokens stop first (pos + 1) =
    openedIn tokens stop first pos + if opensBlock tokens pos stop then 1 else 0 :=
  countP_range'_succ le

/-- One more position adds one closer when it closes a block. -/
theorem closedIn_succ (tokens : TokenBlock) (stop : Nat) (le : first ≤ pos) :
    closedIn tokens stop first (pos + 1) =
    closedIn tokens stop first pos + if closesAt tokens stop pos then 1 else 0 :=
  countP_range'_succ le

/-- A word that divides or closes a block stands in one that was opened before it. -/
theorem lt_of_isContained (contained : isContained tokens stop first last = true) (le : first ≤ pos)
    (before : pos < last) (word : dividesAt tokens pos = true ∨ closesAt tokens stop pos = true) :
    closedIn tokens stop first pos < openedIn tokens stop first pos := by
  have here := List.all_eq_true.mp contained pos (List.mem_range'_1.mpr ⟨le, by omega⟩)
  rcases word with word | word <;> simpa [word] using here

/-- A word is left out by a scan exactly if it is the closing word of a choice on one line. -/
theorem Leaves.isLeftOut_iff (leaves : Leaves tokens stop pos skip) :
    isLeftOut tokens stop pos = true ↔ skip = some pos := by
  rw [leaves pos (Nat.le_refl pos), isLeftOut, List.any_eq_true]
  simp

/-- A word that is left out changes nothing about what is left out. -/
theorem Leaves.left (leaves : Leaves tokens stop pos (some pos)) :
    Leaves tokens stop (pos + 1) (some pos) := by
  obtain ⟨_, _, named⟩ := (leaves pos (Nat.le_refl pos)).mp rfl
  obtain ⟨token, stored, isCloser⟩ := hasKind_iff.mp (trailingEndIf_eq_some.mp named).2.2.2.2
  exact leaves.pass stored (by simp [isCloser])

namespace Apart

variable {visit : Visit}

/-- What a scan has visited before it comes to the words in question, or among them, but for
dividers, is none of the words it reports. -/
theorem after {visited : List Nat}
    (passed : ∀ pos ∈ visited, pos < first ∨ dividesAt tokens pos = false)
    (apart : Apart tokens first last visit) : Apart tokens first last (visit.after visited) where
  undivided pos member from' before := by
    rcases List.mem_append.mp member with member | member
    · rcases passed pos member with inFront | undivided
      · omega
      · exact undivided
    · exact apart.undivided pos member from' before
  unclosed := apart.unclosed

/-- A scan that ends at once reports nothing. -/
theorem nothing : Apart tokens first last ⟨[], none⟩ := ⟨nofun, nofun⟩

/-- A scan that comes to the words in question from the front reports none of them if it reports
none from there. `Keeps` is what is known about what is left out. -/
theorem ahead (Keeps : Nat → Option Nat → Prop)
    (next : ∀ pos skip, Keeps pos skip → Keeps (pos + 1) ((trailingEndIf tokens pos stop).or skip))
    (left : ∀ pos, Keeps pos (some pos) → Keeps (pos + 1) (some pos)) (middle : Nat) {pos : Nat}
    {skip : Option Nat} (inFront : middle ≤ first)
    (rest : ∀ depth skip, Keeps middle skip →
      Apart tokens first last (scanFrom halt tokens stop middle depth skip))
    (le : pos ≤ middle) (depth : Nat) (keeps : Keeps pos skip) :
    Apart tokens first last (scanFrom halt tokens stop pos depth skip) := by
  by_cases here : pos = middle
  · subst here
    exact rest depth skip keeps
  by_cases inside : pos < stop
  · cases stored : tokens[pos]? with
    | none =>
      rw [scanFrom_missing stored]
      exact nothing
    | some token =>
      by_cases live : skip = some pos
      · subst live
        rw [scanFrom_skip inside stored]
        exact ahead Keeps next left middle inFront rest (by omega) depth (left pos keeps)
      · by_cases halts : depth = 0 ∧ halt token = true
        · obtain ⟨rfl, halts⟩ := halts
          rw [scanFrom_halt inside stored live halts]
          refine ⟨fun at' member from' => ?_, fun at' same => ?_⟩
          · have := List.mem_singleton.mp member
            omega
          · cases same
            omega
        · have goesOn : depth = 0 → halt token = false := fun outermost =>
            Bool.eq_false_iff.mpr fun accepted => halts ⟨outermost, accepted⟩
          rw [scanFrom_advance inside stored live goesOn]
          refine after (fun at' member => .inl ?_)
            (ahead Keeps next left middle inFront rest (by omega) _ (next pos skip keeps))
          split at member
          · have := List.mem_singleton.mp member
            omega
          · cases member
  · rw [scanFrom_beyond inside]
    exact nothing
termination_by middle - pos

/-- A scan reports nothing before the end of contained words, as long as it counts at least the
blocks that are opened among them and not closed yet. -/
theorem contained {pos depth : Nat} {skip : Option Nat}
    (contained' : isContained tokens stop first last = true)
    (halts : ∀ token : Token, halt token = true → closesBlock token.kind = true)
    (from' : first ≤ pos) (leaves : Leaves tokens stop pos skip)
    (level : openedIn tokens stop first pos ≤ depth + closedIn tokens stop first pos) :
    Apart tokens first last (scanFrom halt tokens stop pos depth skip) := by
  by_cases beyond : last ≤ pos
  · have later := le_scanFrom halt tokens stop pos depth skip
    refine ⟨fun at' member _ before => ?_, fun at' same => .inr ?_⟩
    · have := later.1 at' member
      omega
    · exact Nat.le_trans beyond (later.2 at' same)
  by_cases inside : pos < stop
  · cases stored : tokens[pos]? with
    | none =>
      rw [scanFrom_missing stored]
      exact nothing
    | some token =>
      have opened := openedIn_succ tokens stop from'
      have closed := closedIn_succ tokens stop from'
      by_cases live : skip = some pos
      · subst live
        have isCloser := leaves.kind stored
        have opensNone : opensBlock tokens pos stop = false :=
          not_opens_of_closes stored (by rw [isCloser]; rfl)
        have closesNone : closesAt tokens stop pos = false := by
          rw [closesAt, leaves.isLeftOut_iff.mpr rfl, Bool.not_true, Bool.and_false]
        rw [opensNone] at opened
        rw [closesNone] at closed
        rw [scanFrom_skip inside stored]
        exact contained contained' halts (by omega) leaves.left
          (by rw [opened, closed]; exact level)
      · have kept : isLeftOut tokens stop pos = false :=
          Bool.eq_false_iff.mpr fun left => live (leaves.isLeftOut_iff.mp left)
        have closes := closesAt_eq stored kept
        have deep (word : dividesAt tokens pos = true ∨ closesAt tokens stop pos = true) :
            depth ≠ 0 := by
          have := lt_of_isContained contained' from' (by omega) word
          omega
        have goesOn : depth = 0 → halt token = false := fun outermost =>
          Bool.eq_false_iff.mpr fun accepted =>
            deep (.inr (closes.trans (halts token accepted))) outermost
        rw [scanFrom_advance inside stored live goesOn]
        refine after (fun at' member => .inr ?_)
          (contained contained' halts (by omega) leaves.next ?_)
        · split at member
          · rename_i outermost
            rw [List.mem_singleton.mp member]
            exact Bool.eq_false_iff.mpr fun divides => deep (.inl divides) outermost
          · cases member
        · rw [opened, closed, closes, depthAfter]
          repeat' split
          all_goals omega
  · rw [scanFrom_beyond inside]
    exact nothing
termination_by stop - pos

end Apart

/-- Behind a choice on one line a scan leaves out what the choice ends with, wherever the scan
began. -/
theorem Named.leaves (named : Named tokens stop pos skip) (isIf : hasKind tokens pos .kwIf = true)
    (single : isSingleLineIf tokens pos stop = true) :
    Leaves tokens stop (pos + 1) ((trailingEndIf tokens pos stop).or skip) := by
  refine fun last behind => ⟨named.next last behind, ?_⟩
  rintro ⟨opener, before, trailing⟩
  rw [trailingEndIf_shared isIf single (by omega) behind trailing]
  rfl

section

variable (isIf : hasKind tokens pos .kwIf = true) (single : isSingleLineIf tokens pos stop = true)
  (ends : findThen tokens pos stop = some found)
  (contained : isContained tokens stop (found + 1) (lineEnd tokens (found + 1) stop) = true)
include isIf single ends contained

/-- No scan that begins in front of a choice on one line reports a contained word of its line. -/
theorem line_apart (halts : ∀ token : Token, halt token = true → closesBlock token.kind = true)
    {start : Nat} (le : start ≤ pos) : Apart tokens (found + 1) (lineEnd tokens (found + 1) stop)
      (scanOutermost tokens start stop halt) := by
  obtain ⟨token, stored, kind⟩ := hasKind_iff.mp isIf
  have order := lt_of_findThen ends
  have inside := (findThen_eq_some.mp ends).2.1
  have nothing : Named tokens stop start none := fun _ _ => nofun
  refine Apart.ahead (Named tokens stop) (fun _ _ named => named.next)
    (fun at' _ last behind is => by cases is; omega) pos (by omega)
    (fun depth skip named => ?_) le 0 nothing
  have live : skip ≠ some pos := by
    rintro rfl
    obtain ⟨opener, _, trailing⟩ := named pos (Nat.le_refl pos) rfl
    have isCloser := (trailingEndIf_eq_some.mp trailing).2.2.2.2
    rw [hasKind_eq stored, kind] at isCloser
    cases isCloser
  have goesOn : depth = 0 → halt token = false := fun _ =>
    halt_eq_false halts (by rw [kind]; rfl)
  rw [scanFrom_advance (by omega) stored live goesOn]
  refine Apart.after (fun at' member => .inl ?_)
    (Apart.ahead (Leaves tokens stop) (fun _ _ leaves => leaves.next)
      (fun _ leaves => leaves.left) (found + 1) (Nat.le_refl _)
      (fun depth skip leaves => ?_) (by omega) _ (named.leaves isIf single))
  · split at member
    · have := List.mem_singleton.mp member
      omega
    · cases member
  · refine Apart.contained contained halts (Nat.le_refl _) leaves ?_
    rw [openedIn, Nat.sub_self]
    exact Nat.zero_le _

end

/-- A window neither begins nor ends inside a range of positions. -/
structure Spares (first last : Nat) (part : Window) : Prop where
  /-- It begins in front of the range or behind it. -/
  start : part.start ≤ first ∨ last ≤ part.start
  /-- It ends in front of the range or behind it. -/
  stop : part.stop < first ∨ last ≤ part.stop

/-- A token stands at the position, and the position is outside the range. -/
def Outside (tokens : TokenBlock) (first last border : Nat) : Prop :=
  tokens[border]?.isSome = true ∧ (border < first ∨ last ≤ border)

/-- What is outside a range is outside a shorter one. -/
theorem Outside.mono {border shorter : Nat} (outside : Outside tokens first last border)
    (le : shorter ≤ last) : Outside tokens first shorter border :=
  ⟨outside.1, outside.2.imp_right (Nat.le_trans le)⟩

/-- A part that ends at a word outside the range spares it if it begins outside. -/
theorem spares_slice {start border : Nat} (from' : start ≤ first ∨ last ≤ start)
    (outside : Outside tokens first last border) :
    Spares first last (.slice tokens start border) := by
  obtain ⟨token, stored⟩ := Option.isSome_iff_exists.mp outside.1
  have inside := (Array.getElem?_eq_some_iff.mp stored).1
  refine ⟨from', ?_⟩
  rw [show (Window.slice tokens start border).stop = border from Nat.min_eq_left (by omega)]
  exact outside.2

/-- A scan halts at a token. -/
theorem stored_halted {pos depth : Nat} {skip : Option Nat} {close : Nat}
    (halted : (scanFrom halt tokens stop pos depth skip).halted = some close) :
    tokens[close]?.isSome = true := by
  obtain ⟨_, token, stored, _⟩ := (scanFrom_within ..).halted close halted
  rw [stored]
  rfl

/-- A condition that begins in front of a word that ends conditions ends there at the latest. -/
theorem findThen_le {marker other : Nat} (isThen : hasKind tokens found .kwThen = true)
    (before : marker < found) (ends : findThen tokens marker stop = some other) :
    other ≤ found := by
  refine Nat.le_of_not_lt fun beyond => ?_
  have passed : found < seek endsHead tokens (marker + 1) stop := by
    rw [(findThen_eq_some.mp ends).1]
    exact beyond
  obtain ⟨token, stored, goesOn⟩ := not_accept_of_lt_seek (by omega) passed
  rw [hasKind_eq stored] at isThen
  simp [endsHead, isThen] at goesOn

section

variable {window : Window} {close : Nat}

/-- The branches of a choice begin behind a condition or a divider, and end at a divider or at the
closing word. -/
theorem split_spares {condition : Option Window} {start : Nat} {markers : List Nat}
    {branches : List Branch} (isThen : hasKind window.tokens found .kwThen = true)
    (made : Branch.split window close condition start markers = .ok branches)
    (from' : start ≤ found + 1 ∨ last ≤ start)
    (dividers : ∀ marker ∈ markers, Outside window.tokens (found + 1) last marker)
    (closer : Outside window.tokens (found + 1) last close) :
    ∀ branch ∈ branches, Spares (found + 1) last branch.body := by
  induction markers generalizing condition start branches with
  | nil =>
    cases made
    exact List.forall_mem_singleton.mpr (spares_slice from' closer)
  | cons marker markers ih =>
    have outside := dividers marker List.mem_cons_self
    have head := spares_slice from' outside
    have later := fun other inside => dividers other (List.mem_cons_of_mem _ inside)
    simp only [Branch.split] at made
    split at made
    · cases made
      exact List.forall_mem_singleton.mpr head
    · rename_i token stored
      split at made
      · rename_i isElseIf
        split at made
        · rename_i other ends
          obtain ⟨others, madeOthers, same⟩ := bind_eq_ok.mp made
          cases same
          have order := lt_of_findThen ends
          have apart : marker ≠ found := by
            rintro rfl
            rw [hasKind_eq stored, isElseIf] at isThen
            cases isThen
          refine List.forall_mem_cons.mpr ⟨head, ih madeOthers ?_ later⟩
          rcases outside.2 with inFront | behind
          · have := findThen_le isThen (by omega) ends
            omega
          · omega
        · cases made
      · obtain ⟨others, madeOthers, same⟩ := bind_eq_ok.mp made
        cases same
        have := outside.2
        exact List.forall_mem_cons.mpr ⟨head, ih madeOthers (by omega) later⟩

/-- The head of a clause ends at a line end: in front of the body of a choice on one line, or behind
the statement. -/
theorem headerEnd_spares {marker : Nat} (isThen : hasKind tokens found .kwThen = true)
    (isCase : hasKind tokens marker .kwCase = true)
    (outside : marker < found + 1 ∨ lineEnd tokens (found + 1) stop ≤ marker)
    (closer : close < found + 1 ∨ lineEnd tokens (found + 1) stop ≤ close) (inside : close ≤ stop) :
    statementEnd tokens (marker + 1) close ≤ found + 1 ∨
      statementEnd tokens (found + 1) stop ≤ statementEnd tokens (marker + 1) close := by
  have shorter := statementEnd_le_lineEnd tokens (found + 1) stop
  have forward : marker + 1 ≤ statementEnd tokens (marker + 1) close := le_seek ..
  by_cases ahead : statementEnd tokens (marker + 1) close ≤ found + 1
  · exact .inl ahead
  refine .inr ?_
  by_cases behind : lineEnd tokens (found + 1) stop ≤ marker
  · omega
  have apart : marker ≠ found := by
    rintro rfl
    obtain ⟨token, stored, kind⟩ := hasKind_iff.mp isThen
    rw [hasKind_eq stored, kind] at isCase
    cases isCase
  have beyond : marker + 1 ≤ close := by
    refine Nat.le_of_not_lt fun short => ahead ?_
    rw [statementEnd, seek, if_neg (by omega)]
    omega
  have stays : statementEnd tokens (marker + 1) close ≤ close := seek_le _ _ beyond
  -- The head goes on into the body, so it ends where the statement does.
  have same : statementEnd tokens (found + 1) close = statementEnd tokens (marker + 1) close :=
    seek_eq_of_le (by omega) (show found + 1 ≤ statementEnd tokens (marker + 1) close by omega)
  have cut : statementEnd tokens (found + 1) close =
      min (statementEnd tokens (found + 1) stop) close := seek_cut (by omega) inside
  omega

/-- The clauses of a selection begin behind a line that begins with a divider, and end at a divider
or at the closing word. -/
theorem clausesAt_spares {markers : List Nat} (isThen : hasKind tokens found .kwThen = true)
    (dividers : ∀ marker ∈ markers, hasKind tokens marker .kwCase = true ∧
      Outside tokens (found + 1) (lineEnd tokens (found + 1) stop) marker)
    (closer : Outside tokens (found + 1) (lineEnd tokens (found + 1) stop) close)
    (inside : close ≤ stop) :
    ∀ clause ∈ clausesAt tokens close markers,
      Spares (found + 1) (statementEnd tokens (found + 1) stop) clause.body := by
  have shorter := statementEnd_le_lineEnd tokens (found + 1) stop
  induction markers with
  | nil => exact nofun
  | cons marker markers ih =>
    obtain ⟨isCase, outside⟩ := dividers marker List.mem_cons_self
    have later := fun other member => dividers other (List.mem_cons_of_mem _ member)
    refine List.forall_mem_cons.mpr ⟨spares_slice
      (headerEnd_spares isThen isCase outside.2 closer.2 inside) ?_, ih later⟩
    cases markers with
    | nil => exact closer.mono shorter
    | cons next markers => exact (later next List.mem_cons_self).2.mono shorter

/-- The dividers that a scan reports stand outside a range that it is apart from. -/
theorem Apart.outside {visit : Visit} {accept : TokenKind → Bool}
    (apart : Apart tokens first last visit)
    (accepts : ∀ kind, accept kind = true → isMarker kind = true) :
    ∀ marker ∈ positionsOf tokens accept visit.visited, (∃ token, tokens[marker]? = some token ∧
      accept token.kind = true) ∧ Outside tokens first last marker := by
  intro marker member
  obtain ⟨visited, accepted⟩ := List.mem_filter.mp member
  cases stored : tokens[marker]? with
  | none => simp [stored] at accepted
  | some token =>
    rw [stored] at accepted
    refine ⟨⟨token, rfl, accepted⟩, by simp [stored], ?_⟩
    by_cases inFront : marker < first
    · exact .inl inFront
    · refine .inr (Nat.le_of_not_lt fun before => ?_)
      have undivided := apart.undivided marker visited (by omega) before
      rw [dividesAt_eq stored, accepts _ accepted] at undivided
      cases undivided

end

/-- A choice on one line whose line closes and divides no block of an outer one is passed over as a
whole: no scan for an outer block reports a word behind its condition, and no branch or clause of an
outer block begins or ends in its body. -/
theorem contained_line_keeps_parts {window : Window}
    (isIf : hasKind window.tokens pos .kwIf = true)
    (single : isSingleLineIf window.tokens pos window.stop = true)
    (ends : findThen window.tokens pos window.stop = some found)
    (contained : isContained window.tokens window.stop (found + 1)
      (lineEnd window.tokens (found + 1) window.stop) = true) :
    (∀ start closer, start ≤ pos → closesBlock closer = true →
      Apart window.tokens (found + 1) (lineEnd window.tokens (found + 1) window.stop)
        (scanOutermost window.tokens start window.stop (haltsAt closer))) ∧
    (∀ opener outer head branches close, head < pos →
      choiceBranches window opener outer head = .ok (branches, close) → ∀ branch ∈ branches,
        Spares (found + 1) (statementEnd window.tokens (found + 1) window.stop) branch.body) ∧
    (∀ opener start closer name parts close, start ≤ pos → closesBlock closer = true →
      clauses window opener start closer name = .ok (parts, close) → ∀ clause ∈ parts,
        Spares (found + 1) (statementEnd window.tokens (found + 1) window.stop) clause.body) := by
  have isThen := (findThen_eq_some.mp ends).2.2
  have shorter := statementEnd_le_lineEnd window.tokens (found + 1) window.stop
  have apart : ∀ start closer, start ≤ pos → closesBlock closer = true →
      Apart window.tokens (found + 1) (lineEnd window.tokens (found + 1) window.stop)
        (scanOutermost window.tokens start window.stop (haltsAt closer)) :=
    fun start closer le closes =>
      line_apart isIf single ends contained (closes_of_haltsAt closer closes) le
  refine ⟨apart, fun opener outer head branches close before made => ?_,
    fun opener start closer name parts close le closes made => ?_⟩
  · have here := apart (head + 1) .kwEndIf before rfl
    unfold choiceBranches at made
    simp only [show (fun token : Token => token.kind == .kwEndIf) = haltsAt .kwEndIf from rfl,
      show (fun kind : TokenKind => kind == .kwElseIf || kind == .kwElse) = dividesChoice from rfl]
      at made
    split at made
    · cases made
    · rename_i halted
      obtain ⟨parts, split, same⟩ := bind_eq_ok.mp made
      cases same
      exact split_spares isThen split (.inl (by have := lt_of_findThen ends; omega))
        (fun marker member =>
          (here.outside isMarker_of_dividesChoice marker member).2.mono shorter)
        (Outside.mono ⟨stored_halted halted, here.unclosed _ halted⟩ shorter)
  · have here := apart start closer le closes
    unfold clauses at made
    simp only [show (fun token : Token => token.kind == closer) = haltsAt closer from rfl,
      show (fun kind : TokenKind => kind == .kwCase) = dividesSelection from rfl] at made
    split at made
    · cases made
    · rename_i close' halted
      have inside := ((scanFrom_within ..).halted _ halted).1
      have dividers := here.outside isMarker_of_dividesSelection
      have spared := @clausesAt_spares window.tokens window.stop found close' _ isThen
        (fun marker member => by
          obtain ⟨⟨token, stored, isCase⟩, outside⟩ := dividers marker member
          exact ⟨hasKind_iff.mpr ⟨token, stored, eq_of_beq isCase⟩, outside⟩)
        ⟨stored_halted halted, here.unclosed _ halted⟩ (Nat.le_of_lt inside)
      repeat' split at made
      all_goals cases made
      all_goals exact spared

/-- A choice on one line with its closing word, and one that opens and closes a block for its body,
in front of the last branch of a choice. -/
theorem contained_line_keeps_parts_inner : ∃ tokens : List Token,
    tokenize "If False Then\nIf True Then While False WEnd EndIf\nElse\nEndIf\n" = .ok tokens ∧
      hasKind tokens.toArray 4 .kwIf = true ∧
      isSingleLineIf tokens.toArray 4 tokens.toArray.size = true ∧
      findThen tokens.toArray 4 tokens.toArray.size = some 6 ∧
      isContained tokens.toArray tokens.toArray.size 7
        (lineEnd tokens.toArray 7 tokens.toArray.size) = true ∧
      Apart tokens.toArray 7 (lineEnd tokens.toArray 7 tokens.toArray.size)
        (scanOutermost tokens.toArray 3 tokens.toArray.size (haltsAt .kwEndIf)) := by
  have tried : (tokenize
      "If False Then\nIf True Then While False WEnd EndIf\nElse\nEndIf\n").toOption.any
        (fun tokens => hasKind tokens.toArray 4 .kwIf &&
          isSingleLineIf tokens.toArray 4 tokens.toArray.size &&
          findThen tokens.toArray 4 tokens.toArray.size == some 6 &&
          isContained tokens.toArray tokens.toArray.size 7
            (lineEnd tokens.toArray 7 tokens.toArray.size)) = true := by decide +kernel
  obtain ⟨tokens, read, facts⟩ := (Option.any_eq_true _ _).mp tried
  simp only [Bool.and_eq_true, beq_iff_eq] at facts
  obtain ⟨⟨⟨isIf, single⟩, ends⟩, contained⟩ := facts
  have parts := @contained_line_keeps_parts 4 6 (.whole tokens.toArray) isIf single ends contained
  exact ⟨tokens, eq_ok_of_toOption read, isIf, single, ends, contained,
    parts.1 3 .kwEndIf (by decide) rfl⟩

/-- Some word from one position up to another is reported. -/
def reports (tokens : TokenBlock) (first last : Nat) (visit : Visit) : Bool :=
  visit.visited.any (fun pos => first ≤ pos && pos < last && dividesAt tokens pos) ||
    visit.halted.any fun pos => first ≤ pos && pos < last

/-- A visit that is reported is not apart from the line. -/
theorem not_apart_of_reports {visit : Visit} (reported : reports tokens first last visit = true) :
    ¬ Apart tokens first last visit := by
  intro apart
  rcases Bool.or_eq_true_iff.mp reported with divides | closes
  · obtain ⟨pos, visited, facts⟩ := List.any_eq_true.mp divides
    simp only [Bool.and_eq_true, decide_eq_true_eq] at facts
    have := apart.undivided pos visited facts.1.1 facts.1.2
    rw [facts.2] at this
    cases this
  · obtain ⟨pos, halted, facts⟩ := (Option.any_eq_true _ _).mp closes
    simp only [Bool.and_eq_true, decide_eq_true_eq] at facts
    have := apart.unclosed pos halted
    omega

/-- What becomes of a script whose first word opens a block, with a choice on one line at a position
on a later line: whether a scan for the block reports a word behind the condition of the choice, and
what the script writes; nothing if it is not accepted. -/
def lineTrial (source : String) (pos : Nat) : Option (Bool × String) :=
  (tokenize source).toOption.bind fun list =>
    let tokens := list.toArray
    let stop := tokens.size
    match tokens[0]?.bind fun token => closer? token.kind, findThen tokens pos stop with
    | some closer, some found =>
      if (check tokens).isOk && opensBlock tokens 0 stop && startsLine tokens pos &&
        hasKind tokens pos .kwIf && isSingleLineIf tokens pos stop then
        some (reports tokens (found + 1) (lineEnd tokens (found + 1) stop)
          (scanOutermost tokens 1 stop (haltsAt closer)),
          ((Machine.run 20).final (.ofTokens {} "main" list)).stdout)
      else none
    | _, _ => none

/-- The script is accepted and writes some text, and a scan for the block that its first word opens
reports a word behind the condition of a choice on one line, which stands on a later line. -/
def Misread (source : String) (pos : Nat) (written : String) : Prop :=
  ∃ (tokens : List Token) (closer : TokenKind) (found : Nat), tokenize source = .ok tokens ∧
    check tokens.toArray = .ok () ∧ opensBlock tokens.toArray 0 tokens.toArray.size = true ∧
    (tokens.toArray[0]?.bind fun token => closer? token.kind) = some closer ∧ 0 < pos ∧
    startsLine tokens.toArray pos = true ∧ hasKind tokens.toArray pos .kwIf = true ∧
    isSingleLineIf tokens.toArray pos tokens.toArray.size = true ∧
    findThen tokens.toArray pos tokens.toArray.size = some found ∧
    ¬ Apart tokens.toArray (found + 1) (lineEnd tokens.toArray (found + 1) tokens.toArray.size)
      (scanOutermost tokens.toArray 1 tokens.toArray.size (haltsAt closer)) ∧
    ((Machine.run 20).final (.ofTokens {} "main" tokens)).stdout = written

/-- A trial that reports text for a position behind the start shows a misread line. -/
theorem misread_of_trial {source written : String} (behind : 0 < pos)
    (tried : lineTrial source pos = some (true, written)) : Misread source pos written := by
  obtain ⟨tokens, read, tried⟩ := Option.bind_eq_some_iff.mp tried
  dsimp only at tried
  split at tried
  · rename_i closer found opener ends
    split at tried
    · rename_i facts
      simp only [Bool.and_eq_true] at facts
      obtain ⟨⟨⟨⟨isOk, opens⟩, starts⟩, isIf⟩, single⟩ := facts
      simp only [Option.some.injEq, Prod.mk.injEq] at tried
      have accepted : check tokens.toArray = .ok () := by
        cases checked : check tokens.toArray with
        | error fault =>
          rw [checked] at isOk
          cases isOk
        | ok => rfl
      exact ⟨tokens, closer, found, eq_ok_of_toOption read, accepted, opens, opener, behind, starts,
        isIf, single, ends, not_apart_of_reports tried.1, tried.2⟩
    · cases tried
  · cases tried

/-- Accepted scripts in which a word on the line of a choice on one line is taken for a word of the
block around it: for the last branch of a choice that has none, which runs; for the end of a loop;
and for a clause of a selection that has none, which runs. -/
theorem line_divides_outer :
    Misread "If False Then\nIf True Then $x = 1 Else ConsoleWrite(\"b\")\nEndIf\n" 4 "b" ∧
    Misread "While True\nIf True Then ExitLoop WEnd\n" 3 "" ∧
    Misread "Switch 2\nCase 1\nIf False Then $x = 1 Case 2\nConsoleWrite(\"b\")\nEndSwitch\n" 6
      "b" := by
  have choice : lineTrial
      "If False Then\nIf True Then $x = 1 Else ConsoleWrite(\"b\")\nEndIf\n" 4 =
        some (true, "b") := by decide +kernel
  have loop : lineTrial "While True\nIf True Then ExitLoop WEnd\n" 3 = some (true, "") := by
    decide +kernel
  have selection : lineTrial
      "Switch 2\nCase 1\nIf False Then $x = 1 Case 2\nConsoleWrite(\"b\")\nEndSwitch\n" 6 =
        some (true, "b") := by decide +kernel
  exact ⟨misread_of_trial (by decide) choice, misread_of_trial (by decide) loop,
    misread_of_trial (by decide) selection⟩

end Blocks

end LineScript
