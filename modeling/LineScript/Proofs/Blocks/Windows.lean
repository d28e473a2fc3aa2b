import LineScript.Proofs.Blocks.Path
import LineScript.Proofs.Run.Engine

/-!
# The parts of statements in regular windows

The windows that a statement of a regular window runs (branches, clauses and bodies of loops) are
regular again, and so is the rest of the window behind the statement.
-/

namespace LineScript.Blocks

open Layout Structure Structured

/-- Statements of the window may begin at the position: nothing is left of it, or the rest is
regular. -/
def Placed (window : Window) (pos : Nat) : Prop :=
  window.stop ≤ pos ∨ Regular window.tokens pos window.stop

variable {tokens : TokenBlock} {stop pos found last next close : Nat} {token : Token}
  {window : Window}

/-- The rest of a regular window is regular, wherever it begins. -/
theorem Regular.later {at' : Nat} (regular : Regular tokens pos stop) (from' : pos ≤ at')
    (le : at' ≤ stop) : Regular tokens at' stop :=
  ⟨regular.inside, regular.reaches.anew from' le, regular.heads.mono from'⟩

namespace Placed

/-- Statements may begin at each later position. -/
theorem later {at' : Nat} (placed : Placed window pos) (from' : pos ≤ at') :
    Placed window at' := by
  by_cases beyond : window.stop ≤ at'
  · exact .inl beyond
  · have regular := placed.resolve_left (by omega)
    exact .inr (regular.later from' (by omega))

/-- Where a token of the window stands, the rest of the window is regular. -/
theorem regular (placed : Placed window pos) (here : window.token? pos = some token) :
    pos < window.stop ∧ window.tokens[pos]? = some token ∧
      Regular window.tokens pos window.stop := by
  obtain ⟨before, stored⟩ := Window.token?_eq_some.mp here
  exact ⟨before, stored, placed.resolve_left (by omega)⟩

end Placed

/-- Each part at the end of a regular window is a place for statements. -/
theorem Regular.placed {start : Nat} (regular : Regular tokens pos last) (from' : pos ≤ start) :
    Placed (.slice tokens start last) start := by
  have whole : Placed (.slice tokens start last) pos := by
    refine .inr ?_
    show Regular tokens pos (min last tokens.size)
    rw [Nat.min_eq_left regular.inside]
    exact regular
  exact whole.later from'

/-- A path leads on from inside the block that is opened at the start of a regular window. -/
theorem Regular.opens {closer : TokenKind} (regular : Regular tokens pos stop) (before : pos < stop)
    (stored : tokens[pos]? = some token) (opener : closer? token.kind = some closer)
    (opened : opensBlock tokens pos stop = true) :
    Reaches tokens stop (pos + 1) [token.kind] stop [] := by
  have reaches := regular.reaches
  generalize none' : ([] : List TokenKind) = rest at reaches
  cases reaches with
  | refl => omega
  | step first later =>
    rcases first.of_opener stored opener with ⟨rfl, rfl, _⟩ | ⟨_, found, last, oneLine⟩
    · subst none'
      exact later
    · obtain ⟨_, stored', isIf⟩ := oneLine.stored
      cases stored.symm.trans stored'
      simp [opensBlock, stored, isIf, oneLine.single] at opened

/-- A choice on one line at the start of a regular window. -/
theorem Regular.oneLine (regular : Regular tokens pos stop) (before : pos < stop)
    (stored : tokens[pos]? = some token) (isIf : token.kind = .kwIf)
    (single : isSingleLineIf tokens pos stop = true) :
    ∃ found last next, OneLine tokens stop pos found last next := by
  cases regular.reaches with
  | refl => omega
  | step first later =>
    rcases first.of_opener stored (show closer? token.kind = some .kwEndIf by rw [isIf]; rfl) with
      ⟨_, _, opened⟩ | ⟨_, found, last, oneLine⟩
    · simp [opensBlock, stored, isIf, single] at opened
    · exact ⟨found, last, _, oneLine⟩

/-- The branch of a choice on one line is a regular window. -/
theorem OneLine.regular (line : OneLine tokens stop pos found last next)
    (inside : stop ≤ tokens.size) : Regular tokens (found + 1) last := by
  have order := line.last_le_next
  have nextLe := line.next_le
  have opener : ∀ {at' : Nat} {token : Token}, tokens[at']? = some token → token.kind = .kwIf →
      hasKind tokens at' .kwIf = true := fun stored isIf => hasKind_iff.mpr ⟨_, stored, isIf⟩
  have goesOn : ∀ at', found + 1 ≤ at' → at' < last →
      ∃ token, tokens[at']? = some token ∧ token.endsLine = false :=
    fun at' from' before => line.goesOn from' (by omega)
  refine ⟨by omega, .of_each (fun at' from' before => ?_) line.found_lt_last (Nat.le_refl _)
    (.refl _ _), fun at' token from' before stored => ?_⟩
  · obtain ⟨token, stored, passed | ⟨isIf, inner, ends, head, inside⟩⟩ := line.body at' from' before
    · exact ⟨token, stored, .inl passed⟩
    · exact ⟨token, stored, .inr ⟨inner,
        line.body.oneLine goesOn from' (opener stored isIf) ends head inside⟩⟩
  · obtain ⟨other, stored', allowed⟩ := line.body at' from' before
    cases stored.symm.trans stored'
    rcases allowed with passed | ⟨isIf, inner, ends, head, _⟩
    · constructor
      · rintro (kind | kind) <;> rw [kind] at passed <;> cases passed
      · intro kind
        rw [kind] at passed
        cases passed
    · refine ⟨fun _ => ⟨inner, ends, head⟩, fun kind => ?_⟩
      rw [isIf] at kind
      cases kind

/-- A condition and the word that ends it change no blocks. -/
theorem quiet_through_then (quiet : Quiet tokens (pos + 1) found)
    (ends : findThen tokens pos stop = some found) : Quiet tokens (pos + 1) (found + 1) := by
  intro at' from' before
  by_cases atThen : at' = found
  · subst atThen
    obtain ⟨token, stored, isThen⟩ := hasKind_iff.mp (findThen_eq_some.mp ends).2.2
    exact ⟨token, stored, by rw [isThen]; rfl⟩
  · exact quiet at' from' (by omega)

/-- Each branch of a choice lies between some position behind the start and a divider or the
closing word. -/
theorem split_parts {condition : Option Window} {start : Nat} {markers : List Nat}
    {branches : List Branch}
    (made : Branch.split window close condition start markers = .ok branches) (from' : pos ≤ start)
    (range : ∀ marker ∈ markers, pos ≤ marker) :
    ∀ branch ∈ branches, ∃ first last, branch.body = .slice window.tokens first last ∧
      pos ≤ first ∧ (last = close ∨ last ∈ markers) := by
  induction markers generalizing condition start branches with
  | nil =>
    cases made
    exact List.forall_mem_singleton.mpr ⟨start, close, rfl, from', .inl rfl⟩
  | cons marker markers ih =>
    have here := range marker List.mem_cons_self
    have head : ∃ first last, Window.slice window.tokens start marker =
        .slice window.tokens first last ∧ pos ≤ first ∧ (last = close ∨ last ∈ marker :: markers) :=
      ⟨start, marker, rfl, from', .inr List.mem_cons_self⟩
    have later : ∀ {condition start' branches},
        Branch.split window close condition start' markers = .ok branches → pos ≤ start' →
        ∀ branch ∈ branches, ∃ first last, branch.body = .slice window.tokens first last ∧
          pos ≤ first ∧ (last = close ∨ last ∈ marker :: markers) := by
      intro condition start' branches made from' branch member
      obtain ⟨first, last, is, order, isPart⟩ := ih made from'
        (fun other inside => range other (List.mem_cons_of_mem _ inside)) branch member
      exact ⟨first, last, is, order, isPart.imp_right (List.mem_cons_of_mem _)⟩
    simp only [Branch.split] at made
    split at made
    · cases made
      exact List.forall_mem_singleton.mpr head
    · split at made
      · split at made
        · rename_i ends
          have order := lt_of_findThen ends
          obtain ⟨others, madeOthers, same⟩ := bind_eq_ok.mp made
          cases same
          exact List.forall_mem_cons.mpr ⟨head, later madeOthers (by omega)⟩
        · cases made
      · obtain ⟨others, madeOthers, same⟩ := bind_eq_ok.mp made
        cases same
        exact List.forall_mem_cons.mpr ⟨head, later madeOthers (by omega)⟩

/-- Each clause of a selection lies between some position behind the start and a divider or the
closing word. -/
theorem clausesAt_parts {markers : List Nat} (range : ∀ marker ∈ markers, pos ≤ marker) :
    ∀ clause ∈ clausesAt tokens close markers, ∃ first last,
      clause.body = .slice tokens first last ∧ pos ≤ first ∧ (last = close ∨ last ∈ markers) := by
  induction markers with
  | nil => exact nofun
  | cons marker markers ih =>
    have here := range marker List.mem_cons_self
    have headerEnd : marker + 1 ≤ statementEnd tokens (marker + 1) close := le_seek ..
    refine List.forall_mem_cons.mpr ⟨⟨_, _, rfl, by omega, ?_⟩, fun clause member => ?_⟩
    · cases markers with
      | nil => exact .inl rfl
      | cons next markers => exact .inr (List.mem_cons_of_mem _ List.mem_cons_self)
    · obtain ⟨first, last, is, order, isPart⟩ :=
        ih (fun other inside => range other (List.mem_cons_of_mem _ inside)) clause member
      exact ⟨first, last, is, order, isPart.imp_right (List.mem_cons_of_mem _)⟩

namespace Found

variable {closer : TokenKind} {accept : TokenKind → Bool} {markers : List Nat}

/-- Each part of a block that ends at a divider or at the closing word is a place for statements. -/
theorem placed (parts : Found closer accept tokens stop pos close markers)
    (closes : closesBlock closer = true) (heads : Heads tokens pos stop)
    (size : stop ≤ tokens.size)
    (isPart : window = .slice tokens found last ∧ pos ≤ found ∧ (last = close ∨ last ∈ markers)) :
    Placed window window.start := by
  obtain ⟨rfl, from', isPart⟩ := isPart
  exact (parts.regular closes heads size isPart).placed from'

/-- No marker of a found construct lies before the search's start. -/
theorem range (parts : Found closer accept tokens stop pos close markers) :
    ∀ marker ∈ markers, pos ≤ marker :=
  fun marker member => (parts.dividers marker member).reaches.le

end Found

namespace Regular

variable {opener : Token}

/-- From behind the head of a block that is opened at the start of a regular window, a scan finds
the word that closes it. -/
theorem finds {start : Nat} {closer : TokenKind} {accept : TokenKind → Bool}
    (regular : Regular tokens pos stop) (before : pos < stop) (stored : tokens[pos]? = some token)
    (opener : closer? token.kind = some closer) (opened : opensBlock tokens pos stop = true)
    (accepts : ∀ kind, accept kind = true → isMarker kind = true)
    (noCloser : accept closer = false) (quiet : Quiet tokens (pos + 1) start) (le : pos < start)
    (inside : start ≤ stop) : ∃ close markers, Found closer accept tokens stop start close markers :=
  ((regular.opens before stored opener opened).of_quiet quiet le inside).found opener accepts
    noCloser

/-- A choice on one line at the start of a regular window: its branch is a place for statements. -/
theorem choiceOnLine (regular : Regular window.tokens pos window.stop) (before : pos < window.stop)
    (stored : window.tokens[pos]? = some opener) (isIf : opener.kind = .kwIf)
    (single : isSingleLineIf window.tokens pos window.stop = true)
    (ends : findThen window.tokens pos window.stop = some found) :
    Placed (.slice window.tokens (found + 1)
      ((trailingEndIf window.tokens pos window.stop).getD
        (statementEnd window.tokens (found + 1) (lineEnd window.tokens (found + 1) window.stop))))
      (found + 1) := by
  obtain ⟨_, last, next, line⟩ := regular.oneLine before stored isIf single
  cases ends.symm.trans line.ends
  have statement := @statementEnd_lineEnd window.tokens _ _ (Nat.le_of_lt line.found_lt)
  have bodyEnd : (trailingEndIf window.tokens pos window.stop).getD
      (statementEnd window.tokens (found + 1) (lineEnd window.tokens (found + 1) window.stop)) =
        last := by
    rw [statement, line.ending]
    rcases line.closed with ⟨trailing, _⟩ | ⟨none', same⟩
    · rw [trailing]
      rfl
    · rw [none', same]
      rfl
  rw [bodyEnd]
  exact (line.regular regular.inside).placed (Nat.le_refl _)

/-- A choice over several lines at the start of a regular window: its branches are places for
statements. -/
theorem choice (regular : Regular window.tokens pos window.stop) (before : pos < window.stop)
    (stored : window.tokens[pos]? = some opener) (isIf : opener.kind = .kwIf)
    (overLines : isSingleLineIf window.tokens pos window.stop = false)
    (ends : findThen window.tokens pos window.stop = some found) :
    ∃ branches close, choiceBranches window opener pos found = .ok (branches, close) ∧
      pos ≤ close ∧ ∀ branch ∈ branches, Placed branch.body branch.body.start := by
  have order := lt_of_findThen ends
  have behind := (findThen_eq_some.mp ends).2.1
  have head := (regular.heads pos opener (Nat.le_refl _) before stored).choice (.inl isIf)
  obtain ⟨_, ends', quiet⟩ := head
  cases ends.symm.trans ends'
  obtain ⟨close, markers, parts⟩ := regular.finds before stored
    (show closer? opener.kind = some .kwEndIf by rw [isIf]; rfl)
    (by simp [opensBlock, stored, isIf, overLines]) isMarker_of_dividesChoice rfl
    (quiet_through_then quiet ends) (by omega) behind
  have heads := regular.heads.mono (show pos ≤ found + 1 by omega)
  have later := parts.reaches.le
  obtain ⟨halted, dividers⟩ := parts.halts none (.nothing _)
  cases made : choiceBranches window opener pos found with
  | error fault =>
    rcases choiceBranches_fault made with
      ⟨none', _⟩ | ⟨marker, visited, token, stored', isElseIf, none', _⟩
    · cases none'.symm.trans halted
    · have member : marker ∈ markers := by
        rw [← dividers]
        refine List.mem_filter.mpr ⟨visited, ?_⟩
        simp [stored', isElseIf, dividesChoice]
      have divider := parts.dividers marker member
      obtain ⟨_, ends', _⟩ :=
        (heads marker token divider.reaches.le divider.inside stored').choice (.inr isElseIf)
      cases none'.symm.trans ends'
  | ok result =>
    unfold choiceBranches scanOutermost at made
    simp only [show (fun token : Token => token.kind == .kwEndIf) = haltsAt .kwEndIf from rfl,
      show (fun kind : TokenKind => kind == .kwElseIf || kind == .kwElse) = dividesChoice from rfl,
      halted, dividers] at made
    obtain ⟨branches, split, same⟩ := bind_eq_ok.mp made
    cases same
    refine ⟨branches, close, rfl, by omega, fun branch member => ?_⟩
    obtain ⟨first, last, isPart⟩ :=
      split_parts split (Nat.le_refl _) parts.range branch member
    exact parts.placed rfl heads regular.inside isPart

/-- From behind what a selection compares, a scan finds the word that closes the selection. -/
theorem selects {start : Nat} {closer : TokenKind}
    (regular : Regular window.tokens pos window.stop) (before : pos < window.stop)
    (stored : window.tokens[pos]? = some opener)
    (isSelection : opener.kind = .kwSwitch ∧ closer = .kwEndSwitch ∨
      opener.kind = .kwSelect ∧ closer = .kwEndSelect)
    (read : window.Passes (pos + 1) start) :
    ∃ close markers,
      Found closer dividesSelection window.tokens window.stop start close markers := by
  have quiet : Quiet window.tokens (pos + 1) start := by
    intro at' from' earlier
    obtain ⟨token, found, plain⟩ := read.plain at' from' earlier
    exact ⟨token, (Window.token?_eq_some.mp found).2, by simp [isPassed, plain]⟩
  have inside : start ≤ window.stop := by
    refine Nat.le_of_not_lt fun beyond => ?_
    obtain ⟨_, found, _⟩ := read.plain window.stop before beyond
    have := (Window.token?_eq_some.mp found).1
    omega
  rcases isSelection with ⟨kind, rfl⟩ | ⟨kind, rfl⟩
  · exact regular.finds before stored (by rw [kind]; rfl) (by simp [opensBlock, stored, kind])
      isMarker_of_dividesSelection rfl quiet read.le inside
  · exact regular.finds before stored (by rw [kind]; rfl) (by simp [opensBlock, stored, kind])
      isMarker_of_dividesSelection rfl quiet read.le inside

/-- The clauses of a selection that are found are places for statements. -/
theorem selection {start close' : Nat} {closer : TokenKind} {name : String}
    {markers : List Nat} {found : List Clause}
    (regular : Regular window.tokens pos window.stop) (from' : pos ≤ start)
    (parts : Found closer dividesSelection window.tokens window.stop start close' markers)
    (closes : closesBlock closer = true)
    (made : clauses window opener start closer name = .ok (found, close)) :
    pos ≤ close ∧ ∀ clause ∈ found, Placed clause.body clause.body.start := by
  have later := parts.reaches.le
  obtain ⟨halted, dividers⟩ := parts.halts none (.nothing _)
  have result : found = clausesAt window.tokens close' markers ∧ close = close' := by
    unfold clauses scanOutermost at made
    simp only [show (fun token : Token => token.kind == closer) = haltsAt closer from rfl,
      show (fun kind : TokenKind => kind == .kwCase) = dividesSelection from rfl, halted,
      dividers] at made
    repeat' split at made
    all_goals cases made
    all_goals exact ⟨rfl, rfl⟩
  obtain ⟨rfl, rfl⟩ := result
  refine ⟨by omega, fun clause member => ?_⟩
  obtain ⟨first, last, isPart⟩ := clausesAt_parts parts.range clause member
  exact parts.placed closes (regular.heads.mono from') regular.inside isPart

/-- A loop at the start of a regular window: its body is a place for statements. -/
theorem loop {start : Nat} {closer : TokenKind} (regular : Regular tokens pos stop)
    (before : pos < stop) (stored : tokens[pos]? = some token)
    (opener : closer? token.kind = some closer) (opened : opensBlock tokens pos stop = true)
    (quiet : Quiet tokens (pos + 1) start) (le : pos < start) (inside : start ≤ stop) :
    ∃ close, (scanOutermost tokens start stop (haltsAt closer)).halted = some close ∧
      pos ≤ close ∧ Placed (.slice tokens start close) start := by
  obtain ⟨close, markers, parts⟩ := @finds tokens stop pos token start closer (fun _ => false)
    regular before stored opener opened (fun _ accepted => by cases accepted) rfl quiet le inside
  have later := parts.reaches.le
  have heads := regular.heads.mono (Nat.le_of_lt le)
  exact ⟨close, (parts.halts none (.nothing _)).1, by omega,
    parts.placed (closesBlock_of_closer? opener) heads regular.inside
      ⟨rfl, Nat.le_refl _, .inl rfl⟩⟩

/-- No function begins in a regular window. -/
theorem not_func (regular : Regular tokens pos stop) (before : pos < stop)
    (stored : tokens[pos]? = some token) : token.kind ≠ .kwFunc := by
  intro kind
  have inert : isInert token.kind = true := by rw [kind]; rfl
  cases regular.reaches with
  | refl => omega
  | step first later =>
    cases first with
    | pass inside stored' passed =>
      cases stored.symm.trans stored'
      rw [kind] at passed
      rcases passed with passed | passed <;> cases passed
    | line oneLine =>
      obtain ⟨_, stored', isIf⟩ := oneLine.stored
      cases stored.symm.trans stored'
      rw [kind] at isIf
      cases isIf
    | opens inside stored' opened =>
      rw [opensBlock_eq_false stored inert] at opened
      cases opened
    | stray inside stored' closed =>
      cases stored.symm.trans stored'
      rw [closesBlock_eq_false inert] at closed
      cases closed

end Regular

end LineScript.Blocks
