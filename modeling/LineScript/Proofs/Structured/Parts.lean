import LineScript.Interpreter.Selection
import LineScript.Proofs.Structured.Scan

/-!
# The parts of a structured statement are found

A scan from inside a choice, a selection or a loop halts at the keyword that closes it and has
visited exactly its own dividers. So the branches and clauses that are found are those of the tree.
-/

namespace LineScript.Structured

open Layout

variable {halt : Token → Bool} {accept : TokenKind → Bool} {tokens : TokenBlock}
  {stop pos close : Nat} {token : Token}

/-- A scan from a position halts at another one, and has visited these accepted positions. -/
def Halts (halt : Token → Bool) (accept : TokenKind → Bool) (tokens : TokenBlock)
    (stop pos close : Nat) (markers : List Nat) : Prop :=
  ∀ skip, Stale skip pos →
    (scanFrom halt tokens stop pos 0 skip).halted = some close ∧
      positionsOf tokens accept (scanFrom halt tokens stop pos 0 skip).visited = markers

/-- The accepted positions of two lists are those of the first and then those of the second. -/
theorem positionsOf_append (first second : List Nat) :
    positionsOf tokens accept (first ++ second) =
      positionsOf tokens accept first ++ positionsOf tokens accept second :=
  List.filter_append _ _

/-- A single position is accepted when its token's kind is. -/
theorem positionsOf_singleton (stored : tokens[pos]? = some token) :
    positionsOf tokens accept [pos] = if accept token.kind then [pos] else [] := by
  simp only [positionsOf, List.filter_cons, stored, List.filter_nil]

/-- Among unmarked positions no divider is found. -/
theorem positionsOf_unmarked {visited : List Nat} (unmarked : Unmarked tokens visited)
    (dividers : ∀ kind, accept kind = true → isMarker kind = true) :
    positionsOf tokens accept visited = [] := by
  refine List.filter_eq_nil_iff.mpr fun at' member accepted => ?_
  split at accepted
  · rename_i token stored
    have divider := dividers token.kind accepted
    rw [unmarked at' member token stored] at divider
    cases divider
  · simp at accepted

namespace Halts

/-- At the closing word itself. -/
theorem here (inside : pos < stop) (stored : tokens[pos]? = some token)
    (halts : halt token = true) (other : accept token.kind = false) :
    Halts halt accept tokens stop pos pos [] := by
  intro skip stale
  rw [scanFrom_halt inside stored stale.ne halts]
  exact ⟨rfl, by rw [positionsOf_singleton stored, other]; rfl⟩

/-- Behind something that a scan passes over. -/
theorem of_scans {pos' : Nat} {markers : List Nat} (scans : Scans halt tokens stop pos 0 pos' 0)
    (dividers : ∀ kind, accept kind = true → isMarker kind = true)
    (later : Halts halt accept tokens stop pos' close markers) :
    Halts halt accept tokens stop pos close markers := by
  intro skip stale
  obtain ⟨skip', visited, stale', unmarked, scanned⟩ := scans skip stale
  obtain ⟨halted, found⟩ := later skip' stale'
  rw [scanned]
  refine ⟨halted, ?_⟩
  rw [Visit.after, positionsOf_append, positionsOf_unmarked unmarked dividers, found]
  rfl

/-- Behind a word of the outermost level that opens and closes nothing. -/
theorem word {markers : List Nat} (inside : pos < stop) (stored : tokens[pos]? = some token)
    (inert : isInert token.kind = true) (goesOn : halt token = false)
    (later : Halts halt accept tokens stop (pos + 1) close markers) :
    Halts halt accept tokens stop pos close
      (if accept token.kind then pos :: markers else markers) := by
  intro skip stale
  obtain ⟨halted, found⟩ := later skip (stale.mono (Nat.le_succ pos))
  rw [scanFrom_inert inside stored stale.ne inert fun _ => goesOn]
  refine ⟨halted, ?_⟩
  rw [Visit.after, if_pos rfl, positionsOf_append, positionsOf_singleton stored, found]
  split <;> rfl

end Halts

/-- The positions of the keywords of further branches. -/
def Branches.markers (pos : Nat) : Branches → List Nat
  | .done => []
  | .elseIf _ condition _ body rest =>
    pos :: rest.markers (pos + 1 + condition.size + 1 + body.size)
  | .otherwise _ _ => [pos]

/-- The further branches, as windows of the run of tokens. -/
def Branches.parts (tokens : TokenBlock) (pos : Nat) : Branches → List Branch
  | .done => []
  | .elseIf _ condition _ body rest =>
    let found := pos + 1 + condition.size
    { condition := some (.slice tokens (pos + 1) found)
      body := .slice tokens (found + 1) (found + 1 + body.size) } ::
      rest.parts tokens (found + 1 + body.size)
  | .otherwise _ body =>
    [{ condition := none, body := .slice tokens (pos + 1) (pos + 1 + body.size) }]

/-- The positions of the keywords of clauses. -/
def Clauses.markers (pos : Nat) : Clauses → List Nat
  | .done => []
  | .case _ header body rest => pos :: rest.markers (pos + 1 + header.size + body.size)
  | .otherwise _ _ body rest => pos :: rest.markers (pos + 2 + body.size)

/-- The clauses, as windows of the run of tokens. -/
def Clauses.parts (tokens : TokenBlock) (pos : Nat) : Clauses → List Clause
  | .done => []
  | .case _ header body rest =>
    let start := pos + 1 + header.size
    { header := .slice tokens (pos + 1) start
      body := .slice tokens start (start + body.size)
      isElse := false } :: rest.parts tokens (start + body.size)
  | .otherwise _ _ body rest =>
    { header := .slice tokens (pos + 1) (pos + 2)
      body := .slice tokens (pos + 2) (pos + 2 + body.size)
      isElse := true } :: rest.parts tokens (pos + 2 + body.size)

/-- The dividers of a choice. -/
def dividesChoice (kind : TokenKind) : Bool := kind == .kwElseIf || kind == .kwElse

/-- The divider of a selection. -/
def dividesSelection (kind : TokenKind) : Bool := kind == .kwCase

/-- What divides a conditional is a marker. -/
theorem isMarker_of_dividesChoice (kind : TokenKind) (divides : dividesChoice kind = true) :
    isMarker kind = true := by
  cases kind <;> first | rfl | cases divides

/-- What divides a selection is a marker. -/
theorem isMarker_of_dividesSelection (kind : TokenKind) (divides : dividesSelection kind = true) :
    isMarker kind = true := by
  cases kind <;> first | rfl | cases divides

/-- The word that halts a scan. -/
def haltsAt (kind : TokenKind) (token : Token) : Bool := token.kind == kind

/-- Only a closing word halts a scan that looks for one. -/
theorem closes_of_haltsAt (closer : TokenKind) (closes : closesBlock closer = true) (token : Token)
    (halts : haltsAt closer token = true) : closesBlock token.kind = true := by
  rw [eq_of_beq halts]
  exact closes

/-- A scan of further branches halts at the closing word behind them. -/
theorem Branches.halts {closer : Word .kwEndIf} : ∀ (branches : Branches) {pos : Nat},
    Holds tokens pos branches.render → pos + branches.size < stop →
    tokens[pos + branches.size]? = some closer.token →
    Halts (haltsAt .kwEndIf) dividesChoice tokens stop pos (pos + branches.size)
      (branches.markers pos)
  | .done, pos, _, inside, closed =>
    .here inside closed (by simp [haltsAt, closer.isKind]) (by rw [closer.isKind]; rfl)
  | .elseIf word condition then' body rest, pos, holds, inside, closed => by
    have halts := closes_of_haltsAt .kwEndIf rfl
    simp only [holds_elseIf, Branches.size_elseIf] at holds inside closed ⊢
    obtain ⟨opened, condition', ended, body', rest'⟩ := holds
    have later := rest.halts rest' (by omega) (by rw [← closed]; congr 1; omega)
    have inner : Scans (haltsAt .kwEndIf) tokens stop (pos + 1) 0
        (pos + 1 + condition.size + 1 + body.size) 0 :=
      .trans (.phrase halts condition' (by omega)) (.trans (.word halts then' (by omega) ended ⟨rfl, rfl⟩)
        (body.scans halts body' (by omega)))
    have all := Halts.word (by omega) opened (by rw [word.isKind]; rfl)
      (by simp [haltsAt, word.isKind]) (.of_scans inner isMarker_of_dividesChoice later)
    rw [word.isKind] at all
    rw [show pos + (1 + condition.size + 1 + body.size + rest.size) =
      pos + 1 + condition.size + 1 + body.size + rest.size by omega]
    exact all
  | .otherwise word body, pos, holds, inside, closed => by
    have halts := closes_of_haltsAt .kwEndIf rfl
    simp only [Branches.size_otherwise] at inside closed ⊢
    have last : pos + (1 + body.size) = pos + 1 + body.size := by omega
    rw [last] at inside closed ⊢
    have later : Halts (haltsAt .kwEndIf) dividesChoice tokens stop (pos + 1 + body.size)
        (pos + 1 + body.size) [] :=
      .here inside closed (by simp [haltsAt, closer.isKind]) (by rw [closer.isKind]; rfl)
    have inner : Scans (haltsAt .kwEndIf) tokens stop (pos + 1) 0 (pos + 1 + body.size) 0 :=
      body.scans halts holds.2 (by omega)
    have all := Halts.word (by omega) holds.1 (by rw [word.isKind]; rfl)
      (by simp [haltsAt, word.isKind]) (.of_scans inner isMarker_of_dividesChoice later)
    rw [word.isKind] at all
    exact all

/-- A scan of clauses halts at the closing word behind them. -/
theorem Clauses.halts {kind : TokenKind} {closer : Word kind} (closes : closesBlock kind = true) :
    ∀ (clauses : Clauses) {pos : Nat}, Holds tokens pos clauses.render →
    pos + clauses.size < stop → tokens[pos + clauses.size]? = some closer.token →
    Halts (haltsAt kind) dividesSelection tokens stop pos (pos + clauses.size)
      (clauses.markers pos)
  | .done, pos, _, inside, closed => by
    refine .here inside closed (by simp [haltsAt, closer.isKind]) ?_
    rw [closer.isKind]
    cases kind <;> first | rfl | cases closes
  | .case word header body rest, pos, holds, inside, closed => by
    have halts := closes_of_haltsAt kind closes
    simp only [holds_case, Clauses.size_case] at holds inside closed ⊢
    obtain ⟨opened, header', body', rest'⟩ := holds
    have later := rest.halts closes rest' (by omega) (by rw [← closed]; congr 1; omega)
    have inner : Scans (haltsAt kind) tokens stop (pos + 1) 0
        (pos + 1 + header.size + body.size) 0 :=
      .trans (.phrase halts header' (by omega)) (body.scans halts body' (by omega))
    have goesOn : haltsAt kind word.token = false :=
      halt_eq_false halts (by rw [word.isKind]; rfl)
    have all := Halts.word (by omega) opened (by rw [word.isKind]; rfl) goesOn
      (.of_scans inner isMarker_of_dividesSelection later)
    rw [word.isKind] at all
    rw [show pos + (1 + header.size + body.size + rest.size) =
      pos + 1 + header.size + body.size + rest.size by omega]
    exact all
  | .otherwise word else' body rest, pos, holds, inside, closed => by
    have halts := closes_of_haltsAt kind closes
    simp only [holds_caseElse, Clauses.size_otherwise] at holds inside closed ⊢
    obtain ⟨opened, elsed, body', rest'⟩ := holds
    have later := rest.halts closes rest' (by omega) (by rw [← closed]; congr 1; omega)
    have inner : Scans (haltsAt kind) tokens stop (pos + 2) 0 (pos + 2 + body.size) 0 :=
      body.scans halts body' (by omega)
    have goesOnElse : haltsAt kind else'.token = false :=
      halt_eq_false halts (by rw [else'.isKind]; rfl)
    have behindElse := Halts.word (by omega) elsed (by rw [else'.isKind]; rfl) goesOnElse
      (.of_scans inner isMarker_of_dividesSelection later)
    rw [else'.isKind] at behindElse
    have goesOn : haltsAt kind word.token = false :=
      halt_eq_false halts (by rw [word.isKind]; rfl)
    have all := Halts.word (by omega) opened (by rw [word.isKind]; rfl) goesOn behindElse
    rw [word.isKind] at all
    rw [show pos + (2 + body.size + rest.size) = pos + 2 + body.size + rest.size by omega]
    exact all

/-- The branches that are found from the positions of their keywords are those of the tree. -/
theorem Branches.split_eq {window : Window} : ∀ (branches : Branches) {pos : Nat} (start : Nat)
    (condition : Option Window), Holds window.tokens pos branches.render →
    pos + branches.size < window.stop →
    Branch.split window (pos + branches.size) condition start (branches.markers pos) =
      .ok (⟨condition, .slice window.tokens start pos⟩ :: branches.parts window.tokens pos)
  | .done, pos, start, condition, _, _ => rfl
  | .elseIf word header then' body rest, pos, start, condition, holds, inside => by
    simp only [holds_elseIf, Branches.size_elseIf] at holds inside ⊢
    obtain ⟨opened, header', ended, _, rest'⟩ := holds
    have found : findThen window.tokens pos window.stop = some (pos + 1 + header.size) :=
      header.findThen_eq header' (by omega) ended
    have later := rest.split_eq (pos + 1 + header.size + 1)
      (some (.slice window.tokens (pos + 1) (pos + 1 + header.size))) rest' (by omega)
    rw [show pos + (1 + header.size + 1 + body.size + rest.size) =
      pos + 1 + header.size + 1 + body.size + rest.size by omega]
    simp only [Branches.markers, Branch.split, opened, word.isKind, if_true, found, later]
    rfl
  | .otherwise word body, pos, start, condition, holds, inside => by
    simp only [Branches.size_otherwise, Branches.markers, Branch.split, holds.1, word.isKind]
    rw [show pos + (1 + body.size) = pos + 1 + body.size by omega]
    rfl

/-- The choice over several lines that is found is that of the tree. -/
theorem choiceBranches_eq {window : Window} {opener : Token} {found : Nat} {body : Body}
    {branches : Branches} {closer : Word .kwEndIf}
    (body' : Holds window.tokens (found + 1) body.render)
    (branches' : Holds window.tokens (found + 1 + body.size) branches.render)
    (closed : window.tokens[found + 1 + body.size + branches.size]? = some closer.token)
    (inside : found + 1 + body.size + branches.size < window.stop) :
    choiceBranches window opener pos found =
      .ok (⟨some (.slice window.tokens (pos + 1) found),
          .slice window.tokens (found + 1) (found + 1 + body.size)⟩ ::
          branches.parts window.tokens (found + 1 + body.size),
        found + 1 + body.size + branches.size) := by
  have inner : Scans (haltsAt .kwEndIf) window.tokens window.stop (found + 1) 0
      (found + 1 + body.size) 0 :=
    body.scans (closes_of_haltsAt .kwEndIf rfl) body' (by omega)
  obtain ⟨halted, markers⟩ := Halts.of_scans inner isMarker_of_dividesChoice
    (branches.halts branches' inside closed) none (.nothing _)
  have split := branches.split_eq (found + 1) (some (.slice window.tokens (pos + 1) found))
    branches' inside
  unfold choiceBranches scanOutermost
  simp only [show (fun token : Token => token.kind == .kwEndIf) = haltsAt .kwEndIf from rfl,
    show (fun kind : TokenKind => kind == .kwElseIf || kind == .kwElse) = dividesChoice from rfl,
    halted, markers, split]
  rfl

/-- The first clause, or what follows the clauses, stands where the clauses begin. -/
theorem Clauses.head_markers (clauses : Clauses) (pos : Nat) :
    (clauses.markers pos).head?.getD (pos + clauses.size) = pos := by
  cases clauses <;> rfl

/-- A clause with a header is not the one that always fits. -/
theorem Clauses.not_hasElse {word : Word .kwCase} {header : Phrase} {body : Body} {rest : Clauses}
    (holds : Holds tokens pos (Clauses.case word header body rest).render) :
    hasKind tokens (pos + 1) .kwElse = false := by
  obtain ⟨ending, lines⟩ := body
  obtain ⟨_, header', body', _⟩ := holds_case.mp holds
  have line : Holds tokens (pos + 1) (header.tokens ++ [ending.token]) :=
    holds_append.mpr ⟨header', body'.1, trivial⟩
  obtain ⟨token, member, stored⟩ := line.mem_at (Nat.le_refl _) (by simp)
  have unmarked : isMarker token.kind = false := by
    rcases List.mem_append.mp member with member | member
    · exact (header.inert token member).2
    · rw [List.mem_singleton.mp member]
      exact ending.inert.2
  rw [hasKind_eq stored, beq_eq_false_iff_ne]
  intro isElse
  simp [isElse, isMarker] at unmarked

/-- The clauses that are found from the positions of their keywords are those of the tree. -/
theorem Clauses.clausesAt_eq : ∀ (clauses : Clauses) {pos : Nat},
    Holds tokens pos clauses.render →
    clausesAt tokens (pos + clauses.size) (clauses.markers pos) = clauses.parts tokens pos
  | .done, pos, _ => rfl
  | .case word header body rest, pos, holds => by
    have notElse := Clauses.not_hasElse holds
    simp only [holds_case, Clauses.size_case] at holds ⊢
    obtain ⟨_, header', body', rest'⟩ := holds
    have later := rest.clausesAt_eq rest'
    have next := rest.head_markers (pos + 1 + header.size + body.size)
    rw [show pos + (1 + header.size + body.size + rest.size) =
      pos + 1 + header.size + body.size + rest.size by omega]
    obtain ⟨ending, lines⟩ := body
    have headerEnd : statementEnd tokens (pos + 1)
        (pos + 1 + header.size + (Body.mk ending lines).size + rest.size) =
          pos + 1 + header.size :=
      header.statementEnd_eq header' (by rw [Body.size_mk]; omega) (Nat.le_refl _) (by omega)
        body'.1
    simp only [Clauses.markers, clausesAt, headerEnd, next, notElse, later]
    rfl
  | .otherwise word else' body rest, pos, holds => by
    simp only [holds_caseElse, Clauses.size_otherwise] at holds ⊢
    obtain ⟨_, elsed, body', rest'⟩ := holds
    have later := rest.clausesAt_eq rest'
    have next := rest.head_markers (pos + 2 + body.size)
    rw [show pos + (2 + body.size + rest.size) = pos + 2 + body.size + rest.size by omega]
    obtain ⟨ending, lines⟩ := body
    have headerEnd : statementEnd tokens (pos + 1)
        (pos + 2 + (Body.mk ending lines).size + rest.size) = pos + 2 := by
      have holds : Holds tokens (pos + 1) [else'.token] := ⟨elsed, trivial⟩
      refine holds.seek_eq (by rw [Body.size_mk]; simp; omega) (Nat.le_refl _) (by simp)
        (fun token member => ?_) body'.1 ending.endsLine
      rw [List.mem_singleton.mp member, Token.endsLine, else'.isKind]
      rfl
    have isElse : hasKind tokens (pos + 1) .kwElse = true := by
      rw [hasKind_eq elsed, else'.isKind]
      rfl
    simp only [Clauses.markers, clausesAt, headerEnd, next, isElse, later]
    rfl

section

variable {window : Window} {opener : Token} {kind : TokenKind} {closer : Word kind} {name : String}
  {phrase : Phrase} {ending : Ending} {selection : Clauses} {start : Nat}

/-- Clauses behind a line that begins with a phrase are written at a position. -/
structure ClausesPlaced (window : Window) (pos : Nat) (phrase : Phrase) (ending : Ending)
    (selection : Clauses) (closer : Word kind) : Prop where
  /-- The phrase is there. -/
  header : Holds window.tokens pos phrase.tokens
  /-- The end of its line is there. -/
  ended : window.tokens[pos + phrase.size]? = some ending.token
  /-- The clauses are there. -/
  clauses : Holds window.tokens (pos + phrase.size + 1) selection.render
  /-- The closing word is there. -/
  closed : window.tokens[pos + phrase.size + 1 + selection.size]? = some closer.token
  /-- All of that stands before the stop. -/
  inside : pos + phrase.size + 1 + selection.size < window.stop
  /-- The closing word closes a block. -/
  closes : closesBlock kind = true

namespace ClausesPlaced

variable (placed : ClausesPlaced window pos phrase ending selection closer)
include placed

/-- A scan from inside the phrase finds the clauses. -/
theorem halts (from' : pos ≤ start) (before : start ≤ pos + phrase.size) :
    Halts (haltsAt kind) dividesSelection window.tokens window.stop start
      (pos + phrase.size + 1 + selection.size) (selection.markers (pos + phrase.size + 1)) := by
  have inside := placed.inside
  have words := closes_of_haltsAt kind placed.closes
  have size : phrase.size = phrase.tokens.length := rfl
  have rest : Holds window.tokens start (phrase.tokens.drop (start - pos)) := by
    have dropped := placed.header.drop (show start - pos ≤ phrase.tokens.length by omega)
    rwa [show pos + (start - pos) = start by omega] at dropped
  have length : start + (phrase.tokens.drop (start - pos)).length = pos + phrase.size := by
    rw [List.length_drop]
    omega
  have passed : Scans (haltsAt kind) window.tokens window.stop start 0 (pos + phrase.size) 0 := by
    rw [← length]
    exact .list words rest (by omega) fun token member =>
      phrase.inert token (List.mem_of_mem_drop member)
  have ended : Scans (haltsAt kind) window.tokens window.stop (pos + phrase.size) 0
      (pos + phrase.size + 1) 0 := .one words (by omega) placed.ended ending.inert
  exact .of_scans (passed.trans ended) isMarker_of_dividesSelection
    (selection.halts placed.closes placed.clauses inside placed.closed)

/-- The clauses of a selection whose header was read as a whole are those of the tree. -/
theorem clauses_eq :
    LineScript.clauses window opener (pos + phrase.size) kind name =
      .ok (selection.parts window.tokens (pos + phrase.size + 1),
        pos + phrase.size + 1 + selection.size) := by
  have inside := placed.inside
  obtain ⟨halted, markers⟩ := placed.halts (Nat.le_add_right _ _) (Nat.le_refl _) none (.nothing _)
  have first := selection.head_markers (pos + phrase.size + 1)
  have stray : seek (fun token => !token.endsLine) window.tokens (pos + phrase.size)
      (pos + phrase.size + 1) = pos + phrase.size + 1 := by
    refine seek_eq (Nat.le_succ _) (Nat.le_refl _) (fun at' from' before => ?_) (.inl rfl)
    obtain rfl : at' = pos + phrase.size := by omega
    exact ⟨ending.token, placed.ended, by simp [ending.endsLine]⟩
  unfold LineScript.clauses scanOutermost
  simp only [show (fun token : Token => token.kind == kind) = haltsAt kind from rfl,
    show (fun kind : TokenKind => kind == .kwCase) = dividesSelection from rfl, halted, markers,
    first, stray, selection.clausesAt_eq placed.clauses, Nat.lt_irrefl, if_false]

/-- The clauses of a selection whose header was not read as a whole are not looked at. -/
theorem clauses_error {token : Token} (from' : pos ≤ start) (before : start < pos + phrase.size)
    (stored : window.tokens[start]? = some token) :
    LineScript.clauses window opener start kind name =
      .error (.running (.beforeCase token.display) token.line []) := by
  obtain ⟨halted, markers⟩ := placed.halts from' (Nat.le_of_lt before) none (.nothing _)
  have first := selection.head_markers (pos + phrase.size + 1)
  obtain ⟨other, member, storedOther⟩ := placed.header.mem_at from' before
  rw [stored] at storedOther
  cases storedOther
  have plain := Token.endsLine_of_isPlain (phrase.plain token member)
  have stray : seek (fun token => !token.endsLine) window.tokens start
      (pos + phrase.size + 1) = start :=
    seek_eq (Nat.le_refl _) (by omega) (fun at' from' before => absurd before (by omega))
      (.inr ⟨token, stored, by simp [plain]⟩)
  have earlier : start < pos + phrase.size + 1 := by omega
  unfold LineScript.clauses scanOutermost
  simp only [show (fun token : Token => token.kind == kind) = haltsAt kind from rfl,
    show (fun kind : TokenKind => kind == .kwCase) = dividesSelection from rfl, halted, markers,
    first, stray, earlier, if_true, stored]

end ClausesPlaced

end

end LineScript.Structured
