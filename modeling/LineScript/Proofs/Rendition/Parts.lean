import LineScript.Interpreter.Selection
import LineScript.Proofs.Rendition.Tokens
import LineScript.Proofs.Spelling.Outcome

/-!
# Renditions of blocks

The branches of a choice and the clauses of a selection are found in two windows that show each other at
places that correspond, and these parts show each other again. Where a closing word is missing, both
searches end with faults that tell as much.
-/

namespace LineScript

variable {respells named : Prop} {shift : Nat}

/-- The other fault is the same or, where names may be spelled anew, tells as much. -/
def Fault.Renders (respells : Prop) (fault other : Fault) : Prop :=
  other = fault ∨ respells ∧ fault.Alike other

/-- Faults of a running script on one line. -/
theorem Fault.Renders.running {cause other : RunCause} (renders : cause.Renders respells other)
    (line : Nat) : (Fault.running cause line []).Renders respells (.running other line []) := by
  rcases renders with rfl | ⟨may, kind⟩
  · exact .inl rfl
  · exact .inr ⟨may, .running line [] [] kind⟩

/-- The fault for a missing closing word tells as much about the word that opened the block. -/
theorem closerFault_renders {opener other : Token} (same : opener.Renders respells named other)
    (closer : String) :
    (closerFault opener closer).Renders respells (closerFault other closer) := by
  unfold closerFault
  rw [same.line]
  exact .running (same.cause (fun token => .closerMissing token.lexeme closer)
    fun _ _ => rfl) _

/-- Both outcomes are results that agree, or reasons to stop that do. -/
inductive EndedAlike {ε α β : Type} (stops : ε → ε → Prop) (agree : α → β → Prop) :
    Except ε α → Except ε β → Prop where
  /-- Both returned. -/
  | ok {value : α} {other : β} (held : agree value other) :
      EndedAlike stops agree (.ok value) (.ok other)
  /-- Both stopped. -/
  | error {stop other : ε} (alike : stops stop other) :
      EndedAlike stops agree (.error stop) (.error other)

/-- Outcomes of one computation after another. -/
theorem EndedAlike.bind {ε α β γ δ : Type} {stops : ε → ε → Prop} {agree : α → β → Prop}
    {later : γ → δ → Prop} {left : Except ε α} {right : Except ε β} {next : α → Except ε γ}
    {other : β → Except ε δ} (first : EndedAlike stops agree left right)
    (rest : ∀ value result, agree value result →
      EndedAlike stops later (next value) (other result)) :
    EndedAlike stops later (left >>= next) (right >>= other) := by
  cases first with
  | ok held => exact rest _ _ held
  | error alike => exact .error alike

/-- The other branch is the branch in another place. -/
structure Branch.Renders (respells : Prop) (shift : Nat) (branch other : Branch) : Prop where
  /-- It has a condition if the branch has one, and the same. -/
  condition : Option.Rel (Window.Copies respells shift) branch.condition other.condition
  /-- It runs the same. -/
  body : branch.body.Copies respells shift other.body

/-- The other clause is the clause in another place. -/
structure Clause.Renders (respells : Prop) (shift : Nat) (clause other : Clause) : Prop where
  /-- Its values or its condition are the same. -/
  header : clause.header.Copies respells shift other.header
  /-- It runs the same. -/
  body : clause.body.Copies respells shift other.body
  /-- It is the last resort if the clause is. -/
  isElse : other.isElse = clause.isElse

/-- Accepted positions stay below a bound of all positions. -/
theorem forall_mem_positionsOf (tokens : TokenBlock) (accept : TokenKind → Bool)
    {positions : List Nat} {bound : Nat} (inside : ∀ pos ∈ positions, pos < bound) :
    ∀ pos ∈ positionsOf tokens accept positions, pos < bound :=
  fun pos member => inside pos (List.mem_filter.mp member).1

namespace Window.Copies

variable {near far : Window} (copies : near.Copies respells shift far) {close pos start : Nat}
include copies

/-! ### Searches -/

/-- Lines end at places that correspond. -/
theorem lineEnd (pos : Nat) : Layout.lineEnd far.tokens (shift + pos) far.stop =
    shift + Layout.lineEnd near.tokens pos near.stop :=
  copies.stop ▸ copies.kinds.lineEnd (Nat.le_refl _) pos

/-- Statements end at places that correspond. -/
theorem statementEnd (pos : Nat) : Layout.statementEnd far.tokens (shift + pos) far.stop =
    shift + Layout.statementEnd near.tokens pos near.stop :=
  copies.stop ▸ copies.kinds.statementEnd (Nat.le_refl _) pos

/-- Conditions end at places that correspond. -/
theorem findThen (pos : Nat) : Layout.findThen far.tokens (shift + pos) far.stop =
    (Layout.findThen near.tokens pos near.stop).map (shift + ·) :=
  copies.stop ▸ copies.kinds.findThen (Nat.le_refl _) pos

/-- The same choices stand on one line. -/
theorem isSingleLineIf (pos : Nat) : Layout.isSingleLineIf far.tokens (shift + pos) far.stop =
    Layout.isSingleLineIf near.tokens pos near.stop :=
  copies.stop ▸ copies.kinds.isSingleLineIf (Nat.le_refl _) pos

/-- The closing words of choices on one line stand at places that correspond. -/
theorem trailingEndIf (inside : pos < near.stop) :
    Layout.trailingEndIf far.tokens (shift + pos) far.stop =
      (Layout.trailingEndIf near.tokens pos near.stop).map (shift + ·) :=
  copies.stop ▸ copies.kinds.trailingEndIf (Nat.le_refl _) inside

/-- A scan that asks for kinds visits places that correspond. -/
theorem scanOutermost (accept : TokenKind → Bool) (pos : Nat) :
    Layout.scanOutermost far.tokens (shift + pos) far.stop (fun token => accept token.kind) =
      (Layout.scanOutermost near.tokens pos near.stop (fun token => accept token.kind)).shifted
        shift := by
  rw [copies.stop]
  exact copies.kinds.scanFrom (Nat.le_refl _)
    (copies.kinds.of_kinds _ fun _ _ kind => by rw [kind]) pos 0 none

/-- The accepted positions are those that correspond. -/
theorem positionsOf (accept : TokenKind → Bool) {positions : List Nat}
    (inside : ∀ pos ∈ positions, pos < near.stop) :
    LineScript.positionsOf far.tokens accept (positions.map (shift + ·)) =
      (LineScript.positionsOf near.tokens accept positions).map (shift + ·) := by
  unfold LineScript.positionsOf
  rw [List.filter_map]
  congr 1
  refine List.filter_congr fun pos member => ?_
  rw [Function.comp_apply]
  rcases copies.stored pos (inside pos member) with
    ⟨here, there⟩ | ⟨token, other, here, there, same⟩
  · rw [here, there]
  · rw [here, there]
    dsimp only
    rw [same.kind]

/-! ### Choices -/

/-- A choice is split into branches that show each other. -/
theorem split (before : close ≤ near.stop) {markers : List Nat}
    (inside : ∀ marker ∈ markers, marker < near.stop) {condition other : Option Window}
    (conditions : Option.Rel (Window.Copies respells shift) condition other) (start : Nat) :
    EndedAlike (Fault.Renders respells) (List.Forall₂ (Branch.Renders respells shift))
      (Branch.split near close condition start markers)
      (Branch.split far (shift + close) other (shift + start) (markers.map (shift + ·))) := by
  induction markers generalizing condition other start with
  | nil => exact .ok (.cons ⟨conditions, copies.slice start before⟩ .nil)
  | cons marker markers ih =>
    have here := inside marker List.mem_cons_self
    have later {condition other : Option Window}
        (conditions : Option.Rel (Window.Copies respells shift) condition other) (start : Nat) :=
      ih (fun other member => inside other (List.mem_cons_of_mem _ member)) conditions start
    have head : Branch.Renders respells shift ⟨condition, .slice near.tokens start marker⟩
        ⟨other, .slice far.tokens (shift + start) (shift + marker)⟩ :=
      ⟨conditions, copies.slice start (Nat.le_of_lt here)⟩
    rw [List.map_cons, Branch.split, Branch.split]
    dsimp only
    rcases copies.stored marker here with
      ⟨missing, missing'⟩ | ⟨token, token', stored, stored', same⟩
    · rw [missing, missing']
      exact .ok (.cons head .nil)
    · rw [stored, stored']
      dsimp only
      rw [same.kind, copies.findThen]
      split
      · cases ends : Layout.findThen near.tokens marker near.stop with
        | none => exact .error (closerFault_renders same _)
        | some found =>
          have before := (Layout.findThen_eq_some.mp ends).2.1
          refine (later (.some (copies.slice (marker + 1) (Nat.le_of_lt before)))
            (found + 1)).bind fun branches others made => ?_
          exact .ok (.cons head made)
      · exact (later .none (marker + 1)).bind fun branches others made => .ok (.cons head made)

/-- The branches of a choice show each other. -/
theorem choiceBranches {opener other : Token} (same : opener.Renders respells named other)
    (pos : Nat) {found : Nat} (before : found ≤ near.stop) :
    EndedAlike (Fault.Renders respells)
      (fun parts others => List.Forall₂ (Branch.Renders respells shift) parts.1 others.1 ∧
        others.2 = shift + parts.2)
      (LineScript.choiceBranches near opener pos found)
      (LineScript.choiceBranches far other (shift + pos) (shift + found)) := by
  have visit := copies.scanOutermost (· == .kwEndIf) (found + 1)
  have within := Layout.scanFrom_within (fun token => token.kind == .kwEndIf)
    near.tokens near.stop (found + 1) 0 none
  unfold LineScript.choiceBranches
  rw [Nat.add_assoc, Nat.add_assoc, visit]
  unfold Layout.scanOutermost
  generalize Layout.scanFrom (fun token => token.kind == .kwEndIf) near.tokens near.stop
    (found + 1) 0 none = met at within ⊢
  obtain ⟨positions, _ | close⟩ := met
  · exact .error (closerFault_renders same _)
  · dsimp only [Layout.Visit.shifted, Option.map_some]
    rw [copies.positionsOf _ within.visited]
    refine (copies.split (Nat.le_of_lt (within.halted close rfl).1)
      (forall_mem_positionsOf _ _ within.visited) (.some (copies.slice (pos + 1) before))
      (found + 1)).bind fun branches others made => ?_
    exact .ok ⟨made, rfl⟩

/-! ### Selections -/

/-- The clauses between cases show each other. -/
theorem clausesAt {markers : List Nat} (before : close < near.stop)
    (inside : ∀ marker ∈ markers, marker < close) :
    List.Forall₂ (Clause.Renders respells shift) (LineScript.clausesAt near.tokens close markers)
      (LineScript.clausesAt far.tokens (shift + close) (markers.map (shift + ·))) := by
  induction markers with
  | nil => exact .nil
  | cons marker markers ih =>
    have here := inside marker List.mem_cons_self
    have ending : Layout.statementEnd near.tokens (marker + 1) close ≤ close :=
      Layout.seek_le _ _ here
    have next : markers.head?.getD close ≤ close := by
      cases markers with
      | nil => exact Nat.le_refl _
      | cons other markers =>
        exact Nat.le_of_lt (inside other (List.mem_cons_of_mem _ List.mem_cons_self))
    have moved : (markers.map (shift + ·)).head?.getD (shift + close) =
        shift + markers.head?.getD close := by
      cases markers <;> rfl
    have isElse : Layout.hasKind far.tokens (shift + (marker + 1)) .kwElse = _ :=
      copies.kinds.hasKind (show marker + 1 < near.stop by omega) .kwElse
    rw [List.map_cons, LineScript.clausesAt, LineScript.clausesAt, Nat.add_assoc,
      copies.kinds.statementEnd (Nat.le_of_lt before), isElse, moved]
    refine .cons ⟨copies.slice (marker + 1) (by omega), copies.slice _ (by omega), rfl⟩ ?_
    exact ih fun other member => inside other (List.mem_cons_of_mem _ member)

/-- The clauses of a selection show each other. -/
theorem clauses {opener other : Token} (same : opener.Renders respells named other) (start : Nat)
    {closer : TokenKind} (isOther : closer ≠ .kwCase) (name : String) :
    EndedAlike (Fault.Renders respells)
      (fun parts others => List.Forall₂ (Clause.Renders respells shift) parts.1 others.1 ∧
        others.2 = shift + parts.2)
      (LineScript.clauses near opener start closer name)
      (LineScript.clauses far other (shift + start) closer name) := by
  have visit := copies.scanOutermost (· == closer) start
  have within := Layout.scanFrom_within (fun token => token.kind == closer) near.tokens near.stop
    start 0 none
  unfold LineScript.clauses
  dsimp only
  rw [visit]
  unfold Layout.scanOutermost
  generalize Layout.scanFrom (fun token => token.kind == closer) near.tokens near.stop start 0 none
    = met at within ⊢
  obtain ⟨positions, _ | close⟩ := met
  · exact .error (closerFault_renders same _)
  obtain ⟨before, token, stored, isCloser⟩ := within.halted close rfl
  have inside : ∀ marker ∈ LineScript.positionsOf near.tokens (· == .kwCase) positions,
      marker < close := by
    intro marker member
    obtain ⟨visited, isCase⟩ := List.mem_filter.mp member
    refine Nat.lt_of_le_of_ne (within.last close rfl marker visited) ?_
    rintro rfl
    rw [stored] at isCase
    exact isOther ((eq_of_beq isCloser).symm.trans (eq_of_beq isCase))
  simp only [Layout.Visit.shifted, Option.map_some, copies.positionsOf _ within.visited]
  generalize LineScript.positionsOf near.tokens (· == .kwCase) positions = markers at inside ⊢
  have first : markers.head?.getD close ≤ close := by
    cases markers with
    | nil => exact Nat.le_refl _
    | cons marker markers => exact Nat.le_of_lt (inside marker List.mem_cons_self)
  have moved : (markers.map (shift + ·)).head?.getD (shift + close) =
      shift + markers.head?.getD close := by
    cases markers <;> rfl
  have sought := (copies.kinds.of_kinds (fun token => !token.endsLine) fun _ _ kind => by
    rw [Token.endsLine, Token.endsLine, kind]).seek
      (show markers.head?.getD close ≤ near.stop by omega) start
  rw [moved, sought]
  generalize Layout.seek (fun token => !token.endsLine) near.tokens start
    (markers.head?.getD close) = stray
  have made := copies.clausesAt before inside
  by_cases strays : stray < markers.head?.getD close
  · rw [if_pos strays, if_pos (by omega)]
    rcases copies.stored stray (by omega) with
      ⟨missing, missing'⟩ | ⟨token, token', here, there, same⟩
    · rw [missing, missing']
      exact .ok ⟨made, rfl⟩
    · rw [here, there]
      dsimp only
      rw [same.line]
      exact .error (.running (same.cause (fun token => .beforeCase token.display)
        fun _ _ => rfl) _)
  · rw [if_neg strays, if_neg (by omega)]
    exact .ok ⟨made, rfl⟩

end Window.Copies

end LineScript
