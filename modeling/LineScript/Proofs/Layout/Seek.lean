import LineScript.Interpreter.Engine

/-!
# Plain tokens and looking for a token

A plain token neither ends a line nor takes part in the structure of blocks. Looking through a
window for the end of a statement or of a block passes over plain tokens, and running a simple
statement reads nothing else (`Window.Passes`).
-/

namespace LineScript

/-- Kinds of tokens that neither end a line nor belong to the structure of blocks and functions. -/
def TokenKind.isPlain : TokenKind → Bool
  | eol | comment => false
  | kwIf | kwThen | kwElse | kwElseIf | kwEndIf => false
  | kwSwitch | kwEndSwitch | kwSelect | kwEndSelect | kwCase => false
  | kwWhile | kwWEnd | kwDo | kwUntil => false
  | kwFunc | kwEndFunc | kwWith | kwEndWith | kwVolatile => false
  | _ => true

/-- A plain kind is none of the others. -/
theorem TokenKind.beq_of_isPlain {kind other : TokenKind} (plain : kind.isPlain = true)
    (special : other.isPlain = false) : (kind == other) = false := by
  refine beq_false_of_ne ?_
  rintro rfl
  exact Bool.false_ne_true (special.symm.trans plain)

/-- No plain token ends a line. -/
theorem Token.endsLine_of_isPlain {token : Token} (plain : token.kind.isPlain) :
    token.endsLine = false := by
  rw [Token.endsLine, TokenKind.beq_of_isPlain plain rfl, TokenKind.beq_of_isPlain plain rfl]
  rfl

namespace Window

/-- Only plain tokens of the window stand from one position up to another. -/
structure Passes (window : Window) (first last : Nat) : Prop where
  /-- The positions are in order. -/
  le : first ≤ last
  /-- A plain token stands at every position between them. -/
  plain : ∀ pos, first ≤ pos → pos < last →
    ∃ token, window.token? pos = some token ∧ token.kind.isPlain

variable {window : Window} {first middle last pos : Nat} {token : Token}

/-- A token of a window stands in the run it is a window of, before the window's end. -/
theorem token?_eq_some :
    window.token? pos = some token ↔ pos < window.stop ∧ window.tokens[pos]? = some token := by
  unfold token?
  split
  · simp_all
  · simp only [reduceCtorEq, false_iff, not_and]
    omega

namespace Passes

/-- Every position passes to itself. -/
theorem refl (window : Window) (pos : Nat) : window.Passes pos pos :=
  ⟨Nat.le_refl pos, fun _ from' before => absurd before (by omega)⟩

/-- Passing on is transitive. -/
theorem trans (earlier : window.Passes first middle) (later : window.Passes middle last) :
    window.Passes first last := by
  refine ⟨Nat.le_trans earlier.le later.le, fun pos from' before => ?_⟩
  by_cases inFirst : pos < middle
  · exact earlier.plain pos from' inFirst
  · exact later.plain pos (by omega) before

/-- One plain token is passed over. -/
theorem one (found : window.token? pos = some token) (plain : token.kind.isPlain) :
    window.Passes pos (pos + 1) := by
  refine ⟨Nat.le_succ pos, fun at' from' before => ?_⟩
  obtain rfl : at' = pos := by omega
  exact ⟨token, found, plain⟩

/-- Plain tokens are passed over up to the end of a line at most. -/
theorem le_of_endsLine (passes : window.Passes first last) (from' : first ≤ pos)
    (ends : window.endsLine pos = true) : last ≤ pos := by
  refine Nat.le_of_not_lt fun beyond => ?_
  obtain ⟨token, found, plain⟩ := passes.plain pos from' beyond
  simp [endsLine, found, Token.endsLine_of_isPlain plain] at ends

end Passes

/-- A token of the kind stands at the position. -/
theorem exists_of_hasKind {kind : TokenKind} (has : window.hasKind pos kind = true) :
    ∃ token, window.token? pos = some token ∧ token.kind = kind := by
  unfold hasKind at has
  split at has
  · rename_i token found
    exact ⟨token, found, eq_of_beq has⟩
  · simp at has

/-- A token of a plain kind is passed over. -/
theorem passes_of_hasKind {kind : TokenKind} (has : window.hasKind pos kind = true)
    (plain : kind.isPlain) : window.Passes pos (pos + 1) := by
  obtain ⟨token, found, rfl⟩ := exists_of_hasKind has
  exact .one found plain

/-- An operator that a window has stands there. -/
theorem exists_of_hasOperator {operator : String} (has : window.hasOperator pos operator = true) :
    ∃ token, window.token? pos = some token ∧ token.kind = .operator := by
  unfold hasOperator at has
  split at has
  · rename_i token found
    refine ⟨token, found, ?_⟩
    simp_all [Token.isOperator]
  · simp at has

/-- An operator is passed over. -/
theorem passes_of_hasOperator {operator : String} (has : window.hasOperator pos operator = true) :
    window.Passes pos (pos + 1) := by
  obtain ⟨token, found, kind⟩ := exists_of_hasOperator has
  exact .one found (by rw [kind]; rfl)

end Window

/-!
## Looking for a token

What `Layout.seek` and the searches built on it find: the first accepted position, with nothing
accepted before it.
-/

namespace Layout

variable {accept : Token → Bool} {tokens : Array Token} {pos stop found : Nat} {token : Token}

/-- A search never halts before its start. -/
theorem le_seek (accept : Token → Bool) (tokens : Array Token) (pos stop : Nat) :
    pos ≤ seek accept tokens pos stop := by
  fun_induction seek accept tokens pos stop <;> omega

/-- A search never halts behind its stop. -/
theorem seek_le (accept : Token → Bool) (tokens : Array Token) {pos stop : Nat}
    (le : pos ≤ stop) : seek accept tokens pos stop ≤ stop := by
  fun_induction seek accept tokens pos stop <;> grind

/-- Every token that was passed over is there, and is not accepted. -/
theorem not_accept_of_lt_seek (from' : pos ≤ found) (before : found < seek accept tokens pos stop) :
    ∃ token, tokens[found]? = some token ∧ accept token = false := by
  fun_induction seek accept tokens pos stop with
  | case1 => omega
  | case2 pos _ token stored rejected ih =>
    by_cases here : found = pos
    · subst here
      exact ⟨token, stored, by simpa using rejected⟩
    · exact ih (by omega) before
  | case3 => omega
  | case4 => omega

/-- The token that was found is accepted. -/
theorem accept_seek (inside : seek accept tokens pos stop < stop)
    (stored : tokens[seek accept tokens pos stop]? = some token) : accept token = true := by
  fun_induction seek accept tokens pos stop with
  | case1 pos _ other found accepted =>
    rw [found] at stored
    cases stored
    exact accepted
  | case2 pos _ other found rejected ih => exact ih inside stored
  | case3 pos _ missing =>
    rw [missing] at stored
    cases stored
  | case4 => omega

/-- Nothing accepted stands before the position, and it is the stop or accepted itself. -/
theorem seek_eq (le : pos ≤ found) (inside : found ≤ stop)
    (passed : ∀ at', pos ≤ at' → at' < found →
      ∃ token, tokens[at']? = some token ∧ accept token = false)
    (ends : found = stop ∨ ∃ token, tokens[found]? = some token ∧ accept token = true) :
    seek accept tokens pos stop = found := by
  fun_induction seek accept tokens pos stop with
  | case1 pos before token stored accepted =>
    by_cases here : pos = found
    · exact here
    · obtain ⟨other, storedOther, rejected⟩ := passed pos (Nat.le_refl pos) (by omega)
      simp_all
  | case2 pos before token stored rejected ih =>
    have different : pos ≠ found := by
      rintro rfl
      rcases ends with rfl | ⟨other, storedOther, accepted⟩
      · omega
      · simp_all
    exact ih (by omega) fun at' from' => passed at' (by omega)
  | case3 pos before missing =>
    by_cases here : pos = found
    · exact here
    · obtain ⟨other, storedOther, _⟩ := passed pos (Nat.le_refl pos) (by omega)
      simp_all
  | case4 pos beyond => omega

/-- With a nearer stop, the search ends there at the latest. -/
theorem seek_cut {last : Nat} (le : pos ≤ last) (before : last ≤ stop) :
    seek accept tokens pos last = min (seek accept tokens pos stop) last := by
  fun_induction seek accept tokens pos stop with
  | case1 pos _ token stored accepted =>
    rw [seek]
    simp only [stored, accepted, if_true, ite_self]
    omega
  | case2 pos _ token stored rejected ih =>
    rw [seek]
    by_cases inside : pos < last
    · simp only [inside, stored, rejected, if_true]
      exact ih inside
    · rw [if_neg inside]
      have := le_seek accept tokens (pos + 1) stop
      omega
  | case3 pos _ missing =>
    rw [seek]
    simp only [missing, ite_self]
    omega
  | case4 pos beyond =>
    rw [seek, if_neg (by omega)]
    omega

/-- Up to the end of a search, a later start finds the same. -/
theorem seek_eq_of_le {later : Nat} (le : pos ≤ later)
    (before : later ≤ seek accept tokens pos stop) :
    seek accept tokens later stop = seek accept tokens pos stop := by
  fun_induction seek accept tokens pos stop with
  | case1 pos =>
    obtain rfl : later = pos := by omega
    rw [seek]
    simp_all
  | case2 pos _ _ _ _ ih =>
    by_cases here : pos = later
    · subst here
      rw [seek]
      simp_all
    · exact ih (by omega) before
  | case3 pos =>
    obtain rfl : later = pos := by omega
    rw [seek]
    simp_all
  | case4 pos beyond =>
    obtain rfl : later = pos := by omega
    rw [seek, if_neg beyond]

/-- A search that starts later ends no earlier. -/
theorem seek_mono {later : Nat} (le : pos ≤ later) :
    seek accept tokens pos stop ≤ seek accept tokens later stop := by
  by_cases before : later ≤ seek accept tokens pos stop
  · exact Nat.le_of_eq (seek_eq_of_le le before).symm
  · have := le_seek accept tokens later stop
    omega

/-- A search that accepts more ends no later. -/
theorem seek_le_seek {wider : Token → Bool} (wide : ∀ token, accept token = true → wider token = true)
    (tokens : Array Token) (pos stop : Nat) :
    seek wider tokens pos stop ≤ seek accept tokens pos stop := by
  fun_induction seek accept tokens pos stop with
  | case1 pos _ token stored accepted =>
    rw [seek]
    simp_all
  | case2 pos _ token stored _ ih =>
    rw [seek]
    have := le_seek accept tokens (pos + 1) stop
    simp only [stored]
    split
    · split
      · omega
      · exact ih
    · omega
  | case3 pos _ missing =>
    rw [seek]
    simp_all
  | case4 pos beyond =>
    have same : seek wider tokens pos stop = pos := by rw [seek, if_neg beyond]
    exact Nat.le_of_eq same

/-- A scan only goes forward. -/
theorem le_scanFrom (halt : Token → Bool) (tokens : Array Token) (stop pos depth : Nat)
    (skip : Option Nat) :
    (∀ at' ∈ (scanFrom halt tokens stop pos depth skip).visited, pos ≤ at') ∧
      ∀ at' ∈ (scanFrom halt tokens stop pos depth skip).halted, pos ≤ at' := by
  fun_induction scanFrom halt tokens stop pos depth skip <;> grind

end Layout

end LineScript
