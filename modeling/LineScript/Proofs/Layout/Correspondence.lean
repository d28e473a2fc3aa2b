import LineScript.Proofs.Blocks.Pairing

/-!
# Searches in tokens that correspond

What is looked for in the layout of a script depends on how each token looks, and mostly on its kind
alone. Where another run shows tokens that look the same, some positions further on and up to a bound
(`Layout.Agree`), every search of the bounded part finds what corresponds.
-/

namespace LineScript.Layout

/-- What a scan met, some positions further on. -/
def Visit.shifted (shift : Nat) (visit : Visit) : Visit :=
  ⟨visit.visited.map (shift + ·), visit.halted.map (shift + ·)⟩

/-- What is visited before a shifted visit is shifted with it. -/
theorem Visit.shifted_after (shift : Nat) (visited : List Nat) (visit : Visit) :
    (visit.after visited).shifted shift =
      (visit.shifted shift).after (visited.map (shift + ·)) := by
  simp [shifted, after]

/-- Up to a bound the tokens look the same as others that stand further on. -/
def Agree {β : Type} (look : Token → β) (tokens others : TokenBlock) (shift bound : Nat) : Prop :=
  ∀ pos, pos < bound → others[shift + pos]?.map look = tokens[pos]?.map look

namespace Agree

variable {β : Type} {tokens others : TokenBlock} {shift bound pos stop : Nat}

/-- Where one token stands, the other does too, and they look the same. -/
theorem cases {look : Token → β} (agree : Agree look tokens others shift bound)
    (inside : pos < bound) :
    tokens[pos]? = none ∧ others[shift + pos]? = none ∨
      ∃ token other, tokens[pos]? = some token ∧ others[shift + pos]? = some other ∧
        look other = look token := by
  have here := agree pos inside
  cases stored : tokens[pos]? with
  | none =>
    rw [stored] at here
    exact .inl ⟨rfl, Option.map_eq_none_iff.mp here⟩
  | some token =>
    rw [stored] at here
    obtain ⟨other, stored', same⟩ := Option.map_eq_some_iff.mp here
    exact .inr ⟨token, other, rfl, stored', same⟩

/-- A search finds places that correspond. -/
theorem seek {accept : Token → Bool} (agree : Agree accept tokens others shift bound)
    (le : stop ≤ bound) (pos : Nat) :
    Layout.seek accept others (shift + pos) (shift + stop) =
      shift + Layout.seek accept tokens pos stop := by
  fun_induction Layout.seek accept tokens pos stop with
  | case1 pos before token stored accepted =>
    obtain ⟨missing, _⟩ | ⟨_, other, stored', there, same⟩ := agree.cases (show pos < bound by omega)
    · simp [missing] at stored
    · obtain rfl := Option.some.inj (stored.symm.trans stored')
      rw [Layout.seek, if_pos (by omega), there]
      simp [same, accepted]
  | case2 pos before token stored rejected ih =>
    obtain ⟨missing, _⟩ | ⟨_, other, stored', there, same⟩ := agree.cases (show pos < bound by omega)
    · simp [missing] at stored
    · obtain rfl := Option.some.inj (stored.symm.trans stored')
      rw [Layout.seek, if_pos (by omega), there]
      simp only [same, rejected]
      exact ih
  | case3 pos before missing =>
    obtain ⟨_, there⟩ | ⟨_, _, stored, _⟩ := agree.cases (show pos < bound by omega)
    · rw [Layout.seek, if_pos (by omega), there]
    · simp [missing] at stored
  | case4 pos beyond => rw [Layout.seek, if_neg (by omega)]

/-! ### Tokens of the same kinds -/

section Kinds

variable (kinds : Agree Token.kind tokens others shift bound)
include kinds

/-- What only asks for kinds looks the same on tokens of the same kinds. -/
theorem of_kinds (look : Token → β)
    (blind : ∀ token other : Token, other.kind = token.kind → look other = look token) :
    Agree look tokens others shift bound := fun pos inside => by
  obtain ⟨here, there⟩ | ⟨token, other, here, there, same⟩ := kinds.cases inside
  · rw [here, there]
  · rw [here, there]
    exact congrArg some (blind token other same)

/-- Tokens at corresponding positions have the same kind. -/
theorem hasKind (inside : pos < bound) (kind : TokenKind) :
    Layout.hasKind others (shift + pos) kind = Layout.hasKind tokens pos kind := by
  unfold Layout.hasKind
  obtain ⟨here, there⟩ | ⟨token, other, here, there, same⟩ := kinds.cases inside
  · rw [here, there]
  · rw [here, there]
    dsimp only
    rw [same]

variable (le : stop ≤ bound)
include le

/-- Lines end at places that correspond. -/
theorem lineEnd (pos : Nat) : Layout.lineEnd others (shift + pos) (shift + stop) =
    shift + Layout.lineEnd tokens pos stop :=
  (kinds.of_kinds _ fun _ _ kind => by rw [kind]).seek le pos

/-- Statements end at places that correspond. -/
theorem statementEnd (pos : Nat) : Layout.statementEnd others (shift + pos) (shift + stop) =
    shift + Layout.statementEnd tokens pos stop :=
  (kinds.of_kinds _ fun _ _ kind => by rw [Token.endsLine, Token.endsLine, kind]).seek le pos

/-- Conditions end at places that correspond. -/
theorem findThen (pos : Nat) : Layout.findThen others (shift + pos) (shift + stop) =
    (Layout.findThen tokens pos stop).map (shift + ·) := by
  have found := (kinds.of_kinds (fun token => token.kind == .kwThen || token.kind == .eol)
    fun _ _ kind => by rw [kind]).seek le (pos + 1)
  rw [← Nat.add_assoc] at found
  unfold Layout.findThen
  dsimp only
  rw [found]
  generalize Layout.seek (fun token => token.kind == .kwThen || token.kind == .eol) tokens (pos + 1)
    stop = last
  by_cases inside : last < stop
  · rw [if_pos inside, if_pos (by omega)]
    obtain ⟨here, there⟩ | ⟨token, other, here, there, same⟩ :=
      kinds.cases (show last < bound by omega)
    · rw [here, there]
      rfl
    · rw [here, there]
      dsimp only
      rw [same]
      split <;> rfl
  · rw [if_neg inside, if_neg (by omega)]
    rfl

/-- The same choices stand on one line. -/
theorem isSingleLineIf (pos : Nat) : Layout.isSingleLineIf others (shift + pos) (shift + stop) =
    Layout.isSingleLineIf tokens pos stop := by
  unfold Layout.isSingleLineIf
  rw [kinds.findThen le]
  cases Layout.findThen tokens pos stop with
  | none => rfl
  | some found =>
    dsimp only [Option.map_some]
    by_cases inside : found + 1 < stop
    · rw [if_pos inside, if_pos (by omega), Nat.add_assoc]
      obtain ⟨here, there⟩ | ⟨token, other, here, there, same⟩ :=
        kinds.cases (show found + 1 < bound by omega)
      · rw [here, there]
      · rw [here, there]
        dsimp only
        rw [Token.endsLine, Token.endsLine, same]
    · rw [if_neg inside, if_neg (by omega)]

/-- The closing words of choices on one line stand at places that correspond. -/
theorem trailingEndIf (inside : pos < bound) :
    Layout.trailingEndIf others (shift + pos) (shift + stop) =
      (Layout.trailingEndIf tokens pos stop).map (shift + ·) := by
  unfold Layout.trailingEndIf
  dsimp only
  rw [kinds.hasKind inside, kinds.isSingleLineIf le, kinds.statementEnd le]
  split
  · by_cases behind : pos + 1 < Layout.statementEnd tokens pos stop
    · have ending : Layout.statementEnd tokens pos stop ≤ bound := by
        by_cases before : pos ≤ stop
        · exact Nat.le_trans (Layout.seek_le _ _ before) le
        · rw [Layout.statementEnd, Layout.seek, if_neg (by omega)]
          exact Nat.le_of_lt inside
      rw [show shift + Layout.statementEnd tokens pos stop - 1 =
        shift + (Layout.statementEnd tokens pos stop - 1) by omega, kinds.hasKind (by omega)]
      have behind' : shift + pos + 1 < shift + Layout.statementEnd tokens pos stop := by omega
      simp only [behind, behind', decide_true, Bool.true_and]
      split <;> rfl
    · have behind' : ¬ shift + pos + 1 < shift + Layout.statementEnd tokens pos stop := by omega
      simp [behind, behind']
  · rfl

/-- Blocks open at places that correspond. -/
theorem opensBlock (inside : pos < bound) :
    Layout.opensBlock others (shift + pos) (shift + stop) = Layout.opensBlock tokens pos stop := by
  unfold Layout.opensBlock
  rw [kinds.isSingleLineIf le]
  obtain ⟨here, there⟩ | ⟨token, other, here, there, same⟩ := kinds.cases inside
  · rw [here, there]
  · rw [here, there]
    dsimp only
    rw [same]

/-- A scan visits places that correspond. -/
theorem scanFrom {halt : Token → Bool} (halts : Agree halt tokens others shift bound)
    (pos depth : Nat) (skip : Option Nat) :
    Layout.scanFrom halt others (shift + stop) (shift + pos) depth (skip.map (shift + ·)) =
      (Layout.scanFrom halt tokens stop pos depth skip).shifted shift := by
  by_cases inside : pos < stop
  · obtain ⟨here, there⟩ | ⟨token, other, here, there, kind⟩ :=
      kinds.cases (show pos < bound by omega)
    · rw [scanFrom_missing here, scanFrom_missing there]
      rfl
    · have inside' : shift + pos < shift + stop := by omega
      have same : halt other = halt token := by
        have looked := halts pos (by omega)
        rw [here, there] at looked
        exact Option.some.inj looked
      by_cases left : skip = some pos
      · subst left
        rw [scanFrom_skip inside here, Option.map_some, scanFrom_skip inside' there]
        exact scanFrom halts (pos + 1) depth (some pos)
      have live' : skip.map (shift + ·) ≠ some (shift + pos) := by
        cases skip with
        | none => simp
        | some last =>
          have apart : last ≠ pos := fun same => left (by rw [same])
          simpa using apart
      by_cases stops : depth = 0 ∧ halt token = true
      · obtain ⟨rfl, stops⟩ := stops
        rw [scanFrom_halt inside here left stops,
          scanFrom_halt inside' there live' (same.trans stops)]
        rfl
      · have goesOn : depth = 0 → halt token = false := fun outermost =>
          Bool.eq_false_iff.mpr fun accepted => stops ⟨outermost, accepted⟩
        have deep : depthAfter others (shift + stop) (shift + pos) other depth =
            depthAfter tokens stop pos token depth := by
          unfold depthAfter
          rw [kinds.opensBlock le (by omega), kind]
        rw [scanFrom_advance inside here left goesOn,
          scanFrom_advance inside' there live' fun outermost => same.trans (goesOn outermost), deep,
          kinds.trailingEndIf le (by omega), ← Option.map_or, Nat.add_assoc,
          scanFrom halts (pos + 1), Visit.shifted_after]
        split <;> rfl
  · rw [scanFrom_beyond inside, scanFrom_beyond (by omega)]
    rfl
termination_by stop - pos

end Kinds

end Agree

/-- The other tokens are of the same kinds, one by one. -/
def SameKinds (tokens other : TokenBlock) : Prop :=
  ∀ pos : Nat, other[pos]?.map Token.kind = tokens[pos]?.map Token.kind

namespace SameKinds

variable {tokens other : TokenBlock} (same : SameKinds tokens other) (pos stop : Nat)
include same

/-- Tokens of the same kinds correspond where they stand, up to any bound. -/
theorem agree (bound : Nat) : Agree Token.kind tokens other 0 bound := fun pos _ => by
  rw [Nat.zero_add]
  exact same pos

/-- Two windows of the same kinds have the same kind at every position. -/
theorem hasKind (kind : TokenKind) :
    Layout.hasKind other pos kind = Layout.hasKind tokens pos kind := by
  simpa using (same.agree (pos + 1)).hasKind (Nat.lt_succ_self pos) kind

/-- The ends of headers are found alike in two windows of the same kinds. -/
theorem findThen : Layout.findThen other pos stop = Layout.findThen tokens pos stop := by
  simpa using (same.agree stop).findThen (Nat.le_refl stop) pos

/-- Single-line conditionals are recognised alike in two windows of the same kinds. -/
theorem isSingleLineIf :
    Layout.isSingleLineIf other pos stop = Layout.isSingleLineIf tokens pos stop := by
  simpa using (same.agree stop).isSingleLineIf (Nat.le_refl stop) pos

/-- Trailing EndIfs are found alike in two windows of the same kinds. -/
theorem trailingEndIf :
    Layout.trailingEndIf other pos stop = Layout.trailingEndIf tokens pos stop := by
  simpa using (same.agree (max stop (pos + 1))).trailingEndIf (Nat.le_max_left _ _)
    (show pos < _ by omega)

end SameKinds

end LineScript.Layout
