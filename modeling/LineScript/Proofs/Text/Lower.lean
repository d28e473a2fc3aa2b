import LineScript.Text.Case

/-!
# The case of letters

Names are compared in small letters. Two texts that differ only in the case of letters of the basic
range have the same small form: such a letter is cased whichever form it has, so not even the final
form of a sigma tells the texts apart.
-/

namespace LineScript

namespace Text

/-- The texts differ at most in the case of letters of the basic range. -/
def SameLetters (left right : String) : Prop :=
  left.toList.map Char.toLower = right.toList.map Char.toLower

/-- What the rules of case ask about a character. -/
structure SameCase (left right : Char) : Prop where
  /-- Both are looked through, or neither is. -/
  ignorable : isCaseIgnorable left = isCaseIgnorable right
  /-- Both take part in case, or neither does. -/
  cased : isCased left = isCased right
  /-- Both are the capital sigma, or neither is. -/
  sigma : left.toNat = 0x3A3 ↔ right.toNat = 0x3A3
  /-- They have one small form. -/
  small : lowerChar left = lowerChar right

/-- A character has its own case. -/
theorem SameCase.refl (c : Char) : SameCase c c := ⟨rfl, rfl, Iff.rfl, rfl⟩

/-- Only the capitals of the basic range are changed. -/
theorem toLower_cases (c : Char) :
    c.toLower = c ∨ ∃ offset < 26, c = Char.ofNat (65 + offset) := by
  by_cases range : 65 ≤ c.toNat ∧ c.toNat ≤ 90
  · refine .inr ⟨c.toNat - 65, by omega, ?_⟩
    have same : 65 + (c.toNat - 65) = c.toNat := by omega
    rw [same, Char.ofNat_toNat]
  · refine .inl (dif_neg fun capital => range ?_)
    have least : 65 ≤ c.val.toNat := UInt32.le_iff_toNat_le.mp capital.1
    have most : c.val.toNat ≤ 90 := UInt32.le_iff_toNat_le.mp capital.2
    exact ⟨least, most⟩

/-- The rules of case treat a letter of the basic range alike in both of its forms. -/
theorem sameCase_toLower (c : Char) : SameCase c.toLower c := by
  have letters : ∀ offset < 26, isCaseIgnorable (Char.ofNat (65 + offset)).toLower =
        isCaseIgnorable (Char.ofNat (65 + offset)) ∧
      isCased (Char.ofNat (65 + offset)).toLower = isCased (Char.ofNat (65 + offset)) ∧
      ((Char.ofNat (65 + offset)).toLower.toNat = 0x3A3 ↔
        (Char.ofNat (65 + offset)).toNat = 0x3A3) ∧
      lowerChar (Char.ofNat (65 + offset)).toLower = lowerChar (Char.ofNat (65 + offset)) := by
    decide +kernel
  obtain same | ⟨offset, inRange, rfl⟩ := toLower_cases c
  · rw [same]
    exact .refl c
  · obtain ⟨ignorable, cased, sigma, small⟩ := letters offset inRange
    exact ⟨ignorable, cased, sigma, small⟩

/-- Lowering characters keeps whether a cased one is met. -/
theorem meetsCased_toLower (chars : List Char) :
    meetsCased (chars.map Char.toLower) = meetsCased chars := by
  induction chars with
  | nil => rfl
  | cons c rest ih =>
    have same := sameCase_toLower c
    simp only [meetsCased, List.map_cons, List.dropWhile_cons, same.ignorable] at ih ⊢
    cases isCaseIgnorable c with
    | true => exact ih
    | false => exact same.cased

/-- Lowering a lowered text is lowering the text. -/
theorem lowerChars_toLower (before text : List Char) :
    lowerChars (before.map Char.toLower) (text.map Char.toLower) = lowerChars before text := by
  induction text generalizing before with
  | nil => rfl
  | cons c rest ih =>
    have same := sameCase_toLower c
    have later := ih (c :: before)
    rw [List.map_cons] at later
    simp only [List.map_cons, lowerChars, later, meetsCased_toLower, same.sigma, same.small]

/-- Texts that differ only in case have one small form. -/
theorem lower_eq_of_sameLetters {left right : String} (same : SameLetters left right) :
    lower left = lower right := by
  unfold lower
  rw [← lowerChars_toLower [] left.toList, ← lowerChars_toLower [] right.toList, same]

/-!
## Small letters stay as they are

Names are compared in small letters, and some of them are brought to small letters twice on their
way. The second time changes nothing: no group of the table of capitals sends a letter to one that
another group moves, which is computed group by group, and the text as a whole follows.
-/

namespace CodeGroup

/-- No code point that the group reaches is one that the other moves: all of them lie before, all of
them lie behind, or both groups take every second code point and these never meet. -/
def avoids (group other : CodeGroup) : Bool :=
  Nat.blt (group.target + (group.count - 1) * group.stride) other.first ||
    Nat.blt (other.first + (other.count - 1) * other.stride) group.target ||
    ((group.count == 1 || group.stride == 2) && (other.count == 1 || other.stride == 2) &&
      group.target % 2 != other.first % 2)

/-- A step of a group is a multiple of its stride. -/
theorem offset?_eq_some {group : CodeGroup} {start code distance : Nat}
    (found : group.offset? start code = some distance) :
    code = start + distance ∧ distance ≤ (group.count - 1) * group.stride ∧
      (group.count = 1 ∨ group.stride = 2 → distance % 2 = 0) := by
  simp only [offset?, Option.ite_none_right_eq_some, Option.some.injEq] at found
  obtain ⟨⟨least, within, multiple⟩, rfl⟩ := found
  obtain ⟨steps, equal⟩ := Nat.dvd_of_mod_eq_zero multiple
  have before : steps < group.count := by
    rw [equal, Nat.mul_comm] at within
    exact Nat.lt_of_mul_lt_mul_right within
  refine ⟨by omega, ?_, ?_⟩
  · rw [equal, Nat.mul_comm]
    exact Nat.mul_le_mul_right _ (by omega)
  · rintro (single | double)
    · have zero : steps = 0 := by omega
      simp [equal, zero]
    · rw [equal, double]
      exact Nat.mul_mod_right 2 steps

/-- A group does not move what a group that avoids it reaches. -/
theorem image?_eq_none {group other : CodeGroup} (avoids : group.avoids other = true)
    {start code target : Nat} (reached : group.offset? start code = some target) :
    other.image? (group.target + target) = none := by
  obtain ⟨_, bound, even⟩ := offset?_eq_some reached
  cases moved : other.offset? other.first (group.target + target) with
  | none => simp [image?, moved]
  | some distance =>
    exfalso
    obtain ⟨same, boundOther, evenOther⟩ := offset?_eq_some moved
    simp only [CodeGroup.avoids, Bool.or_eq_true, Nat.blt_eq, Bool.and_eq_true, beq_iff_eq,
      bne_iff_ne, ne_eq] at avoids
    obtain (before | behind) | ⟨⟨mine, theirs⟩, apart⟩ := avoids
    · omega
    · omega
    · have := even mine
      have := evenOther theirs
      omega

end CodeGroup

/-- What moves on its own: the letters of the basic range, the dotted capital I and the capital
sigma. -/
def separateGroups : List CodeGroup := [⟨65, 26, 1, 97⟩, ⟨0x130, 1, 1, 0⟩, ⟨0x3A3, 1, 1, 0⟩]

/-- What is reached on its own: the dot of the dotted capital I and the two small sigmas. -/
def separateTargets : List CodeGroup := [⟨0, 1, 1, 0x307⟩, ⟨0, 1, 1, 0x3C2⟩, ⟨0, 1, 1, 0x3C3⟩]

/-- Nothing that is reached moves on. -/
theorem lowerGroups_avoid : ∀ group ∈ separateTargets ++ lowerMap.groups,
    ∀ other ∈ separateGroups ++ lowerMap.groups, group.avoids other = true := by
  have computed : ((separateTargets ++ lowerMap.groups).all fun group =>
      (separateGroups ++ lowerMap.groups).all group.avoids) = true := by decide +kernel
  intro group member other memberOther
  exact List.all_eq_true.mp (List.all_eq_true.mp computed group member) other memberOther

/-- A code point of a small letter or of no letter: it is neither of the two capitals with a rule of
their own, and the table does not move it. -/
structure SmallCode (code : Nat) : Prop where
  /-- It is not the dotted capital I. -/
  notDotted : code ≠ 0x130
  /-- It is not the capital sigma. -/
  notSigma : code ≠ 0x3A3
  /-- It stays. -/
  stays : lowerCode code = code

/-- A code point that is in no group of capitals is a small one. -/
theorem SmallCode.of_image? {code : Nat}
    (fixed : ∀ group ∈ separateGroups ++ lowerMap.groups, group.image? code = none) :
    SmallCode code := by
  have basic := fixed ⟨65, 26, 1, 97⟩ (by simp [separateGroups])
  have dotted := fixed ⟨0x130, 1, 1, 0⟩ (by simp [separateGroups])
  have sigma := fixed ⟨0x3A3, 1, 1, 0⟩ (by simp [separateGroups])
  simp only [CodeGroup.image?, CodeGroup.offset?, Option.map_eq_none_iff, ite_eq_right_iff,
    reduceCtorEq, imp_false, not_and] at basic dotted sigma
  refine ⟨by omega, by omega, ?_⟩
  unfold lowerCode
  split
  · rw [if_neg]
    omega
  · have unmoved : lowerMap.groups.findSome? (·.image? code) = none :=
      List.findSome?_eq_none_iff.mpr fun group member =>
        fixed group (List.mem_append_right _ member)
    simp [CodeMap.apply, unmoved]

/-- What a group reaches is a small code point. -/
theorem SmallCode.of_reached {group : CodeGroup}
    (member : group ∈ separateTargets ++ lowerMap.groups) {code distance : Nat}
    (reached : group.offset? group.first code = some distance) :
    SmallCode (group.target + distance) :=
  .of_image? fun other memberOther =>
    CodeGroup.image?_eq_none (lowerGroups_avoid group member other memberOther) reached

/-- The small form of a code point is a small code point. -/
theorem smallCode_lowerCode {code : Nat} (notDotted : code ≠ 0x130) (notSigma : code ≠ 0x3A3) :
    SmallCode (lowerCode code) := by
  by_cases basic : code < 128
  · have small : ∀ low < 128, ¬(65 ≤ low ∧ low ≤ 90) → SmallCode low := by
      intro low bound notCapital
      refine ⟨by omega, by omega, ?_⟩
      rw [lowerCode, if_pos bound, if_neg notCapital]
    rw [lowerCode, if_pos basic]
    split
    · exact small _ (by omega) (by omega)
    · rename_i notCapital
      exact small _ basic notCapital
  · rw [lowerCode, if_neg basic, CodeMap.apply]
    cases found : lowerMap.groups.findSome? (·.image? code) with
    | none =>
      refine ⟨notDotted, notSigma, ?_⟩
      rw [Option.getD_none, lowerCode, if_neg basic, CodeMap.apply, found, Option.getD_none]
    | some target =>
      obtain ⟨group, member, image⟩ := List.exists_of_findSome?_eq_some found
      obtain ⟨distance, reached, rfl⟩ := Option.map_eq_some_iff.mp image
      exact .of_reached (List.mem_append_right _ member) reached

/-- A character of a small code point. -/
def IsSmall (c : Char) : Prop := SmallCode c.toNat

/-- A code point that no character has stands for the one of zero. -/
theorem toNat_ofNat (code : Nat) :
    (Char.ofNat code).toNat = code ∨ (Char.ofNat code).toNat = 0 := by
  by_cases valid : code.isValidChar
  · refine .inl ?_
    rw [Char.ofNat, dif_pos valid]
    rfl
  · exact .inr (by simp [Char.ofNat, valid])

/-- A character with a small code is small. -/
theorem isSmall_ofNat {code : Nat} (small : SmallCode code) : IsSmall (Char.ofNat code) := by
  unfold IsSmall
  obtain same | zero := toNat_ofNat code
  · rw [same]
    exact small
  · rw [zero]
    exact ⟨by decide, by decide, by decide⟩

/-- The separate targets are small. -/
theorem isSmall_separate {code : Nat} (member : (⟨0, 1, 1, code⟩ : CodeGroup) ∈ separateTargets) :
    IsSmall (Char.ofNat code) := by
  have reached : CodeGroup.offset? ⟨0, 1, 1, code⟩ 0 0 = some 0 := by simp [CodeGroup.offset?]
  exact isSmall_ofNat (SmallCode.of_reached (List.mem_append_left _ member) reached)

/-- The small form of one character consists of small characters. -/
theorem isSmall_of_mem_lowerChar {c result : Char} (notSigma : c.toNat ≠ 0x3A3)
    (member : result ∈ lowerChar c) : IsSmall result := by
  unfold lowerChar at member
  split at member
  · obtain rfl | rfl : result = 'i' ∨ result = Char.ofNat 0x307 := by simpa using member
    · exact ⟨by decide, by decide, by decide⟩
    · exact isSmall_separate (by simp [separateTargets])
  · rename_i notDotted
    obtain rfl := List.mem_singleton.mp member
    exact isSmall_ofNat (smallCode_lowerCode notDotted notSigma)

/-- The small form of a text consists of small characters. -/
theorem isSmall_of_mem_lowerChars {before text : List Char} {result : Char}
    (member : result ∈ lowerChars before text) : IsSmall result := by
  induction text generalizing before with
  | nil => simp [lowerChars] at member
  | cons c rest ih =>
    simp only [lowerChars, List.mem_append] at member
    obtain here | later := member
    · split at here
      · obtain rfl := List.mem_singleton.mp here
        split
        · exact isSmall_separate (by simp [separateTargets])
        · exact isSmall_separate (by simp [separateTargets])
      · rename_i notSigma
        exact isSmall_of_mem_lowerChar notSigma here
    · exact ih later

/-- Small characters stay as they are. -/
theorem lowerChars_eq_self {before text : List Char} (small : ∀ c ∈ text, IsSmall c) :
    lowerChars before text = text := by
  induction text generalizing before with
  | nil => rfl
  | cons c rest ih =>
    have first := small c List.mem_cons_self
    have same : lowerChar c = [c] := by
      rw [lowerChar, if_neg first.notDotted, first.stays, Char.ofNat_toNat]
    rw [lowerChars, if_neg first.notSigma, same,
      ih fun other member => small other (List.mem_cons_of_mem _ member), List.singleton_append]

/-- A text in small letters stays as it is. -/
@[simp] theorem lower_lower (text : String) : lower (lower text) = lower text := by
  unfold lower
  rw [String.toList_ofList, lowerChars_eq_self fun _ => isSmall_of_mem_lowerChars]

end Text

end LineScript
