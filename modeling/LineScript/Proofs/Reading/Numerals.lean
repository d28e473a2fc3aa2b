import LineScript.Value.Basic

/-!
# Whole numbers survive as text

A whole number is shown by its decimal digits, behind a minus sign if it is below zero. Blanks, tabs
and line ends are noise where a text is read as a number: they may stand anywhere, also between two
digits and behind the sign. However much of it is put into the text of a number, reading the text
gives that number, for all numbers of 64 bits.
-/

namespace LineScript

namespace Decimal

/-- The value of decimal digits, as the library computes it. -/
theorem digitsValue_eq (digits : List Char) :
    digitsValue digits = Nat.ofDigitChars 10 digits 0 := by
  rw [Nat.ofDigitChars_eq_foldl, digitsValue]
  simp only [Nat.mul_comm]

/-- The digits of a number have its value. -/
theorem digitsValue_digitsOf (n : Nat) : digitsValue (digitsOf n) = n := by
  rw [digitsValue_eq, digitsOf, Nat.ofDigitChars_ten_toDigits]

/-- The digits of a natural number are digit characters. -/
theorem isDigit_of_mem_digitsOf {n : Nat} {c : Char} (mem : c ∈ digitsOf n) : c.isDigit = true :=
  Nat.isDigit_of_mem_toDigits (by decide) (by decide) mem

/-- The text of a whole number: a minus sign below zero, and the digits of its size. -/
theorem toList_toString (n : Int) :
    (toString n).toList = withSign (decide (n < 0)) (digitsOf n.natAbs) := by
  rw [Int.toString_eq_repr, Int.repr_eq_if]
  by_cases below : n < 0
  · rw [if_neg (by omega), String.toList_append, Nat.toList_repr, decide_eq_true below,
      show (-n).toNat = n.natAbs by omega]
    rfl
  · rw [if_pos (by omega), Nat.toList_repr, decide_eq_false below,
      show n.toNat = n.natAbs by omega]
    rfl

/-- The first digit is no sign. -/
theorem splitSign_digitsOf (n : Nat) : splitSign (digitsOf n) = (false, digitsOf n) := by
  have digit : ∀ c ∈ digitsOf n, c.isDigit = true := fun c => isDigit_of_mem_digitsOf
  cases written : digitsOf n with
  | nil => rfl
  | cons c rest =>
    have first : c.isDigit = true := digit c (by simp [written])
    unfold splitSign
    split
    · rename_i sign
      cases sign
      exact absurd first (by decide)
    · rename_i sign
      cases sign
      exact absurd first (by decide)
    · rfl

/-- A sign in front of digits is taken off again. -/
theorem splitSign_withSign (negative : Bool) (n : Nat) :
    splitSign (withSign negative (digitsOf n)) = (negative, digitsOf n) := by
  cases negative with
  | true => rfl
  | false => exact splitSign_digitsOf n

/-- The text of a number of 64 bits is read as that number, whichever it is. -/
theorem readInteger?_toString (n : Int64) : readInteger? (toString n.toInt).toList = some n := by
  have digits : digitsOf n.toInt.natAbs ≠ [] ∧ (digitsOf n.toInt.natAbs).all Char.isDigit = true :=
    ⟨Nat.toDigits_ne_nil, List.all_eq_true.mpr fun c => isDigit_of_mem_digitsOf⟩
  have value : (if decide (n.toInt < 0) = true then -(n.toInt.natAbs : Int) else n.toInt.natAbs) =
      n.toInt := by
    simp only [decide_eq_true_eq]
    omega
  have fits : Int64.minValue.toInt ≤ n.toInt ∧ n.toInt ≤ Int64.maxValue.toInt :=
    ⟨n.minValue_le_toInt, n.toInt_le⟩
  unfold readInteger?
  rw [toList_toString, splitSign_withSign]
  dsimp only
  rw [if_pos digits, digitsValue_digitsOf, value, if_pos fits, Int64.ofInt_toInt]

end Decimal

namespace Value

/-- Noise was put into a text, at any places. -/
inductive Noisy : List Char → List Char → Prop where
  /-- Nothing was put into nothing. -/
  | nil : Noisy [] []
  /-- A character of the text stays. -/
  | keep (c : Char) {chars noisy : List Char} (rest : Noisy chars noisy) :
    Noisy (c :: chars) (c :: noisy)
  /-- A character of noise is put in. -/
  | insert {c : Char} (noise : isNumberNoise c = true) {chars noisy : List Char}
    (rest : Noisy chars noisy) : Noisy chars (c :: noisy)

/-- If a text has no noise of its own, the texts with noise in it are those that are the text once
their noise is dropped. -/
theorem noisy_iff {chars noisy : List Char} (clean : ∀ c ∈ chars, isNumberNoise c = false) :
    Noisy chars noisy ↔ noisy.filter (fun c => !isNumberNoise c) = chars := by
  constructor
  · intro inserted
    induction inserted with
    | nil => rfl
    | keep c _ ih =>
      have kept : isNumberNoise c = false := clean c List.mem_cons_self
      rw [List.filter_cons_of_pos (by simp [kept]),
        ih fun c mem => clean c (List.mem_cons_of_mem _ mem)]
    | insert noise _ ih => rw [List.filter_cons_of_neg (by simp [noise]), ih clean]
  · intro dropped
    subst dropped
    clear clean
    induction noisy with
    | nil => exact .nil
    | cons c noisy ih =>
      cases noise : isNumberNoise c with
      | true =>
        rw [List.filter_cons_of_neg (by simp [noise])]
        exact .insert noise ih
      | false =>
        rw [List.filter_cons_of_pos (by simp [noise])]
        exact .keep c ih

/-- The text of a whole number has no noise of its own. -/
theorem clean_display (n : Int64) (c : Char) (mem : c ∈ (display (.number n)).toList) :
    isNumberNoise c = false := by
  have cases : c = '-' ∨ c.isDigit = true := by
    change c ∈ (toString n.toInt).toList at mem
    rw [Decimal.toList_toString] at mem
    unfold Decimal.withSign at mem
    split at mem
    · rcases List.mem_cons.mp mem with sign | mem
      · exact .inl sign
      · exact .inr (Decimal.isDigit_of_mem_digitsOf mem)
    · exact .inr (Decimal.isDigit_of_mem_digitsOf mem)
  rcases cases with rfl | digit
  · decide
  · cases noise : isNumberNoise c with
    | false => rfl
    | true =>
      simp only [isNumberNoise, Bool.or_eq_true, beq_iff_eq] at noise
      rcases noise with ((rfl | rfl) | rfl) | rfl <;> exact absurd digit (by decide)

/-- Whole numbers survive as text: whatever noise is put into the text of a number of 64 bits, the
text is read as that number, and as a value it counts as that number. -/
theorem parseNumber_noisy {n : Int64} {text : String}
    (noisy : Noisy (display (.number n)).toList text.toList) :
    parseNumber text = .number n ∧ (string text).asNumber = (number n).asNumber := by
  have dropped : text.toList.filter (fun c => !isNumberNoise c) = (display (.number n)).toList :=
    (noisy_iff (clean_display n)).mp noisy
  have found : Decimal.readInteger? (display (.number n)).toList = some n :=
    Decimal.readInteger?_toString n
  have read : parseNumber text = .number n := by
    unfold parseNumber
    dsimp only
    rw [dropped, found]
  refine ⟨read, ?_⟩
  change parseFloat text = floatOfInt64 n
  rw [parseFloat, read]

/-- The least number of 64 bits, whose size is no number of 64 bits, with noise of each kind in
front of it, behind the sign, between digits and at the end. -/
theorem parseNumber_noisy_least :
    Noisy (display (.number Int64.minValue)).toList
      "\t- 9223372\r\n036854 775808 \n".toList ∧
    parseNumber "\t- 9223372\r\n036854 775808 \n" = .number Int64.minValue := by
  have noisy : Noisy (display (.number Int64.minValue)).toList
      "\t- 9223372\r\n036854 775808 \n".toList :=
    (noisy_iff (clean_display _)).mpr (by decide +kernel)
  exact ⟨noisy, (parseNumber_noisy noisy).1⟩

end Value

end LineScript
