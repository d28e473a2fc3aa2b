import Mathlib.Algebra.Group.Int.Defs
import Mathlib.Algebra.Group.Nat.Defs
import Mathlib.Tactic.SplitIfs

/-!
# Rounding to a double

A finite double is a whole number of times the least positive one, `2 ^ (-1074)`. Counted in these
units, the doubles are the numbers of at most 53 binary digits followed by zeros, and rounding moves
a number past none of them: a double that was not above it is not above the result, and one that was
not below it is not below the result.
-/

namespace LineScript.Double

open Float.Model Float.Model.UnpackedFloat

/-- A number of at most 53 binary digits followed by zeros. -/
def Short (size : Nat) : Prop := ∃ digits places, digits < 2 ^ 53 ∧ size = digits * 2 ^ places

/-- What a number is rounded to lies on the same side of every short number, or is that number. -/
structure Rounded (size result : Nat) : Prop where
  /-- Short numbers that are not above stay so. -/
  below : ∀ other, Short other → other ≤ size → other ≤ result
  /-- Short numbers that are not below stay so. -/
  above : ∀ other, Short other → size ≤ other → result ≤ other

/-- A short number with fewer zeros than `2 ^ 53` steps of `2 ^ places` lies below `2 ^ 52` of
those steps. -/
theorem short_lt {digits fewer places : Nat} (short : digits < 2 ^ 53) (few : fewer < places) :
    digits * 2 ^ fewer < 2 ^ 52 * 2 ^ places := by
  calc digits * 2 ^ fewer < 2 ^ 53 * 2 ^ fewer :=
        Nat.mul_lt_mul_of_pos_right short (Nat.two_pow_pos _)
    _ = 2 ^ 52 * 2 ^ (fewer + 1) := by rw [Nat.pow_succ 2 fewer]; omega
    _ ≤ 2 ^ 52 * 2 ^ places := Nat.mul_le_mul_left _ (Nat.pow_le_pow_right (by decide) few)

/-- A power of two splits at any smaller place. -/
theorem pow_split {digits places more : Nat} (le : places ≤ more) :
    digits * 2 ^ more = digits * 2 ^ (more - places) * 2 ^ places := by
  rw [Nat.mul_assoc, ← Nat.pow_add, Nat.sub_add_cancel le]

/-- What a quotient is rounded to lies on the same side of every short number, or is that number. -/
structure RoundedQuotient (size scale result : Nat) : Prop where
  /-- Short numbers that are not above stay so. -/
  below : ∀ other, Short other → other * scale ≤ size → other ≤ result
  /-- Short numbers that are not below stay so. -/
  above : ∀ other, Short other → size ≤ other * scale → result ≤ other

/-- Cutting a quotient to steps of `2 ^ places` and going up by at most one step, by none when nothing
was cut off, rounds it, as long as 53 digits stay where there are such steps. -/
theorem RoundedQuotient.of_steps {size scale places steps : Nat} (some : 0 < scale)
    (full : places ≠ 0 → 2 ^ 52 ≤ size / (scale * 2 ^ places))
    (least : size / (scale * 2 ^ places) ≤ steps) (most : steps ≤ size / (scale * 2 ^ places) + 1)
    (exact : scale * 2 ^ places ∣ size → steps = size / (scale * 2 ^ places)) :
    RoundedQuotient size scale (steps * 2 ^ places) := by
  have step : 0 < scale * 2 ^ places := Nat.mul_pos some (Nat.two_pow_pos _)
  have inScale : ∀ count, count * 2 ^ places * scale = count * (scale * 2 ^ places) := fun count => by
    rw [Nat.mul_assoc, Nat.mul_comm (2 ^ places)]
  have cut := inScale (size / (scale * 2 ^ places)) ▸ Nat.div_mul_le_self size (scale * 2 ^ places)
  have kept : size / (scale * 2 ^ places) * 2 ^ places ≤ steps * 2 ^ places :=
    Nat.mul_le_mul_right _ least
  have wide : ∀ digits fewer, digits < 2 ^ 53 → fewer < places →
      digits * 2 ^ fewer < size / (scale * 2 ^ places) * 2 ^ places := by
    intro digits fewer short few
    exact Nat.lt_of_lt_of_le (short_lt short few)
      (Nat.mul_le_mul_right _ (full (Nat.ne_of_gt (Nat.zero_lt_of_lt few))))
  constructor
  · rintro other ⟨digits, zeros, short, rfl⟩ le
    by_cases few : zeros < places
    · exact Nat.le_trans (Nat.le_of_lt (wide digits zeros short few)) kept
    · rw [pow_split (Nat.le_of_not_lt few)] at le ⊢
      rw [inScale] at le
      have inSteps := (Nat.le_div_iff_mul_le step).mpr le
      exact Nat.mul_le_mul_right _ (Nat.le_trans inSteps least)
  · rintro other ⟨digits, zeros, short, rfl⟩ ge
    by_cases few : zeros < places
    · have := Nat.mul_lt_mul_of_pos_right (wide digits zeros short few) some
      omega
    · rw [pow_split (Nat.le_of_not_lt few)] at ge ⊢
      rw [inScale] at ge
      by_cases whole : scale * 2 ^ places ∣ size
      · rw [exact whole]
        exact Nat.mul_le_mul_right _ (Nat.div_le_of_le_mul (by rwa [Nat.mul_comm]))
      · have strict : size < digits * 2 ^ (zeros - places) * (scale * 2 ^ places) := by
          refine Nat.lt_of_le_of_ne ge fun same => whole ?_
          rw [same]
          exact Nat.dvd_mul_left _ _
        have inSteps := (Nat.div_lt_iff_lt_mul step).mpr strict
        exact Nat.mul_le_mul_right _ (by omega)

/-- A factor of both parts of a quotient does not matter. -/
theorem RoundedQuotient.cancel {size scale factor result : Nat}
    (rounded : RoundedQuotient (size * factor) (scale * factor) result) :
    RoundedQuotient size scale result := by
  refine ⟨fun other short le => rounded.below other short ?_,
    fun other short ge => rounded.above other short ?_⟩ <;> rw [← Nat.mul_assoc]
  · exact Nat.mul_le_mul_right factor le
  · exact Nat.mul_le_mul_right factor ge

/-- A rounded quotient stays one when both sides are scaled. -/
theorem RoundedQuotient.scale {size scale result : Nat} (factor : Nat) (some : 0 < factor)
    (rounded : RoundedQuotient size scale result) :
    RoundedQuotient (size * factor) (scale * factor) result := by
  refine ⟨fun other short le => rounded.below other short ?_,
    fun other short ge => rounded.above other short ?_⟩
  · exact Nat.le_of_mul_le_mul_right (by rwa [Nat.mul_assoc]) some
  · exact Nat.le_of_mul_le_mul_right (by rwa [Nat.mul_assoc]) some

/-- A quotient that is a short number is not moved. -/
theorem RoundedQuotient.eq_of_short {size scale result other : Nat}
    (rounded : RoundedQuotient size scale result) (short : Short other) (same : size = other * scale) :
    result = other :=
  Nat.le_antisymm (rounded.above other short (Nat.le_of_eq same))
    (rounded.below other short (Nat.le_of_eq same.symm))

/-- Cutting a number to steps of `2 ^ places` rounds it in the same way. -/
theorem Rounded.of_steps {size places steps : Nat}
    (full : places ≠ 0 → 2 ^ 52 ≤ size / 2 ^ places)
    (least : size / 2 ^ places ≤ steps) (most : steps ≤ size / 2 ^ places + 1)
    (exact : 2 ^ places ∣ size → steps = size / 2 ^ places) :
    Rounded size (steps * 2 ^ places) := by
  have quotient : RoundedQuotient size 1 (steps * 2 ^ places) :=
    .of_steps Nat.one_pos (by rwa [Nat.one_mul]) (by rwa [Nat.one_mul]) (by rwa [Nat.one_mul])
      (by rwa [Nat.one_mul])
  exact ⟨fun other short le => quotient.below other short (by rwa [Nat.mul_one]),
    fun other short ge => quotient.above other short (by rwa [Nat.mul_one])⟩

/-- No short number lies between a count of steps and the next one. -/
theorem short_between {n places : Nat} (full : places ≠ 0 → 2 ^ 52 ≤ n / 2 ^ places) {other : Nat}
    (short : Short other) :
    other ≤ n / 2 ^ places * 2 ^ places ∨ (n / 2 ^ places + 1) * 2 ^ places ≤ other ∨
      2 ^ places ∣ n ∧ n ≤ other := by
  have down : Rounded n (n / 2 ^ places * 2 ^ places) :=
    .of_steps full (Nat.le_refl _) (Nat.le_succ _) fun _ => rfl
  rcases Nat.le_total other n with le | ge
  · exact .inl (down.below other short le)
  · by_cases whole : 2 ^ places ∣ n
    · exact .inr (.inr ⟨whole, ge⟩)
    · have up : Rounded n ((n / 2 ^ places + 1) * 2 ^ places) :=
        .of_steps full (Nat.le_succ _) (Nat.le_refl _) fun divides => absurd divides whole
      exact .inr (.inl (up.above other short ge))

/-- A short number is rounded to itself. -/
theorem Rounded.eq_of_short {size result : Nat} (rounded : Rounded size result)
    (short : Short size) : result = size :=
  Nat.le_antisymm (rounded.above size short (Nat.le_refl _))
    (rounded.below size short (Nat.le_refl _))

/-- How many units a mantissa and an exponent stand for. -/
def size (mantissa : Nat) (exponent : Int) : Nat := mantissa * 2 ^ (exponent + 1074).toNat

/-- The mantissa and exponent of a double, or of a number too large for one: of all ways to write
the number, the one with 53 digits, or with the least exponent. -/
structure Canonical (mantissa : Nat) (exponent : Int) : Prop where
  /-- At most 53 digits. -/
  below : mantissa < 2 ^ 53
  /-- No finer than a unit. -/
  least : -1074 ≤ exponent
  /-- No digit is given away. -/
  full : 2 ^ 52 ≤ mantissa ∨ exponent = -1074

/-- Shifting the mantissa and lowering the exponent alike keeps the size. -/
theorem size_shift (mantissa places : Nat) {exponent : Int}
    (least : -1074 ≤ exponent - places) :
    size (mantissa <<< places) (exponent - places) = size mantissa exponent := by
  have same : (exponent + 1074).toNat = places + (exponent - places + 1074).toNat := by omega
  rw [size, size, Nat.shiftLeft_eq, same, Nat.pow_add, Nat.mul_assoc]

/-- A higher exponent shifts the size by as many places. -/
theorem size_places (mantissa places : Nat) {exponent : Int} (least : -1074 ≤ exponent) :
    size mantissa (exponent + places) = mantissa * 2 ^ places * 2 ^ (exponent + 1074).toNat := by
  have same : (exponent + places + 1074).toNat = places + (exponent + 1074).toNat := by omega
  rw [size, same, Nat.pow_add, Nat.mul_assoc]

/-- The size is monotone in the mantissa and in the exponent. -/
theorem size_le_size {left right : Nat} {exponent greater : Int} (digits : left ≤ right)
    (places : exponent ≤ greater) : size left exponent ≤ size right greater :=
  Nat.mul_le_mul digits (Nat.pow_le_pow_right (by decide) (by omega))

/-- At one exponent a smaller mantissa has a smaller size. -/
theorem size_lt_size {left right : Nat} (digits : left < right) (exponent : Int) :
    size left exponent < size right exponent :=
  Nat.mul_lt_mul_of_pos_right digits (Nat.two_pow_pos _)

/-- The least mantissa with all digits, one place up, is one more than the greatest. -/
theorem size_carry {exponent : Int} (least : -1074 ≤ exponent) :
    size (2 ^ 52) (exponent + 1) = size (2 ^ 53) exponent := by
  have one := size_places (2 ^ 52) 1 least
  rwa [← Nat.pow_add] at one

/-- Of two doubles the one with the greater exponent is greater. -/
theorem Canonical.size_lt {digits more : Nat} {exponent greater : Int}
    (canonical : Canonical digits exponent) (other : Canonical more greater)
    (less : exponent < greater) : size digits exponent < size more greater := by
  have full : 2 ^ 52 ≤ more := other.full.resolve_right (by have := canonical.least; omega)
  calc size digits exponent < size (2 ^ 53) exponent := size_lt_size canonical.below exponent
    _ = size (2 ^ 52) (exponent + 1) := (size_carry canonical.least).symm
    _ ≤ size more greater := size_le_size full less

/-! ## Shifting a mantissa -/

/-- A number in steps of a scale: the nearest count of them, and of two equally near ones the even
one. -/
def nearestCount (size scale : Nat) : Nat :=
  let down := size / scale
  let rest := size % scale
  if 2 * rest < scale then down
  else if scale < 2 * rest then down + 1
  else down + down % 2

/-- At most one step up, and none when nothing is cut off. -/
theorem nearestCount_bounds (size : Nat) {scale : Nat} (some : 0 < scale) :
    size / scale ≤ nearestCount size scale ∧ nearestCount size scale ≤ size / scale + 1 ∧
      (scale ∣ size → nearestCount size scale = size / scale) := by
  simp only [nearestCount]
  refine ⟨?_, ?_, fun whole => ?_⟩
  · split_ifs <;> omega
  · split_ifs <;> omega
  · rw [Nat.mod_eq_zero_of_dvd whole, if_pos (by omega)]

/-- A number in steps of `2 ^ places`: the nearest count of them, and of two equally near ones the even
one. -/
def nearestSteps (size places : Nat) : Nat :=
  let down := size / 2 ^ places
  let rest := size % 2 ^ places
  if 2 * rest < 2 ^ places then down
  else if 2 ^ places < 2 * rest then down + 1
  else down + down % 2

/-- A rounded count of steps is the quotient or one more, and the quotient itself when nothing is
cut off. -/
theorem nearestSteps_bounds (size places : Nat) :
    size / 2 ^ places ≤ nearestSteps size places ∧
      nearestSteps size places ≤ size / 2 ^ places + 1 ∧
      (2 ^ places ∣ size → nearestSteps size places = size / 2 ^ places) :=
  nearestCount_bounds size (Nat.two_pow_pos places)

/-- Rounding by no places changes nothing. -/
theorem nearestSteps_zero (size : Nat) : nearestSteps size 0 = size := by
  obtain ⟨-, -, whole⟩ := nearestSteps_bounds size 0
  rw [whole (Nat.one_dvd size), Nat.pow_zero, Nat.div_one]

/-- Zeros behind the digits of a number are steps of it. -/
theorem nearestSteps_mul (size places zeros : Nat) :
    nearestSteps (size * 2 ^ zeros) (places + zeros) = nearestSteps size places := by
  have some := Nat.two_pow_pos zeros
  have scaled : ∀ left right, left * 2 ^ zeros < right * 2 ^ zeros ↔ left < right := fun _ _ =>
    Nat.mul_lt_mul_right some
  simp only [nearestSteps, Nat.pow_add, Nat.mul_div_mul_right _ _ some, Nat.mul_mod_mul_right,
    ← Nat.mul_assoc, scaled]

/-- Rounding by a number of places is monotone. -/
theorem nearestSteps_mono {left right : Nat} (le : left ≤ right) (places : Nat) :
    nearestSteps left places ≤ nearestSteps right places := by
  have down := Nat.div_le_div_right (c := 2 ^ places) le
  rcases Nat.lt_or_eq_of_le down with less | same
  · obtain ⟨-, most, -⟩ := nearestSteps_bounds left places
    obtain ⟨least, -, -⟩ := nearestSteps_bounds right places
    omega
  · have first := Nat.div_add_mod left (2 ^ places)
    have second := Nat.div_add_mod right (2 ^ places)
    rw [same] at first
    simp only [nearestSteps, same]
    split_ifs <;> omega

/-- The mantissa and its residual bits say where a number lies in steps of a scale: how many there are, and
whether what is left is nothing, less than half a step, half of it or more. -/
structure Cut (size scale : Nat) (extended : ExtendedMantissa) (rest : Nat) : Prop where
  /-- The number. -/
  size_eq : size = extended.mantissa * scale + rest
  /-- What is left is less than a step. -/
  rest_lt : rest < scale
  /-- It is half a step or more. -/
  round : extended.roundBit = true ↔ scale ≤ 2 * rest
  /-- It is neither nothing nor half a step. -/
  sticky : extended.stickyBit = true ↔ rest ≠ 0 ∧ 2 * rest ≠ scale

/-- An exact mantissa is cut nowhere. -/
theorem cut_exact (mantissa : Nat) :
    Cut mantissa 1 (ExtendedMantissa.ofMantissaAndAccuracy mantissa .exact) 0 :=
  ⟨(Nat.mul_one mantissa).symm, Nat.one_pos, by simp [ExtendedMantissa.ofMantissaAndAccuracy],
    by simp [ExtendedMantissa.ofMantissaAndAccuracy]⟩

/-- Shifting by one place doubles the steps. -/
theorem Cut.shiftRightOne {size scale rest : Nat} {extended : ExtendedMantissa}
    (cut : Cut size scale extended rest) :
    Cut size (2 * scale) extended.shiftRightOne (extended.mantissa % 2 * scale + rest) := by
  obtain ⟨mantissa, round, sticky⟩ := extended
  obtain ⟨size_eq, rest_lt, isRound, isSticky⟩ := cut
  have halves : mantissa * scale = mantissa / 2 * (2 * scale) + mantissa % 2 * scale := by
    rw [Nat.mul_left_comm, ← Nat.mul_assoc, ← Nat.add_mul, Nat.div_add_mod]
  have bit : mantissa % 2 * scale = if mantissa % 2 = 0 then 0 else scale := by
    rcases Nat.mod_two_eq_zero_or_one mantissa with even | odd
    · simp [even]
    · simp [odd]
  dsimp only at size_eq isRound isSticky
  constructor <;> simp only [ExtendedMantissa.shiftRightOne]
  · omega
  · split at bit <;> omega
  · rw [bit, bne_iff_ne]
    split <;> omega
  · rw [bit, Bool.or_eq_true, isRound, isSticky]
    split <;> omega

/-- Shifting right lengthens the steps by a power of two. -/
theorem Cut.shiftRight {size scale rest : Nat} {extended : ExtendedMantissa}
    (cut : Cut size scale extended rest) (places : Nat) :
    ∃ rest, Cut size (scale * 2 ^ places) (extended >>> places) rest := by
  induction places with
  | zero => exact ⟨rest, by rwa [Nat.pow_zero, Nat.mul_one]⟩
  | succ places ih =>
    obtain ⟨rest, cut⟩ := ih
    have double : scale * 2 ^ (places + 1) = 2 * (scale * 2 ^ places) := by
      rw [Nat.pow_succ, ← Nat.mul_assoc, Nat.mul_comm]
    rw [double]
    exact ⟨_, cut.shiftRightOne⟩

/-- The count of steps is the one that division gives. -/
theorem Cut.div_mod {size scale rest : Nat} {extended : ExtendedMantissa}
    (cut : Cut size scale extended rest) : size / scale = extended.mantissa ∧ size % scale = rest := by
  have := cut.rest_lt
  rw [Nat.div_mod_unique (by omega)]
  exact ⟨by rw [cut.size_eq, Nat.mul_comm, Nat.add_comm], cut.rest_lt⟩

/-- Rounding gives the nearest count of steps. -/
theorem Cut.roundedMantissa {size scale rest : Nat} {extended : ExtendedMantissa}
    (cut : Cut size scale extended rest) : extended.roundedMantissa = nearestCount size scale := by
  obtain ⟨down, left⟩ := cut.div_mod
  obtain ⟨mantissa, round, sticky⟩ := extended
  obtain ⟨size_eq, rest_lt, isRound, isSticky⟩ := cut
  dsimp only at down isRound isSticky
  simp only [nearestCount, down, left]
  cases round <;> cases sticky <;>
    simp only [ExtendedMantissa.roundedMantissa, ExtendedMantissa.accuracy,
      Accuracy.roundToNearestEven, Bool.false_eq_true, false_iff, true_iff] at isRound isSticky ⊢
  · rw [if_pos (by omega)]
  · rw [if_pos (by omega)]
  · rw [if_neg (by omega), if_neg (by omega)]
  · rw [if_neg (by omega), if_pos (by omega)]

/-- A quotient of whole numbers, with what the remainder says of the digits behind it. -/
theorem cut_quotient (size : Nat) {scale : Nat} (some : 0 < scale) :
    Cut size scale (ExtendedMantissa.ofMantissaAndAccuracy (size / scale)
      (accuracyOfFraction (size % scale) scale)) (size % scale) := by
  have parts := Nat.div_add_mod' size scale
  have rest := Nat.mod_lt size some
  unfold accuracyOfFraction
  split
  case isTrue none =>
    exact ⟨parts.symm, rest, by simp [ExtendedMantissa.ofMantissaAndAccuracy]; omega,
      by simp [ExtendedMantissa.ofMantissaAndAccuracy]; omega⟩
  case isFalse left =>
    rcases Nat.lt_trichotomy (2 * (size % scale)) scale with less | half | more
    · rw [Nat.compare_eq_lt.mpr less]
      exact ⟨parts.symm, rest, by simp [ExtendedMantissa.ofMantissaAndAccuracy]; omega,
        by simp [ExtendedMantissa.ofMantissaAndAccuracy]; omega⟩
    · rw [Nat.compare_eq_eq.mpr half]
      exact ⟨parts.symm, rest, by simp [ExtendedMantissa.ofMantissaAndAccuracy]; omega,
        by simp [ExtendedMantissa.ofMantissaAndAccuracy]; omega⟩
    · rw [Nat.compare_eq_gt.mpr more]
      exact ⟨parts.symm, rest, by simp [ExtendedMantissa.ofMantissaAndAccuracy]; omega,
        by simp [ExtendedMantissa.ofMantissaAndAccuracy]; omega⟩

/-- The exponent that a double has for a number. -/
theorem targetExponent_eq (mantissa : Nat) (exponent : Int) :
    Format.binary64.targetExponent (totalExponent mantissa exponent) =
      max ((mantissa.log2 : Int) + exponent - 52) (-1074) := by
  have bits : (Format.binary64.mantissaBits : Int) = 53 := rfl
  have least : Format.binary64.minExponent = -1074 := rfl
  rw [Format.targetExponent, totalExponent, bits, least]
  omega

/-- A mantissa of at most 53 digits stays as it is, and one more than these is written with one
digit less. -/
theorem shiftToTargetExponent_rounded {mantissa : Nat} {exponent : Int}
    (positive : 0 < mantissa) (most : mantissa ≤ 2 ^ 53) (least : -1074 ≤ exponent)
    (full : 2 ^ 52 ≤ mantissa ∨ exponent = -1074) :
    let shifted := shiftToTargetExponent .binary64 mantissa exponent .exact
    0 < shifted.1.mantissa ∧ Canonical shifted.1.mantissa shifted.2 ∧
      size shifted.1.mantissa shifted.2 = size mantissa exponent := by
  have nonzero : mantissa ≠ 0 := Nat.ne_of_gt positive
  simp only [shiftToTargetExponent, shiftToExponent, targetExponent_eq]
  rcases Nat.lt_or_eq_of_le most with short | rfl
  · have digits : mantissa.log2 < 53 := (Nat.log2_lt nonzero).mpr short
    have still : (max ((mantissa.log2 : Int) + exponent - 52) (-1074) - exponent).toNat = 0 := by
      omega
    rw [still]
    simp only [Int.natCast_zero, Int.add_zero]
    exact ⟨positive, ⟨short, least, full⟩, rfl⟩
  · have digits : (2 ^ 53 : Nat).log2 = 53 := Nat.log2_two_pow
    have one : (max (((2 ^ 53 : Nat).log2 : Int) + exponent - 52) (-1074) - exponent).toNat =
        1 := by
      rw [digits]
      omega
    rw [one]
    refine ⟨by decide, ⟨by decide, by omega, .inl (by decide)⟩, ?_⟩
    exact size_places (2 ^ 52) 1 least

/-- The number with a rounded mantissa. -/
def ofShifted (sign : Sign) (shifted : ExtendedMantissa × Int) : UnpackedFloat :=
  if none : shifted.1.mantissa = 0 then .zero sign
  else .finite sign shifted.1.mantissa shifted.2 (Nat.pos_of_ne_zero none)

/-- Rounding is two shifts: the second drops the digit that rounding up may have added. -/
theorem roundWithAccuracy_eq (sign : Sign) (mantissa : Nat) (exponent : Int) (accuracy : Accuracy) :
    UnpackedFloat.roundWithAccuracy .binary64 sign mantissa exponent accuracy =
      ofShifted sign (shiftToTargetExponent .binary64
        (shiftToTargetExponent .binary64 mantissa exponent accuracy).1.roundedMantissa
        (shiftToTargetExponent .binary64 mantissa exponent accuracy).2 .exact) :=
  rfl

/-- Rounding a number that is cut to steps gives the nearest count of longer steps, with no step finer
than 53 digits need. -/
theorem Cut.roundWithAccuracy (sign : Sign) {size scale rest mantissa places : Nat} {exponent : Int}
    {accuracy : Accuracy}
    (cut : Cut size scale (ExtendedMantissa.ofMantissaAndAccuracy mantissa accuracy) rest)
    (positive : 0 < mantissa) (least : -1074 ≤ exponent)
    (target : max ((mantissa.log2 : Int) + exponent - 52) (-1074) - exponent = places) :
    ∃ digits place, ∃ some : 0 < digits,
      UnpackedFloat.roundWithAccuracy .binary64 sign mantissa exponent accuracy =
        .finite sign digits place some ∧
      Canonical digits place ∧
      Double.size digits place =
        Double.size (nearestCount size (scale * 2 ^ places)) (exponent + places) ∧
      (exponent + places ≠ -1074 → 2 ^ 52 ≤ size / (scale * 2 ^ places)) := by
  have nonzero : mantissa ≠ 0 := Nat.ne_of_gt positive
  obtain ⟨left, shifted⟩ := cut.shiftRight places
  have kept : (ExtendedMantissa.ofMantissaAndAccuracy mantissa accuracy).mantissa = mantissa := by
    cases accuracy with
    | exact => rfl
    | inexact order => cases order <;> rfl
  have first : shiftToTargetExponent .binary64 mantissa exponent accuracy =
      (ExtendedMantissa.ofMantissaAndAccuracy mantissa accuracy >>> places, exponent + places) := by
    simp only [shiftToTargetExponent, shiftToExponent, targetExponent_eq, target,
      Int.toNat_natCast]
  have inScale : size / (scale * 2 ^ places) = mantissa / 2 ^ places := by
    rw [← Nat.div_div_eq_div_mul, cut.div_mod.1, kept]
  have short : mantissa / 2 ^ places < 2 ^ 53 := by
    rw [Nat.div_lt_iff_lt_mul (Nat.two_pow_pos _), ← Nat.pow_add]
    exact (Nat.log2_lt nonzero).mp (by omega)
  have full : exponent + places ≠ -1074 → 2 ^ 52 ≤ mantissa / 2 ^ places := by
    intro coarse
    rw [Nat.le_div_iff_mul_le (Nat.two_pow_pos _), ← Nat.pow_add]
    exact (Nat.le_log2 nonzero).mp (by omega)
  obtain ⟨down, up, -⟩ := nearestCount_bounds size
    (Nat.lt_of_le_of_lt (Nat.zero_le _) shifted.rest_lt)
  rw [inScale] at down up ⊢
  have some : 0 < mantissa / 2 ^ places := by
    by_cases finest : exponent + places = -1074
    · have none : places = 0 := by omega
      simpa [none] using positive
    · exact Nat.lt_of_lt_of_le (by decide) (full finest)
  obtain ⟨positive', canonical, same⟩ :=
    shiftToTargetExponent_rounded (Nat.lt_of_lt_of_le some down) (Nat.le_trans up short)
      (by omega : -1074 ≤ exponent + places) (by
        by_cases finest : exponent + places = -1074
        · exact .inr finest
        · exact .inl (Nat.le_trans (full finest) down))
  refine ⟨_, _, positive', ?_, canonical, same, full⟩
  rw [roundWithAccuracy_eq, first, shifted.roundedMantissa]
  exact dif_neg (Nat.ne_of_gt positive')

/-- Rounding gives the nearest count of steps, with no step finer than 53 digits need. -/
theorem roundWithAccuracy_steps (sign : Sign) {mantissa places : Nat} {exponent : Int}
    (positive : 0 < mantissa) (least : -1074 ≤ exponent)
    (target : max ((mantissa.log2 : Int) + exponent - 52) (-1074) - exponent = places) :
    ∃ digits place, ∃ some : 0 < digits,
      roundWithAccuracy .binary64 sign mantissa exponent .exact = .finite sign digits place some ∧
      Canonical digits place ∧
      size digits place = size (nearestSteps mantissa places) (exponent + places) ∧
      (exponent + places ≠ -1074 → 2 ^ 52 ≤ mantissa / 2 ^ places) := by
  have rounds := (cut_exact mantissa).roundWithAccuracy sign positive least target
  rwa [Nat.one_mul] at rounds

/-- The double that rounding gives: its mantissa and exponent, and how many units it stands for. -/
theorem roundWithAccuracy_rounds (sign : Sign) {mantissa : Nat} {exponent : Int}
    (positive : 0 < mantissa) (least : -1074 ≤ exponent)
    (fine : exponent ≤ max ((mantissa.log2 : Int) + exponent - 52) (-1074)) :
    ∃ digits place, ∃ some : 0 < digits,
      roundWithAccuracy .binary64 sign mantissa exponent .exact = .finite sign digits place some ∧
      Canonical digits place ∧ Rounded (size mantissa exponent) (size digits place) := by
  obtain ⟨places, target⟩ : ∃ places : Nat,
      max ((mantissa.log2 : Int) + exponent - 52) (-1074) - exponent = places :=
    ⟨_, (Int.toNat_of_nonneg (by omega)).symm⟩
  obtain ⟨digits, place, some, rounds, canonical, steps, full⟩ :=
    roundWithAccuracy_steps sign positive least target
  obtain ⟨down, up, exact⟩ := nearestSteps_bounds mantissa places
  refine ⟨digits, place, some, rounds, canonical, ?_⟩
  rw [steps, size_places _ _ least, Nat.mul_assoc, ← Nat.pow_add]
  have inUnits : size mantissa exponent / 2 ^ (places + (exponent + 1074).toNat) =
      mantissa / 2 ^ places := by
    rw [size, Nat.pow_add, Nat.mul_div_mul_right _ _ (Nat.two_pow_pos _)]
  refine Rounded.of_steps ?_ ?_ ?_ ?_ <;> rw [inUnits]
  · intro coarse
    exact full (by omega)
  · exact down
  · exact up
  · intro divides
    rw [size, Nat.pow_add] at divides
    exact exact (Nat.dvd_of_mul_dvd_mul_right (Nat.two_pow_pos _) divides)

/-- A shift to the left adds its places to the logarithm. -/
theorem log2_shiftLeft {mantissa : Nat} (positive : 0 < mantissa) (places : Nat) :
    (mantissa <<< places).log2 = mantissa.log2 + places := by
  have nonzero : mantissa ≠ 0 := Nat.ne_of_gt positive
  have scale := Nat.two_pow_pos places
  rw [Nat.shiftLeft_eq, Nat.log2_eq_iff (Nat.ne_of_gt (Nat.mul_pos positive scale)), Nat.pow_add,
    Nat.add_right_comm, Nat.pow_add _ _ places]
  exact ⟨Nat.mul_le_mul_right _ (Nat.log2_self_le nonzero),
    Nat.mul_lt_mul_of_pos_right Nat.lt_log2_self scale⟩

/-- Rounding in both directions of the exponent. -/
theorem round_rounds (sign : Sign) {mantissa : Nat} {exponent : Int} (positive : 0 < mantissa)
    (least : -1074 ≤ exponent) :
    ∃ digits place, ∃ some : 0 < digits,
      round .binary64 sign mantissa exponent = .finite sign digits place some ∧
      Canonical digits place ∧ Rounded (size mantissa exponent) (size digits place) := by
  obtain ⟨places, wide⟩ : ∃ places, places =
      (exponent - max ((mantissa.log2 : Int) + exponent - 52) (-1074)).toNat := ⟨_, rfl⟩
  have least' : -1074 ≤ exponent - places := by omega
  have positive' : 0 < mantissa <<< places := by
    rw [Nat.shiftLeft_eq]
    exact Nat.mul_pos positive (Nat.two_pow_pos _)
  have rounds := roundWithAccuracy_rounds sign positive' least' (by
    rw [log2_shiftLeft positive]
    omega)
  rw [size_shift mantissa places least'] at rounds
  have widened : UnpackedFloat.round .binary64 sign mantissa exponent =
      UnpackedFloat.roundWithAccuracy .binary64 sign (mantissa <<< places) (exponent - places)
        .exact := by
    rw [wide, ← targetExponent_eq]
    rfl
  rwa [widened]

end LineScript.Double
