import LineScript.Proofs.Double.Addition
import LineScript.Value.Basic
import Mathlib.Tactic.ByContra

/-!
# Doubles that are whole numbers
-/

namespace LineScript.Double

open Float.Model Float.Model.UnpackedFloat

/-- The mantissa field is the low 52 bits. -/
theorem unpackMantissa_toNat (bits : BitVec Format.binary64.numBits) :
    (unpackMantissa bits).toNat = bits.toNat % (1 <<< 52) := by
  simp [unpackMantissa, BitVec.extractLsb]

/-- The exponent field is the eleven bits above the mantissa. -/
theorem unpackExponent_toNat (bits : BitVec Format.binary64.numBits) :
    (unpackExponent bits).toNat = bits.toNat >>> 52 % 2048 := by
  simp [unpackExponent, BitVec.extractLsb]

/-- The sign field is the highest bit. -/
theorem unpackSign_negative (bits : BitVec Format.binary64.numBits) :
    Sign.ofBitVec (unpackSign bits) = if 1 <<< 63 ≤ bits.toNat then .negative else .positive := by
  have below : bits.toNat < 2 ^ 64 := bits.isLt
  have written : (unpackSign bits).toNat = bits.toNat >>> 63 % 2 := by
    rw [unpackSign_eq, BitVec.extractLsb'_toNat]
  rw [Nat.shiftRight_eq_div_pow] at written
  unfold Sign.ofBitVec
  by_cases negative : 1 <<< 63 ≤ bits.toNat
  · rw [if_pos negative, if_neg]
    intro zero
    rw [zero] at written
    change 0 = _ at written
    change 2 ^ 63 ≤ _ at negative
    omega
  · rw [if_neg negative, if_pos]
    apply BitVec.eq_of_toNat_eq
    rw [written]
    change ¬ 2 ^ 63 ≤ _ at negative
    change _ = 0
    omega

/-- The exact value of what is unpacked. -/
def exactOf : UnpackedFloat → Option Decimal.Binary
  | .finite sign mantissa exponent _ => some ⟨sign == .negative, mantissa, exponent⟩
  | .zero sign => some ⟨sign == .negative, 0, -1074⟩
  | .infinity _ | .notANumber => none

/-- The exact reading of a finite value has its sign, mantissa and exponent. -/
theorem exactOf_finite (sign : Sign) {mantissa : Nat} (exponent : Int) (positive : 0 < mantissa) :
    exactOf (.finite sign mantissa exponent positive) =
      some ⟨sign == .negative, mantissa, exponent⟩ :=
  rfl

/-- The exact value of a double, read off its 64 bits. -/
theorem exactOf_unpack (word : BitVec Format.binary64.numBits) :
    exactOf (UnpackedFloat.unpack .binary64 word) =
      if word.toNat >>> 52 % 2048 = 2047 then none
      else if word.toNat >>> 52 % 2048 = 0 then
        some ⟨1 <<< 63 ≤ word.toNat, word.toNat % (1 <<< 52), -1074⟩
      else some ⟨1 <<< 63 ≤ word.toNat, (1 <<< 52) + word.toNat % (1 <<< 52),
        ((word.toNat >>> 52 % 2048 : Nat) : Int) - 1075⟩ := by
  have sign : decide (1 <<< 63 ≤ word.toNat) = (Sign.ofBitVec (unpackSign word) == .negative) := by
    rw [unpackSign_negative]
    split <;> rename_i negative
    · exact decide_eq_true negative
    · exact decide_eq_false negative
  rw [← unpackExponent_toNat, ← unpackMantissa_toNat, sign, unpack_eq]
  by_cases top : unpackExponent word = -1#_
  · have written : (unpackExponent word).toNat = 2047 := by
      rw [top]
      rfl
    rw [if_pos written, if_pos top]
    split <;> rfl
  · have below := written_lt top
    rw [if_neg (Nat.ne_of_lt below), if_neg top]
    by_cases bottom : unpackExponent word = 0#_
    · have written : (unpackExponent word).toNat = 0 := by
        rw [bottom]
        rfl
      rw [if_pos written, if_pos bottom]
      by_cases none : unpackMantissa word = 0#_
      · rw [dif_pos none, none]
        rfl
      · rw [dif_neg none, exactOf_finite, written]
        rfl
    · have written : (unpackExponent word).toNat ≠ 0 := fun zero =>
        bottom (BitVec.eq_of_toNat_eq zero)
      rw [if_neg written, if_neg bottom, exactOf_finite, implicit_toNat]
      rfl

/-- The exact value of a double is read off what is unpacked. -/
theorem ofFloat?_eq (x : Float) : Decimal.Binary.ofFloat? x = exactOf x.toModel.unpack :=
  (exactOf_unpack x.toModel.toBits.toBitVec).symm

/-! ## Whole numbers -/

/-- The double is a whole number. -/
structure Denotes (x : Float) (n : Int) : Prop where
  /-- It is no NaN. -/
  number : Number x
  /-- A whole number is `2 ^ 1074` units times itself. -/
  units_eq : units x = n * (size 1 0 : Nat)

/-- The size of a whole number is that many units of one. -/
theorem size_whole (n : Nat) : size n 0 = n * size 1 0 := by
  rw [size, size, Nat.one_mul]

/-- The size of one is positive. -/
theorem unit_pos : 0 < size 1 0 := size_pos Nat.one_pos 0

/-- Doubles that denote integers are ordered as the integers are. -/
theorem Denotes.lt_iff {x y : Float} {n k : Int} (first : Denotes x n) (second : Denotes y k) :
    x < y ↔ n < k := by
  rw [Double.lt_iff, first.units_eq, second.units_eq]
  have unit := unit_pos
  have scale : n * (size 1 0 : Nat) < k * (size 1 0 : Nat) ↔ n < k :=
    Int.mul_lt_mul_right (by omega)
  rw [scale]
  exact ⟨fun ordered => ordered.2.2, fun less => ⟨first.number, second.number, less⟩⟩

/-- Doubles that denote integers are equal exactly when the integers are. -/
theorem Denotes.beq_iff {x y : Float} {n k : Int} (first : Denotes x n) (second : Denotes y k) :
    (x == y) = true ↔ n = k := by
  rw [Double.beq_iff, first.units_eq, second.units_eq]
  have unit := unit_pos
  have scale : n * (size 1 0 : Nat) = k * (size 1 0 : Nat) ↔ n = k :=
    Int.mul_eq_mul_right_iff (by omega)
  rw [scale]
  exact ⟨fun same => same.2.2, fun same => ⟨first.number, second.number, same⟩⟩

/-- Whole numbers of at most 53 digits are bounded and short. -/
theorem whole_short {n : Int} (short : n.natAbs < 2 ^ 53) :
    (n * (size 1 0 : Nat)).natAbs < limit ∧ Short (n * (size 1 0 : Nat)).natAbs := by
  rw [Int.natAbs_mul, Int.natAbs_natCast, ← size_whole]
  refine ⟨Nat.lt_of_lt_of_le (size_lt_size short 0) (size_le_size (Nat.le_refl _) (by decide)), ?_⟩
  exact ⟨n.natAbs, _, short, rfl⟩

/-- Adding whole numbers is exact while there are at most 53 digits. -/
theorem Denotes.add {x y : Float} {n k : Int} (first : Denotes x n) (second : Denotes y k)
    (left : n.natAbs < 2 ^ 53) (right : k.natAbs < 2 ^ 53) (sum : (n + k).natAbs < 2 ^ 53) :
    Denotes (x + y) (n + k) := by
  obtain ⟨bounded, short⟩ := whole_short sum
  have exact := units_add first.number second.number
    (by rw [first.units_eq]; exact (whole_short left).1)
    (by rw [second.units_eq]; exact (whole_short right).1)
  rw [first.units_eq, second.units_eq, ← Int.add_mul] at exact
  obtain ⟨number, same⟩ := exact short (Nat.le_of_lt bounded)
  exact ⟨number, same⟩

/-- At one exponent the size determines the mantissa. -/
theorem size_inj {left right : Nat} {exponent : Int}
    (same : size left exponent = size right exponent) : left = right :=
  Nat.eq_of_mul_eq_mul_right (Nat.two_pow_pos _) same

/-- The whole part of a mantissa with an exponent. -/
theorem wholeSize_of_size {mantissa n : Nat} {exponent : Int} (least : -1074 ≤ exponent)
    (same : size mantissa exponent = size n 0) (negative : Bool) :
    (Decimal.Binary.mk negative mantissa exponent).isWhole = true ∧
      (Decimal.Binary.mk negative mantissa exponent).wholeSize = n := by
  unfold Decimal.Binary.isWhole Decimal.Binary.wholeSize
  by_cases whole : 0 ≤ exponent
  · obtain ⟨places, rfl⟩ := Int.eq_ofNat_of_zero_le whole
    have placed := size_places mantissa places (by decide : -1074 ≤ (0 : Int))
    rw [Int.zero_add, same] at placed
    have digits : n = mantissa * 2 ^ places := size_inj placed
    rw [if_pos whole, decide_eq_true whole, Bool.true_or, digits]
    exact ⟨rfl, Nat.shiftLeft_eq ..⟩
  · have least' : -1074 ≤ 0 - ((-exponent).toNat : Int) := by omega
    have shifted := size_shift n (-exponent).toNat least'
    have back : (0 : Int) - (-exponent).toNat = exponent := by omega
    rw [back, ← same] at shifted
    have digits : n <<< (-exponent).toNat = mantissa := size_inj shifted
    rw [if_neg whole, ← digits, Nat.shiftLeft_shiftRight]
    refine ⟨?_, rfl⟩
    rw [Nat.shiftLeft_eq, Nat.one_shiftLeft, Nat.mul_mod_left]
    simp

/-- What is unpacked from a whole number. -/
theorem Denotes.unpack {x : Float} {n : Int} (whole : Denotes x n)
    (below : (n * (size 1 0 : Nat)).natAbs < limit) :
    (n = 0 ∧ ∃ sign, x.toModel.unpack = .zero sign) ∨
      ∃ sign mantissa exponent some,
        x.toModel.unpack = .finite sign mantissa exponent some ∧ n = sign.apply n.natAbs ∧
          size mantissa exponent = size n.natAbs 0 := by
  have stored := Number.stored x
  have bounded : Bounded x.toModel.unpack :=
    ⟨whole.number, by rwa [← whole.units_eq] at below⟩
  have units_eq := whole.units_eq
  have unit := unit_pos
  unfold units at units_eq
  generalize x.toModel.unpack = u at stored bounded units_eq
  cases u with
  | notANumber => exact absurd rfl bounded.1
  | infinity sign => exact absurd bounded (not_bounded_infinity sign)
  | zero sign =>
    refine .inl ⟨?_, sign, rfl⟩
    rcases Int.mul_eq_zero.mp units_eq.symm with none | none <;> omega
  | finite sign mantissa exponent some =>
    rw [unitsOf_finite stored] at units_eq
    have sizes : size mantissa exponent = size n.natAbs 0 := by
      have same := congrArg Int.natAbs units_eq
      rw [Int.natAbs_mul, Int.natAbs_natCast, ← size_whole] at same
      rw [← same]
      cases sign <;> simp [Sign.apply]
    refine .inr ⟨sign, mantissa, exponent, some, rfl, ?_, sizes⟩
    have scaled : n * (size 1 0 : Nat) = sign.apply n.natAbs * (size 1 0 : Nat) := by
      rw [← units_eq, sizes, size_whole, Int.natCast_mul]
      cases sign
      · exact (Int.neg_mul ..).symm
      · rfl
    exact Int.eq_of_mul_eq_mul_right (by omega) scaled

/-- The whole part of a whole number is it. -/
theorem Denotes.truncated {x : Float} {n : Int} (whole : Denotes x n)
    (short : n.natAbs < 2 ^ 53) : Decimal.isWhole x = true ∧ Decimal.truncated x = n := by
  have stored := Number.stored x
  unfold Decimal.isWhole Decimal.truncated
  rw [ofFloat?_eq]
  obtain ⟨rfl, sign, zero⟩ | ⟨sign, mantissa, exponent, some, finite, signed, sizes⟩ :=
    whole.unpack (whole_short short).1
  · rw [zero]
    cases sign <;> exact ⟨rfl, rfl⟩
  · rw [finite] at stored ⊢
    obtain ⟨isWhole, wholeSize⟩ :=
      wholeSize_of_size stored.1.least sizes (sign == .negative)
    rw [exactOf_finite]
    refine ⟨isWhole, ?_⟩
    simp only [wholeSize]
    cases sign <;> exact signed.symm

/-! ## The numbers of a script -/

/-- The absolute value of a number is a number with the absolute units. -/
theorem number_abs {x : Float} (number : Number x) :
    Number x.abs ∧ units x.abs = (units x).natAbs := by
  have stored := Number.stored x
  obtain ⟨settled, number', same⟩ : Settled x.toModel.unpack.abs ∧
      x.toModel.unpack.abs ≠ .notANumber ∧ unitsOf x.toModel.unpack.abs = (units x).natAbs := by
    unfold units
    unfold Number at number
    generalize x.toModel.unpack = u at stored number
    cases u with
    | notANumber => exact absurd rfl number
    | infinity sign =>
      refine ⟨trivial, by rintro ⟨⟩, ?_⟩
      change unitsOf (.infinity .positive) = _
      rw [unitsOf_infinity, unitsOf_infinity]
      cases sign <;> simp only [Sign.apply] <;> omega
    | finite sign mantissa exponent some =>
      refine ⟨stored.settled, by rintro ⟨⟩, ?_⟩
      change unitsOf (.finite .positive mantissa exponent some) = _
      rw [unitsOf_capped, unitsOf_capped]
      cases sign <;> simp only [Sign.apply] <;> omega
    | zero sign => exact ⟨trivial, by rintro ⟨⟩, rfl⟩
  obtain ⟨isNumber, units_abs⟩ := units_ofModel settled number'
  exact ⟨isNumber, units_abs.trans same⟩

/-- The absolute value denotes the absolute integer. -/
theorem Denotes.abs {x : Float} {n : Int} (whole : Denotes x n) : Denotes x.abs n.natAbs := by
  obtain ⟨number, units_abs⟩ := number_abs whole.number
  refine ⟨number, units_abs.trans ?_⟩
  rw [whole.units_eq, Int.natAbs_mul, Int.natAbs_natCast, Int.natCast_mul]

/-- The negated double denotes the negated integer. -/
theorem Denotes.neg {x : Float} {n : Int} (whole : Denotes x n) : Denotes (Float.neg x) (-n) := by
  have stored := Number.stored x
  obtain ⟨number, units_eq⟩ := whole
  obtain ⟨settled, number', same⟩ : Settled x.toModel.unpack.neg ∧
      x.toModel.unpack.neg ≠ .notANumber ∧ unitsOf x.toModel.unpack.neg = -units x := by
    unfold units
    unfold Number at number
    generalize x.toModel.unpack = u at stored number
    cases u with
    | notANumber => exact absurd rfl number
    | infinity sign | finite sign =>
      cases sign
      · exact ⟨stored.settled, by rintro ⟨⟩, (Int.neg_neg _).symm⟩
      · exact ⟨stored.settled, by rintro ⟨⟩, rfl⟩
    | zero sign => exact ⟨trivial, by rintro ⟨⟩, rfl⟩
  obtain ⟨isNumber, units_neg⟩ := units_ofModel settled number'
  refine ⟨isNumber, units_neg.trans ?_⟩
  rw [same, units_eq, Int.neg_mul]

/-- The limit of exact conversion. -/
theorem denotes_wholeLimit : Denotes Value.wholeLimit 9000000000000000 := by
  have unpacked : Value.wholeLimit.toModel.unpack =
      .finite .positive 9000000000000000 0 (by decide) := by rfl
  have stored : Stored Value.wholeLimit.toModel.unpack := Number.stored _
  rw [unpacked] at stored
  refine ⟨?_, ?_⟩
  · rw [Number, unpacked]
    intro same
    cases same
  · rw [units, unpacked, unitsOf_finite stored, size_whole]
    exact Int.natCast_mul ..

/-- A natural number as a double, before it is multiplied by a power of ten. -/
theorem denotes_toFloat {n : Nat} (short : n < 2 ^ 53) : Denotes n.toUInt64.toFloat n := by
  obtain ⟨settled, number, nearest⟩ := normalize_nearest n (by decide : -1074 ≤ (0 : Int))
  obtain ⟨bounded, shortUnits⟩ := whole_short (n := n) short
  have scale : (2 : Int) ^ ((0 : Int) + 1074).toNat = (size 1 0 : Nat) := by
    rw [size_cast]
    exact (Int.one_mul _).symm
  rw [scale] at nearest
  have below := nearest.below _ shortUnits (Nat.le_of_lt bounded) (Int.le_refl _)
  have above := nearest.above _ shortUnits (Nat.le_of_lt bounded) (Int.le_refl _)
  obtain ⟨isNumber, same⟩ := units_ofModel settled number
  have word : n.toUInt64.toNat = n := by
    rw [Nat.toUInt64_eq]
    exact UInt64.toNat_ofNat_of_lt' (Nat.lt_trans short (by decide))
  have made : n.toUInt64.toFloat =
      .ofModel (.pack (normalize .binary64 n.toUInt64.toNat 0 .positive)) := rfl
  rw [made, word]
  exact ⟨isNumber, same.trans (Int.le_antisymm above below)⟩

/-- The bits of one unpack to the mantissa two to the 52 at exponent -52. -/
theorem unpack_one : (Float.ofBits 0x3FF0000000000000).toModel.unpack =
    .finite .positive (2 ^ 52) (-52) (by decide) := by rfl

/-- The positive sign changes no sign. -/
theorem sign_mul_positive (sign : Sign) : sign * .positive = sign := by
  cases sign <;> rfl

/-- Multiplying a double that is not tiny by one. -/
theorem mul_one_units {sign : Sign} {mantissa : Nat} {exponent : Int} {some : 0 < mantissa}
    (stored : Stored (.finite sign mantissa exponent some)) (least : -1022 ≤ exponent) :
    let product := mul .binary64 (.finite sign mantissa exponent some)
      (.finite .positive (2 ^ 52) (-52) (by decide))
    Settled product ∧ product ≠ .notANumber ∧
      unitsOf product = unitsOf (.finite sign mantissa exponent some) := by
  have shifted : mantissa * 2 ^ 52 = mantissa <<< 52 := (Nat.shiftLeft_eq ..).symm
  obtain ⟨digits, place, some', same, canonical, rounded⟩ :=
    roundWithAccuracy_rounds sign (Nat.mul_pos some (by decide : 0 < 2 ^ 52))
      (by omega : -1074 ≤ exponent - (52 : Nat)) (by
        rw [shifted, log2_shiftLeft some]
        omega)
  rw [shifted, size_shift mantissa 52 (by omega)] at rounded
  have exact := rounded.eq_of_short ⟨mantissa, _, stored.1.below, rfl⟩
  have product : mul .binary64 (.finite sign mantissa exponent some)
      (.finite .positive (2 ^ 52) (-52) (by decide)) = .finite sign digits place some' := by
    have finer : exponent + -52 = exponent - (52 : Nat) := rfl
    change roundWithAccuracy _ (sign * .positive) (mantissa * 2 ^ 52) (exponent + -52) .exact = _
    rw [sign_mul_positive, finer, same]
  refine product ▸ ⟨canonical, by rintro ⟨⟩, ?_⟩
  rw [unitsOf_capped, unitsOf_capped, exact]

/-- A double of at least one is not tiny. -/
theorem exponent_of_whole {mantissa : Nat} {exponent : Int}
    (canonical : Canonical mantissa exponent) (great : size 1 0 ≤ size mantissa exponent) : -53 ≤ exponent := by
  have unit : size (1 <<< 53) (0 - (53 : Nat)) = size 1 0 := size_shift 1 53 (by decide)
  rw [Nat.one_shiftLeft] at unit
  by_contra tiny
  have small : size mantissa exponent < size (2 ^ 53) exponent := size_lt_size canonical.below _
  have below : size (2 ^ 53) exponent ≤ size (2 ^ 53) (0 - (53 : Nat)) :=
    size_le_size (Nat.le_refl _) (by omega)
  omega

/-- Multiplying a whole number by one. -/
theorem Denotes.mul_one {x : Float} {n : Int} (whole : Denotes x n) (short : n.natAbs < 2 ^ 53) :
    Denotes (x * Float.ofBits 0x3FF0000000000000) n := by
  have stored := Number.stored x
  have units_eq := whole.units_eq
  have made : x * Float.ofBits 0x3FF0000000000000 = .ofModel (.pack (mul .binary64 x.toModel.unpack
      (.finite .positive (2 ^ 52) (-52) (by decide)))) := by
    rw [← unpack_one]
    rfl
  rw [made]
  obtain ⟨settled, number', same⟩ :
      Settled (mul .binary64 x.toModel.unpack (.finite .positive (2 ^ 52) (-52) (by decide))) ∧
      mul .binary64 x.toModel.unpack (.finite .positive (2 ^ 52) (-52) (by decide)) ≠
        .notANumber ∧
      unitsOf (mul .binary64 x.toModel.unpack (.finite .positive (2 ^ 52) (-52) (by decide))) =
        unitsOf x.toModel.unpack := by
    obtain ⟨-, sign, zero⟩ | ⟨sign, mantissa, exponent, some, finite, -, sizes⟩ :=
      whole.unpack (whole_short short).1
    · rw [zero]
      exact ⟨trivial, by rintro ⟨⟩, rfl⟩
    · rw [finite] at stored ⊢
      have positive : 0 < n.natAbs := by
        have := size_pos some exponent
        rw [sizes, size_whole] at this
        exact Nat.pos_of_mul_pos_right this
      have great : size 1 0 ≤ size mantissa exponent := by
        rw [sizes]
        exact size_le_size positive (Int.le_refl 0)
      have := exponent_of_whole stored.1 great
      exact mul_one_units stored (by omega)
  obtain ⟨isNumber, units_mul⟩ := units_ofModel settled number'
  exact ⟨isNumber, units_mul.trans (same.trans units_eq)⟩

/-- A natural number of at most 53 digits is a double. -/
theorem denotes_ofNat {n : Nat} (short : n < 2 ^ 53) : Denotes (Float.ofNat n) n := by
  have made : Float.ofNat n = n.toUInt64.toFloat * Float.ofBits 0x3FF0000000000000 := by
    change Float.ofScientific n false 0 = _
    rw [Float.ofScientific, dif_pos ⟨short, Nat.zero_le _⟩]
    rfl
  rw [made]
  exact (denotes_toFloat short).mul_one short

/-- A double below the limit of exact conversion that is a whole number becomes one of a script. -/
theorem Denotes.ofFloat {x : Float} {n : Int} (whole : Denotes x n)
    (small : n.natAbs < 9000000000000000) : Value.ofFloat x = .number (Int64.ofInt n) := by
  obtain ⟨isWhole, truncated⟩ := whole.truncated (by omega)
  have below : x.abs < Value.wholeLimit := by
    rw [whole.abs.lt_iff denotes_wholeLimit]
    omega
  have least : ¬ n < Int64.minValue.toInt := by
    change ¬ n < -9223372036854775808
    omega
  have greatest : ¬ Int64.maxValue.toInt < n := by
    change ¬ 9223372036854775807 < n
    omega
  rw [Value.ofFloat, Value.isPlainWhole, isWhole, decide_eq_true below, Value.toInt64, truncated,
    Value.clampInt64, if_neg least, if_neg greatest]
  rfl

end LineScript.Double
