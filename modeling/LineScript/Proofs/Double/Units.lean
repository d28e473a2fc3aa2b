import LineScript.Proofs.Double.Rounding

/-!
# Units of a double

A double is 64 bits: a sign, an exponent and a mantissa without its first digit. What is unpacked
from them has a mantissa of at most 53 digits and an exponent in range. It stands for a number of
units, multiples of the least positive double, and comparing doubles compares these. An infinity
counts as the least power of two that is too large for a double, and a NaN stands for no number: it
is neither less than nor equal to anything.
-/

namespace LineScript.Double

open Float.Model Float.Model.UnpackedFloat

/-! ## Packing -/

/-- The mantissa and exponent are as a double has them, except that the exponent may be too
large. -/
def Settled : UnpackedFloat → Prop
  | .finite _ mantissa exponent _ => Canonical mantissa exponent
  | _ => True

/-- The unpacked number is a double. -/
def Stored : UnpackedFloat → Prop
  | .finite _ mantissa exponent _ => Canonical mantissa exponent ∧ exponent ≤ 971
  | _ => True

/-- Every stored value is settled. -/
theorem Stored.settled {u : UnpackedFloat} (stored : Stored u) : Settled u := by
  cases u <;> first | exact stored.1 | trivial

/-- The mantissa with the digit that is not written. -/
theorem implicit_toNat (fraction : BitVec Format.binary64.mantissaBitsWithoutImplicit) :
    (1#1 ++ fraction).toNat = 2 ^ 52 + fraction.toNat := by
  have below : fraction.toNat < 2 ^ 52 := fraction.isLt
  have lead : (1#1).toNat <<< Format.binary64.mantissaBitsWithoutImplicit = 2 ^ 52 * 1 := rfl
  rw [BitVec.toNat_append, lead, ← Nat.two_pow_add_eq_or_of_lt below 1, Nat.mul_one]

/-- The written exponent of a double that is neither infinite nor a NaN. -/
theorem written_lt {written : BitVec Format.binary64.exponentBits} (notTop : written ≠ -1#_) :
    written.toNat < 2047 := by
  have bound : written.toNat < 2 ^ 11 := written.isLt
  have top : written.toNat ≠ 2047 := fun same => notTop (BitVec.eq_of_toNat_eq same)
  omega

/-- What 64 bits stand for: the written exponent tells how they are read. -/
theorem unpack_eq (bits : BitVec Format.binary64.numBits) :
    UnpackedFloat.unpack .binary64 bits =
      if unpackExponent bits = -1#_ then
        if unpackMantissa bits = 0#_ then .infinity (Sign.ofBitVec (unpackSign bits))
        else .notANumber
      else if unpackExponent bits = 0#_ then
        if none : unpackMantissa bits = 0#_ then .zero (Sign.ofBitVec (unpackSign bits))
        else .finite (Sign.ofBitVec (unpackSign bits)) (unpackMantissa bits).toNat
          ((unpackExponent bits).toNat - 1075 + 1) (by
            simpa [BitVec.toNat_pos, BitVec.pos_iff_ne_zero])
      else .finite (Sign.ofBitVec (unpackSign bits)) (1#1 ++ unpackMantissa bits).toNat
        ((unpackExponent bits).toNat - 1075) (by
          rw [implicit_toNat]
          omega) :=
  rfl

/-- Numbers with equal parts are equal. -/
theorem finite_eq {sign : Sign} {mantissa digits : Nat} {exponent place : Int}
    {some : 0 < mantissa} {some' : 0 < digits} (same : mantissa = digits)
    (height : exponent = place) :
    UnpackedFloat.finite sign mantissa exponent some = .finite sign digits place some' := by
  subst same height
  rfl

/-- What is unpacked is a double. -/
theorem stored_unpack (bits : BitVec Format.binary64.numBits) :
    Stored (UnpackedFloat.unpack .binary64 bits) := by
  have fraction : (unpackMantissa bits).toNat < 2 ^ 52 := (unpackMantissa bits).isLt
  rw [unpack_eq]
  by_cases top : unpackExponent bits = -1#_
  · rw [if_pos top]
    split <;> trivial
  · rw [if_neg top]
    have below := written_lt top
    by_cases bottom : unpackExponent bits = 0#_
    · rw [if_pos bottom]
      by_cases none : unpackMantissa bits = 0#_
      · rw [dif_pos none]
        trivial
      · rw [dif_neg none, bottom]
        exact ⟨⟨by omega, by simp, .inr (by simp)⟩, by simp⟩
    · rw [if_neg bottom]
      have above : 0 < (unpackExponent bits).toNat := by
        rw [Nat.pos_iff_ne_zero]
        exact fun zero => bottom (BitVec.eq_of_toNat_eq zero)
      change Canonical (1#1 ++ unpackMantissa bits).toNat _ ∧ _ ≤ _
      rw [implicit_toNat]
      exact ⟨⟨by omega, by omega, .inl (by omega)⟩, by omega⟩

/-- The sign is the first of the 64 bits. -/
theorem unpackSign_eq (bits : BitVec Format.binary64.numBits) :
    unpackSign bits = BitVec.extractLsb' 63 1 bits :=
  rfl

/-- The packed sign is unpacked again. -/
theorem unpackSign_packComponents (sign : Sign) (written : BitVec Format.binary64.exponentBits)
    (fraction : BitVec Format.binary64.mantissaBitsWithoutImplicit) :
    unpackSign (packComponents .binary64 sign written fraction) = sign.toBitVec := by
  ext i hi
  have first : i = 0 := by omega
  subst first
  rw [unpackSign_eq, packComponents]
  simp
  rw [BitVec.getLsbD_append, BitVec.getLsbD_append]
  simp

/-- A sign survives its bit. -/
theorem ofBitVec_toBitVec (sign : Sign) : Sign.ofBitVec sign.toBitVec = sign := by
  cases sign <;> rfl

/-- Unpacking, on packed components. -/
theorem unpack_packComponents (sign : Sign) (written : BitVec Format.binary64.exponentBits)
    (fraction : BitVec Format.binary64.mantissaBitsWithoutImplicit) :
    UnpackedFloat.unpack .binary64 (packComponents .binary64 sign written fraction) =
      if written = -1#_ then if fraction = 0#_ then .infinity sign else .notANumber
      else if written = 0#_ then
        if some : fraction = 0#_ then .zero sign
        else .finite sign fraction.toNat (-1074) (by
          simpa [BitVec.toNat_pos, BitVec.pos_iff_ne_zero])
      else .finite sign (1#1 ++ fraction).toNat (written.toNat - 1075) (by
        rw [implicit_toNat]
        omega) := by
  have mantissas : unpackMantissa (packComponents .binary64 sign written fraction) = fraction :=
    unpackMantissa_packComponents
  have exponents : unpackExponent (packComponents .binary64 sign written fraction) = written :=
    unpackExponent_packComponents
  have signs := unpackSign_packComponents sign written fraction
  generalize packComponents .binary64 sign written fraction = bits at *
  subst mantissas exponents
  rw [unpack_eq, signs, ofBitVec_toBitVec]
  by_cases top : unpackExponent bits = -1#_
  · rw [if_pos top, if_pos top]
  · rw [if_neg top, if_neg top]
    by_cases bottom : unpackExponent bits = 0#_
    · rw [if_pos bottom, if_pos bottom]
      by_cases none : unpackMantissa bits = 0#_
      · rw [dif_pos none, dif_pos none]
      · rw [dif_neg none, dif_neg none]
        exact finite_eq rfl (by rw [bottom]; rfl)
    · rw [if_neg bottom, if_neg bottom]

/-- Packing as bits and unpacking. -/
theorem unpack_model_pack (u : UnpackedFloat) :
    (Float.Model.pack u).unpack = UnpackedFloat.unpack .binary64 (UnpackedFloat.pack .binary64 u) :=
  rfl

/-- A double with all its digits is packed without the first of them. -/
theorem unpack_normal (sign : Sign) {mantissa : Nat} {exponent : Int} (some : 0 < mantissa)
    (digits : mantissa.log2 = 52) (least : -1074 ≤ exponent) (greatest : exponent ≤ 971) :
    UnpackedFloat.unpack .binary64 (packComponents .binary64 sign
        (BitVec.ofNat _ (exponent + 1075).toNat) (BitVec.ofNat _ mantissa)) =
      .finite sign mantissa exponent some := by
  obtain ⟨full, short⟩ := (Nat.log2_eq_iff (Nat.ne_of_gt some)).mp digits
  have written : (BitVec.ofNat Format.binary64.exponentBits (exponent + 1075).toNat).toNat =
      (exponent + 1075).toNat := by
    rw [BitVec.toNat_ofNat]
    exact Nat.mod_eq_of_lt (by change _ < 2048; omega)
  have mantissas : (1#1 ++ BitVec.ofNat Format.binary64.mantissaBitsWithoutImplicit
      mantissa).toNat = mantissa := by
    have rest : (BitVec.ofNat Format.binary64.mantissaBitsWithoutImplicit mantissa).toNat =
      mantissa % 2 ^ 52 := BitVec.toNat_ofNat ..
    rw [implicit_toNat, rest]
    omega
  rw [unpack_packComponents, if_neg, if_neg]
  · exact finite_eq mantissas (by omega)
  · intro bottom
    have := congrArg BitVec.toNat bottom
    rw [written] at this
    change _ = 0 at this
    omega
  · intro top
    have := congrArg BitVec.toNat top
    rw [written] at this
    change _ = 2047 at this
    omega

/-- A double with fewer digits is packed as it is. -/
theorem unpack_subnormal (sign : Sign) {mantissa : Nat} (some : 0 < mantissa)
    (short : mantissa < 2 ^ 52) :
    UnpackedFloat.unpack .binary64
        (packComponents .binary64 sign 0#_ (BitVec.ofNat _ mantissa)) =
      .finite sign mantissa (-1074) some := by
  have fraction : (BitVec.ofNat Format.binary64.mantissaBitsWithoutImplicit mantissa).toNat =
      mantissa := by
    rw [BitVec.toNat_ofNat]
    exact Nat.mod_eq_of_lt short
  rw [unpack_packComponents, if_neg (by decide), if_pos rfl, dif_neg]
  · exact finite_eq fraction rfl
  · intro none
    have := congrArg BitVec.toNat none
    rw [fraction] at this
    exact Nat.ne_of_gt some this

/-- How a finite number is packed: as an infinity when it is too large, without its first digit when
it has all its digits, and as it is when it has fewer. -/
theorem pack_finite (sign : Sign) {mantissa : Nat} (exponent : Int) (some : 0 < mantissa) :
    UnpackedFloat.pack .binary64 (.finite sign mantissa exponent some) =
      if 2048 ≤ (exponent + 1023 + 52).toNat + 1 then packedInfinity .binary64 sign
      else if mantissa.log2 + 1 = 53 then
        packComponents .binary64 sign (BitVec.ofNat _ (exponent + 1023 + 52).toNat)
          (BitVec.ofNat _ mantissa)
      else packComponents .binary64 sign 0#_ (BitVec.ofNat _ mantissa) :=
  rfl

/-- Packing keeps a double. -/
theorem unpack_pack {u : UnpackedFloat} (stored : Stored u) : (Float.Model.pack u).unpack = u := by
  rw [unpack_model_pack]
  cases u with
  | notANumber =>
    change UnpackedFloat.unpack _ (packComponents .binary64 _ _ _) = _
    rw [unpack_packComponents]
    rfl
  | infinity sign =>
    change UnpackedFloat.unpack _ (packComponents .binary64 _ _ _) = _
    rw [unpack_packComponents]
    rfl
  | zero sign =>
    change UnpackedFloat.unpack _ (packComponents .binary64 _ _ _) = _
    rw [unpack_packComponents]
    rfl
  | finite sign mantissa exponent some =>
    obtain ⟨⟨short, least, full⟩, greatest⟩ := stored
    have nonzero : mantissa ≠ 0 := Nat.ne_of_gt some
    have written : exponent + 1023 + 52 = exponent + 1075 := by omega
    rw [pack_finite, if_neg (by omega)]
    by_cases digits : mantissa.log2 + 1 = 53
    · rw [if_pos digits, written]
      exact unpack_normal sign some (by omega) least greatest
    · rw [if_neg digits]
      have few : mantissa < 2 ^ 52 := by
        apply (Nat.log2_lt nonzero).mp
        have : mantissa.log2 < 53 := (Nat.log2_lt nonzero).mpr short
        omega
      have finest : exponent = -1074 := full.resolve_left (Nat.not_le_of_lt few)
      subst finest
      exact unpack_subnormal sign some few

/-- Packing makes an infinity of a number that is too large for a double. -/
theorem unpack_pack_overflow (sign : Sign) {mantissa : Nat} {exponent : Int} (some : 0 < mantissa)
    (great : 971 < exponent) :
    (Float.Model.pack (.finite sign mantissa exponent some)).unpack = .infinity sign := by
  rw [unpack_model_pack, pack_finite, if_pos (by omega), packedInfinity, unpack_packComponents]
  rfl

/-! ## Units -/

/-- The units of `2 ^ 1024`, the least power of two that is too large for a double. -/
def limit : Nat := size (2 ^ 53) 971

/-- How many units an unpacked double stands for; an infinity counts as the least number that is too
large for a double. -/
def unitsOf : UnpackedFloat → Int
  | .finite sign mantissa exponent _ => sign.apply (min (size mantissa exponent) limit : Nat)
  | .infinity sign => sign.apply limit
  | .zero _ | .notANumber => 0

/-- A finite value counts its size in units, capped at the limit. -/
theorem unitsOf_capped (sign : Sign) {mantissa : Nat} (exponent : Int) (some : 0 < mantissa) :
    unitsOf (.finite sign mantissa exponent some) =
      sign.apply (min (size mantissa exponent) limit : Nat) :=
  rfl

/-- Infinity counts as the limit. -/
theorem unitsOf_infinity (sign : Sign) : unitsOf (.infinity sign) = sign.apply limit := rfl

/-- Zero counts no units. -/
theorem unitsOf_zero (sign : Sign) : unitsOf (.zero sign) = 0 := rfl

/-- How many units a double stands for. -/
def units (x : Float) : Int := unitsOf x.toModel.unpack

/-- The limit is the first size past the largest exponent. -/
theorem limit_eq : limit = size (2 ^ 52) (971 + 1) := by
  rw [limit, size_carry (by decide)]

/-- A canonical value of a representable exponent lies below the limit. -/
theorem Canonical.size_lt_limit {mantissa : Nat} {exponent : Int}
    (canonical : Canonical mantissa exponent) (greatest : exponent ≤ 971) :
    size mantissa exponent < limit :=
  Nat.lt_of_lt_of_le (size_lt_size canonical.below exponent)
    (size_le_size (Nat.le_refl _) greatest)

/-- A canonical value beyond the largest exponent reaches the limit. -/
theorem Canonical.limit_le_size {mantissa : Nat} {exponent : Int}
    (canonical : Canonical mantissa exponent) (great : 971 < exponent) :
    limit ≤ size mantissa exponent := by
  have full : 2 ^ 52 ≤ mantissa := canonical.full.resolve_right (by omega)
  rw [limit_eq]
  exact size_le_size full great

/-- A rounded number keeps its units when it is packed. -/
theorem unitsOf_pack {u : UnpackedFloat} (settled : Settled u) :
    unitsOf (Float.Model.pack u).unpack = unitsOf u := by
  cases u with
  | finite sign mantissa exponent some =>
    by_cases greatest : exponent ≤ 971
    · have stored : Stored (.finite sign mantissa exponent some) := ⟨settled, greatest⟩
      rw [unpack_pack stored]
    · have great := Canonical.limit_le_size settled (Int.not_le.mp greatest)
      rw [unpack_pack_overflow sign some (Int.not_le.mp greatest), unitsOf_capped, unitsOf_infinity,
        Nat.min_eq_right great]
  | infinity | notANumber | zero => exact congrArg unitsOf (unpack_pack trivial)

/-- Packing makes no NaN of a number. -/
theorem unpack_pack_eq_nan {u : UnpackedFloat} (settled : Settled u) :
    (Float.Model.pack u).unpack = .notANumber ↔ u = .notANumber := by
  cases u with
  | finite sign mantissa exponent some =>
    by_cases greatest : exponent ≤ 971
    · have stored : Stored (.finite sign mantissa exponent some) := ⟨settled, greatest⟩
      rw [unpack_pack stored]
    · rw [unpack_pack_overflow sign some (Int.not_le.mp greatest)]
      exact iff_of_false (by rintro ⟨⟩) (by rintro ⟨⟩)
  | infinity sign => rw [unpack_pack (u := .infinity sign) trivial]
  | zero sign => rw [unpack_pack (u := .zero sign) trivial]
  | notANumber => rw [unpack_pack (u := .notANumber) trivial]

/-! ## Order -/

/-- Mantissas and exponents are compared as the numbers they stand for. -/
theorem compare_sizes {left right : Nat} {low high : Int} (first : Canonical left low)
    (second : Canonical right high) :
    (compare low high).then (compare left right) = compare (size left low) (size right high) := by
  rcases Int.lt_trichotomy low high with less | rfl | greater
  · rw [Int.compare_eq_lt.mpr less, Nat.compare_eq_lt.mpr (first.size_lt second less)]
    rfl
  · rw [Int.compare_eq_eq.mpr rfl]
    change compare left right = _
    rcases Nat.lt_trichotomy left right with less | rfl | greater
    · rw [Nat.compare_eq_lt.mpr less, Nat.compare_eq_lt.mpr (size_lt_size less low)]
    · rw [Nat.compare_eq_eq.mpr rfl, Nat.compare_eq_eq.mpr rfl]
    · rw [Nat.compare_eq_gt.mpr greater, Nat.compare_eq_gt.mpr (size_lt_size greater low)]
  · rw [Int.compare_eq_gt.mpr greater, Nat.compare_eq_gt.mpr (second.size_lt first greater)]
    rfl

/-- Naturals compare as their integers do. -/
theorem compare_cast (left right : Nat) : compare (left : Int) right = compare left right := by
  rcases Nat.lt_trichotomy left right with less | rfl | greater
  · rw [Nat.compare_eq_lt.mpr less, Int.compare_eq_lt]
    omega
  · rw [Nat.compare_eq_eq.mpr rfl, Int.compare_eq_eq]
  · rw [Nat.compare_eq_gt.mpr greater, Int.compare_eq_gt]
    omega

/-- Negation turns the comparison round. -/
theorem compare_neg (left right : Nat) :
    compare (-left : Int) (-right) = (compare left right).swap := by
  rcases Nat.lt_trichotomy left right with less | rfl | greater
  · rw [Nat.compare_eq_lt.mpr less]
    exact Int.compare_eq_gt.mpr (by omega)
  · rw [Nat.compare_eq_eq.mpr rfl]
    exact Int.compare_eq_eq.mpr rfl
  · rw [Nat.compare_eq_gt.mpr greater]
    exact Int.compare_eq_lt.mpr (by omega)

/-- A mantissa other than zero has a positive size. -/
theorem size_pos {mantissa : Nat} (some : 0 < mantissa) (exponent : Int) :
    0 < size mantissa exponent :=
  Nat.mul_pos some (Nat.two_pow_pos _)

/-- The limit is positive. -/
theorem limit_pos : 0 < limit := size_pos (Nat.two_pow_pos 53) 971

/-- The units of a finite double. -/
theorem unitsOf_finite {sign : Sign} {mantissa : Nat} {exponent : Int} {some : 0 < mantissa}
    (stored : Stored (.finite sign mantissa exponent some)) :
    unitsOf (.finite sign mantissa exponent some) = sign.apply (size mantissa exponent : Nat) := by
  rw [unitsOf_capped, Nat.min_eq_left (Nat.le_of_lt (stored.1.size_lt_limit stored.2))]

/-- A smaller integer compares as less. -/
theorem some_lt {a b : Int} (less : a < b) : some Ordering.lt = some (compare a b) :=
  congrArg some (Int.compare_eq_lt.mpr less).symm

/-- A greater integer compares as greater. -/
theorem some_gt {a b : Int} (greater : b < a) : some Ordering.gt = some (compare a b) :=
  congrArg some (Int.compare_eq_gt.mpr greater).symm

/-- Equal integers compare as equal. -/
theorem some_eq {a b : Int} (same : a = b) : some Ordering.eq = some (compare a b) :=
  congrArg some (Int.compare_eq_eq.mpr same).symm

/-- Doubles are compared by their units. -/
theorem compare_unitsOf {u v : UnpackedFloat} (first : Stored u) (second : Stored v)
    (number : u ≠ .notANumber) (other : v ≠ .notANumber) :
    u.compare v = some (compare (unitsOf u) (unitsOf v)) := by
  have room := limit_pos
  cases u with
  | notANumber => exact absurd rfl number
  | infinity sign =>
    cases v with
    | notANumber => exact absurd rfl other
    | infinity sign' | zero sign' =>
      cases sign <;> cases sign' <;> first
        | exact some_lt (by simp only [unitsOf_infinity, unitsOf_zero, Sign.apply]; omega)
        | exact some_gt (by simp only [unitsOf_infinity, unitsOf_zero, Sign.apply]; omega)
        | exact some_eq rfl
    | finite sign' mantissa' exponent' more' =>
      have high' := second.1.size_lt_limit second.2
      rw [unitsOf_finite second]
      cases sign <;> cases sign' <;> first
        | exact some_lt (by simp only [unitsOf_infinity, Sign.apply]; omega)
        | exact some_gt (by simp only [unitsOf_infinity, Sign.apply]; omega)
  | zero sign =>
    cases v with
    | notANumber => exact absurd rfl other
    | infinity sign' | zero sign' =>
      cases sign <;> cases sign' <;> first
        | exact some_lt (by simp only [unitsOf_infinity, unitsOf_zero, Sign.apply]; omega)
        | exact some_gt (by simp only [unitsOf_infinity, unitsOf_zero, Sign.apply]; omega)
        | exact some_eq rfl
    | finite sign' mantissa' exponent' more' =>
      have low' := size_pos more' exponent'
      rw [unitsOf_finite second]
      cases sign' <;> first
        | exact some_lt (by simp only [unitsOf_zero, Sign.apply]; omega)
        | exact some_gt (by simp only [unitsOf_zero, Sign.apply]; omega)
  | finite sign mantissa exponent more =>
    have low := size_pos more exponent
    have high := first.1.size_lt_limit first.2
    rw [unitsOf_finite first]
    cases v with
    | notANumber => exact absurd rfl other
    | infinity sign' | zero sign' =>
      cases sign <;> cases sign' <;> first
        | exact some_lt (by simp only [unitsOf_infinity, unitsOf_zero, Sign.apply]; omega)
        | exact some_gt (by simp only [unitsOf_infinity, unitsOf_zero, Sign.apply]; omega)
    | finite sign' mantissa' exponent' more' =>
      have low' := size_pos more' exponent'
      rw [unitsOf_finite second]
      cases sign <;> cases sign'
      · change _ = some (compare (-(size mantissa exponent : Int)) (-(size mantissa' exponent' : Int)))
        rw [compare_neg, ← compare_sizes first.1 second.1]
        rfl
      · exact some_lt (by simp only [Sign.apply]; omega)
      · exact some_gt (by simp only [Sign.apply]; omega)
      · change _ = some (compare (size mantissa exponent : Int) (size mantissa' exponent' : Int))
        rw [compare_cast, ← compare_sizes first.1 second.1]
        rfl

/-- The units of a double that is not a NaN keep within the limit. -/
theorem natAbs_unitsOf_le {u : UnpackedFloat} (stored : Stored u) :
    (unitsOf u).natAbs ≤ limit := by
  cases u with
  | finite sign mantissa exponent more =>
    have high := stored.1.size_lt_limit stored.2
    rw [unitsOf_finite stored]
    cases sign <;> simp only [Sign.apply] <;> omega
  | infinity sign =>
    rw [unitsOf_infinity]
    cases sign <;> simp only [Sign.apply] <;> omega
  | notANumber | zero => exact Nat.zero_le _

/-! ## Floats -/

/-- A double is NaN exactly when it unpacks to no number. -/
theorem isNaN_iff {x : Float} : x.isNaN = true ↔ x.toModel.unpack = .notANumber := by
  change x.toModel.unpack.isNaN = true ↔ _
  cases x.toModel.unpack with
  | notANumber => exact iff_of_true rfl rfl
  | infinity | zero | finite => exact iff_of_false Bool.false_ne_true (by rintro ⟨⟩)

/-- A float that stands for a number or an infinity. -/
def Number (x : Float) : Prop := x.toModel.unpack ≠ .notANumber

/-- A double is a number exactly when it is not NaN. -/
theorem number_iff {x : Float} : Number x ↔ x.isNaN = false := by
  rw [← Bool.not_eq_true, isNaN_iff, Number]

/-- Comparing gives an answer for numbers only, and then compares their units. -/
theorem compare_iff {x y : Float} {order : Ordering} :
    x.toModel.unpack.compare y.toModel.unpack = some order ↔
      Number x ∧ Number y ∧ compare (units x) (units y) = order := by
  have first := stored_unpack x.toModel.toBits.toBitVec
  have second := stored_unpack y.toModel.toBits.toBitVec
  unfold Number units
  change Stored x.toModel.unpack at first
  change Stored y.toModel.unpack at second
  generalize x.toModel.unpack = u at first
  generalize y.toModel.unpack = v at second
  constructor
  · intro same
    have number : u ≠ .notANumber := by
      rintro rfl
      cases same
    have other : v ≠ .notANumber := by
      rintro rfl
      cases u with
      | finite sign | infinity sign => cases sign <;> cases same
      | zero | notANumber => cases same
    rw [compare_unitsOf first second number other] at same
    exact ⟨number, other, Option.some.inj same⟩
  · rintro ⟨number, other, rfl⟩
    exact compare_unitsOf first second number other

/-- The order of doubles is the order of their units, among numbers. -/
theorem lt_iff {x y : Float} : x < y ↔ Number x ∧ Number y ∧ units x < units y := by
  have compared : x < y ↔ x.toModel.unpack.compare y.toModel.unpack = some .lt :=
    decide_eq_true_iff.trans beq_iff_eq
  rw [compared, compare_iff, Int.compare_eq_lt]

/-- Equality of doubles is equality of their units, among numbers. -/
theorem beq_iff {x y : Float} : (x == y) = true ↔ Number x ∧ Number y ∧ units x = units y := by
  have compared : (x == y) = true ↔ x.toModel.unpack.compare y.toModel.unpack = some .eq := by
    change (x.toModel.unpack.compare y.toModel.unpack == some .eq) = true ↔ _
    exact beq_iff_eq
  rw [compared, compare_iff, Int.compare_eq_eq]

/-- The float of a rounded number has its units. -/
theorem units_ofModel {u : UnpackedFloat} (settled : Settled u) (number : u ≠ .notANumber) :
    Number (.ofModel (.pack u)) ∧ units (.ofModel (.pack u)) = unitsOf u :=
  ⟨fun nan => number ((unpack_pack_eq_nan settled).mp nan), unitsOf_pack settled⟩

end LineScript.Double
