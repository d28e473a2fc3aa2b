import LineScript.Proofs.Double.Units

/-!
# Adding doubles

The sum of two finite doubles is the exact sum, rounded: no double lies between the two. So adding a
number that is not negative does not make a double smaller, and a sum that is a double is exact. The
sum of two doubles that are not NaNs is a NaN for the two infinities of different sign only, and
adding the second of two such doubles again never gives a NaN when the first sum is none.
-/

namespace LineScript.Double

open Float.Model Float.Model.UnpackedFloat

/-- No double lies between a number of units and the result. -/
structure Nearest (exact result : Int) : Prop where
  /-- Doubles that are not above stay so. -/
  below : ∀ other : Int, Short other.natAbs → other.natAbs ≤ limit → other ≤ exact → other ≤ result
  /-- Doubles that are not below stay so. -/
  above : ∀ other : Int, Short other.natAbs → other.natAbs ≤ limit → exact ≤ other → result ≤ other

/-- A double is rounded to itself. -/
theorem Nearest.refl (exact : Int) : Nearest exact exact :=
  ⟨fun _ _ _ le => le, fun _ _ _ le => le⟩

/-- Rounding to nearest commutes with the change of sign. -/
theorem Nearest.neg {exact result : Int} (nearest : Nearest exact result) :
    Nearest (-exact) (-result) := by
  constructor <;> intro other short within le
  · have := nearest.above (-other) (by rwa [Int.natAbs_neg]) (by rwa [Int.natAbs_neg]) (by omega)
    omega
  · have := nearest.below (-other) (by rwa [Int.natAbs_neg]) (by rwa [Int.natAbs_neg]) (by omega)
    omega

/-- Rounding a size rounds the number, even where the result is too large for a double. -/
theorem Rounded.nearest {exact result : Nat} (rounded : Rounded exact result) :
    Nearest exact (min result limit : Nat) := by
  constructor <;> intro other short within le
  · by_cases negative : other < 0
    · omega
    · have := rounded.below other.natAbs short (by omega)
      omega
  · have := rounded.above other.natAbs short (by omega)
    omega

/-- The largest magnitude has few enough digits. -/
theorem short_limit : Short limit := ⟨2 ^ 52, _, by decide, limit_eq⟩

/-- The units of a double are a short number. -/
theorem short_unitsOf {u : UnpackedFloat} (stored : Stored u) : Short (unitsOf u).natAbs := by
  have sized : ∀ sign : Sign, ∀ n : Nat, (sign.apply n).natAbs = n := by
    intro sign n
    cases sign <;> simp [Sign.apply]
  cases u with
  | finite sign mantissa exponent some =>
    rw [unitsOf_finite stored, sized]
    exact ⟨mantissa, _, stored.1.below, rfl⟩
  | infinity sign =>
    rw [unitsOf_infinity, sized]
    exact short_limit
  | zero | notANumber => exact ⟨0, 0, by decide, rfl⟩

/-- The size of a finite value, as an integer, is its mantissa at its place. -/
theorem size_cast (mantissa : Nat) (exponent : Int) :
    ((size mantissa exponent : Nat) : Int) = mantissa * 2 ^ (exponent + 1074).toNat := by
  rw [size, Int.natCast_mul, Int.natCast_pow]
  rfl

/-- Rounding a mantissa with a sign. -/
theorem normalize_nearest (mantissa : Int) {exponent : Int} (least : -1074 ≤ exponent) :
    let result := UnpackedFloat.normalize .binary64 mantissa exponent .positive
    Settled result ∧ result ≠ .notANumber ∧
      Nearest (mantissa * 2 ^ (exponent + 1074).toNat) (unitsOf result) := by
  unfold UnpackedFloat.normalize
  rcases Int.lt_trichotomy mantissa 0 with negative | rfl | positive
  · obtain ⟨digits, place, some, same, canonical, rounded⟩ :=
      round_rounds .negative (by omega : 0 < (-mantissa).toNat) least
    have exact : mantissa * 2 ^ (exponent + 1074).toNat =
        -((size (-mantissa).toNat exponent : Nat) : Int) := by
      rw [size_cast, Int.toNat_of_nonneg (by omega), Int.neg_mul, Int.neg_neg]
    rw [Int.compare_eq_lt.mpr negative, exact]
    change Settled (round .binary64 .negative _ _) ∧ round .binary64 .negative _ _ ≠ _ ∧
      Nearest _ (unitsOf (round .binary64 .negative _ _))
    rw [same]
    exact ⟨canonical, by rintro ⟨⟩, rounded.nearest.neg⟩
  · rw [Int.compare_eq_eq.mpr rfl, Int.zero_mul]
    exact ⟨trivial, by simp, Nearest.refl 0⟩
  · obtain ⟨digits, place, some, same, canonical, rounded⟩ :=
      round_rounds .positive (by omega : 0 < mantissa.toNat) least
    have exact : mantissa * 2 ^ (exponent + 1074).toNat =
        ((size mantissa.toNat exponent : Nat) : Int) := by
      rw [size_cast, Int.toNat_of_nonneg (by omega)]
    rw [Int.compare_eq_gt.mpr positive, exact]
    change Settled (round .binary64 .positive _ _) ∧ round .binary64 .positive _ _ ≠ _ ∧
      Nearest _ (unitsOf (round .binary64 .positive _ _))
    rw [same]
    exact ⟨canonical, by rintro ⟨⟩, rounded.nearest⟩

/-- A double that is neither a NaN nor an infinity. -/
def Bounded (u : UnpackedFloat) : Prop := u ≠ .notANumber ∧ (unitsOf u).natAbs < limit

/-- Infinity is not bounded. -/
theorem not_bounded_infinity (sign : Sign) : ¬ Bounded (.infinity sign) := by
  rintro ⟨-, below⟩
  rw [unitsOf_infinity] at below
  cases sign <;> simp only [Sign.apply] at below <;> omega

/-- A mantissa written with a smaller exponent. -/
theorem unitsOf_decreaseExponent {sign : Sign} {mantissa : Nat} {exponent target : Int}
    {some : 0 < mantissa} (stored : Stored (.finite sign mantissa exponent some))
    (least : -1074 ≤ target) (le : target ≤ exponent) :
    sign.apply (decreaseExponent mantissa exponent target).1 * 2 ^ (target + 1074).toNat =
      unitsOf (.finite sign mantissa exponent some) := by
  have places : exponent - (exponent - target).toNat = target := by omega
  have sized := size_shift mantissa (exponent - target).toNat
    (by omega : -1074 ≤ exponent - (exponent - target).toNat)
  rw [places] at sized
  have cast := size_cast (mantissa <<< (exponent - target).toNat) target
  rw [unitsOf_finite stored, ← sized, cast]
  cases sign
  · exact Int.neg_mul ..
  · rfl

/-- The sum of finite doubles. -/
theorem add_nearest {u v : UnpackedFloat} (first : Stored u) (second : Stored v)
    (bounded : Bounded u) (other : Bounded v) :
    Settled (add .binary64 u v) ∧ add .binary64 u v ≠ .notANumber ∧
      Nearest (unitsOf u + unitsOf v) (unitsOf (add .binary64 u v)) := by
  cases u with
  | notANumber => exact absurd rfl bounded.1
  | infinity sign => exact absurd bounded (not_bounded_infinity sign)
  | zero sign =>
    cases v with
    | notANumber => exact absurd rfl other.1
    | infinity sign' => exact absurd other (not_bounded_infinity sign')
    | zero sign' => cases sign <;> cases sign' <;> exact ⟨trivial, by rintro ⟨⟩, Nearest.refl 0⟩
    | finite sign' mantissa' exponent' some' =>
      have none : unitsOf (.zero sign) = 0 := rfl
      rw [none, Int.zero_add]
      exact ⟨second.settled, by rintro ⟨⟩, Nearest.refl _⟩
  | finite sign mantissa exponent some =>
    cases v with
    | notANumber => exact absurd rfl other.1
    | infinity sign' => exact absurd other (not_bounded_infinity sign')
    | zero sign' =>
      have none : unitsOf (.zero sign') = 0 := rfl
      rw [none, Int.add_zero]
      exact ⟨first.settled, by rintro ⟨⟩, Nearest.refl _⟩
    | finite sign' mantissa' exponent' some' =>
      have least := first.1.least
      have least' := second.1.least
      have nearest := normalize_nearest
        (sign.apply (decreaseExponent mantissa exponent (min exponent exponent')).1 +
          sign'.apply (decreaseExponent mantissa' exponent' (min exponent exponent')).1)
        (by omega : -1074 ≤ min exponent exponent')
      rw [Int.add_mul, unitsOf_decreaseExponent first (by omega) (Int.min_le_left ..),
        unitsOf_decreaseExponent second (by omega) (Int.min_le_right ..)] at nearest
      exact nearest

/-- A double that is no NaN is bounded or an infinity. -/
theorem bounded_or_infinity {u : UnpackedFloat} (stored : Stored u) (number : u ≠ .notANumber) :
    Bounded u ∨ ∃ sign, u = .infinity sign := by
  have room := limit_pos
  cases u with
  | notANumber => exact absurd rfl number
  | infinity sign => exact .inr ⟨sign, rfl⟩
  | zero sign => exact .inl ⟨number, room⟩
  | finite sign mantissa exponent some =>
    have below := stored.1.size_lt_limit stored.2
    refine .inl ⟨number, ?_⟩
    rw [unitsOf_finite stored]
    cases sign <;> simp only [Sign.apply] <;> omega

/-- Infinity plus anything bounded is infinity, on the left. -/
theorem add_infinity_left (sign : Sign) {v : UnpackedFloat} (other : Bounded v) :
    UnpackedFloat.add .binary64 (.infinity sign) v = .infinity sign := by
  cases v with
  | notANumber => exact absurd rfl other.1
  | infinity sign' => exact absurd other (not_bounded_infinity sign')
  | zero | finite => rfl

/-- Infinity plus anything bounded is infinity, on the right. -/
theorem add_infinity_right {u : UnpackedFloat} (bounded : Bounded u) (sign : Sign) :
    UnpackedFloat.add .binary64 u (.infinity sign) = .infinity sign := by
  cases u with
  | notANumber => exact absurd rfl bounded.1
  | infinity sign' => exact absurd bounded (not_bounded_infinity sign')
  | zero | finite => rfl

/-! ## Sums of floats -/

/-- Every double unpacks to a stored value. -/
theorem Number.stored (x : Float) : Stored x.toModel.unpack := stored_unpack _

/-- No double exceeds the limit in units. -/
theorem units_le_limit (x : Float) : (units x).natAbs ≤ limit := natAbs_unitsOf_le (Number.stored x)

/-- The units of every double have few enough digits. -/
theorem short_units (x : Float) : Short (units x).natAbs := short_unitsOf (Number.stored x)

/-- What a sum is, as to infinities and NaNs. -/
inductive Sum (x y : Float) : Prop where
  /-- Infinities of different sign. -/
  | opposite (number : ¬ Number (x + y)) (infinite : (units x).natAbs = limit)
      (against : units x = -units y)
  /-- The first one is an infinity. -/
  | first (number : Number (x + y)) (infinite : (units x).natAbs = limit)
      (along : units x ≠ -units y) (same : units (x + y) = units x)
  /-- The second one is an infinity. -/
  | second (number : Number (x + y)) (infinite : (units y).natAbs = limit)
      (along : units x ≠ -units y) (same : units (x + y) = units y)
  /-- Neither is. -/
  | bounded (number : Number (x + y)) (left : (units x).natAbs < limit)
      (right : (units y).natAbs < limit) (nearest : Nearest (units x + units y) (units (x + y)))

/-- The sum of two doubles unpacks to the rounded sum of their unpacked values. -/
theorem unpack_add (x y : Float) : (x + y).toModel.unpack =
    (Float.Model.pack (UnpackedFloat.add .binary64 x.toModel.unpack y.toModel.unpack)).unpack :=
  rfl

/-- An infinite double counts as many units as the limit, with its sign. -/
theorem units_infinity {x : Float} {sign : Sign} (same : x.toModel.unpack = .infinity sign) :
    units x = sign.apply limit :=
  congrArg unitsOf same

/-- A sum that unpacks as one of the summands, an infinity. -/
theorem add_eq_infinity {x y : Float} {sign : Sign}
    (sum : UnpackedFloat.add .binary64 x.toModel.unpack y.toModel.unpack = .infinity sign) :
    Number (x + y) ∧ units (x + y) = sign.apply limit := by
  have unpacked : (x + y).toModel.unpack = .infinity sign := by
    rw [unpack_add, sum]
    exact unpack_pack (u := .infinity sign) trivial
  refine ⟨?_, units_infinity unpacked⟩
  rw [Number, unpacked]
  intro same
  cases same

/-- Two numbers have a sum of one of the described kinds. -/
theorem sum_cases {x y : Float} (left : Number x) (right : Number y) : Sum x y := by
  have room := limit_pos
  have size : ∀ sign : Sign, (sign.apply limit).natAbs = limit := by
    intro sign
    cases sign <;> simp only [Sign.apply] <;> omega
  rcases bounded_or_infinity (Number.stored x) left with leftBound | ⟨sign, leftInfinite⟩
  · have leftBelow : (units x).natAbs < limit := leftBound.2
    rcases bounded_or_infinity (Number.stored y) right with rightBound | ⟨sign, rightInfinite⟩
    · obtain ⟨settled, number, nearest⟩ :=
        add_nearest (Number.stored x) (Number.stored y) leftBound rightBound
      obtain ⟨isNumber, same⟩ := units_ofModel settled number
      exact .bounded isNumber leftBelow rightBound.2 (same ▸ nearest)
    · have sum := add_infinity_right leftBound sign
      rw [← rightInfinite] at sum
      obtain ⟨number, same⟩ := add_eq_infinity (sum.trans rightInfinite)
      have infinite := units_infinity rightInfinite
      have great := size sign
      rw [← infinite] at same great
      exact .second number great (by omega) same
  · have infinite := units_infinity leftInfinite
    have great := size sign
    rw [← infinite] at great
    rcases bounded_or_infinity (Number.stored y) right with rightBound | ⟨sign', rightInfinite⟩
    · have rightBelow : (units y).natAbs < limit := rightBound.2
      have sum := add_infinity_left sign rightBound
      rw [← leftInfinite] at sum
      obtain ⟨number, same⟩ := add_eq_infinity (sum.trans leftInfinite)
      exact .first number great (by omega) (same.trans infinite.symm)
    · have infinite' := units_infinity rightInfinite
      have sum : UnpackedFloat.add .binary64 x.toModel.unpack y.toModel.unpack =
          if sign == sign' then .infinity sign else .notANumber := by
        rw [leftInfinite, rightInfinite]
        rfl
      cases sign <;> cases sign' <;> simp only [Sign.apply] at infinite infinite'
      · obtain ⟨number, same⟩ := add_eq_infinity sum
        exact .first number great (by omega) (same.trans infinite.symm)
      · refine .opposite (fun number => number ?_) great (by omega)
        rw [unpack_add, sum]
        exact unpack_pack (u := .notANumber) trivial
      · refine .opposite (fun number => number ?_) great (by omega)
        rw [unpack_add, sum]
        exact unpack_pack (u := .notANumber) trivial
      · obtain ⟨number, same⟩ := add_eq_infinity sum
        exact .first number great (by omega) (same.trans infinite.symm)

/-- A sum with a NaN is one. -/
theorem Number.of_add {x y : Float} (number : Number (x + y)) : Number x ∧ Number y := by
  rw [Number, unpack_add] at number
  constructor <;> intro nan <;> rw [nan] at number <;> apply number
  · exact unpack_pack (u := .notANumber) trivial
  · have none : UnpackedFloat.add .binary64 x.toModel.unpack .notANumber = .notANumber := by
      cases x.toModel.unpack <;> rfl
    rw [none]
    exact unpack_pack (u := .notANumber) trivial

/-- Adding a number that is not negative makes no double smaller. -/
theorem units_le_add {x y : Float} (number : Number (x + y)) (up : 0 ≤ units y) :
    units x ≤ units (x + y) := by
  obtain ⟨left, right⟩ := number.of_add
  have within := units_le_limit x
  cases sum_cases left right with
  | opposite none => exact absurd number none
  | first _ _ _ same => omega
  | second _ infinite _ same => omega
  | bounded _ _ _ nearest => exact nearest.below _ (short_units x) within (by omega)

/-- Adding a number that is not positive makes no double greater. -/
theorem add_le_units {x y : Float} (number : Number (x + y)) (down : units y ≤ 0) :
    units (x + y) ≤ units x := by
  obtain ⟨left, right⟩ := number.of_add
  have within := units_le_limit x
  cases sum_cases left right with
  | opposite none => exact absurd number none
  | first _ _ _ same => omega
  | second _ infinite _ same => omega
  | bounded _ _ _ nearest => exact nearest.above _ (short_units x) within (by omega)

/-- Where adding a number gives no NaN, adding it again gives none. -/
theorem Number.add_again {x y : Float} (number : Number (x + y)) : Number (x + y + y) := by
  obtain ⟨left, right⟩ := number.of_add
  have room := limit_pos
  cases sum_cases number right with
  | first again | second again | bounded again => exact again
  | opposite _ infinite against =>
    cases sum_cases left right with
    | opposite none => exact absurd number none
    | first _ _ along same => exact absurd (same.symm.trans against) along
    | second _ _ _ same => omega
    | bounded _ _ below => omega

/-- A sum that a double can hold is exact. -/
theorem units_add {x y : Float} (left : Number x) (right : Number y)
    (bounded : (units x).natAbs < limit) (other : (units y).natAbs < limit)
    (short : Short (units x + units y).natAbs) (within : (units x + units y).natAbs ≤ limit) :
    Number (x + y) ∧ units (x + y) = units x + units y := by
  cases sum_cases left right with
  | opposite _ infinite => omega
  | first _ infinite => omega
  | second _ infinite => omega
  | bounded number _ _ nearest =>
    have below := nearest.below _ short within (Int.le_refl _)
    have above := nearest.above _ short within (Int.le_refl _)
    exact ⟨number, by omega⟩

end LineScript.Double
