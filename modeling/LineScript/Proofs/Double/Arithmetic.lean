import LineScript.Proofs.Double.Comparison

/-!
# Arithmetic on whole numbers

Sums, differences and products of whole numbers are exact as long as they fit. Quotients are not: numbers
are divided as doubles, so both are rounded first, their quotient is rounded once more, and it becomes a
whole number again below the limit of exact conversion only (`whole_arithmetic`).
-/

namespace LineScript

namespace Double

open Float.Model Float.Model.UnpackedFloat

/-! ## Division of doubles -/

/-- Two mantissas with all their digits are divided with more digits than a double has. -/
theorem divCore_full {left right : Nat} {high low : Int} (full : 2 ^ 52 ≤ left) (short : left < 2 ^ 53)
    (full' : 2 ^ 52 ≤ right) (short' : right < 2 ^ 53) (least : -1021 ≤ high - low) :
    divCore .binary64 left high right low =
      (left <<< 53 / right, high - low - 53, accuracyOfFraction (left <<< 53 % right) right) := by
  have digits : ∀ {mantissa : Nat}, 2 ^ 52 ≤ mantissa → mantissa < 2 ^ 53 → mantissa.log2 = 52 :=
    fun {mantissa} full short => (Nat.log2_eq_iff (by omega)).mpr ⟨full, short⟩
  have bits : (Format.binary64.mantissaBits : Int) = 53 := rfl
  have finest : Format.binary64.minExponent = -1074 := rfl
  have target : min (high - low) (Format.binary64.targetExponent
      (totalExponent left high - totalExponent right low)) = high - low - 53 := by
    rw [Format.targetExponent, totalExponent, totalExponent, digits full short, digits full' short', bits,
      finest]
    omega
  have shift : (high - low - (high - low - 53)).toNat = 53 := by omega
  simp only [divCore, target, shift]

/-- The quotient of two doubles with all their digits is rounded. -/
theorem div_rounds (sign other : Sign) {left right : Nat} {high low : Int} (some : 0 < left)
    (some' : 0 < right) (first : Canonical left high) (second : Canonical right low)
    (full : 2 ^ 52 ≤ left) (full' : 2 ^ 52 ≤ right) (least : -1021 ≤ high - low) :
    ∃ digits place, ∃ positive : 0 < digits,
      div .binary64 (.finite sign left high some) (.finite other right low some') =
        .finite (sign / other) digits place positive ∧
      Canonical digits place ∧
      RoundedQuotient (size left high * size 1 0) (size right low) (size digits place) := by
  have long : 2 ^ 52 ≤ left <<< 53 / right := by
    rw [Nat.le_div_iff_mul_le some', Nat.shiftLeft_eq]
    exact Nat.mul_le_mul full (Nat.le_of_lt second.below)
  have digits : 52 ≤ (left <<< 53 / right).log2 := (Nat.le_log2 (by omega)).mpr long
  obtain ⟨places, isPlaces⟩ : ∃ places, places = (left <<< 53 / right).log2 - 52 := ⟨_, rfl⟩
  have pieces : 0 < left <<< 53 / right := by omega
  have lowest : -1074 ≤ high - low - 53 := by omega
  have target : max (((left <<< 53 / right).log2 : Int) + (high - low - 53) - 52) (-1074) -
      (high - low - 53) = places := by omega
  obtain ⟨mantissa, place, positive, rounds, canonical, sizes, enough⟩ :=
    (cut_quotient (left <<< 53) some').roundWithAccuracy (sign / other) pieces lowest target
  refine ⟨mantissa, place, positive, ?_, canonical, ?_⟩
  · rw [← rounds]
    have rounding : div .binary64 (.finite sign left high some) (.finite other right low some') =
        roundWithAccuracy .binary64 (sign / other) (divCore .binary64 left high right low).1
          (divCore .binary64 left high right low).2.1
          (divCore .binary64 left high right low).2.2 := rfl
    rw [rounding, divCore_full full first.below full' second.below least]
  obtain ⟨finest, isFinest⟩ : ∃ finest, finest = (high - low - 53 + 1074).toNat := ⟨_, rfl⟩
  obtain ⟨down, up, exact⟩ :=
    nearestCount_bounds (left <<< 53) (Nat.mul_pos some' (Nat.two_pow_pos places))
  have steps : (left <<< 53 * 2 ^ finest) / (right * 2 ^ (places + finest)) =
      left <<< 53 / (right * 2 ^ places) := by
    rw [Nat.pow_add, ← Nat.mul_assoc, Nat.mul_div_mul_right _ _ (Nat.two_pow_pos _)]
  have quotient : RoundedQuotient (left <<< 53 * 2 ^ finest) right (size mantissa place) := by
    rw [sizes, size_places _ _ (by omega), ← isFinest, Nat.mul_assoc, ← Nat.pow_add]
    refine RoundedQuotient.of_steps some' ?_ ?_ ?_ ?_ <;> rw [steps]
    · intro coarse
      exact enough (by omega)
    · exact down
    · exact up
    · intro divides
      rw [Nat.pow_add, ← Nat.mul_assoc] at divides
      exact exact (Nat.dvd_of_mul_dvd_mul_right (Nat.two_pow_pos _) divides)
  have units : size left high * size 1 0 = left <<< 53 * 2 ^ finest * 2 ^ (low + 1074).toNat := by
    have places : (high + 1074).toNat + ((0 : Int) + 1074).toNat = 53 + finest + (low + 1074).toNat := by
      have := second.least
      have := first.least
      omega
    rw [size, size, Nat.one_mul, Nat.mul_assoc, ← Nat.pow_add, places, Nat.shiftLeft_eq, Nat.pow_add,
      Nat.pow_add, Nat.mul_assoc, Nat.mul_assoc, Nat.mul_assoc]
  rw [units, size]
  exact quotient.scale _ (Nat.two_pow_pos _)

/-- A double that is not on the other side of a double than the quotient of two whole numbers is. -/
structure Quotient (n k : Int) (x : Float) : Prop where
  /-- It is no NaN. -/
  number : Number x
  /-- Its sign. -/
  sign : units x = n.sign * k.sign * (units x).natAbs
  /-- No double lies between it and the quotient. -/
  rounds : RoundedQuotient (n.natAbs * size 1 0) k.natAbs (units x).natAbs

/-- A whole number below two to the 53 has few enough digits in units. -/
theorem short_whole {n : Nat} (short : n < 2 ^ 53) : Short (n * size 1 0) :=
  ⟨n, _, short, (size_whole n).symm⟩

/-- A quotient that is a double is exact. -/
theorem Quotient.denotes {n k q : Int} {x : Float} (quotient : Quotient n k x) (some : k ≠ 0)
    (exact : n = q * k) (short : Short (q.natAbs * size 1 0)) : Denotes x q := by
  refine ⟨quotient.number, ?_⟩
  have same := quotient.rounds.eq_of_short short (by
    rw [exact, Int.natAbs_mul, Nat.mul_right_comm])
  have square : k.sign * k.sign = 1 := by
    rcases Int.lt_or_gt_of_ne some with negative | positive
    · rw [Int.sign_eq_neg_one_of_neg negative]; rfl
    · rw [Int.sign_eq_one_of_pos positive]; rfl
  rw [quotient.sign, same, exact, Int.sign_mul, Int.mul_assoc q.sign, square, Int.mul_one, Int.natCast_mul,
    ← Int.mul_assoc, Int.sign_mul_natAbs]

/-- A whole number up to two to the 64 stays below the limit in units. -/
theorem whole_below {n : Int} (bounded : n.natAbs ≤ 2 ^ 64) : (n * (size 1 0 : Nat)).natAbs < limit := by
  rw [Int.natAbs_mul, Int.natAbs_natCast, ← size_whole]
  exact Nat.lt_of_le_of_lt (size_le_size bounded (Int.le_refl 0)) (by decide +kernel)

/-- What is unpacked from a whole number of at most 64 bits that is not zero. -/
structure Whole (n : Int) (sign : Sign) (mantissa : Nat) (exponent : Int) : Prop where
  /-- It is a mantissa and an exponent of a double. -/
  canonical : Canonical mantissa exponent
  /-- They are the size of the number. -/
  size_eq : size mantissa exponent = n.natAbs * size 1 0
  /-- The sign of the number. -/
  sign_eq : n.sign = sign.apply 1
  /-- The mantissa has all its digits. -/
  full : 2 ^ 52 ≤ mantissa
  /-- A whole number is not tiny. -/
  least : -53 ≤ exponent
  /-- It is not great either. -/
  greatest : exponent ≤ 12

/-- A double that denotes a whole number other than zero is finite and whole in its parts. -/
theorem Denotes.whole {x : Float} {n : Int} (denotes : Denotes x n) (bounded : n.natAbs ≤ 2 ^ 64)
    (some : n ≠ 0) : ∃ sign mantissa exponent positive,
      x.toModel.unpack = .finite sign mantissa exponent positive ∧ Whole n sign mantissa exponent := by
  have stored := Number.stored x
  obtain ⟨none, -⟩ | ⟨sign, mantissa, exponent, positive, finite, signed, sizes⟩ :=
    denotes.unpack (whole_below bounded)
  · exact absurd none some
  rw [finite] at stored
  have canonical : Canonical mantissa exponent := stored.1
  have great : size 1 0 ≤ size mantissa exponent := by
    rw [sizes]
    exact size_le_size (Int.natAbs_pos.mpr some) (Int.le_refl 0)
  have least := exponent_of_whole canonical great
  have full : 2 ^ 52 ≤ mantissa := canonical.full.resolve_right (by omega)
  refine ⟨sign, mantissa, exponent, positive, finite, canonical, sizes.trans (size_whole _), ?_, full, least,
    ?_⟩
  · cases sign with
    | negative => exact Int.sign_eq_neg_one_of_neg (by change n = -(n.natAbs : Int) at signed; omega)
    | positive => exact Int.sign_eq_one_of_pos (by change n = (n.natAbs : Int) at signed; omega)
  · by_contra greater
    have top : size (2 ^ 52 * 2 ^ 13) 0 = size (2 ^ 52) (0 + (13 : Nat)) :=
      (size_places (2 ^ 52) 13 (by decide)).symm
    have less : size (2 ^ 64) 0 < size (2 ^ 52 * 2 ^ 13) 0 := size_lt_size (by decide) 0
    have most : size mantissa exponent ≤ size (2 ^ 64) 0 := by
      rw [sizes]
      exact size_le_size bounded (Int.le_refl 0)
    have more : size (2 ^ 52) (0 + (13 : Nat)) ≤ size mantissa exponent := size_le_size full (by omega)
    omega

/-- The sign of a quotient is the product of the signs. -/
theorem apply_div (sign other : Sign) (n : Int) :
    (sign / other).apply n = sign.apply 1 * other.apply 1 * n := by
  cases sign with
  | negative =>
    cases other with
    | negative => exact (Int.one_mul n).symm
    | positive => exact Int.neg_eq_neg_one_mul n
  | positive =>
    cases other with
    | negative => exact Int.neg_eq_neg_one_mul n
    | positive => exact (Int.one_mul n).symm

/-- Zero divided by a whole number other than zero is zero. -/
theorem Quotient.zero {k : Int} {x : Float} (number : Number x) (none : units x = 0) (some : k ≠ 0) :
    Quotient 0 k x := by
  refine ⟨number, by rw [none, Int.natAbs_zero, Int.natCast_zero, Int.mul_zero], ?_⟩
  rw [none, Int.natAbs_zero, Nat.zero_mul]
  refine ⟨fun other _ le => ?_, fun other _ _ => Nat.zero_le other⟩
  exact Nat.le_of_mul_le_mul_right (by rwa [Nat.zero_mul]) (Int.natAbs_pos.mpr some)

/-- Whole numbers of at most 64 bits are divided as doubles: the quotient is rounded once. -/
theorem Denotes.div {x y : Float} {n k : Int} (first : Denotes x n) (second : Denotes y k)
    (left : n.natAbs ≤ 2 ^ 64) (right : k.natAbs ≤ 2 ^ 64) (some : k ≠ 0) : Quotient n k (x / y) := by
  have made : x / y = .ofModel (.pack (.div .binary64 x.toModel.unpack y.toModel.unpack)) := rfl
  obtain ⟨other, divisor, low, positive', finite', below⟩ := second.whole right some
  rw [made, finite']
  by_cases none : n = 0
  · subst none
    obtain ⟨-, sign, zero⟩ | ⟨-, mantissa, exponent, positive, -, -, sizes⟩ :=
      first.unpack (whole_below left)
    · obtain ⟨number, units_eq⟩ := units_ofModel (u := .zero (sign / other)) trivial (by rintro ⟨⟩)
      rw [zero]
      exact .zero number units_eq some
    · have absurd := size_pos positive exponent
      rw [sizes, size_whole, Int.natAbs_zero, Nat.zero_mul] at absurd
      exact (Nat.lt_irrefl _ absurd).elim
  obtain ⟨sign, dividend, high, positive, finite, above⟩ := first.whole left none
  have := above.least
  have := below.greatest
  obtain ⟨digits, place, positive'', rounds, canonical, rounded⟩ :=
    div_rounds sign other positive positive' above.canonical below.canonical above.full below.full (by omega)
  rw [above.size_eq, below.size_eq] at rounded
  have rounded := rounded.cancel
  have most : size digits place ≤ limit := by
    have bounded := whole_below left
    rw [Int.natAbs_mul, Int.natAbs_natCast] at bounded
    refine rounded.above limit short_limit ?_
    exact Nat.le_trans (Nat.le_of_lt bounded) (Nat.le_mul_of_pos_right _ (Int.natAbs_pos.mpr some))
  obtain ⟨number, units_eq⟩ :=
    units_ofModel (u := .finite (sign / other) digits place positive'') canonical (by rintro ⟨⟩)
  rw [unitsOf_capped, Nat.min_eq_left most] at units_eq
  rw [finite, rounds]
  have size_eq : (units (.ofModel (.pack (.finite (sign / other) digits place positive'')))).natAbs =
      size digits place := by
    rw [units_eq]
    cases sign / other
    · exact Int.natAbs_neg _
    · rfl
  refine ⟨number, ?_, ?_⟩
  · rw [size_eq, units_eq, above.sign_eq, below.sign_eq, apply_div]
  · rwa [size_eq]

/-- A great quotient is a great double. -/
theorem Quotient.great {n k : Int} {x : Float} (quotient : Quotient n k x) {q : Nat} (short : q < 2 ^ 53)
    (great : q * k.natAbs ≤ n.natAbs) : q * size 1 0 ≤ (units x).natAbs := by
  refine quotient.rounds.below _ (short_whole short) ?_
  rw [Nat.mul_right_comm]
  exact Nat.mul_le_mul_right _ great

/-- A double that is at least as far from zero as the limit of exact conversion stays a double. -/
theorem ofFloat_of_great {x : Float} (number : Number x)
    (great : 9000000000000000 * size 1 0 ≤ (units x).natAbs) : Value.ofFloat x = .double x := by
  have above : ¬ x.abs < Value.wholeLimit := by
    rw [lt_iff, (number_abs number).2, denotes_wholeLimit.units_eq]
    rintro ⟨-, -, less⟩
    generalize size 1 0 = unit at great less
    omega
  rw [Value.ofFloat, Value.isPlainWhole, decide_eq_false above, Bool.and_false]
  rfl

/-- A number that is a double is the nearest one. -/
theorem nearestNat_of_short {n : Nat} (short : Short n) : nearestNat n = n := by
  have nearest := nearestNat_nearest n short
  rw [Nat.dist_self] at nearest
  exact (Nat.eq_of_dist_eq_zero (Nat.le_zero.mp nearest)).symm

/-- Rounding a whole number to nearest commutes with the absolute value. -/
theorem natAbs_nearest (n : Int) : (nearest n).natAbs = nearestNat n.natAbs := by
  cases n with
  | ofNat n => rfl
  | negSucc n => exact Int.natAbs_neg _

end Double

open Double

/-! ## Numbers of a script -/

/-- A rounded integer stays within two to the 64. -/
theorem rounded_bounded (n : Int64) : (rounded n).natAbs ≤ 2 ^ 64 := by
  have least := n.le_toInt
  have most := n.toInt_lt
  rw [rounded, natAbs_nearest]
  calc nearestNat n.toInt.natAbs ≤ nearestNat (2 ^ 64) := nearestNat_mono (by omega)
    _ = 2 ^ 64 := nearestNat_of_short ⟨1, 64, by decide, rfl⟩

/-- Only zero rounds to zero. -/
theorem rounded_eq_zero {n : Int64} : rounded n = 0 ↔ n = 0 := by
  have apart : Apart n 0 := (apart_of_short (.inl (by decide))).symm
  exact ⟨apart, fun zero => by rw [zero]; rfl⟩

/-- The operators that are exact as long as the result fits. -/
inductive ExactOperator where
  /-- The sum. -/
  | add
  /-- The difference. -/
  | sub
  /-- The product. -/
  | mul

namespace ExactOperator

/-- How the operator is written. -/
def sign : ExactOperator → String
  | add => "+"
  | sub => "-"
  | mul => "*"

/-- The result. -/
def apply : ExactOperator → Int → Int → Int
  | add, a, b => a + b
  | sub, a, b => a - b
  | mul, a, b => a * b

end ExactOperator

namespace Value

/-- A 64-bit integer fits itself. -/
theorem fitInt64?_toInt (n : Int64) : fitInt64? n.toInt = some n := by
  have least : Int64.minValue.toInt ≤ n.toInt := n.minValue_le_toInt
  have most : n.toInt ≤ Int64.maxValue.toInt := n.toInt_le
  rw [fitInt64?, if_pos ⟨least, most⟩, Int64.ofInt_toInt]

/-- An exact result that fits is what the integer operator gives. -/
theorem exactArithmetic?_of_fits (operator : ExactOperator) {a b n : Int64}
    (fits : operator.apply a.toInt b.toInt = n.toInt) :
    exactArithmetic? operator.sign a b = some n := by
  cases operator with
  | add | sub | mul => exact (congrArg fitInt64? fits).trans (fitInt64?_toInt n)

/-- A result that fits is exact. -/
theorem combine_exact (operator : ExactOperator) {a b n : Int64}
    (fits : operator.apply a.toInt b.toInt = n.toInt) (line : Nat) :
    combine operator.sign (.number a) (.number b) line = .ok (.number n) := by
  have chosen : combine operator.sign (.number a) (.number b) line =
      arithmetic operator.sign (.number a) (.number b) line := by
    cases operator <;> rfl
  rw [chosen, arithmetic, exactArithmetic?_of_fits operator fits]

/-- Division is one of doubles for any two values. -/
theorem combine_div (left right : Value) (line : Nat) :
    combine "/" left right line = floatArithmetic "/" left.asNumber right.asNumber line := by
  cases left <;> cases right <;> rfl

/-- Division fails for a divisor that counts as zero, and for no other one. -/
theorem combine_div_eq_error (left right : Value) (line : Nat) (fault : Fault) :
    combine "/" left right line = .error fault ↔
      (right.asNumber == 0) = true ∧ fault = .running .divisionByZero line [] := by
  rw [combine_div]
  change (if right.asNumber == 0 then .error (.running .divisionByZero line [])
    else .ok (ofFloat (left.asNumber / right.asNumber)) : Except Fault Value) = _ ↔ _
  split
  case isTrue zero => simp [zero, eq_comm]
  case isFalse some => simp [some]

/-- The quotient of two whole numbers. -/
theorem combine_quotient (a : Int64) {b : Int64} (some : b ≠ 0) (line : Nat) :
    ∃ x, combine "/" (.number a) (.number b) line = .ok (ofFloat x) ∧
      Quotient (rounded a) (rounded b) x := by
  have divisor : rounded b ≠ 0 := fun zero => some (rounded_eq_zero.mp zero)
  have zero : Denotes 0 0 := denotes_ofNat (by decide)
  have nonzero : ¬ ((Value.number b).asNumber == 0) = true := by
    rwa [(denotes_rounded b).beq_iff zero]
  refine ⟨(Value.number a).asNumber / (Value.number b).asNumber, ?_, ?_⟩
  · rw [combine_div]
    exact if_neg nonzero
  · exact (denotes_rounded a).div (denotes_rounded b) (rounded_bounded a) (rounded_bounded b) divisor

/-- A quotient that rounding keeps whole is exact if and only if it is below the limit of exact
conversion. -/
theorem combine_quotient_iff {a b q : Int64} (some : b ≠ 0) (kept : rounded a = q.toInt * rounded b)
    (line : Nat) :
    combine "/" (.number a) (.number b) line = .ok (.number q) ↔
      q.toInt.natAbs < 9000000000000000 := by
  obtain ⟨x, answer, quotient⟩ := combine_quotient a some line
  have divisor : rounded b ≠ 0 := fun zero => some (rounded_eq_zero.mp zero)
  rw [answer]
  constructor
  · intro exact
    by_contra great
    have far : 9000000000000000 * (rounded b).natAbs ≤ (rounded a).natAbs := by
      rw [kept, Int.natAbs_mul]
      exact Nat.mul_le_mul_right _ (Nat.not_lt.mp great)
    rw [ofFloat_of_great quotient.number (quotient.great (by decide) far)] at exact
    cases exact
  · intro small
    have whole := quotient.denotes divisor kept (short_whole (by omega))
    rw [whole.ofFloat small, Int64.ofInt_toInt]

/-- A quotient from the limit of exact conversion on is a double, even if it is whole. -/
theorem combine_quotient_great {a b q : Int64} (some : b ≠ 0) (exact : a.toInt = q.toInt * b.toInt)
    (great : 9000000000000000 ≤ q.toInt.natAbs) (line : Nat) :
    ∃ x, combine "/" (.number a) (.number b) line = .ok (.double x) := by
  obtain ⟨x, answer, quotient⟩ := combine_quotient a some line
  have least := a.le_toInt
  have most := a.toInt_lt
  have le : 9000000000000000 * b.toInt.natAbs ≤ a.toInt.natAbs := by
    rw [exact, Int.natAbs_mul]
    exact Nat.mul_le_mul_right _ great
  -- the divisor is small, so no digit of it or of the multiple is lost
  have small : b.toInt.natAbs ≤ 1024 := by omega
  have short : Short (9000000000000000 * b.toInt.natAbs) :=
    ⟨274658203125 * b.toInt.natAbs, 15, by omega, by omega⟩
  have far : 9000000000000000 * (rounded b).natAbs ≤ (rounded a).natAbs := by
    rw [rounded, rounded, natAbs_nearest, natAbs_nearest, nearestNat_of_le (n := b.toInt.natAbs) (by omega),
      ← nearestNat_of_short short]
    exact nearestNat_mono le
  exact ⟨x, by rw [answer, ofFloat_of_great quotient.number (quotient.great (by decide) far)]⟩

end Value

/-- Rounding keeps a quotient whole if it leaves the dividend as it is. -/
theorem rounded_kept {a b q : Int64} (exact : a.toInt = q.toInt * b.toInt)
    (short : a.toInt.natAbs ≤ 2 ^ 53) : rounded a = q.toInt * rounded b := by
  have left : rounded a = a.toInt := nearest_of_le short
  by_cases none : q.toInt = 0
  · rw [left, exact, none, Int.zero_mul, Int.zero_mul]
  · have divides : b.toInt.natAbs ≤ a.toInt.natAbs := by
      rw [exact, Int.natAbs_mul]
      exact Nat.le_mul_of_pos_left _ (Int.natAbs_pos.mpr none)
    have right : rounded b = b.toInt := nearest_of_le (Nat.le_trans divides short)
    rw [left, right, exact]

/-- A sum, difference or product of two whole numbers is exact whenever it fits. A quotient is that of the
doubles nearest to the numbers, rounded to a double. So if it is a whole number, and still is the quotient
of what the numbers are rounded to, as it is for a dividend of at most `2 ^ 53`, it is exact if and only if
it is below the limit of exact conversion; from this limit on it is always a double. Division of any two
values fails if and only if the divisor counts as zero, and then with a type error at the line. -/
theorem whole_arithmetic (a b : Int64) (line : Nat) :
    (∀ (operator : ExactOperator) (n : Int64), operator.apply a.toInt b.toInt = n.toInt →
      Value.combine operator.sign (.number a) (.number b) line = .ok (.number n)) ∧
    (b ≠ 0 → ∃ x, Value.combine "/" (.number a) (.number b) line = .ok (.ofFloat x) ∧
      Quotient (rounded a) (rounded b) x) ∧
    (∀ q : Int64, b ≠ 0 → a.toInt = q.toInt * b.toInt →
      (a.toInt.natAbs ≤ 2 ^ 53 → rounded a = q.toInt * rounded b) ∧
      (rounded a = q.toInt * rounded b →
        (Value.combine "/" (.number a) (.number b) line = .ok (.number q) ↔
          q.toInt.natAbs < 9000000000000000)) ∧
      (9000000000000000 ≤ q.toInt.natAbs →
        ∃ x, Value.combine "/" (.number a) (.number b) line = .ok (.double x))) ∧
    ∀ (left right : Value) (fault : Fault),
      Value.combine "/" left right line = .error fault ↔
        (right.asNumber == 0) = true ∧ fault = .running .divisionByZero line [] ∧
          fault.kind = some .typeError ∧ fault.line = line := by
  refine ⟨fun operator n fits => Value.combine_exact operator fits line,
    fun some => Value.combine_quotient a some line,
    fun q some exact => ⟨rounded_kept exact, fun kept => Value.combine_quotient_iff some kept line,
      fun great => Value.combine_quotient_great some exact great line⟩,
    fun left right fault => ?_⟩
  rw [Value.combine_div_eq_error]
  refine and_congr_right fun _ => ⟨?_, And.left⟩
  rintro rfl
  exact ⟨rfl, rfl, rfl⟩

/-- Both sides of the exact condition occur, with the integer path, the double path and the zero
divisor. -/
theorem whole_arithmetic_both_paths :
    Value.combine "*" (.number 3037000499) (.number (-3037000500)) 1 =
        .ok (.number (-9223372033963249500)) ∧
      Value.combine "/" (.number (-9007199254740992)) (.number 4096) 1 = .ok (.number (-2199023255552)) ∧
      (∃ x, Value.combine "/" (.number 9000000000000000) (.number 1) 1 = .ok (.double x)) ∧
      Value.combine "/" (.string "x") (.bool false) 7 = .error (.running .divisionByZero 7 []) := by
  obtain ⟨exact, -, -, -⟩ := whole_arithmetic 3037000499 (-3037000500) 1
  obtain ⟨-, -, small, -⟩ := whole_arithmetic (-9007199254740992) 4096 1
  obtain ⟨-, -, great, -⟩ := whole_arithmetic 9000000000000000 1 1
  obtain ⟨-, -, -, zero⟩ := whole_arithmetic 0 0 7
  obtain ⟨kept, below, -⟩ := small (-2199023255552) (by decide) (by decide)
  obtain ⟨-, -, beyond⟩ := great 9000000000000000 (by decide) (by decide)
  exact ⟨exact .mul (-9223372033963249500) (by decide), (below (kept (by decide))).mpr (by decide),
    beyond (by decide), (zero (.string "x") (.bool false) _).mpr ⟨by decide +kernel, rfl, rfl, rfl⟩⟩

/-- Quotients that are whole numbers of 64 bits and are not given as such: both numbers are rounded, and
what they are rounded to has another quotient; the quotient is rounded itself; and it is kept, as a
double. -/
theorem quotients_rounded :
    (27021597764222979 : Int) = 3 * 9007199254740993 ∧
    Value.combine "/" (.number 27021597764222979) (.number 9007199254740993) 1 =
      .ok (.double 3.0000000000000004) ∧
    Value.combine "/" (.number 9007199254740993) (.number 1) 1 = .ok (.double 9007199254740992) ∧
    Value.combine "/" (.number 9000000000000000) (.number 1) 1 = .ok (.double 9000000000000000) := by
  refine ⟨by decide, ?_, ?_, ?_⟩ <;> decide +kernel

end LineScript
