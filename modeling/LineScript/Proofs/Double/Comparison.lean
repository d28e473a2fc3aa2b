import LineScript.Interpreter.Run
import LineScript.Proofs.Double.Whole
import LineScript.Proofs.Lists
import LineScript.Proofs.Machine.Evolution
import Mathlib.Data.Nat.Dist

/-!
# Comparing whole numbers

A script's whole numbers have 64 bits, but they are compared as doubles, by operators and by the clauses of
a selection alike. So they are compared as what they are rounded to, and that is exact for two numbers
unless they are different and rounded to the same double, which happens beyond `2 ^ 53` only
(`whole_comparison`).
-/

namespace LineScript

namespace Double

open Float.Model Float.Model.UnpackedFloat

/-! ## The nearest double -/

/-- What a natural number is rounded to. -/
def nearestNat (n : Nat) : Nat := nearestSteps n (n.log2 - 52) * 2 ^ (n.log2 - 52)

/-- What a whole number is rounded to. -/
def nearest : Int → Int
  | .ofNat n => nearestNat n
  | .negSucc n => -(nearestNat (n + 1) : Int)

/-- Naturals up to two to the 53 round to themselves. -/
theorem nearestNat_of_le {n : Nat} (le : n ≤ 2 ^ 53) : nearestNat n = n := by
  rcases Nat.lt_or_eq_of_le le with short | rfl
  · have digits : n.log2 - 52 = 0 := by
      by_cases zero : n = 0
      · rw [zero]
        rfl
      · have := (Nat.log2_lt zero).mpr short
        omega
    rw [nearestNat, digits, nearestSteps_zero, Nat.pow_zero, Nat.mul_one]
  · decide +kernel

/-- Integers up to two to the 53 in size round to themselves. -/
theorem nearest_of_le {n : Int} (le : n.natAbs ≤ 2 ^ 53) : nearest n = n := by
  cases n with
  | ofNat n => exact congrArg Int.ofNat (nearestNat_of_le le)
  | negSucc n => exact congrArg (fun m : Nat => -(m : Int)) (nearestNat_of_le le)

/-- Steps of the length that 53 digits need: the digits may be rounded up to one more. -/
theorem nearestSteps_log2_le (n : Nat) : nearestSteps n (n.log2 - 52) ≤ 2 ^ 53 := by
  obtain ⟨-, up, -⟩ := nearestSteps_bounds n (n.log2 - 52)
  have short : n / 2 ^ (n.log2 - 52) < 2 ^ 53 := by
    rw [Nat.div_lt_iff_lt_mul (Nat.two_pow_pos _), ← Nat.pow_add]
    exact Nat.lt_of_lt_of_le Nat.lt_log2_self (Nat.pow_le_pow_right (by decide) (by omega))
  omega

/-- A long number cut to 53 digits still has its leading one. -/
theorem full_log2 {n : Nat} (long : 52 ≤ n.log2) : 2 ^ 52 ≤ n / 2 ^ (n.log2 - 52) := by
  have some : n ≠ 0 := by
    rintro rfl
    simp at long
  rw [Nat.le_div_iff_mul_le (Nat.two_pow_pos _), ← Nat.pow_add]
  exact (Nat.le_log2 some).mp (by omega)

/-- Rounding a long number to 53 digits keeps its leading one. -/
theorem le_nearestSteps_log2 {n : Nat} (long : 52 ≤ n.log2) :
    2 ^ 52 ≤ nearestSteps n (n.log2 - 52) := by
  obtain ⟨down, -, -⟩ := nearestSteps_bounds n (n.log2 - 52)
  exact Nat.le_trans (full_log2 long) down

/-- No whole number that is a double is nearer. -/
theorem nearestNat_nearest (n : Nat) {other : Nat} (short : Short other) :
    Nat.dist n (nearestNat n) ≤ Nat.dist n other := by
  have between := short_between (fun long => full_log2 (n := n) (by omega)) short
  unfold nearestNat
  generalize n.log2 - 52 = places at between
  have parts := Nat.div_add_mod' n (2 ^ places)
  have rest := Nat.mod_lt n (Nat.two_pow_pos places)
  have next : (n / 2 ^ places + 1) * 2 ^ places = n / 2 ^ places * 2 ^ places + 2 ^ places :=
    Nat.succ_mul ..
  have even : (n / 2 ^ places + n / 2 ^ places % 2) * 2 ^ places = n / 2 ^ places * 2 ^ places ∨
      (n / 2 ^ places + n / 2 ^ places % 2) * 2 ^ places =
        n / 2 ^ places * 2 ^ places + 2 ^ places := by
    rcases Nat.mod_two_eq_zero_or_one (n / 2 ^ places) with zero | one
    · exact .inl (by rw [zero, Nat.add_zero])
    · exact .inr (by rw [one, next])
  rw [next, Nat.dvd_iff_mod_eq_zero] at between
  simp only [Nat.dist, nearestSteps]
  split_ifs <;> omega

/-- Rounding to a double keeps the order. -/
theorem nearestNat_mono {left right : Nat} (le : left ≤ right) : nearestNat left ≤ nearestNat right := by
  by_cases zero : left = 0
  · rw [zero, nearestNat_of_le (Nat.zero_le _)]
    exact Nat.zero_le _
  have digits : left.log2 ≤ right.log2 :=
    (Nat.le_log2 (by omega)).mpr (Nat.le_trans (Nat.log2_self_le zero) le)
  unfold nearestNat
  rcases Nat.lt_or_eq_of_le (Nat.sub_le_sub_right digits 52) with fewer | same
  · -- longer steps stand for more than all shorter ones
    calc nearestSteps left (left.log2 - 52) * 2 ^ (left.log2 - 52)
        ≤ 2 ^ 53 * 2 ^ (left.log2 - 52) := Nat.mul_le_mul_right _ (nearestSteps_log2_le left)
      _ = 2 ^ 52 * 2 ^ (left.log2 - 52 + 1) := by rw [Nat.pow_succ 2 (left.log2 - 52)]; omega
      _ ≤ 2 ^ 52 * 2 ^ (right.log2 - 52) :=
        Nat.mul_le_mul_left _ (Nat.pow_le_pow_right (by decide) fewer)
      _ ≤ nearestSteps right (right.log2 - 52) * 2 ^ (right.log2 - 52) :=
        Nat.mul_le_mul_right _ (le_nearestSteps_log2 (by omega))
  · rw [same]
    exact Nat.mul_le_mul_right _ (nearestSteps_mono le _)

/-- Rounding to nearest is monotone. -/
theorem nearest_mono {left right : Int} (le : left ≤ right) : nearest left ≤ nearest right := by
  cases left with
  | ofNat left =>
    cases right with
    | ofNat right => exact Int.ofNat_le.mpr (nearestNat_mono (Int.ofNat_le.mp le))
    | negSucc right =>
      have below := Int.negSucc_lt_zero right
      have above := Int.natCast_nonneg left
      change (left : Int) ≤ Int.negSucc right at le
      omega
  | negSucc left =>
    cases right with
    | ofNat right =>
      have := Int.natCast_nonneg (nearestNat right)
      simp only [nearest]
      omega
    | negSucc right =>
      have := nearestNat_mono (show right + 1 ≤ left + 1 by omega)
      simp only [nearest]
      omega

/-- The product of two finite values is their exact product, rounded once. -/
theorem mul_finite (left right : Sign) {mantissa other : Nat} {exponent place : Int}
    (some : 0 < mantissa) (some' : 0 < other) :
    mul .binary64 (.finite left mantissa exponent some) (.finite right other place some') =
      roundWithAccuracy .binary64 (left * right) (mantissa * other) (exponent + place) .exact := rfl

/-- A number of more digits than a double has is rounded once. -/
theorem ofNat_eq_round {n : Nat} (long : 2 ^ 53 ≤ n) :
    Float.ofNat n =
      .ofModel (.pack (roundWithAccuracy .binary64 .positive (n <<< 53) (-53) .exact)) := by
  have some : n ≠ 0 := by omega
  have made : Float.ofNat n = .ofModel (.pack (UnpackedFloat.ofScientific .binary64 n 0)) := by
    change Float.ofScientific n false 0 = _
    rw [Float.ofScientific, dif_neg (by omega)]
    rfl
  have scaled : UnpackedFloat.ofScientific .binary64 n 0 =
      roundWithAccuracy .binary64 .positive (n <<< 53) (-53) .exact := by
    rw [UnpackedFloat.ofScientific, dif_neg some, if_neg (by decide), if_neg (by simp),
      if_pos (by decide), mul_finite, show 10 ^ Int.toNat 0 = 1 from rfl, Nat.mul_one]
    rfl
  rw [made, scaled]

/-- The double of a natural denotes the natural rounded to nearest. -/
theorem denotes_nearestNat {n : Nat} (bounded : n < 2 ^ 64) : Denotes (Float.ofNat n) (nearestNat n) := by
  by_cases short : n < 2 ^ 53
  · rw [nearestNat_of_le (Nat.le_of_lt short)]
    exact denotes_ofNat short
  have long : 2 ^ 53 ≤ n := Nat.not_lt.mp short
  have some : 0 < n := by omega
  have digits : 53 ≤ n.log2 := (Nat.le_log2 (by omega)).mpr long
  obtain ⟨mantissa, place, positive, rounds, canonical, sizes, -⟩ :=
    @roundWithAccuracy_steps .positive (n <<< 53) (n.log2 + 1) (-53)
      (by rw [Nat.shiftLeft_eq]; omega) (by decide) (by rw [log2_shiftLeft some]; omega)
  have whole : size mantissa place = nearestNat n * size 1 0 := by
    have places : n.log2 + 1 = n.log2 - 52 + 53 := by omega
    have exponent : (-53 : Int) + ((n.log2 - 52 + 53 : Nat) : Int) = 0 + ((n.log2 - 52 : Nat) : Int) := by
      omega
    rw [sizes, places, Nat.shiftLeft_eq, nearestSteps_mul, exponent, size_places _ _ (by decide),
      nearestNat, size, Nat.one_mul]
  have below : size mantissa place ≤ limit := by
    rw [whole, ← size_whole]
    have least := nearestNat_mono (Nat.le_of_lt bounded)
    calc size (nearestNat n) 0 ≤ size (nearestNat (2 ^ 64)) 0 := size_le_size least (Int.le_refl 0)
      _ ≤ limit := by decide +kernel
  obtain ⟨number, units_eq⟩ :=
    units_ofModel (u := .finite .positive mantissa place positive) canonical (by rintro ⟨⟩)
  rw [ofNat_eq_round long, rounds]
  refine ⟨number, units_eq.trans ?_⟩
  rw [unitsOf_capped, Nat.min_eq_left below, whole]
  exact Int.natCast_mul ..

/-- A whole number of at most 64 bits is read as the nearest double. -/
theorem denotes_nearest {n : Int} (bounded : n.natAbs < 2 ^ 64) : Denotes (Float.ofInt n) (nearest n) := by
  cases n with
  | ofNat n => exact denotes_nearestNat bounded
  | negSucc n => exact (denotes_nearestNat bounded).neg

end Double

open Double

/-! ## Whole numbers of a script -/

/-- What a whole number is compared as. -/
def rounded (n : Int64) : Int := nearest n.toInt

/-- The numbers are the same if they are compared as the same. -/
def Apart (a b : Int64) : Prop := rounded a = rounded b → a = b

/-- An integer read as a double denotes the integer rounded to nearest. -/
theorem denotes_rounded (n : Int64) : Denotes (Value.number n).asNumber (rounded n) := by
  have least := n.le_toInt
  have most := n.toInt_lt
  exact denotes_nearest (by omega)

/-- No whole number that is a double is nearer. -/
theorem rounded_nearest (n : Int64) {other : Nat} (short : Short other) :
    Nat.dist n.toInt.natAbs (rounded n).natAbs ≤ Nat.dist n.toInt.natAbs other := by
  have size : (rounded n).natAbs = nearestNat n.toInt.natAbs := by
    unfold rounded
    cases n.toInt with
    | ofNat n => rfl
    | negSucc n => exact Int.natAbs_neg _
  rw [size]
  exact nearestNat_nearest _ short

/-- Numbers that are apart are compared as they are. -/
theorem Apart.le_iff {a b : Int64} (apart : Apart a b) : rounded a ≤ rounded b ↔ a.toInt ≤ b.toInt := by
  refine ⟨fun le => ?_, nearest_mono⟩
  by_contra greater
  have ge : rounded b ≤ rounded a := nearest_mono (Int.le_of_lt (Int.not_le.mp greater))
  cases apart (Int.le_antisymm le ge)
  exact greater (Int.le_refl _)

/-- Two integers that are apart round alike exactly when they are equal. -/
theorem Apart.eq_iff {a b : Int64} (apart : Apart a b) : rounded a = rounded b ↔ a.toInt = b.toInt :=
  ⟨fun same => congrArg _ (apart same), congrArg nearest⟩

/-- Being apart is symmetric. -/
theorem Apart.symm {a b : Int64} (apart : Apart a b) : Apart b a := fun same => (apart same.symm).symm

/-- Up to `2 ^ 53` no number is rounded, and below it no other number is rounded to one. -/
theorem apart_of_short {a b : Int64} (short : a.toInt.natAbs < 2 ^ 53 ∨
    a.toInt.natAbs ≤ 2 ^ 53 ∧ b.toInt.natAbs ≤ 2 ^ 53) : Apart a b := by
  intro same
  have kept : ∀ n : Int64, n.toInt.natAbs ≤ 2 ^ 53 → rounded n = n.toInt := fun n le => nearest_of_le le
  have left := kept a (by omega)
  refine Int64.toInt_inj.mp ?_
  by_cases small : b.toInt.natAbs ≤ 2 ^ 53
  · rw [← left, same, kept b small]
  · have strict : a.toInt.natAbs < 2 ^ 53 := by omega
    have top : nearest (2 ^ 53) = 2 ^ 53 := nearest_of_le (by decide)
    have bottom : nearest (-2 ^ 53) = -2 ^ 53 := nearest_of_le (by decide)
    have great : nearest (2 ^ 53) ≤ rounded b ∨ rounded b ≤ nearest (-2 ^ 53) := by
      rcases Int.lt_or_gt_of_ne (show b.toInt ≠ 0 by omega) with negative | positive
      · exact .inr (nearest_mono (by omega))
      · exact .inl (nearest_mono (by omega))
    omega

/-- The operators that compare. -/
inductive Comparison where
  /-- The same number. -/
  | equal
  /-- Another number. -/
  | unequal
  /-- A less number. -/
  | less
  /-- A greater number. -/
  | greater
  /-- No greater number. -/
  | atMost
  /-- No less number. -/
  | atLeast

namespace Comparison

/-- How the operator is written. -/
def sign : Comparison → String
  | equal => "="
  | unequal => "<>"
  | less => "<"
  | greater => ">"
  | atMost => "<="
  | atLeast => ">="

/-- What the operator says of two numbers. -/
def holds : Comparison → Int → Int → Bool
  | equal, a, b => a = b
  | unequal, a, b => a ≠ b
  | less, a, b => a < b
  | greater, a, b => b < a
  | atMost, a, b => a ≤ b
  | atLeast, a, b => b ≤ a

/-- Numbers that are apart are compared exactly. -/
theorem holds_rounded (comparison : Comparison) {a b : Int64} (apart : Apart a b) :
    comparison.holds (rounded a) (rounded b) = comparison.holds a.toInt b.toInt := by
  have same := apart.eq_iff
  have le := apart.le_iff
  have ge := apart.symm.le_iff
  cases comparison with
  | equal => exact decide_eq_decide.mpr same
  | unequal => exact decide_eq_decide.mpr (not_congr same)
  | less => exact decide_eq_decide.mpr (lt_iff_lt_of_le_iff_le ge)
  | greater => exact decide_eq_decide.mpr (lt_iff_lt_of_le_iff_le le)
  | atMost => exact decide_eq_decide.mpr le
  | atLeast => exact decide_eq_decide.mpr ge

end Comparison

/-- What a clause of a selection compares a whole number with. -/
inductive WholeItem where
  /-- A number. -/
  | single (number : Int64)
  /-- The numbers between two. -/
  | range (low high : Int64)

namespace WholeItem

/-- The item of a clause. -/
def item : WholeItem → CaseItem
  | single number => .single (.number number)
  | range low high => .range (.number low) (.number high)

/-- The numbers of the item. -/
def bounds : WholeItem → List Int64
  | single number => [number]
  | range low high => [low, high]

/-- The number is one of the item, if numbers are read like this. -/
def Covers (read : Int64 → Int) (n : Int64) : WholeItem → Prop
  | single number => read n = read number
  | range low high => read low ≤ read n ∧ read n ≤ read high

instance (read : Int64 → Int) (n : Int64) (item : WholeItem) : Decidable (item.Covers read n) :=
  match item with
  | single number => inferInstanceAs (Decidable (read n = read number))
  | range low high => inferInstanceAs (Decidable (read low ≤ read n ∧ read n ≤ read high))

end WholeItem

namespace Value

/-- Loose equality of two integers compares what they round to. -/
theorem looseEquals_number (a b : Int64) :
    looseEquals (.number a) (.number b) = decide (rounded a = rounded b) := by
  change (Value.asNumber (.number a) == Value.asNumber (.number b)) = _
  rw [Bool.eq_iff_iff, (denotes_rounded a).beq_iff (denotes_rounded b), decide_eq_true_iff]

/-- The order of two integers is the order of what they round to. -/
theorem compare_number (a b : Int64) :
    compare (.number a) (.number b) = Ord.compare (rounded a) (rounded b) := by
  change compareFloats (Value.asNumber (.number a)) (Value.asNumber (.number b)) = _
  unfold compareFloats
  simp only [(denotes_rounded _).lt_iff (denotes_rounded _)]
  rcases Int.lt_trichotomy (rounded a) (rounded b) with less | same | greater
  · rw [if_pos less, Int.compare_eq_lt.mpr less]
  · rw [if_neg (by omega), if_neg (by omega), Int.compare_eq_eq.mpr same]
  · rw [if_neg (by omega), if_pos greater, Int.compare_eq_gt.mpr greater]

/-- Operators compare what numbers are rounded to. -/
theorem combine_number (comparison : Comparison) (a b : Int64) (line : Nat) :
    combine comparison.sign (.number a) (.number b) line =
      .ok (.bool (comparison.holds (rounded a) (rounded b))) := by
  have answer : ∀ {left right : Bool}, left = right →
      (.ok (bool left) : Except Fault Value) = .ok (bool right) := fun same => by rw [same]
  have less : (compare (.number a) (.number b) == .lt) = decide (rounded a < rounded b) := by
    rw [compare_number, Bool.eq_iff_iff, beq_iff_eq, Int.compare_eq_lt, decide_eq_true_iff]
  have greater : (compare (.number a) (.number b) == .gt) = decide (rounded b < rounded a) := by
    rw [compare_number, Bool.eq_iff_iff, beq_iff_eq, Int.compare_eq_gt, decide_eq_true_iff]
  cases comparison with
  | equal => exact answer (looseEquals_number a b)
  | unequal => exact answer ((congrArg _ (looseEquals_number a b)).trans (decide_not ..).symm)
  | less => exact answer less
  | greater => exact answer greater
  | atMost =>
    refine answer ((congrArg _ greater).trans ?_)
    rw [← decide_not]
    exact decide_eq_decide.mpr Int.not_lt
  | atLeast =>
    refine answer ((congrArg _ less).trans ?_)
    rw [← decide_not]
    exact decide_eq_decide.mpr Int.not_lt

end Value

/-- Operators compare numbers exactly if and only if the numbers are apart. -/
theorem Value.combine_exact_iff (a b : Int64) :
    (∀ (comparison : Comparison) (line : Nat),
      combine comparison.sign (.number a) (.number b) line =
        .ok (.bool (comparison.holds a.toInt b.toInt))) ↔ Apart a b := by
  constructor
  · intro exact same
    have compared := (combine_number .equal a b 0).symm.trans (exact .equal 0)
    simp only [Comparison.holds, Except.ok.injEq, bool.injEq, decide_eq_decide] at compared
    exact Int64.toInt_inj.mp (compared.mp same)
  · intro apart comparison line
    rw [combine_number, comparison.holds_rounded apart]

/-- A clause compares what numbers are rounded to. -/
theorem WholeItem.fits_iff (n : Int64) (item : WholeItem) :
    item.item.fits (.number n) = true ↔ item.Covers rounded n := by
  cases item with
  | single number =>
    change Value.looseEquals (.number n) (.number number) = true ↔ _
    rw [Value.looseEquals_number, decide_eq_true_iff]
    rfl
  | range low high =>
    change ((Value.compare (.number n) (.number low) != .lt) &&
      (Value.compare (.number n) (.number high) != .gt)) = true ↔ _
    rw [Value.compare_number, Value.compare_number, Bool.and_eq_true, bne_iff_ne, bne_iff_ne,
      Int.compare_ne_lt, Int.compare_ne_gt]
    rfl

/-- Numbers that are apart from the numbers of an item are covered by it exactly. -/
theorem WholeItem.covers_iff {n : Int64} {item : WholeItem} (apart : ∀ bound ∈ item.bounds, Apart n bound) :
    item.Covers rounded n ↔ item.Covers Int64.toInt n := by
  cases item with
  | single number => exact (apart number (.head _)).eq_iff
  | range low high =>
    exact and_congr (apart low (.head _)).symm.le_iff (apart high (.tail _ (.head _))).le_iff

/-- A clause is chosen for a number: a last resort, or one of its items covers the number. -/
def WholeItem.chosen (read : Int64 → Int) (n : Int64) : Option (List WholeItem) → Bool
  | none => true
  | some items => items.any fun item => item.Covers read n

/-- Clauses are chosen by what the number is rounded to. -/
theorem WholeItem.findIdx_isChosen (n : Int64) (cases : List (Option (List WholeItem))) :
    (cases.map (Option.map (List.map item))).findIdx (Engine.isChosen (.number n)) =
      cases.findIdx (chosen rounded n) := by
  rw [List.findIdx_map]
  refine findIdx_congr fun items _ => ?_
  cases items with
  | none => rfl
  | some items =>
    change (items.map item).any (CaseItem.fits (.number n)) = items.any fun item => item.Covers rounded n
    rw [List.any_map]
    refine congrArg _ (funext fun item => ?_)
    rw [Bool.eq_iff_iff, decide_eq_true_iff]
    exact item.fits_iff n

/-- A selection by value of a number, whose clauses have items of numbers. -/
structure WholeSwitch (low : Engine) (window : Window) (opener : Token) (pos : Nat)
    (machine : Machine) where
  /-- The number. -/
  number : Int64
  /-- Where the clauses are looked for. -/
  behind : Nat
  /-- What is left behind when the number is read. -/
  evaluated : Machine
  /-- The clauses. -/
  found : List Clause
  /-- Where they end. -/
  close : Nat
  /-- What they compare the number with. -/
  cases : List (Option (List WholeItem))
  /-- What is left behind when the items are read. -/
  ready : Machine
  /-- The number is read. -/
  subject : low.value window (pos + 1) machine = .ok (.number number, behind) evaluated
  /-- The clauses are found. -/
  parts : clauses window opener behind .kwEndSwitch "EndSwitch" = .ok (found, close)
  /-- The items are read. -/
  items : low.caseItems found evaluated = .ok (cases.map (Option.map (List.map WholeItem.item))) ready

namespace WholeSwitch

variable {low : Engine} {window : Window} {opener : Token} {pos : Nat} {machine : Machine}
  (switch : WholeSwitch low window opener pos machine)

/-- Runs from a clause on. -/
def runFrom (chosen : Nat) : EStateM.Result Stop Machine (Flow × Nat) :=
  (do return (← low.runClauses (switch.found.drop chosen), switch.close + 1) : Exec (Flow × Nat))
    switch.ready

/-- Runs from the first clause that is chosen if numbers are read like this. -/
def run (read : Int64 → Int) : EStateM.Result Stop Machine (Flow × Nat) :=
  switch.runFrom (switch.cases.findIdx (WholeItem.chosen read switch.number))

/-- The number is apart from all numbers of the clauses. -/
def Apart : Prop :=
  ∀ items, some items ∈ switch.cases → ∀ item ∈ items, ∀ bound ∈ item.bounds,
    LineScript.Apart switch.number bound

/-- The first clause that covers what the number is rounded to is chosen. -/
theorem switch_eq_run : low.switch window opener pos machine = switch.run rounded := by
  simp only [Engine.switch, bind, EStateM.bind, switch.subject, switch.parts, Exec.ofExcept, pure,
    EStateM.pure, switch.items]
  exact congrArg switch.runFrom (WholeItem.findIdx_isChosen switch.number switch.cases)

/-- A number that is apart from those of the clauses is compared exactly. -/
theorem run_exact (apart : switch.Apart) : switch.run rounded = switch.run Int64.toInt := by
  refine congrArg switch.runFrom (findIdx_congr fun items inside => ?_)
  cases items with
  | none => rfl
  | some items =>
    rw [WholeItem.chosen, WholeItem.chosen, Bool.eq_iff_iff, List.any_eq_true, List.any_eq_true]
    refine exists_congr fun item => and_congr_right fun member => ?_
    rw [decide_eq_true_iff, decide_eq_true_iff]
    exact WholeItem.covers_iff (apart items inside item member)

end WholeSwitch

/-- Operators and selections compare whole numbers as the doubles nearest to them. Operators compare two
numbers exactly if and only if they are not different numbers with the same nearest double, which no number
below `2 ^ 53` is with another one; and a selection is exact if that is so for each number of its
clauses. -/
theorem whole_comparison (a b : Int64) :
    (∀ (comparison : Comparison) (line : Nat),
      Value.combine comparison.sign (.number a) (.number b) line =
        .ok (.bool (comparison.holds (rounded a) (rounded b)))) ∧
    ((∀ (comparison : Comparison) (line : Nat),
      Value.combine comparison.sign (.number a) (.number b) line =
        .ok (.bool (comparison.holds a.toInt b.toInt))) ↔ Apart a b) ∧
    (a.toInt.natAbs < 2 ^ 53 ∨ a.toInt.natAbs ≤ 2 ^ 53 ∧ b.toInt.natAbs ≤ 2 ^ 53 → Apart a b) ∧
    (∀ other, Short other →
      Nat.dist a.toInt.natAbs (rounded a).natAbs ≤ Nat.dist a.toInt.natAbs other) ∧
    ∀ {low : Engine} {window : Window} {opener : Token} {pos : Nat} {machine : Machine}
      (switch : WholeSwitch low window opener pos machine),
        low.switch window opener pos machine = switch.run rounded ∧
          (switch.Apart → low.switch window opener pos machine = switch.run Int64.toInt) := by
  refine ⟨fun comparison => Value.combine_number comparison a b, Value.combine_exact_iff a b,
    apart_of_short, fun _ => rounded_nearest a, fun switch => ⟨switch.switch_eq_run, fun apart => ?_⟩⟩
  rw [switch.switch_eq_run, switch.run_exact apart]

/-- The tokens of a selection among ranges. -/
def rangeTokens : TokenBlock :=
  ((tokenize "Switch 7\nCase 9 To 12\nCase 5 To 9\nEndSwitch\n").toOption.getD []).toArray

/-- The selection among ranges. -/
def rangeSwitch : WholeSwitch (engine 12) (.whole rangeTokens) ⟨.kwSwitch, "Switch", 1, 1⟩ 0
    (.ofTokens {} "main" []) where
  number := 7
  behind := 2
  evaluated := .ofTokens {} "main" []
  found := [⟨.slice rangeTokens 4 7, .slice rangeTokens 7 8, false⟩,
    ⟨.slice rangeTokens 9 12, .slice rangeTokens 12 13, false⟩]
  close := 13
  cases := [some [.range 9 12], some [.range 5 9]]
  ready := .ofTokens {} "main" []
  subject := by with_unfolding_all rfl
  parts := by with_unfolding_all rfl
  items := by with_unfolding_all rfl

/-- A switch over ranges of whole numbers and a comparison at the ends of the integers are decided
exactly. -/
theorem whole_comparison_ranges :
    rangeSwitch.Apart ∧
      rangeSwitch.cases.findIdx (WholeItem.chosen Int64.toInt rangeSwitch.number) = 1 ∧
      (engine 12).switch (.whole rangeTokens) ⟨.kwSwitch, "Switch", 1, 1⟩ 0 (.ofTokens {} "main" []) =
        rangeSwitch.run Int64.toInt ∧
      Value.combine "<" (.number (-7)) (.number 9223372036854775807) 1 = .ok (.bool true) := by
  have apart : rangeSwitch.Apart := by
    intro items _ item _ bound _
    obtain ⟨-, -, short, -⟩ := whole_comparison 7 bound
    exact short (.inl (by decide))
  obtain ⟨-, operators, short, -, switches⟩ := whole_comparison (-7) 9223372036854775807
  exact ⟨apart, by decide, (switches rangeSwitch).2 apart,
    operators.mpr (short (.inl (by decide))) .less 1⟩

/-- Two numbers beyond `2 ^ 53` are different and have the same nearest double. The operators take them for
the same number, and so does a clause. -/
theorem close_numbers_confused :
    (9007199254740993 : Int64) ≠ 9007199254740992 ∧
    Value.combine "=" (.number 9007199254740993) (.number 9007199254740992) 1 = .ok (.bool true) ∧
    Value.combine ">" (.number 9007199254740993) (.number 9007199254740992) 1 = .ok (.bool false) ∧
    (CaseItem.range (.number 0) (.number 9007199254740992)).fits (.number 9007199254740993) = true ∧
    (tokenize "Switch 9007199254740993\nCase 9007199254740992\nExit 1\nEndSwitch\n").toOption.bind
        (fun tokens => (Machine.run 20 >>= fun _ => Machine.exitCode <$> get).run'
          (.ofTokens {} "main" tokens)) = some 1 := by
  refine ⟨by decide, ?_, ?_, ?_, ?_⟩ <;> decide +kernel

end LineScript
