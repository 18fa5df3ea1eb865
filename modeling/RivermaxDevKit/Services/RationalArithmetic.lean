import RivermaxDevKit.Services.Rational

/-!
# Exactness of rational arithmetic

The operators of `Rational` against the rational numbers: what each returns,
when it throws, and how the comparisons order values.

The 64-bit words wrap silently. A product that fits is not enough: the integer
parts, the numerators over the common denominator and the improper numerators
are sums, and `opAdd_wraps` loses one. Subtraction is the exception. Its one
sum, the borrow, wraps and is brought back by the difference after it.

* `opAdd_exact`, `opSub_exact`, `opMul_exact`, `opDiv_exact` — the operators.
* `opLt_exact`, `opLe_exact`, `compareInteger_exact` — the orders.
-/

namespace RivermaxDevKit

open MixedNumber

namespace Rational

/-! ## Outcomes -/

/-- The result is `v`, as a mixed number. -/
def Returns (result : Except RationalFault Rational) (v : ℚ) : Prop :=
  ∃ r, result = .ok r ∧ r.value = v ∧ r.numerator < r.denominator

def Throws (result : Except RationalFault Rational) : Prop :=
  ∃ what, result = .error (.rationalE what)

theorem Throws.not_returns {result : Except RationalFault Rational} (hThrows : Throws result)
    (v : ℚ) : ¬ Returns result v := by
  rintro ⟨r, hOk, -⟩
  obtain ⟨what, hError⟩ := hThrows
  exact absurd (hError.symm.trans hOk) (by simp)

/-- A result on both sides of a condition settles when it throws. -/
theorem throws_iff {result : Except RationalFault Rational} {p : Prop} {v : ℚ}
    (hThrows : p → Throws result) (hReturns : ¬ p → Returns result v) :
    Throws result ↔ p := by
  refine ⟨fun hThrow => ?_, hThrows⟩
  by_contra hNot
  exact hThrow.not_returns v (hReturns hNot)

/-- A call of `init` whose integer part fits returns the value it is given. -/
theorem init_returns {integer numerator denominator : UInt64} {v : ℚ} (hDen : denominator ≠ 0)
    (hFits : integer.toNat + numerator.toNat / denominator.toNat < 2 ^ 64)
    (hValue : mixed integer.toNat numerator.toNat denominator.toNat = v) :
    Returns (init integer numerator denominator) v := by
  obtain ⟨r, hInit, hR⟩ := exists_init_value integer numerator hDen hFits
  exact ⟨r, hInit, hR.trans hValue, UInt64.lt_iff_toNat_lt.mpr (wellFormed_of_init hInit).proper⟩

/-! ## What has to fit -/

/-- The denominator two fractions share. -/
def commonDenominator (a b : Rational) : ℕ := a.denominator.toNat.lcm b.denominator.toNat

/-- The numerator of `r` over a multiple of its denominator. -/
def scaledNumerator (r : Rational) (denominator : ℕ) : ℕ :=
  r.numerator.toNat * (denominator / r.denominator.toNat)

/-- The numerator of `r` as an improper fraction. -/
def improperNumerator (r : Rational) : ℕ :=
  r.integer.toNat * r.denominator.toNat + r.numerator.toNat

/-- The products of `add_sub`: the scaled numerators are below their
denominator. -/
def AddProductsFit (a b : Rational) : Prop := commonDenominator a b < 2 ^ 64

/-- The sums of `operator+`, the carry of its fraction included. -/
def AddSumsFit (a b : Rational) : Prop :=
  let denominator := commonDenominator a b
  let numerator := scaledNumerator a denominator + scaledNumerator b denominator
  numerator < 2 ^ 64 ∧ a.integer.toNat + b.integer.toNat + numerator / denominator < 2 ^ 64

/-- The products that turn the operands of `mul_div` into improper fractions. -/
def ImproperProductsFit (a b : Rational) : Prop :=
  a.integer.toNat * a.denominator.toNat < 2 ^ 64 ∧
    b.integer.toNat * b.denominator.toNat < 2 ^ 64

/-- The sums of `mul_div`. -/
def ImproperSumsFit (a b : Rational) : Prop :=
  improperNumerator a < 2 ^ 64 ∧ improperNumerator b < 2 ^ 64

/-- The products of `operator*`, after the cross reduction. -/
def MulProductsFit (a b : Rational) : Prop :=
  let left := lowestTerms (improperNumerator a) b.denominator.toNat
  let right := lowestTerms (improperNumerator b) a.denominator.toNat
  ImproperProductsFit a b ∧ left.1 * right.1 < 2 ^ 64 ∧ right.2 * left.2 < 2 ^ 64

/-- The products of `operator/`, after the reduction. -/
def DivProductsFit (a b : Rational) : Prop :=
  let numerators := lowestTerms (improperNumerator a) (improperNumerator b)
  let denominators := lowestTerms a.denominator.toNat b.denominator.toNat
  ImproperProductsFit a b ∧ numerators.1 * denominators.2 < 2 ^ 64 ∧
    denominators.1 * numerators.2 < 2 ^ 64

/-- The product of `operator<`, made between equal integer parts. -/
def CompareProductsFit (a b : Rational) : Prop :=
  a.integer = b.integer → commonDenominator a b < 2 ^ 64

/-! ## Over the common denominator -/

theorem toNat_shared (d1 d2 : UInt64) (hD2 : d2 ≠ 0) :
    (shared d1 d2).toNat = d1.toNat.lcm d2.toNat % 2 ^ 64 := by
  rw [shared, UInt64.toNat_mul, UInt64.toNat_div, toNat_ofNat_gcd hD2,
    Nat.div_mul_right_comm (Nat.gcd_dvd_left _ _)]
  rfl

theorem WellFormed.denominator_pos {r : Rational} (hr : WellFormed r) :
    0 < r.denominator.toNat := (Nat.zero_le _).trans_lt hr.proper

theorem WellFormed.denominator_ne_zero {r : Rational} (hr : WellFormed r) :
    r.denominator ≠ 0 := UInt64.pos_iff_ne_zero.mp hr.denominator_pos

section

variable {r : Rational} {l : ℕ}

theorem scaledNumerator_lt (hr : WellFormed r) (hL : 0 < l) (hDvd : r.denominator.toNat ∣ l) :
    scaledNumerator r l < l := by
  -- a proper fraction stays proper over a multiple of its denominator
  have hQuotient : 0 < l / r.denominator.toNat :=
    Nat.div_pos (Nat.le_of_dvd hL hDvd) hr.denominator_pos
  calc scaledNumerator r l < r.denominator.toNat * (l / r.denominator.toNat) :=
        Nat.mul_lt_mul_of_pos_right hr.proper hQuotient
    _ = l := Nat.mul_div_cancel' hDvd

theorem toNat_scaled (hr : WellFormed r) {denominator : UInt64} (hL : 0 < denominator.toNat)
    (hDvd : r.denominator.toNat ∣ denominator.toNat) :
    (r.numerator * (denominator / r.denominator)).toNat =
      scaledNumerator r denominator.toNat := by
  rw [UInt64.toNat_mul, UInt64.toNat_div]
  exact Nat.mod_eq_of_lt ((scaledNumerator_lt hr hL hDvd).trans denominator.toNat_lt)

theorem mixed_scaledNumerator (hL : 0 < l) (hDvd : r.denominator.toNat ∣ l) :
    mixed r.integer.toNat (scaledNumerator r l) l = r.value := mixed_of_dvd hL hDvd

end

/-- Two values over the denominator they share: what `add_sub` and `operator<`
compute with. -/
theorem exists_common {a b : Rational} (ha : WellFormed a) (hb : WellFormed b)
    (hFits : commonDenominator a b < 2 ^ 64) :
    (shared a.denominator b.denominator).toNat = commonDenominator a b ∧
      0 < commonDenominator a b ∧
      (a.numerator * (shared a.denominator b.denominator / a.denominator)).toNat =
        scaledNumerator a (commonDenominator a b) ∧
      (b.numerator * (shared a.denominator b.denominator / b.denominator)).toNat =
        scaledNumerator b (commonDenominator a b) := by
  have hL : (shared a.denominator b.denominator).toNat = commonDenominator a b := by
    rw [toNat_shared _ _ hb.denominator_ne_zero]
    exact Nat.mod_eq_of_lt hFits
  have hPos : 0 < commonDenominator a b := Nat.lcm_pos ha.denominator_pos hb.denominator_pos
  have hDvdA : a.denominator.toNat ∣ commonDenominator a b := Nat.dvd_lcm_left _ _
  have hDvdB : b.denominator.toNat ∣ commonDenominator a b := Nat.dvd_lcm_right _ _
  refine ⟨hL, hPos, ?_, ?_⟩
  · rw [← hL] at hPos hDvdA ⊢
    exact toNat_scaled ha hPos hDvdA
  · rw [← hL] at hPos hDvdB ⊢
    exact toNat_scaled hb hPos hDvdB

/-! ## Addition and subtraction -/

/-- **`operator+`.** -/
theorem opAdd_exact {a b : Rational} (ha : WellFormed a) (hb : WellFormed b)
    (hProducts : AddProductsFit a b) (hSums : AddSumsFit a b) :
    Returns (opAdd a b) (a.value + b.value) := by
  obtain ⟨hL, hPos, hA, hB⟩ := exists_common ha hb hProducts
  obtain ⟨hNumerator, hInteger⟩ := hSums
  have hDen : shared a.denominator b.denominator ≠ 0 :=
    UInt64.pos_iff_ne_zero.mp (show 0 < (shared a.denominator b.denominator).toNat by omega)
  -- neither sum wraps
  have hIntegers : (a.integer + b.integer).toNat = a.integer.toNat + b.integer.toNat := by
    rw [UInt64.toNat_add]
    exact Nat.mod_eq_of_lt ((Nat.le_add_right _ _).trans_lt hInteger)
  have hNumerators : (a.numerator * (shared a.denominator b.denominator / a.denominator) +
      b.numerator * (shared a.denominator b.denominator / b.denominator)).toNat =
      scaledNumerator a (commonDenominator a b) + scaledNumerator b (commonDenominator a b) := by
    rw [UInt64.toNat_add, hA, hB]
    exact Nat.mod_eq_of_lt hNumerator
  rw [opAdd, addSub_true]
  refine init_returns hDen ?_ ?_
  · rw [hIntegers, hNumerators, hL]
    exact hInteger
  · rw [hIntegers, hNumerators, hL, ← mixed_add,
      mixed_scaledNumerator hPos (Nat.dvd_lcm_left _ _),
      mixed_scaledNumerator hPos (Nat.dvd_lcm_right _ _)]

/-- **`operator-`.** It throws on a negative difference and only then. -/
theorem opSub_exact {a b : Rational} (ha : WellFormed a) (hb : WellFormed b)
    (hProducts : AddProductsFit a b) :
    (a.value < b.value → Throws (opSub a b)) ∧
      (¬ a.value < b.value → Returns (opSub a b) (a.value - b.value)) := by
  obtain ⟨hL, hPos, hA, hB⟩ := exists_common ha hb hProducts
  have hValueA := mixed_scaledNumerator (r := a) hPos (Nat.dvd_lcm_left _ _)
  have hValueB := mixed_scaledNumerator (r := b) hPos (Nat.dvd_lcm_right _ _)
  have hProperA := scaledNumerator_lt ha hPos (Nat.dvd_lcm_left _ _)
  have hProperB := scaledNumerator_lt hb hPos (Nat.dvd_lcm_right _ _)
  -- what `add_sub` looks at decides the sign of the difference
  have hLt : a.value < b.value ↔ a.integer.toNat < b.integer.toNat ∨
      a.integer.toNat = b.integer.toNat ∧ scaledNumerator a (commonDenominator a b) <
        scaledNumerator b (commonDenominator a b) := by
    rw [← hValueA, ← hValueB, mixed_lt_mixed_iff hProperA hProperB, Nat.mul_lt_mul_right hPos]
  have hDen : shared a.denominator b.denominator ≠ 0 :=
    UInt64.pos_iff_ne_zero.mp (show 0 < (shared a.denominator b.denominator).toNat by omega)
  have hSmall : ∀ x : UInt64, x < 1 ↔ x.toNat = 0 := by
    intro x
    rw [UInt64.lt_iff_toNat_lt, UInt64.toNat_one]
    omega
  rw [opSub, addSub_false]
  -- from here on the words of the call
  generalize a.numerator * (shared a.denominator b.denominator / a.denominator) = x at hA ⊢
  generalize b.numerator * (shared a.denominator b.denominator / b.denominator) = y at hB ⊢
  generalize shared a.denominator b.denominator = l at hL hDen ⊢
  rw [← hA, ← hL] at hValueA hProperA
  rw [← hB, ← hL] at hValueB hProperB
  rw [← hA, ← hB] at hLt
  rw [← hL] at hPos
  by_cases hInteger : a.integer < b.integer
  · rw [if_pos hInteger]
    exact ⟨fun _ => ⟨_, rfl⟩,
      fun hNot => absurd (hLt.mpr (.inl (UInt64.lt_iff_toNat_lt.mp hInteger))) hNot⟩
  · rw [if_neg hInteger]
    rw [UInt64.lt_iff_toNat_lt] at hInteger
    have hDifference : (a.integer - b.integer).toNat = a.integer.toNat - b.integer.toNat :=
      UInt64.toNat_sub_of_le _ _ (UInt64.le_iff_toNat_le.mpr (by omega))
    by_cases hBorrow : x < y
    · rw [if_pos hBorrow]
      rw [UInt64.lt_iff_toNat_lt] at hBorrow
      by_cases hWhole : a.integer - b.integer < 1
      · rw [if_pos hWhole]
        rw [hSmall, hDifference] at hWhole
        exact ⟨fun _ => ⟨_, rfl⟩, fun hNot => absurd (hLt.mpr (.inr ⟨by omega, hBorrow⟩)) hNot⟩
      · -- the borrowed unit: the sum may wrap, the difference does not
        rw [if_neg hWhole]
        rw [hSmall, hDifference] at hWhole
        have hLess : (a.integer - b.integer - 1).toNat =
            a.integer.toNat - b.integer.toNat - 1 := by
          rw [UInt64.toNat_sub_of_le _ _ (UInt64.le_iff_toNat_le.mpr (by
            rw [hDifference, UInt64.toNat_one]; omega)), hDifference, UInt64.toNat_one]
        have hNumerator : (x + l - y).toNat = x.toNat + l.toNat - y.toNat := by
          have hBounds := l.toNat_lt
          rw [UInt64.toNat_sub, UInt64.toNat_add]
          omega
        refine ⟨fun hNeg => absurd (hLt.mp hNeg) (by omega), fun _ => init_returns hDen ?_ ?_⟩
        · rw [hLess, hNumerator, Nat.div_eq_of_lt (by omega)]
          have hBound := a.integer.toNat_lt
          omega
        · rw [hLess, hNumerator, ← hValueA, ← hValueB,
            mixed_borrow hPos (show 0 < a.integer.toNat by omega), mixed_sub (by omega) (by omega),
            Nat.sub_right_comm]
    · -- no borrow: both parts are subtracted
      rw [if_neg hBorrow]
      rw [UInt64.lt_iff_toNat_lt] at hBorrow
      have hNumerator : (x - y).toNat = x.toNat - y.toNat :=
        UInt64.toNat_sub_of_le _ _ (UInt64.le_iff_toNat_le.mpr (by omega))
      refine ⟨fun hNeg => absurd (hLt.mp hNeg) (by omega), fun _ => init_returns hDen ?_ ?_⟩
      · rw [hDifference, hNumerator, Nat.div_eq_of_lt (by omega)]
        have hBound := a.integer.toNat_lt
        omega
      · rw [hDifference, hNumerator, ← hValueA, ← hValueB, mixed_sub (by omega) (by omega)]

/-! ## Multiplication and division -/

theorem toNat_wholeNumerator {r : Rational}
    (hProduct : r.integer.toNat * r.denominator.toNat < 2 ^ 64)
    (hSum : improperNumerator r < 2 ^ 64) : r.wholeNumerator.toNat = improperNumerator r := by
  rw [wholeNumerator, UInt64.toNat_add, UInt64.toNat_mul, Nat.mod_eq_of_lt hProduct]
  exact Nat.mod_eq_of_lt hSum

theorem value_eq_improper {r : Rational} (hr : WellFormed r) :
    r.value = (improperNumerator r : ℚ) / r.denominator.toNat := mixed_improper hr.denominator_pos

theorem value_eq_zero_iff {r : Rational} (hr : WellFormed r) :
    r.value = 0 ↔ improperNumerator r = 0 := mixed_eq_zero_iff hr.proper

/-- The last call of `mul_div`: two reduced fractions are multiplied. -/
theorem init_product_returns {x y u v : UInt64} (hY : 0 < y.toNat) (hV : 0 < v.toNat)
    (hNum : x.toNat * u.toNat < 2 ^ 64) (hDen : y.toNat * v.toNat < 2 ^ 64) :
    Returns (init 0 (x * u) (y * v))
      ((x.toNat : ℚ) / y.toNat * ((u.toNat : ℚ) / v.toNat)) := by
  -- the two products fit
  have hNumerator : (x * u).toNat = x.toNat * u.toNat := by
    rw [UInt64.toNat_mul]
    exact Nat.mod_eq_of_lt hNum
  have hDenominator : (y * v).toNat = y.toNat * v.toNat := by
    rw [UInt64.toNat_mul]
    exact Nat.mod_eq_of_lt hDen
  have hPos : 0 < (y * v).toNat := hDenominator ▸ Nat.mul_pos hY hV
  refine init_returns (UInt64.pos_iff_ne_zero.mp hPos) ?_ ?_
  · rw [UInt64.toNat_zero, Nat.zero_add]
    exact (Nat.div_le_self _ _).trans_lt (UInt64.toNat_lt _)
  · rw [UInt64.toNat_zero, mixed_fraction, hNumerator, hDenominator]
    push_cast
    rw [div_mul_div_comm]

/-- Two words in lowest terms keep their quotient. -/
theorem lowest_fraction {n d : UInt64} (hD : d ≠ 0) :
    0 < (lowest n d).2.toNat ∧
      ((lowest n d).1.toNat : ℚ) / (lowest n d).2.toNat = (n.toNat : ℚ) / d.toNat := by
  have hPos : 0 < d.toNat := UInt64.pos_iff_ne_zero.mpr hD
  rw [toNat_lowest_fst, toNat_lowest_snd]
  exact ⟨lowestTerms_den_pos hPos, lowestTerms_eq hPos⟩

theorem opMul_eq_init {a b : Rational} (ha : WellFormed a) (hb : WellFormed b) :
    opMul a b = init 0
      ((lowest a.wholeNumerator b.denominator).1 * (lowest b.wholeNumerator a.denominator).1)
      ((lowest b.wholeNumerator a.denominator).2 *
        (lowest a.wholeNumerator b.denominator).2) := by
  rw [opMul, mulDiv_true, reduce_eq (.inr hb.denominator_ne_zero),
    reduce_eq (.inr ha.denominator_ne_zero)]
  rfl

/-- **`operator*`.** -/
theorem opMul_exact {a b : Rational} (ha : WellFormed a) (hb : WellFormed b)
    (hProducts : MulProductsFit a b) (hSums : ImproperSumsFit a b) :
    Returns (opMul a b) (a.value * b.value) := by
  obtain ⟨hImproper, hNum, hDen⟩ := hProducts
  have hA := toNat_wholeNumerator hImproper.1 hSums.1
  have hB := toNat_wholeNumerator hImproper.2 hSums.2
  rw [← hA, ← hB, ← toNat_lowest_fst, ← toNat_lowest_fst] at hNum
  rw [← hA, ← hB, ← toNat_lowest_snd, ← toNat_lowest_snd] at hDen
  obtain ⟨hLeftPos, hLeft⟩ := lowest_fraction (n := a.wholeNumerator) hb.denominator_ne_zero
  obtain ⟨hRightPos, hRight⟩ := lowest_fraction (n := b.wholeNumerator) ha.denominator_ne_zero
  have hCall := opMul_eq_init ha hb
  generalize lowest a.wholeNumerator b.denominator = left at *
  generalize lowest b.wholeNumerator a.denominator = right at *
  -- reduced across, the product of the values is the same
  have hValue : a.value * b.value =
      (left.1.toNat : ℚ) / right.2.toNat * ((right.1.toNat : ℚ) / left.2.toNat) := by
    calc a.value * b.value
        = (a.wholeNumerator.toNat : ℚ) / b.denominator.toNat *
            ((b.wholeNumerator.toNat : ℚ) / a.denominator.toNat) := by
          rw [value_eq_improper ha, value_eq_improper hb, hA, hB]
          ring
      _ = (left.1.toNat : ℚ) / left.2.toNat * ((right.1.toNat : ℚ) / right.2.toNat) := by
          rw [hLeft, hRight]
      _ = (left.1.toNat : ℚ) / right.2.toNat * ((right.1.toNat : ℚ) / left.2.toNat) := by ring
  rw [hCall, hValue]
  exact init_product_returns hRightPos hLeftPos hNum hDen

/-- `0 / 0` and anything else over zero. -/
theorem opDiv_throws {a b : Rational} (hb : WellFormed b) (hZero : b.wholeNumerator = 0) :
    Throws (opDiv a b) := by
  rw [Throws, opDiv, mulDiv_false, hZero]
  by_cases hDividend : a.wholeNumerator = 0
  · -- nothing to cancel: `init` is handed the denominator zero
    have hLowest : lowest 0 0 = (0, 0) := by decide
    rw [reduce_eq (.inl hDividend), reduce_eq (.inr hb.denominator_ne_zero), hDividend, hLowest]
    change ∃ what, init 0 (0 * (lowest a.denominator b.denominator).2)
      ((lowest a.denominator b.denominator).1 * 0) = _
    rw [UInt64.mul_zero]
    exact init_zero _ _
  · obtain ⟨what, hThrow⟩ := reduce_by_zero hDividend
    rw [hThrow]
    exact ⟨what, rfl⟩

theorem opDiv_eq_init {a b : Rational} (hb : WellFormed b) (hDivisor : b.wholeNumerator ≠ 0) :
    opDiv a b = init 0
      ((lowest a.wholeNumerator b.wholeNumerator).1 * (lowest a.denominator b.denominator).2)
      ((lowest a.denominator b.denominator).1 *
        (lowest a.wholeNumerator b.wholeNumerator).2) := by
  rw [opDiv, mulDiv_false, reduce_eq (.inr hDivisor), reduce_eq (.inr hb.denominator_ne_zero)]
  rfl

/-- **`operator/`.** It throws on a zero divisor and only then. -/
theorem opDiv_exact {a b : Rational} (ha : WellFormed a) (hb : WellFormed b)
    (hProducts : DivProductsFit a b) (hSums : ImproperSumsFit a b) :
    (b.value = 0 → Throws (opDiv a b)) ∧
      (¬ b.value = 0 → Returns (opDiv a b) (a.value / b.value)) := by
  obtain ⟨hImproper, hNum, hDen⟩ := hProducts
  have hA := toNat_wholeNumerator hImproper.1 hSums.1
  have hB := toNat_wholeNumerator hImproper.2 hSums.2
  rw [value_eq_zero_iff hb, ← hB]
  refine ⟨fun hZero => opDiv_throws hb (UInt64.toNat_inj.mp hZero), fun hNe => ?_⟩
  have hDivisor : b.wholeNumerator ≠ 0 := fun hZero => hNe (by rw [hZero]; rfl)
  rw [← hA, ← hB, ← toNat_lowest_fst, ← toNat_lowest_snd] at hNum
  rw [← hA, ← hB, ← toNat_lowest_fst, ← toNat_lowest_snd] at hDen
  obtain ⟨hNumPos, hNumbers⟩ := lowest_fraction (n := a.wholeNumerator) hDivisor
  obtain ⟨hDenPos, hDens⟩ := lowest_fraction (n := a.denominator) hb.denominator_ne_zero
  -- the denominators are not zero, so neither is what they reduce to
  have hFirstPos : 0 < (lowest a.denominator b.denominator).1.toNat := by
    rw [toNat_lowest_fst, Nat.pos_iff_ne_zero, Ne, lowestTerms_fst_eq_zero_iff]
    exact ha.denominator_pos.ne'
  have hCall := opDiv_eq_init (a := a) hb hDivisor
  generalize lowest a.wholeNumerator b.wholeNumerator = numerators at *
  generalize lowest a.denominator b.denominator = denominators at *
  -- numerators over numerators, and denominators over denominators
  have hValue : a.value / b.value =
      (numerators.1.toNat : ℚ) / denominators.1.toNat *
        ((denominators.2.toNat : ℚ) / numerators.2.toNat) := by
    calc a.value / b.value
        = (a.wholeNumerator.toNat : ℚ) / b.wholeNumerator.toNat /
            ((a.denominator.toNat : ℚ) / b.denominator.toNat) := by
          rw [value_eq_improper ha, value_eq_improper hb, hA, hB, div_div_div_comm]
      _ = (numerators.1.toNat : ℚ) / numerators.2.toNat /
            ((denominators.1.toNat : ℚ) / denominators.2.toNat) := by rw [hNumbers, hDens]
      _ = (numerators.1.toNat : ℚ) / denominators.1.toNat *
            ((denominators.2.toNat : ℚ) / numerators.2.toNat) := by
          rw [div_div_div_eq, div_mul_div_comm, mul_comm (numerators.2.toNat : ℚ)]
  rw [hCall, hValue]
  exact init_product_returns hFirstPos hNumPos hNum hDen

/-! ## Comparisons -/

/-- **The order of values.** -/
theorem opLt_exact {a b : Rational} (ha : WellFormed a) (hb : WellFormed b)
    (hProducts : CompareProductsFit a b) : opLt a b = .ok (decide (a.value < b.value)) := by
  by_cases hInteger : a.integer = b.integer
  · obtain ⟨-, hPos, hA, hB⟩ := exists_common ha hb (hProducts hInteger)
    have hValueA := mixed_scaledNumerator (r := a) hPos (Nat.dvd_lcm_left _ _)
    have hValueB := mixed_scaledNumerator (r := b) hPos (Nat.dvd_lcm_right _ _)
    have hCall : opLt a b = .ok (decide
        (shared a.denominator b.denominator / a.denominator * a.numerator <
          shared a.denominator b.denominator / b.denominator * b.numerator)) := by
      rw [opLt, if_pos hInteger, lcd_eq]
      rfl
    rw [hCall]
    refine congrArg Except.ok (decide_eq_decide.mpr ?_)
    rw [UInt64.lt_iff_toNat_lt, UInt64.mul_comm, hA, UInt64.mul_comm, hB, ← hValueA, ← hValueB,
      hInteger, mixed_lt_mixed_same hPos]
  · rw [opLt, if_neg hInteger]
    refine congrArg Except.ok (decide_eq_decide.mpr ?_)
    -- proper fractions do not reach the next integer
    have hNe : a.integer.toNat ≠ b.integer.toNat := fun hEq =>
      hInteger (UInt64.toNat_inj.mp hEq)
    rw [value, value, mixed_lt_mixed_iff ha.proper hb.proper, UInt64.lt_iff_toNat_lt]
    omega

theorem CompareProductsFit.symm {a b : Rational} (hFit : CompareProductsFit a b) :
    CompareProductsFit b a := by
  intro hInteger
  rw [commonDenominator, Nat.lcm_comm]
  exact hFit hInteger.symm

theorem opLe_exact {a b : Rational} (ha : WellFormed a) (hb : WellFormed b)
    (hProducts : CompareProductsFit a b) : opLe a b = .ok (decide (a.value ≤ b.value)) := by
  rw [opLe, opLt_exact hb ha hProducts.symm]
  refine congrArg Except.ok ?_
  rw [← decide_not, decide_eq_decide, not_lt]

/-- **The order of values and integers**, on either side. -/
theorem compareInteger_exact {a : Rational} (ha : WellFormed a) (n : UInt64) :
    (opLtInteger a n ↔ a.value < n.toNat) ∧ (opLeInteger a n ↔ a.value ≤ n.toNat) ∧
      (opGtInteger a n ↔ n.toNat < a.value) ∧ (opGeInteger a n ↔ n.toNat ≤ a.value) := by
  have hLt : a.value < n.toNat ↔ a.integer.toNat < n.toNat := mixed_lt_nat_iff ha.proper _
  have hGt : (n.toNat : ℚ) < a.value ↔ n.toNat < a.integer.toNat ∨
      n.toNat = a.integer.toNat ∧ 0 < a.numerator.toNat := nat_lt_mixed_iff ha.proper _
  have hNum : a.numerator = 0 ↔ a.numerator.toNat = 0 := by
    rw [← UInt64.toNat_inj, UInt64.toNat_zero]
  refine ⟨?_, ?_, ?_, ?_⟩
  · rw [opLtInteger, decide_eq_true_iff, hLt, UInt64.lt_iff_toNat_lt]
  · rw [← not_lt, hGt]
    unfold opLeInteger
    split_ifs with hInteger
    · rw [UInt64.lt_iff_toNat_lt] at hInteger
      simp [hInteger]
    · rw [UInt64.lt_iff_toNat_lt] at hInteger
      rw [decide_eq_true_iff, UInt64.lt_iff_toNat_lt, hNum]
      omega
  · rw [hGt]
    unfold opGtInteger
    split_ifs with hInteger
    · rw [UInt64.lt_iff_toNat_lt] at hInteger
      simp
      omega
    · rw [UInt64.lt_iff_toNat_lt] at hInteger
      rw [decide_eq_true_iff, gt_iff_lt, UInt64.lt_iff_toNat_lt, Ne, hNum]
      omega
  · rw [opGeInteger, decide_eq_true_iff, ← not_lt, hLt, ge_iff_le, UInt64.le_iff_toNat_le]
    omega

/-! ## All operators -/

/-- **Exact arithmetic on two values**: each operator whose intermediate
products and sums fit returns the exact result, throws exactly when there is
none, and ends; the comparisons are those of the values. -/
structure ExactArithmetic (a b : Rational) : Prop where
  add : AddProductsFit a b → AddSumsFit a b → Returns (opAdd a b) (a.value + b.value)
  sub : AddProductsFit a b → (Throws (opSub a b) ↔ a.value < b.value) ∧
    (¬ a.value < b.value → Returns (opSub a b) (a.value - b.value))
  mul : MulProductsFit a b → ImproperSumsFit a b → Returns (opMul a b) (a.value * b.value)
  div : DivProductsFit a b → ImproperSumsFit a b → (Throws (opDiv a b) ↔ b.value = 0) ∧
    (¬ b.value = 0 → Returns (opDiv a b) (a.value / b.value))
  ends : opAdd a b ≠ .error .diverges ∧ opSub a b ≠ .error .diverges ∧
    opMul a b ≠ .error .diverges ∧ opDiv a b ≠ .error .diverges ∧
    opLt a b ≠ .error .diverges
  order : CompareProductsFit a b →
    opLt a b = .ok (decide (a.value < b.value)) ∧ opLe a b = .ok (decide (a.value ≤ b.value)) ∧
    opGt a b = .ok (decide (b.value < a.value)) ∧ opGe a b = .ok (decide (b.value ≤ a.value))
  integers : ∀ n : UInt64,
    (opLtInteger a n ↔ a.value < n.toNat) ∧ (opLeInteger a n ↔ a.value ≤ n.toNat) ∧
    (opGtInteger a n ↔ n.toNat < a.value) ∧ (opGeInteger a n ↔ n.toNat ≤ a.value) ∧
    (integerLt n a ↔ n.toNat < a.value) ∧ (integerLe n a ↔ n.toNat ≤ a.value) ∧
    (integerGt n a ↔ a.value < n.toNat) ∧ (integerGe n a ↔ a.value ≤ n.toNat)

theorem opLt_ne_diverges (a b : Rational) : opLt a b ≠ .error .diverges := by
  unfold opLt
  split_ifs
  · rw [lcd_eq]
    exact fun hEq => by cases hEq
  · exact fun hEq => by cases hEq

/-- **Rational arithmetic and order are exact** on reachable values, as far as
products and sums fit. -/
theorem arithmetic_exact {a b : Rational} (ha : Reachable a) (hb : Reachable b) :
    ExactArithmetic a b := by
  have haW := ha.wellFormed
  have hbW := hb.wellFormed
  refine ⟨opAdd_exact haW hbW, fun hProducts => ?_, opMul_exact haW hbW,
    fun hProducts hSums => ?_, ?_, fun hProducts => ?_, fun n => ?_⟩
  · obtain ⟨hThrows, hReturns⟩ := opSub_exact haW hbW hProducts
    exact ⟨throws_iff hThrows hReturns, hReturns⟩
  · obtain ⟨hThrows, hReturns⟩ := opDiv_exact haW hbW hProducts hSums
    exact ⟨throws_iff hThrows hReturns, hReturns⟩
  · exact ⟨addSub_ne_diverges a b true, addSub_ne_diverges a b false,
      mulDiv_ne_diverges a b true, mulDiv_ne_diverges a b false, opLt_ne_diverges a b⟩
  · exact ⟨opLt_exact haW hbW hProducts, opLe_exact haW hbW hProducts,
      opLt_exact hbW haW hProducts.symm, opLe_exact hbW haW hProducts.symm⟩
  · obtain ⟨hLt, hLe, hGt, hGe⟩ := compareInteger_exact haW n
    exact ⟨hLt, hLe, hGt, hGe, hGt, hGe, hLt, hLe⟩

/-- Five sixths, from one half and one third. -/
theorem arithmetic_exact_halfAndThird :
    ExactArithmetic ⟨0, 1, 2⟩ ⟨0, 1, 3⟩ ∧
      Returns (opAdd ⟨0, 1, 2⟩ ⟨0, 1, 3⟩) (value ⟨0, 1, 2⟩ + value ⟨0, 1, 3⟩) := by
  have hHalf : Reachable ⟨0, 1, 2⟩ :=
    .construct (show init 0 1 2 = .ok ⟨0, 1, 2⟩ by decide)
  have hThird : Reachable ⟨0, 1, 3⟩ :=
    .construct (show init 0 1 3 = .ok ⟨0, 1, 3⟩ by decide)
  have hExact := arithmetic_exact hHalf hThird
  exact ⟨hExact, hExact.add (by unfold AddProductsFit; decide) (by unfold AddSumsFit; decide)⟩

/-- Two, less the smallest fraction over `2 ^ 64 - 2`. -/
def nearlyTwo : Rational := ⟨1, 18446744073709551613, 18446744073709551614⟩

/-- **Fitting products are not enough.** The integer parts of the sum wrap, and
so does the improper numerator of the multiplicand. -/
theorem not_exact_of_products :
    (Reachable (ofInteger 18446744073709551615) ∧ Reachable (ofInteger 1) ∧
      AddProductsFit (ofInteger 18446744073709551615) (ofInteger 1) ∧
      ¬ Returns (opAdd (ofInteger 18446744073709551615) (ofInteger 1))
        (value (ofInteger 18446744073709551615) + value (ofInteger 1))) ∧
    (Reachable nearlyTwo ∧ Reachable ⟨0, 1, 3⟩ ∧ MulProductsFit nearlyTwo ⟨0, 1, 3⟩ ∧
      ¬ Returns (opMul nearlyTwo ⟨0, 1, 3⟩) (value nearlyTwo * value ⟨0, 1, 3⟩)) := by
  refine ⟨⟨.assign _, .assign _, by unfold AddProductsFit; decide +kernel, ?_⟩, ?_, ?_,
    by unfold MulProductsFit ImproperProductsFit; decide +kernel, ?_⟩
  · rintro ⟨r, hOk, hValue, -⟩
    have hCall : opAdd (ofInteger 18446744073709551615) (ofInteger 1) = .ok ⟨0, 0, 1⟩ := by
      decide +kernel
    obtain rfl := Except.ok.inj (hOk.symm.trans hCall)
    exact absurd hValue (by decide +kernel)
  · exact .construct (show init 1 18446744073709551613 18446744073709551614 = .ok nearlyTwo by
      decide +kernel)
  · exact .construct (show init 0 1 3 = .ok ⟨0, 1, 3⟩ by decide)
  · rintro ⟨r, hOk, hValue, -⟩
    have hCall : opMul nearlyTwo ⟨0, 1, 3⟩ = .ok ⟨1, 1, 18446744073709551610⟩ := by decide +kernel
    obtain rfl := Except.ok.inj (hOk.symm.trans hCall)
    exact absurd hValue (by decide +kernel)

end Rational

end RivermaxDevKit
