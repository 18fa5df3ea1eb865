import RivermaxDevKit.Services.RationalArithmetic

/-!
# Equality of rational numbers

`operator==` compares the three words. It is equality of values as long as a
value is spelled in one way, and `reduce` leaves early on a zero numerator:
one half less one half is zero over two, which is not the zero of
`Rational(0)`.

* `opEq_iff_value_iff` — which pairs the comparison of words gets wrong.
* `selfDifference_iff` — which values differ from themselves by `Rational(0)`.
* `CanonicalRun.canonical` — the runs on which every value has one spelling.
-/

namespace RivermaxDevKit

open MixedNumber

namespace Rational

/-! ## The law of equality -/

/-- `a - a` is `Rational(0)`. -/
def SelfDifference (a : Rational) : Prop := ∃ r, opSub a a = .ok r ∧ opEq r (ofInteger 0)

/-- Equality is equality of values, is what the order leaves, and holds between
a difference with itself and zero. -/
structure EqualityLaw (a b : Rational) : Prop where
  sameValue : opEq a b ↔ a.value = b.value
  unordered : opEq a b ↔ opLt a b = .ok false ∧ opLt b a = .ok false
  selfDifference : SelfDifference a

/-- One integer, spelled over two denominators. -/
def ZeroOverAnother (a b : Rational) : Prop :=
  a.integer = b.integer ∧ a.numerator = 0 ∧ b.numerator = 0 ∧ a.denominator ≠ b.denominator

instance (a b : Rational) : Decidable (ZeroOverAnother a b) := by
  unfold ZeroOverAnother
  infer_instance

theorem opEq_iff (a b : Rational) : opEq a b ↔ a = b := by
  rw [opEq, decide_eq_true_iff, Rational.ext_iff]

/-! ## One spelling -/

/-- Words are equal when a value is spelled in one way; the spellings of one
value differ in the denominator of a zero fraction. -/
theorem value_eq_iff {a b : Rational} (ha : WellFormed a) (hb : WellFormed b) :
    a.value = b.value ↔ a = b ∨ ZeroOverAnother a b := by
  have hNumA : a.numerator = 0 ↔ a.numerator.toNat = 0 := by
    rw [← UInt64.toNat_inj, UInt64.toNat_zero]
  have hNumB : b.numerator = 0 ↔ b.numerator.toNat = 0 := by
    rw [← UInt64.toNat_inj, UInt64.toNat_zero]
  rw [value, value, mixed_eq_mixed_iff ha.proper hb.proper]
  constructor
  · rintro ⟨hInteger, hCross⟩
    have hWords : a.integer = b.integer := UInt64.toNat_inj.mp hInteger
    by_cases hZero : a.numerator = 0
    · have hOther : b.numerator = 0 := by
        rw [hNumA.mp hZero, Nat.zero_mul, eq_comm, Nat.mul_eq_zero] at hCross
        exact hNumB.mpr (hCross.resolve_right ha.denominator_pos.ne')
      by_cases hDen : a.denominator = b.denominator
      · exact .inl (Rational.ext hWords (hZero.trans hOther.symm) hDen)
      · exact .inr ⟨hWords, hZero, hOther, hDen⟩
    · have hOther : b.numerator ≠ 0 := by
        intro hZero'
        rw [hNumB.mp hZero', Nat.zero_mul, Nat.mul_eq_zero] at hCross
        exact hCross.elim (fun hN => hZero (hNumA.mpr hN)) hb.denominator_pos.ne'
      obtain ⟨hNum, hDen⟩ := eq_of_coprime (ha.coprime hZero) (hb.coprime hOther) hCross
      exact .inl (Rational.ext hWords (UInt64.toNat_inj.mp hNum) (UInt64.toNat_inj.mp hDen))
  · rintro (rfl | ⟨hInteger, hZero, hOther, -⟩)
    · exact ⟨rfl, rfl⟩
    · rw [hInteger, hNumA.mp hZero, hNumB.mp hOther, Nat.zero_mul, Nat.zero_mul]
      exact ⟨rfl, rfl⟩

/-- **Equality of words and of values** agree but on a zero fraction over
another denominator. -/
theorem opEq_iff_value_iff {a b : Rational} (ha : WellFormed a) (hb : WellFormed b) :
    (opEq a b ↔ a.value = b.value) ↔ ¬ ZeroOverAnother a b := by
  rw [opEq_iff, value_eq_iff ha hb]
  constructor
  · rintro hLaw hApart
    obtain rfl := hLaw.mpr (.inr hApart)
    exact hApart.2.2.2 rfl
  · intro hNot
    rw [or_iff_left hNot]

/-- Without overflow the order leaves the equal values. -/
theorem unordered_iff {a b : Rational} (ha : WellFormed a) (hb : WellFormed b)
    (hProducts : CompareProductsFit a b) :
    (opLt a b = .ok false ∧ opLt b a = .ok false) ↔ a.value = b.value := by
  rw [opLt_exact ha hb hProducts, opLt_exact hb ha hProducts.symm]
  simp only [Except.ok.injEq, decide_eq_false_iff_not, not_lt]
  exact ⟨fun hBoth => le_antisymm hBoth.2 hBoth.1, fun hEq => ⟨hEq.ge, hEq.le⟩⟩

/-! ## A value less itself -/

theorem shared_self {d : UInt64} (hD : d ≠ 0) : shared d d = d := by
  have hPos : 0 < d.toNat := UInt64.pos_iff_ne_zero.mpr hD
  rw [← UInt64.toNat_inj, toNat_shared d d hD, Nat.lcm_self]
  exact Nat.mod_eq_of_lt d.toNat_lt

/-- A zero fraction keeps the denominator it is given. -/
theorem init_zero_fraction (integer : UInt64) {denominator : UInt64} (hDen : denominator ≠ 0) :
    init integer 0 denominator = .ok ⟨integer, 0, denominator⟩ := by
  obtain ⟨r, hInit, hInteger, hNum, hLow⟩ := exists_init_eq integer 0 hDen
  rw [UInt64.toNat_zero] at hInteger hNum hLow
  rw [Nat.zero_div, Nat.add_zero, Nat.mod_eq_of_lt integer.toNat_lt] at hInteger
  rw [lowestTerms_zero, Nat.zero_mod] at hNum
  rw [hInit]
  exact congrArg Except.ok (Rational.ext (UInt64.toNat_inj.mp hInteger)
    (UInt64.toNat_inj.mp hNum) (UInt64.toNat_inj.mp hLow))

/-- Zero over the denominator of the value. -/
theorem opSub_self {a : Rational} (ha : WellFormed a) :
    opSub a a = .ok ⟨0, 0, a.denominator⟩ := by
  rw [opSub, addSub_false, if_neg (UInt64.lt_irrefl _), if_neg (UInt64.lt_irrefl _),
    UInt64.sub_self, UInt64.sub_self, shared_self ha.denominator_ne_zero,
    init_zero_fraction 0 ha.denominator_ne_zero]

theorem selfDifference_iff {a : Rational} (ha : WellFormed a) :
    SelfDifference a ↔ a.denominator = 1 := by
  rw [SelfDifference, opSub_self ha]
  simp [opEq, ofInteger]

/-! ## Runs of one spelling -/

/-- A zero fraction is over one. -/
def Canonical (r : Rational) : Prop := r.numerator = 0 → r.denominator = 1

/-- `init` spells in the one way what is no zero over a larger denominator. -/
theorem canonical_of_init {integer numerator denominator : UInt64} {r : Rational}
    (hInit : init integer numerator denominator = .ok r)
    (hRaw : numerator = 0 → denominator = 1) : Canonical r := by
  intro hZero
  by_cases hDen : denominator = 0
  · obtain ⟨what, hThrow⟩ := init_zero integer numerator
    rw [hDen, hThrow] at hInit
    cases hInit
  · obtain ⟨r', hInit', -, hNum, hLow⟩ := exists_init_eq integer numerator hDen
    obtain rfl : r' = r := Except.ok.inj (hInit'.symm.trans hInit)
    rw [← UInt64.toNat_inj, hLow, UInt64.toNat_one]
    rw [hZero, UInt64.toNat_zero] at hNum
    by_cases hNumZero : numerator = 0
    · rw [hNumZero, hRaw hNumZero]
      rfl
    · -- the reduced denominator divides the reduced numerator: it is one
      have hNumNe : numerator.toNat ≠ 0 := fun hEq => hNumZero (UInt64.toNat_inj.mp hEq)
      exact Nat.eq_one_of_dvd_coprimes (lowestTerms_coprime hNumNe)
        (Nat.dvd_of_mod_eq_zero hNum.symm) dvd_rfl

/-- The fractions of two values are one fraction, and not an integer. -/
def SameFraction (a b : Rational) : Prop :=
  a.numerator = b.numerator ∧ a.denominator = b.denominator ∧ a.denominator ≠ 1

/-- The runs on which no operation makes a zero fraction: no zero is built over
a denominator, no fraction is taken from itself, no zero is multiplied with a
fraction nor divided by anything but the reciprocal of an integer, and nothing
overflows. -/
inductive CanonicalRun : Rational → Prop
  | construct {integer numerator denominator : UInt64} {r : Rational}
      (hRaw : numerator = 0 → denominator = 1)
      (hInit : init integer numerator denominator = .ok r) : CanonicalRun r
  | assign (n : UInt64) : CanonicalRun (ofInteger n)
  | add {a b r : Rational} (ha : CanonicalRun a) (hb : CanonicalRun b)
      (hProducts : AddProductsFit a b) (hSums : AddSumsFit a b) (hOp : opAdd a b = .ok r) :
      CanonicalRun r
  | sub {a b r : Rational} (ha : CanonicalRun a) (hb : CanonicalRun b)
      (hProducts : AddProductsFit a b) (hApart : ¬ SameFraction a b) (hOp : opSub a b = .ok r) :
      CanonicalRun r
  | mul {a b r : Rational} (ha : CanonicalRun a) (hb : CanonicalRun b)
      (hProducts : MulProductsFit a b) (hSums : ImproperSumsFit a b)
      (hLeft : a.value = 0 → b.denominator = 1) (hRight : b.value = 0 → a.denominator = 1)
      (hOp : opMul a b = .ok r) : CanonicalRun r
  | div {a b r : Rational} (ha : CanonicalRun a) (hb : CanonicalRun b)
      (hProducts : DivProductsFit a b) (hSums : ImproperSumsFit a b)
      (hDividend : a.value = 0 → improperNumerator b = 1) (hOp : opDiv a b = .ok r) :
      CanonicalRun r

theorem CanonicalRun.reachable {r : Rational} (hr : CanonicalRun r) : Reachable r := by
  induction hr with
  | construct _ hInit => exact .construct hInit
  | assign n => exact .assign n
  | add _ _ _ _ hOp iha ihb => exact .add iha ihb hOp
  | sub _ _ _ _ hOp iha ihb => exact .sub iha ihb hOp
  | mul _ _ _ _ _ _ hOp iha ihb => exact .mul iha ihb hOp
  | div _ _ _ _ _ hOp iha ihb => exact .div iha ihb hOp

theorem scaledNumerator_eq_zero {r : Rational} {l : ℕ} (hr : WellFormed r) (hL : 0 < l)
    (hDvd : r.denominator.toNat ∣ l) (hZero : scaledNumerator r l = 0) : r.numerator = 0 := by
  have hQuotient : 0 < l / r.denominator.toNat :=
    Nat.div_pos (Nat.le_of_dvd hL hDvd) hr.denominator_pos
  exact UInt64.toNat_inj.mp ((Nat.mul_eq_zero.mp hZero).resolve_right hQuotient.ne')

theorem lowest_one (n : UInt64) : (lowest n 1).2 = 1 := by
  rw [← UInt64.toNat_inj, toNat_lowest_snd, UInt64.toNat_one]
  have hPos := lowestTerms_den_pos (n := n.toNat) Nat.one_pos
  have hLe := lowestTerms_snd_le (n := n.toNat) (d := 1)
  omega

theorem one_lowest (d : UInt64) : (lowest 1 d).1 = 1 := by
  rw [← UInt64.toNat_inj, toNat_lowest_fst, UInt64.toNat_one]
  have hLe := lowestTerms_fst_le (n := 1) (d := d.toNat)
  have hNe := lowestTerms_fst_eq_zero_iff (n := 1) (d := d.toNat)
  omega

/-- A canonical zero is over one. -/
theorem Canonical.denominator_of_value {r : Rational} (hr : WellFormed r) (hCanon : Canonical r)
    (hZero : r.value = 0) : r.denominator = 1 := by
  rw [value_eq_zero_iff hr, improperNumerator, Nat.add_eq_zero_iff] at hZero
  exact hCanon (UInt64.toNat_inj.mp hZero.2)

theorem canonical_opAdd {a b r : Rational} (ha : WellFormed a) (hb : WellFormed b)
    (hCanonA : Canonical a) (hCanonB : Canonical b) (hProducts : AddProductsFit a b)
    (hSums : AddSumsFit a b) (hOp : opAdd a b = .ok r) : Canonical r := by
  obtain ⟨-, hPos, hA, hB⟩ := exists_common ha hb hProducts
  rw [opAdd, addSub_true] at hOp
  refine canonical_of_init hOp fun hZero => ?_
  have hSum : scaledNumerator a (commonDenominator a b) +
      scaledNumerator b (commonDenominator a b) = 0 := by
    rw [← UInt64.toNat_inj, UInt64.toNat_add, hA, hB, UInt64.toNat_zero] at hZero
    rwa [Nat.mod_eq_of_lt hSums.1] at hZero
  obtain ⟨hScaledA, hScaledB⟩ := Nat.add_eq_zero_iff.mp hSum
  -- both fractions are zero, so both denominators are one
  rw [hCanonA (scaledNumerator_eq_zero ha hPos (Nat.dvd_lcm_left _ _) hScaledA),
    hCanonB (scaledNumerator_eq_zero hb hPos (Nat.dvd_lcm_right _ _) hScaledB)]
  decide

/-- Equal numerators over a common denominator come from one fraction. -/
theorem fraction_eq_of_scaled_eq {a b : Rational} (ha : WellFormed a) (hb : WellFormed b)
    (hCanonA : Canonical a) (hCanonB : Canonical b)
    (hScaled : scaledNumerator a (commonDenominator a b) =
      scaledNumerator b (commonDenominator a b)) :
    a.numerator = b.numerator ∧ a.denominator = b.denominator := by
  have hPos : 0 < commonDenominator a b := Nat.lcm_pos ha.denominator_pos hb.denominator_pos
  have hFractionA : WellFormed { a with integer := 0 } := ⟨ha.proper, ha.coprime⟩
  have hFractionB : WellFormed { b with integer := 0 } := ⟨hb.proper, hb.coprime⟩
  have hValue : value { a with integer := 0 } = value { b with integer := 0 } :=
    calc value { a with integer := 0 }
        = mixed 0 (scaledNumerator a (commonDenominator a b)) (commonDenominator a b) :=
          (mixed_of_dvd hPos (Nat.dvd_lcm_left _ _)).symm
      _ = mixed 0 (scaledNumerator b (commonDenominator a b)) (commonDenominator a b) := by
          rw [hScaled]
      _ = value { b with integer := 0 } := mixed_of_dvd hPos (Nat.dvd_lcm_right _ _)
  rcases (value_eq_iff hFractionA hFractionB).mp hValue with hWords | ⟨-, hA, hB, hDen⟩
  · exact (Rational.mk.inj hWords).2
  · exact absurd ((hCanonA hA).trans (hCanonB hB).symm) hDen

theorem canonical_opSub {a b r : Rational} (ha : WellFormed a) (hb : WellFormed b)
    (hCanonA : Canonical a) (hCanonB : Canonical b) (hProducts : AddProductsFit a b)
    (hApart : ¬ SameFraction a b) (hOp : opSub a b = .ok r) : Canonical r := by
  obtain ⟨hL, hPos, hA, hB⟩ := exists_common ha hb hProducts
  have hProperB := scaledNumerator_lt hb hPos (Nat.dvd_lcm_right _ _)
  have hSame := fraction_eq_of_scaled_eq ha hb hCanonA hCanonB
  have hOne : a.denominator = b.denominator → a.denominator = 1 →
      shared a.denominator b.denominator = 1 := by
    intro hEq hDen
    rw [← hEq, hDen]
    decide
  rw [opSub, addSub_false] at hOp
  generalize a.numerator * (shared a.denominator b.denominator / a.denominator) = x at hA hOp
  generalize b.numerator * (shared a.denominator b.denominator / b.denominator) = y at hB hOp
  generalize shared a.denominator b.denominator = l at hL hOne hOp
  split_ifs at hOp with hInteger hBorrow hWhole
  · -- the borrow leaves a fraction above zero
    refine canonical_of_init hOp fun hZero => ?_
    rw [UInt64.lt_iff_toNat_lt] at hBorrow
    rw [← UInt64.toNat_inj, UInt64.toNat_sub, UInt64.toNat_add, UInt64.toNat_zero] at hZero
    have hBound := l.toNat_lt
    omega
  · refine canonical_of_init hOp fun hZero => ?_
    rw [← UInt64.toNat_inj, UInt64.toNat_sub, UInt64.toNat_zero] at hZero
    have hBoundX := x.toNat_lt
    have hBoundY := y.toNat_lt
    obtain ⟨hNum, hDen⟩ := hSame (by omega)
    by_contra hNe
    exact hApart ⟨hNum, hDen, fun hDenOne => hNe (hOne hDen hDenOne)⟩

theorem canonical_opMul {a b r : Rational} (ha : WellFormed a) (hb : WellFormed b)
    (hCanonA : Canonical a) (hCanonB : Canonical b) (hProducts : MulProductsFit a b)
    (hSums : ImproperSumsFit a b) (hLeft : a.value = 0 → b.denominator = 1)
    (hRight : b.value = 0 → a.denominator = 1) (hOp : opMul a b = .ok r) : Canonical r := by
  obtain ⟨hImproper, hNum, -⟩ := hProducts
  have hA := toNat_wholeNumerator hImproper.1 hSums.1
  have hB := toNat_wholeNumerator hImproper.2 hSums.2
  rw [← hA, ← hB, ← toNat_lowest_fst, ← toNat_lowest_fst] at hNum
  rw [opMul_eq_init ha hb] at hOp
  refine canonical_of_init hOp fun hZero => ?_
  rw [← UInt64.toNat_inj, UInt64.toNat_mul, Nat.mod_eq_of_lt hNum, UInt64.toNat_zero,
    Nat.mul_eq_zero, toNat_lowest_fst, toNat_lowest_fst, lowestTerms_fst_eq_zero_iff,
    lowestTerms_fst_eq_zero_iff, hA, hB, ← value_eq_zero_iff ha, ← value_eq_zero_iff hb] at hZero
  have hOnes : a.denominator = 1 ∧ b.denominator = 1 := by
    rcases hZero with hZeroA | hZeroB
    · exact ⟨hCanonA.denominator_of_value ha hZeroA, hLeft hZeroA⟩
    · exact ⟨hRight hZeroB, hCanonB.denominator_of_value hb hZeroB⟩
  rw [hOnes.1, hOnes.2, lowest_one, lowest_one]
  decide

theorem canonical_opDiv {a b r : Rational} (ha : WellFormed a) (hb : WellFormed b)
    (hCanonA : Canonical a) (hProducts : DivProductsFit a b) (hSums : ImproperSumsFit a b)
    (hDividend : a.value = 0 → improperNumerator b = 1) (hOp : opDiv a b = .ok r) :
    Canonical r := by
  obtain ⟨hImproper, hNum, -⟩ := hProducts
  have hA := toNat_wholeNumerator hImproper.1 hSums.1
  have hB := toNat_wholeNumerator hImproper.2 hSums.2
  have hDivisor : b.wholeNumerator ≠ 0 := by
    intro hZero
    obtain ⟨what, hThrow⟩ := opDiv_throws (a := a) hb hZero
    exact absurd (hThrow.symm.trans hOp) (by simp)
  rw [← hA, ← hB, ← toNat_lowest_fst, ← toNat_lowest_snd] at hNum
  rw [opDiv_eq_init hb hDivisor] at hOp
  refine canonical_of_init hOp fun hZero => ?_
  have hSecond := (lowest_fraction (n := a.denominator) hb.denominator_ne_zero).1
  rw [← UInt64.toNat_inj, UInt64.toNat_mul, Nat.mod_eq_of_lt hNum, UInt64.toNat_zero,
    Nat.mul_eq_zero, or_iff_left hSecond.ne', toNat_lowest_fst, lowestTerms_fst_eq_zero_iff,
    hA, ← value_eq_zero_iff ha] at hZero
  have hOne : b.wholeNumerator = 1 := UInt64.toNat_inj.mp (hB.trans (hDividend hZero))
  rw [hCanonA.denominator_of_value ha hZero, hOne, one_lowest, lowest_one]
  decide

/-- **Invariant of canonical runs.** -/
theorem CanonicalRun.canonical {r : Rational} (hr : CanonicalRun r) : Canonical r := by
  induction hr with
  | construct hRaw hInit => exact canonical_of_init hInit hRaw
  | assign n => exact fun _ => rfl
  | add ha hb hProducts hSums hOp iha ihb =>
    exact canonical_opAdd ha.reachable.wellFormed hb.reachable.wellFormed iha ihb hProducts hSums
      hOp
  | sub ha hb hProducts hApart hOp iha ihb =>
    exact canonical_opSub ha.reachable.wellFormed hb.reachable.wellFormed iha ihb hProducts hApart
      hOp
  | mul ha hb hProducts hSums hLeft hRight hOp iha ihb =>
    exact canonical_opMul ha.reachable.wellFormed hb.reachable.wellFormed iha ihb hProducts hSums
      hLeft hRight hOp
  | div ha hb hProducts hSums hDividend hOp iha _ =>
    exact canonical_opDiv ha.reachable.wellFormed hb.reachable.wellFormed iha hProducts hSums
      hDividend hOp

/-! ## When equality is equality of values -/

theorem equalityLaw_iff {a b : Rational} (ha : WellFormed a) (hb : WellFormed b) :
    EqualityLaw a b ↔ a.denominator = 1 ∧ ¬ ZeroOverAnother a b := by
  constructor
  · intro hLaw
    exact ⟨(selfDifference_iff ha).mp hLaw.selfDifference,
      (opEq_iff_value_iff ha hb).mp hLaw.sameValue⟩
  · rintro ⟨hDen, hNot⟩
    have hSame := (opEq_iff_value_iff ha hb).mpr hNot
    -- over one, the common denominator is the other's and fits
    have hProducts : CompareProductsFit a b := by
      intro _
      rw [commonDenominator, hDen, UInt64.toNat_one, Nat.lcm_one_left]
      exact b.denominator.toNat_lt
    exact ⟨hSame, hSame.trans (unordered_iff ha hb hProducts).symm,
      (selfDifference_iff ha).mpr hDen⟩

theorem ZeroOverAnother.not_of_canonical {a b : Rational} (hCanonA : Canonical a)
    (hCanonB : Canonical b) : ¬ ZeroOverAnother a b := by
  rintro ⟨-, hA, hB, hDen⟩
  exact hDen ((hCanonA hA).trans (hCanonB hB).symm)

/-- **Equality of words against equality of values.** Of any two reachable
values: the whole law holds for an integer over one against anything but the
same integer over another denominator. On canonical runs equality is equality
of values, and what the order leaves where it does not overflow. -/
theorem equality_of_values (a b : Rational) :
    (Reachable a → Reachable b →
      (EqualityLaw a b ↔ a.denominator = 1 ∧ ¬ ZeroOverAnother a b) ∧
      ((opEq a b ↔ a.value = b.value) ↔ ¬ ZeroOverAnother a b) ∧
      (SelfDifference a ↔ a.denominator = 1)) ∧
    (CanonicalRun a → CanonicalRun b →
      (opEq a b ↔ a.value = b.value) ∧
      (CompareProductsFit a b → (opEq a b ↔ opLt a b = .ok false ∧ opLt b a = .ok false))) := by
  refine ⟨fun ha hb => ?_, fun ha hb => ?_⟩
  · exact ⟨equalityLaw_iff ha.wellFormed hb.wellFormed,
      opEq_iff_value_iff ha.wellFormed hb.wellFormed, selfDifference_iff ha.wellFormed⟩
  · have haW := ha.reachable.wellFormed
    have hbW := hb.reachable.wellFormed
    have hSame := (opEq_iff_value_iff haW hbW).mpr
      (ZeroOverAnother.not_of_canonical ha.canonical hb.canonical)
    exact ⟨hSame, fun hProducts => hSame.trans (unordered_iff haW hbW hProducts).symm⟩

/-- One against itself, and one half against one. -/
theorem equality_of_values_half :
    EqualityLaw (ofInteger 1) (ofInteger 1) ∧
      (opEq ⟨0, 1, 2⟩ (ofInteger 1) ↔ value ⟨0, 1, 2⟩ = value (ofInteger 1)) := by
  have hHalf : CanonicalRun ⟨0, 1, 2⟩ :=
    .construct (by decide) (show init 0 1 2 = .ok ⟨0, 1, 2⟩ by decide)
  refine ⟨?_, ((equality_of_values _ _).2 hHalf (.assign 1)).1⟩
  exact ((equality_of_values _ _).1 (.assign 1) (.assign 1)).1.mpr ⟨rfl, by decide⟩

/-- One half less one half is not `Rational(0)`, though it is zero. -/
theorem not_equalityLaw_half :
    Reachable ⟨0, 1, 2⟩ ∧ opSub ⟨0, 1, 2⟩ ⟨0, 1, 2⟩ = .ok ⟨0, 0, 2⟩ ∧
      opEq ⟨0, 0, 2⟩ (ofInteger 0) = false ∧ value ⟨0, 0, 2⟩ = value (ofInteger 0) ∧
      ¬ EqualityLaw ⟨0, 1, 2⟩ ⟨0, 1, 2⟩ := by
  have hDifference : opSub ⟨0, 1, 2⟩ ⟨0, 1, 2⟩ = .ok ⟨0, 0, 2⟩ := by decide
  refine ⟨.construct (show init 0 1 2 = .ok ⟨0, 1, 2⟩ by decide), hDifference, by decide,
    by decide +kernel, fun hLaw => ?_⟩
  obtain ⟨r, hOk, hEq⟩ := hLaw.selfDifference
  obtain rfl := Except.ok.inj (hDifference.symm.trans hOk)
  exact absurd hEq (by decide)

end Rational

end RivermaxDevKit
