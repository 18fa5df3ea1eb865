import RivermaxDevKit.Lib.MixedNumber
import RivermaxDevKit.Services.Definitions

/-!
# Rational numbers

`Rational` of `rational.h` and `rational.cpp`: a nonnegative number as an
integer and a fraction, three `uint64_t` that wrap.

A loop runs on fuel and answers `diverges` when it is used up; the bound
exceeds what any loop here can need, and `reduceTwo_zero` shows that more would
not help the one that does not end. The compound assignments store the result
of their operator and have no definition of their own.

Every value is left behind by `init`, so what `init` establishes holds of every
reachable one, overflow or not: the denominator is positive, the fraction is
proper, and it is in lowest terms unless it is zero.

* `gcd_eq`, `reduce_eq`, `exists_init_eq` — the loops end; what the helpers compute.
* `Reachable.wellFormed` — the invariant of every reachable value.
-/

namespace RivermaxDevKit

open MixedNumber

@[ext]
structure Rational where
  integer : UInt64
  numerator : UInt64
  denominator : UInt64
  deriving DecidableEq, Repr

/-- How a call ends that returns nothing. -/
inductive RationalFault
  | rationalE (what : String)
  | diverges
  deriving DecidableEq, Repr

namespace Rational

/-- `operator<<`, which `std::to_string` uses. -/
def toText (num : Rational) : String :=
  "\x7b" ++ (if num.integer ≠ 0 ∨ num.numerator = 0 then toString num.integer else "") ++
    (if num.integer ≠ 0 ∧ num.numerator ≠ 0 then " " else "") ++
    (if num.numerator ≠ 0 then toString num.numerator ++ "/" ++ toString num.denominator
      else "") ++ "\x7d"

/-! ## Helpers -/

/-- More rounds than a loop over 64-bit words can take. -/
def LOOP_BOUND : Nat := 2 ^ 64

/-- The loop of `gcd`. -/
def gcdLoop : Nat → UInt64 → UInt64 → Except RationalFault UInt64
  | 0, _, _ => .error .diverges
  | fuel + 1, a, b => if b = 0 then .ok a else gcdLoop fuel b (a % b)

def gcd (a b : UInt64) : Except RationalFault UInt64 :=
  if a < b then gcdLoop LOOP_BOUND b a else gcdLoop LOOP_BOUND a b

/-- Lowest common denominator. -/
def lcd (d1 d2 : UInt64) : Except RationalFault UInt64 := do
  let r ← gcd d1 d2
  return d1 / r * d2

/-- `reduce_two`, counting in `i` the factors of two it has removed. -/
def reduceTwo : Nat → UInt64 → UInt64 → UInt64 → Except RationalFault (UInt64 × UInt64 × UInt64)
  | 0, _, _, _ => .error .diverges
  | fuel + 1, i, i1, i2 =>
    if (i1 ||| i2) &&& 1 = 0 then reduceTwo fuel (i + 1) (i1 >>> 1) (i2 >>> 1)
    else .ok (i, i1, i2)

def reduce (i1 i2 : UInt64) : Except RationalFault (UInt64 × UInt64) :=
  -- a zero is left as it is, over whatever it stands
  if i1 = 0 then .ok (i1, i2)
  else if i2 = 0 then
    .error (.rationalE ("Rational: division by zero: " ++ toString i1 ++ " / 0"))
  else do
    let (_, i1, i2) ← reduceTwo LOOP_BOUND 0 i1 i2
    let r ← gcd i1 i2
    return (i1 / r, i2 / r)

def init (integer numerator denominator : UInt64) : Except RationalFault Rational :=
  if denominator = 0 then
    .error (.rationalE ("Rational: denominator cannot be zero: " ++ toString integer ++ " " ++
      toString numerator ++ " / 0"))
  else do
    let (numerator, denominator) ← reduce numerator denominator
    -- an improper fraction is carried over into the integer
    let quotient := numerator / denominator
    return {
      integer := integer + quotient
      numerator := numerator - quotient * denominator
      denominator }

/-! ## Operators -/

def negative (num1 num2 : Rational) : RationalFault :=
  .rationalE ("Rational: negative rationals are not supported: attempted operation " ++
    num1.toText ++ " - " ++ num2.toText)

def addSub (num1 num2 : Rational) (isAdd : Bool) : Except RationalFault Rational := do
  let denominator ← lcd num1.denominator num2.denominator
  let numerator1 := num1.numerator * (denominator / num1.denominator)
  let numerator2 := num2.numerator * (denominator / num2.denominator)
  if isAdd then init (num1.integer + num2.integer) (numerator1 + numerator2) denominator
  else if num1.integer < num2.integer then .error (negative num1 num2)
  else
    let integer := num1.integer - num2.integer
    if numerator1 < numerator2 then
      if integer < 1 then .error (negative num1 num2)
      -- fractional part of num2 is less than 1 so adding 1 to the minuend
      -- makes the difference positive
      else init (integer - 1) (numerator1 + denominator - numerator2) denominator
    else init integer (numerator1 - numerator2) denominator

def mulDiv (num1 num2 : Rational) (isMultiply : Bool) : Except RationalFault Rational := do
  let numerator1 := num1.integer * num1.denominator + num1.numerator
  let denominator1 := num1.denominator
  let numerator2 := num2.integer * num2.denominator + num2.numerator
  let denominator2 := num2.denominator
  if isMultiply then
    let (numerator1, denominator2) ← reduce numerator1 denominator2
    let (numerator2, denominator1) ← reduce numerator2 denominator1
    init 0 (numerator1 * numerator2) (denominator1 * denominator2)
  else
    let (numerator1, numerator2) ← reduce numerator1 numerator2
    let (denominator1, denominator2) ← reduce denominator1 denominator2
    init 0 (numerator1 * denominator2) (denominator1 * numerator2)

/-- `operator+`. -/
def opAdd (a b : Rational) : Except RationalFault Rational := addSub a b true

/-- `operator-`. -/
def opSub (a b : Rational) : Except RationalFault Rational := addSub a b false

/-- `operator*`. -/
def opMul (a b : Rational) : Except RationalFault Rational := mulDiv a b true

/-- `operator/`. -/
def opDiv (a b : Rational) : Except RationalFault Rational := mulDiv a b false

/-- What `operator=` of an integer stores. -/
def ofInteger (n : UInt64) : Rational := { integer := n, numerator := 0, denominator := 1 }

/-! ## Comparisons -/

/-- `operator==`. -/
def opEq (a b : Rational) : Bool :=
  a.integer = b.integer ∧ a.numerator = b.numerator ∧ a.denominator = b.denominator

/-- `operator<`. -/
def opLt (a b : Rational) : Except RationalFault Bool :=
  if a.integer = b.integer then do
    let r ← lcd a.denominator b.denominator
    return decide (r / a.denominator * a.numerator < r / b.denominator * b.numerator)
  else .ok (decide (a.integer < b.integer))

/-- `operator>`. -/
def opGt (a b : Rational) : Except RationalFault Bool := opLt b a

/-- `operator<=`. -/
def opLe (a b : Rational) : Except RationalFault Bool := do return !(← opLt b a)

/-- `operator>=`. -/
def opGe (a b : Rational) : Except RationalFault Bool := opLe b a

/-- `operator<` with an integer. -/
def opLtInteger (a : Rational) (n : UInt64) : Bool := a.integer < n

/-- `operator<=` with an integer. -/
def opLeInteger (a : Rational) (n : UInt64) : Bool :=
  if n < a.integer then false else a.integer < n ∨ a.numerator = 0

/-- `operator>` with an integer. -/
def opGtInteger (a : Rational) (n : UInt64) : Bool :=
  if a.integer < n then false else a.integer > n ∨ a.numerator ≠ 0

/-- `operator>=` with an integer. -/
def opGeInteger (a : Rational) (n : UInt64) : Bool := a.integer ≥ n

/-- The comparisons of an integer with a value, the operands turned round. -/
def integerLt (n : UInt64) (b : Rational) : Bool := opGtInteger b n

def integerLe (n : UInt64) (b : Rational) : Bool := opGeInteger b n

def integerGt (n : UInt64) (b : Rational) : Bool := opLtInteger b n

def integerGe (n : UInt64) (b : Rational) : Bool := opLeInteger b n

example : opAdd ⟨0, 1, 6⟩ ⟨1, 5, 6⟩ = .ok ⟨2, 0, 1⟩ := by decide
example : opAdd ⟨0, 1, 6⟩ ⟨1, 1, 3⟩ = .ok ⟨1, 1, 2⟩ := by decide

/-! ## Loops -/

/-- More fuel than the smaller operand is enough: it shrinks every round. -/
theorem gcdLoop_eq {fuel : Nat} {a b : UInt64} (hFuel : b.toNat < fuel) :
    gcdLoop fuel a b = .ok (UInt64.ofNat (a.toNat.gcd b.toNat)) := by
  induction fuel generalizing a b with
  | zero => omega
  | succ fuel ih =>
    unfold gcdLoop
    split_ifs with hZero
    · rw [hZero, UInt64.toNat_zero, Nat.gcd_zero_right, UInt64.ofNat_toNat]
    · have hPos : 0 < b.toNat := UInt64.pos_iff_ne_zero.mpr hZero
      -- the remainder is less than the divisor: one round less of fuel
      have hLt := Nat.mod_lt a.toNat hPos
      rw [ih (by rw [UInt64.toNat_mod]; omega), UInt64.toNat_mod, Nat.gcd_comm a.toNat b.toNat,
        Nat.gcd_rec b.toNat a.toNat, Nat.gcd_comm b.toNat]

theorem gcd_eq (a b : UInt64) : gcd a b = .ok (UInt64.ofNat (a.toNat.gcd b.toNat)) := by
  have hA : a.toNat < LOOP_BOUND := a.toNat_lt
  have hB : b.toNat < LOOP_BOUND := b.toNat_lt
  unfold gcd
  -- the smaller operand goes second, and the result is the same
  split_ifs
  · rw [gcdLoop_eq hA, Nat.gcd_comm]
  · rw [gcdLoop_eq hB]

theorem toNat_ofNat_gcd {a b : UInt64} (hB : b ≠ 0) :
    (UInt64.ofNat (a.toNat.gcd b.toNat)).toNat = a.toNat.gcd b.toNat := by
  have hPos : 0 < b.toNat := UInt64.pos_iff_ne_zero.mpr hB
  exact UInt64.toNat_ofNat_of_lt' ((Nat.gcd_le_right _ hPos).trans_lt b.toNat_lt)

theorem or_and_one_eq_zero_iff (a b : UInt64) :
    (a ||| b) &&& 1 = 0 ↔ a.toNat % 2 = 0 ∧ b.toNat % 2 = 0 := by
  have hOdd := Nat.or_mod_two_eq_one (a := a.toNat) (b := b.toNat)
  rw [← UInt64.toNat_inj, UInt64.toNat_and, UInt64.toNat_or, UInt64.toNat_one,
    Nat.and_one_is_mod, UInt64.toNat_zero]
  omega

theorem toNat_shiftRight_one (a : UInt64) : (a >>> 1).toNat = a.toNat / 2 := by
  simp [Nat.shiftRight_eq_div_pow]

/-- On two zeros the loop does not end: it is as far after any number of
rounds. -/
theorem reduceTwo_zero (fuel : Nat) (i : UInt64) : reduceTwo fuel i 0 0 = .error .diverges := by
  induction fuel generalizing i with
  | zero => rfl
  | succ fuel ih =>
    have hEven : ((0 : UInt64) ||| 0) &&& 1 = 0 := by decide
    rw [reduceTwo, if_pos hEven]
    exact ih (i + 1)

/-- Anything else loses its common factors of two, one a round. -/
theorem exists_reduceTwo_eq {fuel : Nat} (i : UInt64) {a b : UInt64} (hA : a ≠ 0)
    (hFuel : a.toNat < 2 ^ fuel) :
    ∃ k x y, reduceTwo fuel i a b = .ok (i + UInt64.ofNat k, x, y) ∧
      a.toNat = 2 ^ k * x.toNat ∧ b.toNat = 2 ^ k * y.toNat := by
  have hPos : 0 < a.toNat := UInt64.pos_iff_ne_zero.mpr hA
  induction fuel generalizing i a b with
  | zero => omega
  | succ fuel ih =>
    unfold reduceTwo
    split_ifs with hEven
    · obtain ⟨hEvenA, hEvenB⟩ := (or_and_one_eq_zero_iff a b).mp hEven
      -- an even number that is not zero has a half that is not zero
      have hHalf : 0 < (a >>> 1).toNat := by
        rw [toNat_shiftRight_one]
        omega
      obtain ⟨k, x, y, hResult, hX, hY⟩ := ih (i + 1) (b := b >>> 1)
        (UInt64.pos_iff_ne_zero.mp hHalf) (by rw [toNat_shiftRight_one]; omega) hHalf
      rw [toNat_shiftRight_one] at hX hY
      refine ⟨k + 1, x, y, ?_, ?_, ?_⟩
      · rw [hResult, UInt64.ofNat_add, UInt64.add_assoc, UInt64.add_comm 1]
        rfl
      · rw [pow_succ, mul_right_comm, ← hX]
        omega
      · rw [pow_succ, mul_right_comm, ← hY]
        omega
    · exact ⟨0, a, b, by simp, by simp, by simp⟩

/-! ## Lowest terms -/

/-- `lowestTerms` of two words, as words. -/
def lowest (i1 i2 : UInt64) : UInt64 × UInt64 :=
  (UInt64.ofNat (lowestTerms i1.toNat i2.toNat).1, UInt64.ofNat (lowestTerms i1.toNat i2.toNat).2)

theorem toNat_lowest_fst (i1 i2 : UInt64) :
    (lowest i1 i2).1.toNat = (lowestTerms i1.toNat i2.toNat).1 :=
  UInt64.toNat_ofNat_of_lt' (lowestTerms_fst_le.trans_lt i1.toNat_lt)

theorem toNat_lowest_snd (i1 i2 : UInt64) :
    (lowest i1 i2).2.toNat = (lowestTerms i1.toNat i2.toNat).2 :=
  UInt64.toNat_ofNat_of_lt' (lowestTerms_snd_le.trans_lt i2.toNat_lt)

/-- **`reduce`.** -/
theorem reduce_eq {i1 i2 : UInt64} (hDefined : i1 = 0 ∨ i2 ≠ 0) :
    reduce i1 i2 = .ok (lowest i1 i2) := by
  by_cases hZero : i1 = 0
  · rw [reduce, if_pos hZero, hZero, lowest, UInt64.toNat_zero, lowestTerms_zero,
      UInt64.ofNat_toNat]
    rfl
  · have hDen : i2 ≠ 0 := hDefined.resolve_left hZero
    have hFuel : i1.toNat < 2 ^ LOOP_BOUND :=
      i1.toNat_lt.trans (Nat.pow_lt_pow_right (by decide) (by decide))
    obtain ⟨k, x, y, hTwos, hX, hY⟩ := exists_reduceTwo_eq 0 (b := i2) hZero hFuel
    have hPow : 0 < 2 ^ k := Nat.two_pow_pos k
    have hYNe : y ≠ 0 := by
      rintro rfl
      rw [UInt64.toNat_zero, Nat.mul_zero] at hY
      exact hDen (UInt64.toNat_inj.mp hY)
    have hRead : reduce i1 i2 = .ok (x / UInt64.ofNat (x.toNat.gcd y.toNat),
        y / UInt64.ofNat (x.toNat.gcd y.toNat)) := by
      rw [reduce, if_neg hZero, if_neg hDen, hTwos]
      change (do let r ← gcd x y; return (x / r, y / r)) = _
      rw [gcd_eq]
      rfl
    -- the powers of two come out first, the rest with `gcd`
    have hGcd : i1.toNat.gcd i2.toNat = 2 ^ k * x.toNat.gcd y.toNat := by
      rw [hX, hY, Nat.gcd_mul_left]
    have hNumNe : i1.toNat ≠ 0 := fun hNum => hZero (UInt64.toNat_inj.mp hNum)
    rw [hRead]
    refine congrArg Except.ok (Prod.ext (UInt64.toNat_inj.mp ?_) (UInt64.toNat_inj.mp ?_))
    · rw [toNat_lowest_fst, lowestTerms, if_neg hNumNe, hGcd, UInt64.toNat_div,
        toNat_ofNat_gcd hYNe, hX, Nat.mul_div_mul_left _ _ hPow]
    · rw [toNat_lowest_snd, lowestTerms, if_neg hNumNe, hGcd, UInt64.toNat_div,
        toNat_ofNat_gcd hYNe, hY, Nat.mul_div_mul_left _ _ hPow]

theorem reduce_by_zero {i1 : UInt64} (hNum : i1 ≠ 0) :
    ∃ what, reduce i1 0 = .error (.rationalE what) := by
  rw [reduce, if_neg hNum, if_pos rfl]
  exact ⟨_, rfl⟩

/-! ## Values -/

/-- The number a value stands for. -/
def value (r : Rational) : ℚ := mixed r.integer.toNat r.numerator.toNat r.denominator.toNat

/-- What `init` leaves behind: a proper fraction, in lowest terms unless it is
zero. -/
structure WellFormed (r : Rational) : Prop where
  proper : r.numerator.toNat < r.denominator.toNat
  coprime : r.numerator ≠ 0 → r.numerator.toNat.Coprime r.denominator.toNat

theorem init_zero (integer numerator : UInt64) :
    ∃ what, init integer numerator 0 = .error (.rationalE what) := ⟨_, rfl⟩

/-- **`init`.** The parts of the value it builds; the integer wraps. -/
theorem exists_init_eq (integer numerator : UInt64) {denominator : UInt64}
    (hDen : denominator ≠ 0) :
    ∃ r, init integer numerator denominator = .ok r ∧
      r.integer.toNat = (integer.toNat + numerator.toNat / denominator.toNat) % 2 ^ 64 ∧
      r.numerator.toNat = (lowestTerms numerator.toNat denominator.toNat).1 %
        (lowestTerms numerator.toNat denominator.toNat).2 ∧
      r.denominator.toNat = (lowestTerms numerator.toNat denominator.toNat).2 := by
  have hDenPos : 0 < denominator.toNat := UInt64.pos_iff_ne_zero.mpr hDen
  have hNum := toNat_lowest_fst numerator denominator
  have hLow := toNat_lowest_snd numerator denominator
  have hReduce : reduce numerator denominator = .ok (lowest numerator denominator) :=
    reduce_eq (.inr hDen)
  generalize lowest numerator denominator = low at hNum hLow hReduce
  have hQuotient := Nat.div_mul_le_self low.1.toNat low.2.toNat
  have hProduct : (low.1 / low.2 * low.2).toNat = low.1.toNat / low.2.toNat * low.2.toNat := by
    rw [UInt64.toNat_mul, UInt64.toNat_div]
    exact Nat.mod_eq_of_lt (hQuotient.trans_lt low.1.toNat_lt)
  -- the subtraction of the whole part does not wrap
  have hLe : low.1 / low.2 * low.2 ≤ low.1 := by
    rw [UInt64.le_iff_toNat_le, hProduct]
    exact hQuotient
  refine ⟨⟨integer + low.1 / low.2, low.1 - low.1 / low.2 * low.2, low.2⟩, ?_, ?_, ?_, hLow⟩
  · rw [init, if_neg hDen, hReduce]
    rfl
  · rw [UInt64.toNat_add, UInt64.toNat_div, hNum, hLow, lowestTerms_div]
  · rw [UInt64.toNat_sub_of_le _ _ hLe, hProduct, ← hNum, ← hLow, Nat.mod_eq_sub_div_mul]

theorem wellFormed_of_init {integer numerator denominator : UInt64} {r : Rational}
    (hInit : init integer numerator denominator = .ok r) : WellFormed r := by
  by_cases hDen : denominator = 0
  · obtain ⟨what, hThrow⟩ := init_zero integer numerator
    rw [hDen, hThrow] at hInit
    cases hInit
  · have hDenPos : 0 < denominator.toNat := UInt64.pos_iff_ne_zero.mpr hDen
    obtain ⟨r', hInit', -, hNum, hLow⟩ := exists_init_eq integer numerator hDen
    obtain rfl : r' = r := Except.ok.inj (hInit'.symm.trans hInit)
    refine ⟨?_, fun hNe => ?_⟩
    · rw [hNum, hLow]
      exact Nat.mod_lt _ (lowestTerms_den_pos hDenPos)
    · have hNumNe : numerator.toNat ≠ 0 := by
        intro hZero
        rw [hZero, lowestTerms_zero, Nat.zero_mod] at hNum
        exact hNe (UInt64.toNat_inj.mp hNum)
      -- taking the remainder keeps the fraction in lowest terms
      rw [hNum, hLow, Nat.Coprime, ← Nat.gcd_rec, Nat.gcd_comm]
      exact lowestTerms_coprime hNumNe

/-- **The value `init` builds** is the one it is given, if the integer part
fits. -/
theorem exists_init_value (integer numerator : UInt64) {denominator : UInt64}
    (hDen : denominator ≠ 0)
    (hFits : integer.toNat + numerator.toNat / denominator.toNat < 2 ^ 64) :
    ∃ r, init integer numerator denominator = .ok r ∧
      r.value = mixed integer.toNat numerator.toNat denominator.toNat := by
  have hDenPos : 0 < denominator.toNat := UInt64.pos_iff_ne_zero.mpr hDen
  obtain ⟨r, hInit, hInteger, hNum, hLow⟩ := exists_init_eq integer numerator hDen
  refine ⟨r, hInit, ?_⟩
  rw [value, hInteger, Nat.mod_eq_of_lt hFits, hNum, hLow, ← lowestTerms_div,
    mixed_carry (lowestTerms_den_pos hDenPos), mixed, lowestTerms_eq hDenPos, mixed]

/-! ## Reachable values -/

/-- The values constructors, operators and assignments of an integer build.
The compound assignments build what their operators do. -/
inductive Reachable : Rational → Prop
  /-- `Rational(integer, numerator, denominator)`, to which the other
  constructors delegate. -/
  | construct {integer numerator denominator : UInt64} {r : Rational}
      (hInit : init integer numerator denominator = .ok r) : Reachable r
  | assign (n : UInt64) : Reachable (ofInteger n)
  | add {a b r : Rational} (ha : Reachable a) (hb : Reachable b) (hOp : opAdd a b = .ok r) :
      Reachable r
  | sub {a b r : Rational} (ha : Reachable a) (hb : Reachable b) (hOp : opSub a b = .ok r) :
      Reachable r
  | mul {a b r : Rational} (ha : Reachable a) (hb : Reachable b) (hOp : opMul a b = .ok r) :
      Reachable r
  | div {a b r : Rational} (ha : Reachable a) (hb : Reachable b) (hOp : opDiv a b = .ok r) :
      Reachable r

/-! ## What an operator hands to `init` -/

/-- What `lcd` returns. -/
def shared (d1 d2 : UInt64) : UInt64 := d1 / UInt64.ofNat (d1.toNat.gcd d2.toNat) * d2

theorem lcd_eq (d1 d2 : UInt64) : lcd d1 d2 = .ok (shared d1 d2) := by
  rw [lcd, gcd_eq]
  rfl

theorem addSub_true (a b : Rational) :
    addSub a b true =
      init (a.integer + b.integer)
        (a.numerator * (shared a.denominator b.denominator / a.denominator) +
          b.numerator * (shared a.denominator b.denominator / b.denominator))
        (shared a.denominator b.denominator) := by
  rw [addSub, lcd_eq]
  rfl

theorem addSub_false (a b : Rational) :
    addSub a b false =
      if a.integer < b.integer then .error (negative a b)
      else if a.numerator * (shared a.denominator b.denominator / a.denominator) <
          b.numerator * (shared a.denominator b.denominator / b.denominator) then
        if a.integer - b.integer < 1 then .error (negative a b)
        else init (a.integer - b.integer - 1)
          (a.numerator * (shared a.denominator b.denominator / a.denominator) +
            shared a.denominator b.denominator -
            b.numerator * (shared a.denominator b.denominator / b.denominator))
          (shared a.denominator b.denominator)
      else init (a.integer - b.integer)
        (a.numerator * (shared a.denominator b.denominator / a.denominator) -
          b.numerator * (shared a.denominator b.denominator / b.denominator))
        (shared a.denominator b.denominator) := by
  rw [addSub, lcd_eq]
  rfl

/-- The improper numerator `mul_div` starts from. -/
def wholeNumerator (r : Rational) : UInt64 := r.integer * r.denominator + r.numerator

theorem mulDiv_true (a b : Rational) :
    mulDiv a b true = (do
      let (numerator1, denominator2) ← reduce a.wholeNumerator b.denominator
      let (numerator2, denominator1) ← reduce b.wholeNumerator a.denominator
      init 0 (numerator1 * numerator2) (denominator1 * denominator2)) := rfl

theorem mulDiv_false (a b : Rational) :
    mulDiv a b false = (do
      let (numerator1, numerator2) ← reduce a.wholeNumerator b.wholeNumerator
      let (denominator1, denominator2) ← reduce a.denominator b.denominator
      init 0 (numerator1 * denominator2) (denominator1 * numerator2)) := rfl

theorem wellFormed_of_addSub {a b r : Rational} {isAdd : Bool}
    (hOp : addSub a b isAdd = .ok r) : WellFormed r := by
  cases isAdd with
  | true =>
    rw [addSub_true] at hOp
    exact wellFormed_of_init hOp
  | false =>
    rw [addSub_false] at hOp
    split_ifs at hOp
    · exact wellFormed_of_init hOp
    · exact wellFormed_of_init hOp

theorem wellFormed_of_mulDiv {a b r : Rational} {isMultiply : Bool}
    (hOp : mulDiv a b isMultiply = .ok r) : WellFormed r := by
  cases isMultiply with
  | true =>
    rw [mulDiv_true] at hOp
    obtain ⟨_, -, hOp⟩ := bind_eq_ok hOp
    obtain ⟨_, -, hOp⟩ := bind_eq_ok hOp
    exact wellFormed_of_init hOp
  | false =>
    rw [mulDiv_false] at hOp
    obtain ⟨_, -, hOp⟩ := bind_eq_ok hOp
    obtain ⟨_, -, hOp⟩ := bind_eq_ok hOp
    exact wellFormed_of_init hOp

theorem wellFormed_ofInteger (n : UInt64) : WellFormed (ofInteger n) :=
  ⟨Nat.one_pos, fun hNe => absurd rfl hNe⟩

/-- **Invariant.** Every reachable value is well formed, whatever overflowed on
the way to it. -/
theorem Reachable.wellFormed {r : Rational} (hr : Reachable r) : WellFormed r := by
  cases hr with
  | construct hInit => exact wellFormed_of_init hInit
  | assign n => exact wellFormed_ofInteger n
  | add _ _ hOp => exact wellFormed_of_addSub hOp
  | sub _ _ hOp => exact wellFormed_of_addSub hOp
  | mul _ _ hOp => exact wellFormed_of_mulDiv hOp
  | div _ _ hOp => exact wellFormed_of_mulDiv hOp

/-! ## Termination -/

theorem init_ne_diverges (integer numerator denominator : UInt64) :
    init integer numerator denominator ≠ .error .diverges := by
  by_cases hDen : denominator = 0
  · obtain ⟨what, hThrow⟩ := init_zero integer numerator
    simp [hDen, hThrow]
  · obtain ⟨r, hInit, -⟩ := exists_init_eq integer numerator hDen
    simp [hInit]

theorem reduce_ne_diverges (i1 i2 : UInt64) : reduce i1 i2 ≠ .error .diverges := by
  by_cases hDefined : i1 = 0 ∨ i2 ≠ 0
  · simp [reduce_eq hDefined]
  · push Not at hDefined
    obtain ⟨what, hThrow⟩ := reduce_by_zero hDefined.1
    simp [hDefined.2, hThrow]

theorem bind_ne_diverges {α β : Type} {x : Except RationalFault α}
    {f : α → Except RationalFault β} (hX : x ≠ .error .diverges)
    (hF : ∀ v, f v ≠ .error .diverges) : (x >>= f) ≠ .error .diverges := by
  rcases x with fault | v
  · exact fun hEq => hX (congrArg Except.error (Except.error.inj hEq))
  · exact hF v

theorem addSub_ne_diverges (a b : Rational) (isAdd : Bool) :
    addSub a b isAdd ≠ .error .diverges := by
  cases isAdd with
  | true =>
    rw [addSub_true]
    exact init_ne_diverges _ _ _
  | false =>
    rw [addSub_false]
    split_ifs
    · simp [negative]
    · simp [negative]
    · exact init_ne_diverges _ _ _
    · exact init_ne_diverges _ _ _

theorem mulDiv_ne_diverges (a b : Rational) (isMultiply : Bool) :
    mulDiv a b isMultiply ≠ .error .diverges := by
  cases isMultiply with
  | true =>
    rw [mulDiv_true]
    exact bind_ne_diverges (reduce_ne_diverges _ _) fun _ =>
      bind_ne_diverges (reduce_ne_diverges _ _) fun _ => init_ne_diverges _ _ _
  | false =>
    rw [mulDiv_false]
    exact bind_ne_diverges (reduce_ne_diverges _ _) fun _ =>
      bind_ne_diverges (reduce_ne_diverges _ _) fun _ => init_ne_diverges _ _ _

end Rational

end RivermaxDevKit
