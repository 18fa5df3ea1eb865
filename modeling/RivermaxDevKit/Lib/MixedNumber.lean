import Mathlib.Algebra.Order.Field.Basic
import Mathlib.Data.Nat.GCD.Basic
import Mathlib.Data.Rat.Cast.Order
import Mathlib.Tactic.FieldSimp
import Mathlib.Tactic.Linarith
import Mathlib.Tactic.Positivity
import Mathlib.Tactic.Ring

/-!
# Mixed numbers

A nonnegative rational kept as a whole part and a fraction, `whole + num / den`.
While the fraction is proper, the parts are compared the way the values are.

* `mixed_lt_mixed_iff`, `mixed_eq_mixed_iff` — order and equality by parts.
* `mixed_carry` — an improper fraction gives its whole part away.
* `lowestTerms_eq` — cancelling the common divisor keeps the fraction.
* `eq_of_coprime` — a fraction in lowest terms is spelled in one way.
-/

namespace MixedNumber

/-- The value of a whole part and a fraction. -/
def mixed (whole num den : ℕ) : ℚ := whole + (num : ℚ) / den

theorem mixed_zero (whole den : ℕ) : mixed whole 0 den = whole := by
  simp [mixed]

theorem mixed_fraction (num den : ℕ) : mixed 0 num den = (num : ℚ) / den := by
  simp [mixed]

theorem le_mixed (whole num den : ℕ) : (whole : ℚ) ≤ mixed whole num den := by
  unfold mixed
  have hFraction : (0 : ℚ) ≤ (num : ℚ) / den := by positivity
  linarith

theorem mixed_lt_succ {whole num den : ℕ} (hProper : num < den) :
    mixed whole num den < whole + 1 := by
  have hDen : (0 : ℚ) < den := by exact_mod_cast (Nat.zero_le num).trans_lt hProper
  have hFraction : (num : ℚ) / den < 1 := by
    rw [div_lt_one hDen]
    exact_mod_cast hProper
  unfold mixed
  linarith

/-! ## Order -/

section

variable {i n d j m e : ℕ}

theorem mixed_lt_of_whole_lt (hProper : n < d) (hLt : i < j) : mixed i n d < mixed j m e :=
  calc mixed i n d < i + 1 := mixed_lt_succ hProper
    _ ≤ j := by exact_mod_cast hLt
    _ ≤ mixed j m e := le_mixed j m e

theorem fraction_lt_iff (hD : 0 < d) (hE : 0 < e) :
    (n : ℚ) / d < (m : ℚ) / e ↔ n * e < m * d := by
  have hD' : (0 : ℚ) < d := by exact_mod_cast hD
  have hE' : (0 : ℚ) < e := by exact_mod_cast hE
  rw [div_lt_div_iff₀ hD' hE']
  exact_mod_cast Iff.rfl

/-- **Order by parts.** The whole parts decide, and cross products between
fractions over the same one. -/
theorem mixed_lt_mixed_iff (hN : n < d) (hM : m < e) :
    mixed i n d < mixed j m e ↔ i < j ∨ i = j ∧ n * e < m * d := by
  have hD : 0 < d := (Nat.zero_le n).trans_lt hN
  have hE : 0 < e := (Nat.zero_le m).trans_lt hM
  rcases lt_trichotomy i j with hLt | rfl | hGt
  · exact iff_of_true (mixed_lt_of_whole_lt hN hLt) (.inl hLt)
  · have hParts : mixed i n d < mixed i m e ↔ (n : ℚ) / d < (m : ℚ) / e := by
      unfold mixed
      exact add_lt_add_iff_left _
    rw [hParts, fraction_lt_iff hD hE]
    simp
  · have hNot : ¬ mixed i n d < mixed j m e := (mixed_lt_of_whole_lt hM hGt).not_gt
    exact iff_of_false hNot (by omega)

theorem mixed_eq_mixed_iff (hN : n < d) (hM : m < e) :
    mixed i n d = mixed j m e ↔ i = j ∧ n * e = m * d := by
  have hLt := mixed_lt_mixed_iff (i := i) (j := j) hN hM
  have hGt := mixed_lt_mixed_iff (i := j) (j := i) hM hN
  constructor
  · intro hEq
    rw [hEq, iff_false_left (lt_irrefl _)] at hLt
    rw [hEq, iff_false_left (lt_irrefl _)] at hGt
    omega
  · rintro ⟨rfl, hCross⟩
    refine le_antisymm ?_ ?_
    · rw [← not_lt, hGt]
      omega
    · rw [← not_lt, hLt]
      omega

/-- Below a whole number `k` when the whole part is. -/
theorem mixed_lt_nat_iff (hN : n < d) (k : ℕ) : mixed i n d < k ↔ i < k := by
  rw [← mixed_zero k 1, mixed_lt_mixed_iff hN Nat.one_pos]
  omega

theorem nat_lt_mixed_iff (hN : n < d) (k : ℕ) : (k : ℚ) < mixed i n d ↔ k < i ∨ k = i ∧ 0 < n := by
  rw [← mixed_zero k 1, mixed_lt_mixed_iff Nat.one_pos hN]
  omega

theorem mixed_eq_zero_iff (hN : n < d) : mixed i n d = 0 ↔ i * d + n = 0 := by
  have hD : 0 < d := (Nat.zero_le n).trans_lt hN
  have hEq := mixed_eq_mixed_iff (i := i) (j := 0) hN Nat.one_pos
  rw [mixed_zero, Nat.cast_zero] at hEq
  rw [hEq, Nat.add_eq_zero_iff, Nat.mul_eq_zero]
  omega

end

/-! ## Arithmetic -/

section

variable {i n d j m : ℕ}

theorem mixed_scale {k : ℕ} (hK : 0 < k) : mixed i (n * k) (d * k) = mixed i n d := by
  have hK' : (k : ℚ) ≠ 0 := by exact_mod_cast hK.ne'
  unfold mixed
  push_cast
  rw [mul_div_mul_right _ _ hK']

/-- Over a multiple of the denominator. -/
theorem mixed_of_dvd {l : ℕ} (hL : 0 < l) (hDvd : d ∣ l) :
    mixed i (n * (l / d)) l = mixed i n d := by
  obtain ⟨k, rfl⟩ := hDvd
  have hD : 0 < d := Nat.pos_of_mul_pos_right hL
  have hK : 0 < k := Nat.pos_of_mul_pos_left hL
  rw [Nat.mul_div_cancel_left k hD, mixed_scale hK]

/-- Between equal denominators the numerators decide. -/
theorem mixed_lt_mixed_same (hD : 0 < d) : mixed i n d < mixed i m d ↔ n < m := by
  have hParts : mixed i n d < mixed i m d ↔ (n : ℚ) / d < (m : ℚ) / d := by
    unfold mixed
    exact add_lt_add_iff_left _
  rw [hParts, fraction_lt_iff hD hD, Nat.mul_lt_mul_right hD]

theorem mixed_add : mixed i n d + mixed j m d = mixed (i + j) (n + m) d := by
  unfold mixed
  push_cast
  ring

/-- **Carry.** -/
theorem mixed_carry (hD : 0 < d) : mixed (i + n / d) (n % d) d = mixed i n d := by
  have hD' : (d : ℚ) ≠ 0 := by exact_mod_cast hD.ne'
  have hSplit : (n : ℚ) = d * (n / d : ℕ) + (n % d : ℕ) := by
    exact_mod_cast (Nat.div_add_mod n d).symm
  unfold mixed
  rw [hSplit]
  push_cast
  field_simp
  ring

/-- Between equal denominators, without a borrow. -/
theorem mixed_sub (hWhole : j ≤ i) (hNum : m ≤ n) :
    mixed i n d - mixed j m d = mixed (i - j) (n - m) d := by
  unfold mixed
  push_cast [Nat.cast_sub hWhole, Nat.cast_sub hNum]
  ring

/-- A unit of the whole part as `d / d`. -/
theorem mixed_borrow (hD : 0 < d) (hWhole : 0 < i) : mixed i n d = mixed (i - 1) (n + d) d := by
  have hD' : (d : ℚ) ≠ 0 := by exact_mod_cast hD.ne'
  unfold mixed
  push_cast [Nat.cast_sub hWhole]
  field_simp
  ring

theorem mixed_improper (hD : 0 < d) : mixed i n d = ((i * d + n : ℕ) : ℚ) / d := by
  have hD' : (d : ℚ) ≠ 0 := by exact_mod_cast hD.ne'
  unfold mixed
  push_cast
  field_simp

end

/-! ## Lowest terms -/

/-- A fraction with its common divisor cancelled; zero keeps its denominator. -/
def lowestTerms (num den : ℕ) : ℕ × ℕ :=
  if num = 0 then (num, den) else (num / num.gcd den, den / num.gcd den)

section

variable {n d : ℕ}

theorem lowestTerms_zero (d : ℕ) : lowestTerms 0 d = (0, d) := rfl

theorem lowestTerms_den_pos (hD : 0 < d) : 0 < (lowestTerms n d).2 := by
  unfold lowestTerms
  split_ifs with hZero
  · exact hD
  · exact Nat.div_pos (Nat.le_of_dvd hD (Nat.gcd_dvd_right n d))
      (Nat.gcd_pos_of_pos_right n hD)

theorem lowestTerms_fst_le : (lowestTerms n d).1 ≤ n := by
  unfold lowestTerms
  split_ifs
  · exact le_refl n
  · exact Nat.div_le_self _ _

theorem lowestTerms_snd_le : (lowestTerms n d).2 ≤ d := by
  unfold lowestTerms
  split_ifs
  · exact le_refl d
  · exact Nat.div_le_self _ _

theorem lowestTerms_fst_eq_zero_iff : (lowestTerms n d).1 = 0 ↔ n = 0 := by
  unfold lowestTerms
  split_ifs with hZero
  · simp [hZero]
  · have hPos : 0 < n / n.gcd d :=
      Nat.div_pos (Nat.le_of_dvd (by omega) (Nat.gcd_dvd_left n d))
        (Nat.gcd_pos_of_pos_left d (by omega))
    omega

/-- The two spellings stand for one fraction. -/
theorem lowestTerms_cross : (lowestTerms n d).1 * d = n * (lowestTerms n d).2 := by
  unfold lowestTerms
  split_ifs with hZero
  · rfl
  · rw [Nat.div_mul_right_comm (Nat.gcd_dvd_left n d), Nat.mul_div_assoc _ (Nat.gcd_dvd_right n d)]

/-- **Cancelling keeps the value.** -/
theorem lowestTerms_eq (hD : 0 < d) :
    ((lowestTerms n d).1 : ℚ) / (lowestTerms n d).2 = (n : ℚ) / d := by
  have hD' : (d : ℚ) ≠ 0 := by exact_mod_cast hD.ne'
  have hDen : ((lowestTerms n d).2 : ℚ) ≠ 0 := by
    exact_mod_cast (lowestTerms_den_pos hD).ne'
  rw [div_eq_div_iff hDen hD']
  exact_mod_cast lowestTerms_cross

theorem lowestTerms_div : (lowestTerms n d).1 / (lowestTerms n d).2 = n / d := by
  unfold lowestTerms
  split_ifs
  · rfl
  · rw [Nat.div_div_eq_div_mul, Nat.mul_div_cancel' (Nat.gcd_dvd_right n d)]

theorem lowestTerms_coprime (hN : n ≠ 0) :
    (lowestTerms n d).1.Coprime (lowestTerms n d).2 := by
  rw [lowestTerms, if_neg hN]
  exact Nat.coprime_div_gcd_div_gcd (Nat.gcd_pos_of_pos_left d (Nat.pos_of_ne_zero hN))

/-- **One spelling.** Two fractions in lowest terms with equal cross products
have the same parts. -/
theorem eq_of_coprime {m e : ℕ} (hN : n.Coprime d) (hM : m.Coprime e)
    (hCross : n * e = m * d) : n = m ∧ d = e := by
  have hNM : n ∣ m := hN.dvd_of_dvd_mul_right (hCross ▸ Nat.dvd_mul_right n e)
  have hMN : m ∣ n := hM.dvd_of_dvd_mul_right (hCross ▸ Nat.dvd_mul_right m d)
  have hDE : d ∣ e := hN.symm.dvd_of_dvd_mul_left (hCross ▸ Nat.dvd_mul_left d m)
  have hED : e ∣ d := hM.symm.dvd_of_dvd_mul_left (hCross ▸ Nat.dvd_mul_left e n)
  exact ⟨Nat.dvd_antisymm hNM hMN, Nat.dvd_antisymm hDE hED⟩

end

end MixedNumber
