import Mathlib.Tactic.Common

/-!
# Wrapping counters

Quotient and remainder of a count that goes up by one: the position in a period
and the number of periods behind it.

* `succ_mod_eq` / `succ_div_eq` — one step of position and period count.
* `marks` — the steps at which a counter that starts over with every block ends
  a period.
-/

namespace WrapCounter

variable {n period : Nat}

theorem dvd_succ_iff (h : n % period < period) : period ∣ n + 1 ↔ n % period + 1 = period := by
  have hSplit : n + 1 = period * (n / period) + (n % period + 1) := by
    rw [← Nat.add_assoc, Nat.div_add_mod]
  rw [hSplit, Nat.dvd_add_right (Nat.dvd_mul_right _ _)]
  refine ⟨fun hDvd => Nat.le_antisymm h (Nat.le_of_dvd (by omega) hDvd), ?_⟩
  intro hLast
  exact hLast.symm ▸ Nat.dvd_refl _

/-- The number of whole periods. -/
theorem succ_div_eq (h : n % period < period) :
    (n + 1) / period = if n % period + 1 = period then n / period + 1 else n / period := by
  rw [Nat.succ_div]
  by_cases hLast : n % period + 1 = period
  · rw [if_pos ((dvd_succ_iff h).mpr hLast), if_pos hLast]
  · rw [if_neg (mt (dvd_succ_iff h).mp hLast), if_neg hLast, Nat.add_zero]

/-- The position in the period. -/
theorem succ_mod_eq (h : n % period < period) :
    (n + 1) % period = if n % period + 1 = period then 0 else n % period + 1 := by
  by_cases hLast : n % period + 1 = period
  · rw [if_pos hLast]
    exact Nat.mod_eq_zero_of_dvd ((dvd_succ_iff h).mpr hLast)
  · have hStay : n % period + 1 < period := by omega
    rw [if_neg hLast, Nat.add_mod, Nat.mod_eq_of_lt (by omega : 1 < period),
      Nat.mod_eq_of_lt hStay]

/-- The periods alternate. -/
theorem odd_succ (n : Nat) : decide ((n + 1) % 2 = 1) = !decide (n % 2 = 1) := by
  rcases Nat.mod_two_eq_zero_or_one n with hEven | hOdd
  · have hNext : (n + 1) % 2 = 1 := by omega
    simp [hEven, hNext]
  · have hNext : (n + 1) % 2 = 0 := by omega
    simp [hOdd, hNext]

/-! ## Marks -/

/-- How often a period ends in the first `n` steps, counted from the start of
each block of `block` steps. -/
def marks (period block n : Nat) : Nat := n / block * (block / period) + n % block / period

theorem marks_zero (period block : Nat) : marks period block 0 = 0 := by
  rw [marks, Nat.zero_div, Nat.zero_mul, Nat.zero_mod, Nat.zero_div]

theorem marks_succ {block : Nat} (hBlock : 0 < block) (period n : Nat) :
    marks period block (n + 1) =
      marks period block n + if (n % block + 1) % period = 0 then 1 else 0 := by
  have hPlace := Nat.mod_lt n hBlock
  have hRow : (n % block + 1) / period =
      n % block / period + if (n % block + 1) % period = 0 then 1 else 0 := by
    rw [Nat.succ_div]
    exact congrArg _ (if_congr (Nat.dvd_iff_mod_eq_zero) rfl rfl)
  unfold marks
  rw [succ_div_eq hPlace, succ_mod_eq hPlace]
  by_cases hLast : n % block + 1 = block
  · rw [hLast] at hRow
    rw [if_pos hLast, if_pos hLast, hLast, Nat.zero_div, Nat.succ_mul, Nat.add_zero, Nat.add_assoc,
      hRow]
  · rw [if_neg hLast, if_neg hLast, hRow, Nat.add_assoc]

/-- Up to the end of a block the periods are counted from its start. -/
theorem marks_of_le {block n : Nat} (h : n ≤ block) (period : Nat) :
    marks period block n = n / period := by
  rcases Nat.lt_or_eq_of_le h with hLt | rfl
  · rw [marks, Nat.div_eq_of_lt hLt, Nat.mod_eq_of_lt hLt, Nat.zero_mul, Nat.zero_add]
  rcases Nat.eq_zero_or_pos n with rfl | hPos
  · rw [marks_zero, Nat.zero_div]
  · rw [marks, Nat.div_self hPos, Nat.one_mul, Nat.mod_self, Nat.zero_div, Nat.add_zero]

/-- Blocks of whole periods lose none. -/
theorem marks_of_dvd {period block : Nat} (hDvd : period ∣ block) (n : Nat) :
    marks period block n = n / period := by
  obtain ⟨k, rfl⟩ := hDvd
  rcases Nat.eq_zero_or_pos period with rfl | hPeriod
  · simp [marks]
  rw [marks, Nat.mul_div_cancel_left _ hPeriod, ← Nat.div_div_eq_div_mul,
    Nat.mod_mul_right_div_self, Nat.mul_comm, Nat.div_add_mod]

end WrapCounter
