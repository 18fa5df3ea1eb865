import Mathlib.Algebra.Order.Ring.Nat
import Mathlib.Data.List.Basic
import Mathlib.Tactic.Common

/-!
# Sweeps

Places `0, …, n - 1` are served one after the other, sweep by sweep. A sweep may be
cut short at a place, and the next one starts at place 0 again.

* `Even` — two places were served equally often, but for the sweeps that were cut
  short between them, and the one that is on its way.
* `Even.times_eq` — by how much the earlier of two places is ahead.
-/

namespace Sweep

/-- What was served and where sweeps were cut short. The sweep is at `position`. -/
structure Record where
  position : Nat
  served : List Nat
  cuts : List Nat

/-- How often a place was served. -/
def Record.times (r : Record) (i : Nat) : Nat := r.served.count i

/-- How many sweeps were cut short behind `i`, at `j` at the latest. -/
def Record.cutsBetween (r : Record) (i j : Nat) : Nat := r.cuts.countP fun k => i < k ∧ k ≤ j

def Record.serve (n : Nat) (r : Record) : Record where
  position := if r.position + 1 = n then 0 else r.position + 1
  served := r.served ++ [r.position]
  cuts := r.cuts

def Record.cut (r : Record) : Record where
  position := 0
  served := r.served
  cuts := r.cuts ++ [r.position]

/-- Of two places, the first is ahead by the sweeps that ended between them. -/
structure Even (n : Nat) (r : Record) : Prop where
  position_lt : r.position < n
  times_eq : ∀ i j, i ≤ j → j < n → r.times i =
    r.times j + r.cutsBetween i j + if i < r.position ∧ r.position ≤ j then 1 else 0

theorem even_start {n : Nat} (hn : 0 < n) : Even n ⟨0, [], []⟩ where
  position_lt := hn
  times_eq := fun i j _ _ => by simp [Record.times, Record.cutsBetween]

variable {n : Nat} {r : Record}

theorem Record.times_serve (r : Record) (i : Nat) :
    (r.serve n).times i = r.times i + if i = r.position then 1 else 0 := by
  unfold Record.times Record.serve
  rw [List.count_append, List.count_singleton]
  by_cases hHere : i = r.position
  · simp [hHere]
  · simp [hHere, Ne.symm hHere]

/-- The place at which the sweep is is served, and the sweep goes on. -/
theorem Even.serve (h : Even n r) : Even n (r.serve n) where
  position_lt := by
    have hLt := h.position_lt
    show (if r.position + 1 = n then 0 else r.position + 1) < n
    split_ifs <;> omega
  times_eq := fun i j hij hj => by
    have hBefore := h.times_eq i j hij hj
    have hLt := h.position_lt
    have hCuts : (r.serve n).cutsBetween i j = r.cutsBetween i j := rfl
    rw [Record.times_serve, Record.times_serve, hCuts]
    show _ = _ + _ + if i < (if r.position + 1 = n then 0 else r.position + 1) ∧
      (if r.position + 1 = n then 0 else r.position + 1) ≤ j then 1 else 0
    -- the last place ends the sweep
    by_cases hLast : r.position + 1 = n
    · simp only [hLast, if_true]
      split_ifs at * <;> omega
    · simp only [hLast, if_false]
      split_ifs at * <;> omega

/-- The sweep is cut short. -/
theorem Even.cut (h : Even n r) : Even n r.cut where
  position_lt := Nat.lt_of_le_of_lt (Nat.zero_le _) h.position_lt
  times_eq := fun i j hij hj => by
    have hBefore := h.times_eq i j hij hj
    have hCuts : r.cut.cutsBetween i j =
        r.cutsBetween i j + if i < r.position ∧ r.position ≤ j then 1 else 0 := by
      unfold Record.cutsBetween Record.cut
      rw [List.countP_append, List.countP_singleton]
      simp only [decide_eq_true_eq]
    have hZero : ¬ (i < r.cut.position ∧ r.cut.position ≤ j) := by
      rintro ⟨hLt, -⟩
      exact Nat.not_lt_zero i hLt
    rw [if_neg hZero, hCuts]
    show r.times i = r.times j + _ + 0
    omega

end Sweep
