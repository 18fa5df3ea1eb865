import Mathlib.Algebra.BigOperators.Group.List.Basic
import Mathlib.Algebra.Order.Ring.Nat
import Mathlib.Data.List.Nodup
import Mathlib.Data.List.SplitLengths
import Mathlib.Logic.Function.Basic
import Mathlib.Tactic.Common

/-!
# Round robin

`n` items dealt out to `m` places in turn, what each place gets, and how a list
is cut into the slices of these sizes: in order, all of it, and none longer than
another by more than one.

* `dealt_eq` — place `t` gets `n / m` items, and one more if it is below `n % m`.
* `Balanced` — a list cut into slices of even length.
* `locate_eq_some_iff` — the search by running sums finds the slice of an item.
-/

namespace RoundRobin

/-! ## Dealing -/

/-- The counts after the items below `n` went to the places `i % m`. -/
def dealt (n m : Nat) : Nat → Nat :=
  (List.range n).foldl (fun counts i => Function.update counts (i % m) (counts (i % m) + 1))
    fun _ => 0

@[simp]
theorem dealt_zero (m t : Nat) : dealt 0 m t = 0 := rfl

theorem dealt_succ (n m t : Nat) :
    dealt (n + 1) m t = dealt n m t + if n % m = t then 1 else 0 := by
  unfold dealt
  rw [List.range_succ, List.foldl_append, List.foldl_cons, List.foldl_nil, Function.update_apply]
  by_cases h : t = n % m
  · subst h
    simp
  · simp [h, Ne.symm h]

theorem dealt_eq {m t : Nat} (ht : t < m) (n : Nat) :
    dealt n m t = n / m + if t < n % m then 1 else 0 := by
  induction n with
  | zero => simp
  | succ n ih =>
    rw [dealt_succ, ih]
    have hm : 0 < m := by omega
    have hMod : n % m < m := Nat.mod_lt n hm
    have hDivMod := Nat.div_add_mod n m
    by_cases hRound : n % m + 1 = m
    · -- the round is complete
      have hNext : n + 1 = m * (n / m + 1) := by
        rw [Nat.mul_add, Nat.mul_one]
        omega
      rw [hNext, Nat.mul_div_cancel_left _ hm, Nat.mul_mod_right]
      split_ifs <;> omega
    -- the round goes on: the quotient stays, the remainder grows
    · have hNext : n + 1 = n % m + 1 + m * (n / m) := by omega
      rw [hNext, Nat.add_mul_div_left _ _ hm, Nat.add_mul_mod_self_left,
        Nat.div_eq_of_lt (by omega : n % m + 1 < m), Nat.mod_eq_of_lt (by omega : n % m + 1 < m)]
      split_ifs <;> omega

/-- Two places differ by one at most. -/
theorem dealt_le_succ {m a b : Nat} (ha : a < m) (hb : b < m) (n : Nat) :
    dealt n m a ≤ dealt n m b + 1 := by
  rw [dealt_eq ha, dealt_eq hb]
  split_ifs <;> omega

theorem dealt_mono {n n' : Nat} (h : n ≤ n') (m t : Nat) : dealt n m t ≤ dealt n' m t := by
  induction n', h using Nat.le_induction with
  | base => exact Nat.le_refl _
  | succ k _ ih =>
    rw [dealt_succ]
    omega

/-- Of no fewer items than places, each place gets one. -/
theorem dealt_pos {n m t : Nat} (ht : t < m) (h : m ≤ n) : 0 < dealt n m t := by
  rw [dealt_eq ht]
  have hRound := Nat.div_pos h (Nat.lt_of_le_of_lt (Nat.zero_le t) ht)
  omega

/-- The counts of the places. -/
def shares (n m : Nat) : List Nat := (List.range m).map (dealt n m)

@[simp]
theorem length_shares (n m : Nat) : (shares n m).length = m := by simp [shares]

/-- No item is lost, and none dealt twice. -/
theorem sum_shares {m : Nat} (hm : 0 < m) (n : Nat) : (shares n m).sum = n := by
  induction n with
  | zero =>
    refine List.sum_eq_zero fun share hShare => ?_
    obtain ⟨t, -, rfl⟩ := List.mem_map.mp hShare
    exact dealt_zero m t
  | succ n ih =>
    have hSplit : shares (n + 1) m =
        (List.range m).map fun t => dealt n m t + if n % m = t then 1 else 0 :=
      List.map_congr_left fun t _ => dealt_succ n m t
    rw [hSplit, List.sum_map_add]
    show (shares n m).sum + _ = n + 1
    rw [ih]
    -- one place is next
    have hNext := List.sum_map_eq_nsmul_single (l := List.range m) (n % m)
      (fun t => if n % m = t then 1 else 0) fun t ht _ => if_neg (Ne.symm ht)
    have hOnce := List.count_eq_one_of_mem List.nodup_range
      (List.mem_range.mpr (Nat.mod_lt n hm))
    rw [hNext, hOnce, if_pos rfl, one_nsmul]

/-! ## Slices -/

/-- The slices of these sizes from an offset on, one behind the other. -/
def slicesAt {α : Type*} : List Nat → List α → Nat → List (List α)
  | [], _, _ => []
  | size :: sizes, items, offset =>
    (items.drop offset).take size :: slicesAt sizes items (offset + size)

section Slices

variable {α : Type*}

theorem slicesAt_eq (sizes : List Nat) (items : List α) (offset : Nat) :
    slicesAt sizes items offset = sizes.splitLengths (items.drop offset) := by
  induction sizes generalizing offset with
  | nil => rfl
  | cons size sizes ih =>
    rw [slicesAt, List.splitLengths_cons, ih, List.drop_drop]

/-- Slices of a list: in order they are the list, and their lengths are even. -/
structure Balanced (slices : List (List α)) (items : List α) : Prop where
  flatten : slices.flatten = items
  even : ∀ a ∈ slices, ∀ b ∈ slices, a.length ≤ b.length + 1

/-- A list cut into the shares of a round robin. -/
def cut (items : List α) (m : Nat) : List (List α) := slicesAt (shares items.length m) items 0

theorem map_length_cut (items : List α) {m : Nat} (hm : 0 < m) :
    (cut items m).map List.length = shares items.length m := by
  rw [cut, slicesAt_eq, List.drop_zero, List.map_splitLengths_length]
  rw [sum_shares hm]

theorem length_cut (items : List α) (m : Nat) : (cut items m).length = m := by
  rw [cut, slicesAt_eq, List.length_splitLengths, length_shares]

/-- A slice has the length of a share. -/
theorem length_of_mem_cut {items slice : List α} {m : Nat} (hSlice : slice ∈ cut items m) :
    ∃ t < m, slice.length = dealt items.length m t := by
  have hm : 0 < m := by
    rw [← length_cut items m]
    exact List.length_pos_of_mem hSlice
  have hMem : slice.length ∈ (cut items m).map List.length := List.mem_map_of_mem hSlice
  rw [map_length_cut items hm] at hMem
  obtain ⟨t, ht, hEq⟩ := List.mem_map.mp hMem
  exact ⟨t, List.mem_range.mp ht, hEq.symm⟩

theorem balanced_cut (items : List α) {m : Nat} (hm : 0 < m) : Balanced (cut items m) items := by
  constructor
  · rw [cut, slicesAt_eq, List.drop_zero, List.flatten_splitLengths]
    rw [sum_shares hm]
  · intro a ha b hb
    obtain ⟨s, hs, hA⟩ := length_of_mem_cut ha
    obtain ⟨t, ht, hB⟩ := length_of_mem_cut hb
    rw [hA, hB]
    exact dealt_le_succ hs ht items.length

/-- Of no fewer items than slices, no slice is empty. -/
theorem ne_nil_of_mem_cut {items slice : List α} {m : Nat} (h : m ≤ items.length)
    (hSlice : slice ∈ cut items m) : slice ≠ [] := by
  obtain ⟨t, ht, hLength⟩ := length_of_mem_cut hSlice
  rw [← List.length_pos_iff, hLength]
  exact dealt_pos ht h

/-- Slice `t` is what stands behind the slices before it. -/
theorem getElem?_slicesAt (sizes : List Nat) (items : List α) (offset t : Nat) :
    (slicesAt sizes items offset)[t]? =
      sizes[t]?.map fun size => (items.drop (offset + (sizes.take t).sum)).take size := by
  -- each slice moves the offset of those behind it
  induction sizes generalizing offset t with
  | nil => rfl
  | cons size sizes ih =>
    cases t with
    | zero => simp [slicesAt]
    | succ t =>
      rw [slicesAt, List.getElem?_cons_succ, ih, List.getElem?_cons_succ, List.take_succ_cons,
        List.sum_cons, Nat.add_assoc]

end Slices

/-! ## Search -/

/-- The slice that holds item `k`, by running sums, and the place in it. -/
def locate : List Nat → (index first k : Nat) → Option (Nat × Nat)
  | [], _, _, _ => none
  | size :: sizes, index, first, k =>
    if k < first + size then some (index, k - first) else locate sizes (index + 1) (first + size) k

section Search

theorem locate_eq_none_iff (sizes : List Nat) {index first k : Nat} (h : first ≤ k) :
    locate sizes index first k = none ↔ first + sizes.sum ≤ k := by
  induction sizes generalizing index first with
  | nil => simpa [locate] using h
  | cons size sizes ih =>
    rw [locate, List.sum_cons]
    split_ifs with hHere
    -- found here: the item is below the end of this slice
    · refine iff_of_false nofun ?_
      omega
    · rw [ih (Nat.le_of_not_lt hHere), Nat.add_assoc]

/-- The search finds the one slice that holds the item, and its place there. -/
theorem locate_eq_some_iff (sizes : List Nat) {index first k : Nat} (h : first ≤ k) (t j : Nat) :
    locate sizes index first k = some (t, j) ↔ ∃ d size, t = index + d ∧
      sizes[d]? = some size ∧ j < size ∧ first + (sizes.take d).sum + j = k := by
  induction sizes generalizing index first with
  | nil => simp [locate]
  | cons size sizes ih =>
    rw [locate]
    split_ifs with hHere
    · rw [Option.some.injEq, Prod.mk.injEq]
      constructor
      · rintro ⟨rfl, rfl⟩
        exact ⟨0, size, rfl, rfl, by omega, by rw [List.take_zero, List.sum_nil]; omega⟩
      · rintro ⟨d, other, rfl, hSize, hj, hk⟩
        -- a later slice begins behind the item
        cases d with
        | zero =>
          rw [List.take_zero, List.sum_nil] at hk
          exact ⟨rfl, by omega⟩
        | succ d =>
          rw [List.take_succ_cons, List.sum_cons] at hk
          omega
    · rw [ih (Nat.le_of_not_lt hHere)]
      constructor
      · rintro ⟨d, other, rfl, hSize, hj, hk⟩
        -- one slice further on, this one counts among those before
        refine ⟨d + 1, other, by omega, hSize, hj, ?_⟩
        rw [List.take_succ_cons, List.sum_cons]
        omega
      · rintro ⟨d, other, rfl, hSize, hj, hk⟩
        cases d with
        | zero =>
          -- the item is not in this slice
          obtain rfl : size = other := Option.some.inj hSize
          rw [List.take_zero, List.sum_nil] at hk
          omega
        | succ d =>
          rw [List.take_succ_cons, List.sum_cons] at hk
          exact ⟨d, other, by omega, hSize, hj, by omega⟩

/-- Of the slices of the numbers below `n`, the search finds where `k` stands. -/
theorem locate_eq_some_iff_mem {sizes : List Nat} {n : Nat} (hSum : sizes.sum = n) (k t j : Nat) :
    locate sizes 0 0 k = some (t, j) ↔
      ∃ slice, (slicesAt sizes (List.range n) 0)[t]? = some slice ∧ slice[j]? = some k := by
  rw [locate_eq_some_iff sizes (Nat.zero_le k), getElem?_slicesAt]
  simp only [Nat.zero_add]
  constructor
  · rintro ⟨d, size, rfl, hSize, hj, hk⟩
    -- the slices before and this one are no longer than all of them
    have hFits : (sizes.take t).sum + size ≤ n := by
      obtain ⟨hLess, hIs⟩ := List.getElem?_eq_some_iff.mp hSize
      have hSplit := List.sum_take_add_sum_drop sizes t
      rw [List.drop_eq_getElem_cons hLess, hIs, List.sum_cons] at hSplit
      omega
    refine ⟨_, by rw [hSize]; rfl, ?_⟩
    rw [List.getElem?_take_of_lt hj, List.getElem?_drop, List.getElem?_range (by omega), hk]
  · rintro ⟨slice, hSlice, hj⟩
    obtain ⟨size, hSize, rfl⟩ := Option.map_eq_some_iff.mp hSlice
    obtain ⟨hLess, hMem⟩ := List.getElem?_eq_some_iff.mp hj
    refine ⟨t, size, rfl, hSize, ?_, ?_⟩
    · rw [List.length_take] at hLess
      omega
    · simpa using hMem

end Search

end RoundRobin
