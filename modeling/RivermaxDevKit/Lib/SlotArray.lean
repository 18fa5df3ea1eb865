import Mathlib.Data.Finset.Card
import Mathlib.Data.Finset.Range
import RivermaxDevKit.Lib.SerialNumber

/-!
# Slot arrays

A buffer of `W` slots is a function from indices whose values below `W`
matter. This module counts the slots that satisfy a predicate and says how one
write changes the count, walks round such a buffer by modular steps, and keeps a
window of numbered entries in it, entry `t` in slot `t % W`.
-/

namespace SlotArray

variable {α : Type*} (p : α → Bool) (W : Nat)

/-- The number of slots below `W` that satisfy `p`. -/
def occupied (f : Nat → α) : Nat := ((Finset.range W).filter fun i => p (f i)).card

theorem occupied_le (f : Nat → α) : occupied p W f ≤ W := by
  have h := Finset.card_filter_le (Finset.range W) fun i => p (f i) = true
  rwa [Finset.card_range] at h

variable {p W}

theorem occupied_eq_zero_iff {f : Nat → α} :
    occupied p W f = 0 ↔ ∀ i < W, p (f i) = false := by
  rw [occupied, Finset.card_eq_zero, Finset.filter_eq_empty_iff]
  constructor
  · intro h i hi
    simpa using h (Finset.mem_range.mpr hi)
  · intro h i hi
    simp [h i (Finset.mem_range.mp hi)]

/-- Outside the written slot the predicate is unchanged, so the count splits
into the other slots and the written one. -/
private theorem occupied_split (f : Nat → α) {i : Nat} (hi : i < W) :
    occupied p W f =
      (((Finset.range W).erase i).filter fun j => p (f j)).card + (p (f i)).toNat := by
  have hmem : i ∈ Finset.range W := Finset.mem_range.mpr hi
  rw [occupied, ← Finset.insert_erase hmem, Finset.filter_insert, Finset.erase_insert_eq_erase,
    Finset.erase_idem]
  cases hp : p (f i) with
  | true =>
    rw [if_pos rfl, Finset.card_insert_of_notMem (by simp)]
    rfl
  | false => simp

/-- **Count after a write.** Only the written slot changes its contribution. -/
theorem occupied_update (f : Nat → α) {i : Nat} (hi : i < W) (a : α) :
    occupied p W (Function.update f i a) + (p (f i)).toNat =
      occupied p W f + (p a).toNat := by
  have hrest : (((Finset.range W).erase i).filter fun j => p (Function.update f i a j)) =
      ((Finset.range W).erase i).filter fun j => p (f j) := by
    apply Finset.filter_congr
    intro j hj
    rw [Function.update_of_ne (Finset.ne_of_mem_erase hj)]
  rw [occupied_split (Function.update f i a) hi, occupied_split f hi, hrest,
    Function.update_self]
  omega

/-! ## Walking round the buffer -/

theorem mod_walk_inj {i k k' : Nat} (hk : k < W) (hk' : k' < W)
    (h : (i + k) % W = (i + k') % W) : k = k' := by
  have hcancel : k ≡ k' [MOD W] := Nat.ModEq.add_left_cancel' i h
  exact Nat.ModEq.eq_of_lt_of_lt hcancel hk hk'

/-- Every slot is met within one turn. -/
theorem exists_mod_walk (i : Nat) {j : Nat} (hj : j < W) : ∃ k < W, (i + k) % W = j := by
  have hW : 0 < W := by omega
  refine ⟨SerialNumber.dist W i j, SerialNumber.dist_lt hW i j, ?_⟩
  rw [SerialNumber.add_dist hW, Nat.mod_eq_of_lt hj]

/-! ## Windows -/

/-- The entries from `first` up to `next` lie in their slots. -/
def Holds (W : Nat) (slots value : Nat → α) (first next : Nat) : Prop :=
  ∀ t, first ≤ t → t < next → slots (t % W) = value t

variable {slots value : Nat → α} {first next : Nat}

/-- With room for one more, the next slot is none of the window. -/
theorem mod_ne_mod_of_room {t : Nat} (hFirst : first ≤ t) (hNext : t < next)
    (hRoom : next < first + W) : t % W ≠ next % W := by
  intro hSame
  obtain ⟨k, rfl⟩ := Nat.exists_eq_add_of_le (Nat.le_of_lt hNext)
  have hZero : (t + 0) % W = (t + k) % W := hSame
  have hNone := mod_walk_inj (by omega) (by omega) hZero
  omega

/-- What is written to the next slot does not touch the window. -/
theorem Holds.write (h : Holds W slots value first next) (hRoom : next < first + W) (a : α) :
    Holds W (Function.update slots (next % W) a) value first next := by
  intro t hFirst hNext
  rw [Function.update_of_ne (mod_ne_mod_of_room hFirst hNext hRoom), h t hFirst hNext]

/-- The window grows by the entry that was written there. -/
theorem Holds.grow (h : Holds W slots value first next) (hSlot : slots (next % W) = value next) :
    Holds W slots value first (next + 1) := by
  intro t hFirst hNext
  rcases Nat.lt_succ_iff_lt_or_eq.mp hNext with hOld | rfl
  · exact h t hFirst hOld
  · exact hSlot

theorem Holds.shrink (h : Holds W slots value first next) : Holds W slots value (first + 1) next :=
  fun t hFirst hNext => h t (Nat.le_of_succ_le hFirst) hNext

end SlotArray
