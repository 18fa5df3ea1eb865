import Mathlib.Data.Nat.Count
import Mathlib.Tactic.Common

/-!
# Ranks of bits

The set bits of a word, counted from the lowest: the rank of a bit is how many
lie below it.

* `exists_rank` — there is a set bit of every rank below their number.
* `getLsbD_collect` — the word of those bits whose ranks are chosen.
* `collect_insert` — one more rank adds one bit.
-/

namespace BitRank

variable {w : Nat}

/-- How many bits are set below bit `i`. -/
def rank (v : BitVec w) (i : Nat) : Nat := Nat.count (fun j => v.getLsbD j = true) i

/-- How many bits are set. -/
def size (v : BitVec w) : Nat := rank v w

@[simp]
theorem rank_zero (v : BitVec w) : rank v 0 = 0 := Nat.count_zero _

theorem rank_succ (v : BitVec w) (i : Nat) :
    rank v (i + 1) = rank v i + if v.getLsbD i then 1 else 0 := Nat.count_succ ..

theorem rank_lt_size {v : BitVec w} {i : Nat} (h : v.getLsbD i = true) : rank v i < size v :=
  Nat.count_strict_mono h (BitVec.lt_of_getLsbD h)

theorem rank_injective {v : BitVec w} {i j : Nat} (hi : v.getLsbD i = true)
    (hj : v.getLsbD j = true) (h : rank v i = rank v j) : i = j :=
  Nat.count_injective hi hj h

theorem exists_rank {v : BitVec w} {r : Nat} (h : r < size v) :
    ∃ i < w, v.getLsbD i = true ∧ rank v i = r := by
  suffices hAll : ∀ n, r < rank v n → ∃ i < n, v.getLsbD i = true ∧ rank v i = r from hAll w h
  intro n
  induction n with
  | zero => exact fun hr => absurd hr (Nat.not_lt_zero r)
  | succ n ih =>
    intro hr
    rw [rank_succ] at hr
    by_cases hBelow : r < rank v n
    · obtain ⟨i, hi, hBit⟩ := ih hBelow
      exact ⟨i, Nat.lt_succ_of_lt hi, hBit⟩
    · -- it is the last bit
      cases hBit : v.getLsbD n with
      | false =>
        rw [hBit, if_neg (by simp)] at hr
        exact absurd hr hBelow
      | true =>
        rw [hBit, if_pos rfl] at hr
        exact ⟨n, Nat.lt_succ_self n, hBit, by omega⟩

/-! ## Words by their bits -/

/-- The word with the chosen bits below `n`. -/
def ofBits (w : Nat) (chosen : Nat → Bool) : (n : Nat) → BitVec w
  | 0 => 0
  | n + 1 => if chosen n then ofBits w chosen n ||| BitVec.twoPow w n else ofBits w chosen n

theorem getLsbD_ofBits (chosen : Nat → Bool) (n : Nat) {i : Nat} (hi : i < w) :
    (ofBits w chosen n).getLsbD i = (decide (i < n) && chosen i) := by
  induction n with
  | zero => simp [ofBits]
  | succ n ih =>
    rw [ofBits]
    have hOther : n ≠ i → decide (i < n + 1) = decide (i < n) :=
      fun hNe => decide_eq_decide.mpr (by omega)
    by_cases hChosen : chosen n = true
    · rw [if_pos hChosen, BitVec.getLsbD_or, ih, BitVec.getLsbD_twoPow]
      by_cases hHere : n = i
      · subst hHere
        simp [hChosen, hi]
      · rw [hOther hHere]
        simp [hHere]
    · rw [if_neg hChosen, ih]
      by_cases hHere : n = i
      · subst hHere
        simp [hChosen]
      · rw [hOther hHere]

/-- The bits of `v` whose ranks are chosen. -/
def collect (v : BitVec w) (chosen : Nat → Bool) : BitVec w :=
  ofBits w (fun i => v.getLsbD i && chosen (rank v i)) w

theorem getLsbD_collect (v : BitVec w) (chosen : Nat → Bool) (i : Nat) :
    (collect v chosen).getLsbD i = (v.getLsbD i && chosen (rank v i)) := by
  by_cases hi : i < w
  · rw [collect, getLsbD_ofBits _ _ hi, decide_eq_true hi, Bool.true_and]
  · rw [BitVec.getLsbD_of_ge _ _ (by omega), BitVec.getLsbD_of_ge v _ (by omega)]
    rfl

theorem collect_congr {v : BitVec w} {chosen chosen' : Nat → Bool}
    (h : ∀ r < size v, chosen r = chosen' r) : collect v chosen = collect v chosen' := by
  apply BitVec.eq_of_getLsbD_eq
  intro i _
  rw [getLsbD_collect, getLsbD_collect]
  cases hBit : v.getLsbD i with
  | false => rfl
  | true => rw [h _ (rank_lt_size hBit)]

theorem collect_eq_zero_iff {v : BitVec w} {chosen : Nat → Bool} :
    collect v chosen = 0 ↔ ∀ r < size v, chosen r = false := by
  constructor
  · intro hZero r hr
    obtain ⟨i, -, hBit, rfl⟩ := exists_rank hr
    have hNone := getLsbD_collect v chosen i
    rw [hZero, hBit] at hNone
    simpa using hNone.symm
  · intro hNone
    apply BitVec.eq_of_getLsbD_eq
    intro i _
    rw [getLsbD_collect]
    cases hBit : v.getLsbD i with
    | false => simp
    | true => simp [hNone _ (rank_lt_size hBit)]

/-- One more rank is one more bit. -/
theorem collect_insert {v : BitVec w} {i : Nat} (hBit : v.getLsbD i = true)
    {chosen chosen' : Nat → Bool}
    (h : ∀ r < size v, chosen' r = (chosen r || decide (r = rank v i))) :
    collect v chosen' = collect v chosen ||| BitVec.twoPow w i := by
  apply BitVec.eq_of_getLsbD_eq
  intro j hj
  rw [BitVec.getLsbD_or, getLsbD_collect, getLsbD_collect, BitVec.getLsbD_twoPow]
  cases hOther : v.getLsbD j with
  | false =>
    -- the bit is another one
    have hNe : i ≠ j := by
      rintro rfl
      rw [hBit] at hOther
      cases hOther
    simp [hNe]
  | true =>
    have hSame : rank v j = rank v i ↔ i = j :=
      ⟨fun hRank => (rank_injective hOther hBit hRank).symm, fun hEq => by rw [hEq]⟩
    simp [h _ (rank_lt_size hOther), hSame, BitVec.lt_of_getLsbD hBit]

end BitRank
