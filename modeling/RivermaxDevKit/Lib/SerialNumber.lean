import Mathlib.Order.Interval.Finset.Nat
import Mathlib.Data.List.Chain
import Mathlib.Data.List.MinMax
import Mathlib.Data.Nat.ModEq
import Mathlib.Tactic.Common

/-!
# Serial numbers

Arithmetic of numbers that count modulo `M`: the forward distance from one
number to another, how distances add up along a walk, and what a list of
numbers each of which lies strictly ahead of the previous one can repeat.

Main results:

* `dist_add` — distances compose modulo `M`; they add exactly when the sum
  stays below `M` (`dist_trans`).
* `add_dist` — walking the distance forward ends at the target.
* `mod_eq_of_dist` — a circular buffer whose size divides `M` keeps its slots
  in step with the numbers; `succ_in_step_iff` — no other buffer does.
* `nodup_of_advance_lt` — a chain of forward moves of less than one full turn
  never visits a number twice.
* `missing_cons` — how many numbers a walk leaves out, one move at a time.
* `skipped_of_increasing` — counting from one number to the next finds what is
  missing in an increasing list; `dist_succ_of_ge` — what a step back counts.
-/

namespace SerialNumber

variable {M : Nat}

/-- Forward distance from `a` to `b` modulo `M`. -/
def dist (M a b : Nat) : Nat := (b + (M - a % M)) % M

theorem dist_lt (hM : 0 < M) (a b : Nat) : dist M a b < M :=
  Nat.mod_lt _ hM

@[simp] theorem dist_self (hM : 0 < M) (a : Nat) : dist M a a = 0 := by
  have hlt := Nat.mod_lt a hM
  have hdiv := Nat.mod_add_div a M
  have h : a + (M - a % M) = M * (a / M + 1) := by
    rw [Nat.mul_add]
    omega
  rw [dist, h, Nat.mul_mod_right]

/-- Walking the distance forward from `a` ends at `b`. -/
theorem add_dist (hM : 0 < M) (a b : Nat) : (a + dist M a b) % M = b % M := by
  have hlt := Nat.mod_lt a hM
  have hdiv := Nat.mod_add_div a M
  have h : a + (b + (M - a % M)) = b + M * (a / M + 1) := by
    rw [Nat.mul_add]
    omega
  rw [dist, Nat.add_mod, Nat.mod_mod, ← Nat.add_mod, h, Nat.add_mul_mod_self_left]

/-- The distance is the only number below `M` that leads from `a` to `b`. -/
theorem dist_eq_of_add {a b d : Nat} (hd : d < M) (h : (a + d) % M = b % M) :
    dist M a b = d := by
  have hM : 0 < M := by omega
  have hab := add_dist hM a b
  rw [← h] at hab
  have hcancel : dist M a b ≡ d [MOD M] := Nat.ModEq.add_left_cancel' a hab
  exact Nat.ModEq.eq_of_lt_of_lt hcancel (dist_lt hM a b) hd

/-- Distances compose modulo `M`. -/
theorem dist_add (hM : 0 < M) (a b c : Nat) :
    dist M a c = (dist M a b + dist M b c) % M := by
  apply dist_eq_of_add (Nat.mod_lt _ hM)
  rw [Nat.add_mod, Nat.mod_mod, ← Nat.add_mod, ← Nat.add_assoc, Nat.add_mod,
    add_dist hM a b, ← Nat.add_mod, add_dist hM b c]

/-- Distances add exactly as long as the sum stays below one full turn. -/
theorem dist_trans (hM : 0 < M) {a b c : Nat} (h : dist M a b + dist M b c < M) :
    dist M a c = dist M a b + dist M b c := by
  rw [dist_add hM a b c, Nat.mod_eq_of_lt h]

/-- What is left of the way from `a` to `c` once `b` on it is reached. -/
theorem dist_sub (hM : 0 < M) {a b c : Nat} (h : dist M a b ≤ dist M a c) :
    dist M b c = dist M a c - dist M a b := by
  have hlt := dist_lt hM a c
  apply dist_eq_of_add (by omega)
  have hb := add_dist hM a b
  calc (b + (dist M a c - dist M a b)) % M
      = (b % M + (dist M a c - dist M a b)) % M := by rw [Nat.mod_add_mod]
    _ = (a + dist M a b + (dist M a c - dist M a b)) % M := by rw [← hb, Nat.mod_add_mod]
    _ = (a + dist M a c) % M := by congr 1; omega
    _ = c % M := add_dist hM a c

theorem dist_succ_left (hM : 0 < M) {a c : Nat} (h : 1 ≤ dist M a c) :
    dist M ((a + 1) % M) c = dist M a c - 1 := by
  have hlt := dist_lt hM a c
  apply dist_eq_of_add (by omega)
  rw [Nat.mod_add_mod, show a + 1 + (dist M a c - 1) = a + dist M a c by omega]
  exact add_dist hM a c

/-- Way there and way back are a full turn. -/
theorem dist_back (hM : 0 < M) {a b : Nat} (h : 1 ≤ dist M a b) :
    dist M b a = M - dist M a b := by
  have hlt := dist_lt hM a b
  have hTurn := dist_add hM a b a
  rw [dist_self hM] at hTurn
  have hBack := dist_lt hM b a
  by_cases hOver : dist M a b + dist M b a < M
  · rw [Nat.mod_eq_of_lt hOver] at hTurn
    omega
  · rw [Nat.mod_eq_sub_mod (Nat.not_lt.mp hOver), Nat.mod_eq_of_lt (by omega)] at hTurn
    omega

theorem dist_pos_of_ne (hM : 0 < M) {a b : Nat} (ha : a < M) (hb : b < M) (h : a ≠ b) :
    1 ≤ dist M a b := by
  by_contra hzero
  have hd : dist M a b = 0 := by omega
  have := add_dist hM a b
  rw [hd, Nat.add_zero, Nat.mod_eq_of_lt ha, Nat.mod_eq_of_lt hb] at this
  exact h this

/-- A buffer of `W` slots stays in step with the numbers when `W` divides `M`:
the slot of `b` lies `dist M a b` slots after the slot of `a`. -/
theorem mod_eq_of_dist {W : Nat} (hM : 0 < M) (hW : W ∣ M) (a b : Nat) :
    (a % W + dist M a b) % W = b % W := by
  have h := congrArg (· % W) (add_dist hM a b)
  simp only [Nat.mod_mod_of_dvd _ hW] at h
  rw [Nat.mod_add_mod, h]

/-- Numbers less than a buffer apart have slots of their own. -/
theorem mod_ne_of_dist {W : Nat} (hM : 0 < M) (hW : W ∣ M) {a b : Nat} (hPos : 1 ≤ dist M a b)
    (hLt : dist M a b < W) : a % W ≠ b % W := by
  intro hSame
  have hStep := mod_eq_of_dist hM hW a b
  rw [← hSame, Nat.mod_add_mod] at hStep
  -- a walk of less than `W` slots that comes back is no walk
  have hZero : dist M a b ≡ 0 [MOD W] := Nat.ModEq.add_left_cancel' a hStep
  have := Nat.ModEq.eq_of_lt_of_lt hZero hLt (by omega)
  omega

/-- A buffer of `W` slots is in step with the numbers only when `W` divides
`M`: otherwise the numbers wrap in the middle of a round. -/
theorem succ_in_step_iff {W : Nat} (hM : 0 < M) :
    (∀ s < M, (s + 1) % M % W = (s % W + 1) % W) ↔ W ∣ M := by
  constructor
  · intro hStep
    have hLast := hStep (M - 1) (by omega)
    rw [Nat.mod_add_mod, Nat.sub_add_cancel hM, Nat.mod_self, Nat.zero_mod] at hLast
    exact Nat.dvd_of_mod_eq_zero hLast.symm
  · intro hW s _
    rw [Nat.mod_mod_of_dvd _ hW, Nat.mod_add_mod]

/-! ## Walks -/

/-- Total forward distance along the numbers `a, l₀, l₁, …`. -/
def advance (M : Nat) : Nat → List Nat → Nat
  | _, [] => 0
  | a, b :: l => dist M a b + advance M b l

/-- A walk of less than one full turn ends as far ahead as it advanced. -/
theorem dist_of_mem_walk (hM : 0 < M) :
    ∀ (l : List Nat) (a : Nat), advance M a l < M →
      List.IsChain (fun x y => 1 ≤ dist M x y) (a :: l) →
      ∀ b ∈ l, 1 ≤ dist M a b ∧ dist M a b ≤ advance M a l := by
  intro l
  induction l with
  | nil =>
    intro a _ _ b hb
    simp at hb
  | cons c rest ih =>
    intro a hLt hChain b hb
    rw [List.isChain_cons_cons] at hChain
    rw [advance] at hLt ⊢
    rcases List.mem_cons.mp hb with rfl | hbRest
    · exact ⟨hChain.1, by omega⟩
    · obtain ⟨hpos, hle⟩ := ih c (by omega) hChain.2 b hbRest
      rw [dist_trans hM (b := c) (by omega)]
      omega

/-- **No repetition within a turn.** A walk each of whose moves goes strictly
forward and that advances by less than `M` in total visits no number twice. -/
theorem nodup_of_advance_lt (hM : 0 < M) :
    ∀ (l : List Nat) (a : Nat), advance M a l < M →
      List.IsChain (fun x y => 1 ≤ dist M x y) (a :: l) → (a :: l).Nodup := by
  intro l
  induction l with
  | nil =>
    intro a _ _
    simp
  | cons c rest ih =>
    intro a hLt hChain
    have hWalk := dist_of_mem_walk hM (c :: rest) a hLt hChain
    rw [List.isChain_cons_cons] at hChain
    rw [advance] at hLt
    refine List.nodup_cons.mpr ⟨?_, ih c (by omega) hChain.2⟩
    intro hmem
    have := (hWalk a hmem).1
    rw [dist_self hM] at this
    omega

/-! ## Gaps -/

/-- Numbers listed newest first, on the line of all numbers: the oldest stays,
and each newer one lies its distance ahead of the one before. -/
def unwrap (M : Nat) : List Nat → List Nat
  | [] => []
  | [s] => [s]
  | s :: s' :: older =>
    ((unwrap M (s' :: older)).headD 0 + dist M s' s) :: unwrap M (s' :: older)

/-- How many numbers strictly between the oldest and the newest are not listed. -/
def missing (M : Nat) (numbers : List Nat) : Nat :=
  ((Finset.Ioo ((unwrap M numbers).getLastD 0) ((unwrap M numbers).headD 0)).filter
    fun x => x ∉ unwrap M numbers).card

theorem unwrap_bounds (s : Nat) (older : List Nat) :
    (unwrap M (s :: older)).headD 0 ∈ unwrap M (s :: older) ∧
      (unwrap M (s :: older)).getLastD 0 ∈ unwrap M (s :: older) ∧
      ∀ x ∈ unwrap M (s :: older), x ≤ (unwrap M (s :: older)).headD 0 := by
  induction older generalizing s with
  | nil =>
    refine ⟨List.mem_singleton.mpr rfl, List.mem_singleton.mpr rfl, ?_⟩
    intro x hx
    exact Nat.le_of_eq (List.mem_singleton.mp hx)
  | cons s' older ih =>
    obtain ⟨-, hLast, hLe⟩ := ih s'
    refine ⟨List.mem_cons_self, ?_, ?_⟩
    · rw [unwrap, List.getLastD_cons]
      cases hLine : unwrap M (s' :: older) with
      | nil =>
        rw [hLine] at hLast
        cases hLast
      | cons y ys =>
        rw [hLine, List.getLastD_cons] at hLast
        rw [List.getLastD_cons]
        exact List.mem_cons_of_mem _ hLast
    · intro x hx
      rcases List.mem_cons.mp hx with rfl | hOlder
      · exact Nat.le_refl _
      · exact (hLe x hOlder).trans (Nat.le_add_right _ _)

theorem missing_singleton (s : Nat) : missing M [s] = 0 := by
  show ((Finset.Ioo s s).filter fun x => x ∉ unwrap M [s]).card = 0
  rw [Finset.Ioo_self]
  rfl

/-- A number `d` ahead of the newest leaves `d - 1` numbers out. -/
theorem missing_cons {s s' : Nat} {older : List Nat} (hAhead : 1 ≤ dist M s' s) :
    missing M (s :: s' :: older) = dist M s' s - 1 + missing M (s' :: older) := by
  obtain ⟨hHead, hLastMem, hLe⟩ := @unwrap_bounds M s' older
  have hLast : (unwrap M (s :: s' :: older)).getLastD 0 = (unwrap M (s' :: older)).getLastD 0 := by
    rw [unwrap, List.getLastD_cons]
    cases hLine : unwrap M (s' :: older) with
    | nil =>
      rw [hLine] at hHead
      cases hHead
    | cons y ys => rw [List.getLastD_cons, List.getLastD_cons]
  have hFirst := hLe _ hLastMem
  unfold missing
  rw [hLast]
  show (Finset.filter (fun x => x ∉ _ :: unwrap M (s' :: older)) (Finset.Ioo _
    ((unwrap M (s' :: older)).headD 0 + dist M s' s))).card = _
  generalize unwrap M (s' :: older) = line at *
  generalize line.getLastD 0 = low at *
  generalize line.headD 0 = high at *
  generalize dist M s' s = d at *
  -- the new numbers lie beyond the line, the others were missing before
  have hSplit : (Finset.Ioo low (high + d)).filter (fun x => x ∉ (high + d) :: line) =
      (Finset.Ioo high (high + d)).disjUnion ((Finset.Ioo low high).filter fun x => x ∉ line) (by
        rw [Finset.disjoint_left]
        intro x hx hx'
        have := (Finset.mem_Ioo.mp hx).1
        have := (Finset.mem_Ioo.mp (Finset.mem_filter.mp hx').1).2
        omega) := by
    ext x
    rw [Finset.mem_filter, Finset.mem_disjUnion, Finset.mem_filter, Finset.mem_Ioo, Finset.mem_Ioo,
      Finset.mem_Ioo, List.mem_cons, not_or]
    constructor
    · rintro ⟨⟨hLow, hHigh⟩, -, hNot⟩
      rcases Nat.lt_trichotomy x high with hLt | rfl | hGt
      · exact .inr ⟨⟨hLow, hLt⟩, hNot⟩
      · exact absurd hHead hNot
      · exact .inl ⟨hGt, hHigh⟩
    · rintro (⟨hGt, hHigh⟩ | ⟨⟨hLow, hLt⟩, hNot⟩)
      · refine ⟨⟨by omega, hHigh⟩, by omega, ?_⟩
        intro hMem
        have := hLe x hMem
        omega
      · exact ⟨⟨hLow, by omega⟩, by omega, hNot⟩
  rw [hSplit, Finset.card_disjUnion, Nat.card_Ioo]
  omega

/-! ## Gaps between arrivals -/

/-- The numbers between the least and the greatest of a list that are not in it. -/
def neverArrived (numbers : List Nat) : Nat :=
  ((Finset.range (numbers.foldr max 0)).filter fun x => x ∉ numbers ∧ ∃ y ∈ numbers, y < x).card

/-- What each number skips modulo `M`, taken from the one before it alone. -/
def skipped (M : Nat) : List Nat → Nat
  | [] => 0
  | [_] => 0
  | a :: b :: rest => dist M (a + 1) b + skipped M (b :: rest)

theorem skipped_append (front : List Nat) (a b : Nat) :
    skipped M (front ++ [a, b]) = skipped M (front ++ [a]) + dist M (a + 1) b := by
  induction front with
  | nil => simp [skipped]
  | cons c front ih =>
    cases front with
    | nil => simp [skipped]
    | cons d front =>
      show dist M (c + 1) d + _ = dist M (c + 1) d + _ + _
      rw [Nat.add_assoc]
      exact congrArg (dist M (c + 1) d + ·) ih

theorem dist_succ_of_lt {a b : Nat} (hLt : a < b) (hB : b < M) : dist M (a + 1) b = b - a - 1 :=
  dist_eq_of_add (by omega) (congrArg (· % M) (by omega))

/-- A step back is almost a full turn. -/
theorem dist_succ_of_ge {a b : Nat} (hGe : b ≤ a) (hA : a < M) :
    dist M (a + 1) b = M - 1 - (a - b) := by
  refine dist_eq_of_add (by omega) ?_
  rw [show a + 1 + (M - 1 - (a - b)) = b + M by omega, Nat.add_mod_right]

theorem le_foldr_max {numbers : List Nat} {x : Nat} (h : x ∈ numbers) :
    x ≤ numbers.foldr max 0 :=
  List.le_max_of_le h le_rfl

theorem neverArrived_lt {numbers : List Nat} {bound : Nat} (hPos : 0 < bound)
    (h : ∀ x ∈ numbers, x < bound) : neverArrived numbers < bound := by
  have hTop : numbers.foldr max 0 ≤ bound - 1 :=
    List.max_le_of_forall_le numbers _ fun x hx => Nat.le_sub_one_of_lt (h x hx)
  have hCard := Finset.card_filter_le (Finset.range (numbers.foldr max 0))
    (fun x => x ∉ numbers ∧ ∃ y ∈ numbers, y < x)
  rw [Finset.card_range] at hCard
  exact Nat.lt_of_le_of_lt (hCard.trans hTop) (Nat.sub_one_lt_of_lt hPos)

/-- Before an increasing list, a smaller number leaves out those in between. -/
theorem neverArrived_cons {a b : Nat} {rest : List Nat}
    (hSorted : (a :: b :: rest).Pairwise (· < ·)) :
    neverArrived (a :: b :: rest) = (b - a - 1) + neverArrived (b :: rest) := by
  obtain ⟨hFirst, hRest⟩ := List.pairwise_cons.mp hSorted
  have hAB : a < b := hFirst b List.mem_cons_self
  have hB : ∀ y ∈ b :: rest, b ≤ y := by
    intro y hy
    rcases List.mem_cons.mp hy with rfl | hy
    · exact Nat.le_refl _
    · exact Nat.le_of_lt ((List.pairwise_cons.mp hRest).1 y hy)
  have hMax : (a :: b :: rest).foldr max 0 = (b :: rest).foldr max 0 :=
    Nat.max_eq_right (hAB.le.trans (le_foldr_max List.mem_cons_self))
  have hTop : b ≤ (b :: rest).foldr max 0 := le_foldr_max List.mem_cons_self
  unfold neverArrived
  rw [hMax]
  generalize (b :: rest).foldr max 0 = top at *
  -- those between the two, and those missing before
  have hSplit : (Finset.range top).filter
      (fun x => x ∉ a :: b :: rest ∧ ∃ y ∈ a :: b :: rest, y < x) =
        (Finset.Ioo a b).disjUnion
          ((Finset.range top).filter fun x => x ∉ b :: rest ∧ ∃ y ∈ b :: rest, y < x) (by
            rw [Finset.disjoint_left]
            intro x hx hx'
            obtain ⟨-, -, y, hy, hyx⟩ := Finset.mem_filter.mp hx'
            have := hB y hy
            have := (Finset.mem_Ioo.mp hx).2
            omega) := by
    ext x
    rw [Finset.mem_filter, Finset.mem_disjUnion, Finset.mem_filter, Finset.mem_range,
      Finset.mem_Ioo]
    constructor
    · rintro ⟨hTop', hNot, y, hy, hyx⟩
      have hNotRest : x ∉ b :: rest := fun hx => hNot (List.mem_cons_of_mem a hx)
      rcases Nat.lt_trichotomy x b with hLt | rfl | hGt
      · refine .inl ⟨?_, hLt⟩
        rcases List.mem_cons.mp hy with rfl | hy
        · exact hyx
        · have := hB y hy
          omega
      · exact absurd List.mem_cons_self hNotRest
      · exact .inr ⟨hTop', hNotRest, b, List.mem_cons_self, hGt⟩
    · rintro (⟨hA, hLt⟩ | ⟨hTop', hNot, y, hy, hyx⟩)
      · refine ⟨by omega, ?_, a, List.mem_cons_self, hA⟩
        intro hx
        rcases List.mem_cons.mp hx with rfl | hx
        · omega
        · have := hB x hx
          omega
      · refine ⟨hTop', ?_, y, List.mem_cons_of_mem a hy, hyx⟩
        intro hx
        rcases List.mem_cons.mp hx with rfl | hx
        · have := hB y hy
          omega
        · exact hNot hx
  rw [hSplit, Finset.card_disjUnion, Nat.card_Ioo]

/-- In an increasing list, nothing is skipped but what never arrives. -/
theorem skipped_of_increasing {numbers : List Nat} (hSorted : numbers.Pairwise (· < ·))
    (hBelow : ∀ x ∈ numbers, x < M) : skipped M numbers = neverArrived numbers := by
  induction numbers with
  | nil => rfl
  | cons a rest ih =>
    cases rest with
    | nil =>
      have hNone : neverArrived [a] = 0 := by
        refine Finset.card_eq_zero.mpr (Finset.filter_eq_empty_iff.mpr fun x hx => ?_)
        rintro ⟨-, y, hy, hyx⟩
        have hTop : x < a := by simpa using hx
        obtain rfl : y = a := by simpa using hy
        omega
      exact hNone.symm
    | cons b rest =>
      have hLt : a < b := (List.pairwise_cons.mp hSorted).1 b List.mem_cons_self
      have hB : b < M := hBelow b (List.mem_cons_of_mem a List.mem_cons_self)
      rw [skipped, neverArrived_cons hSorted, dist_succ_of_lt hLt hB,
        ih (List.pairwise_cons.mp hSorted).2 fun x hx => hBelow x (List.mem_cons_of_mem a hx)]

/-- So it is in an increasing list of any length whose gaps are less than a turn. -/
theorem skipped_of_gaps {numbers : List Nat} (hSorted : numbers.Pairwise (· < ·))
    (hGaps : numbers.IsChain fun a b => b ≤ a + M) : skipped M numbers = neverArrived numbers := by
  induction numbers with
  | nil => rfl
  | cons a rest ih =>
    cases rest with
    | nil => exact skipped_of_increasing (M := a + 1) hSorted (by simp)
    | cons b rest =>
      have hLt : a < b := (List.pairwise_cons.mp hSorted).1 b List.mem_cons_self
      obtain ⟨hGap, hRest⟩ := List.isChain_cons_cons.mp hGaps
      -- the gap to the next number does not wrap
      have hStep : dist M (a + 1) b = b - a - 1 :=
        dist_eq_of_add (by omega) (congrArg (· % M) (by omega))
      rw [skipped, neverArrived_cons hSorted, hStep, ih (List.pairwise_cons.mp hSorted).2 hRest]

end SerialNumber
