import Mathlib.Algebra.Order.Ring.Nat
import Mathlib.Data.List.Basic
import Mathlib.Tactic.Common

/-!
# CPU affinity

`Affinity::set` (`rivermax_affinity.cpp`) scans a CPU mask and gives each selected
processor to the editor of the operating system.

* `visit_rule` — what a visit of one processor after the other keeps.
* `fillWith_eq` — the scan visits the selected processors in order.

A word of a mask has `w` bits, which Rivermax chooses.
-/

namespace RivermaxDevKit

inductive AffinityError
  | nonExistingCore (processor : Nat)
  | outOfOrder (processor : Nat)
  | setThreadGroupAffinity (status : Nat)
  | allZeros
  | cpuAlloc (count : Nat)
  | illegalCore (processor : Nat)
  | setAffinityNp (status : Int)
  deriving DecidableEq, Repr

/-! ## Scan of a mask -/

section Scan

variable {σ ε : Type} {w : Nat} (set : σ → Nat → Except ε σ)

/-- The loop over the bits of an entry, of at most `fuel` turns, behind which the
bit has left the word. -/
def scanBits (entry : BitVec w) : (fuel : Nat) → (mask : BitVec w) → (processor count : Nat) →
    σ → Except ε (σ × Nat × Nat)
  | 0, _, processor, count, editor => .ok (editor, processor, count)
  | fuel + 1, mask, processor, count, editor =>
    if mask = 0 then .ok (editor, processor, count)
    else if entry &&& mask ≠ 0 then do
      let editor ← set editor processor
      scanBits entry fuel (mask <<< 1) (processor + 1) (count + 1) editor
    else scanBits entry fuel (mask <<< 1) (processor + 1) count editor

/-- The loop over the entries. -/
def scanEntries : List (BitVec w) → (processor count : Nat) → σ → Except ε (σ × Nat)
  | [], _, count, editor => .ok (editor, count)
  | entry :: entries, processor, count, editor =>
    if entry = 0 then scanEntries entries (processor + w) count editor
    else do
      let (editor, processor, count) ← scanBits set entry w 1 processor count editor
      scanEntries entries processor count editor

/-- `Affinity::fill_with`. -/
def fillWith (allZeros : σ → ε) (cpuMask : List (BitVec w)) (editor : σ) : Except ε σ := do
  let (editor, count) ← scanEntries set cpuMask 0 0 editor
  if count = 0 then .error (allZeros editor) else .ok editor

end Scan

/-- The processors a CPU mask selects. -/
def selects {w : Nat} (cpuMask : List (BitVec w)) (processor : Nat) : Bool :=
  match cpuMask[processor / w]? with
  | none => false
  | some entry => entry.getLsbD (processor % w)

/-! ## The scan visits the selected processors -/

section Scan

variable {σ ε : Type} {w : Nat} {set : σ → Nat → Except ε σ}

/-- The chosen ones of `n` processors from `b` on are set, and counted. -/
def visit (set : σ → Nat → Except ε σ) (chosen : Nat → Bool) :
    (n b : Nat) → σ × Nat → Except ε (σ × Nat)
  | 0, _, s => .ok s
  | n + 1, b, s =>
    if chosen b then do
      let editor ← set s.1 b
      visit set chosen n (b + 1) (editor, s.2 + 1)
    else visit set chosen n (b + 1) s

theorem visit_add (chosen : Nat → Bool) (m n b : Nat) (s : σ × Nat) :
    visit set chosen (m + n) b s = (visit set chosen m b s >>= visit set chosen n (b + m)) := by
  induction m generalizing b s with
  | zero => rw [Nat.zero_add]; rfl
  | succ m ih =>
    rw [Nat.succ_add, visit, visit]
    split
    · cases set s.1 b with
      | error e => rfl
      | ok editor =>
        show visit set chosen (m + n) (b + 1) (editor, s.2 + 1) = _
        rw [ih, Nat.add_assoc, Nat.add_comm 1]
        rfl
    · rw [ih, Nat.add_assoc, Nat.add_comm 1]

theorem visit_of_none {chosen : Nat → Bool} {n b : Nat}
    (h : ∀ i < n, chosen (b + i) = false) (s : σ × Nat) : visit set chosen n b s = .ok s := by
  induction n generalizing b with
  | zero => rfl
  | succ n ih =>
    have hHere : chosen b = false := h 0 (Nat.succ_pos n)
    rw [visit, hHere, if_neg (by simp)]
    refine ih fun i hi => ?_
    rw [Nat.add_assoc, Nat.add_comm 1]
    exact h (i + 1) (by omega)

/-- What holds before and behind each visit holds at the end, or a visit fails. -/
theorem visit_rule {chosen : Nat → Bool} (I : Nat → σ × Nat → Prop) (R : ε → Prop)
    (hSkip : ∀ b s, chosen b = false → I b s → I (b + 1) s)
    (hSet : ∀ b s, chosen b = true → I b s →
      (∃ editor, set s.1 b = .ok editor ∧ I (b + 1) (editor, s.2 + 1)) ∨
        ∃ e, set s.1 b = .error e ∧ R e)
    (n : Nat) {b : Nat} {s : σ × Nat} (h : I b s) :
    (∃ s', visit set chosen n b s = .ok s' ∧ I (b + n) s') ∨
      ∃ e, visit set chosen n b s = .error e ∧ R e := by
  induction n generalizing b s with
  | zero => exact .inl ⟨s, rfl, h⟩
  | succ n ih =>
    rw [visit, show b + (n + 1) = b + 1 + n by omega]
    cases hChosen : chosen b with
    | false => exact ih (hSkip b s hChosen h)
    | true =>
      rw [if_pos rfl]
      rcases hSet b s hChosen h with ⟨editor, hOk, hNext⟩ | ⟨e, hError, hWhy⟩
      · rw [hOk]
        exact ih hNext
      · rw [hError]
        exact .inr ⟨e, rfl, hWhy⟩

theorem and_twoPow_eq_zero_iff {v : BitVec w} {j : Nat} (hj : j < w) :
    v &&& BitVec.twoPow w j = 0 ↔ v.getLsbD j = false := by
  have hBit : (BitVec.twoPow w j).getLsbD j = true := by
    rw [BitVec.getLsbD_twoPow]
    simp [hj]
  rw [BitVec.and_twoPow]
  cases hv : v.getLsbD j with
  | false => simp
  | true =>
    rw [if_pos rfl]
    refine iff_of_false (fun hZero => ?_) (by simp)
    rw [hZero] at hBit
    simp at hBit

theorem twoPow_ne_zero {j : Nat} (hj : j < w) : BitVec.twoPow w j ≠ 0 := by
  intro hZero
  have hBit := BitVec.getLsbD_twoPow (w := w) j j
  rw [hZero] at hBit
  simp [hj] at hBit

theorem twoPow_shiftLeft_one (j : Nat) :
    BitVec.twoPow w j <<< 1 = BitVec.twoPow w (j + 1) := by
  rw [BitVec.twoPow_eq, BitVec.twoPow_eq, BitVec.shiftLeft_add]

/-- From bit `j` on, `n` bits are left. -/
theorem scanBits_eq {entry : BitVec w} {chosen : Nat → Bool} {n j : Nat} (hj : j + n = w)
    {processor : Nat} (hChosen : ∀ i < n, chosen (processor + i) = entry.getLsbD (j + i))
    (count : Nat) (editor : σ) :
    scanBits set entry n (BitVec.twoPow w j) processor count editor =
      (visit set chosen n processor (editor, count)).map
        fun s => (s.1, processor + n, s.2) := by
  induction n generalizing j processor count editor with
  | zero => rfl
  | succ n ih =>
    have hLt : j < w := by omega
    have hHere : chosen processor = entry.getLsbD j := hChosen 0 (Nat.succ_pos n)
    have hRest : ∀ i < n, chosen (processor + 1 + i) = entry.getLsbD (j + 1 + i) := by
      intro i hi
      rw [Nat.add_assoc, Nat.add_assoc, Nat.add_comm 1]
      exact hChosen (i + 1) (by omega)
    rw [scanBits, if_neg (twoPow_ne_zero hLt), twoPow_shiftLeft_one, visit, hHere]
    cases hBit : entry.getLsbD j with
    | false =>
      rw [if_neg (not_not.mpr ((and_twoPow_eq_zero_iff hLt).mpr hBit)), if_neg (by simp),
        ih (by omega) hRest, Nat.add_assoc, Nat.add_comm 1]
    | true =>
      rw [if_pos (by rw [ne_eq, and_twoPow_eq_zero_iff hLt, hBit]; simp), if_pos rfl]
      cases set editor processor with
      | error e => rfl
      | ok next =>
        show scanBits set entry n (BitVec.twoPow w (j + 1)) (processor + 1) (count + 1) next = _
        rw [ih (by omega) hRest, Nat.add_assoc, Nat.add_comm 1]
        rfl

/-- The entries from one on give the processors from its first one on. -/
theorem scanEntries_eq {cpuMask : List (BitVec w)} (entries : List (BitVec w)) :
    ∀ (before : List (BitVec w)), cpuMask = before ++ entries → ∀ (count : Nat) (editor : σ),
      scanEntries set entries (before.length * w) count editor =
        visit set (selects cpuMask) (entries.length * w) (before.length * w) (editor, count) := by
  induction entries with
  | nil =>
    intro before _ count editor
    rw [List.length_nil, Nat.zero_mul]
    rfl
  | cons entry entries ih =>
    intro before hMask count editor
    have hNext := ih (before ++ [entry]) (by rw [hMask, List.append_assoc]; rfl)
    rw [List.length_append, List.length_singleton, Nat.succ_mul] at hNext
    -- the bits of the entry are those of its processors
    have hSelects : ∀ i < w, selects cpuMask (before.length * w + i) = entry.getLsbD i := by
      intro i hi
      have hDiv : (before.length * w + i) / w = before.length := by
        rw [Nat.mul_comm, Nat.mul_add_div (by omega), Nat.div_eq_of_lt hi, Nat.add_zero]
      have hMod : (before.length * w + i) % w = i := by
        rw [Nat.mul_comm, Nat.mul_add_mod, Nat.mod_eq_of_lt hi]
      have hEntry : cpuMask[before.length]? = some entry := by
        rw [hMask, List.getElem?_append_right le_rfl, Nat.sub_self]
        rfl
      rw [selects, hDiv, hMod, hEntry]
    rw [scanEntries, List.length_cons, Nat.succ_mul, Nat.add_comm (entries.length * w) w, visit_add]
    by_cases hZero : entry = 0
    · rw [if_pos hZero, hNext]
      have hNone : visit set (selects cpuMask) w (before.length * w) (editor, count) =
          .ok (editor, count) :=
        visit_of_none (fun i hi => by rw [hSelects i hi, hZero]; simp) _
      rw [hNone]
      rfl
    · rw [if_neg hZero]
      have hBits : scanBits set entry w (BitVec.twoPow w 0) (before.length * w) count editor =
          (visit set (selects cpuMask) w (before.length * w) (editor, count)).map
            fun s => (s.1, before.length * w + w, s.2) :=
        scanBits_eq (Nat.zero_add w) (fun i hi => by rw [hSelects i hi, Nat.zero_add]) count editor
      have hOne : BitVec.twoPow w 0 = 1 := by
        rw [BitVec.twoPow_eq, BitVec.shiftLeft_zero]
        rfl
      rw [hOne] at hBits
      rw [hBits]
      cases visit set (selects cpuMask) w (before.length * w) (editor, count) with
      | error e => rfl
      | ok s => exact hNext s.2 s.1

/-- The scan of a mask visits the processors it selects, and wants one at least. -/
theorem fillWith_eq (allZeros : σ → ε) (cpuMask : List (BitVec w)) (editor : σ) :
    fillWith set allZeros cpuMask editor = (do
      let s ← visit set (selects cpuMask) (cpuMask.length * w) 0 (editor, 0)
      if s.2 = 0 then .error (allZeros s.1) else .ok s.1) := by
  have hScan : scanEntries set cpuMask (([] : List (BitVec w)).length * w) 0 editor = _ :=
    scanEntries_eq cpuMask [] rfl 0 editor
  rw [List.length_nil, Nat.zero_mul] at hScan
  rw [fillWith, hScan]
  rfl

/-- No processor is selected behind the mask. -/
theorem lt_of_selects {cpuMask : List (BitVec w)} {processor : Nat}
    (h : selects cpuMask processor = true) : processor < cpuMask.length * w := by
  unfold selects at h
  split at h
  · cases h
  · rename_i entry hEntry
    have hBit := BitVec.lt_of_getLsbD h
    have hIndex := (List.getElem?_eq_some_iff.mp hEntry).1
    exact Nat.lt_mul_of_div_lt hIndex (by omega)

end Scan

end RivermaxDevKit
