import Mathlib.Data.Finset.Insert
import RivermaxDevKit.Services.Affinity

/-!
# CPU affinity on Linux

The editor of `linux/rivermax_os_affinity.cpp` fills a CPU set and hands it to the
system in one call.

* `LinuxAffinity.setMask_cases` — the set that is handed over, or why there is none.
-/

namespace RivermaxDevKit

/-! ## The editor -/

/-- The processors `CPU_SET` knows of. -/
def CPU_SETSIZE : Nat := 1024

/-- The C library and the kernel: `CPU_ALLOC`, and the status of a call. -/
structure LinuxApi where
  cpuAlloc : Bool
  setAffinityNp : Finset Nat → Int

structure LinuxEditor where
  cpuSet : Finset Nat := ∅
  calls : List (Finset Nat) := []

namespace LinuxAffinity

variable (RMAX_CPU_SETSIZE : Nat) (api : LinuxApi)

/-- `CPU_SET` passes over a processor it does not know. -/
def cpuSet (processor : Nat) (set : Finset Nat) : Finset Nat :=
  if processor < CPU_SETSIZE then insert processor set else set

def set (e : LinuxEditor) (processor : Nat) :
    Except (AffinityError × List (Finset Nat)) LinuxEditor :=
  if processor ≥ RMAX_CPU_SETSIZE then .error (.illegalCore processor, e.calls)
  else .ok { e with cpuSet := cpuSet processor e.cpuSet }

def apply (e : LinuxEditor) : Except (AffinityError × List (Finset Nat)) LinuxEditor :=
  let calls := e.calls ++ [e.cpuSet]
  if api.setAffinityNp e.cpuSet ≠ 0 then
    .error (.setAffinityNp (api.setAffinityNp e.cpuSet), calls)
  else .ok { e with calls := calls }

def editor : Except (AffinityError × List (Finset Nat)) LinuxEditor :=
  if api.cpuAlloc then .ok {} else .error (.cpuAlloc RMAX_CPU_SETSIZE, [])

/-- `Affinity::set` of a CPU mask. -/
def setMask {w : Nat} (cpuMask : List (BitVec w)) :
    Except (AffinityError × List (Finset Nat)) LinuxEditor := do
  let e ← editor RMAX_CPU_SETSIZE api
  let e ← fillWith (set RMAX_CPU_SETSIZE) (fun e => (.allZeros, e.calls)) cpuMask e
  apply api e

def callsOf : Except (AffinityError × List (Finset Nat)) LinuxEditor → List (Finset Nat)
  | .ok e => e.calls
  | .error (_, calls) => calls

end LinuxAffinity

/-! ## The set that is filled -/

namespace LinuxAffinity

variable {w RMAX_CPU_SETSIZE : Nat} {api : LinuxApi}

/-- The CPU set behind the processors below `b`. -/
structure Filled (RMAX_CPU_SETSIZE : Nat) (chosen : Nat → Bool) (b : Nat)
    (s : LinuxEditor × Nat) : Prop where
  mem_iff : ∀ p, p ∈ s.1.cpuSet ↔ p < b ∧ chosen p = true
  lt : ∀ p < b, chosen p = true → p < RMAX_CPU_SETSIZE
  calls_eq : s.1.calls = []
  count_iff : s.2 = 0 ↔ ∀ p < b, chosen p = false

theorem Filled.skip {chosen : Nat → Bool} {b : Nat} {s : LinuxEditor × Nat}
    (h : Filled RMAX_CPU_SETSIZE chosen b s) (hSkip : chosen b = false) :
    Filled RMAX_CPU_SETSIZE chosen (b + 1) s := by
  have hBelow : ∀ p, chosen p = true → (p < b + 1 ↔ p < b) := by
    intro p hChosen
    have hNe : p ≠ b := by
      rintro rfl
      rw [hSkip] at hChosen
      cases hChosen
    omega
  refine ⟨fun p => (h.mem_iff p).trans (and_congr_left fun hChosen => (hBelow p hChosen).symm),
    fun p hp hChosen => h.lt p ((hBelow p hChosen).mp hp) hChosen, h.calls_eq,
    h.count_iff.trans ⟨fun hNone p hp => ?_, fun hNone p hp => hNone p (Nat.lt_succ_of_lt hp)⟩⟩
  rcases Nat.lt_succ_iff_lt_or_eq.mp hp with hLt | rfl
  · exact hNone p hLt
  · exact hSkip

/-- A visit of a chosen processor fills in its bit, or finds that it is illegal. -/
theorem Filled.set (hSize : RMAX_CPU_SETSIZE ≤ CPU_SETSIZE) {chosen : Nat → Bool} {b : Nat}
    {s : LinuxEditor × Nat} (h : Filled RMAX_CPU_SETSIZE chosen b s)
    (hChosen : chosen b = true) :
    (∃ e, LinuxAffinity.set RMAX_CPU_SETSIZE s.1 b = .ok e ∧
        Filled RMAX_CPU_SETSIZE chosen (b + 1) (e, s.2 + 1)) ∨
      ∃ stop, LinuxAffinity.set RMAX_CPU_SETSIZE s.1 b = .error stop ∧
        stop.2 = [] ∧ ∃ p, chosen p = true ∧ RMAX_CPU_SETSIZE ≤ p := by
  unfold LinuxAffinity.set
  by_cases hIllegal : b ≥ RMAX_CPU_SETSIZE
  · rw [if_pos hIllegal]
    exact .inr ⟨_, rfl, h.calls_eq, b, hChosen, hIllegal⟩
  rw [if_neg hIllegal]
  have hLegal : b < RMAX_CPU_SETSIZE := not_le.mp hIllegal
  have hInsert : cpuSet b s.1.cpuSet = insert b s.1.cpuSet := if_pos (hLegal.trans_le hSize)
  rw [hInsert]
  refine .inl ⟨_, rfl, fun p => ?_, fun p hp hp' => ?_, h.calls_eq, ?_⟩
  · rw [Finset.mem_insert, h.mem_iff]
    constructor
    · rintro (rfl | ⟨hp, hp'⟩)
      · exact ⟨Nat.lt_succ_self p, hChosen⟩
      · exact ⟨Nat.lt_succ_of_lt hp, hp'⟩
    · rintro ⟨hp, hp'⟩
      rcases Nat.lt_succ_iff_lt_or_eq.mp hp with hLt | rfl
      · exact .inr ⟨hLt, hp'⟩
      · exact .inl rfl
  · rcases Nat.lt_succ_iff_lt_or_eq.mp hp with hLt | rfl
    · exact h.lt p hLt hp'
    · exact hLegal
  · refine iff_of_false (Nat.succ_ne_zero _) fun hNone => ?_
    rw [hNone b (Nat.lt_succ_self b)] at hChosen
    cases hChosen

/-- A request is rejected before the system is called, or hands it the selected
processors. -/
theorem setMask_cases (hSize : RMAX_CPU_SETSIZE ≤ CPU_SETSIZE) (api : LinuxApi)
    (cpuMask : List (BitVec w)) :
    (callsOf (setMask RMAX_CPU_SETSIZE api cpuMask) = [] ∧
        (api.cpuAlloc = false ∨ (∀ p, selects cpuMask p = false) ∨
          ∃ p, selects cpuMask p = true ∧ RMAX_CPU_SETSIZE ≤ p)) ∨
      ∃ set, callsOf (setMask RMAX_CPU_SETSIZE api cpuMask) = [set] ∧
        (∀ p, p ∈ set ↔ selects cpuMask p = true) ∧
        ¬ (∀ p, selects cpuMask p = false) ∧
        ∀ p, selects cpuMask p = true → p < RMAX_CPU_SETSIZE := by
  unfold setMask editor
  cases hAlloc : api.cpuAlloc with
  | false => exact .inl ⟨rfl, .inl rfl⟩
  | true =>
    have hVisit := visit_rule (Filled RMAX_CPU_SETSIZE (selects cpuMask))
      (fun stop : AffinityError × List (Finset Nat) =>
        stop.2 = [] ∧ ∃ p, selects cpuMask p = true ∧ RMAX_CPU_SETSIZE ≤ p)
      (fun _ _ hSkip h => h.skip hSkip) (fun _ _ hChosen h => h.set hSize hChosen)
      (cpuMask.length * w) (b := 0) (s := ({}, 0))
      ⟨fun p => by simp, fun p hp => absurd hp (Nat.not_lt_zero p), rfl,
        iff_of_true rfl fun p hp => absurd hp (Nat.not_lt_zero p)⟩
    rw [Nat.zero_add] at hVisit
    show (callsOf (fillWith _ _ cpuMask _ >>= _) = [] ∧ _) ∨
      ∃ set, callsOf (fillWith _ _ cpuMask _ >>= _) = _ ∧ _
    rw [fillWith_eq]
    rcases hVisit with ⟨s, hOk, hFilled⟩ | ⟨stop, hError, hCalls, hIllegal⟩
    · rw [hOk]
      show (callsOf ((if s.2 = 0 then _ else _) >>= _) = [] ∧ _) ∨
        ∃ set, callsOf ((if s.2 = 0 then _ else _) >>= _) = _ ∧ _
      by_cases hZero : s.2 = 0
      · rw [if_pos hZero]
        refine .inl ⟨hFilled.calls_eq, .inr (.inl fun p => ?_)⟩
        rw [Bool.eq_false_iff]
        intro hChosen
        have hNot := hFilled.count_iff.mp hZero p (lt_of_selects hChosen)
        rw [hNot] at hChosen
        cases hChosen
      · rw [if_neg hZero]
        refine .inr ⟨s.1.cpuSet, ?_, fun p => (hFilled.mem_iff p).trans
          (and_iff_right_of_imp lt_of_selects),
          fun hNone => hZero (hFilled.count_iff.mpr fun p _ => hNone p),
          fun p hChosen => hFilled.lt p (lt_of_selects hChosen) hChosen⟩
        -- the call is made, whatever its status
        show callsOf (apply api s.1) = [s.1.cpuSet]
        unfold apply
        rw [hFilled.calls_eq]
        dsimp only
        split <;> rfl
    · rw [hError]
      exact .inl ⟨hCalls, .inr (.inr hIllegal)⟩

end LinuxAffinity

end RivermaxDevKit
