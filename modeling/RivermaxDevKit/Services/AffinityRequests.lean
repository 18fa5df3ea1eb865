import RivermaxDevKit.Services.LinuxAffinity
import RivermaxDevKit.Services.WindowsAffinity

/-!
# CPU affinity — whole requests

`Affinity::set` (`rivermax_affinity.cpp`) with either editor.

* `affinity_exact` — the calls that are made for existing processors.
* `clean_iff` — when a request that is rejected was not begun.
-/

namespace RivermaxDevKit

/-! ## Masks and calls -/

/-- **Affinity masks are translated exactly.** For processors that exist, the calls
for the groups are attempted in order, each with the bits of its processors, and
all are made if the system grants them. The CPU set of Linux holds the processors. -/
theorem affinity_exact {w : Nat} (a : WindowsAffinity) (os : List GroupAffinity → Nat)
    {RMAX_CPU_SETSIZE : Nat} (hSize : RMAX_CPU_SETSIZE ≤ CPU_SETSIZE) (api : LinuxApi)
    (cpuMask : List (BitVec w)) (hSome : ∃ p, selects cpuMask p = true) :
    ((∀ p, selects cpuMask p = true → p < a.countCores) →
        callsOf (a.setMask os cpuMask) = attempted os [] (a.dueCalls (selects cpuMask)) ∧
        (∀ calls, a.setMask os cpuMask ≠ .error (.endlessLoop calls)) ∧
        ((∀ calls, os calls = 0) → ∃ e, a.setMask os cpuMask = .ok e ∧
          e.calls = a.dueCalls (selects cpuMask))) ∧
      (∀ set ∈ LinuxAffinity.callsOf (LinuxAffinity.setMask RMAX_CPU_SETSIZE api cpuMask),
        ∀ p, p ∈ set ↔ selects cpuMask p = true) ∧
      (api.cpuAlloc = true → (∀ p, selects cpuMask p = true → p < RMAX_CPU_SETSIZE) →
        (LinuxAffinity.callsOf
          (LinuxAffinity.setMask RMAX_CPU_SETSIZE api cpuMask)).length = 1) := by
  refine ⟨fun hExisting => ?_, ?_⟩
  · rcases a.scan os cpuMask with ⟨hNone, -⟩ | ⟨-, ⟨⟨e, hOk, hCalls⟩, -, hAccepted⟩ |
      ⟨stop, hError, hRefused | ⟨p, hChosen, hMissing, -⟩⟩⟩
    · obtain ⟨p, hChosen⟩ := hSome
      rw [hNone p] at hChosen
      cases hChosen
    · refine ⟨?_, fun calls hEndless => ?_, fun _ => ⟨e, hOk, hCalls⟩⟩
      · have hAll := hAccepted.attempted_append []
        rw [List.append_nil] at hAll
        rw [hOk, hAll]
        exact hCalls
      · rw [hOk] at hEndless
        cases hEndless
    · obtain ⟨status, calls, rfl, hAttempted⟩ := hRefused.attempted_eq
      refine ⟨?_, fun calls hEndless => ?_, fun hGrants => ?_⟩
      · rw [hError, hAttempted]
        rfl
      · rw [hError] at hEndless
        cases hEndless
      · exact absurd (fun made _ _ => hGrants made) hRefused.not_accepted
    · exact absurd (hExisting p hChosen) (not_lt.mpr hMissing)
  · rcases LinuxAffinity.setMask_cases hSize api cpuMask with
      ⟨hNone, hWhy⟩ | ⟨set, hSet, hMem, -⟩
    · rw [hNone]
      refine ⟨by simp, fun hAlloc hLegal => ?_⟩
      -- there is no reason to reject the request
      rcases hWhy with hNot | hEmpty | ⟨p, hChosen, hIllegal⟩
      · rw [hAlloc] at hNot
        cases hNot
      · obtain ⟨p, hChosen⟩ := hSome
        rw [hEmpty p] at hChosen
        cases hChosen
      · exact absurd (hLegal p hChosen) (not_lt.mpr hIllegal)
    · rw [hSet]
      exact ⟨by simpa using hMem, fun _ _ => rfl⟩

/-- Groups of three and of two processors, with bits between them that are not active. -/
def fiveProcessors : WindowsAffinity where
  groupInfo := [⟨3, 0b1011⟩, ⟨2, 0b110⟩]
  nonempty := by decide
  length_lt := by decide
  count_eq := by decide

/-- Processors 1, 2 and 4, in two words of three bits. -/
theorem affinity_exact_fiveProcessors :
    callsOf (fiveProcessors.setMask (fun _ => 0) [(0b110 : BitVec 3), 0b010]) =
        [⟨0b1010, 0⟩, ⟨0b100, 1⟩] ∧
      (∃ e, fiveProcessors.setMask (fun _ => 0) [(0b110 : BitVec 3), 0b010] = .ok e ∧
        e.calls = [⟨0b1010, 0⟩, ⟨0b100, 1⟩]) ∧
      (∀ set ∈ LinuxAffinity.callsOf (LinuxAffinity.setMask 1024 ⟨true, fun _ => 0⟩
          [(0b110 : BitVec 3), 0b010]),
        ∀ p, p ∈ set ↔ selects [(0b110 : BitVec 3), 0b010] p = true) ∧
      (LinuxAffinity.callsOf (LinuxAffinity.setMask 1024 ⟨true, fun _ => 0⟩
          [(0b110 : BitVec 3), 0b010])).length = 1 := by
  have hExisting (p : Nat) (hp : selects [(0b110 : BitVec 3), 0b010] p = true) : p < 5 := by
    have hLt : p < 6 := lt_of_selects hp
    rcases Nat.lt_or_ge p 5 with hSmall | hFive
    · exact hSmall
    · obtain rfl : p = 5 := by omega
      exact absurd hp (by decide)
  obtain ⟨hWindows, hLinux, hOnce⟩ := affinity_exact fiveProcessors (fun _ => 0) le_rfl
    ⟨true, fun _ => 0⟩ [(0b110 : BitVec 3), 0b010] ⟨1, by decide⟩
  obtain ⟨hCalls, -, hGranted⟩ := hWindows hExisting
  -- the bits of processors 1, 2 and 4
  have hDue : fiveProcessors.dueCalls (selects [(0b110 : BitVec 3), 0b010]) =
      [⟨0b1010, 0⟩, ⟨0b100, 1⟩] := by decide
  rw [hDue] at hCalls hGranted
  exact ⟨hCalls, hGranted fun _ => rfl, hLinux,
    hOnce rfl fun p hp => (hExisting p hp).trans (by decide)⟩

/-! ## Rejected requests -/

/-- A request that is rejected was not begun. -/
def Clean (result : Except Stop WindowsEditor) : Prop :=
  ∀ error calls, result = .error (.throws error calls) →
    (error = .allZeros ∨ ∃ p, error = .nonExistingCore p) → calls = []

/-- Every processor that exists is in a group. -/
theorem WindowsAffinity.exists_group {a : WindowsAffinity} {p : Nat} (hp : p < a.countCores) :
    ∃ k < a.groupInfo.length, a.firstOf k ≤ p ∧ p < a.firstOf (k + 1) := by
  have hStart : a.firstOf (({} : WindowsEditor).group) ≤ p := Nat.zero_le p
  rcases findGroup_eq (e := {}) (Nat.zero_le _) rfl hStart with
    ⟨-, k, -, hk, hLow, hHigh, -⟩ | ⟨hMissing, -⟩
  · exact ⟨k, hk, hLow, hHigh⟩
  · exact absurd hp (not_lt.mpr hMissing)

theorem dueCalls_eq_nil_iff {a : WindowsAffinity} {chosen : Nat → Bool} :
    a.dueCalls chosen = [] ↔ ∀ p, chosen p = true → a.countCores ≤ p := by
  constructor
  · intro hNil p hChosen
    by_contra hExists
    obtain ⟨k, hk, hLow, hHigh⟩ := WindowsAffinity.exists_group (not_le.mp hExists)
    have hChooses := (WindowsAffinity.choosesIn_iff hk).mpr ⟨p, hLow, hHigh, hChosen⟩
    have hMem : a.groupAffinity chosen k ∈ a.dueCalls chosen :=
      List.mem_map_of_mem (List.mem_filter.mpr ⟨List.mem_range.mpr hk, hChooses⟩)
    rw [hNil] at hMem
    cases hMem
  · intro hNone
    refine WindowsAffinity.callsBelow_of_none (Nat.zero_le _) fun i _ hi =>
      WindowsAffinity.choosesIn_eq_false hi fun q _ hq => ?_
    rw [Bool.eq_false_iff]
    intro hChosen
    have hLt := hq.trans_le (WindowsAffinity.firstOf_le_countCores (i + 1))
    exact absurd (hNone q hChosen) (not_le.mpr hLt)

/-- **Rejected requests.** A request that is rejected was not begun, exactly if it
selects no processor that is missing, or none that exists, or the system refuses a
call. -/
theorem clean_iff {w : Nat} (a : WindowsAffinity) (os : List GroupAffinity → Nat)
    (cpuMask : List (BitVec w)) :
    Clean (a.setMask os cpuMask) ↔
      (∀ p, selects cpuMask p = true → p < a.countCores) ∨
        (∀ p, selects cpuMask p = true → a.countCores ≤ p) ∨
          ¬ WindowsAffinity.Accepted os (a.dueCalls (selects cpuMask)) := by
  rcases a.scan os cpuMask with ⟨hNone, hEmpty⟩ | ⟨-, ⟨⟨e, hOk, -⟩, hExisting, -⟩ |
    ⟨stop, hError, hRefused | ⟨p, hChosen, hMissing, hAccepted, rfl⟩⟩⟩
  · -- an empty mask is rejected at once
    refine iff_of_true (fun error calls hThrows _ => ?_) (.inl fun p hChosen => ?_)
    · rw [hEmpty] at hThrows
      cases hThrows
      rfl
    · rw [hNone p] at hChosen
      cases hChosen
  · refine iff_of_true (fun error calls hThrows _ => ?_) (.inl hExisting)
    rw [hOk] at hThrows
    cases hThrows
  · obtain ⟨status, calls', rfl, -⟩ := hRefused.attempted_eq
    refine iff_of_true (fun error calls hThrows hWhy => ?_) (.inr (.inr hRefused.not_accepted))
    -- the exception is about the call that was refused
    rw [hError] at hThrows
    cases hThrows
    rcases hWhy with hZeros | ⟨p, hCore⟩
    · cases hZeros
    · cases hCore
  · constructor
    · intro hClean
      exact .inr (.inl (dueCalls_eq_nil_iff.mp (hClean _ _ hError (.inr ⟨p, rfl⟩))))
    · rintro (hExisting | hNone | hNot)
      · exact absurd (hExisting p hChosen) (not_lt.mpr hMissing)
      · intro error calls hThrows _
        rw [hError] at hThrows
        cases hThrows
        exact dueCalls_eq_nil_iff.mpr hNone
      · exact absurd hAccepted hNot

/-- One group of four processors. -/
def fourProcessors : WindowsAffinity where
  groupInfo := [⟨4, 0b1111⟩]
  nonempty := by decide
  length_lt := by decide
  count_eq := by decide

/-- Processor 0 is pinned before processor 4 turns out to be missing. -/
theorem not_clean_fourProcessors :
    ¬ Clean (fourProcessors.setMask (fun _ => 0) [(0b10001 : BitVec 64)]) := by
  intro hClean
  have hThrows : fourProcessors.setMask (fun _ => 0) [(0b10001 : BitVec 64)] =
      .error (.throws (.nonExistingCore 4) [⟨1, 0⟩]) := by decide
  exact absurd (hClean _ _ hThrows (.inr ⟨4, rfl⟩)) (by simp)

/-- On Linux nothing is called before a request is rejected. -/
theorem LinuxAffinity.clean {w RMAX_CPU_SETSIZE : Nat} (hSize : RMAX_CPU_SETSIZE ≤ CPU_SETSIZE)
    (api : LinuxApi) (cpuMask : List (BitVec w))
    (hRejected : (∀ p, selects cpuMask p = false) ∨
      ∃ p, selects cpuMask p = true ∧ RMAX_CPU_SETSIZE ≤ p) :
    callsOf (setMask RMAX_CPU_SETSIZE api cpuMask) = [] := by
  rcases setMask_cases hSize api cpuMask with ⟨hNone, -⟩ | ⟨-, -, -, hSome, hLegal⟩
  · exact hNone
  · rcases hRejected with hEmpty | ⟨p, hChosen, hIllegal⟩
    · exact absurd hEmpty hSome
    · exact absurd (hLegal p hChosen) (not_lt.mpr hIllegal)

end RivermaxDevKit
