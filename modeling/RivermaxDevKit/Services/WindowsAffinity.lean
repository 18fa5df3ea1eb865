import RivermaxDevKit.Lib.BitRank
import RivermaxDevKit.Services.Affinity

/-!
# CPU affinity on Windows

The editor of `windows/rivermax_os_affinity.cpp` maps a processor number to a
processor group and to a bit of it, and calls the system for a group once it leaves
the group.

* `searchBit_eq` — the bit of a group that has a given rank.
* `Scanned.set` — what one selected processor does to the editor.
* `WindowsAffinity.scan` — how far a scan of the processors gets, and which calls
  it has made by then.
-/

namespace RivermaxDevKit

/-! ## The editor -/

/-- `PROCESSOR_GROUP_INFO`. -/
structure ProcessorGroupInfo where
  activeProcessorCount : Nat
  activeProcessorMask : BitVec 64
  deriving DecidableEq

/-- The database, as Windows describes the machine: there is a group, and less
than a `WORD` counts, and the processors of each are the bits of its mask. -/
structure WindowsAffinity where
  groupInfo : List ProcessorGroupInfo
  nonempty : groupInfo ≠ []
  length_lt : groupInfo.length < 2 ^ 16
  count_eq : ∀ g ∈ groupInfo, g.activeProcessorCount = BitRank.size g.activeProcessorMask

/-- `GROUP_AFFINITY`. -/
structure GroupAffinity where
  mask : BitVec 64
  group : Nat
  deriving DecidableEq, Repr

/-- How a call of the editor stops, with the calls of the system made by then. -/
inductive Stop
  | throws (error : AffinityError) (calls : List GroupAffinity)
  | endlessLoop (calls : List GroupAffinity)
  deriving DecidableEq, Repr

/-- `WindowsAffinity::editor`, and the calls of the system it has made. -/
structure WindowsEditor where
  group : Nat := 0
  mask : BitVec 64 := 0
  firstProcessorInGroup : Nat := 0
  calls : List GroupAffinity := []
  deriving DecidableEq, Repr

/-- The search of `set_ingroup_affinity`, of at most `fuel` turns: behind the last
bit it goes on for ever. -/
def searchBit (active : BitVec 64) : (fuel : Nat) → (mask : BitVec 64) →
    (countdown : Nat) → Option (BitVec 64)
  | 0, _, _ => none
  | fuel + 1, mask, countdown =>
    if active &&& mask = 0 then searchBit active fuel (mask <<< 1) countdown
    else if countdown ≠ 0 then searchBit active fuel (mask <<< 1) (countdown - 1)
    else some mask

namespace WindowsAffinity

variable (a : WindowsAffinity) (os : List GroupAffinity → Nat)

def infoOf (group : Nat) : ProcessorGroupInfo := a.groupInfo.getD group ⟨0, 0⟩

/-- The walk of `find_group` over the groups from the current one on. -/
def findGroupFrom (processor : Nat) :
    List ProcessorGroupInfo → WindowsEditor → Except Stop WindowsEditor
  | [], e => .error (.throws (.nonExistingCore processor) e.calls)
  | g :: groups, e =>
    if e.firstProcessorInGroup + g.activeProcessorCount > processor then .ok e
    else findGroupFrom processor groups
      { e with
        firstProcessorInGroup := e.firstProcessorInGroup + g.activeProcessorCount
        group := e.group + 1 }

def findGroup (e : WindowsEditor) (processor : Nat) : Except Stop WindowsEditor :=
  findGroupFrom processor (a.groupInfo.drop e.group) e

def isInCurrentGroup (e : WindowsEditor) (processor : Nat) : Bool :=
  e.firstProcessorInGroup + (a.infoOf e.group).activeProcessorCount > processor

/-- `apply`; `os` is the status of the last call of those that were made. -/
def apply (e : WindowsEditor) : Except Stop WindowsEditor :=
  let calls := e.calls ++ [⟨e.mask, e.group % 2 ^ 16⟩]
  if os calls ≠ 0 then .error (.throws (.setThreadGroupAffinity (os calls)) calls)
  else .ok { e with calls := calls }

def determineGroup (e : WindowsEditor) (processor : Nat) : Except Stop WindowsEditor :=
  if e.mask ≠ 0 then
    if e.firstProcessorInGroup > processor then .error (.throws (.outOfOrder processor) e.calls)
    else if a.isInCurrentGroup e processor then .ok e
    else do
      let e ← apply os e
      a.findGroup { e with mask := 0 } processor
  else a.findGroup e processor

def setIngroupAffinity (e : WindowsEditor) (processor : Nat) : Except Stop WindowsEditor :=
  match searchBit (a.infoOf e.group).activeProcessorMask 64 1
      (processor - e.firstProcessorInGroup) with
  | none => .error (.endlessLoop e.calls)
  | some mask => .ok { e with mask := e.mask ||| mask }

def set (e : WindowsEditor) (processor : Nat) : Except Stop WindowsEditor := do
  let e ← a.determineGroup os e processor
  a.setIngroupAffinity e processor

/-- `Affinity::set` of a CPU mask. -/
def setMask {w : Nat} (cpuMask : List (BitVec w)) : Except Stop WindowsEditor := do
  let e ← fillWith (a.set os) (fun e => .throws .allZeros e.calls) cpuMask {}
  apply os e

def countCores : Nat := (a.groupInfo.map ProcessorGroupInfo.activeProcessorCount).sum

/-! ### What is due -/

/-- The number of the first processor of a group. -/
def firstOf (group : Nat) : Nat :=
  ((a.groupInfo.take group).map ProcessorGroupInfo.activeProcessorCount).sum

/-- A processor of the group is chosen. -/
def choosesIn (chosen : Nat → Bool) (group : Nat) : Bool :=
  decide (∃ r < (a.infoOf group).activeProcessorCount, chosen (a.firstOf group + r) = true)

/-- The active bits of a group whose ranks over all groups are chosen. -/
def groupAffinity (chosen : Nat → Bool) (group : Nat) : GroupAffinity where
  mask := BitRank.collect (a.infoOf group).activeProcessorMask
    fun r => chosen (a.firstOf group + r)
  group := group

/-- One call for each of the first groups with a chosen processor. -/
def callsBelow (chosen : Nat → Bool) (group : Nat) : List GroupAffinity :=
  ((List.range group).filter (a.choosesIn chosen)).map (a.groupAffinity chosen)

def dueCalls (chosen : Nat → Bool) : List GroupAffinity := a.callsBelow chosen a.groupInfo.length

end WindowsAffinity

/-- The calls of a request, however it ended. -/
def callsOf : Except Stop WindowsEditor → List GroupAffinity
  | .ok e => e.calls
  | .error (.throws _ calls) | .error (.endlessLoop calls) => calls

/-- Of the calls that are due behind those made, a request attempts those up to the
first that is refused. -/
def attempted (os : List GroupAffinity → Nat) :
    (made : List GroupAffinity) → List GroupAffinity → List GroupAffinity
  | made, [] => made
  | made, call :: calls =>
    if os (made ++ [call]) = 0 then attempted os (made ++ [call]) calls else made ++ [call]

/-! ## The search for a processor -/

/-- From bit `j` on, the search ends at the active bit whose rank is `r` more. -/
theorem searchBit_eq {active : BitVec 64} {i : Nat} (hBit : active.getLsbD i = true) (n : Nat) :
    ∀ {j r : Nat}, j + n = 64 → j ≤ i → BitRank.rank active i = BitRank.rank active j + r →
      searchBit active n (BitVec.twoPow 64 j) r = some (BitVec.twoPow 64 i) := by
  have hi := BitVec.lt_of_getLsbD hBit
  induction n with
  | zero =>
    intro j r hn hj _
    omega
  | succ n ih =>
    intro j r hn hj hRank
    have hLt : j < 64 := by omega
    have hNext := BitRank.rank_succ active j
    rw [searchBit, twoPow_shiftLeft_one]
    cases hHere : active.getLsbD j with
    | false =>
      -- the bit is not active
      have hNe : i ≠ j := by
        rintro rfl
        rw [hHere] at hBit
        cases hBit
      rw [hHere, if_neg (by simp), Nat.add_zero] at hNext
      rw [if_pos ((and_twoPow_eq_zero_iff hLt).mpr hHere)]
      exact ih (by omega) (by omega) (hNext ▸ hRank)
    | true =>
      rw [hHere, if_pos rfl] at hNext
      rw [if_neg (by rw [and_twoPow_eq_zero_iff hLt, hHere]; simp)]
      by_cases hCount : r = 0
      · have hSame : i = j := BitRank.rank_injective hBit hHere (by omega)
        rw [if_neg (not_not.mpr hCount), hSame]
      · have hNe : i ≠ j := by
          rintro rfl
          omega
        rw [if_pos hCount]
        exact ih (by omega) (by omega) (by omega)

namespace WindowsAffinity

variable {a : WindowsAffinity} {os : List GroupAffinity → Nat}

theorem infoOf_eq {k : Nat} {g : ProcessorGroupInfo} (h : a.groupInfo[k]? = some g) :
    a.infoOf k = g := by
  rw [infoOf, List.getD_eq_getElem?_getD, h]
  rfl

theorem firstOf_succ {k : Nat} (hk : k < a.groupInfo.length) :
    a.firstOf (k + 1) = a.firstOf k + (a.infoOf k).activeProcessorCount := by
  have hInfo : a.infoOf k = a.groupInfo[k] := infoOf_eq (List.getElem?_eq_getElem hk)
  rw [firstOf, firstOf, List.take_succ_eq_append_getElem hk, List.map_append, List.sum_append,
    hInfo]
  simp

theorem firstOf_length : a.firstOf a.groupInfo.length = a.countCores := by
  rw [firstOf, List.take_length, countCores]

theorem firstOf_mono {j k : Nat} (h : j ≤ k) : a.firstOf j ≤ a.firstOf k := by
  obtain ⟨d, rfl⟩ := Nat.exists_eq_add_of_le h
  rw [firstOf, firstOf, List.take_add, List.map_append, List.sum_append]
  exact Nat.le_add_right _ _

theorem firstOf_le_countCores (k : Nat) : a.firstOf k ≤ a.countCores := by
  rcases Nat.le_total k a.groupInfo.length with hk | hk
  · exact (firstOf_mono hk).trans_eq firstOf_length
  · rw [firstOf, List.take_of_length_le hk]
    rfl

/-- The count of a group is the number of its bits. -/
theorem count_infoOf (k : Nat) : (a.infoOf k).activeProcessorCount =
    BitRank.size (a.infoOf k).activeProcessorMask := by
  rcases Nat.lt_or_ge k a.groupInfo.length with hk | hk
  · have hInfo : a.infoOf k = a.groupInfo[k] := infoOf_eq (List.getElem?_eq_getElem hk)
    rw [hInfo]
    exact a.count_eq _ (List.getElem_mem hk)
  · have hInfo : a.infoOf k = ⟨0, 0⟩ := by
      rw [infoOf, List.getD_eq_getElem?_getD, List.getElem?_eq_none hk]
      rfl
    rw [hInfo]
    rfl

/-- The walk over the groups stops at that of the processor, if there is one. -/
theorem findGroup_eq {processor : Nat} {e : WindowsEditor} (hGroup : e.group ≤ a.groupInfo.length)
    (hFirst : e.firstProcessorInGroup = a.firstOf e.group)
    (hLe : a.firstOf e.group ≤ processor) :
    (processor < a.countCores ∧ ∃ k, e.group ≤ k ∧ k < a.groupInfo.length ∧
        a.firstOf k ≤ processor ∧ processor < a.firstOf (k + 1) ∧
        a.findGroup e processor =
          .ok { e with group := k, firstProcessorInGroup := a.firstOf k }) ∨
      a.countCores ≤ processor ∧
        a.findGroup e processor = .error (.throws (.nonExistingCore processor) e.calls) := by
  unfold findGroup
  generalize hRest : a.groupInfo.drop e.group = groups
  induction groups generalizing e with
  | nil =>
    -- all groups are behind
    have hEnd : a.groupInfo.length = e.group :=
      Nat.le_antisymm (List.drop_eq_nil_iff.mp hRest) hGroup
    rw [← hEnd, firstOf_length] at hLe
    exact .inr ⟨hLe, rfl⟩
  | cons g groups ih =>
    have hk : e.group < a.groupInfo.length := by
      by_contra hNot
      rw [List.drop_eq_nil_iff.mpr (not_lt.mp hNot)] at hRest
      cases hRest
    have hHere : a.groupInfo[e.group]? = some g := by
      rw [← List.head?_drop, hRest]
      rfl
    have hNext := firstOf_succ hk
    rw [infoOf_eq hHere] at hNext
    rw [findGroupFrom, hFirst, ← hNext]
    by_cases hIn : a.firstOf (e.group + 1) > processor
    · rw [if_pos hIn]
      refine .inl ⟨hIn.trans_le (firstOf_le_countCores _), e.group, le_rfl, hk, hLe, hIn, ?_⟩
      rw [← hFirst]
    · rw [if_neg hIn]
      have hDrop : a.groupInfo.drop (e.group + 1) = groups := by
        rw [← List.drop_drop, hRest]
        rfl
      rcases ih (e := { e with
          firstProcessorInGroup := a.firstOf (e.group + 1), group := e.group + 1 })
        hk rfl (not_lt.mp hIn) hDrop with ⟨hLt, k, hLow, hRest⟩ | hMissing
      · exact .inl ⟨hLt, k, (Nat.le_succ _).trans hLow, hRest⟩
      · exact .inr hMissing

/-! ## The calls that are due -/

section Due

variable {chosen : Nat → Bool}

theorem choosesIn_iff {k : Nat} (hk : k < a.groupInfo.length) : a.choosesIn chosen k = true ↔
    ∃ q, a.firstOf k ≤ q ∧ q < a.firstOf (k + 1) ∧ chosen q = true := by
  have hNext := firstOf_succ hk
  rw [choosesIn, decide_eq_true_eq]
  constructor
  · rintro ⟨r, hr, hChosen⟩
    exact ⟨a.firstOf k + r, Nat.le_add_right _ _, by omega, hChosen⟩
  · rintro ⟨q, hLow, hHigh, hChosen⟩
    exact ⟨q - a.firstOf k, by omega, by rwa [Nat.add_sub_cancel' hLow]⟩

theorem choosesIn_eq_false {k : Nat} (hk : k < a.groupInfo.length)
    (h : ∀ q, a.firstOf k ≤ q → q < a.firstOf (k + 1) → chosen q = false) :
    a.choosesIn chosen k = false := by
  rw [Bool.eq_false_iff]
  intro hChooses
  obtain ⟨q, hLow, hHigh, hChosen⟩ := (choosesIn_iff hk).mp hChooses
  rw [h q hLow hHigh] at hChosen
  cases hChosen

theorem callsBelow_succ (a : WindowsAffinity) (chosen : Nat → Bool) (k : Nat) :
    a.callsBelow chosen (k + 1) =
      a.callsBelow chosen k ++
        if a.choosesIn chosen k then [a.groupAffinity chosen k] else [] := by
  rw [callsBelow, callsBelow, List.range_succ, List.filter_append, List.map_append]
  cases hChooses : a.choosesIn chosen k <;> simp [hChooses]

/-- Groups without a chosen processor want no call. -/
theorem callsBelow_of_none {j k : Nat} (hjk : j ≤ k)
    (h : ∀ i, j ≤ i → i < k → a.choosesIn chosen i = false) :
    a.callsBelow chosen k = a.callsBelow chosen j := by
  induction k with
  | zero => rw [Nat.le_zero.mp hjk]
  | succ k ih =>
    rcases Nat.le_succ_iff.mp hjk with hLe | rfl
    · rw [callsBelow_succ, h k hLe (Nat.lt_succ_self k), if_neg (by simp), List.append_nil]
      exact ih hLe fun i hi hik => h i hi (Nat.lt_succ_of_lt hik)
    · rfl

theorem exists_dueCalls_eq {k : Nat} (hk : k ≤ a.groupInfo.length) :
    ∃ later, a.dueCalls chosen = a.callsBelow chosen k ++ later := by
  obtain ⟨d, hd⟩ := Nat.exists_eq_add_of_le hk
  rw [dueCalls, hd]
  clear hd hk
  induction d with
  | zero => exact ⟨[], (List.append_nil _).symm⟩
  | succ d ih =>
    obtain ⟨later, hLater⟩ := ih
    rw [← Nat.add_assoc, callsBelow_succ, hLater, List.append_assoc]
    exact ⟨_, rfl⟩

end Due

/-! ## How far a scan gets -/

/-- The system grants every one of the calls, when it is made. -/
def Accepted (os : List GroupAffinity → Nat) (calls : List GroupAffinity) : Prop :=
  ∀ made, made ≠ [] → made <+: calls → os made = 0

theorem Accepted.nil (os : List GroupAffinity → Nat) : Accepted os [] :=
  fun _ hSome hPrefix => absurd (List.prefix_nil.mp hPrefix) hSome

theorem Accepted.append {calls : List GroupAffinity} (h : Accepted os calls)
    {call : GroupAffinity} (hOs : os (calls ++ [call]) = 0) : Accepted os (calls ++ [call]) := by
  intro made hSome hPrefix
  rcases List.prefix_concat_iff.mp hPrefix with rfl | hBefore
  · exact hOs
  · exact h made hSome hBefore

/-- Calls that are granted are attempted, and those behind them. -/
theorem Accepted.attempted_append {calls : List GroupAffinity} (h : Accepted os calls)
    (later : List GroupAffinity) :
    attempted os [] (calls ++ later) = attempted os calls later := by
  induction calls using List.reverseRecOn generalizing later with
  | nil => rfl
  | append_singleton calls call ih =>
    have hBefore : Accepted os calls := fun made hSome hPrefix =>
      h made hSome (hPrefix.trans (List.prefix_append _ _))
    have hHere : os (calls ++ [call]) = 0 := h _ (by simp) (List.prefix_refl _)
    rw [List.append_assoc, List.singleton_append, ih hBefore, attempted, if_pos hHere]

/-- The system refused one of the calls that are due. -/
def Refused (a : WindowsAffinity) (os : List GroupAffinity → Nat) (chosen : Nat → Bool)
    (stop : Stop) : Prop :=
  ∃ made call later, a.dueCalls chosen = made ++ call :: later ∧ Accepted os made ∧
    os (made ++ [call]) ≠ 0 ∧
    stop = .throws (.setThreadGroupAffinity (os (made ++ [call]))) (made ++ [call])

/-- The editor behind the processors below `b`. -/
structure Scanned (a : WindowsAffinity) (os : List GroupAffinity → Nat) (chosen : Nat → Bool)
    (b : Nat) (e : WindowsEditor) : Prop where
  group_lt : e.group < a.groupInfo.length
  first_eq : e.firstProcessorInGroup = a.firstOf e.group
  first_le : a.firstOf e.group ≤ b
  mask_eq : e.mask = BitRank.collect (a.infoOf e.group).activeProcessorMask
    fun r => chosen (a.firstOf e.group + r) && decide (a.firstOf e.group + r < b)
  calls_eq : e.calls = a.callsBelow chosen e.group
  reach : ∀ q < b, chosen q = true → q < a.firstOf (e.group + 1)
  nonzero : ∀ q < b, chosen q = true → e.mask ≠ 0
  accepted : Accepted os e.calls

section Scan

variable {chosen : Nat → Bool} {b : Nat} {e : WindowsEditor}

theorem scanned_start (a : WindowsAffinity) (os : List GroupAffinity → Nat)
    (chosen : Nat → Bool) : Scanned a os chosen 0 {} where
  group_lt := List.length_pos_iff.mpr a.nonempty
  first_eq := rfl
  first_le := Nat.le_refl 0
  mask_eq := (BitRank.collect_eq_zero_iff.mpr fun r _ => by simp).symm
  calls_eq := rfl
  reach := fun q hq => absurd hq (Nat.not_lt_zero q)
  nonzero := fun q hq => absurd hq (Nat.not_lt_zero q)
  accepted := Accepted.nil os

theorem Scanned.skip (h : Scanned a os chosen b e) (hSkip : chosen b = false) :
    Scanned a os chosen (b + 1) e := by
  have hBelow : ∀ q, chosen q = true → q < b + 1 → q < b := by
    intro q hChosen hq
    refine lt_of_le_of_ne (Nat.lt_succ_iff.mp hq) ?_
    rintro rfl
    rw [hSkip] at hChosen
    cases hChosen
  refine ⟨h.group_lt, h.first_eq, h.first_le.trans (Nat.le_succ b), ?_, h.calls_eq,
    fun q hq hChosen => h.reach q (hBelow q hChosen hq) hChosen,
    fun q hq hChosen => h.nonzero q (hBelow q hChosen hq) hChosen, h.accepted⟩
  rw [h.mask_eq]
  refine BitRank.collect_congr fun r _ => ?_
  cases hChosen : chosen (a.firstOf e.group + r) with
  | false => rfl
  | true => exact decide_eq_decide.mpr ⟨Nat.lt_succ_of_lt, hBelow _ hChosen⟩

/-- The mask of the group has a bit if one of its processors was chosen. -/
theorem Scanned.mask_ne_zero_iff (h : Scanned a os chosen b e) : e.mask ≠ 0 ↔
    ∃ q, a.firstOf e.group ≤ q ∧ q < b ∧ chosen q = true := by
  constructor
  · intro hMask
    by_contra hNone
    refine hMask (h.mask_eq.trans (BitRank.collect_eq_zero_iff.mpr fun r _ => ?_))
    rw [Bool.and_eq_false_iff, decide_eq_false_iff_not]
    by_contra hBoth
    rw [not_or, not_not, Bool.not_eq_false] at hBoth
    exact hNone ⟨_, Nat.le_add_right _ _, hBoth.2, hBoth.1⟩
  · rintro ⟨q, -, hq, hChosen⟩
    exact h.nonzero q hq hChosen

/-- The call for a group behind whose chosen processors the scan has come. -/
theorem Scanned.apply (h : Scanned a os chosen b e) (hMask : e.mask ≠ 0)
    (hDone : ∀ q, chosen q = true → q < a.firstOf (e.group + 1) → q < b) :
    (WindowsAffinity.apply os e =
        .ok { e with calls := a.callsBelow chosen (e.group + 1) } ∧
      Accepted os (a.callsBelow chosen (e.group + 1))) ∨
      ∃ stop, WindowsAffinity.apply os e = .error stop ∧ Refused a os chosen stop := by
  have hNext := firstOf_succ h.group_lt
  -- the mask has all bits that are due
  have hCall : (⟨e.mask, e.group % 2 ^ 16⟩ : GroupAffinity) = a.groupAffinity chosen e.group := by
    rw [Nat.mod_eq_of_lt (h.group_lt.trans a.length_lt), groupAffinity, h.mask_eq]
    congr 1
    refine BitRank.collect_congr fun r hr => ?_
    cases hChosen : chosen (a.firstOf e.group + r) with
    | false => rfl
    | true =>
      rw [← count_infoOf] at hr
      exact decide_eq_true (hDone _ hChosen (by omega))
  have hChooses : a.choosesIn chosen e.group = true := by
    obtain ⟨q, hLow, hq, hChosen⟩ := h.mask_ne_zero_iff.mp hMask
    exact (choosesIn_iff h.group_lt).mpr ⟨q, hLow, h.reach q hq hChosen, hChosen⟩
  have hCalls : e.calls ++ [⟨e.mask, e.group % 2 ^ 16⟩] = a.callsBelow chosen (e.group + 1) := by
    rw [callsBelow_succ, hChooses, if_pos rfl, hCall, h.calls_eq]
  unfold WindowsAffinity.apply
  by_cases hOs : os (e.calls ++ [⟨e.mask, e.group % 2 ^ 16⟩]) = 0
  · left
    have hAccepted := h.accepted.append hOs
    rw [hCalls] at hOs hAccepted ⊢
    exact ⟨by rw [if_neg (not_not.mpr hOs)], hAccepted⟩
  · right
    obtain ⟨later, hLater⟩ : ∃ later, a.dueCalls chosen =
        a.callsBelow chosen (e.group + 1) ++ later := exists_dueCalls_eq h.group_lt
    rw [← hCalls, List.append_assoc, List.singleton_append] at hLater
    exact ⟨_, if_pos hOs, e.calls, _, later, hLater, h.accepted, hOs, rfl⟩

/-- The editor at the group of processor `b`, which is not set yet. -/
structure Located (a : WindowsAffinity) (os : List GroupAffinity → Nat) (chosen : Nat → Bool)
    (b : Nat) (e : WindowsEditor) : Prop where
  group_lt : e.group < a.groupInfo.length
  first_eq : e.firstProcessorInGroup = a.firstOf e.group
  first_le : a.firstOf e.group ≤ b
  lt_next : b < a.firstOf (e.group + 1)
  mask_eq : e.mask = BitRank.collect (a.infoOf e.group).activeProcessorMask
    fun r => chosen (a.firstOf e.group + r) && decide (a.firstOf e.group + r < b)
  calls_eq : e.calls = a.callsBelow chosen e.group
  accepted : Accepted os e.calls

/-- Ways to the group of the next processor: from a group without a chosen one, or
from one whose call was made. -/
def Leaves (a : WindowsAffinity) (chosen : Nat → Bool) (b : Nat) (e : WindowsEditor)
    (calls : List GroupAffinity) : Prop :=
  e.mask = 0 ∧ calls = a.callsBelow chosen e.group ∨
    a.firstOf (e.group + 1) ≤ b ∧ calls = a.callsBelow chosen (e.group + 1)

/-- No processor that was chosen lies between. -/
theorem Scanned.between (h : Scanned a os chosen b e) {calls : List GroupAffinity}
    (hLeaves : Leaves a chosen b e calls) {k : Nat} (hk : e.group ≤ k)
    (hFirst : a.firstOf k ≤ b) (hOther : a.firstOf (e.group + 1) ≤ b → e.group + 1 ≤ k) :
    calls = a.callsBelow chosen k ∧ ∀ q, a.firstOf k ≤ q → q < b → chosen q = false := by
  have hNotChosen : ∀ {q}, (chosen q = true → False) → chosen q = false :=
    fun hNot => Bool.eq_false_iff.mpr hNot
  rcases hLeaves with ⟨hMask, rfl⟩ | ⟨hPassed, rfl⟩
  · have hNone : ∀ q, q < b → chosen q = false :=
      fun q hq => hNotChosen fun hChosen => h.nonzero q hq hChosen hMask
    refine ⟨(callsBelow_of_none hk fun i _ hik => ?_).symm, fun q _ => hNone q⟩
    have hik' : i < a.groupInfo.length ∨ a.groupInfo.length ≤ i := Nat.lt_or_ge _ _
    rcases hik' with hLt | hGe
    · refine choosesIn_eq_false hLt fun q _ hq => hNone q ?_
      exact (hq.trans_le (firstOf_mono hik)).trans_le hFirst
    · rw [choosesIn, infoOf, List.getD_eq_getElem?_getD, List.getElem?_eq_none hGe]
      simp
  · have hNone : ∀ q, a.firstOf (e.group + 1) ≤ q → q < b → chosen q = false := by
      intro q hLow hq
      refine hNotChosen fun hChosen => ?_
      exact absurd (h.reach q hq hChosen) (not_lt.mpr hLow)
    refine ⟨(callsBelow_of_none (hOther hPassed) fun i hi hik => ?_).symm,
      fun q hLow => hNone q ((firstOf_mono (hOther hPassed)).trans hLow)⟩
    rcases Nat.lt_or_ge i a.groupInfo.length with hLt | hGe
    · refine choosesIn_eq_false hLt fun q hLow hq => hNone q ((firstOf_mono hi).trans hLow) ?_
      exact (hq.trans_le (firstOf_mono hik)).trans_le hFirst
    · rw [choosesIn, infoOf, List.getD_eq_getElem?_getD, List.getElem?_eq_none hGe]
      simp

/-- The walk to the group of the next processor. -/
theorem Scanned.findGroup (h : Scanned a os chosen b e) {calls : List GroupAffinity}
    (hLeaves : Leaves a chosen b e calls) (hAccepted : Accepted os calls) :
    (b < a.countCores ∧ ∃ e', a.findGroup { e with mask := 0, calls := calls } b = .ok e' ∧
        Located a os chosen b e') ∨
      a.countCores ≤ b ∧ a.findGroup { e with mask := 0, calls := calls } b =
        .error (.throws (.nonExistingCore b) calls) := by
  have hFind := @findGroup_eq a b { e with mask := 0, calls := calls } h.group_lt.le h.first_eq
    h.first_le
  refine hFind.imp ?_ id
  rintro ⟨hLt, k, hLow, hk, hFirst, hNext, hOk⟩
  obtain ⟨hCalls, hNone⟩ := h.between hLeaves hLow hFirst fun hPassed => by
    -- the group is another one
    by_contra hSame
    have hEq : k = e.group := by dsimp only at hLow; omega
    rw [hEq] at hNext
    omega
  refine ⟨hLt, _, hOk, hk, rfl, hFirst, hNext, ?_, hCalls, hAccepted⟩
  refine (BitRank.collect_eq_zero_iff.mpr fun r _ => ?_).symm
  rw [Bool.and_eq_false_iff, decide_eq_false_iff_not]
  by_cases hr : a.firstOf k + r < b
  · exact .inl (hNone _ (Nat.le_add_right _ _) hr)
  · exact .inr hr

/-- How a request fails: the system refuses a call that is due, or a processor does
not exist, which shows behind all calls that are due. -/
def Fails (a : WindowsAffinity) (os : List GroupAffinity → Nat) (chosen : Nat → Bool)
    (stop : Stop) : Prop :=
  Refused a os chosen stop ∨
    ∃ p, chosen p = true ∧ a.countCores ≤ p ∧ Accepted os (a.dueCalls chosen) ∧
      stop = .throws (.nonExistingCore p) (a.dueCalls chosen)

theorem Scanned.leave (h : Scanned a os chosen b e) (hChosen : chosen b = true)
    {calls : List GroupAffinity} (hLeaves : Leaves a chosen b e calls)
    (hAccepted : Accepted os calls) :
    (∃ e', a.findGroup { e with mask := 0, calls := calls } b = .ok e' ∧
        Located a os chosen b e') ∨
      ∃ stop, a.findGroup { e with mask := 0, calls := calls } b = .error stop ∧
        Fails a os chosen stop := by
  rcases h.findGroup hLeaves hAccepted with ⟨-, hFound⟩ | ⟨hMissing, hError⟩
  · exact .inl hFound
  · -- behind the last group all calls were made
    have hEnd : a.firstOf a.groupInfo.length ≤ b := firstOf_length.trans_le hMissing
    obtain ⟨rfl, -⟩ := h.between hLeaves h.group_lt.le hEnd fun _ => h.group_lt
    exact .inr ⟨_, hError, .inr ⟨b, hChosen, hMissing, hAccepted, rfl⟩⟩

theorem Scanned.determineGroup (h : Scanned a os chosen b e) (hChosen : chosen b = true) :
    (∃ e', a.determineGroup os e b = .ok e' ∧ Located a os chosen b e') ∨
      ∃ stop, a.determineGroup os e b = .error stop ∧ Fails a os chosen stop := by
  have hNext := firstOf_succ h.group_lt
  unfold WindowsAffinity.determineGroup
  by_cases hMask : e.mask = 0
  · have hSame : e = { e with mask := 0, calls := e.calls } := by
      rw [← hMask]
    rw [if_neg (not_not.mpr hMask), hSame]
    exact h.leave hChosen (.inl ⟨hMask, h.calls_eq⟩) h.accepted
  rw [if_pos hMask, if_neg (by rw [h.first_eq]; exact not_lt.mpr h.first_le)]
  have hCurrent : a.isInCurrentGroup e b = true ↔ b < a.firstOf (e.group + 1) := by
    rw [isInCurrentGroup, decide_eq_true_eq, h.first_eq, hNext]
  by_cases hIn : b < a.firstOf (e.group + 1)
  · rw [if_pos (hCurrent.mpr hIn)]
    exact .inl ⟨e, rfl, h.group_lt, h.first_eq, h.first_le, hIn, h.mask_eq, h.calls_eq, h.accepted⟩
  -- the call for the group is made first
  rw [if_neg fun hYes => hIn (hCurrent.mp hYes)]
  rcases h.apply hMask fun q _ hq => hq.trans_le (not_lt.mp hIn) with
    ⟨hOk, hAccepted⟩ | ⟨stop, hError, hRefused⟩
  · rw [hOk]
    exact h.leave hChosen (.inr ⟨not_lt.mp hIn, rfl⟩) hAccepted
  · rw [hError]
    exact .inr ⟨stop, rfl, .inl hRefused⟩

/-- The bit of the processor is found, and set. -/
theorem Located.setIngroupAffinity (h : Located a os chosen b e) (hChosen : chosen b = true) :
    ∃ e', a.setIngroupAffinity e b = .ok e' ∧ Scanned a os chosen (b + 1) e' := by
  have hNext := firstOf_succ h.group_lt
  have hLow := h.first_le
  have hHigh := h.lt_next
  have hRank : b - a.firstOf e.group < BitRank.size (a.infoOf e.group).activeProcessorMask := by
    rw [← count_infoOf]
    omega
  obtain ⟨i, hi, hBit, hi'⟩ := BitRank.exists_rank hRank
  have hSearch : searchBit (a.infoOf e.group).activeProcessorMask 64 (BitVec.twoPow 64 0)
      (b - a.firstOf e.group) = some (BitVec.twoPow 64 i) :=
    searchBit_eq hBit 64 rfl (Nat.zero_le i) (by rw [hi', BitRank.rank_zero, Nat.zero_add])
  have hOne : BitVec.twoPow 64 0 = 1 := rfl
  rw [hOne, ← h.first_eq] at hSearch
  have hMask : BitRank.collect (a.infoOf e.group).activeProcessorMask
      (fun r => chosen (a.firstOf e.group + r) && decide (a.firstOf e.group + r < b + 1)) =
        e.mask ||| BitVec.twoPow 64 i := by
    rw [h.mask_eq]
    refine BitRank.collect_insert hBit fun r _ => ?_
    rw [hi']
    by_cases hr : r = b - a.firstOf e.group
    · have hEq : a.firstOf e.group + r = b := by omega
      rw [hEq, hChosen, decide_eq_true hr, Bool.or_true, decide_eq_true (Nat.lt_succ_self b)]
      rfl
    · have hOther : a.firstOf e.group + r < b + 1 ↔ a.firstOf e.group + r < b := by omega
      simp [hOther, hr]
  have hSet : a.setIngroupAffinity e b = .ok { e with mask := e.mask ||| BitVec.twoPow 64 i } := by
    rw [WindowsAffinity.setIngroupAffinity, hSearch]
  refine ⟨_, hSet, h.group_lt, h.first_eq, hLow.trans (Nat.le_succ b), hMask.symm, h.calls_eq,
    fun q hq _ => lt_of_le_of_lt (Nat.lt_succ_iff.mp hq) hHigh, fun q _ _ hZero => ?_, h.accepted⟩
  -- the bit that was set is there
  have hThere := congrArg (fun mask => mask.getLsbD i) hZero
  simp [hi] at hThere

/-- A visit of a chosen processor. -/
theorem Scanned.set (h : Scanned a os chosen b e) (hChosen : chosen b = true) :
    (∃ e', a.set os e b = .ok e' ∧ Scanned a os chosen (b + 1) e') ∨
      ∃ stop, a.set os e b = .error stop ∧ Fails a os chosen stop := by
  unfold WindowsAffinity.set
  rcases h.determineGroup hChosen with ⟨e', hOk, hLocated⟩ | ⟨stop, hError, hFails⟩
  · rw [hOk]
    exact .inl (hLocated.setIngroupAffinity hChosen)
  · rw [hError]
    exact .inr ⟨stop, rfl, hFails⟩

/-- Behind all selected processors, the last call is made. -/
theorem Scanned.finish (h : Scanned a os chosen b e) (hAll : ∀ q, chosen q = true → q < b)
    (hSome : ∃ q, chosen q = true) :
    (WindowsAffinity.apply os e = .ok { e with calls := a.dueCalls chosen } ∧
      Accepted os (a.dueCalls chosen)) ∨
      ∃ stop, WindowsAffinity.apply os e = .error stop ∧ Refused a os chosen stop := by
  obtain ⟨q, hChosen⟩ := hSome
  have hMask := h.nonzero q (hAll q hChosen) hChosen
  have hDue : a.dueCalls chosen = a.callsBelow chosen (e.group + 1) := by
    refine callsBelow_of_none h.group_lt fun i hi hLt => choosesIn_eq_false hLt fun q hLow _ => ?_
    rw [Bool.eq_false_iff]
    intro hChosen
    have hReach := h.reach q (hAll q hChosen) hChosen
    exact absurd ((firstOf_mono hi).trans hLow) (not_le.mpr hReach)
  rw [hDue]
  exact h.apply hMask fun q hChosen _ => hAll q hChosen

end Scan

/-! ## Whole requests -/

section Request

variable {w : Nat} (a : WindowsAffinity) (os : List GroupAffinity → Nat)
  (cpuMask : List (BitVec w))

/-- The visits of the selected processors, with their number. -/
theorem visit_selects :
    (∃ s, visit (a.set os) (selects cpuMask) (cpuMask.length * w) 0 ({}, 0) = .ok s ∧
        Scanned a os (selects cpuMask) (cpuMask.length * w) s.1 ∧
        (s.2 = 0 ↔ ∀ q, selects cpuMask q = false)) ∨
      ∃ stop, visit (a.set os) (selects cpuMask) (cpuMask.length * w) 0 ({}, 0) = .error stop ∧
        Fails a os (selects cpuMask) stop := by
  have hSkip : ∀ b (s : WindowsEditor × Nat), selects cpuMask b = false →
      (Scanned a os (selects cpuMask) b s.1 ∧ (s.2 = 0 ↔ ∀ q < b, selects cpuMask q = false)) →
      Scanned a os (selects cpuMask) (b + 1) s.1 ∧
        (s.2 = 0 ↔ ∀ q < b + 1, selects cpuMask q = false) := by
    rintro b s hSkip ⟨hScanned, hCount⟩
    refine ⟨hScanned.skip hSkip, hCount.trans ⟨fun hNone q hq => ?_, fun hNone q hq =>
      hNone q (Nat.lt_succ_of_lt hq)⟩⟩
    rcases Nat.lt_succ_iff_lt_or_eq.mp hq with hLt | rfl
    · exact hNone q hLt
    · exact hSkip
  have hSet : ∀ b (s : WindowsEditor × Nat), selects cpuMask b = true →
      (Scanned a os (selects cpuMask) b s.1 ∧ (s.2 = 0 ↔ ∀ q < b, selects cpuMask q = false)) →
      (∃ e, a.set os s.1 b = .ok e ∧ Scanned a os (selects cpuMask) (b + 1) e ∧
        (s.2 + 1 = 0 ↔ ∀ q < b + 1, selects cpuMask q = false)) ∨
      ∃ stop, a.set os s.1 b = .error stop ∧ Fails a os (selects cpuMask) stop := by
    rintro b s hChosen ⟨hScanned, -⟩
    refine (hScanned.set hChosen).imp ?_ id
    rintro ⟨e, hOk, hNext⟩
    refine ⟨e, hOk, hNext, iff_of_false (Nat.succ_ne_zero _) fun hNone => ?_⟩
    rw [hNone b (Nat.lt_succ_self b)] at hChosen
    cases hChosen
  refine (visit_rule (fun b s => Scanned a os (selects cpuMask) b s.1 ∧
    (s.2 = 0 ↔ ∀ q < b, selects cpuMask q = false)) (Fails a os (selects cpuMask)) hSkip hSet
    (cpuMask.length * w) ⟨scanned_start a os _,
      iff_of_true rfl fun q hq => absurd hq (Nat.not_lt_zero q)⟩).imp ?_ id
  rintro ⟨s, hOk, hScanned, hCount⟩
  rw [Nat.zero_add] at hScanned hCount
  refine ⟨s, hOk, hScanned, hCount.trans ⟨fun hNone q => ?_, fun hNone q _ => hNone q⟩⟩
  -- no processor is selected behind the mask
  rw [Bool.eq_false_iff]
  intro hChosen
  have hNot := hNone q (lt_of_selects hChosen)
  rw [hNot] at hChosen
  cases hChosen

/-- **Scan.** An empty mask is rejected; any other makes all calls that are due for
the processors that exist, unless the system refuses one, and then it is known
whether all exist. -/
theorem scan :
    ((∀ p, selects cpuMask p = false) ∧
        a.setMask os cpuMask = .error (.throws .allZeros [])) ∨
      ((∃ p, selects cpuMask p = true) ∧
        (((∃ e, a.setMask os cpuMask = .ok e ∧ e.calls = a.dueCalls (selects cpuMask)) ∧
            (∀ p, selects cpuMask p = true → p < a.countCores) ∧
            Accepted os (a.dueCalls (selects cpuMask))) ∨
          ∃ stop, a.setMask os cpuMask = .error stop ∧ Fails a os (selects cpuMask) stop)) := by
  have hSome : ¬ (∀ p, selects cpuMask p = false) → ∃ p, selects cpuMask p = true := by
    intro hNot
    by_contra hNone
    exact hNot fun p => Bool.eq_false_iff.mpr fun hChosen => hNone ⟨p, hChosen⟩
  unfold setMask
  rw [fillWith_eq]
  rcases visit_selects a os cpuMask with ⟨s, hOk, hScanned, hCount⟩ | ⟨stop, hError, hFails⟩
  · rw [hOk]
    show _ ∧ (if s.2 = 0 then _ else _) >>= _ = _ ∨
      _ ∧ ((∃ e, (if s.2 = 0 then _ else _) >>= _ = _ ∧ _) ∧ _ ∨
        ∃ stop, (if s.2 = 0 then _ else _) >>= _ = _ ∧ _)
    by_cases hZero : s.2 = 0
    · -- nothing is selected, and nothing was called
      have hNone := hCount.mp hZero
      have hCalls : s.1.calls = [] := by
        rw [hScanned.calls_eq]
        exact callsBelow_of_none (Nat.zero_le _) fun i _ hi =>
          choosesIn_eq_false (hi.trans hScanned.group_lt) fun q _ _ => hNone q
      refine .inl ⟨hNone, ?_⟩
      rw [if_pos hZero, hCalls]
      rfl
    · have hSelects := hSome fun hNone => hZero (hCount.mpr hNone)
      refine .inr ⟨hSelects, ?_⟩
      rw [if_neg hZero]
      rcases hScanned.finish (fun q => lt_of_selects) hSelects with
        ⟨hApply, hAccepted⟩ | ⟨stop, hError, hRefused⟩
      · refine .inl ⟨⟨_, hApply, rfl⟩, fun p hChosen => ?_, hAccepted⟩
        exact (hScanned.reach p (lt_of_selects hChosen) hChosen).trans_le
          (firstOf_le_countCores _)
      · exact .inr ⟨stop, hError, .inl hRefused⟩
  · refine .inr ⟨hSome fun hNone => ?_, .inr ⟨stop, by rw [hError]; rfl, hFails⟩⟩
    rw [visit_of_none fun i _ => hNone (0 + i)] at hError
    cases hError

variable {a os cpuMask}

theorem Refused.attempted_eq {chosen : Nat → Bool} {stop : Stop}
    (h : Refused a os chosen stop) : ∃ status calls,
      stop = .throws (.setThreadGroupAffinity status) calls ∧
        attempted os [] (a.dueCalls chosen) = calls := by
  obtain ⟨made, call, later, hDue, hAccepted, hOs, rfl⟩ := h
  refine ⟨_, _, rfl, ?_⟩
  rw [hDue, hAccepted.attempted_append, attempted, if_neg hOs]

theorem Refused.not_accepted {chosen : Nat → Bool} {stop : Stop}
    (h : Refused a os chosen stop) : ¬ Accepted os (a.dueCalls chosen) := by
  obtain ⟨made, call, later, hDue, -, hOs, -⟩ := h
  intro hAccepted
  refine hOs (hAccepted _ (by simp) ?_)
  rw [hDue]
  exact ⟨later, by simp⟩

end Request

end WindowsAffinity

end RivermaxDevKit
