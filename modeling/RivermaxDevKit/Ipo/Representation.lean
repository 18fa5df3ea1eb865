import RivermaxDevKit.Ipo.AppReceiveStream
import RivermaxDevKit.Lib.SlotArray

/-!
# Inline Packet Ordering — representation invariant

What every reachable state of `IPOReceiveStream` looks like: the position lies
inside the buffer, a valid slot holds a number that belongs to it, an idle
stream has an empty buffer, and no packet handed to `handle_packet` is lost or
counted twice.

* `searchValid_some` / `searchValid_none` — what the gap search finds.
* `skipInitialSync_fuel` / `transferContiguous_fuel` — the bounds put on the
  two unbounded loops are never reached.
* `IpoInvariant` and its preservation lemmas, one for each operation.
* `reachable_invariant` — the invariant holds of every reachable state.
-/

namespace RivermaxDevKit

open SlotArray

variable {c : IpoConfig}

/-! ## Number space and buffer size -/

theorem getSequenceNumberMask_succ : c.getSequenceNumberMask + 1 = c.sequenceSpace := by
  have := Nat.two_pow_pos c.sequenceNumberBits
  unfold IpoConfig.getSequenceNumberMask IpoConfig.sequenceSpace
  omega

theorem wrapAround_pos : 0 < c.sequenceNumberWrapAround := by
  have hpos := c.packets_pos
  unfold IpoConfig.sequenceNumberWrapAround IpoConfig.getSequenceNumberWrapAround
  dsimp only
  split <;> omega

theorem nextIndex_eq {i : Nat} (hi : i < c.sequenceNumberWrapAround) :
    c.nextIndex i = (i + 1) % c.sequenceNumberWrapAround := by
  unfold IpoConfig.nextIndex
  split
  · rename_i hle
    rw [show i + 1 = c.sequenceNumberWrapAround by omega, Nat.mod_self]
  · rw [Nat.mod_eq_of_lt (by omega)]

theorem nextIndex_lt (i : Nat) : c.nextIndex i < c.sequenceNumberWrapAround := by
  have hpos := wrapAround_pos (c := c)
  unfold IpoConfig.nextIndex
  split <;> omega

/-! ## The gap search -/

theorem searchValid_some {arr : Nat → ExtPacketInfo} :
    ∀ {left i j : Nat}, i < c.sequenceNumberWrapAround → searchValid c arr left i = some j →
      ∃ k < left, j = (i + k) % c.sequenceNumberWrapAround ∧ (arr j).isValid = true ∧
        ∀ k' < k, (arr ((i + k') % c.sequenceNumberWrapAround)).isValid = false := by
  intro left
  induction left with
  | zero =>
    intro i j _ h
    simp [searchValid] at h
  | succ left ih =>
    intro i j hi h
    rw [searchValid] at h
    by_cases hv : (arr i).isValid = true
    · rw [if_pos hv] at h
      obtain rfl := Option.some.inj h
      exact ⟨0, by omega, by rw [Nat.add_zero, Nat.mod_eq_of_lt hi], hv, by omega⟩
    · rw [if_neg hv] at h
      obtain ⟨k, hk, hj, hjv, hbefore⟩ := ih (nextIndex_lt i) h
      have hstep : ∀ m, (c.nextIndex i + m) % c.sequenceNumberWrapAround =
          (i + (m + 1)) % c.sequenceNumberWrapAround := by
        intro m
        rw [nextIndex_eq hi, Nat.mod_add_mod]
        congr 1
        omega
      refine ⟨k + 1, by omega, by rw [hj, hstep], hjv, ?_⟩
      intro k' hk'
      cases k' with
      | zero => rw [Nat.add_zero, Nat.mod_eq_of_lt hi]; simpa using hv
      | succ m => rw [← hstep]; exact hbefore m (by omega)

theorem searchValid_none {arr : Nat → ExtPacketInfo} :
    ∀ {left i : Nat}, i < c.sequenceNumberWrapAround → searchValid c arr left i = none →
      ∀ k < left, (arr ((i + k) % c.sequenceNumberWrapAround)).isValid = false := by
  intro left
  induction left with
  | zero =>
    intro i _ _ k hk
    omega
  | succ left ih =>
    intro i hi h k hk
    rw [searchValid] at h
    by_cases hv : (arr i).isValid = true
    · rw [if_pos hv] at h
      simp at h
    · rw [if_neg hv] at h
      cases k with
      | zero => rw [Nat.add_zero, Nat.mod_eq_of_lt hi]; simpa using hv
      | succ m =>
        have := ih (nextIndex_lt i) h m (by omega)
        rwa [nextIndex_eq hi, Nat.mod_add_mod, Nat.add_right_comm, Nat.add_assoc] at this

/-- The search gives up only when the whole buffer is empty. -/
theorem empty_of_searchValid_none {arr : Nat → ExtPacketInfo} {i : Nat}
    (hi : i < c.sequenceNumberWrapAround)
    (h : searchValid c arr c.sequenceNumberWrapAround i = none) :
    ∀ j < c.sequenceNumberWrapAround, (arr j).isValid = false := by
  intro j hj
  obtain ⟨k, hk, rfl⟩ := exists_mod_walk i hj
  exact searchValid_none hi h k hk

/-! ## Counting packets -/

/-- Slots that hold a packet not yet transferred. -/
def validSlots (c : IpoConfig) (st : IpoStream) : Nat :=
  occupied ExtPacketInfo.isValid c.sequenceNumberWrapAround st.extPacketInfoArr

def isHandlePacket : IpoEvent → Bool
  | .handlePacket _ _ _ => true
  | _ => false

def isCompletePacket : IpoEvent → Bool
  | .completePacket _ => true
  | _ => false

def isSkipped : IpoEvent → Bool
  | .skipped _ => true
  | _ => false

/-- A `handle_packet` call that overwrote a valid slot with another number. -/
def isOverwrite : IpoEvent → Bool
  | .handlePacket _ s (some old) => old ≠ s
  | _ => false

/-- Packets handed in equal packets handed out, dropped, kept or overwritten. -/
def Conserved (c : IpoConfig) (st : IpoStream) : Prop :=
  st.events.countP isHandlePacket =
    st.events.countP isCompletePacket + st.events.countP isSkipped + validSlots c st +
      st.events.countP isOverwrite

/-! ## The invariant -/

structure IpoInvariant (c : IpoConfig) (st : IpoStream) : Prop where
  index_lt : st.index < c.sequenceNumberWrapAround
  slot_mod : ∀ i < c.sequenceNumberWrapAround, (st.extPacketInfoArr i).isValid = true →
    (st.extPacketInfoArr i).sequenceNumber % c.sequenceNumberWrapAround = i
  idle_empty : st.state ≠ .running →
    ∀ i < c.sequenceNumberWrapAround, (st.extPacketInfoArr i).isValid = false
  conserved : Conserved c st

theorem created_invariant : IpoInvariant c {} where
  index_lt := wrapAround_pos
  slot_mod := by
    intro i _ h
    simp at h
  idle_empty := by
    intro _ i _
    rfl
  conserved := by
    have hempty : validSlots c {} = 0 :=
      occupied_eq_zero_iff.mpr fun _ _ => rfl
    simp [Conserved, hempty]

/-- Events that move no packet into or out of the buffer. -/
def QuietEvent (e : IpoEvent) : Prop :=
  isHandlePacket e = false ∧ isCompletePacket e = false ∧ isSkipped e = false ∧
    isOverwrite e = false

/-- An operation that leaves the buffer alone keeps the invariant, as long as
it does not leave `Running`. -/
theorem invariant_of_same_buffer {st st' : IpoStream} (h : IpoInvariant c st)
    (hIndex : st'.index < c.sequenceNumberWrapAround)
    (hArr : st'.extPacketInfoArr = st.extPacketInfoArr)
    (hState : st'.state = st.state ∨ st'.state = .running)
    (hEvents : ∃ quiet, st'.events = quiet ++ st.events ∧ ∀ e ∈ quiet, QuietEvent e) :
    IpoInvariant c st' where
  index_lt := hIndex
  slot_mod := by
    rw [hArr]
    exact h.slot_mod
  idle_empty := by
    intro hIdle
    rw [hArr]
    rcases hState with hSame | hRun
    · exact h.idle_empty (hSame ▸ hIdle)
    · exact absurd hRun hIdle
  conserved := by
    obtain ⟨quiet, hEq, hQuiet⟩ := hEvents
    have hZero : ∀ {p : IpoEvent → Bool}, (∀ e ∈ quiet, p e = false) →
        quiet.countP p = 0 := by
      intro p hp
      rw [List.countP_eq_zero]
      intro e he
      simp [hp e he]
    have hold := h.conserved
    unfold Conserved validSlots at hold ⊢
    rw [hEq, hArr]
    simp only [List.countP_append]
    rw [hZero fun e he => (hQuiet e he).1, hZero fun e he => (hQuiet e he).2.1,
      hZero fun e he => (hQuiet e he).2.2.1, hZero fun e he => (hQuiet e he).2.2.2]
    omega

theorem quiet_nil {events : List IpoEvent} :
    ∃ quiet, events = quiet ++ events ∧ ∀ e ∈ quiet, QuietEvent e :=
  ⟨[], rfl, by simp⟩

theorem quiet_cons {e : IpoEvent} {events : List IpoEvent} (he : QuietEvent e) :
    ∃ quiet, e :: events = quiet ++ events ∧ ∀ e ∈ quiet, QuietEvent e :=
  ⟨[e], rfl, by simpa using he⟩

/-! ### Completions -/

theorem handlePacket_conserved {path s : Nat} {info : ReceivePacketInfo} {st : IpoStream}
    (h : Conserved c st)
    (hNew : (st.extPacketInfoArr (s % c.sequenceNumberWrapAround)).isValid = true →
      (st.extPacketInfoArr (s % c.sequenceNumberWrapAround)).sequenceNumber ≠ s) :
    Conserved c (handlePacket c path s info st) := by
  have hlt : s % c.sequenceNumberWrapAround < c.sequenceNumberWrapAround :=
    Nat.mod_lt _ wrapAround_pos
  have hcount := occupied_update (p := ExtPacketInfo.isValid) st.extPacketInfoArr hlt
    { sequenceNumber := s, isValid := true, timestamp := st.now, hwTimestamp := info.timestamp }
  unfold Conserved validSlots at h ⊢
  simp only [handlePacket, List.countP_cons]
  cases hv : (st.extPacketInfoArr (s % c.sequenceNumberWrapAround)).isValid with
  | false =>
    -- a free slot is filled
    simp only [hv, Bool.toNat_false, Bool.toNat_true] at hcount
    simp only [isHandlePacket, isCompletePacket, isSkipped, isOverwrite, if_true,
      Bool.false_eq_true, if_false]
    omega
  | true =>
    -- a valid slot changes its number
    have hne : s ≠ (st.extPacketInfoArr (s % c.sequenceNumberWrapAround)).sequenceNumber :=
      fun heq => hNew hv heq.symm
    simp only [hv, Bool.toNat_true] at hcount
    simp only [isHandlePacket, isCompletePacket, isSkipped, isOverwrite, if_true,
      Bool.false_eq_true, if_false, decide_eq_true_eq]
    rw [if_pos hne.symm]
    omega

theorem handlePacket_invariant {path s : Nat} {info : ReceivePacketInfo} {st : IpoStream}
    (h : IpoInvariant c st) (hRun : st.state = .running)
    (hNew : (st.extPacketInfoArr (s % c.sequenceNumberWrapAround)).isValid = true →
      (st.extPacketInfoArr (s % c.sequenceNumberWrapAround)).sequenceNumber ≠ s) :
    IpoInvariant c (handlePacket c path s info st) where
  index_lt := h.index_lt
  slot_mod := by
    intro i hi hv
    simp only [handlePacket] at hv ⊢
    by_cases hEq : i = s % c.sequenceNumberWrapAround
    · subst hEq
      rw [Function.update_self]
    · rw [Function.update_of_ne hEq] at hv ⊢
      exact h.slot_mod i hi hv
  idle_empty := by
    intro hIdle
    exact absurd hRun hIdle
  conserved := handlePacket_conserved h.conserved hNew

theorem resync_invariant {s : Nat} {st : IpoStream} (h : IpoInvariant c st) :
    IpoInvariant c (resync c s st) := by
  refine invariant_of_same_buffer h ?_ rfl (Or.inl rfl) (quiet_cons ⟨rfl, rfl, rfl, rfl⟩)
  simp only [resync]
  exact Nat.mod_lt _ wrapAround_pos

/-- Entering `Running` asks nothing of the buffer. -/
theorem run_invariant {st st' : IpoStream} (h : IpoInvariant c st)
    (hIndex : st'.index = st.index) (hArr : st'.extPacketInfoArr = st.extPacketInfoArr)
    (hEvents : st'.events = st.events) (hRun : st'.state = .running) : IpoInvariant c st' :=
  invariant_of_same_buffer h (hIndex ▸ h.index_lt) hArr (Or.inr hRun)
    (hEvents ▸ quiet_nil)

theorem switchState_invariant {s : Nat} {st : IpoStream} (h : IpoInvariant c st) :
    IpoInvariant c (switchState c s st) := by
  unfold switchState
  split
  · exact h
  · exact h
  · exact run_invariant (resync_invariant h) rfl rfl rfl rfl
  · split
    · have hRestarted : IpoInvariant c { st with events := .handleSenderRestart :: st.events } :=
        invariant_of_same_buffer h h.index_lt rfl (Or.inl rfl) (quiet_cons ⟨rfl, rfl, rfl, rfl⟩)
      exact run_invariant (resync_invariant hRestarted) rfl rfl rfl rfl
    · exact run_invariant h rfl rfl rfl rfl

theorem switchState_running {s : Nat} {st : IpoStream} (h : st.state ≠ .notStarted) :
    (switchState c s st).state = .running := by
  unfold switchState
  split
  · rename_i hs
    exact absurd hs h
  · assumption
  · rfl
  · split <;> rfl

theorem dispatchPacket_invariant {path s : Nat} {info : ReceivePacketInfo} {st : IpoStream}
    (h : IpoInvariant c st) (hRun : st.state = .running) :
    IpoInvariant c (dispatchPacket c path s info st) := by
  unfold dispatchPacket
  dsimp only
  split
  · exact invariant_of_same_buffer h h.index_lt rfl (Or.inl rfl)
      (quiet_cons ⟨rfl, rfl, rfl, rfl⟩)
  · split
    · rename_i hNew
      apply handlePacket_invariant h hRun
      intro hv
      simpa [hv] using hNew
    · exact invariant_of_same_buffer h h.index_lt rfl (Or.inl rfl)
        (quiet_cons ⟨rfl, rfl, rfl, rfl⟩)

/-- Handling a packet never stops the stream again. -/
theorem dispatchPacket_state {path s : Nat} {info : ReceivePacketInfo} {st : IpoStream} :
    (dispatchPacket c path s info st).state = st.state := by
  unfold dispatchPacket handlePacket
  dsimp only
  split
  · rfl
  · split <;> rfl

theorem processPacket_invariant (path : Nat) (packet : ReceivedPacket) {st : IpoStream}
    (h : IpoInvariant c st) (hStarted : st.state ≠ .notStarted) :
    IpoInvariant c (processPacket c path packet st) ∧
      (processPacket c path packet st).state ≠ .notStarted := by
  unfold processPacket
  split
  · exact ⟨invariant_of_same_buffer h h.index_lt rfl (Or.inl rfl)
      (quiet_cons ⟨rfl, rfl, rfl, rfl⟩), hStarted⟩
  · rename_i s _
    have hRun := switchState_running (c := c) (s := s) hStarted
    refine ⟨dispatchPacket_invariant (switchState_invariant h) hRun, ?_⟩
    rw [dispatchPacket_state, hRun]
    decide

/-- What every packet keeps, a call keeps while it polls. -/
theorem pollPaths_keeps {P : IpoStream → Prop}
    (hPacket : ∀ path packet {st}, P st → P (processPacket c path packet st))
    (polls : List PathPoll) {st : IpoStream} (h : P st) : P (pollPaths c polls st).2 := by
  induction polls generalizing st with
  | nil => exact h
  | cons poll rest ih =>
    rw [pollPaths]
    split
    · rename_i packets _
      refine ih (List.foldlRecOn (motive := P) packets _ h ?_)
      intro st' h' packet _
      exact hPacket poll.path packet h'
    -- a failed poll leaves the state the paths before it left
    · exact h
    · exact h

theorem pollPaths_invariant (polls : List PathPoll) {st : IpoStream}
    (h : IpoInvariant c st) (hStarted : st.state ≠ .notStarted) :
    IpoInvariant c (pollPaths c polls st).2 := by
  have hBoth := pollPaths_keeps (P := fun st => IpoInvariant c st ∧ st.state ≠ .notStarted)
    (fun path packet _ h => processPacket_invariant path packet h.1 h.2) polls ⟨h, hStarted⟩
  exact hBoth.1

/-! ### Reconstruction -/

theorem validSlots_release {st : IpoStream} {i : Nat} (hi : i < c.sequenceNumberWrapAround)
    (hv : (st.extPacketInfoArr i).isValid = true) {slot : ExtPacketInfo}
    (hSlot : slot.isValid = false) :
    occupied ExtPacketInfo.isValid c.sequenceNumberWrapAround
      (Function.update st.extPacketInfoArr i slot) + 1 = validSlots c st := by
  have hcount := occupied_update (p := ExtPacketInfo.isValid) st.extPacketInfoArr hi slot
  simp only [hv, hSlot, Bool.toNat_true, Bool.toNat_false] at hcount
  exact hcount

/-- Taking one packet out of the buffer, on either of the two ways out. -/
theorem release_invariant {st st' : IpoStream} (h : IpoInvariant c st)
    (hv : (st.extPacketInfoArr st.index).isValid = true) (hRun : st.state = .running)
    (hIndex : st'.index = c.nextIndex st.index)
    {slot : ExtPacketInfo} (hSlot : slot.isValid = false)
    (hArr : st'.extPacketInfoArr = Function.update st.extPacketInfoArr st.index slot)
    (hState : st'.state = st.state) {e : IpoEvent} (hEvents : st'.events = e :: st.events)
    (hOut : (∃ s, e = .completePacket s) ∨ ∃ s, e = .skipped s) :
    IpoInvariant c st' where
  index_lt := by
    rw [hIndex]
    exact nextIndex_lt st.index
  slot_mod := by
    intro i hi hvi
    rw [hArr] at hvi ⊢
    by_cases hEq : i = st.index
    · subst hEq
      rw [Function.update_self, hSlot] at hvi
      exact absurd hvi (by decide)
    · rw [Function.update_of_ne hEq] at hvi ⊢
      exact h.slot_mod i hi hvi
  idle_empty := by
    intro hIdle
    rw [hState] at hIdle
    exact absurd hRun hIdle
  conserved := by
    have hcount := validSlots_release h.index_lt hv hSlot
    have hold := h.conserved
    unfold Conserved at hold ⊢
    rw [validSlots, hArr, hEvents]
    simp only [List.countP_cons]
    rcases hOut with ⟨s, rfl⟩ | ⟨s, rfl⟩ <;>
      simp only [isHandlePacket, isCompletePacket, isSkipped, isOverwrite, if_true,
        Bool.false_eq_true, if_false] <;>
      omega

/-- One turn of the skip loop. -/
def skipPacket (c : IpoConfig) (st : IpoStream) : IpoStream :=
  releaseSlot c
    { st with
      nextPacketTime := (st.extPacketInfoArr st.index).timestamp
      events := .skipped (st.extPacketInfoArr st.index).sequenceNumber :: st.events }

/-- One turn of the transfer loop. -/
def transferPacket (c : IpoConfig) (st : IpoStream) : IpoStream :=
  completePacket (st.extPacketInfoArr st.index).sequenceNumber (releaseSlot c st)

theorem skipInitialSync_succ (fuel : Nat) (st : IpoStream) :
    skipInitialSync c (fuel + 1) st =
      if (st.extPacketInfoArr st.index).isValid = false then (st, false)
      else if st.startTime ≤ (st.extPacketInfoArr st.index).timestamp then (st, true)
      else skipInitialSync c fuel (skipPacket c st) := by
  simp only [skipInitialSync, skipPacket, Bool.not_eq_true']

theorem transferContiguous_succ (fuel : Nat) (st : IpoStream) (last size : Nat) :
    transferContiguous c (fuel + 1) st last size =
      if (st.extPacketInfoArr st.index).isValid = false then (st, last, size)
      else if st.now ≤ (st.extPacketInfoArr st.index).timestamp + c.maxPathDifferential then
        (st, last, size)
      else if c.sequenceNumberWrapAround ≤ st.index + 1 then
        (transferPacket c st, (st.extPacketInfoArr st.index).hwTimestamp, size + 1)
      else transferContiguous c fuel (transferPacket c st)
        (st.extPacketInfoArr st.index).hwTimestamp (size + 1) := by
  simp only [transferContiguous, transferPacket, Bool.not_eq_true']

theorem skipPacket_invariant {st : IpoStream} (h : IpoInvariant c st)
    (hv : (st.extPacketInfoArr st.index).isValid = true) (hRun : st.state = .running) :
    IpoInvariant c (skipPacket c st) :=
  release_invariant h hv hRun rfl rfl rfl rfl rfl (Or.inr ⟨_, rfl⟩)

theorem transferPacket_invariant {st : IpoStream} (h : IpoInvariant c st)
    (hv : (st.extPacketInfoArr st.index).isValid = true) (hRun : st.state = .running) :
    IpoInvariant c (transferPacket c st) :=
  release_invariant h hv hRun rfl rfl rfl rfl rfl (Or.inl ⟨_, rfl⟩)

/-- The skip loop empties one slot a turn, so any bound above the number of
valid slots gives the unbounded loop. -/
theorem skipInitialSync_fuel {fuel fuel' : Nat} {st : IpoStream}
    (hIndex : st.index < c.sequenceNumberWrapAround)
    (hFuel : validSlots c st < fuel) (hFuel' : validSlots c st < fuel') :
    skipInitialSync c fuel st = skipInitialSync c fuel' st := by
  induction fuel generalizing fuel' st with
  | zero => omega
  | succ fuel ih =>
    obtain ⟨fuel', rfl⟩ := Nat.exists_eq_succ_of_ne_zero (show fuel' ≠ 0 by omega)
    rw [skipInitialSync_succ, skipInitialSync_succ]
    split
    · rfl
    · rename_i hv
      split
      · rfl
      · have hless : validSlots c (skipPacket c st) + 1 = validSlots c st :=
          validSlots_release hIndex (by simpa using hv) rfl
        exact ih (nextIndex_lt st.index) (by omega) (by omega)

/-- The transfer loop ends at the end of the buffer at the latest. -/
theorem transferContiguous_fuel {fuel fuel' : Nat} {st : IpoStream} {last size : Nat}
    (hIndex : st.index < c.sequenceNumberWrapAround)
    (hFuel : c.sequenceNumberWrapAround ≤ st.index + fuel)
    (hFuel' : c.sequenceNumberWrapAround ≤ st.index + fuel') :
    transferContiguous c fuel st last size = transferContiguous c fuel' st last size := by
  induction fuel generalizing fuel' st last size with
  | zero => omega
  | succ fuel ih =>
    obtain ⟨fuel', rfl⟩ := Nat.exists_eq_succ_of_ne_zero (show fuel' ≠ 0 by omega)
    rw [transferContiguous_succ, transferContiguous_succ]
    split
    · rfl
    · split
      · rfl
      · split
        · rfl
        · have hnext : (transferPacket c st).index = st.index + 1 := by
            simp only [transferPacket, completePacket, releaseSlot, IpoConfig.nextIndex]
            rw [if_neg (by assumption)]
          apply ih <;> omega

/-- What every skipped packet keeps, the skip loop keeps. -/
theorem skipInitialSync_keeps {P : IpoStream → Prop}
    (hSkip : ∀ {st}, (st.extPacketInfoArr st.index).isValid = true → P st → P (skipPacket c st))
    (fuel : Nat) {st : IpoStream} (h : P st) : P (skipInitialSync c fuel st).1 := by
  induction fuel generalizing st with
  | zero => exact h
  | succ fuel ih =>
    rw [skipInitialSync_succ]
    split
    · exact h
    · rename_i hv
      split
      · exact h
      · exact ih (hSkip (by simpa using hv) h)

/-- What every delivered packet keeps, the transfer loop keeps. -/
theorem transferContiguous_keeps {P : IpoStream → Prop}
    (hTransfer : ∀ {st}, (st.extPacketInfoArr st.index).isValid = true → P st →
      P (transferPacket c st))
    (fuel : Nat) {st : IpoStream} {last size : Nat} (h : P st) :
    P (transferContiguous c fuel st last size).1 := by
  induction fuel generalizing st last size with
  | zero => exact h
  | succ fuel ih =>
    rw [transferContiguous_succ]
    split
    · exact h
    · rename_i hv
      have hNext := hTransfer (by simpa using hv) h
      split
      · exact h
      · split
        -- the chunk ends with the buffer, or goes on
        · exact hNext
        · exact ih hNext

theorem skipInitialSync_invariant (fuel : Nat) {st : IpoStream} (h : IpoInvariant c st)
    (hRun : st.state = .running) :
    IpoInvariant c (skipInitialSync c fuel st).1 ∧
      (skipInitialSync c fuel st).1.state = .running :=
  skipInitialSync_keeps (P := fun st => IpoInvariant c st ∧ st.state = .running)
    (fun hValid h => ⟨skipPacket_invariant h.1 hValid h.2, h.2⟩) fuel ⟨h, hRun⟩

theorem transferContiguous_invariant {fuel : Nat} {st : IpoStream} {last size : Nat}
    (h : IpoInvariant c st) (hRun : st.state = .running) :
    IpoInvariant c (transferContiguous c fuel st last size).1 := by
  have hBoth := @transferContiguous_keeps c (fun st => IpoInvariant c st ∧ st.state = .running)
    (fun hValid h => ⟨transferPacket_invariant h.1 hValid h.2, h.2⟩) fuel st last size ⟨h, hRun⟩
  exact hBoth.1

/-- What `reconstruct` can do, with what it knows when it does it. -/
inductive Reconstructs (c : IpoConfig) (st : IpoStream) (chunk : IpoReceiveChunk) :
    IpoStream × IpoReceiveChunk → Prop
  | early
      (hEarly : st.state ≠ .running ∨ st.now ≤ st.nextPacketTime + c.maxPathDifferential) :
      Reconstructs c st chunk (st, chunk)
  | empty (hRun : st.state = .running)
      (hSearch : searchValid c st.extPacketInfoArr c.sequenceNumberWrapAround st.index = none) :
      Reconstructs c st chunk ({ st with state := .waiting }, chunk)
  | young {startIdx : Nat} (hRun : st.state = .running)
      (hSearch :
        searchValid c st.extPacketInfoArr c.sequenceNumberWrapAround st.index = some startIdx) :
      Reconstructs c st chunk
        ({ st with nextPacketTime := (st.extPacketInfoArr startIdx).timestamp }, chunk)
  | skipped {startIdx : Nat} {st' : IpoStream} (hRun : st.state = .running)
      (hSearch :
        searchValid c st.extPacketInfoArr c.sequenceNumberWrapAround st.index = some startIdx)
      (hSkip : skipInitialSync c (c.sequenceNumberWrapAround + 1) { st with index := startIdx } =
        (st', false)) :
      Reconstructs c st chunk (st', chunk)
  | delivered {startIdx : Nat} {synced : IpoStream} (hRun : st.state = .running)
      (hDue : st.nextPacketTime + c.maxPathDifferential < st.now)
      (hSearch :
        searchValid c st.extPacketInfoArr c.sequenceNumberWrapAround st.index = some startIdx)
      (hRipe : ¬ st.now ≤ (st.extPacketInfoArr startIdx).timestamp + c.maxPathDifferential)
      (hSkip : skipInitialSync c (c.sequenceNumberWrapAround + 1) { st with index := startIdx } =
        (synced, true)) :
      Reconstructs c st chunk
        (let transferred :=
          transferContiguous c c.sequenceNumberWrapAround synced chunk.timestampLast 0
        (transferred.1, fillChunk c synced.index transferred.2.2 transferred.2.1
          (synced.extPacketInfoArr synced.index) chunk))

theorem reconstructs (st : IpoStream) (chunk : IpoReceiveChunk) :
    Reconstructs c st chunk (reconstruct c st chunk) := by
  unfold reconstruct
  split
  · rename_i hIdle
    exact .early (.inl hIdle)
  rename_i hNotIdle
  have hRun : st.state = .running := not_not.mp hNotIdle
  split
  · rename_i hEarly
    exact .early (.inr hEarly)
  rename_i hDue
  split
  · rename_i hSearch
    exact .empty hRun hSearch
  rename_i startIdx hSearch
  dsimp only
  split
  · exact .young hRun hSearch
  rename_i hRipe
  split
  · rename_i hSkip
    exact .skipped hRun hSearch hSkip
  · rename_i hSkip
    exact .delivered hRun (Int.not_le.mp hDue) hSearch hRipe hSkip

/-- The slot the search ends at. -/
theorem invariant_of_searchValid {st : IpoStream} (h : IpoInvariant c st) {startIdx : Nat}
    (hSearch :
      searchValid c st.extPacketInfoArr c.sequenceNumberWrapAround st.index = some startIdx) :
    IpoInvariant c { st with index := startIdx } := by
  obtain ⟨k, -, hAt, -, -⟩ := searchValid_some h.index_lt hSearch
  exact ⟨hAt ▸ Nat.mod_lt _ wrapAround_pos, h.slot_mod, h.idle_empty, h.conserved⟩

theorem reconstruct_invariant {st : IpoStream} {chunk : IpoReceiveChunk}
    (h : IpoInvariant c st) : IpoInvariant c (reconstruct c st chunk).1 := by
  have hDone := reconstructs (c := c) st chunk
  generalize reconstruct c st chunk = r at hDone ⊢
  cases hDone with
  | early => exact h
  | empty _ hSearch =>
    -- `Waiting` is entered from an empty buffer
    have hEmpty := empty_of_searchValid_none h.index_lt hSearch
    exact ⟨h.index_lt, h.slot_mod, fun _ => hEmpty, h.conserved⟩
  | young => exact ⟨h.index_lt, h.slot_mod, h.idle_empty, h.conserved⟩
  | skipped hRun hSearch hSkip =>
    have hKept := skipInitialSync_invariant (c.sequenceNumberWrapAround + 1)
      (invariant_of_searchValid h hSearch) hRun
    rw [hSkip] at hKept
    exact hKept.1
  | delivered hRun _ hSearch _ hSkip =>
    have hKept := skipInitialSync_invariant (c.sequenceNumberWrapAround + 1)
      (invariant_of_searchValid h hSearch) hRun
    rw [hSkip] at hKept
    exact transferContiguous_invariant hKept.1 hKept.2

/-! ## Reachable states -/

theorem start_invariant {now : Int} {st : IpoStream} (h : IpoInvariant c st)
    (hIdle : st.state ≠ .running) : IpoInvariant c (start c now st) :=
  ⟨h.index_lt, h.slot_mod, fun _ => h.idle_empty hIdle, h.conserved⟩

theorem beginCall_invariant (now : Int) {st : IpoStream} (h : IpoInvariant c st) :
    IpoInvariant c (beginCall c now st) ∧ (beginCall c now st).state ≠ .notStarted := by
  unfold beginCall
  split
  · rename_i hState
    refine ⟨⟨h.index_lt, h.slot_mod, fun _ => h.idle_empty ?_, h.conserved⟩, by simp⟩
    rw [hState]
    decide
  · exact ⟨⟨h.index_lt, h.slot_mod, h.idle_empty, h.conserved⟩, by assumption⟩

theorem getNextChunk_invariant {now : Int} {polls : List PathPoll} {st : IpoStream}
    {chunk : IpoReceiveChunk} (h : IpoInvariant c st) :
    IpoInvariant c (getNextChunk c now polls st chunk).2.1 := by
  obtain ⟨hBegin, hStarted⟩ := beginCall_invariant now h
  have hPolled := pollPaths_invariant polls hBegin hStarted
  unfold getNextChunk
  split
  · rename_i polled hEq
    rw [hEq] at hPolled
    exact reconstruct_invariant hPolled
  · rename_i hEq
    rw [hEq] at hPolled
    exact hPolled

/-- A call polls, and reconstructs only if every path answered. -/
theorem nextState_eq (now : Int) (polls : List PathPoll) (st : IpoStream) :
    nextState c now polls st =
      if (pollPaths c polls (beginCall c now st)).1 = .success then
        (reconstruct c (pollPaths c polls (beginCall c now st)).2 {}).1
      else (pollPaths c polls (beginCall c now st)).2 := by
  unfold nextState getNextChunk
  split
  · rename_i polled hEq
    simp only [hEq, if_true]
  · rename_i status polled hFailed hEq
    simp only [hEq]
    rw [if_neg hFailed]

/-- **The representation invariant holds of every reachable state.** -/
theorem reachable_invariant {st : IpoStream} (h : Reachable c st) : IpoInvariant c st := by
  induction h with
  | created => exact created_invariant
  | start now _ hState ih =>
    apply start_invariant ih
    rcases hState with h | h <;> rw [h] <;> decide
  | getNextChunk now polls _ ih => exact getNextChunk_invariant ih

/-- **Representation and conservation.** In every reachable state the position
and the valid slots fit the buffer, the buffer is empty outside `Running`, a
call that ends in `Waiting` leaves it empty, and every packet handed to
`handle_packet` is completed, skipped, still kept or was overwritten by another
number. -/
theorem representation_and_conservation {st : IpoStream} (hReach : Reachable c st) :
    st.index < c.sequenceNumberWrapAround ∧
      (∀ i < c.sequenceNumberWrapAround, (st.extPacketInfoArr i).isValid = true →
        (st.extPacketInfoArr i).sequenceNumber % c.sequenceNumberWrapAround = i) ∧
      (st.state = .notStarted ∨ st.state = .waitFirstPacket ∨ st.state = .waiting →
        ∀ i < c.sequenceNumberWrapAround, (st.extPacketInfoArr i).isValid = false) ∧
      (∀ (now : Int) (polls : List PathPoll), (nextState c now polls st).state = .waiting →
        ∀ i < c.sequenceNumberWrapAround,
          ((nextState c now polls st).extPacketInfoArr i).isValid = false) ∧
      st.events.countP isHandlePacket =
        st.events.countP isCompletePacket + st.events.countP isSkipped + validSlots c st +
          st.events.countP isOverwrite := by
  have hInv := reachable_invariant hReach
  refine ⟨hInv.index_lt, hInv.slot_mod, ?_, ?_, hInv.conserved⟩
  · intro hState
    apply hInv.idle_empty
    rcases hState with h | h | h <;> rw [h] <;> decide
  · intro now polls hWaiting
    have hNext := reachable_invariant (.getNextChunk now polls hReach)
    apply hNext.idle_empty
    rw [hWaiting]
    decide

/-- Two redundant paths bring `100` and `101`; the last call hands them out and
keeps `106`. -/
def twoPathRun : List IpoCall :=
  [(0, [rtpPoll 0 [], rtpPoll 1 []]), (60000, [rtpPoll 0 [100, 101], rtpPoll 1 [100]]),
    (120000, [rtpPoll 0 [], rtpPoll 1 [101, 106]])]

theorem representation_and_conservation_twoPathRun :
    let st := runCalls fourSlots twoPathRun {}
    st.events.countP isCompletePacket = 2 ∧ validSlots fourSlots st = 1 ∧
      st.index < fourSlots.sequenceNumberWrapAround := by
  intro st
  have hReach : Reachable fourSlots st := reachable_runCalls twoPathRun .created
  exact ⟨by decide +kernel, by decide +kernel, (representation_and_conservation hReach).1⟩

end RivermaxDevKit
