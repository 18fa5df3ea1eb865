import RivermaxDevKit.Ipo.ChunkGeometry

/-!
# Inline Packet Ordering — ready packets

`get_next_chunk` returns at once while `m_next_packet_time` lies less than the
path differential back. Four places write that time; none of them lets it run
ahead of the packet that is next to be returned.

* `FirstValid` — the first valid slot in window order.
* `NextPacketKept` — the cached time against the clock and the buffer;
  `reachableBy_nextPacketKept` derives it for a clock that never goes back.
* `ready_packet_returned` — a packet that is ready is the first one returned.
-/

namespace RivermaxDevKit

variable {c : IpoConfig}

/-! ## The first valid slot -/

/-- `f` is the first valid slot from the position on. -/
def FirstValid (c : IpoConfig) (st : IpoStream) (f : Nat) : Prop :=
  ∃ k < c.sequenceNumberWrapAround, f = (st.index + k) % c.sequenceNumberWrapAround ∧
    (st.extPacketInfoArr f).isValid = true ∧
    ∀ k' < k,
      (st.extPacketInfoArr ((st.index + k') % c.sequenceNumberWrapAround)).isValid = false

theorem firstValid_unique {st : IpoStream} {f g : Nat} (hf : FirstValid c st f)
    (hg : FirstValid c st g) : f = g := by
  obtain ⟨k, -, rfl, hValid, hBefore⟩ := hf
  obtain ⟨l, -, rfl, hValid', hBefore'⟩ := hg
  rcases Nat.lt_trichotomy k l with hLt | rfl | hGt
  · rw [hBefore' k hLt] at hValid
    cases hValid
  · rfl
  · rw [hBefore l hGt] at hValid'
    cases hValid'

/-- The gap search finds the first valid slot. -/
theorem searchValid_eq_some_iff {st : IpoStream} (hIndex : st.index < c.sequenceNumberWrapAround)
    {f : Nat} : searchValid c st.extPacketInfoArr c.sequenceNumberWrapAround st.index = some f ↔
      FirstValid c st f := by
  constructor
  · exact searchValid_some hIndex
  · intro hFirst
    cases hSearch : searchValid c st.extPacketInfoArr c.sequenceNumberWrapAround st.index with
    | none =>
      -- a search that finds nothing has looked at every slot
      obtain ⟨k, hk, rfl, hValid, -⟩ := hFirst
      rw [searchValid_none hIndex hSearch k hk] at hValid
      cases hValid
    | some g => exact congrArg some (firstValid_unique (searchValid_some hIndex hSearch) hFirst)

/-- Storing a packet makes its slot the first valid one, or changes nothing
about which is. -/
theorem firstValid_of_store {st st' : IpoStream} {i f : Nat} {slot : ExtPacketInfo}
    (hIndex : st'.index = st.index)
    (hArr : st'.extPacketInfoArr = Function.update st.extPacketInfoArr i slot)
    (hSlot : slot.isValid = true) (hFirst : FirstValid c st' f) : f = i ∨ FirstValid c st f := by
  by_cases hf : f = i
  · exact .inl hf
  · refine .inr ?_
    obtain ⟨k, hk, hAt, hValid, hBefore⟩ := hFirst
    rw [hIndex] at hAt hBefore
    rw [hArr] at hValid hBefore
    refine ⟨k, hk, hAt, ?_, ?_⟩
    · rw [Function.update_of_ne hf] at hValid
      exact hValid
    · intro k' hk'
      have hInvalid := hBefore k' hk'
      -- a slot passed on the way was invalid before as well
      by_cases hOwn : (st.index + k') % c.sequenceNumberWrapAround = i
      · rw [hOwn, Function.update_self, hSlot] at hInvalid
        cases hInvalid
      · rw [Function.update_of_ne hOwn] at hInvalid
        exact hInvalid

/-! ## The cached time -/

/-- In `Running` no packet is from the future, nor is `m_next_packet_time`; and
that time is either ripe, or not after the arrival of the packet that is next,
if that packet belongs to the synchronised stream. -/
structure NextPacketKept (c : IpoConfig) (t : Int) (st : IpoStream) : Prop where
  arrived : ∀ j, (st.extPacketInfoArr j).isValid = true → (st.extPacketInfoArr j).timestamp ≤ t
  le : st.state = .running → st.nextPacketTime ≤ t
  gate : st.state = .running → st.nextPacketTime + c.maxPathDifferential < t ∨
    ∀ f, FirstValid c st f → st.startTime ≤ (st.extPacketInfoArr f).timestamp →
      st.nextPacketTime ≤ (st.extPacketInfoArr f).timestamp

theorem NextPacketKept.mono {t t' : Int} {st : IpoStream} (h : NextPacketKept c t st)
    (hClock : t ≤ t') : NextPacketKept c t' st where
  arrived := fun j hValid => Int.le_trans (h.arrived j hValid) hClock
  le := fun hRun => Int.le_trans (h.le hRun) hClock
  gate := by
    intro hRun
    rcases h.gate hRun with hRipe | hNext
    · exact .inl (Int.lt_of_lt_of_le hRipe hClock)
    · exact .inr hNext

/-- Outside `Running` the cached time does not matter. -/
theorem nextPacketKept_idle {t : Int} {st : IpoStream} (hIdle : st.state ≠ .running)
    (hArrived : ∀ j, (st.extPacketInfoArr j).isValid = true →
      (st.extPacketInfoArr j).timestamp ≤ t) : NextPacketKept c t st :=
  ⟨hArrived, fun hRun => absurd hRun hIdle, fun hRun => absurd hRun hIdle⟩

/-- An operation that touches neither buffer, position, state nor times. -/
theorem NextPacketKept.of_same {t : Int} {st st' : IpoStream} (h : NextPacketKept c t st)
    (hArr : st'.extPacketInfoArr = st.extPacketInfoArr) (hIndex : st'.index = st.index)
    (hState : st'.state = st.state) (hTime : st'.nextPacketTime = st.nextPacketTime)
    (hStart : st'.startTime = st.startTime) : NextPacketKept c t st' where
  arrived := by
    rw [hArr]
    exact h.arrived
  le := by
    rw [hState, hTime]
    exact h.le
  gate := by
    -- which slot is first depends on the buffer and the position only
    unfold FirstValid
    rw [hState, hTime, hStart, hArr, hIndex]
    exact h.gate

/-! ### Completions -/

/-- Leaving an idle state: the buffer is empty, and the cached time is now. -/
theorem switchState_nextPacketKept {s : Nat} {st : IpoStream} (hRep : IpoInvariant c st)
    (h : NextPacketKept c st.now st) : NextPacketKept c st.now (switchState c s st) := by
  have hEmpty : st.state ≠ .running → ∀ st' : IpoStream,
      st'.extPacketInfoArr = st.extPacketInfoArr → st'.nextPacketTime = st.now →
      NextPacketKept c st.now st' := by
    intro hIdle st' hArr hTime
    refine ⟨?_, fun _ => Int.le_of_eq hTime, fun _ => .inr ?_⟩
    · rw [hArr]
      exact h.arrived
    · rintro f ⟨k, -, hAt, hValid, -⟩
      rw [hArr, hRep.idle_empty hIdle f (hAt ▸ Nat.mod_lt _ wrapAround_pos)] at hValid
      cases hValid
  unfold switchState
  -- NotStarted and Running stay
  split
  · exact h
  · exact h
  · rename_i hState
    exact hEmpty (by rw [hState]; decide) _ rfl rfl
  · rename_i hState
    split
    · exact hEmpty (by rw [hState]; decide) _ rfl rfl
    · exact hEmpty (by rw [hState]; decide) _ rfl rfl

theorem handlePacket_nextPacketKept {path s : Nat} {info : ReceivePacketInfo} {st : IpoStream}
    (h : NextPacketKept c st.now st) : NextPacketKept c st.now (handlePacket c path s info st) where
  arrived := by
    intro j hValid
    rcases (storesNow_handlePacket (c := c) path s info st).2 j with hKept | ⟨-, hNow⟩
    · rw [hKept] at hValid ⊢
      exact h.arrived j hValid
    · exact Int.le_of_eq hNow
  le := h.le
  gate := by
    intro hRun
    rcases h.gate hRun with hRipe | hNext
    · exact .inl hRipe
    · refine .inr ?_
      intro f hFirst hSynced
      rcases (storesNow_handlePacket (c := c) path s info st).2 f with hKept | ⟨-, hNow⟩
      · -- what was kept: the slot was first before, or is the one stored into
        have hStored := @firstValid_of_store c st (handlePacket c path s info st) _ f
          ⟨s, true, st.now, info.timestamp⟩ rfl rfl rfl hFirst
        rcases hStored with rfl | hOld
        · -- the packet that was just stored
          have hOwn : ((handlePacket c path s info st).extPacketInfoArr
              (s % c.sequenceNumberWrapAround)).timestamp = st.now := by
            simp only [handlePacket, Function.update_self]
          rw [hOwn]
          exact h.le hRun
        · rw [hKept] at hSynced ⊢
          exact hNext f hOld hSynced
      · rw [hNow]
        exact h.le hRun

theorem dispatchPacket_nextPacketKept {path s : Nat} {info : ReceivePacketInfo} {st : IpoStream}
    (h : NextPacketKept c st.now st) :
    NextPacketKept c st.now (dispatchPacket c path s info st) := by
  unfold dispatchPacket
  dsimp only
  split
  · exact h.of_same rfl rfl rfl rfl rfl
  · split
    · exact handlePacket_nextPacketKept h
    · exact h.of_same rfl rfl rfl rfl rfl

/-- What a call keeps while it polls. -/
structure PollKept (c : IpoConfig) (t : Int) (st : IpoStream) : Prop where
  rep : IpoInvariant c st
  started : st.state ≠ .notStarted
  now : st.now = t
  kept : NextPacketKept c t st

theorem processPacket_pollKept (path : Nat) (packet : ReceivedPacket) {t : Int} {st : IpoStream}
    (h : PollKept c t st) : PollKept c t (processPacket c path packet st) := by
  obtain ⟨hRep, hStarted⟩ := processPacket_invariant path packet h.rep h.started
  have hNow := (storesNow_processPacket (c := c) path packet st).1.trans h.now
  refine ⟨hRep, hStarted, hNow, ?_⟩
  have hKept := h.kept
  rw [← h.now] at hKept ⊢
  unfold processPacket
  split
  · exact hKept.of_same rfl rfl rfl rfl rfl
  · rename_i s _
    have hSwitched := (storesNow_switchState (c := c) s st).1
    have hAfter := switchState_nextPacketKept (s := s) h.rep hKept
    rw [← hSwitched] at hAfter ⊢
    exact dispatchPacket_nextPacketKept hAfter

theorem pollPaths_pollKept (polls : List PathPoll) {t : Int} {st : IpoStream}
    (h : PollKept c t st) : PollKept c t (pollPaths c polls st).2 :=
  pollPaths_keeps (fun path packet _ h => processPacket_pollKept path packet h) polls h

/-! ### Reconstruction -/

/-- The skip loop caches the arrival of packets older than the synchronised
stream, if it moves at all. -/
theorem skipInitialSync_nextPacketTime (fuel : Nat) {st : IpoStream} :
    ((skipInitialSync c fuel st).1.nextPacketTime = st.nextPacketTime ∧
        ((st.extPacketInfoArr st.index).isValid = true → 0 < fuel →
          (skipInitialSync c fuel st) = (st, true))) ∨
      ((skipInitialSync c fuel st).1.nextPacketTime < st.startTime ∧
        ∃ j, (st.extPacketInfoArr j).isValid = true ∧
          (skipInitialSync c fuel st).1.nextPacketTime = (st.extPacketInfoArr j).timestamp) := by
  induction fuel generalizing st with
  | zero => exact .inl ⟨rfl, fun _ hFuel => absurd hFuel (Nat.lt_irrefl 0)⟩
  | succ fuel ih =>
    rw [skipInitialSync_succ]
    split
    · rename_i hInvalid
      refine .inl ⟨rfl, ?_⟩
      intro hValid
      rw [hInvalid] at hValid
      cases hValid
    · rename_i hv
      have hValid : (st.extPacketInfoArr st.index).isValid = true := by simpa using hv
      split
      · exact .inl ⟨rfl, fun _ _ => rfl⟩
      · rename_i hOld
        refine .inr ?_
        -- the last packet that was skipped gives the time
        rcases @ih (skipPacket c st) with ⟨hSame, -⟩ | ⟨hLess, j, hj, hTime⟩
        · rw [hSame]
          exact ⟨Int.not_le.mp hOld, st.index, hValid, rfl⟩
        · refine ⟨hLess, j, ?_⟩
          have hKept := keepsSlots_skipPacket (c := c) st j hj
          rw [hKept] at hj hTime
          exact ⟨hj, hTime⟩

theorem transferContiguous_times (fuel : Nat) {st : IpoStream} {last size : Nat} :
    (transferContiguous c fuel st last size).1.nextPacketTime = st.nextPacketTime ∧
      (transferContiguous c fuel st last size).1.startTime = st.startTime :=
  transferContiguous_keeps
    (P := fun st' => st'.nextPacketTime = st.nextPacketTime ∧ st'.startTime = st.startTime)
    (fun _ h => h) fuel ⟨rfl, rfl⟩

/-- The time after the loops that deliver: ripe as before, or older than the
synchronised stream. -/
theorem nextPacketKept_of_times {t : Int} {st st' : IpoStream}
    (hArrived : ∀ j, (st.extPacketInfoArr j).isValid = true → (st.extPacketInfoArr j).timestamp ≤ t)
    (hKeeps : KeepsSlots st st')
    (hTime : (st'.nextPacketTime ≤ t ∧ st'.nextPacketTime + c.maxPathDifferential < t) ∨
      (st'.nextPacketTime ≤ t ∧ st'.nextPacketTime < st'.startTime)) : NextPacketKept c t st' where
  arrived := by
    intro j hValid
    have hKept := hKeeps j hValid
    rw [hKept] at hValid ⊢
    exact hArrived j hValid
  le := by
    intro _
    rcases hTime with ⟨hLe, -⟩ | ⟨hLe, -⟩ <;> exact hLe
  gate := by
    intro _
    rcases hTime with ⟨-, hRipe⟩ | ⟨-, hOlder⟩
    · exact .inl hRipe
    · exact .inr fun f _ hSynced => by omega

theorem reconstruct_nextPacketKept {st : IpoStream} {chunk : IpoReceiveChunk}
    (hIndex : st.index < c.sequenceNumberWrapAround) (h : NextPacketKept c st.now st) :
    NextPacketKept c st.now (reconstruct c st chunk).1 := by
  have hDone := reconstructs (c := c) st chunk
  generalize reconstruct c st chunk = r at hDone ⊢
  cases hDone with
  | early => exact h
  | empty =>
    refine nextPacketKept_idle ?_ h.arrived
    show IpoState.waiting ≠ .running
    decide
  | @young startIdx _ hSearch =>
    -- the cached time is the arrival of the packet that is next
    have hFirst := (searchValid_eq_some_iff hIndex).mp hSearch
    obtain ⟨-, -, -, hValid, -⟩ := id hFirst
    refine ⟨h.arrived, fun _ => h.arrived startIdx hValid, fun _ => .inr ?_⟩
    intro f hf _
    rw [firstValid_unique hf hFirst]
  | @skipped startIdx _ _ hSearch hEq =>
    obtain ⟨-, -, -, hValid, -⟩ := searchValid_some hIndex hSearch
    have hSkip := skipInitialSync_synced (c.sequenceNumberWrapAround + 1)
      (searchValid_lt hIndex hSearch)
    have hTime := @skipInitialSync_nextPacketTime c (c.sequenceNumberWrapAround + 1)
      { st with index := startIdx }
    rw [hEq] at hSkip hTime
    refine nextPacketKept_of_times h.arrived hSkip.keeps (.inr ?_)
    rcases hTime with ⟨-, hStopped⟩ | ⟨hLess, j, hj, hOwn⟩
    · -- the first valid slot is one, so the loop moved
      cases hStopped hValid (Nat.succ_pos _)
    · exact ⟨hOwn.trans_le (h.arrived j hj), hSkip.startTime.symm ▸ hLess⟩
  | @delivered startIdx synced hRun hRipe hSearch _ hEq =>
    have hSkip := skipInitialSync_synced (c.sequenceNumberWrapAround + 1)
      (searchValid_lt hIndex hSearch)
    have hTime := @skipInitialSync_nextPacketTime c (c.sequenceNumberWrapAround + 1)
      { st with index := startIdx }
    rw [hEq] at hSkip hTime
    obtain ⟨n, hChunk⟩ := @transferContiguous_transferred c c.sequenceNumberWrapAround synced
      chunk.timestampLast 0 hSkip.index_lt (Nat.le_add_left _ _)
    obtain ⟨hNext, hStart⟩ := @transferContiguous_times c c.sequenceNumberWrapAround synced
      chunk.timestampLast 0
    refine nextPacketKept_of_times h.arrived (hSkip.keeps.trans hChunk.transferred.keeps) ?_
    dsimp only
    rw [hNext, hStart]
    rcases hTime with ⟨hSame, -⟩ | ⟨hLess, j, hj, hOwn⟩
    · have hSame' : synced.nextPacketTime = st.nextPacketTime := hSame
      rw [hSame']
      exact .inl ⟨h.le hRun, hRipe⟩
    · exact .inr ⟨hOwn.trans_le (h.arrived j hj), hSkip.startTime.symm ▸ hLess⟩

/-! ## A clock that never goes back -/

/-- The states reachable by a clock that never goes back, with its last reading.
`start` is called before the first packet only. -/
inductive ReachableBy (c : IpoConfig) : Int → IpoStream → Prop
  | created (t : Int) : ReachableBy c t {}
  | start {t : Int} {st : IpoStream} (now : Int) : ReachableBy c t st → t ≤ now →
      st.state = .notStarted ∨ st.state = .waitFirstPacket → ReachableBy c now (start c now st)
  | getNextChunk {t : Int} {st : IpoStream} (now : Int) (polls : List PathPoll) :
      ReachableBy c t st → t ≤ now → ReachableBy c now (nextState c now polls st)

theorem ReachableBy.reachable {t : Int} {st : IpoStream} (h : ReachableBy c t st) :
    Reachable c st := by
  induction h with
  | created _ => exact .created
  | start now _ _ hState ih => exact .start now ih hState
  | getNextChunk now polls _ _ ih => exact .getNextChunk now polls ih

theorem beginCall_pollKept {t now : Int} {st : IpoStream} (hReach : Reachable c st)
    (h : NextPacketKept c t st) (hClock : t ≤ now) : PollKept c now (beginCall c now st) := by
  obtain ⟨hRep, hStarted⟩ := beginCall_invariant now (reachable_invariant hReach)
  have hLater := h.mono hClock
  refine ⟨hRep, hStarted, ?_, ?_⟩
  · unfold beginCall
    split <;> rfl
  · unfold beginCall
    split
    · refine nextPacketKept_idle ?_ hLater.arrived
      show IpoState.waitFirstPacket ≠ .running
      decide
    · exact hLater.of_same rfl rfl rfl rfl rfl

theorem reachableBy_nextPacketKept {t : Int} {st : IpoStream} (h : ReachableBy c t st) :
    NextPacketKept c t st := by
  induction h with
  | created t => exact nextPacketKept_idle (by decide) nofun
  | start now _ hClock _ ih =>
    refine nextPacketKept_idle ?_ (ih.mono hClock).arrived
    show IpoState.waitFirstPacket ≠ .running
    decide
  | @getNextChunk t st now polls hReach hClock ih =>
    have hPolled := pollPaths_pollKept polls (beginCall_pollKept hReach.reachable ih hClock)
    rw [nextState_eq]
    generalize (pollPaths c polls (beginCall c now st)).2 = polled at hPolled ⊢
    obtain ⟨hRep, -, rfl, hKept⟩ := hPolled
    split
    · exact reconstruct_nextPacketKept hRep.index_lt hKept
    · exact hKept

/-- **Ready packets.** When the first valid slot after the polls holds a packet of
the synchronised stream that is older than the path differential, the call
returns packets, that one first. -/
theorem ready_packet_returned {t : Int} {st : IpoStream} (hReach : ReachableBy c t st) {now : Int}
    (hClock : t ≤ now) {polls : List PathPoll} (chunk : IpoReceiveChunk) {polled : IpoStream}
    (hPolls : pollPaths c polls (beginCall c now st) = (.success, polled)) {f : Nat}
    (hFirst : FirstValid c polled f)
    (hSynced : polled.startTime ≤ (polled.extPacketInfoArr f).timestamp)
    (hMature : (polled.extPacketInfoArr f).timestamp + c.maxPathDifferential < now) :
    let returned := getNextChunk c now polls st chunk
    returned.1 = .success ∧ 0 < returned.2.2.chunkSize ∧
      returned.2.2.seqnFirst = (polled.extPacketInfoArr f).sequenceNumber ∧
      returned.2.2.timestampFirst = (polled.extPacketInfoArr f).hwTimestamp ∧
      returned.2.2.payloadPtr = some (c.payloadBuffer + f * c.payloadStrideSize) := by
  have hPollKept := pollPaths_pollKept polls
    (beginCall_pollKept hReach.reachable (reachableBy_nextPacketKept hReach) hClock)
  rw [hPolls] at hPollKept
  obtain ⟨hRep, -, hNow, hKept⟩ : PollKept c now polled := hPollKept
  obtain ⟨k, -, hAt, hValid, -⟩ := id hFirst
  have hSlot : f < c.sequenceNumberWrapAround := hAt ▸ Nat.mod_lt _ wrapAround_pos
  -- a valid slot, so the stream is running
  have hRun : polled.state = .running := by
    by_contra hIdle
    rw [hRep.idle_empty hIdle f hSlot] at hValid
    cases hValid
  -- the cached time does not hold the packet back
  have hRipe : polled.nextPacketTime + c.maxPathDifferential < now := by
    rcases hKept.gate hRun with hRipe | hNext
    · exact hRipe
    · have := hNext f hFirst hSynced
      omega
  have hSearch := (searchValid_eq_some_iff hRep.index_lt).mpr hFirst
  -- the packet is of the synchronised stream: nothing is skipped
  have hSync : skipInitialSync c (c.sequenceNumberWrapAround + 1) { polled with index := f } =
      ({ polled with index := f }, true) := by
    rw [skipInitialSync_succ, if_neg (by simp [hValid]), if_pos hSynced]
  obtain ⟨n, hChunk⟩ := @transferContiguous_transferred c c.sequenceNumberWrapAround
    { polled with index := f } chunk.timestampLast 0 hSlot (Nat.le_add_left _ _)
  have hReturned : reconstruct c polled { chunk with chunkSize := 0 } =
      let transferred := transferContiguous c c.sequenceNumberWrapAround { polled with index := f }
        chunk.timestampLast 0
      (transferred.1, fillChunk c f transferred.2.2 transferred.2.1 (polled.extPacketInfoArr f)
        { chunk with chunkSize := 0 }) := by
    unfold reconstruct
    rw [if_neg (by simp [hRun]), if_neg (by omega), hSearch]
    dsimp only
    rw [if_neg (by omega), hSync]
  intro returned
  have hCall : returned = (.success, reconstruct c polled { chunk with chunkSize := 0 }) := by
    show getNextChunk c now polls st chunk = _
    unfold getNextChunk
    rw [hPolls]
  rw [hCall, hReturned]
  refine ⟨rfl, ?_, rfl, rfl, rfl⟩
  show 0 < (transferContiguous c c.sequenceNumberWrapAround { polled with index := f }
    chunk.timestampLast 0).2.2
  rw [hChunk.chunkSize, Nat.zero_add]
  exact hChunk.progress hValid (by rw [← hNow] at hMature; exact hMature)

/-- The last call of `twoPathRun` finds `100` ready. -/
theorem ready_packet_returned_twoPathRun :
    let st := runCalls fourSlots (twoPathRun.take 2) {}
    let returned := getNextChunk fourSlots 120000 [rtpPoll 0 [], rtpPoll 1 [101, 106]] st {}
    returned.1 = .success ∧ 0 < returned.2.2.chunkSize ∧ returned.2.2.seqnFirst = 100 := by
  intro st returned
  have hReach : ReachableBy fourSlots 60000 st :=
    .getNextChunk 60000 _ (.getNextChunk 0 _ (.created 0) (by decide)) (by decide)
  have hReady := @ready_packet_returned fourSlots 60000 st hReach 120000 (by decide)
    [rtpPoll 0 [], rtpPoll 1 [101, 106]] {} _ rfl 0 ⟨0, by decide, by decide +kernel,
      by decide +kernel, nofun⟩ (by decide +kernel) (by decide +kernel)
  exact ⟨hReady.1, hReady.2.1, hReady.2.2.1.trans (by decide +kernel)⟩

end RivermaxDevKit
