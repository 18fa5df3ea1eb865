import RivermaxDevKit.Ipo.Representation

/-!
# Inline Packet Ordering — chunk geometry

The packets of one returned chunk, and the work done to find them. Three loops
of `get_next_chunk` move the position: the gap search, the initial
synchronisation and the transfer.

* `skipInitialSync_synced` / `transferContiguous_transferred` — what the last two
  loops do to the buffer.
* `searchTurns`, `skipTurns`, `transferTurns` — how often each loop turns.
* `chunk_geometry` — a chunk designates the slots it was taken from, and the
  loops turn at most three times the buffer size.
-/

namespace RivermaxDevKit

open SlotArray

variable {c : IpoConfig}

/-! ## The loops on the buffer -/

/-- No slot holds a packet that was not there before. -/
def KeepsSlots (st st' : IpoStream) : Prop :=
  ∀ j, (st'.extPacketInfoArr j).isValid = true → st'.extPacketInfoArr j = st.extPacketInfoArr j

theorem keepsSlots_refl (st : IpoStream) : KeepsSlots st st := fun _ _ => rfl

theorem KeepsSlots.trans {st st' st'' : IpoStream} (h : KeepsSlots st st')
    (h' : KeepsSlots st' st'') : KeepsSlots st st'' := by
  intro j hv
  -- a slot that is valid at the end was not touched by the second step
  have hEq := h' j hv
  rw [hEq] at hv ⊢
  exact h j hv

/-- Both ways out of the buffer release the current slot and nothing else. -/
theorem keepsSlots_of_update {st st' : IpoStream} {i : Nat} {slot : ExtPacketInfo}
    (hArr : st'.extPacketInfoArr = Function.update st.extPacketInfoArr i slot)
    (hSlot : slot.isValid = false) : KeepsSlots st st' := by
  intro j hv
  rw [hArr] at hv ⊢
  by_cases hEq : j = i
  · subst hEq
    rw [Function.update_self, hSlot] at hv
    -- the released slot is not valid
    cases hv
  · exact Function.update_of_ne hEq _ _

theorem keepsSlots_skipPacket (st : IpoStream) : KeepsSlots st (skipPacket c st) :=
  keepsSlots_of_update rfl rfl

theorem keepsSlots_transferPacket (st : IpoStream) : KeepsSlots st (transferPacket c st) :=
  keepsSlots_of_update rfl rfl

/-- What the skip loop leaves: it stops at an empty slot, or at a packet of the
synchronised stream. -/
structure Synced (c : IpoConfig) (st : IpoStream) (r : IpoStream × Bool) : Prop where
  index_lt : r.1.index < c.sequenceNumberWrapAround
  now : r.1.now = st.now
  startTime : r.1.startTime = st.startTime
  keeps : KeepsSlots st r.1
  ready : r.2 = true → (r.1.extPacketInfoArr r.1.index).isValid = true ∧
    r.1.startTime ≤ (r.1.extPacketInfoArr r.1.index).timestamp

theorem searchValid_lt {st : IpoStream} {startIdx : Nat}
    (hIndex : st.index < c.sequenceNumberWrapAround)
    (hSearch :
      searchValid c st.extPacketInfoArr c.sequenceNumberWrapAround st.index = some startIdx) :
    { st with index := startIdx }.index < c.sequenceNumberWrapAround := by
  obtain ⟨k, -, hAt, -, -⟩ := searchValid_some hIndex hSearch
  exact hAt ▸ Nat.mod_lt _ wrapAround_pos

theorem skipInitialSync_synced (fuel : Nat) {st : IpoStream}
    (hIndex : st.index < c.sequenceNumberWrapAround) : Synced c st (skipInitialSync c fuel st) := by
  induction fuel generalizing st with
  | zero => exact ⟨hIndex, rfl, rfl, keepsSlots_refl st, nofun⟩
  | succ fuel ih =>
    rw [skipInitialSync_succ]
    split
    · exact ⟨hIndex, rfl, rfl, keepsSlots_refl st, nofun⟩
    · rename_i hv
      split
      · rename_i hSynced
        exact ⟨hIndex, rfl, rfl, keepsSlots_refl st, fun _ => ⟨by simpa using hv, hSynced⟩⟩
      -- the packet is from before the start, and the loop goes on behind it
      · have hRest := @ih (skipPacket c st) (nextIndex_lt st.index)
        exact ⟨hRest.index_lt, hRest.now, hRest.startTime,
          (keepsSlots_skipPacket st).trans hRest.keeps, hRest.ready⟩

/-- What the transfer loop did when it moved `n` packets. -/
structure Transferred (c : IpoConfig) (st st' : IpoStream) (n : Nat) : Prop where
  room : st.index + n ≤ c.sequenceNumberWrapAround
  valid : ∀ k < n, (st.extPacketInfoArr (st.index + k)).isValid = true
  mature : ∀ k < n,
    (st.extPacketInfoArr (st.index + k)).timestamp + c.maxPathDifferential < st.now
  released : ∀ k < n, (st'.extPacketInfoArr (st.index + k)).isValid = false
  index : st'.index = (st.index + n) % c.sequenceNumberWrapAround
  keeps : KeepsSlots st st'

theorem transferred_zero {st : IpoStream} (hIndex : st.index < c.sequenceNumberWrapAround) :
    Transferred c st st 0 where
  room := Nat.le_of_lt hIndex
  valid := by
    intro k hk
    omega
  mature := by
    intro k hk
    omega
  released := by
    intro k hk
    omega
  index := (Nat.mod_eq_of_lt hIndex).symm
  keeps := keepsSlots_refl st

theorem released_transferPacket (st : IpoStream) :
    ((transferPacket c st).extPacketInfoArr st.index).isValid = false := by
  have hOwn : (transferPacket c st).extPacketInfoArr st.index =
      { st.extPacketInfoArr st.index with isValid := false } := Function.update_self ..
  rw [hOwn]

/-- A single packet. -/
theorem transferred_one {st : IpoStream} (hIndex : st.index < c.sequenceNumberWrapAround)
    (hValid : (st.extPacketInfoArr st.index).isValid = true)
    (hMature : (st.extPacketInfoArr st.index).timestamp + c.maxPathDifferential < st.now) :
    Transferred c st (transferPacket c st) 1 where
  room := hIndex
  valid := by
    intro k hk
    obtain rfl : k = 0 := by omega
    exact hValid
  mature := by
    intro k hk
    obtain rfl : k = 0 := by omega
    exact hMature
  released := by
    intro k hk
    obtain rfl : k = 0 := by omega
    exact released_transferPacket st
  index := nextIndex_eq hIndex
  keeps := keepsSlots_transferPacket st

/-- One packet more, in front. -/
theorem Transferred.succ {st st' : IpoStream} {n : Nat}
    (hValid : (st.extPacketInfoArr st.index).isValid = true)
    (hMature : (st.extPacketInfoArr st.index).timestamp + c.maxPathDifferential < st.now)
    (hNext : st.index + 1 < c.sequenceNumberWrapAround)
    (h : Transferred c (transferPacket c st) st' n) : Transferred c st st' (n + 1) := by
  have hIndex : (transferPacket c st).index = st.index + 1 := if_neg (Nat.not_le_of_lt hNext)
  -- the slots behind the current one are as they were
  have hBehind : ∀ k, (transferPacket c st).extPacketInfoArr (st.index + (k + 1)) =
      st.extPacketInfoArr (st.index + (k + 1)) :=
    fun k => Function.update_of_ne (by omega) _ _
  -- the other turns store nothing, so the slot stays free
  have hFree : (st'.extPacketInfoArr st.index).isValid = false := by
    by_contra hStill
    have hStill' : (st'.extPacketInfoArr st.index).isValid = true := by simpa using hStill
    have hKept := h.keeps st.index hStill'
    rw [hKept, released_transferPacket] at hStill'
    cases hStill'
  -- slot `k` of the rest is slot `k + 1` of the whole
  have hShift : ∀ k, (transferPacket c st).index + k = st.index + (k + 1) := by
    intro k
    rw [hIndex]
    omega
  refine ⟨?_, ?_, ?_, ?_, ?_, (keepsSlots_transferPacket st).trans h.keeps⟩
  · have := h.room
    rw [hShift] at this
    exact this
  · intro k hk
    cases k with
    | zero => exact hValid
    | succ k =>
      have := h.valid k (by omega)
      rw [hShift, hBehind] at this
      exact this
  · intro k hk
    cases k with
    | zero => exact hMature
    | succ k =>
      have := h.mature k (by omega)
      rw [hShift, hBehind] at this
      exact this
  · intro k hk
    cases k with
    | zero => exact hFree
    | succ k =>
      have := h.released k (by omega)
      rw [hShift] at this
      exact this
  · have := h.index
    rw [hShift] at this
    exact this

/-- What the transfer loop returns when it moved `n` packets. -/
structure TransferredChunk (c : IpoConfig) (st : IpoStream) (last size : Nat)
    (r : IpoStream × Nat × Nat) (n : Nat) : Prop where
  transferred : Transferred c st r.1 n
  chunkSize : r.2.2 = size + n
  timestampNone : n = 0 → r.2.1 = last
  timestampLast : ∀ m, n = m + 1 → r.2.1 = (st.extPacketInfoArr (st.index + m)).hwTimestamp
  progress : (st.extPacketInfoArr st.index).isValid = true →
    (st.extPacketInfoArr st.index).timestamp + c.maxPathDifferential < st.now → 0 < n

theorem transferContiguous_transferred (fuel : Nat) {st : IpoStream} {last size : Nat}
    (hIndex : st.index < c.sequenceNumberWrapAround)
    (hFuel : c.sequenceNumberWrapAround ≤ st.index + fuel) :
    ∃ n, TransferredChunk c st last size (transferContiguous c fuel st last size) n := by
  induction fuel generalizing st last size with
  | zero => omega
  | succ fuel ih =>
    rw [transferContiguous_succ]
    split
    · rename_i hInvalid
      -- an empty slot ends the chunk
      refine ⟨0, transferred_zero hIndex, rfl, fun _ => rfl, nofun, ?_⟩
      intro hValid
      rw [hInvalid] at hValid
      cases hValid
    · rename_i hv
      have hValid : (st.extPacketInfoArr st.index).isValid = true := by simpa using hv
      split
      -- a packet that is not mature ends it as well
      · refine ⟨0, transferred_zero hIndex, rfl, fun _ => rfl, nofun, ?_⟩
        intro _ hMature
        omega
      · rename_i hImmature
        have hMature := Int.not_le.mp hImmature
        split
        · -- the last slot of the buffer ends the chunk
          refine ⟨1, transferred_one hIndex hValid hMature, rfl, nofun, ?_, fun _ _ => Nat.one_pos⟩
          intro m hm
          obtain rfl : m = 0 := by omega
          rfl
        · rename_i hRoom
          have hNext : st.index + 1 < c.sequenceNumberWrapAround := by omega
          have hMoved : (transferPacket c st).index = st.index + 1 :=
            if_neg (Nat.not_le_of_lt hNext)
          -- the position moves on without wrapping
          obtain ⟨n, hRest⟩ := @ih (transferPacket c st)
            (st.extPacketInfoArr st.index).hwTimestamp (size + 1) (nextIndex_lt st.index)
            (by rw [hMoved]; omega)
          refine ⟨n + 1, hRest.transferred.succ hValid hMature hNext,
            by rw [hRest.chunkSize]; omega, nofun, ?_, fun _ _ => Nat.succ_pos n⟩
          intro m hm
          cases m with
          | zero => exact hRest.timestampNone (by omega)
          | succ m =>
            rw [hRest.timestampLast m (by omega), hMoved, Nat.add_assoc, Nat.add_comm 1]
            exact congrArg ExtPacketInfo.hwTimestamp (Function.update_of_ne (by omega) _ _)

/-! ## Arrivals -/

/-- A completion changes a slot only by storing a packet that arrives now. -/
def StoresNow (st st' : IpoStream) : Prop :=
  st'.now = st.now ∧ ∀ j, st'.extPacketInfoArr j = st.extPacketInfoArr j ∨
    ((st'.extPacketInfoArr j).isValid = true ∧ (st'.extPacketInfoArr j).timestamp = st.now)

theorem storesNow_refl (st : IpoStream) : StoresNow st st := ⟨rfl, fun _ => .inl rfl⟩

theorem StoresNow.trans {st st' st'' : IpoStream} (h : StoresNow st st') (h' : StoresNow st' st'') :
    StoresNow st st'' := by
  refine ⟨h'.1.trans h.1, ?_⟩
  intro j
  -- a slot is stored by the second step, or as the first left it
  rcases h'.2 j with hKept | hStored
  · rw [hKept]
    exact h.2 j
  · rw [h.1] at hStored
    exact .inr hStored

theorem storesNow_switchState (s : Nat) (st : IpoStream) : StoresNow st (switchState c s st) := by
  unfold switchState
  split
  · exact storesNow_refl st
  · exact storesNow_refl st
  · exact ⟨rfl, fun _ => .inl rfl⟩
  · split
    · exact ⟨rfl, fun _ => .inl rfl⟩
    · exact ⟨rfl, fun _ => .inl rfl⟩

theorem storesNow_handlePacket (path s : Nat) (info : ReceivePacketInfo) (st : IpoStream) :
    StoresNow st (handlePacket c path s info st) := by
  refine ⟨rfl, ?_⟩
  intro j
  by_cases hEq : j = s % c.sequenceNumberWrapAround
  -- the slot of the packet; all others are kept
  · refine .inr ?_
    subst hEq
    simp only [handlePacket, Function.update_self, and_self]
  · exact .inl (Function.update_of_ne hEq _ _)

theorem storesNow_processPacket (path : Nat) (packet : ReceivedPacket) (st : IpoStream) :
    StoresNow st (processPacket c path packet st) := by
  unfold processPacket
  split
  · exact ⟨rfl, fun _ => .inl rfl⟩
  · rename_i s _
    refine (storesNow_switchState (c := c) s st).trans ?_
    unfold dispatchPacket
    dsimp only
    split
    · exact ⟨rfl, fun _ => .inl rfl⟩
    · split
      · exact storesNow_handlePacket path s _ _
      · exact ⟨rfl, fun _ => .inl rfl⟩

theorem storesNow_pollPaths (polls : List PathPoll) (st : IpoStream) :
    StoresNow st (pollPaths c polls st).2 :=
  pollPaths_keeps (fun path packet st' h => h.trans (storesNow_processPacket path packet st'))
    polls (storesNow_refl st)

/-! ## Geometry -/

/-- The packets of a chunk are those of the slots from `start` on. -/
structure ChunkGeometry (c : IpoConfig) (now : Int) (before after : IpoStream)
    (chunk : IpoReceiveChunk) (start : Nat) : Prop where
  room : start + chunk.chunkSize ≤ c.sequenceNumberWrapAround
  valid : ∀ k < chunk.chunkSize, (before.extPacketInfoArr (start + k)).isValid = true
  mature : ∀ k < chunk.chunkSize,
    (before.extPacketInfoArr (start + k)).timestamp + c.maxPathDifferential < now
  released : ∀ k < chunk.chunkSize, (after.extPacketInfoArr (start + k)).isValid = false
  index : after.index = (start + chunk.chunkSize) % c.sequenceNumberWrapAround
  seqnFirst : 0 < chunk.chunkSize →
    chunk.seqnFirst = (before.extPacketInfoArr start).sequenceNumber
  timestampFirst : 0 < chunk.chunkSize →
    chunk.timestampFirst = (before.extPacketInfoArr start).hwTimestamp
  timestampLast : ∀ m, chunk.chunkSize = m + 1 →
    chunk.timestampLast = (before.extPacketInfoArr (start + m)).hwTimestamp
  headerPtr : 0 < chunk.chunkSize → c.headerDataSplit = true →
    chunk.headerPtr = some (c.headerBuffer + start * c.headerStrideSize)
  payloadPtr : 0 < chunk.chunkSize →
    chunk.payloadPtr = some (c.payloadBuffer + start * c.payloadStrideSize)
  infoPtr : 0 < chunk.chunkSize → c.pktInfoEnabled = true → chunk.infoPtr = some start

/-- Only the slots of the chunk matter. -/
theorem ChunkGeometry.of_same_slots {now : Int} {before before' after : IpoStream}
    {chunk : IpoReceiveChunk} {start : Nat} (h : ChunkGeometry c now before after chunk start)
    (hSame : ∀ k < chunk.chunkSize,
      before.extPacketInfoArr (start + k) = before'.extPacketInfoArr (start + k)) :
    ChunkGeometry c now before' after chunk start where
  room := h.room
  valid := by
    intro k hk
    rw [← hSame k hk]
    exact h.valid k hk
  mature := by
    intro k hk
    rw [← hSame k hk]
    exact h.mature k hk
  released := h.released
  index := h.index
  seqnFirst := fun hPos =>
    (h.seqnFirst hPos).trans (congrArg ExtPacketInfo.sequenceNumber (hSame 0 hPos))
  timestampFirst := fun hPos =>
    (h.timestampFirst hPos).trans (congrArg ExtPacketInfo.hwTimestamp (hSame 0 hPos))
  timestampLast := fun m hm =>
    (h.timestampLast m hm).trans (congrArg ExtPacketInfo.hwTimestamp (hSame m (by omega)))
  headerPtr := h.headerPtr
  payloadPtr := h.payloadPtr
  infoPtr := h.infoPtr

theorem chunkGeometry_of_empty {now : Int} {before after : IpoStream} {chunk : IpoReceiveChunk}
    (hSize : chunk.chunkSize = 0) (hIndex : after.index < c.sequenceNumberWrapAround) :
    ChunkGeometry c now before after chunk after.index := by
  have hNone : ∀ k, ¬ k < chunk.chunkSize := by
    intro k
    omega
  refine ⟨by omega, fun k hk => absurd hk (hNone k), fun k hk => absurd hk (hNone k),
    fun k hk => absurd hk (hNone k), ?_, fun h => absurd h (hNone 0), fun h => absurd h (hNone 0),
    fun m hm => by omega, fun h => absurd h (hNone 0), fun h => absurd h (hNone 0),
    fun h => absurd h (hNone 0)⟩
  rw [hSize, Nat.add_zero, Nat.mod_eq_of_lt hIndex]

/-- The geometry of what `reconstruct` returns, against the polled state. -/
theorem reconstruct_geometry {st : IpoStream} {chunk : IpoReceiveChunk}
    (hIndex : st.index < c.sequenceNumberWrapAround) (hSize : chunk.chunkSize = 0) :
    ∃ start, ChunkGeometry c st.now st (reconstruct c st chunk).1 (reconstruct c st chunk).2
      start := by
  have hDone := reconstructs (c := c) st chunk
  generalize reconstruct c st chunk = r at hDone ⊢
  cases hDone with
  | early => exact ⟨_, chunkGeometry_of_empty hSize hIndex⟩
  | empty => exact ⟨_, chunkGeometry_of_empty hSize hIndex⟩
  | young => exact ⟨_, chunkGeometry_of_empty hSize hIndex⟩
  | skipped _ hSearch hEq =>
    have hSkip := skipInitialSync_synced (c.sequenceNumberWrapAround + 1)
      (searchValid_lt hIndex hSearch)
    rw [hEq] at hSkip
    exact ⟨_, chunkGeometry_of_empty hSize hSkip.index_lt⟩
  | @delivered _ synced _ _ hSearch _ hEq =>
    have hSkip := skipInitialSync_synced (c.sequenceNumberWrapAround + 1)
      (searchValid_lt hIndex hSearch)
    rw [hEq] at hSkip
    obtain ⟨n, hChunk⟩ := @transferContiguous_transferred c c.sequenceNumberWrapAround synced
      chunk.timestampLast 0 hSkip.index_lt (Nat.le_add_left _ _)
    have hMoved := hChunk.transferred
    have hn : (transferContiguous c c.sequenceNumberWrapAround synced chunk.timestampLast 0).2.2 =
        n := by
      rw [hChunk.chunkSize, Nat.zero_add]
    -- a slot that is transferred holds the packet it held before the loops
    have hSame : ∀ k < n, synced.extPacketInfoArr (synced.index + k) =
        st.extPacketInfoArr (synced.index + k) :=
      fun k hk => hSkip.keeps _ (hMoved.valid k hk)
    -- the chunk starts where the synchronisation ended
    refine ⟨synced.index, ?_⟩
    dsimp only
    unfold fillChunk
    rw [hn]
    refine ⟨hMoved.room, ?_, ?_, hMoved.released, hMoved.index, ?_, ?_, ?_, ?_, fun _ => rfl, ?_⟩
    · intro k hk
      rw [← hSame k hk]
      exact hMoved.valid k hk
    · intro k hk
      have hMature := hMoved.mature k hk
      rw [hSame k hk, hSkip.now] at hMature
      exact hMature
    · intro hPos
      exact congrArg ExtPacketInfo.sequenceNumber (hSame 0 hPos)
    · intro hPos
      exact congrArg ExtPacketInfo.hwTimestamp (hSame 0 hPos)
    · intro m hm
      rw [← hSame m (by dsimp only at hm; omega)]
      exact hChunk.timestampLast m hm
    · intro _ hSplit
      exact if_pos hSplit
    · intro _ hInfo
      exact if_pos hInfo

/-! ## Turns of the loops -/

/-- How many slots the gap search looks at. -/
def searchTurns (c : IpoConfig) (arr : Nat → ExtPacketInfo) : (left startIdx : Nat) → Nat
  | 0, _ => 0
  | left + 1, startIdx =>
    if (arr startIdx).isValid then 1 else 1 + searchTurns c arr left (c.nextIndex startIdx)

/-- How often the skip loop turns, counted up to `fuel`. -/
def skipTurns (c : IpoConfig) : (fuel : Nat) → IpoStream → Nat
  | 0, _ => 0
  | fuel + 1, st =>
    let info := st.extPacketInfoArr st.index
    if !info.isValid then 1
    else if st.startTime ≤ info.timestamp then 1
    else 1 + skipTurns c fuel (skipPacket c st)

/-- How often the transfer loop turns, counted up to `fuel`. -/
def transferTurns (c : IpoConfig) : (fuel : Nat) → IpoStream → Nat
  | 0, _ => 0
  | fuel + 1, st =>
    let info := st.extPacketInfoArr st.index
    if !info.isValid then 1
    else if st.now ≤ info.timestamp + c.maxPathDifferential then 1
    else if c.sequenceNumberWrapAround ≤ st.index + 1 then 1
    else 1 + transferTurns c fuel (transferPacket c st)

/-- The turns of the last two loops, from the end of the gap on. They are counted
up to `fuel`, which no bound below depends on. -/
def deliverTurns (c : IpoConfig) (fuel : Nat) (st : IpoStream) : Nat :=
  let sync := skipInitialSync c (c.sequenceNumberWrapAround + 1) st
  skipTurns c fuel st + if sync.2 then transferTurns c fuel sync.1 else 0

/-- The turns of the three loops in `reconstruct`. -/
def reconstructTurns (c : IpoConfig) (fuel : Nat) (st : IpoStream) : Nat :=
  if st.state ≠ .running then 0
  else if st.now ≤ st.nextPacketTime + c.maxPathDifferential then 0
  else
    let searched := searchTurns c st.extPacketInfoArr c.sequenceNumberWrapAround st.index
    match searchValid c st.extPacketInfoArr c.sequenceNumberWrapAround st.index with
    | none => searched
    | some startIdx =>
      if st.now ≤ (st.extPacketInfoArr startIdx).timestamp + c.maxPathDifferential then searched
      else searched + deliverTurns c fuel { st with index := startIdx }

/-- The turns of one call of `get_next_chunk`. -/
def getNextChunkTurns (c : IpoConfig) (fuel : Nat) (now : Int) (polls : List PathPoll)
    (st : IpoStream) : Nat :=
  match pollPaths c polls (beginCall c now st) with
  | (.success, polled) => reconstructTurns c fuel polled
  | _ => 0

theorem searchTurns_le (arr : Nat → ExtPacketInfo) (left : Nat) :
    ∀ i, searchTurns c arr left i ≤ left := by
  induction left with
  | zero => exact fun _ => Nat.le_refl 0
  | succ left ih =>
    intro i
    rw [searchTurns]
    split
    · omega
    · have := ih (c.nextIndex i)
      omega

/-- Every turn but the last empties a slot. -/
theorem skipTurns_le (fuel : Nat) : ∀ {st : IpoStream}, st.index < c.sequenceNumberWrapAround →
    skipTurns c fuel st ≤ validSlots c st + 1 := by
  induction fuel with
  | zero => exact fun _ => Nat.zero_le _
  | succ fuel ih =>
    intro st hIndex
    rw [skipTurns]
    split
    · omega
    · rename_i hv
      split
      · omega
      -- a packet is skipped, and its slot is empty from then on
      · have hLess : validSlots c (skipPacket c st) + 1 = validSlots c st :=
          validSlots_release hIndex (by simpa using hv) rfl
        have := @ih (skipPacket c st) (nextIndex_lt st.index)
        omega

theorem transferTurns_le (fuel : Nat) : ∀ {st : IpoStream},
    st.index < c.sequenceNumberWrapAround →
      transferTurns c fuel st + st.index ≤ c.sequenceNumberWrapAround := by
  induction fuel with
  | zero =>
    intro st hIndex
    rw [transferTurns]
    omega
  | succ fuel ih =>
    intro st hIndex
    rw [transferTurns]
    split
    · omega
    · split
      · omega
      · split
        · omega
        · rename_i hRoom
          have hMoved : (transferPacket c st).index = st.index + 1 := if_neg hRoom
          have := @ih (transferPacket c st) (nextIndex_lt st.index)
          omega

theorem deliverTurns_le (fuel : Nat) {st : IpoStream}
    (hIndex : st.index < c.sequenceNumberWrapAround) :
    deliverTurns c fuel st ≤ 2 * c.sequenceNumberWrapAround + 1 := by
  have hSkipTurns := @skipTurns_le c fuel st hIndex
  have hSlots : validSlots c st ≤ c.sequenceNumberWrapAround := occupied_le _ _ _
  have hSkip := @skipInitialSync_synced c (c.sequenceNumberWrapAround + 1) st hIndex
  -- the transfer never passes the end of the buffer
  have hTransfer := @transferTurns_le c fuel _ hSkip.index_lt
  unfold deliverTurns
  dsimp only
  split <;> omega

theorem reconstructTurns_le (fuel : Nat) {st : IpoStream}
    (hIndex : st.index < c.sequenceNumberWrapAround) :
    reconstructTurns c fuel st ≤ 3 * c.sequenceNumberWrapAround + 1 := by
  have hSearched := searchTurns_le (c := c) st.extPacketInfoArr c.sequenceNumberWrapAround st.index
  unfold reconstructTurns
  split
  · omega
  split
  · omega
  dsimp only
  split
  · omega
  · rename_i startIdx hSearch
    obtain ⟨k, -, hStart, -, -⟩ := searchValid_some hIndex hSearch
    have hDeliver := @deliverTurns_le c fuel { st with index := startIdx }
      (hStart ▸ Nat.mod_lt _ wrapAround_pos)
    split <;> omega

/-! ## Chunks of reachable states -/

theorem polled_index_lt {st : IpoStream} (hReach : Reachable c st) (now : Int)
    (polls : List PathPoll) :
    (pollPaths c polls (beginCall c now st)).2.index < c.sequenceNumberWrapAround := by
  obtain ⟨hBegin, hStarted⟩ := beginCall_invariant now (reachable_invariant hReach)
  exact (pollPaths_invariant polls hBegin hStarted).index_lt

/-- After the polls a slot is as it was, or holds a packet that arrived now. -/
theorem polled_slots (now : Int) (polls : List PathPoll) (st : IpoStream) :
    let polled := (pollPaths c polls (beginCall c now st)).2
    polled.now = now ∧ ∀ j, polled.extPacketInfoArr j = st.extPacketInfoArr j ∨
      (polled.extPacketInfoArr j).isValid = true ∧ (polled.extPacketInfoArr j).timestamp = now := by
  have hStores := storesNow_pollPaths (c := c) polls (beginCall c now st)
  have hNow : (beginCall c now st).now = now := by
    unfold beginCall
    split <;> rfl
  have hSlots : (beginCall c now st).extPacketInfoArr = st.extPacketInfoArr := by
    unfold beginCall
    split <;> rfl
  rw [StoresNow, hNow, hSlots] at hStores
  exact hStores

theorem getNextChunkTurns_le (fuel : Nat) {st : IpoStream} (hReach : Reachable c st) (now : Int)
    (polls : List PathPoll) :
    getNextChunkTurns c fuel now polls st ≤ 3 * c.sequenceNumberWrapAround + 1 := by
  have hPolled := polled_index_lt hReach now polls
  unfold getNextChunkTurns
  split
  · rename_i polled hEq
    rw [hEq] at hPolled
    exact reconstructTurns_le fuel hPolled
  · omega

/-- **Geometry of a chunk.** A successful call returns the packets of consecutive
slots that were valid and mature before it, and leaves the position behind them;
its three loops turn at most three times the buffer size, and once. -/
theorem chunk_geometry {st : IpoStream} (hReach : Reachable c st)
    (hPath : 0 ≤ c.maxPathDifferential) (now : Int) (polls : List PathPoll)
    (chunk : IpoReceiveChunk) :
    ((getNextChunk c now polls st chunk).1 = .success →
      ∃ start, ChunkGeometry c now st (getNextChunk c now polls st chunk).2.1
        (getNextChunk c now polls st chunk).2.2 start) ∧
    ∀ fuel, getNextChunkTurns c fuel now polls st ≤ 3 * c.sequenceNumberWrapAround + 1 := by
  refine ⟨?_, fun fuel => getNextChunkTurns_le fuel hReach now polls⟩
  have hPolled := polled_index_lt hReach now polls
  have hArrivals := polled_slots (c := c) now polls st
  unfold getNextChunk
  split
  · rename_i polled hEq
    rw [hEq] at hPolled hArrivals
    obtain ⟨hNow, hSlots⟩ := hArrivals
    intro _
    obtain ⟨start, h⟩ := @reconstruct_geometry c polled { chunk with chunkSize := 0 } hPolled rfl
    dsimp only at hNow
    rw [hNow] at h
    refine ⟨start, h.of_same_slots ?_⟩
    intro k hk
    rcases hSlots (start + k) with hKept | ⟨-, hArrived⟩
    · exact hKept
    · -- a packet that arrived in this call is not mature in it
      have hMature := h.mature k hk
      dsimp only at hArrived
      omega
  · rename_i hFailed hEq
    -- a failed call returns no chunk
    exact fun hSuccess => absurd hSuccess hFailed

/-- The last call of `twoPathRun` returns two packets from their slots. -/
theorem chunk_geometry_twoPathRun :
    let st := runCalls fourSlots (twoPathRun.take 2) {}
    let polls := [rtpPoll 0 [], rtpPoll 1 [101, 106]]
    (getNextChunk fourSlots 120000 polls st {}).2.2.chunkSize = 2 ∧
      (∃ start, ChunkGeometry fourSlots 120000 st (getNextChunk fourSlots 120000 polls st {}).2.1
        (getNextChunk fourSlots 120000 polls st {}).2.2 start) ∧
      ∀ fuel, getNextChunkTurns fourSlots fuel 120000 polls st ≤ 13 := by
  intro st polls
  have hReach : Reachable fourSlots st := reachable_runCalls _ .created
  obtain ⟨hGeometry, hTurns⟩ := chunk_geometry hReach (by decide) 120000 polls {}
  exact ⟨by decide +kernel, hGeometry (by decide +kernel), hTurns⟩

end RivermaxDevKit
