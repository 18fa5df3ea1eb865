import RivermaxDevKit.Ipo.Representation
import RivermaxDevKit.Lib.Observation

/-!
# Inline Packet Ordering — order of the paths

Within one call the order in which the paths are polled decides which copy of
a packet is accepted first. What is delivered, now and later, does not depend
on it, except through the packet that resynchronises the stream.

* `deliveryView` — the part of the state later deliveries depend on.
* `nextState_sameDelivery` — a call looks no further than that view.
* `processPacket_comm` — in `Running`, two packets commute up to the view.
* `delivery_independent_of_path_order` — the order of the successful polls of
  a call is irrelevant to everything delivered by it and after it.
* `path_order_matters` — the exceptions: the first packet of a stream, and a
  path that fails.
-/

namespace RivermaxDevKit

open Observation

variable {c : IpoConfig}

/-! ## The delivery view -/

/-- A slot without the hardware timestamp of the copy that fills it. -/
def ExtPacketInfo.forgetCopy (info : ExtPacketInfo) : ExtPacketInfo :=
  { info with hwTimestamp := 0 }

/-- The state without what only describes a packet's copy: its hardware
timestamp, its packet info, and the hooks other than `complete_packet`. -/
def deliveryView (st : IpoStream) : IpoStream :=
  { st with
    packetInfoArr := fun _ => {}
    extPacketInfoArr := fun i => (st.extPacketInfoArr i).forgetCopy
    events := st.events.filter isCompletePacket }

/-- The numbers handed to `complete_packet` so far, oldest first. -/
def completedSequence (st : IpoStream) : List Nat :=
  st.events.reverse.filterMap fun
    | .completePacket s => some s
    | _ => none

theorem completedSequence_deliveryView (st : IpoStream) :
    completedSequence (deliveryView st) = completedSequence st := by
  unfold completedSequence deliveryView
  dsimp only
  rw [← List.filter_reverse, List.filterMap_filter]
  apply List.filterMap_congr
  intro e _
  cases e <;> simp [isCompletePacket]

/-- Two states with the same delivery view. -/
structure SameDelivery (st st' : IpoStream) : Prop where
  last : st.lastProcessedSequenceNumber = st'.lastProcessedSequenceNumber
  state : st.state = st'.state
  index : st.index = st'.index
  nextPacketTime : st.nextPacketTime = st'.nextPacketTime
  startTime : st.startTime = st'.startTime
  now : st.now = st'.now
  slot : ∀ i, (st.extPacketInfoArr i).forgetCopy = (st'.extPacketInfoArr i).forgetCopy
  completed : st.events.filter isCompletePacket = st'.events.filter isCompletePacket

theorem deliveryView_eq_iff {st st' : IpoStream} :
    deliveryView st = deliveryView st' ↔ SameDelivery st st' := by
  constructor
  · intro h
    -- every field of the view is a function of it
    have field : ∀ {α : Type} (f : IpoStream → α), f (deliveryView st) = f (deliveryView st') :=
      fun f => congrArg f h
    exact ⟨field IpoStream.lastProcessedSequenceNumber, field IpoStream.state,
      field IpoStream.index, field IpoStream.nextPacketTime, field IpoStream.startTime,
      field IpoStream.now, fun i => congrFun (field IpoStream.extPacketInfoArr) i,
      field IpoStream.events⟩
  · intro h
    unfold deliveryView
    rw [h.last, h.state, h.index, h.nextPacketTime, h.startTime, h.now, funext h.slot, h.completed]

namespace SameDelivery

variable {st st' : IpoStream}

theorem isValid (h : SameDelivery st st') (i : Nat) :
    (st.extPacketInfoArr i).isValid = (st'.extPacketInfoArr i).isValid :=
  (congrArg ExtPacketInfo.isValid (h.slot i) :)

theorem sequenceNumber (h : SameDelivery st st') (i : Nat) :
    (st.extPacketInfoArr i).sequenceNumber = (st'.extPacketInfoArr i).sequenceNumber :=
  (congrArg ExtPacketInfo.sequenceNumber (h.slot i) :)

theorem timestamp (h : SameDelivery st st') (i : Nat) :
    (st.extPacketInfoArr i).timestamp = (st'.extPacketInfoArr i).timestamp :=
  (congrArg ExtPacketInfo.timestamp (h.slot i) :)

theorem update_slot (h : SameDelivery st st') (k : Nat) {info info' : ExtPacketInfo}
    (hInfo : info.forgetCopy = info'.forgetCopy) (i : Nat) :
    (Function.update st.extPacketInfoArr k info i).forgetCopy =
      (Function.update st'.extPacketInfoArr k info' i).forgetCopy := by
  by_cases hEq : i = k
  · subst hEq
    rw [Function.update_self, Function.update_self, hInfo]
  · rw [Function.update_of_ne hEq, Function.update_of_ne hEq, h.slot i]

/-- Hooks other than `complete_packet` are invisible. -/
theorem log (h : SameDelivery st st') (e e' : IpoEvent) (he : isCompletePacket e = false)
    (he' : isCompletePacket e' = false) :
    SameDelivery { st with events := e :: st.events } { st' with events := e' :: st'.events } where
  last := h.last
  state := h.state
  index := h.index
  nextPacketTime := h.nextPacketTime
  startTime := h.startTime
  now := h.now
  slot := h.slot
  completed := by
    rw [List.filter_cons_of_neg (by simp [he]), List.filter_cons_of_neg (by simp [he']),
      h.completed]

end SameDelivery

theorem sameDelivery_refl (st : IpoStream) : SameDelivery st st :=
  deliveryView_eq_iff.mp rfl

theorem SameDelivery.trans {st st' st'' : IpoStream} (h : SameDelivery st st')
    (h' : SameDelivery st' st'') : SameDelivery st st'' :=
  deliveryView_eq_iff.mp
    ((deliveryView_eq_iff.mpr h).trans (deliveryView_eq_iff.mpr h'))

theorem SameDelivery.symm {st st' : IpoStream} (h : SameDelivery st st') : SameDelivery st' st :=
  deliveryView_eq_iff.mp (deliveryView_eq_iff.mpr h).symm

theorem sameDelivery_log {e : IpoEvent} (he : isCompletePacket e = false) (st : IpoStream) :
    SameDelivery { st with events := e :: st.events } st where
  last := rfl
  state := rfl
  index := rfl
  nextPacketTime := rfl
  startTime := rfl
  now := rfl
  slot := fun _ => rfl
  completed := List.filter_cons_of_neg (by simp [he])

/-! ## Completions -/

theorem handlePacket_sameDelivery {path path' s : Nat} {info info' : ReceivePacketInfo}
    {st st' : IpoStream} (h : SameDelivery st st') :
    SameDelivery (handlePacket c path s info st) (handlePacket c path' s info' st') where
  last := h.last
  state := h.state
  index := h.index
  nextPacketTime := h.nextPacketTime
  startTime := h.startTime
  now := h.now
  slot := by
    apply h.update_slot
    simp only [ExtPacketInfo.forgetCopy, h.now]
  completed := by
    simp only [handlePacket]
    rw [List.filter_cons_of_neg (by simp [isCompletePacket]),
      List.filter_cons_of_neg (by simp [isCompletePacket]), h.completed]

theorem resync_sameDelivery {s : Nat} {st st' : IpoStream} (h : SameDelivery st st') :
    SameDelivery (resync c s st) (resync c s st') where
  last := rfl
  state := h.state
  index := rfl
  nextPacketTime := h.nextPacketTime
  startTime := h.startTime
  now := h.now
  slot := h.slot
  completed := by
    simp only [resync]
    rw [List.filter_cons_of_neg (by simp [isCompletePacket]),
      List.filter_cons_of_neg (by simp [isCompletePacket]), h.completed]

theorem switchState_sameDelivery {s : Nat} {st st' : IpoStream} (h : SameDelivery st st') :
    SameDelivery (switchState c s st) (switchState c s st') := by
  have hState := h.state
  cases hs : st.state with
  | notStarted =>
    rw [hs] at hState
    simp only [switchState, hs, ← hState]
    exact h
  | running =>
    rw [hs] at hState
    simp only [switchState, hs, ← hState]
    exact h
  | waitFirstPacket =>
    rw [hs] at hState
    -- the first packet resynchronises both to its number
    have hSync := resync_sameDelivery (c := c) (s := s) h
    simp only [switchState, hs, ← hState]
    exact ⟨hSync.last, rfl, hSync.index, h.now, hSync.startTime, hSync.now, hSync.slot,
      hSync.completed⟩
  | waiting =>
    rw [hs] at hState
    -- both have waited for the same time
    have hElapsed : st'.now - st'.nextPacketTime = st.now - st.nextPacketTime := by
      rw [h.now, h.nextPacketTime]
    simp only [switchState, hs, ← hState, hElapsed]
    split
    · have hRestart := h.log .handleSenderRestart .handleSenderRestart rfl rfl
      have hSync := resync_sameDelivery (c := c) (s := s) hRestart
      exact ⟨hSync.last, rfl, hSync.index, h.now, by simp only [h.now], hSync.now, hSync.slot,
        hSync.completed⟩
    -- the wait was short
    · exact ⟨h.last, rfl, h.index, h.now, h.startTime, h.now, h.slot, h.completed⟩

/-- The two tests of `process_completion` on a sequence number. -/
def isLate (c : IpoConfig) (s : Nat) (st : IpoStream) : Prop :=
  c.seqSub s st.lastProcessedSequenceNumber = 0 ∨
    c.seqSub s st.lastProcessedSequenceNumber &&& c.sequenceNumberMsbMask ≠ 0

def isFirstCopy (c : IpoConfig) (s : Nat) (st : IpoStream) : Prop :=
  (st.extPacketInfoArr (s % c.sequenceNumberWrapAround)).isValid = false ∨
    (st.extPacketInfoArr (s % c.sequenceNumberWrapAround)).sequenceNumber ≠ s

instance (s : Nat) (st : IpoStream) : Decidable (isLate c s st) :=
  inferInstanceAs (Decidable (_ ∨ _))

instance (s : Nat) (st : IpoStream) : Decidable (isFirstCopy c s st) :=
  inferInstanceAs (Decidable (_ ∨ _))

theorem dispatchPacket_late {path s : Nat} {info : ReceivePacketInfo} {st : IpoStream}
    (h : isLate c s st) :
    dispatchPacket c path s info st =
      { st with events := .handleLatePacket path s :: st.events } := by
  unfold isLate at h
  unfold dispatchPacket
  dsimp only
  rw [if_pos h]

theorem dispatchPacket_first {path s : Nat} {info : ReceivePacketInfo} {st : IpoStream}
    (h : ¬ isLate c s st) (hFirst : isFirstCopy c s st) :
    dispatchPacket c path s info st = handlePacket c path s info st := by
  unfold isLate at h
  unfold isFirstCopy at hFirst
  unfold dispatchPacket
  dsimp only
  rw [if_neg h, if_pos (by simpa using hFirst)]

theorem dispatchPacket_redundant {path s : Nat} {info : ReceivePacketInfo} {st : IpoStream}
    (h : ¬ isLate c s st) (hFirst : ¬ isFirstCopy c s st) :
    dispatchPacket c path s info st =
      { st with events := .handleRedundantPacket path s :: st.events } := by
  unfold isLate at h
  unfold isFirstCopy at hFirst
  unfold dispatchPacket
  dsimp only
  rw [if_neg h, if_neg (by simpa using hFirst)]

theorem isLate_congr {s : Nat} {st st' : IpoStream} (h : SameDelivery st st') :
    isLate c s st ↔ isLate c s st' := by
  unfold isLate
  rw [h.last]

theorem isFirstCopy_congr {s : Nat} {st st' : IpoStream} (h : SameDelivery st st') :
    isFirstCopy c s st ↔ isFirstCopy c s st' := by
  unfold isFirstCopy
  rw [h.isValid, h.sequenceNumber]

/-- The paths and infos of the two copies may differ. -/
theorem dispatchPacket_sameDelivery {path path' s : Nat} {info info' : ReceivePacketInfo}
    {st st' : IpoStream} (h : SameDelivery st st') :
    SameDelivery (dispatchPacket c path s info st) (dispatchPacket c path' s info' st') := by
  by_cases hLate : isLate c s st
  · rw [dispatchPacket_late hLate, dispatchPacket_late ((isLate_congr h).mp hLate)]
    exact h.log _ _ rfl rfl
  · have hLate' := mt (isLate_congr h).mpr hLate
    by_cases hFirst : isFirstCopy c s st
    · rw [dispatchPacket_first hLate hFirst,
        dispatchPacket_first hLate' ((isFirstCopy_congr h).mp hFirst)]
      -- both place the packet, and the copies differ in what the view forgets
      exact handlePacket_sameDelivery h
    · rw [dispatchPacket_redundant hLate hFirst,
        dispatchPacket_redundant hLate' (mt (isFirstCopy_congr h).mpr hFirst)]
      exact h.log _ _ rfl rfl

theorem processPacket_sameDelivery {path : Nat} {packet : ReceivedPacket} {st st' : IpoStream}
    (h : SameDelivery st st') :
    SameDelivery (processPacket c path packet st) (processPacket c path packet st') := by
  unfold processPacket
  split
  · exact h.log _ _ rfl rfl
  · exact dispatchPacket_sameDelivery (switchState_sameDelivery h)

theorem processCompletion_sameDelivery {path : Nat} (packets : List ReceivedPacket)
    {st st' : IpoStream} (h : SameDelivery st st') :
    SameDelivery (processCompletion c path packets st) (processCompletion c path packets st') := by
  induction packets generalizing st st' with
  | nil => exact h
  | cons packet rest ih => exact ih (processPacket_sameDelivery h)

theorem pollPaths_sameDelivery (polls : List PathPoll) {st st' : IpoStream}
    (h : SameDelivery st st') :
    (pollPaths c polls st).1 = (pollPaths c polls st').1 ∧
      SameDelivery (pollPaths c polls st).2 (pollPaths c polls st').2 := by
  induction polls generalizing st st' with
  | nil => exact ⟨rfl, h⟩
  | cons poll rest ih =>
    rw [pollPaths, pollPaths]
    cases poll.result with
    | completion packets => exact ih (processCompletion_sameDelivery packets h)
    -- a poll without packets ends the call of both
    | signalReceived => exact ⟨rfl, h⟩
    | failure => exact ⟨rfl, h⟩

/-! ## Reconstruction -/

theorem searchValid_congr {arr arr' : Nat → ExtPacketInfo}
    (h : ∀ i, (arr i).isValid = (arr' i).isValid) (left startIdx : Nat) :
    searchValid c arr left startIdx = searchValid c arr' left startIdx := by
  induction left generalizing startIdx with
  | zero => rfl
  | succ left ih => rw [searchValid, searchValid, h startIdx, ih]

theorem skipPacket_sameDelivery {st st' : IpoStream} (h : SameDelivery st st') :
    SameDelivery (skipPacket c st) (skipPacket c st') where
  last := h.last
  state := h.state
  index := by simp only [skipPacket, releaseSlot, h.index]
  nextPacketTime := by simp only [skipPacket, releaseSlot, h.index, h.timestamp]
  startTime := h.startTime
  now := h.now
  slot := by
    simp only [skipPacket, releaseSlot, ← h.index]
    apply h.update_slot
    simp only [ExtPacketInfo.forgetCopy, h.sequenceNumber, h.timestamp]
  completed := by
    simp only [skipPacket, releaseSlot]
    rw [List.filter_cons_of_neg (by simp [isCompletePacket]),
      List.filter_cons_of_neg (by simp [isCompletePacket]), h.completed]

theorem transferPacket_sameDelivery {st st' : IpoStream} (h : SameDelivery st st') :
    SameDelivery (transferPacket c st) (transferPacket c st') where
  last := by simp only [transferPacket, completePacket, h.index, h.sequenceNumber]
  state := h.state
  index := by simp only [transferPacket, completePacket, releaseSlot, h.index]
  nextPacketTime := h.nextPacketTime
  startTime := h.startTime
  now := h.now
  slot := by
    simp only [transferPacket, completePacket, releaseSlot, ← h.index]
    apply h.update_slot
    simp only [ExtPacketInfo.forgetCopy, h.sequenceNumber, h.timestamp]
  completed := by
    simp only [transferPacket, completePacket, releaseSlot]
    rw [List.filter_cons_of_pos rfl, List.filter_cons_of_pos rfl, h.completed, h.index,
      h.sequenceNumber]

theorem skipInitialSync_sameDelivery (fuel : Nat) {st st' : IpoStream} (h : SameDelivery st st') :
    (skipInitialSync c fuel st).2 = (skipInitialSync c fuel st').2 ∧
      SameDelivery (skipInitialSync c fuel st).1 (skipInitialSync c fuel st').1 := by
  induction fuel generalizing st st' with
  | zero => exact ⟨rfl, h⟩
  | succ fuel ih =>
    rw [skipInitialSync_succ, skipInitialSync_succ, ← h.index, ← h.isValid, ← h.timestamp,
      ← h.startTime]
    split
    · exact ⟨rfl, h⟩
    · split
      · exact ⟨rfl, h⟩
      · exact ih (skipPacket_sameDelivery h)

theorem transferContiguous_sameDelivery (fuel : Nat) {st st' : IpoStream} {last last' size : Nat}
    (h : SameDelivery st st') :
    SameDelivery (transferContiguous c fuel st last size).1
      (transferContiguous c fuel st' last' size).1 := by
  induction fuel generalizing st st' last last' size with
  | zero => exact h
  | succ fuel ih =>
    rw [transferContiguous_succ, transferContiguous_succ, ← h.index, ← h.isValid, ← h.timestamp,
      ← h.now]
    split
    · exact h
    · split
      · exact h
      · split
        · exact transferPacket_sameDelivery h
        · exact ih (transferPacket_sameDelivery h)

/-- The end of `reconstruct`, from the end of the gap on. -/
def deliverFrom (c : IpoConfig) (startIdx : Nat) (st : IpoStream) (last : Nat) : IpoStream :=
  match skipInitialSync c (c.sequenceNumberWrapAround + 1) { st with index := startIdx } with
  | (skipped, false) => skipped
  | (synced, true) => (transferContiguous c c.sequenceNumberWrapAround synced last 0).1

/-- What `reconstruct` leaves, without the chunk. -/
theorem reconstruct_fst (st : IpoStream) (chunk : IpoReceiveChunk) :
    (reconstruct c st chunk).1 =
      if st.state ≠ .running then st
      else if st.now ≤ st.nextPacketTime + c.maxPathDifferential then st
      else
        match searchValid c st.extPacketInfoArr c.sequenceNumberWrapAround st.index with
        | none => { st with state := .waiting }
        | some startIdx =>
          if st.now ≤ (st.extPacketInfoArr startIdx).timestamp + c.maxPathDifferential then
            { st with nextPacketTime := (st.extPacketInfoArr startIdx).timestamp }
          else deliverFrom c startIdx st chunk.timestampLast := by
  unfold reconstruct
  split
  · rfl
  · split
    · rfl
    · cases searchValid c st.extPacketInfoArr c.sequenceNumberWrapAround st.index with
      | none => rfl
      | some startIdx =>
        dsimp only
        split
        · rfl
        · unfold deliverFrom
          split <;> simp_all only

theorem deliverFrom_sameDelivery {startIdx last last' : Nat} {st st' : IpoStream}
    (h : SameDelivery st st') :
    SameDelivery (deliverFrom c startIdx st last) (deliverFrom c startIdx st' last') := by
  -- both move to the end of the gap, and skip as many packets
  have hMoved : SameDelivery { st with index := startIdx } { st' with index := startIdx } :=
    ⟨h.last, h.state, rfl, h.nextPacketTime, h.startTime, h.now, h.slot, h.completed⟩
  obtain ⟨hFlag, hSkip⟩ :=
    skipInitialSync_sameDelivery (c := c) (c.sequenceNumberWrapAround + 1) hMoved
  unfold deliverFrom
  split
  · rename_i skipped hEq
    split
    · rename_i skipped' hEq'
      rw [hEq, hEq'] at hSkip
      exact hSkip
    · rename_i synced' hEq'
      rw [hEq, hEq'] at hFlag
      cases hFlag
  · rename_i synced hEq
    split
    · rename_i skipped' hEq'
      rw [hEq, hEq'] at hFlag
      cases hFlag
    · rename_i synced' hEq'
      rw [hEq, hEq'] at hSkip
      exact transferContiguous_sameDelivery _ hSkip

theorem reconstruct_sameDelivery {st st' : IpoStream} {chunk chunk' : IpoReceiveChunk}
    (h : SameDelivery st st') :
    SameDelivery (reconstruct c st chunk).1 (reconstruct c st' chunk').1 := by
  rw [reconstruct_fst, reconstruct_fst]
  by_cases hRun : st.state ≠ .running
  -- a stream that is not running is left alone
  · have hRun' : st'.state ≠ .running := h.state ▸ hRun
    rw [if_pos hRun, if_pos hRun']
    exact h
  have hRun' : ¬ st'.state ≠ .running := h.state ▸ hRun
  rw [if_neg hRun, if_neg hRun', ← h.now, ← h.nextPacketTime]
  split
  · exact h
  rw [← searchValid_congr h.isValid, ← h.index]
  cases searchValid c st.extPacketInfoArr c.sequenceNumberWrapAround st.index with
  | none =>
    exact ⟨h.last, rfl, rfl, rfl, h.startTime, rfl, h.slot, h.completed⟩
  | some startIdx =>
    dsimp only
    rw [← h.timestamp]
    split
    · exact ⟨h.last, h.state, rfl, rfl, h.startTime, rfl, h.slot, h.completed⟩
    · exact deliverFrom_sameDelivery h

/-! ## Calls -/

theorem beginCall_sameDelivery (now : Int) {st st' : IpoStream} (h : SameDelivery st st') :
    SameDelivery (beginCall c now st) (beginCall c now st') := by
  unfold beginCall
  by_cases hState : st.state = .notStarted
  · rw [if_pos hState, if_pos (h.state ▸ hState)]
    exact ⟨h.last, rfl, h.index, h.nextPacketTime, rfl, rfl, h.slot, h.completed⟩
  · rw [if_neg hState, if_neg (h.state ▸ hState)]
    exact ⟨h.last, h.state, h.index, h.nextPacketTime, h.startTime, rfl, h.slot, h.completed⟩

/-- The second half of a call, on states that polled alike. -/
theorem finishCall_sameDelivery {r r' : ReturnStatus × IpoStream} (hStatus : r.1 = r'.1)
    (h : SameDelivery r.2 r'.2) :
    SameDelivery (if r.1 = .success then (reconstruct c r.2 {}).1 else r.2)
      (if r'.1 = .success then (reconstruct c r'.2 {}).1 else r'.2) := by
  rw [hStatus]
  split
  · exact reconstruct_sameDelivery h
  · exact h

theorem nextState_sameDelivery {now : Int} {polls : List PathPoll} {st st' : IpoStream}
    (h : SameDelivery st st') :
    SameDelivery (nextState c now polls st) (nextState c now polls st') := by
  rw [nextState_eq, nextState_eq]
  have hPolled := pollPaths_sameDelivery (c := c) polls (beginCall_sameDelivery (c := c) now h)
  exact finishCall_sameDelivery hPolled.1 hPolled.2

theorem runCalls_sameDelivery (calls : List IpoCall) {st st' : IpoStream}
    (h : SameDelivery st st') : SameDelivery (runCalls c calls st) (runCalls c calls st') := by
  induction calls generalizing st st' with
  | nil => exact h
  | cons call rest ih => exact ih (nextState_sameDelivery h)

/-! ## Two packets of one call commute -/

/-- A packet that leaves the buffer alone: late, or a further copy. -/
def Dropped (c : IpoConfig) (s : Nat) (st : IpoStream) : Prop :=
  isLate c s st ∨ ¬ isFirstCopy c s st

instance (s : Nat) (st : IpoStream) : Decidable (Dropped c s st) :=
  inferInstanceAs (Decidable (_ ∨ _))

def placeNumber (c : IpoConfig) (s : Nat) (st : IpoStream) : IpoStream :=
  { st with
    extPacketInfoArr := Function.update st.extPacketInfoArr (s % c.sequenceNumberWrapAround)
      { sequenceNumber := s, isValid := true, timestamp := st.now } }

/-- What dispatching a sequence number does to the delivery view. -/
def acceptNumber (c : IpoConfig) (s : Nat) (st : IpoStream) : IpoStream :=
  if Dropped c s st then st else placeNumber c s st

theorem acceptNumber_dropped {s : Nat} {st : IpoStream} (h : Dropped c s st) :
    acceptNumber c s st = st := if_pos h

theorem acceptNumber_placed {s : Nat} {st : IpoStream} (h : ¬ Dropped c s st) :
    acceptNumber c s st = placeNumber c s st := if_neg h

theorem dispatchPacket_accept (path s : Nat) (info : ReceivePacketInfo) (st : IpoStream) :
    SameDelivery (dispatchPacket c path s info st) (acceptNumber c s st) := by
  by_cases hLate : isLate c s st
  · rw [dispatchPacket_late hLate, acceptNumber_dropped (Or.inl hLate)]
    exact sameDelivery_log rfl st
  · by_cases hFirst : isFirstCopy c s st
    · rw [dispatchPacket_first hLate hFirst,
        acceptNumber_placed (not_or.mpr ⟨hLate, not_not.mpr hFirst⟩)]
      -- the first copy fills the slot; the view forgets which copy it was
      exact ⟨rfl, rfl, rfl, rfl, rfl, rfl, (sameDelivery_refl st).update_slot _ rfl,
        List.filter_cons_of_neg (by simp [isCompletePacket])⟩
    · rw [dispatchPacket_redundant hLate hFirst, acceptNumber_dropped (Or.inr hFirst)]
      exact sameDelivery_log rfl st

theorem acceptNumber_sameDelivery {s : Nat} {st st' : IpoStream} (h : SameDelivery st st') :
    SameDelivery (acceptNumber c s st) (acceptNumber c s st') :=
  (dispatchPacket_accept 0 s {} st).symm.trans
    ((dispatchPacket_sameDelivery h).trans (dispatchPacket_accept 0 s {} st'))

/-- A packet placed elsewhere changes none of the tests. -/
theorem dropped_placeNumber {s t : Nat} {st : IpoStream}
    (h : s % c.sequenceNumberWrapAround ≠ t % c.sequenceNumberWrapAround) :
    Dropped c s (placeNumber c t st) ↔ Dropped c s st := by
  simp only [Dropped, isLate, isFirstCopy, placeNumber, Function.update_of_ne h]

theorem acceptNumber_comm {s t : Nat} {st : IpoStream}
    (h : s % c.sequenceNumberWrapAround ≠ t % c.sequenceNumberWrapAround) :
    acceptNumber c s (acceptNumber c t st) = acceptNumber c t (acceptNumber c s st) := by
  by_cases hs : Dropped c s st
  · rw [acceptNumber_dropped hs]
    by_cases ht : Dropped c t st
    · rw [acceptNumber_dropped ht, acceptNumber_dropped hs]
    · rw [acceptNumber_placed ht, acceptNumber_dropped ((dropped_placeNumber h).mpr hs)]
  · rw [acceptNumber_placed hs]
    by_cases ht : Dropped c t st
    · rw [acceptNumber_dropped ht, acceptNumber_placed hs,
        acceptNumber_dropped ((dropped_placeNumber h.symm).mpr ht)]
    · rw [acceptNumber_placed ht, acceptNumber_placed (mt (dropped_placeNumber h).mp hs),
        acceptNumber_placed (mt (dropped_placeNumber h.symm).mp ht)]
      -- both are placed, in different slots
      simp only [placeNumber]
      rw [Function.update_comm h]

/-- Dispatching two numbers that do not compete for a slot. -/
theorem dispatchPacket_comm {path path' s t : Nat} {info info' : ReceivePacketInfo}
    {st : IpoStream}
    (h : s % c.sequenceNumberWrapAround = t % c.sequenceNumberWrapAround → s = t) :
    SameDelivery (dispatchPacket c path' t info' (dispatchPacket c path s info st))
      (dispatchPacket c path s info (dispatchPacket c path' t info' st)) := by
  by_cases hEq : s = t
  · -- two copies: the order only decides which of them is kept
    subst hEq
    exact dispatchPacket_sameDelivery (dispatchPacket_sameDelivery (sameDelivery_refl st))
  · have hSlot : s % c.sequenceNumberWrapAround ≠ t % c.sequenceNumberWrapAround :=
      fun hMod => hEq (h hMod)
    -- in both orders the view is that of accepting the two numbers
    have hLeft : SameDelivery (dispatchPacket c path' t info' (dispatchPacket c path s info st))
        (acceptNumber c t (acceptNumber c s st)) :=
      (dispatchPacket_accept _ _ _ _).trans
        (acceptNumber_sameDelivery (dispatchPacket_accept _ _ _ _))
    have hRight : SameDelivery (dispatchPacket c path s info (dispatchPacket c path' t info' st))
        (acceptNumber c s (acceptNumber c t st)) :=
      (dispatchPacket_accept _ _ _ _).trans
        (acceptNumber_sameDelivery (dispatchPacket_accept _ _ _ _))
    rw [acceptNumber_comm hSlot] at hRight
    exact hLeft.trans hRight.symm

/-! ## Reordering the paths -/

/-- The packets the successful polls bring, in the order they are processed. -/
def polledPackets (polls : List PathPoll) : List (Nat × ReceivedPacket) :=
  polls.flatMap fun poll =>
    match poll.result with
    | .completion packets => packets.map fun packet => (poll.path, packet)
    | _ => []

def parsedNumber (c : IpoConfig) (p : Nat × ReceivedPacket) : Option Nat :=
  c.getSequenceNumber p.2.header (p.2.info.getPacketSubBlockSize 0)

/-- Their sequence numbers, those with a corrupted header left out. -/
def polledNumbers (c : IpoConfig) (polls : List PathPoll) : List Nat :=
  (polledPackets polls).filterMap (parsedNumber c)

def processAll (c : IpoConfig) (packets : List (Nat × ReceivedPacket)) (st : IpoStream) :
    IpoStream :=
  packets.foldl (fun st p => processPacket c p.1 p.2 st) st

theorem pollPaths_append {polls rest : List PathPoll} {st : IpoStream}
    (h : ∀ poll ∈ polls, ∃ packets, poll.result = .completion packets) :
    pollPaths c (polls ++ rest) st =
      pollPaths c rest (processAll c (polledPackets polls) st) := by
  induction polls generalizing st with
  | nil => rfl
  | cons poll more ih =>
    -- a poll that succeeds goes on to the next path
    obtain ⟨packets, hPoll⟩ := h poll List.mem_cons_self
    rw [List.cons_append, pollPaths]
    simp only [hPoll]
    rw [ih fun other hOther => h other (List.mem_cons_of_mem poll hOther)]
    simp only [polledPackets, processAll, List.flatMap_cons, hPoll, List.foldl_append,
      List.foldl_map, processCompletion]

theorem processAll_sameDelivery (packets : List (Nat × ReceivedPacket)) {st st' : IpoStream}
    (h : SameDelivery st st') :
    SameDelivery (processAll c packets st) (processAll c packets st') := by
  induction packets generalizing st st' with
  | nil => exact h
  | cons packet rest ih => exact ih (processPacket_sameDelivery h)

theorem switchState_of_running {s : Nat} {st : IpoStream} (h : st.state = .running) :
    switchState c s st = st := by
  simp only [switchState, h]

theorem processPacket_running (path : Nat) (packet : ReceivedPacket) {st : IpoStream}
    (h : st.state = .running) : (processPacket c path packet st).state = .running := by
  unfold processPacket
  split
  · exact h
  · rw [switchState_of_running h, dispatchPacket_state, h]

theorem processPacket_comm {path path' : Nat} {packet packet' : ReceivedPacket} {st : IpoStream}
    (hRun : st.state = .running)
    (h : ∀ s ∈ parsedNumber c (path, packet), ∀ t ∈ parsedNumber c (path', packet'),
      s % c.sequenceNumberWrapAround = t % c.sequenceNumberWrapAround → s = t) :
    SameDelivery (processPacket c path' packet' (processPacket c path packet st))
      (processPacket c path packet (processPacket c path' packet' st)) := by
  -- a corrupted header changes nothing but the log
  have hCorrupted : ∀ {p : Nat} {q : ReceivedPacket} (st : IpoStream),
      c.getSequenceNumber q.header (q.info.getPacketSubBlockSize 0) = none →
      SameDelivery (processPacket c p q st) st := by
    intro p q st hNone
    simp only [processPacket, hNone]
    exact sameDelivery_log rfl st
  cases hs : c.getSequenceNumber packet.header (packet.info.getPacketSubBlockSize 0) with
  | none =>
    exact (processPacket_sameDelivery (hCorrupted st hs)).trans (hCorrupted _ hs).symm
  | some s =>
    cases ht : c.getSequenceNumber packet'.header (packet'.info.getPacketSubBlockSize 0) with
    | none =>
      exact (hCorrupted _ ht).trans (processPacket_sameDelivery (hCorrupted st ht)).symm
    | some t =>
      -- neither packet resynchronises, so both are only dispatched
      have hFirst := processPacket_running (c := c) path packet hRun
      have hOther := processPacket_running (c := c) path' packet' hRun
      simp only [processPacket, hs, ht, switchState_of_running hRun] at hFirst hOther ⊢
      rw [switchState_of_running hFirst, switchState_of_running hOther]
      exact dispatchPacket_comm (h s hs t ht)

theorem mem_polledNumbers {polls : List PathPoll} {p : Nat × ReceivedPacket} {s : Nat}
    (hp : p ∈ polledPackets polls)
    (hs : s ∈ parsedNumber c p) : s ∈ polledNumbers c polls :=
  List.mem_filterMap.mpr ⟨p, hp, hs⟩

theorem polledPackets_perm {a b : List PathPoll} (h : a.Perm b) :
    (polledPackets a).Perm (polledPackets b) :=
  h.flatMap_right _

/-- A running stream takes the packets of a call in any order. -/
theorem processAll_perm {a b : List PathPoll} {st : IpoStream} (hPerm : a.Perm b)
    (hRun : st.state = .running)
    (hSlots : ∀ s ∈ polledNumbers c a, ∀ t ∈ polledNumbers c a,
      s % c.sequenceNumberWrapAround = t % c.sequenceNumberWrapAround → s = t) :
    SameDelivery (processAll c (polledPackets a) st) (processAll c (polledPackets b) st) := by
  apply deliveryView_eq_iff.mp
  apply foldl_perm (fun st => st.state = .running) _ _ _ (polledPackets_perm hPerm) hRun
  · intro p s s' hView
    exact deliveryView_eq_iff.mpr (processPacket_sameDelivery (deliveryView_eq_iff.mp hView))
  · intro s p hs
    exact processPacket_running p.1 p.2 hs
  -- any two packets of the call may be exchanged
  · intro p hp q hq s hs
    apply deliveryView_eq_iff.mpr
    apply processPacket_comm hs
    intro x hx y hy
    exact hSlots x (mem_polledNumbers hp hx) y (mem_polledNumbers hq hy)

theorem switchState_idem {s t : Nat} {st : IpoStream} (h : st.state ≠ .notStarted) :
    switchState c t (switchState c s st) = switchState c s st :=
  switchState_of_running (switchState_running h)

/-- The first valid header decides what the state switches to. -/
theorem processAll_switchState {packets : List (Nat × ReceivedPacket)} {s : Nat} {st : IpoStream}
    (hStarted : st.state ≠ .notStarted)
    (hFirst : (packets.filterMap (parsedNumber c)).head? = some s) :
    SameDelivery (processAll c packets st) (processAll c packets (switchState c s st)) := by
  induction packets generalizing st with
  | nil => cases hFirst
  | cons p rest ih =>
    show SameDelivery (processAll c rest (processPacket c p.1 p.2 st))
      (processAll c rest (processPacket c p.1 p.2 (switchState c s st)))
    cases hParse : parsedNumber c p with
    | none =>
      rw [List.filterMap_cons_none hParse] at hFirst
      rw [parsedNumber] at hParse
      simp only [processPacket, hParse]
      -- a corrupted header comes before the switch or after it
      have hBefore := sameDelivery_log (e := .handleCorruptedPacket p.1) rfl st
      have hAfter := sameDelivery_log (e := .handleCorruptedPacket p.1) rfl (switchState c s st)
      exact ((processAll_sameDelivery rest hBefore).trans (ih hStarted hFirst)).trans
        (processAll_sameDelivery rest hAfter.symm)
    | some t =>
      rw [List.filterMap_cons_some hParse, List.head?_cons] at hFirst
      rw [parsedNumber] at hParse
      obtain rfl := Option.some.inj hFirst
      -- the first valid header does the switch itself
      simp only [processPacket, hParse, switchState_idem hStarted]
      exact sameDelivery_refl _

theorem processAll_of_corrupted {packets : List (Nat × ReceivedPacket)} {st : IpoStream}
    (h : packets.filterMap (parsedNumber c) = []) : SameDelivery (processAll c packets st) st := by
  induction packets generalizing st with
  | nil => exact sameDelivery_refl st
  | cons p rest ih =>
    have hParse : parsedNumber c p = none := by
      by_contra hSome
      obtain ⟨t, ht⟩ := Option.ne_none_iff_exists'.mp hSome
      rw [List.filterMap_cons_some ht] at h
      cases h
    rw [List.filterMap_cons_none hParse] at h
    rw [parsedNumber] at hParse
    show SameDelivery (processAll c rest (processPacket c p.1 p.2 st)) st
    simp only [processPacket, hParse]
    exact (ih h).trans (sameDelivery_log rfl st)

/-- A call of which no packet resynchronises the stream: it is running, or
waiting for no longer than the sender-restart threshold. -/
def KeepsPosition (c : IpoConfig) (now : Int) (st : IpoStream) : Prop :=
  st.state = .running ∨
    st.state = .waiting ∧ now - st.nextPacketTime ≤ c.senderRestartThreshold

instance (now : Int) (st : IpoStream) : Decidable (KeepsPosition c now st) :=
  inferInstanceAs (Decidable (_ ∨ _))

/-- Without a resynchronisation the switch does not depend on the packet. -/
theorem switchState_of_keepsPosition {now : Int} {s t : Nat} {st : IpoStream}
    (h : KeepsPosition c now st) :
    switchState c s (beginCall c now st) = switchState c t (beginCall c now st) := by
  rcases h with hRun | ⟨hWait, hRecent⟩
  · have hBegun : (beginCall c now st).state = .running := by
      rw [beginCall, if_neg (by rw [hRun]; decide)]
      exact hRun
    rw [switchState_of_running hBegun, switchState_of_running hBegun]
  · rw [beginCall, if_neg (by rw [hWait]; decide)]
    simp only [switchState, hWait]
    -- the wait was too short for a resynchronisation
    rw [if_neg (by omega), if_neg (by omega)]

theorem processAll_path_order {now : Int} {a b : List PathPoll} {st : IpoStream}
    (hPerm : a.Perm b)
    (hSlots : ∀ s ∈ polledNumbers c a, ∀ t ∈ polledNumbers c a,
      s % c.sequenceNumberWrapAround = t % c.sequenceNumberWrapAround → s = t)
    (hFirst : KeepsPosition c now st ∨
      (polledNumbers c a).head? = (polledNumbers c b).head?) :
    SameDelivery (processAll c (polledPackets a) (beginCall c now st))
      (processAll c (polledPackets b) (beginCall c now st)) := by
  have hStarted : (beginCall c now st).state ≠ .notStarted := by
    unfold beginCall
    split
    · simp
    · assumption
  have hNumbers : (polledNumbers c a).Perm (polledNumbers c b) :=
    (polledPackets_perm hPerm).filterMap _
  cases ha : polledNumbers c a with
  | nil =>
    -- all headers are corrupted, in either order
    have hb : polledNumbers c b = [] := by
      rw [ha] at hNumbers
      exact hNumbers.nil_eq.symm
    exact (processAll_of_corrupted ha).trans (processAll_of_corrupted hb).symm
  | cons s moreA =>
    cases hb : polledNumbers c b with
    | nil =>
      rw [ha, hb] at hNumbers
      exact absurd hNumbers.eq_nil (List.cons_ne_nil s moreA)
    | cons t moreB =>
      have hHeadA : (polledNumbers c a).head? = some s := by rw [ha, List.head?_cons]
      have hHeadB : (polledNumbers c b).head? = some t := by rw [hb, List.head?_cons]
      -- the stream switches to the same state for both first numbers
      have hSwitch : switchState c s (beginCall c now st) =
          switchState c t (beginCall c now st) := by
        rcases hFirst with hKeeps | hHead
        · exact switchState_of_keepsPosition hKeeps
        · rw [hHeadA, hHeadB] at hHead
          obtain rfl := Option.some.inj hHead
          rfl
      have hLeft := processAll_switchState hStarted hHeadA
      have hRight := processAll_switchState hStarted hHeadB
      rw [← hSwitch] at hRight
      exact (hLeft.trans (processAll_perm hPerm (switchState_running hStarted) hSlots)).trans
        hRight.symm

/-- **Path-order independence.** The successful polls of a call may come in any
order, as long as no two of their numbers compete for a slot and the call
either keeps the position or resynchronises to the same first number: what this
call and all later ones deliver stays the same. -/
theorem delivery_independent_of_path_order {now : Int} {a b rest : List PathPoll}
    {st : IpoStream} (later : List IpoCall) (hPerm : a.Perm b)
    (hSuccess : ∀ poll ∈ a, ∃ packets, poll.result = .completion packets)
    (hSlots : ∀ s ∈ polledNumbers c a, ∀ t ∈ polledNumbers c a,
      s % c.sequenceNumberWrapAround = t % c.sequenceNumberWrapAround → s = t)
    (hFirst : KeepsPosition c now st ∨
      (polledNumbers c a).head? = (polledNumbers c b).head?) :
    completedSequence (runCalls c later (nextState c now (a ++ rest) st)) =
      completedSequence (runCalls c later (nextState c now (b ++ rest) st)) := by
  have hSuccess' : ∀ poll ∈ b, ∃ packets, poll.result = .completion packets :=
    fun poll hPoll => hSuccess poll (hPerm.mem_iff.mpr hPoll)
  have hProcessed := processAll_path_order hPerm hSlots hFirst
  have hPolled := pollPaths_sameDelivery (c := c) rest hProcessed
  rw [← pollPaths_append hSuccess, ← pollPaths_append hSuccess'] at hPolled
  -- the paths polled behind them find the same view
  have hNext : SameDelivery (nextState c now (a ++ rest) st) (nextState c now (b ++ rest) st) := by
    rw [nextState_eq, nextState_eq]
    exact finishCall_sameDelivery hPolled.1 hPolled.2
  have hView := deliveryView_eq_iff.mpr (runCalls_sameDelivery (c := c) later hNext)
  rw [← completedSequence_deliveryView, hView, completedSequence_deliveryView]

/-- A stream that polled both paths once and runs with `100` in its buffer. -/
def runningStream : IpoStream :=
  runCalls fourSlots
    [(0, [rtpPoll 0 [], rtpPoll 1 []]), (60000, [rtpPoll 0 [100], rtpPoll 1 []])] {}

theorem delivery_independent_of_path_order_runningStream :
    completedSequence (runCalls fourSlots [(130000, [rtpPoll 0 [], rtpPoll 1 []])]
      (nextState fourSlots 70000 ([rtpPoll 0 [101, 102], rtpPoll 1 [100, 101]] ++ [])
        runningStream)) =
    completedSequence (runCalls fourSlots [(130000, [rtpPoll 0 [], rtpPoll 1 []])]
      (nextState fourSlots 70000 ([rtpPoll 1 [100, 101], rtpPoll 0 [101, 102]] ++ [])
        runningStream)) := by
  apply delivery_independent_of_path_order
  · exact List.Perm.swap _ _ []
  · intro poll hPoll
    rcases List.mem_cons.mp hPoll with rfl | hPoll
    · exact ⟨_, rfl⟩
    · obtain rfl := List.mem_singleton.mp hPoll
      exact ⟨_, rfl⟩
  · decide +kernel
  · exact Or.inl (by decide +kernel)

/-- A stream that has polled both paths once and waits for its first packet. -/
def waitingStream : IpoStream := runCalls fourSlots [(0, [rtpPoll 0 [], rtpPoll 1 []])] {}

def emptyCalls : List IpoCall :=
  [(120000, [rtpPoll 0 [], rtpPoll 1 []]), (121000, [rtpPoll 0 [], rtpPoll 1 []])]

/-- **The first packet fixes the position.** Whichever of two different numbers
is polled first, the position starts there and the other one comes out later.
And a path that fails hides those polled after it. -/
theorem path_order_matters :
    Reachable fourSlots waitingStream ∧
      (∀ s ∈ polledNumbers fourSlots [rtpPoll 0 [100], rtpPoll 1 [99]],
        ∀ t ∈ polledNumbers fourSlots [rtpPoll 0 [100], rtpPoll 1 [99]],
          s % fourSlots.sequenceNumberWrapAround = t % fourSlots.sequenceNumberWrapAround →
            s = t) ∧
      completedSequence (runCalls fourSlots emptyCalls
        (nextState fourSlots 60000 [rtpPoll 0 [100], rtpPoll 1 [99]] waitingStream)) = [100, 99] ∧
      completedSequence (runCalls fourSlots emptyCalls
        (nextState fourSlots 60000 [rtpPoll 1 [99], rtpPoll 0 [100]] waitingStream)) = [99, 100] ∧
      completedSequence (runCalls fourSlots emptyCalls
        (nextState fourSlots 60000 [rtpPoll 0 [100], ⟨1, .failure⟩] waitingStream)) = [100] ∧
      completedSequence (runCalls fourSlots emptyCalls
        (nextState fourSlots 60000 [⟨1, .failure⟩, rtpPoll 0 [100]] waitingStream)) = [] := by
  exact ⟨reachable_runCalls _ .created, by decide +kernel, by decide +kernel, by decide +kernel,
    by decide +kernel, by decide +kernel⟩

end RivermaxDevKit
