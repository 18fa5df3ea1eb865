import RivermaxDevKit.Lib.SlotArray
import RivermaxDevKit.Latency.MediaTx

/-!
# Media transmit latency node — commit times

The loop of `MediaTxIONode::send_receive` (`media_latency_io_node.cpp`): chunks are
committed field by field and all but the last chunk of a field are tracked; their
completions come back first in, first out and are counted in fields. `m_commit_ts`
keeps the scheduled times of the chunks whose completions are still out.

* `Ring.tryProcessOneCompletion` / `Ring.commitChunks` — what the calls of the loop
  preserve.
* `LoopTop.iterate` — what one pass of the loop preserves.
* `commitRing_safe` — the field counters never cross, and a completion finds the time
  that was stored for its chunk.
-/

namespace RivermaxDevKit

/-- `LAST_CHUNKS_SKIP_NUM` of `media_latency_io_node.cpp`. -/
def LAST_CHUNKS_SKIP_NUM : Nat := 1

/-- The settings of a run; `capacity` is that of `m_commit_ts` after `reserve`. -/
structure CommitRingSettings where
  stream : MediaStreamSettings
  numOfPacketsInChunk : Nat
  startTimeNs : Nat
  measureIntervalSec : Nat
  capacity : Nat

namespace CommitRingSettings

variable (c : CommitRingSettings)

def chunksInFrameField : Nat := c.stream.mediaSettings.chunksInFrameField

def framesFieldsInMemBlock : Nat := c.stream.mediaSettings.framesFieldsInMemBlock

/-- The chunks of a field that are tracked. -/
def trackedChunks : Nat := c.chunksInFrameField - LAST_CHUNKS_SKIP_NUM

/-- `get_finish_time_of_next_field_ns`, cast. -/
def finishTimeOfNextFieldNs (completedFrameFieldCounter : Nat) : Nat :=
  ⌊RtpVideoSendStream.sendTimeNs c.stream c.startTimeNs +
    c.stream.mediaSettings.frameFieldTimeIntervalNs * (completedFrameFieldCounter + 1 : Nat)⌋₊

def chunkScheduledTimeNs (counters : TxCounters) : Nat :=
  MediaTxIONode.chunkScheduledTimeNs c.stream c.numOfPacketsInChunk c.startTimeNs counters

/-- The time that is stored for the chunk marked with `token`. -/
def commitTimeOf (token : Nat) : Nat :=
  c.chunkScheduledTimeNs ⟨token / c.trackedChunks, token % c.trackedChunks⟩

end CommitRingSettings

/-- What happens to a chunk: its commit, with the token it was marked with and the
stored time, and its completion, with the time that is read back. -/
inductive TxEvent
  | committed (token : Option Nat) (chunkScheduledTimeNs commitTimestampNs : Nat)
  | handled (token commitTs txHwTimestamp : Nat)
  deriving DecidableEq, Repr

/-- The locals and the members of the node that the loop works on. Tokens count up and
are not reduced. -/
structure CommitRing where
  counters : TxCounters := {}
  completedFrameFieldCounter : Nat := 0
  completionInFieldCounter : Nat := 0
  markedToken : Nat := 0
  handledToken : Nat := 0
  commitTs : Nat → Nat := fun _ => 0
  /-- Tokens of committed chunks whose completions are not delivered yet. -/
  inFlight : List Nat := []
  /-- The last event first. -/
  events : List TxEvent := []

/-- What a poll meets: the answer of `poll_for_completion`, and of
`get_last_completion_info` where there is a completion. -/
structure CompletionPoll where
  status : ReturnStatus
  infoAvailable : Bool := true
  txHwTimestamp : Nat := 0

/-- What the calls for one chunk answer. `commit_chunk` finds the queue full
`timesQueueFull` times before it answers `commitStatus`. -/
structure ChunkCalls where
  getNextStatus : ReturnStatus := .success
  markStatus : ReturnStatus := .success
  timesQueueFull : Nat := 0
  commitStatus : ReturnStatus := .success

/-- What one pass of the loop meets. -/
structure PassInput where
  tsNow : Nat
  polls : Nat → CompletionPoll
  chunks : Nat → ChunkCalls
  tsEnd : Nat

/-- The loop goes on, or is left. -/
inductive PassEnd
  | next (s : CommitRing)
  | leave (s : CommitRing)

namespace CommitRing

variable (c : CommitRingSettings)

/-- The oldest completion is handled; its delay is measured from the stored time. -/
def handleCompletion (txHwTimestamp : Nat) (s : CommitRing) : CommitRing :=
  { s with
    inFlight := s.inFlight.tail
    events := .handled s.handledToken (s.commitTs (s.handledToken % c.capacity)) txHwTimestamp ::
      s.events
    handledToken := s.handledToken + 1 }

def countCompletion (s : CommitRing) : CommitRing :=
  { s with completionInFieldCounter := s.completionInFieldCounter + 1 }

/-- `try_process_one_completion`. Completions are delivered in the order of the commits;
where none is out there is none to find. -/
def tryProcessOneCompletion (poll : CompletionPoll) (s : CommitRing) :
    ReturnStatus × CommitRing :=
  if poll.status ≠ .success then (poll.status, s)
  else match s.inFlight with
    | [] => (.noCompletion, s)
    | complToken :: inFlight =>
      if ¬ poll.infoAvailable then (.failure, { s with inFlight })
      -- out of order
      else if complToken ≠ s.handledToken then (.failure, { s with inFlight })
      else (.success, s.handleCompletion c poll.txHwTimestamp)

/-- The loop over completions, with what is left of `fetch_budget`. -/
def fetchCompletions : (fetchBudget : Nat) → (Nat → CompletionPoll) → CommitRing →
    ReturnStatus × CommitRing
  | 0, _, s => (.success, s)
  | fetchBudget + 1, polls, s =>
    match s.tryProcessOneCompletion c (polls 0) with
    -- nothing more is ready, which is no error
    | (.noCompletion, s) => (.success, s)
    | (.success, s) =>
      let s := s.countCompletion
      if s.completionInFieldCounter < c.trackedChunks then
        fetchCompletions fetchBudget (fun i => polls (i + 1)) s
      else (.success, s)
    | (rc, s) => (rc, s)

/-- A field is completed with its last tracked chunk. -/
def completeField (s : CommitRing) : CommitRing :=
  if s.completionInFieldCounter = c.trackedChunks then
    { s with
      completedFrameFieldCounter := s.completedFrameFieldCounter + 1
      completionInFieldCounter := 0 }
  else s

/-- A chunk that was committed. -/
def chunkCommitted (s : CommitRing) : CommitRing :=
  let chunkScheduledTimeNs := c.chunkScheduledTimeNs s.counters
  let commitTimestampNs := if s.counters.chunkInFieldCounter = 0 then chunkScheduledTimeNs else 0
  let isThisChunkTracked : Bool := s.counters.chunkInFieldCounter < c.trackedChunks
  { s with
    counters.chunkInFieldCounter := s.counters.chunkInFieldCounter + 1
    markedToken := if isThisChunkTracked then s.markedToken + 1 else s.markedToken
    inFlight := if isThisChunkTracked then s.inFlight ++ [s.markedToken] else s.inFlight
    events := .committed (if isThisChunkTracked then some s.markedToken else none)
      chunkScheduledTimeNs commitTimestampNs :: s.events }

/-- The time of the next chunk is stored in the slot of the next token. -/
def storeCommitTs (s : CommitRing) : CommitRing :=
  { s with
    commitTs := Function.update s.commitTs (s.markedToken % c.capacity)
      (c.chunkScheduledTimeNs s.counters) }

/-- The loop over chunks; a field has no more than `remaining` of them left. -/
def commitChunks : (remaining : Nat) → (Nat → ChunkCalls) → CommitRing → ReturnStatus × CommitRing
  | 0, _, s => (.success, s)
  | remaining + 1, chunks, s =>
    let calls := chunks 0
    if calls.getNextStatus ≠ .success then (calls.getNextStatus, s)
    else
      let s := s.storeCommitTs c
      if s.counters.chunkInFieldCounter < c.trackedChunks ∧ calls.markStatus ≠ .success then
        (calls.markStatus, s)
      else if calls.commitStatus ≠ .success then (calls.commitStatus, s)
      else
        let s := s.chunkCommitted c
        -- `was_blocked`
        if calls.timesQueueFull > 0 then (.success, s)
        else if s.counters.chunkInFieldCounter < c.chunksInFrameField then
          commitChunks remaining (fun i => chunks (i + 1)) s
        else (.success, s)

/-- A field is committed with its last chunk. -/
def commitField (s : CommitRing) : CommitRing :=
  if s.counters.chunkInFieldCounter = c.chunksInFrameField then
    { s with
      counters.committedFrameFieldCounter := s.counters.committedFrameFieldCounter + 1
      counters.chunkInFieldCounter := 0 }
  else s

/-- `is_place_to_commit`; the difference is one of `size_t`. -/
def isPlaceToCommit (s : CommitRing) : Prop :=
  ((s.counters.committedFrameFieldCounter : Int) - s.completedFrameFieldCounter) % 2 ^ 64 <
    c.framesFieldsInMemBlock

instance (s : CommitRing) : Decidable (s.isPlaceToCommit c) :=
  inferInstanceAs (Decidable (_ < _))

/-- `is_time_to_fetch_completions`, and what follows from it. -/
def fetch (tsNow : Nat) (polls : Nat → CompletionPoll) (s : CommitRing) :
    ReturnStatus × CommitRing :=
  if tsNow ≥ c.finishTimeOfNextFieldNs s.completedFrameFieldCounter then
    let polled := s.fetchCompletions c 10 polls
    (polled.1, polled.2.completeField c)
  else (.success, s)

/-- What follows from `is_place_to_commit`. -/
def send (chunks : Nat → ChunkCalls) (s : CommitRing) : ReturnStatus × CommitRing :=
  let sent := s.commitChunks c c.chunksInFrameField chunks
  (sent.1, sent.2.commitField c)

/-- One pass of the loop. Whether there is place is asked before completions are fetched;
a pass with nothing to do waits. -/
def iterate (input : PassInput) (s : CommitRing) : PassEnd :=
  let isPlaceToCommit : Bool := s.isPlaceToCommit c
  let fetched := s.fetch c input.tsNow input.polls
  if fetched.1 ≠ .success then .leave fetched.2
  else if isPlaceToCommit then
    let sent := fetched.2.send c input.chunks
    if sent.1 ≠ .success then .leave sent.2
    else if input.tsEnd > c.startTimeNs + c.measureIntervalSec * NS_IN_SEC then .leave sent.2
    else .next sent.2
  else .next fetched.2

/-- The states at the top of the loop. -/
inductive AtTop : CommitRing → Prop
  | start : AtTop {}
  | next {s s' : CommitRing} (input : PassInput) (hTop : AtTop s)
      (hPass : s.iterate c input = .next s') : AtTop s'

/-- The states behind the loop, where the completions that are still out are polled. -/
inductive Draining : CommitRing → Prop
  | signal {s : CommitRing} (hTop : AtTop c s) : Draining s
  | leave {s s' : CommitRing} (input : PassInput) (hTop : AtTop c s)
      (hPass : s.iterate c input = .leave s') : Draining s'
  | poll {s : CommitRing} (poll : CompletionPoll) (hDraining : Draining s) :
      Draining (s.tryProcessOneCompletion c poll).2

/-! ## The ring -/

/-- The times of the chunks that are still out are in their slots, and a completion came
after the commit of its chunk and found the time that was stored for it. -/
structure Ring (s : CommitRing) : Prop where
  le : s.handledToken ≤ s.markedToken
  inFlight : ∀ t ∈ s.inFlight, t < s.markedToken
  holds : SlotArray.Holds c.capacity s.commitTs c.commitTimeOf s.handledToken s.markedToken
  committed : ∀ t < s.markedToken, ∃ ts, .committed (some t) (c.commitTimeOf t) ts ∈ s.events
  stored : ∀ t v ts, .committed (some t) v ts ∈ s.events → v = c.commitTimeOf t
  handled : ∀ t v tx before, .handled t v tx :: before <:+ s.events →
    v = c.commitTimeOf t ∧ ∃ ts, .committed (some t) v ts ∈ before

variable {c} {s : CommitRing}

/-- What polling can do: a completion is handled in order, or nothing is handled. -/
theorem tryProcessOneCompletion_cases (poll : CompletionPoll) (s : CommitRing) :
    ((s.tryProcessOneCompletion c poll).1 = .success ∧ s.handledToken ∈ s.inFlight ∧
      (s.tryProcessOneCompletion c poll).2 = s.handleCompletion c poll.txHwTimestamp) ∨
    ((s.tryProcessOneCompletion c poll).1 ≠ .success ∧ ∃ inFlight, inFlight ⊆ s.inFlight ∧
      (s.tryProcessOneCompletion c poll).2 = { s with inFlight }) := by
  unfold tryProcessOneCompletion
  by_cases hStatus : poll.status = .success
  · rw [if_neg (not_not.mpr hStatus)]
    cases hFlight : s.inFlight with
    -- a queue without completions
    | nil =>
      have hSame := congrArg (fun inFlight => { s with inFlight }) hFlight
      exact .inr ⟨nofun, [], List.Subset.refl _, hSame⟩
    | cons complToken inFlight =>
      dsimp only
      by_cases hInfo : poll.infoAvailable
      · rw [if_neg (not_not.mpr hInfo)]
        by_cases hOrder : complToken = s.handledToken
        · rw [if_neg (not_not.mpr hOrder), hOrder]
          exact .inl ⟨rfl, List.mem_cons_self, rfl⟩
        · rw [if_pos hOrder]
          exact .inr ⟨nofun, inFlight, List.subset_cons_self _ _, rfl⟩
      · rw [if_pos hInfo]
        exact .inr ⟨nofun, inFlight, List.subset_cons_self _ _, rfl⟩
  -- the poll itself answers something else
  · rw [if_pos hStatus]
    exact .inr ⟨hStatus, s.inFlight, List.Subset.refl _, rfl⟩

/-- Another event hides no commit. -/
theorem Ring.committed_cons (h : Ring c s) (event : TxEvent) :
    ∀ t < s.markedToken, ∃ ts, .committed (some t) (c.commitTimeOf t) ts ∈ event :: s.events := by
  intro t ht
  obtain ⟨ts, hOld⟩ := h.committed t ht
  exact ⟨ts, List.mem_cons_of_mem _ hOld⟩

/-- A commit adds no completion. -/
theorem Ring.handled_cons (h : Ring c s) {token : Option Nat} {time commitTimestampNs : Nat} :
    ∀ t v tx before,
      .handled t v tx :: before <:+ .committed token time commitTimestampNs :: s.events →
        v = c.commitTimeOf t ∧ ∃ ts, .committed (some t) v ts ∈ before := by
  intro t v tx before hSuffix
  rcases List.suffix_cons_iff.mp hSuffix with hNew | hOld
  · cases hNew
  · exact h.handled t v tx before hOld

theorem Ring.tryProcessOneCompletion (h : Ring c s) (poll : CompletionPoll) :
    Ring c (s.tryProcessOneCompletion c poll).2 := by
  -- either the oldest completion is handled, or only the queue may be shorter
  rcases tryProcessOneCompletion_cases (c := c) poll s with
    ⟨-, hFlight, hNext⟩ | ⟨-, inFlight, hSubset, hNext⟩
  · rw [hNext]
    -- the chunk was committed, and its time is still there
    have hMarked := h.inFlight _ hFlight
    have hTime := h.holds s.handledToken (Nat.le_refl _) hMarked
    obtain ⟨ts, hCommitted⟩ := h.committed s.handledToken hMarked
    refine ⟨hMarked, fun t ht => h.inFlight t (List.mem_of_mem_tail ht), h.holds.shrink,
      h.committed_cons _, ?_, ?_⟩
    · intro t v ts hEvent
      rcases List.mem_cons.mp hEvent with hNew | hOld
      · cases hNew
      · exact h.stored t v ts hOld
    -- the new completion is the last event; the older ones are as before
    · intro t v tx before hSuffix
      rcases List.suffix_cons_iff.mp hSuffix with hNew | hOld
      · cases hNew
        exact ⟨hTime, ts, by rw [hTime]; exact hCommitted⟩
      · exact h.handled t v tx before hOld
  · rw [hNext]
    exact ⟨h.le, fun t ht => h.inFlight t (hSubset ht), h.holds, h.committed, h.stored, h.handled⟩

/-- A time may be stored while a slot is free. -/
theorem Ring.storeCommitTs (h : Ring c s) (hRoom : s.markedToken < s.handledToken + c.capacity) :
    Ring c (s.storeCommitTs c) :=
  ⟨h.le, h.inFlight, h.holds.write hRoom _, h.committed, h.stored, h.handled⟩

theorem commitTimeOf_eq {field chunk : Nat} (hTracked : chunk < c.trackedChunks) :
    c.commitTimeOf (field * c.trackedChunks + chunk) = c.chunkScheduledTimeNs ⟨field, chunk⟩ := by
  -- the tracked chunks are numbered field by field
  have hField : (field * c.trackedChunks + chunk) / c.trackedChunks = field := by
    rw [Nat.add_comm, Nat.add_mul_div_right _ _ (by omega), Nat.div_eq_of_lt hTracked,
      Nat.zero_add]
  have hChunk : (field * c.trackedChunks + chunk) % c.trackedChunks = chunk := by
    rw [Nat.mul_add_mod_self_right, Nat.mod_eq_of_lt hTracked]
  rw [CommitRingSettings.commitTimeOf, hField, hChunk]

/-- The chunk whose time was stored is committed. -/
theorem Ring.chunkCommitted (h : Ring c s)
    (hStored : s.commitTs (s.markedToken % c.capacity) = c.chunkScheduledTimeNs s.counters)
    (hMarked : s.markedToken = s.counters.committedFrameFieldCounter * c.trackedChunks +
      min s.counters.chunkInFieldCounter c.trackedChunks) :
    Ring c (s.chunkCommitted c) := by
  unfold CommitRing.chunkCommitted
  -- a tracked chunk is given the next token
  by_cases hTracked : s.counters.chunkInFieldCounter < c.trackedChunks
  · have hTime : c.commitTimeOf s.markedToken = c.chunkScheduledTimeNs s.counters := by
      rw [hMarked, Nat.min_eq_left (Nat.le_of_lt hTracked), commitTimeOf_eq hTracked]
    simp only [hTracked, decide_true, if_true]
    refine ⟨Nat.le_succ_of_le h.le, ?_, h.holds.grow (hStored.trans hTime.symm), ?_, ?_,
      h.handled_cons⟩
    · intro t ht
      -- the new token is the largest
      rcases List.mem_append.mp ht with hOld | hNew
      · exact Nat.lt_succ_of_lt (h.inFlight t hOld)
      · rw [List.mem_singleton.mp hNew]
        exact Nat.lt_succ_self _
    · intro t ht
      rcases Nat.lt_succ_iff_lt_or_eq.mp ht with hOld | rfl
      · exact h.committed_cons _ t hOld
      · rw [hTime]
        exact ⟨_, List.mem_cons_self⟩
    · intro t v ts hEvent
      rcases List.mem_cons.mp hEvent with hNew | hOld
      · cases hNew
        exact hTime.symm
      · exact h.stored t v ts hOld
  · -- the last chunk of a field has no token
    simp only [hTracked, decide_false, if_false, Bool.false_eq_true]
    refine ⟨h.le, h.inFlight, h.holds, h.committed_cons _, ?_, h.handled_cons⟩
    intro t v ts hEvent
    rcases List.mem_cons.mp hEvent with hNew | hOld
    · cases hNew
    · exact h.stored t v ts hOld

/-! ## The counters -/

/-- The tokens and the counters of fields and chunks agree. -/
structure Books (c : CommitRingSettings) (s : CommitRing) : Prop where
  marked : s.markedToken = s.counters.committedFrameFieldCounter * c.trackedChunks +
    min s.counters.chunkInFieldCounter c.trackedChunks
  handled : s.completedFrameFieldCounter * c.trackedChunks + s.completionInFieldCounter =
    s.handledToken

/-- What the loop over completions may change. -/
structure Fetched (c : CommitRingSettings) (s s' : CommitRing) : Prop where
  ring : Ring c s'
  books : Books c s'
  completion_le : s'.completionInFieldCounter ≤ c.trackedChunks
  counters : s'.counters = s.counters
  completed : s'.completedFrameFieldCounter = s.completedFrameFieldCounter

/-- No more than the tracked chunks of a field are counted. -/
theorem fetched_fetchCompletions (fetchBudget : Nat) :
    ∀ (polls : Nat → CompletionPoll) {s : CommitRing}, Ring c s → Books c s →
      (s.completionInFieldCounter < c.trackedChunks ∨ s.completionInFieldCounter = 0) →
      Fetched c s (s.fetchCompletions c fetchBudget polls).2 := by
  -- by what is left of the budget, from any state that keeps the books
  induction fetchBudget with
  | zero =>
    intro _ s hRing hBooks hRoom
    exact ⟨hRing, hBooks, by show s.completionInFieldCounter ≤ _; omega, rfl, rfl⟩
  | succ fetchBudget ih =>
    intro polls s hRing hBooks hRoom
    have hPolled := hRing.tryProcessOneCompletion (polls 0)
    unfold fetchCompletions
    rcases tryProcessOneCompletion_cases (c := c) (polls 0) s with
      ⟨hStatus, hFlight, hNext⟩ | ⟨hStatus, inFlight, -, hNext⟩
    · rw [hNext] at hPolled
      have hPair : s.tryProcessOneCompletion c (polls 0) = (.success, _) := Prod.ext hStatus hNext
      -- there are tracked chunks, and this field has room for a completion
      have hPlace : s.completionInFieldCounter < c.trackedChunks := by
        have hMarked := hRing.inFlight _ hFlight
        have hCount := hBooks.marked
        rcases hRoom with hRoom | hNone
        · exact hRoom
        · rcases Nat.eq_zero_or_pos c.trackedChunks with hZero | hPos
          · rw [hZero, Nat.mul_zero, Nat.min_zero] at hCount
            omega
          · omega
      -- the completion is counted for the field
      have hCounted : Fetched c s (s.handleCompletion c (polls 0).txHwTimestamp).countCompletion :=
        ⟨⟨hPolled.le, hPolled.inFlight, hPolled.holds, hPolled.committed, hPolled.stored,
          hPolled.handled⟩, ⟨hBooks.marked, congrArg (· + 1) hBooks.handled⟩, hPlace, rfl, rfl⟩
      rw [hPair]
      dsimp only
      split_ifs with hMore
      · have hRest := ih (fun i => polls (i + 1)) hCounted.ring hCounted.books (.inl hMore)
        exact ⟨hRest.ring, hRest.books, hRest.completion_le, hRest.counters, hRest.completed⟩
      · exact hCounted
    · -- nothing was handled
      rw [hNext] at hPolled
      have hSame : Fetched c s { s with inFlight } :=
        ⟨hPolled, ⟨hBooks.marked, hBooks.handled⟩,
          by show s.completionInFieldCounter ≤ _; omega, rfl, rfl⟩
      generalize s.tryProcessOneCompletion c (polls 0) = polled at hStatus hNext
      obtain ⟨rc, s'⟩ := polled
      obtain rfl : s' = { s with inFlight } := hNext
      cases rc <;> first | exact absurd rfl hStatus | exact hSame

/-- What a loop over chunks may change: it commits chunks of the field. -/
structure Sent (c : CommitRingSettings) (s s' : CommitRing) : Prop where
  ring : Ring c s'
  books : Books c s'
  field : s'.counters.committedFrameFieldCounter = s.counters.committedFrameFieldCounter
  completed : s'.completedFrameFieldCounter = s.completedFrameFieldCounter
  completion : s'.completionInFieldCounter = s.completionInFieldCounter
  le : s.counters.chunkInFieldCounter ≤ s'.counters.chunkInFieldCounter
  chunk_le : s'.counters.chunkInFieldCounter ≤ c.chunksInFrameField

theorem Sent.trans {s s' s'' : CommitRing} (h : Sent c s s') (h' : Sent c s' s'') : Sent c s s'' :=
  ⟨h'.ring, h'.books, h'.field.trans h.field, h'.completed.trans h.completed,
    h'.completion.trans h.completion, Nat.le_trans h.le h'.le, h'.chunk_le⟩

/-- The slots cover the fields that may be out. -/
theorem room_of_lag (hFields : c.framesFieldsInMemBlock * c.chunksInFrameField ≤ c.capacity)
    (hChunks : 1 ≤ c.chunksInFrameField) (hBooks : Books c s)
    (hLag : s.counters.committedFrameFieldCounter <
      s.completedFrameFieldCounter + c.framesFieldsInMemBlock)
    (hSome : 1 ≤ c.framesFieldsInMemBlock) :
    s.markedToken < s.handledToken + c.capacity := by
  have hTracked : c.trackedChunks + 1 = c.chunksInFrameField := Nat.sub_add_cancel hChunks
  have hMarked := hBooks.marked
  have hHandled := hBooks.handled
  -- one field less is out than there may be, and a field has fewer tokens than chunks
  have hFew := Nat.mul_le_mul_right c.trackedChunks hLag
  have hAll : c.framesFieldsInMemBlock * c.chunksInFrameField =
      c.framesFieldsInMemBlock * c.trackedChunks + c.framesFieldsInMemBlock := by
    rw [← hTracked, Nat.mul_succ]
  rw [Nat.succ_mul, Nat.add_mul] at hFew
  have hPart := Nat.min_le_right s.counters.chunkInFieldCounter c.trackedChunks
  omega

/-- One chunk is stored and committed. -/
theorem sent_chunkCommitted (hRing : Ring c s) (hBooks : Books c s)
    (hRoom : s.markedToken < s.handledToken + c.capacity)
    (hChunk : s.counters.chunkInFieldCounter < c.chunksInFrameField)
    (hChunks : 1 ≤ c.chunksInFrameField) :
    Sent c s ((s.storeCommitTs c).chunkCommitted c) := by
  have hTracked : c.trackedChunks + 1 = c.chunksInFrameField := Nat.sub_add_cancel hChunks
  have hStored : (s.storeCommitTs c).commitTs (s.markedToken % c.capacity) =
      c.chunkScheduledTimeNs s.counters := Function.update_self _ _ _
  have hRing' := (hRing.storeCommitTs hRoom).chunkCommitted hStored hBooks.marked
  refine ⟨hRing', ⟨?_, hBooks.handled⟩, rfl, rfl, rfl, Nat.le_succ _, hChunk⟩
  -- the tokens of the field follow its chunks up to the last but one
  have hMarked := hBooks.marked
  show (if decide (s.counters.chunkInFieldCounter < c.trackedChunks) = true then
    s.markedToken + 1 else s.markedToken) =
      s.counters.committedFrameFieldCounter * c.trackedChunks +
        min (s.counters.chunkInFieldCounter + 1) c.trackedChunks
  simp only [decide_eq_true_eq]
  split_ifs with hThis
  · omega
  · omega

/-- The chunks of a loop, of which a successful one commits at least one. -/
theorem sent_commitChunks
    (hCapacity : c.framesFieldsInMemBlock * c.chunksInFrameField ≤ c.capacity)
    (hChunks : 1 ≤ c.chunksInFrameField) (hSome : 1 ≤ c.framesFieldsInMemBlock)
    (remaining : Nat) : ∀ (chunks : Nat → ChunkCalls) {s : CommitRing}, Ring c s → Books c s →
      s.counters.chunkInFieldCounter < c.chunksInFrameField →
      s.counters.committedFrameFieldCounter <
        s.completedFrameFieldCounter + c.framesFieldsInMemBlock →
      Sent c s (s.commitChunks c remaining chunks).2 ∧
        ((s.commitChunks c remaining chunks).1 = .success → 0 < remaining →
          s.counters.chunkInFieldCounter <
            (s.commitChunks c remaining chunks).2.counters.chunkInFieldCounter) := by
  -- by the chunks that are left, from any state with room for one more
  induction remaining with
  | zero =>
    intro _ s hRing hBooks hChunk _
    exact ⟨⟨hRing, hBooks, rfl, rfl, rfl, Nat.le_refl _, Nat.le_of_lt hChunk⟩, fun _ => nofun⟩
  | succ remaining ih =>
    intro chunks s hRing hBooks hChunk hLag
    have hRoom := room_of_lag hCapacity hChunks hBooks hLag hSome
    have hStored : Sent c s (s.storeCommitTs c) :=
      ⟨hRing.storeCommitTs hRoom, ⟨hBooks.marked, hBooks.handled⟩, rfl, rfl, rfl, Nat.le_refl _,
        Nat.le_of_lt hChunk⟩
    have hOne := sent_chunkCommitted hRing hBooks hRoom hChunk hChunks
    have hMore : s.counters.chunkInFieldCounter <
        ((s.storeCommitTs c).chunkCommitted c).counters.chunkInFieldCounter := Nat.lt_succ_self _
    unfold commitChunks
    dsimp only
    by_cases hGet : (chunks 0).getNextStatus = .success
    · rw [if_neg (not_not.mpr hGet)]
      by_cases hMark : (s.storeCommitTs c).counters.chunkInFieldCounter < c.trackedChunks ∧
          (chunks 0).markStatus ≠ .success
      -- the time was stored, but the chunk is not committed
      · rw [if_pos hMark]
        exact ⟨hStored, fun hSuccess => absurd hSuccess hMark.2⟩
      · rw [if_neg hMark]
        by_cases hCommit : (chunks 0).commitStatus = .success
        · rw [if_neg (not_not.mpr hCommit)]
          split_ifs with hBlocked hRest
          · exact ⟨hOne, fun _ _ => hMore⟩
          · -- the field goes on
            obtain ⟨hLater, -⟩ := ih (fun i => chunks (i + 1)) hOne.ring hOne.books hRest hLag
            exact ⟨hOne.trans hLater, fun _ _ => Nat.lt_of_lt_of_le hMore hLater.le⟩
          · exact ⟨hOne, fun _ _ => hMore⟩
        · rw [if_pos hCommit]
          exact ⟨hStored, fun hSuccess => absurd hSuccess hCommit⟩
    · rw [if_pos hGet]
      exact ⟨⟨hRing, hBooks, rfl, rfl, rfl, Nat.le_refl _, Nat.le_of_lt hChunk⟩,
        fun hSuccess => absurd hSuccess hGet⟩

/-! ## Passes -/

/-- What holds at the top of the loop. With a field half committed, there is place for
it: the fields that are out were one less when it was begun. -/
structure LoopTop (c : CommitRingSettings) (s : CommitRing) : Prop where
  ring : Ring c s
  books : Books c s
  chunk_lt : s.counters.chunkInFieldCounter < c.chunksInFrameField
  completion_lt : s.completionInFieldCounter < c.trackedChunks ∨ s.completionInFieldCounter = 0
  le : s.completedFrameFieldCounter ≤ s.counters.committedFrameFieldCounter
  lag_le : s.counters.committedFrameFieldCounter ≤
    s.completedFrameFieldCounter + c.framesFieldsInMemBlock
  lag_lt : 0 < s.counters.chunkInFieldCounter → s.counters.committedFrameFieldCounter <
    s.completedFrameFieldCounter + c.framesFieldsInMemBlock

/-- The difference of the counters does not wrap, so the test is what it looks like. -/
theorem LoopTop.isPlaceToCommit_iff (h : LoopTop c s)
    (hFields : c.framesFieldsInMemBlock < 2 ^ 64) : s.isPlaceToCommit c ↔
      s.counters.committedFrameFieldCounter <
        s.completedFrameFieldCounter + c.framesFieldsInMemBlock := by
  have hLe := h.le
  have hLag := h.lag_le
  unfold isPlaceToCommit
  -- the counters are in order and less than a block apart
  rw [Int.emod_eq_of_lt (by omega) (by omega)]
  omega

/-- Completions are fetched, or it is not the time. The counter of completed fields goes
up by one at most, and it passes that of committed fields only where a field lacks
nothing but its last chunk. -/
structure Polled (c : CommitRingSettings) (s s' : CommitRing) : Prop where
  ring : Ring c s'
  books : Books c s'
  counters : s'.counters = s.counters
  completion_lt : s'.completionInFieldCounter < c.trackedChunks ∨ s'.completionInFieldCounter = 0
  ge : s.completedFrameFieldCounter ≤ s'.completedFrameFieldCounter
  le : s'.completedFrameFieldCounter ≤ s.completedFrameFieldCounter + 1

theorem Fetched.completeField {s s' : CommitRing} (h : Fetched c s s') :
    Polled c s (s'.completeField c) := by
  obtain ⟨hRing, hBooks, hLe, hCounters, hCompleted⟩ := h
  unfold CommitRing.completeField
  split_ifs with hLast
  · refine ⟨⟨hRing.le, hRing.inFlight, hRing.holds, hRing.committed, hRing.stored, hRing.handled⟩,
      ⟨hBooks.marked, ?_⟩, hCounters, .inr rfl, ?_, ?_⟩
    -- the tracked chunks of a field become a completed field
    · have hHandled := hBooks.handled
      show (s'.completedFrameFieldCounter + 1) * c.trackedChunks + 0 = s'.handledToken
      rw [Nat.succ_mul]
      omega
    · show _ ≤ s'.completedFrameFieldCounter + 1
      omega
    · show s'.completedFrameFieldCounter + 1 ≤ _
      omega
  · exact ⟨hRing, hBooks, hCounters, .inl (by omega), by omega, by omega⟩

/-- Completed fields are ahead by one at most, and then only the chunk that is not
tracked is missing. -/
theorem Polled.crossing {s s' : CommitRing} (h : Polled c s s') (hTop : LoopTop c s) :
    s'.completedFrameFieldCounter ≤ s.counters.committedFrameFieldCounter ∨
      s'.completedFrameFieldCounter = s.counters.committedFrameFieldCounter + 1 ∧
        s.counters.chunkInFieldCounter = c.trackedChunks := by
  have hLe := hTop.le
  have hStep := h.le
  rcases Nat.lt_or_ge s.counters.committedFrameFieldCounter s'.completedFrameFieldCounter with
    hAhead | hBehind
  · right
    have hNext : s'.completedFrameFieldCounter = s.counters.committedFrameFieldCounter + 1 := by
      omega
    -- no more tokens are handled than marked
    have hOrder := h.ring.le
    rw [← h.books.handled, h.books.marked, h.counters, hNext, Nat.succ_mul] at hOrder
    have hLast := hTop.chunk_lt
    refine ⟨hNext, ?_⟩
    have hTracked : c.chunksInFrameField - 1 = c.trackedChunks := rfl
    omega
  · exact .inl hBehind

theorem LoopTop.fetch (h : LoopTop c s) (tsNow : Nat) (polls : Nat → CompletionPoll) :
    Polled c s (s.fetch c tsNow polls).2 := by
  unfold CommitRing.fetch
  split_ifs
  · exact (fetched_fetchCompletions 10 polls h.ring h.books h.completion_lt).completeField
  · exact ⟨h.ring, h.books, rfl, h.completion_lt, Nat.le_refl _, Nat.le_succ _⟩

/-- Without place, the fields that are out were all there may be. -/
theorem LoopTop.next_of_fetch {s s' : CommitRing} (h : LoopTop c s) (hPolled : Polled c s s')
    (hSome : 1 ≤ c.framesFieldsInMemBlock)
    (hFull : ¬ s.counters.committedFrameFieldCounter <
      s.completedFrameFieldCounter + c.framesFieldsInMemBlock) : LoopTop c s' := by
  have hStep := hPolled.le
  have hGe := hPolled.ge
  have hLag := h.lag_le
  -- a field that was begun would have had place
  have hIdle : ¬ 0 < s.counters.chunkInFieldCounter := fun hBegun => hFull (h.lag_lt hBegun)
  refine ⟨hPolled.ring, hPolled.books, ?_, hPolled.completion_lt, ?_, ?_, ?_⟩
  · rw [hPolled.counters]
    exact h.chunk_lt
  · rw [hPolled.counters]
    omega
  · rw [hPolled.counters]
    omega
  · rw [hPolled.counters]
    exact fun hBegun => absurd hBegun hIdle

/-- A field whose chunks are all committed is counted. -/
theorem Sent.commitField {s s' : CommitRing} (h : Sent c s s') :
    Ring c (s'.commitField c) ∧ (s'.counters.chunkInFieldCounter = c.chunksInFrameField →
      Books c (s'.commitField c)) := by
  have hRing := h.ring
  unfold CommitRing.commitField
  split_ifs with hLast
  · refine ⟨⟨hRing.le, hRing.inFlight, hRing.holds, hRing.committed, hRing.stored, hRing.handled⟩,
      fun _ => ⟨?_, h.books.handled⟩⟩
    have hMarked := h.books.marked
    have hTracked : c.chunksInFrameField - 1 = c.trackedChunks := rfl
    rw [hLast, Nat.min_eq_right (by omega)] at hMarked
    show s'.markedToken = (s'.counters.committedFrameFieldCounter + 1) * c.trackedChunks +
      min 0 c.trackedChunks
    rw [hMarked, Nat.succ_mul, Nat.zero_min, Nat.add_zero]
  · exact ⟨hRing, fun hAll => absurd hAll hLast⟩

/-- With place, at least one chunk is committed: a field that is ahead is finished. -/
theorem LoopTop.next_of_send {s s' s'' : CommitRing} (h : LoopTop c s) (hPolled : Polled c s s')
    (hSent : Sent c s' s'')
    (hMore : s'.counters.chunkInFieldCounter < s''.counters.chunkInFieldCounter)
    (hPlace : s.counters.committedFrameFieldCounter <
      s.completedFrameFieldCounter + c.framesFieldsInMemBlock) :
    LoopTop c (s''.commitField c) := by
  -- the completed fields may be ahead by one before the chunk is committed
  have hCrossing := hPolled.crossing h
  have hTracked : c.chunksInFrameField - 1 = c.trackedChunks := rfl
  have hField := hSent.field
  have hCompleted := hSent.completed
  have hGe := hPolled.ge
  have hLe := hSent.chunk_le
  have hCompletion := hPolled.completion_lt
  rw [← hSent.completion] at hCompletion
  rw [hPolled.counters] at hMore hField
  obtain ⟨hRing, hBooks⟩ := hSent.commitField
  have hSize := h.chunk_lt
  unfold CommitRing.commitField at hRing hBooks ⊢
  split_ifs at hRing hBooks ⊢ with hLast
  · -- the field is committed
    refine ⟨hRing, hBooks hLast, ?_, hCompletion, ?_, ?_, nofun⟩
    · show 0 < c.chunksInFrameField
      omega
    · show s''.completedFrameFieldCounter ≤ s''.counters.committedFrameFieldCounter + 1
      omega
    · show s''.counters.committedFrameFieldCounter + 1 ≤ s''.completedFrameFieldCounter + _
      omega
  · -- a chunk was blocked before the last one
    exact ⟨hRing, hSent.books, by omega, hCompletion, by omega, by omega, fun _ => by omega⟩

/-- **Passes.** What a pass that goes on and a pass that leaves the loop preserve. -/
theorem LoopTop.iterate (hCapacity : c.framesFieldsInMemBlock * c.chunksInFrameField ≤ c.capacity)
    (hChunks : 1 ≤ c.chunksInFrameField) (hSome : 1 ≤ c.framesFieldsInMemBlock)
    (hFields : c.framesFieldsInMemBlock < 2 ^ 64) (h : LoopTop c s) (input : PassInput) :
    (∀ s', s.iterate c input = .next s' → LoopTop c s') ∧
      ∀ s', s.iterate c input = .leave s' → Ring c s' := by
  have hPolled := h.fetch input.tsNow input.polls
  have hChunk : (s.fetch c input.tsNow input.polls).2.counters.chunkInFieldCounter <
      c.chunksInFrameField := by
    rw [hPolled.counters]
    exact h.chunk_lt
  unfold CommitRing.iterate
  generalize s.fetch c input.tsNow input.polls = fetched at hPolled hChunk
  obtain ⟨rc, s'⟩ := fetched
  dsimp only at hPolled hChunk ⊢
  -- the pass stops at the first status that is no success
  by_cases hFetch : rc = .success
  · rw [if_neg (not_not.mpr hFetch)]
    by_cases hPlace : s.counters.committedFrameFieldCounter <
        s.completedFrameFieldCounter + c.framesFieldsInMemBlock
    · rw [if_pos (decide_eq_true ((h.isPlaceToCommit_iff hFields).mpr hPlace))]
      -- completions that were fetched only make more place
      have hLag : s'.counters.committedFrameFieldCounter <
          s'.completedFrameFieldCounter + c.framesFieldsInMemBlock := by
        rw [hPolled.counters]
        have hGe := hPolled.ge
        omega
      obtain ⟨hSent, hMore⟩ := sent_commitChunks hCapacity hChunks hSome c.chunksInFrameField
        input.chunks hPolled.ring hPolled.books hChunk hLag
      unfold send
      dsimp only
      by_cases hStatus : (s'.commitChunks c c.chunksInFrameField input.chunks).1 = .success
      · rw [if_neg (not_not.mpr hStatus)]
        have hNext := h.next_of_send hPolled hSent (hMore hStatus hChunks) hPlace
        split_ifs
        · exact ⟨nofun, fun s'' hLeave => by cases hLeave; exact hNext.ring⟩
        · exact ⟨fun s'' hGo => by cases hGo; exact hNext, nofun⟩
      · rw [if_pos hStatus]
        exact ⟨nofun, fun s'' hLeave => by cases hLeave; exact hSent.commitField.1⟩
    · rw [if_neg fun hTest => hPlace ((h.isPlaceToCommit_iff hFields).mp (of_decide_eq_true hTest))]
      exact ⟨fun s'' hGo => by cases hGo; exact h.next_of_fetch hPolled hSome hPlace, nofun⟩
  · rw [if_pos hFetch]
    exact ⟨nofun, fun s'' hLeave => by cases hLeave; exact hPolled.ring⟩

/-! ## Runs -/

theorem ring_start : Ring c {} :=
  ⟨Nat.le_refl _, nofun, fun _ _ h => absurd h (Nat.not_lt_zero _), fun _ h =>
    absurd h (Nat.not_lt_zero _), nofun, fun _ _ _ _ hSuffix =>
      absurd (List.suffix_nil.mp hSuffix) (List.cons_ne_nil _ _)⟩

theorem loopTop_of_atTop
    (hCapacity : c.framesFieldsInMemBlock * c.chunksInFrameField ≤ c.capacity)
    (hChunks : 1 ≤ c.chunksInFrameField) (hSome : 1 ≤ c.framesFieldsInMemBlock)
    (hFields : c.framesFieldsInMemBlock < 2 ^ 64) (hTop : AtTop c s) : LoopTop c s := by
  -- the induction is on the passes
  induction hTop with
  | start =>
    refine ⟨ring_start, ⟨?_, ?_⟩, hChunks, .inr rfl, Nat.le_refl _, Nat.zero_le _, nofun⟩
    · show 0 = 0 * c.trackedChunks + min 0 c.trackedChunks
      rw [Nat.zero_mul, Nat.zero_min]
    · exact Nat.zero_mul _
  | next input _ hPass ih => exact (ih.iterate hCapacity hChunks hSome hFields input).1 _ hPass

theorem ring_of_draining
    (hCapacity : c.framesFieldsInMemBlock * c.chunksInFrameField ≤ c.capacity)
    (hChunks : 1 ≤ c.chunksInFrameField) (hSome : 1 ≤ c.framesFieldsInMemBlock)
    (hFields : c.framesFieldsInMemBlock < 2 ^ 64) (hDraining : Draining c s) : Ring c s := by
  induction hDraining with
  | signal hTop => exact (loopTop_of_atTop hCapacity hChunks hSome hFields hTop).ring
  | leave input hTop hPass =>
    exact ((loopTop_of_atTop hCapacity hChunks hSome hFields hTop).iterate hCapacity hChunks hSome
      hFields input).2 _ hPass
  | poll poll _ ih => exact ih.tryProcessOneCompletion poll

end CommitRing

/-- **Commit times.** At the top of the loop the fields that are out are between none and
all of the memory block, so their number does not wrap, and no completion is counted
whose chunk was not committed; and a completion that is handled, in the loop or behind
it, comes after the commit of its chunk and finds the time that was stored for it, which
no other time was stored for. -/
theorem commitRing_safe (c : CommitRingSettings)
    (hCapacity : c.framesFieldsInMemBlock * c.chunksInFrameField ≤ c.capacity)
    (hChunks : 1 ≤ c.chunksInFrameField) (hSome : 1 ≤ c.framesFieldsInMemBlock)
    (hFields : c.framesFieldsInMemBlock < 2 ^ 64) :
    (∀ s, CommitRing.AtTop c s →
      s.completedFrameFieldCounter ≤ s.counters.committedFrameFieldCounter ∧
      s.counters.committedFrameFieldCounter - s.completedFrameFieldCounter ≤
        c.framesFieldsInMemBlock ∧
      s.completedFrameFieldCounter * c.trackedChunks + s.completionInFieldCounter =
        s.handledToken ∧
      ∀ t < s.handledToken, ∃ v ts, .committed (some t) v ts ∈ s.events) ∧
    ∀ s, CommitRing.AtTop c s ∨ CommitRing.Draining c s → ∀ t v tx before,
      .handled t v tx :: before <:+ s.events →
        (∃ ts, .committed (some t) v ts ∈ before) ∧
          ∀ v' ts', .committed (some t) v' ts' ∈ s.events → v' = v := by
  constructor
  · intro s hTop
    have h := CommitRing.loopTop_of_atTop hCapacity hChunks hSome hFields hTop
    refine ⟨h.le, by have := h.lag_le; omega, h.books.handled, fun t ht => ?_⟩
    obtain ⟨ts, hCommitted⟩ := h.ring.committed t (Nat.lt_of_lt_of_le ht h.ring.le)
    exact ⟨_, ts, hCommitted⟩
  · intro s hRun t v tx before hSuffix
    have hRing : CommitRing.Ring c s := by
      rcases hRun with hTop | hDraining
      · exact (CommitRing.loopTop_of_atTop hCapacity hChunks hSome hFields hTop).ring
      · exact CommitRing.ring_of_draining hCapacity hChunks hSome hFields hDraining
    obtain ⟨hTime, hBefore⟩ := hRing.handled t v tx before hSuffix
    exact ⟨hBefore, fun v' ts' hStored => (hRing.stored t v' ts' hStored).trans hTime.symm⟩

/-- Two fields of three chunks, with six slots. -/
theorem commitRing_safe_twoFields :
    let c : CommitRingSettings :=
      { stream :=
          { mediaSettings :=
              { frameRate := ⟨60, 1⟩, resolution := ⟨1920, 1080⟩, chunksInFrameField := 3,
                framesFieldsInMemBlock := 2 }
            packetPayloadSize := 1200 }
        numOfPacketsInChunk := 4, startTimeNs := 0, measureIntervalSec := 1, capacity := 6 }
    ∀ s, CommitRing.AtTop c s →
      s.completedFrameFieldCounter ≤ s.counters.committedFrameFieldCounter ∧
        s.counters.committedFrameFieldCounter - s.completedFrameFieldCounter ≤ 2 := by
  intro c s hTop
  obtain ⟨hLe, hLag, -⟩ := (commitRing_safe c (by decide) (by decide) (by decide) (by decide)).1 s
    hTop
  exact ⟨hLe, hLag⟩

end RivermaxDevKit
