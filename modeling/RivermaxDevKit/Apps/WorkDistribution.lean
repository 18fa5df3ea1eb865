import RivermaxDevKit.Lib.RoundRobin

/-!
# Work distribution

How the applications deal streams and flows out to threads, the IO nodes their
flows to streams, and how `find_internal_stream_index` finds a stream again.

* `evenlyPlaced_generic`, `evenlyPlaced_media` — threads and streams get slices of
  even length, and no stream is without a flow.
* `processFlows_eq` — so it is with the streams of the RTP receiver.
* `work_distribution` — all of it, with the inverse.
-/

namespace RivermaxDevKit

open RoundRobin

/-! ## Generic sender -/

variable {α : Type*}

/-- An `AppGenericSendStream`: its flows, and the number of flows before them. -/
structure AppGenericSendStream (α : Type*) where
  flowsOffset : Nat
  flows : List α
  deriving DecidableEq, Repr

namespace GenericSenderIONode

/-- `initialize_send_flows`: the flows dealt to the streams, each a slice. -/
def initializeSendFlows (numOfStreams : Nat) (flows : List α) : List (List α) :=
  slicesAt (shares flows.length numOfStreams) flows 0

/-- `initialize_streams`, which moves the offset on. -/
def initializeStreams : List (List α) → Nat → List (AppGenericSendStream α) × Nat
  | [], flowsOffset => ([], flowsOffset)
  | flowsInStream :: rest, flowsOffset =>
    let streams := initializeStreams rest (flowsOffset + flowsInStream.length)
    (⟨flowsOffset, flowsInStream⟩ :: streams.1, streams.2)

end GenericSenderIONode

namespace GenericSenderApp

/-- The loop of `initialize_sender_threads`, over these threads. -/
def initializeSenderThreads (streamsPerThread flowsPerThread : Nat → Nat) (flows : List α) :
    List Nat → Nat → List (List (AppGenericSendStream α))
  | [], _ => []
  | sender :: senders, flowsOffset =>
    let own := (flows.drop flowsOffset).take (flowsPerThread sender)
    let streams := GenericSenderIONode.initializeStreams
      (GenericSenderIONode.initializeSendFlows (streamsPerThread sender) own) flowsOffset
    streams.1 :: initializeSenderThreads streamsPerThread flowsPerThread flows senders streams.2

/-- `distribute_work_for_threads` and `initialize_sender_threads`. -/
def senders (numOfThreads numOfTotalStreams : Nat) (flows : List α) :
    List (List (AppGenericSendStream α)) :=
  initializeSenderThreads (dealt numOfTotalStreams numOfThreads)
    (dealt flows.length numOfThreads) flows (List.range numOfThreads) 0

end GenericSenderApp

/-! ## Media sender -/

namespace MediaSenderIONode

/-- `initialize_send_flows`. -/
def initializeSendFlows (numOfStreamPacks : Nat) (flows : List α) : List (List α) :=
  slicesAt (shares flows.length numOfStreamPacks) flows 0

end MediaSenderIONode

namespace MediaSenderApp

/-- The loop of `initialize_sender_threads`: the flows of the streams. -/
def initializeSenderThreads (streamsPerThread : Nat → Nat) (flows : List α) :
    List Nat → Nat → List (List (List α))
  | [], _ => []
  | sender :: senders, streamsOffset =>
    let own := (flows.drop streamsOffset).take (streamsPerThread sender)
    MediaSenderIONode.initializeSendFlows (streamsPerThread sender) own ::
      initializeSenderThreads streamsPerThread flows senders
        (streamsOffset + streamsPerThread sender)

/-- `distribute_work_for_threads` and `initialize_sender_threads`. -/
def senders (numOfThreads numOfTotalStreams : Nat) (flows : List α) : List (List (List α)) :=
  let numOfThreads := min numOfThreads numOfTotalStreams
  initializeSenderThreads (dealt numOfTotalStreams numOfThreads) flows
    (List.range numOfThreads) 0

end MediaSenderApp

/-! ## RTP receiver -/

namespace RTPReceiverIONode

/-- The loops of `process_flows` over these streams: the flows that each attaches
or detaches, as long as this succeeds. -/
def processStreams (process : Nat → α → Bool) (flowsPerStream remainderFlows : Nat) :
    List Nat → List α → Option (List (List α))
  | [], _ => some []
  | stream :: streams, flows =>
    let streamFlowCount := flowsPerStream + if stream < remainderFlows then 1 else 0
    if (flows.take streamFlowCount).all (process stream) then
      (processStreams process flowsPerStream remainderFlows streams
        (flows.drop streamFlowCount)).map (flows.take streamFlowCount :: ·)
    else none

/-- `process_flows`, on a node of so many streams. -/
def processFlows (process : Nat → α → Bool) (flows : List α) (numOfStreams : Nat) :
    Option (List (List α)) :=
  if flows = [] ∨ numOfStreams = 0 then none
  else if flows.length < numOfStreams then none
  else processStreams process (flows.length / numOfStreams) (flows.length % numOfStreams)
    (List.range numOfStreams) flows

end RTPReceiverIONode

namespace RTPReceiverApp

/-- `distribute_work_for_threads` and `initialize_receive_io_nodes`: the flows of the
nodes, which make a stream of each. -/
def receivers (numOfThreads numOfTotalStreams : Nat) (flows : List α) : List (List α) :=
  let numOfThreads := min numOfThreads numOfTotalStreams
  slicesAt (shares numOfTotalStreams numOfThreads) flows 0

end RTPReceiverApp

/-! ## Finding a stream -/

/-- `find_internal_stream_index`: the thread, and the stream in it. -/
def findInternalStreamIndex (numOfThreads numOfTotalStreams : Nat) (externalStreamIndex : Nat) :
    Option (Nat × Nat) :=
  if externalStreamIndex ≥ numOfTotalStreams then none
  else locate (shares numOfTotalStreams numOfThreads) 0 0 externalStreamIndex

/-! ## Even slices -/

/-- Flows placed with the streams of threads: each thread has its share of the
streams, slices are in order and of even length, and no stream is without a flow. -/
structure EvenlyPlaced (numOfThreads numOfStreams : Nat) (senders : List (List (List α)))
    (flows : List α) : Prop where
  streams : senders.map List.length = shares numOfStreams numOfThreads
  threads : Balanced (senders.map List.flatten) flows
  inThread : ∀ sender ∈ senders, Balanced sender sender.flatten
  served : ∀ sender ∈ senders, ∀ stream ∈ sender, stream ≠ []

section Placed

variable {numOfThreads numOfStreams : Nat} {flows : List α}

/-- Threads that cut their flows into their share of streams. -/
theorem evenlyPlaced_of_cut {senders : List (List (List α))} (hThreads : 0 < numOfThreads)
    (hFlows : numOfStreams ≤ flows.length) (hStreams : numOfThreads ≤ numOfStreams)
    (hLength : senders.map List.length = shares numOfStreams numOfThreads)
    (hFlatten : senders.map List.flatten = cut flows numOfThreads)
    (hCut : ∀ sender ∈ senders, ∃ t < numOfThreads, ∃ own : List α,
      own.length = dealt flows.length numOfThreads t ∧
        sender = cut own (dealt numOfStreams numOfThreads t)) :
    EvenlyPlaced numOfThreads numOfStreams senders flows := by
  refine ⟨hLength, hFlatten ▸ balanced_cut flows hThreads, fun sender hSender => ?_,
    fun sender hSender stream hStream => ?_⟩
  · obtain ⟨t, ht, own, -, rfl⟩ := hCut sender hSender
    have hOwn := balanced_cut own (dealt_pos ht hStreams)
    rw [hOwn.flatten]
    exact hOwn
  -- a thread has no fewer flows than streams
  · obtain ⟨t, ht, own, hOwn, rfl⟩ := hCut sender hSender
    refine ne_nil_of_mem_cut ?_ hStream
    rw [hOwn]
    exact dealt_mono hFlows numOfThreads t

theorem initializeStreams_flows (slices : List (List α)) (flowsOffset : Nat) :
    (GenericSenderIONode.initializeStreams slices flowsOffset).1.map AppGenericSendStream.flows =
        slices ∧
      (GenericSenderIONode.initializeStreams slices flowsOffset).2 =
        flowsOffset + slices.flatten.length := by
  induction slices generalizing flowsOffset with
  | nil => exact ⟨rfl, rfl⟩
  | cons slice slices ih =>
    obtain ⟨hFlows, hOffset⟩ := ih (flowsOffset + slice.length)
    refine ⟨congrArg (slice :: ·) hFlows, hOffset.trans ?_⟩
    rw [List.flatten_cons, List.length_append, Nat.add_assoc]

/-- The flows of a thread: its streams are cut out of them, and move the offset past
them. -/
theorem initializeStreams_thread {numOfThreadStreams numOfThreadFlows flowsOffset : Nat}
    (hStreams : 0 < numOfThreadStreams) (hFits : flowsOffset + numOfThreadFlows ≤ flows.length)
    {own : List α} (hOwn : (flows.drop flowsOffset).take numOfThreadFlows = own) :
    own.length = numOfThreadFlows ∧
      (GenericSenderIONode.initializeStreams (cut own numOfThreadStreams) flowsOffset).1.map
        AppGenericSendStream.flows = cut own numOfThreadStreams ∧
      (GenericSenderIONode.initializeStreams (cut own numOfThreadStreams) flowsOffset).2 =
        flowsOffset + numOfThreadFlows := by
  have hLength : own.length = numOfThreadFlows := by
    rw [← hOwn, List.length_take, List.length_drop]
    omega
  obtain ⟨hFlows, hNext⟩ := initializeStreams_flows (cut own numOfThreadStreams) flowsOffset
  rw [(balanced_cut own hStreams).flatten, hLength] at hNext
  exact ⟨hLength, hFlows, hNext⟩

/-- What the loop over these threads places, where the flows are enough for them. -/
theorem senders_generic {streamsPerThread flowsPerThread : Nat → Nat} {threads : List Nat}
    (hStreams : ∀ t ∈ threads, 0 < streamsPerThread t) {flowsOffset : Nat}
    (hFits : flowsOffset + (threads.map flowsPerThread).sum ≤ flows.length) :
    let senders := (GenericSenderApp.initializeSenderThreads streamsPerThread flowsPerThread flows
      threads flowsOffset).map (List.map AppGenericSendStream.flows)
    senders.map List.length = threads.map streamsPerThread ∧
      senders.map List.flatten = slicesAt (threads.map flowsPerThread) flows flowsOffset ∧
      ∀ sender ∈ senders, ∃ t ∈ threads, ∃ own : List α,
        own.length = flowsPerThread t ∧ sender = cut own (streamsPerThread t) := by
  -- thread by thread, each from the offset the one before leaves
  induction threads generalizing flowsOffset with
  | nil => exact ⟨rfl, rfl, nofun⟩
  | cons t threads ih =>
    obtain ⟨hHere, hLater⟩ := List.forall_mem_cons.mp hStreams
    rw [List.map_cons, List.sum_cons] at hFits
    unfold GenericSenderApp.initializeSenderThreads
    dsimp only
    generalize hOwn : (flows.drop flowsOffset).take (flowsPerThread t) = own
    have hCut : GenericSenderIONode.initializeSendFlows (streamsPerThread t) own =
        cut own (streamsPerThread t) := rfl
    obtain ⟨hLength, hFlows, hNext⟩ := initializeStreams_thread hHere (by omega) hOwn
    obtain ⟨hLengths, hSlices, hMembers⟩ := @ih hLater (flowsOffset + flowsPerThread t) (by omega)
    rw [hCut, hNext, List.map_cons, hFlows]
    refine ⟨?_, ?_, fun sender hSender => ?_⟩
    · rw [List.map_cons, List.map_cons, hLengths, length_cut]
    · rw [List.map_cons, hSlices, (balanced_cut own hHere).flatten, List.map_cons, slicesAt, hOwn]
    -- this thread, or one that follows
    · rcases List.mem_cons.mp hSender with rfl | hSender
      · exact ⟨t, List.mem_cons_self, own, hLength, rfl⟩
      · obtain ⟨t', ht', hOther⟩ := hMembers sender hSender
        exact ⟨t', List.mem_cons_of_mem t ht', hOther⟩

theorem evenlyPlaced_generic (hThreads : 0 < numOfThreads) (hStreams : numOfThreads ≤ numOfStreams)
    (hFlows : numOfStreams ≤ flows.length) :
    EvenlyPlaced numOfThreads numOfStreams
      ((GenericSenderApp.senders numOfThreads numOfStreams flows).map
        (List.map AppGenericSendStream.flows)) flows := by
  have hFits : 0 + ((List.range numOfThreads).map (dealt flows.length numOfThreads)).sum ≤
      flows.length := by
    rw [Nat.zero_add]
    exact (sum_shares hThreads flows.length).le
  obtain ⟨hLength, hFlatten, hCut⟩ := senders_generic
    (fun t ht => dealt_pos (List.mem_range.mp ht) hStreams) hFits
  refine evenlyPlaced_of_cut hThreads hFlows hStreams hLength hFlatten fun sender hSender => ?_
  obtain ⟨t, ht, hOwn⟩ := hCut sender hSender
  exact ⟨t, List.mem_range.mp ht, hOwn⟩

/-- Where threads have as many flows as streams, the media sender places them as the
generic sender does. -/
theorem senders_media {streamsPerThread : Nat → Nat} {threads : List Nat}
    (hStreams : ∀ t ∈ threads, 0 < streamsPerThread t) {streamsOffset : Nat}
    (hFits : streamsOffset + (threads.map streamsPerThread).sum ≤ flows.length) :
    (GenericSenderApp.initializeSenderThreads streamsPerThread streamsPerThread flows threads
        streamsOffset).map (List.map AppGenericSendStream.flows) =
      MediaSenderApp.initializeSenderThreads streamsPerThread flows threads streamsOffset := by
  induction threads generalizing streamsOffset with
  | nil => rfl
  | cons t threads ih =>
    obtain ⟨hHere, hLater⟩ := List.forall_mem_cons.mp hStreams
    rw [List.map_cons, List.sum_cons] at hFits
    unfold GenericSenderApp.initializeSenderThreads MediaSenderApp.initializeSenderThreads
    dsimp only
    generalize hOwn : (flows.drop streamsOffset).take (streamsPerThread t) = own
    obtain ⟨-, hFlows, hNext⟩ := initializeStreams_thread hHere (by omega) hOwn
    have hRest := @ih hLater (streamsOffset + streamsPerThread t) (by omega)
    rw [← hNext] at hRest
    -- both loops leave the same offset
    exact congrArg₂ List.cons hFlows (hRest.trans (by rw [hNext]))

/-- The media sender makes a flow for each stream. -/
theorem evenlyPlaced_media (hThreads : 0 < numOfThreads) (hStreams : numOfThreads ≤ numOfStreams)
    (hFlows : flows.length = numOfStreams) :
    EvenlyPlaced numOfThreads numOfStreams (MediaSenderApp.senders numOfThreads numOfStreams flows)
      flows := by
  have hFits : 0 + ((List.range numOfThreads).map (dealt numOfStreams numOfThreads)).sum ≤
      flows.length := by
    rw [Nat.zero_add, hFlows]
    exact (sum_shares hThreads numOfStreams).le
  -- the shares of flows and streams are the same
  have hSame := senders_media (fun t ht => dealt_pos (List.mem_range.mp ht) hStreams) hFits
  have hEnough : numOfStreams ≤ flows.length := hFlows.ge
  have hPlaced := evenlyPlaced_generic hThreads hStreams hEnough
  unfold MediaSenderApp.senders
  dsimp only
  rw [Nat.min_eq_left hStreams, ← hSame]
  rwa [GenericSenderApp.senders, hFlows] at hPlaced

end Placed

/-! ## Flows of receive streams -/

section Receivers

variable {flows : List α} {numOfStreams : Nat}

theorem processStreams_eq {process : Nat → α → Bool} (flowsPerStream remainderFlows : Nat)
    (streams : List Nat) (hProcess : ∀ stream, ∀ flow ∈ flows, process stream flow = true) :
    RTPReceiverIONode.processStreams process flowsPerStream remainderFlows streams flows =
      some ((streams.map fun stream =>
        flowsPerStream + if stream < remainderFlows then 1 else 0).splitLengths flows) := by
  induction streams generalizing flows with
  | nil => rfl
  | cons stream streams ih =>
    unfold RTPReceiverIONode.processStreams
    dsimp only
    generalize hCount : flowsPerStream + (if stream < remainderFlows then 1 else 0) = count
    -- no call is refused
    have hOwn : (flows.take count).all (process stream) = true := by
      rw [List.all_eq_true]
      exact fun flow hFlow => hProcess stream flow (List.mem_of_mem_take hFlow)
    rw [if_pos hOwn, ih fun other flow hFlow => hProcess other flow (List.mem_of_mem_drop hFlow),
      List.map_cons, hCount, List.splitLengths_cons]
    rfl

/-- **Flows of the RTP receiver.** Where each call on a stream succeeds, the streams
get the shares of a round robin. -/
theorem processFlows_eq {process : Nat → α → Bool} (hStreams : 0 < numOfStreams)
    (hFlows : numOfStreams ≤ flows.length)
    (hProcess : ∀ stream, ∀ flow ∈ flows, process stream flow = true) :
    RTPReceiverIONode.processFlows process flows numOfStreams = some (cut flows numOfStreams) := by
  have hSome : flows ≠ [] := List.length_pos_iff.mp (by omega)
  unfold RTPReceiverIONode.processFlows
  rw [if_neg (not_or.mpr ⟨hSome, hStreams.ne'⟩), if_neg (Nat.not_lt.mpr hFlows),
    processStreams_eq _ _ _ hProcess, cut, slicesAt_eq, List.drop_zero]
  -- the remainder goes to the first streams, as in a round robin
  congr 2
  refine List.map_congr_left fun t ht => ?_
  exact (dealt_eq (List.mem_range.mp ht) flows.length).symm

/-- A node of the application makes a stream of each flow, and gives it this flow. -/
theorem processFlows_receivers {numOfThreads : Nat} (hStreams : numOfThreads ≤ numOfStreams)
    (hFlows : flows.length = numOfStreams)
    {process : Nat → α → Bool} (hProcess : ∀ stream flow, process stream flow = true) :
    ∀ own ∈ RTPReceiverApp.receivers numOfThreads numOfStreams flows,
      RTPReceiverIONode.processFlows process own own.length = some (cut own own.length) := by
  subst hFlows
  intro own hOwn
  unfold RTPReceiverApp.receivers at hOwn
  dsimp only at hOwn
  rw [Nat.min_eq_left hStreams] at hOwn
  -- a node without streams does not exist
  have hSome : own ≠ [] := ne_nil_of_mem_cut hStreams hOwn
  exact processFlows_eq (List.length_pos_iff.mpr hSome) (Nat.le_refl _)
    fun stream flow _ => hProcess stream flow

end Receivers

/-! ## The inverse -/

/-- The streams of the threads, by their external index: even slices of them all, in
which the search finds each where it stands, and fails for no other. -/
structure StreamsFound (numOfThreads numOfStreams : Nat) (threads : List (List Nat)) : Prop where
  balanced : Balanced threads (List.range numOfStreams)
  counts : threads.map List.length = shares numOfStreams numOfThreads
  found_iff : ∀ k t j, findInternalStreamIndex numOfThreads numOfStreams k = some (t, j) ↔
    ∃ thread, threads[t]? = some thread ∧ thread[j]? = some k
  failed_iff : ∀ k, findInternalStreamIndex numOfThreads numOfStreams k = none ↔ numOfStreams ≤ k

theorem streamsFound_cut {numOfThreads : Nat} (hThreads : 0 < numOfThreads) (numOfStreams : Nat) :
    StreamsFound numOfThreads numOfStreams (cut (List.range numOfStreams) numOfThreads) := by
  have hSum := sum_shares hThreads numOfStreams
  refine ⟨balanced_cut _ hThreads, ?_, fun k t j => ?_, fun k => ?_⟩
  · rw [map_length_cut _ hThreads, List.length_range]
  · rw [cut, List.length_range, ← locate_eq_some_iff_mem hSum]
    unfold findInternalStreamIndex
    split_ifs with hRange
    · -- no slice holds an index that is out of range
      have hNone : locate (shares numOfStreams numOfThreads) 0 0 k = none :=
        (locate_eq_none_iff _ (Nat.zero_le k)).mpr (by omega)
      rw [hNone]
      exact iff_of_false not_false (Option.some_ne_none _).symm
    · rfl
  -- in range, the search does not fail
  · unfold findInternalStreamIndex
    split_ifs with hRange
    · exact iff_of_true rfl hRange
    · rw [locate_eq_none_iff _ (Nat.zero_le k), hSum, Nat.zero_add]

/-- **Work distribution.** With threads, no fewer streams and no fewer flows: both
senders place the flows evenly, the RTP receiver deals them out to its streams, and
a stream is found again by its external index. -/
theorem work_distribution {numOfThreads numOfStreams : Nat} {flows : List α}
    (hThreads : 1 ≤ numOfThreads) (hStreams : numOfThreads ≤ numOfStreams)
    (hFlows : numOfStreams ≤ flows.length) :
    EvenlyPlaced numOfThreads numOfStreams
        ((GenericSenderApp.senders numOfThreads numOfStreams flows).map
          (List.map AppGenericSendStream.flows)) flows ∧
      (∀ mediaFlows : List α, mediaFlows.length = numOfStreams →
        EvenlyPlaced numOfThreads numOfStreams
          (MediaSenderApp.senders numOfThreads numOfStreams mediaFlows) mediaFlows) ∧
      (∀ process : Nat → α → Bool, (∀ stream flow, process stream flow = true) →
        (∃ slices, RTPReceiverIONode.processFlows process flows numOfStreams = some slices ∧
          slices.length = numOfStreams ∧ Balanced slices flows ∧ ∀ slice ∈ slices, slice ≠ []) ∧
        ∀ streamFlows : List α, streamFlows.length = numOfStreams →
          Balanced (RTPReceiverApp.receivers numOfThreads numOfStreams streamFlows) streamFlows ∧
          ∀ own ∈ RTPReceiverApp.receivers numOfThreads numOfStreams streamFlows,
            RTPReceiverIONode.processFlows process own own.length = some (cut own own.length)) ∧
      StreamsFound numOfThreads numOfStreams (cut (List.range numOfStreams) numOfThreads) := by
  refine ⟨evenlyPlaced_generic hThreads hStreams hFlows, fun mediaFlows hMedia => ?_,
    fun process hProcess => ?_, streamsFound_cut hThreads numOfStreams⟩
  · exact evenlyPlaced_media hThreads hStreams hMedia
  -- there is a stream to give flows to
  · have hPositive : 0 < numOfStreams := Nat.lt_of_lt_of_le hThreads hStreams
    constructor
    · refine ⟨cut flows numOfStreams, ?_, length_cut flows numOfStreams,
        balanced_cut flows hPositive, fun slice hSlice => ne_nil_of_mem_cut hFlows hSlice⟩
      exact processFlows_eq hPositive hFlows fun stream flow _ => hProcess stream flow
    · intro streamFlows hLength
      refine ⟨?_, processFlows_receivers hStreams hLength hProcess⟩
      unfold RTPReceiverApp.receivers
      dsimp only
      rw [Nat.min_eq_left hStreams, ← hLength]
      exact balanced_cut streamFlows hThreads

/-- Two threads, three streams and five flows. -/
theorem work_distribution_five :
    EvenlyPlaced 2 3 ((GenericSenderApp.senders 2 3 [10, 11, 12, 13, 14]).map
        (List.map AppGenericSendStream.flows)) [10, 11, 12, 13, 14] ∧
      GenericSenderApp.senders 2 3 [10, 11, 12, 13, 14] =
        [[⟨0, [10, 11]⟩, ⟨2, [12]⟩], [⟨3, [13, 14]⟩]] ∧
      findInternalStreamIndex 2 3 2 = some (1, 0) :=
  ⟨(work_distribution (by decide) (by decide) (by decide)).1, by decide, by decide⟩

end RivermaxDevKit
