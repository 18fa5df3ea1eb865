import Mathlib.Algebra.BigOperators.Group.List.Basic
import Mathlib.Algebra.Order.Ring.Nat
import Mathlib.Tactic.Common
import RivermaxDevKit.Services.Definitions

/-!
# Consumption accounting

How the receiver nodes pass chunks to a data consumer
(`ReceiverIONodeBase::consume_chunk` and its overrides in
`rtp_receiver_io_node.cpp` and `ipo_receiver_io_node.cpp`) and what they note in
the statistics of the stream.

* `consumeChunk_accounted` — one call adds the whole chunk to the packets that
  were not consumed.
* `consumption_accounted_iff` — the totals are those the consumer reported
  exactly if it reported nothing.
-/

namespace RivermaxDevKit

/-! ## State -/

/-- The counters of `RXStatistics` that consumption changes, each a `size_t`. -/
structure ConsumptionStatistics where
  consumedPackets : Nat := 0
  unconsumedPackets : Nat := 0
  deriving DecidableEq, Repr

/-- What `IReceiveDataConsumer::consume_chunk` answers to a chunk. -/
structure ConsumerAnswer (chunkLength : Nat) where
  status : ReturnStatus
  consumedPackets : Nat
  le_length : consumedPackets ≤ chunkLength

/-- A chunk that was handed to the consumer, and the answer. -/
structure ConsumerCall where
  chunkLength : Nat
  answer : ConsumerAnswer chunkLength

/-- The statistics of `AppRTPReceiveStream` and `AppIPOReceiveStream`. `calls` is
a ghost: the calls of the stream's consumer, newest first. -/
structure ConsumingStream where
  statistic : ConsumptionStatistics := {}
  statisticTotals : ConsumptionStatistics := {}
  calls : List ConsumerCall := []

namespace ConsumingStream

/-- Both counters of a record. -/
def addConsumed (consumedPackets unconsumedPackets : Nat) (s : ConsumptionStatistics) :
    ConsumptionStatistics where
  consumedPackets := (s.consumedPackets + consumedPackets) % 2 ^ 64
  unconsumedPackets := (s.unconsumedPackets + unconsumedPackets) % 2 ^ 64

/-- `update_consumed_packets_stats`, the same in both classes. -/
def updateConsumedPacketsStats (consumedPackets unconsumedPackets : Nat)
    (stream : ConsumingStream) : ConsumingStream :=
  { stream with
    statistic := addConsumed consumedPackets unconsumedPackets stream.statistic
    statisticTotals := addConsumed consumedPackets unconsumedPackets stream.statisticTotals }

/-- `reset_statistics`, after every report. -/
def resetStatistics (stream : ConsumingStream) : ConsumingStream := { stream with statistic := {} }

end ConsumingStream

/-! ## Consuming a chunk -/

/-- The base class keeps the number in a local variable, checks it in an
assertion and returns the status alone. -/
def ReceiverIONodeBase.consumeChunk {chunkLength : Nat} (answer : ConsumerAnswer chunkLength) :
    ReturnStatus :=
  answer.status

/-- The text of both overrides. -/
def consumeChunkOverride (call : ConsumerCall) (stream : ConsumingStream) :
    ReturnStatus × ConsumingStream :=
  let consumedPackets := 0
  let rc := ReceiverIONodeBase.consumeChunk call.answer
  let stream := { stream with calls := call :: stream.calls }
  if rc ≠ .success then (rc, stream)
  else
    (.success, stream.updateConsumedPacketsStats consumedPackets
      (call.chunkLength - consumedPackets))

def RTPReceiverIONode.consumeChunk : ConsumerCall → ConsumingStream →
    ReturnStatus × ConsumingStream :=
  consumeChunkOverride

def IPOReceiverIONode.consumeChunk : ConsumerCall → ConsumingStream →
    ReturnStatus × ConsumingStream :=
  consumeChunkOverride

/-- The two classes that override `consume_chunk`. -/
inductive ReceiverNode
  | rtp
  | ipo
  deriving DecidableEq, Repr

namespace ReceiverNode

def consumeChunk : ReceiverNode → ConsumerCall → ConsumingStream → ReturnStatus × ConsumingStream
  | rtp => RTPReceiverIONode.consumeChunk
  | ipo => IPOReceiverIONode.consumeChunk

/-! ## Runs -/

/-- The turn of a stream: what `get_next_chunk` returns, the chunk, and what its
consumer would answer to it. -/
structure Turn where
  getNextChunk : ReturnStatus
  call : ConsumerCall

/-- The inner loop of `operator()`. A poll that fails ends it, a consumer that
fails does not. -/
def pollStreams (node : ReceiverNode) :
    List Turn → List ConsumingStream → ReturnStatus → ReturnStatus × List ConsumingStream
  | turn :: turns, stream :: streams, _ =>
    if turn.getNextChunk ≠ .success then (turn.getNextChunk, stream :: streams)
    else
      let (rc, stream) :=
        if turn.call.chunkLength = 0 then (.success, stream)
        else node.consumeChunk turn.call stream
      let (rc, streams) := pollStreams node turns streams rc
      (rc, stream :: streams)
  | _, streams, rc => (rc, streams)

/-- The inner loop of `wait_first_packet`, which the first chunk that is not
empty ends. -/
def pollFirstPacket (node : ReceiverNode) :
    List Turn → List ConsumingStream → ReturnStatus → ReturnStatus × List ConsumingStream
  | turn :: turns, stream :: streams, _ =>
    if turn.getNextChunk ≠ .success then (turn.getNextChunk, stream :: streams)
    else if turn.call.chunkLength = 0 then
      let (rc, streams) := pollFirstPacket node turns streams .success
      (rc, stream :: streams)
    else
      let (rc, stream) := node.consumeChunk turn.call stream
      (rc, stream :: streams)
  | _, streams, rc => (rc, streams)

/-- A pass of one of the two loops over all streams. -/
inductive Pass
  | waitFirstPacket (turns : List Turn)
  | receive (turns : List Turn) (reportDue : Bool)

def runPass (node : ReceiverNode) (pass : Pass) (rc : ReturnStatus)
    (streams : List ConsumingStream) : ReturnStatus × List ConsumingStream :=
  match pass with
  | .waitFirstPacket turns => node.pollFirstPacket turns streams rc
  | .receive turns reportDue =>
    let (rc, streams) := node.pollStreams turns streams rc
    (rc, if reportDue then streams.map ConsumingStream.resetStatistics else streams)

/-- The passes of a run, until a failure ends it. -/
def run (node : ReceiverNode) : List Pass → ReturnStatus → List ConsumingStream →
    List ConsumingStream
  | [], _, streams => streams
  | pass :: passes, rc, streams =>
    if rc = .failure then streams
    else
      let (rc, streams) := node.runPass pass rc streams
      run node passes rc streams

/-! ## What a run keeps -/

section Keeps

variable {node : ReceiverNode} {P : ConsumingStream → Prop}

theorem pollStreams_keeps (hConsume : ∀ call s, P s → P (node.consumeChunk call s).2)
    (turns : List Turn) : ∀ (streams : List ConsumingStream) (rc : ReturnStatus),
      (∀ s ∈ streams, P s) → ∀ s ∈ (node.pollStreams turns streams rc).2, P s := by
  induction turns with
  | nil => exact fun _ _ h => h
  | cons turn turns ih =>
    intro streams rc h
    cases streams with
    | nil => exact h
    | cons stream streams =>
      obtain ⟨hHead, hTail⟩ := List.forall_mem_cons.mp h
      unfold pollStreams
      split
      -- the poll failed: the streams behind are not visited
      · exact h
      · refine List.forall_mem_cons.mpr ⟨?_, ih streams _ hTail⟩
        -- an empty chunk is not handed on
        split
        · exact hHead
        · exact hConsume _ _ hHead

theorem pollFirstPacket_keeps (hConsume : ∀ call s, P s → P (node.consumeChunk call s).2)
    (turns : List Turn) : ∀ (streams : List ConsumingStream) (rc : ReturnStatus),
      (∀ s ∈ streams, P s) → ∀ s ∈ (node.pollFirstPacket turns streams rc).2, P s := by
  induction turns with
  | nil => exact fun _ _ h => h
  | cons turn turns ih =>
    intro streams rc h
    cases streams with
    | nil => exact h
    | cons stream streams =>
      obtain ⟨hHead, hTail⟩ := List.forall_mem_cons.mp h
      unfold pollFirstPacket
      split
      -- the poll failed
      · exact h
      split
      -- an empty chunk: the next stream is polled
      · exact List.forall_mem_cons.mpr ⟨hHead, ih streams _ hTail⟩
      -- the first chunk ends the loop
      · exact List.forall_mem_cons.mpr ⟨hConsume _ _ hHead, hTail⟩

/-- What the consumption of a chunk and a report keep, a run keeps. -/
theorem run_keeps (hConsume : ∀ call s, P s → P (node.consumeChunk call s).2)
    (hReset : ∀ s, P s → P s.resetStatistics) (passes : List Pass) :
    ∀ (rc : ReturnStatus) (streams : List ConsumingStream),
      (∀ s ∈ streams, P s) → ∀ s ∈ node.run passes rc streams, P s := by
  induction passes with
  | nil => exact fun _ _ h => h
  | cons pass passes ih =>
    intro rc streams h
    unfold run
    split
    · exact h
    refine ih _ _ ?_
    cases pass with
    | waitFirstPacket turns => exact pollFirstPacket_keeps hConsume turns streams rc h
    | receive turns reportDue =>
      have hPolled := pollStreams_keeps hConsume turns streams rc h
      cases reportDue with
      | false => exact hPolled
      | true =>
        intro s hs
        -- every stream is reset behind a report
        obtain ⟨before, hBefore, rfl⟩ := List.mem_map.mp hs
        exact hReset before (hPolled before hBefore)

end Keeps

end ReceiverNode

/-! ## Accounts -/

namespace ConsumingStream

/-- The calls whose chunk was consumed successfully. -/
def consumedCalls (stream : ConsumingStream) : List ConsumerCall :=
  stream.calls.filter fun call => call.answer.status = .success

/-- The packets handed over in chunks that were consumed successfully. -/
def handedPackets (stream : ConsumingStream) : Nat :=
  (stream.consumedCalls.map ConsumerCall.chunkLength).sum

/-- The numbers the consumer reported in some of its calls. -/
def reportedPackets (calls : List ConsumerCall) : Nat :=
  (calls.map fun call => call.answer.consumedPackets).sum

/-- The totals are those of the consumer. -/
structure Accounted (counted : List ConsumerCall) (stream : ConsumingStream) : Prop where
  consumed : stream.statisticTotals.consumedPackets = reportedPackets counted
  handed : stream.statisticTotals.consumedPackets + stream.statisticTotals.unconsumedPackets =
    stream.handedPackets

/-- The totals there are: nothing consumed, and all packets unconsumed. -/
structure AllUnconsumed (stream : ConsumingStream) : Prop where
  consumed : stream.statisticTotals.consumedPackets = 0
  unconsumed : stream.statisticTotals.unconsumedPackets = stream.handedPackets % 2 ^ 64

end ConsumingStream

/-- A call adds its chunk, if that was consumed, to the packets that were not. -/
theorem consumeChunk_accounted (node : ReceiverNode) (call : ConsumerCall)
    {stream : ConsumingStream} (h : stream.AllUnconsumed) :
    (node.consumeChunk call stream).2.AllUnconsumed := by
  -- the overrides have one text
  have hOverride : node.consumeChunk call stream = consumeChunkOverride call stream := by
    cases node <;> rfl
  rw [hOverride]
  unfold consumeChunkOverride ReceiverIONodeBase.consumeChunk
  dsimp only
  by_cases hStatus : call.answer.status = .success
  · rw [if_neg (not_not.mpr hStatus)]
    have hCalls : (call :: stream.calls).filter (fun call => call.answer.status = .success) =
        call :: stream.consumedCalls := List.filter_cons_of_pos (by simpa using hStatus)
    refine ⟨?_, ?_⟩
    · show (stream.statisticTotals.consumedPackets + 0) % 2 ^ 64 = 0
      rw [h.consumed]
      rfl
    · show (stream.statisticTotals.unconsumedPackets + (call.chunkLength - 0)) % 2 ^ 64 =
        (((call :: stream.calls).filter _).map ConsumerCall.chunkLength).sum % 2 ^ 64
      rw [hCalls, h.unconsumed, List.map_cons, List.sum_cons, Nat.sub_zero, Nat.mod_add_mod,
        Nat.add_comm]
      rfl
  · rw [if_pos hStatus]
    have hCalls : (call :: stream.calls).filter (fun call => call.answer.status = .success) =
        stream.consumedCalls := List.filter_cons_of_neg (by simpa using hStatus)
    refine ⟨h.consumed, ?_⟩
    show stream.statisticTotals.unconsumedPackets =
      (((call :: stream.calls).filter _).map ConsumerCall.chunkLength).sum % 2 ^ 64
    rw [hCalls, h.unconsumed]
    rfl

/-- Such totals are those of the consumer if it reported nothing, and the packets
fit the counter. -/
theorem ConsumingStream.AllUnconsumed.accounted_iff {stream : ConsumingStream}
    (h : stream.AllUnconsumed) (counted : List ConsumerCall) :
    stream.Accounted counted ↔
      (∀ call ∈ counted, call.answer.consumedPackets = 0) ∧ stream.handedPackets < 2 ^ 64 := by
  have hReported : reportedPackets counted = 0 ↔
      ∀ call ∈ counted, call.answer.consumedPackets = 0 := by
    unfold reportedPackets
    rw [List.sum_eq_zero_iff_forall_eq_nat, List.forall_mem_map]
  rw [← hReported]
  constructor
  · rintro ⟨hConsumed, hHanded⟩
    rw [h.consumed] at hConsumed hHanded
    rw [h.unconsumed] at hHanded
    refine ⟨hConsumed.symm, ?_⟩
    -- a sum that is its own remainder is below the modulus
    have hLt := Nat.mod_lt stream.handedPackets (Nat.two_pow_pos 64)
    omega
  · rintro ⟨hNothing, hFits⟩
    refine ⟨h.consumed.trans hNothing.symm, ?_⟩
    rw [h.consumed, h.unconsumed, Nat.mod_eq_of_lt hFits, Nat.zero_add]

/-- **Consumption.** For every run of an RTP or IPO receiver node and every
consumer, whether the calls that failed count or not: the totals of a stream are
those its consumer reported exactly if it reported zero in every call, and fewer
than `2 ^ 64` packets were handed over. -/
theorem consumption_accounted_iff (node : ReceiverNode) (numOfStreams : Nat)
    (passes : List ReceiverNode.Pass) :
    ∀ stream ∈ node.run passes .success (List.replicate numOfStreams {}),
      (stream.Accounted stream.calls ↔
          (∀ call ∈ stream.calls, call.answer.consumedPackets = 0) ∧
            stream.handedPackets < 2 ^ 64) ∧
        (stream.Accounted stream.consumedCalls ↔
          (∀ call ∈ stream.consumedCalls, call.answer.consumedPackets = 0) ∧
            stream.handedPackets < 2 ^ 64) := by
  intro stream hStream
  have hRun : stream.AllUnconsumed := by
    refine ReceiverNode.run_keeps (fun call s h => consumeChunk_accounted node call h)
      (fun s h => ⟨h.consumed, h.unconsumed⟩) passes _ _ ?_ stream hStream
    -- a new stream has counted nothing
    intro s hs
    rw [List.eq_of_mem_replicate hs]
    exact ⟨rfl, rfl⟩
  -- both readings of the numbers reported
  exact ⟨hRun.accounted_iff stream.calls, hRun.accounted_iff stream.consumedCalls⟩

/-- A chunk of three packets, of which a consumer takes this many. -/
def threePacketTurn (consumedPackets : Nat) (h : consumedPackets ≤ 3) : ReceiverNode.Turn where
  getNextChunk := .success
  call := { chunkLength := 3, answer := ⟨.success, consumedPackets, h⟩ }

/-- A consumer that takes nothing. -/
theorem consumption_accounted_idle :
    let turn := threePacketTurn 0 (by decide)
    let stream := (consumeChunkOverride turn.call {}).2
    stream ∈ ReceiverNode.ipo.run [.receive [turn] false] .success (List.replicate 1 {}) ∧
      stream.Accounted stream.calls := by
  intro turn stream
  have hStream : stream ∈
      ReceiverNode.ipo.run [.receive [turn] false] .success (List.replicate 1 {}) :=
    List.mem_singleton.mpr rfl
  refine ⟨hStream, (consumption_accounted_iff .ipo 1 _ stream hStream).1.mpr ⟨?_, by decide⟩⟩
  intro call hCall
  rw [List.mem_singleton.mp hCall]
  rfl

/-- The three packets the default consumer reports are not in the totals. -/
theorem consumed_packets_not_counted :
    let turn := threePacketTurn 3 (by decide)
    let stream := (consumeChunkOverride turn.call {}).2
    ReceiverNode.rtp.run [.receive [turn] false] .success [{}] = [stream] ∧
      stream.statisticTotals = ⟨0, 3⟩ ∧ ¬stream.Accounted stream.calls ∧
        ¬stream.Accounted stream.consumedCalls := by
  refine ⟨rfl, by decide, ?_, ?_⟩
  · rintro ⟨hConsumed, -⟩
    exact absurd hConsumed (by decide)
  · rintro ⟨hConsumed, -⟩
    exact absurd hConsumed (by decide)

end RivermaxDevKit
