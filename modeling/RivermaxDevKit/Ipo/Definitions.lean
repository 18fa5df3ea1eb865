import Mathlib.Algebra.Ring.Nat
import Mathlib.Logic.Function.Basic
import RivermaxDevKit.Services.Definitions

/-!
# Inline Packet Ordering — the receive stream

The embedding of `IPOReceiveStream` (`ipo_receive_stream.cpp`): several
redundant receive streams place their packets into one buffer, and
`get_next_chunk` hands them out in sequence-number order.

* `IpoConfig` holds what `create_stream` fixes: the two virtual functions of
  the sequence-number format, the buffer size and the durations.
* `IpoStream` is the run-time state. Its last field is ghost state: the calls
  of the virtual hooks so far, newest first, with a mark where the code has no
  hook (`resync`, `skipped`).
* `processPacket` is one turn of the loop of `process_completion`,
  `getNextChunk` one call of `get_next_chunk`.

Sequence numbers are `uint32_t` values kept as `Nat`; a difference is taken
modulo `2 ^ 32` before it is masked. Time points are nanoseconds of the steady
clock. Buffer slots are indexed by a total function: only slots below
`sequenceNumberWrapAround` are ever touched.
-/

namespace RivermaxDevKit

/-! ## Packets and chunks -/

/-- `ReceivePacketInfo`: sizes of the packet's sub-blocks and its arrival
timestamp. -/
structure ReceivePacketInfo where
  subBlockSizes : List Nat := []
  timestamp : Nat := 0
  deriving DecidableEq, Repr

def ReceivePacketInfo.getPacketSubBlockSize (info : ReceivePacketInfo) (idx : Nat) : Nat :=
  info.subBlockSizes.getD idx 0

/-- A stride of a completion: the bytes its header pointer designates and the
packet's info. -/
structure ReceivedPacket where
  header : Nat → UInt8
  info : ReceivePacketInfo

/-- What polling one sub-stream returns. -/
inductive PollResult
  | completion (packets : List ReceivedPacket)
  | signalReceived
  | failure

/-- The poll of the sub-stream of path `path`. -/
structure PathPoll where
  path : Nat
  result : PollResult

/-- The chunk `get_next_chunk` fills (`IPOReceiveChunk`). The packet-info
pointer is the index of the first element it designates. -/
structure IpoReceiveChunk where
  chunkSize : Nat := 0
  seqnFirst : Nat := 0
  timestampFirst : Nat := 0
  timestampLast : Nat := 0
  headerPtr : Option Nat := none
  payloadPtr : Option Nat := none
  infoPtr : Option Nat := none
  deriving DecidableEq, Repr

/-! ## Configuration -/

/-- Everything `IPOReceiveStream` keeps unchanged after `create_stream`. A
derived class chooses the sequence-number width through
`get_sequence_number_mask` and parses no number beyond that mask. -/
structure IpoConfig where
  sequenceNumberBits : Nat
  bits_ge : 2 ≤ sequenceNumberBits
  bits_le : sequenceNumberBits ≤ 32
  getSequenceNumber : (Nat → UInt8) → Nat → Option Nat
  seqn_lt : ∀ header length s,
    getSequenceNumber header length = some s → s < 2 ^ sequenceNumberBits
  numOfPacketsInChunk : Nat
  packets_pos : 0 < numOfPacketsInChunk
  maxPathDifferential : Int
  senderRestartThreshold : Int := 100000000
  headerDataSplit : Bool := false
  pktInfoEnabled : Bool := true
  headerBuffer : Nat := 0
  payloadBuffer : Nat := 0
  headerStrideSize : Nat := 0
  payloadStrideSize : Nat := 0

namespace IpoConfig

variable (c : IpoConfig)

/-- The size of the sequence-number space: the mask plus one. -/
def sequenceSpace : Nat := 2 ^ c.sequenceNumberBits

def getSequenceNumberMask : Nat := 2 ^ c.sequenceNumberBits - 1

def getSequenceNumberWrapAround (bufferElements : Nat) : Nat :=
  let seqnWa := c.getSequenceNumberMask
  if bufferElements ≤ seqnWa then bufferElements else seqnWa + 1

/-- The three values `create_stream` computes. -/
def sequenceNumberWrapAround : Nat := c.getSequenceNumberWrapAround c.numOfPacketsInChunk

def sequenceNumberMsbMask : Nat := (c.getSequenceNumberMask >>> 1) + 1

def sequenceNumberInitOffset : Nat := (c.getSequenceNumberMask + 1) / 4

/-- `(a - b) & get_sequence_number_mask()` on `uint32_t` operands. -/
def seqSub (a b : Nat) : Nat := ((a + (2 ^ 32 - b)) % 2 ^ 32) &&& c.getSequenceNumberMask

/-- `++index`, wrapped to the start of the buffer. -/
def nextIndex (index : Nat) : Nat :=
  if c.sequenceNumberWrapAround ≤ index + 1 then 0 else index + 1

end IpoConfig

/-! ## State -/

/-- `ext_packet_info`: one slot of the reconstruction buffer. -/
structure ExtPacketInfo where
  sequenceNumber : Nat := 0
  isValid : Bool := false
  timestamp : Int := 0
  hwTimestamp : Nat := 0
  deriving DecidableEq, Repr

inductive IpoState
  | notStarted
  | waitFirstPacket
  | running
  | waiting
  deriving DecidableEq, Repr

/-- The calls of the virtual hooks, and two marks for what happens without
one: `resync` where the buffer position is set from a packet, `skipped` where
the initial synchronisation drops a packet. `handlePacket` records the valid
sequence number it overwrites, if any. -/
inductive IpoEvent
  | handleCorruptedPacket (path : Nat)
  | handleLatePacket (path sequenceNumber : Nat)
  | handlePacket (path sequenceNumber : Nat) (overwritten : Option Nat)
  | handleRedundantPacket (path sequenceNumber : Nat)
  | completePacket (sequenceNumber : Nat)
  | handleSenderRestart
  | resync (sequenceNumber : Nat)
  | skipped (sequenceNumber : Nat)
  deriving DecidableEq, Repr

/-- The run-time fields of `IPOReceiveStream`, and the ghost list of events. -/
structure IpoStream where
  lastProcessedSequenceNumber : Nat := 0
  state : IpoState := .notStarted
  index : Nat := 0
  nextPacketTime : Int := 0
  startTime : Int := 0
  now : Int := 0
  extPacketInfoArr : Nat → ExtPacketInfo := fun _ => {}
  packetInfoArr : Nat → ReceivePacketInfo := fun _ => {}
  events : List IpoEvent := []

/-! ## Hooks -/

section Hooks

variable (c : IpoConfig)

def handlePacket (path sequenceNumber : Nat) (info : ReceivePacketInfo) (st : IpoStream) :
    IpoStream :=
  let indexInDestArr := sequenceNumber % c.sequenceNumberWrapAround
  let old := st.extPacketInfoArr indexInDestArr
  { st with
    packetInfoArr :=
      if c.pktInfoEnabled then Function.update st.packetInfoArr indexInDestArr info
      else st.packetInfoArr
    extPacketInfoArr := Function.update st.extPacketInfoArr indexInDestArr
      { sequenceNumber := sequenceNumber, isValid := true, timestamp := st.now,
        hwTimestamp := info.timestamp }
    events := .handlePacket path sequenceNumber
      (if old.isValid then some old.sequenceNumber else none) :: st.events }

def completePacket (sequenceNumber : Nat) (st : IpoStream) : IpoStream :=
  { st with
    lastProcessedSequenceNumber := sequenceNumber
    events := .completePacket sequenceNumber :: st.events }

end Hooks

/-! ## Completions -/

section Completions

variable (c : IpoConfig)

/-- The buffer position and the last processed number as both transitions out
of an idle state set them: the packet's slot, and a quarter of the number
space before the packet. -/
def resync (sequenceNumber : Nat) (st : IpoStream) : IpoStream :=
  { st with
    index := sequenceNumber % c.sequenceNumberWrapAround
    lastProcessedSequenceNumber := c.seqSub sequenceNumber c.sequenceNumberInitOffset
    events := .resync sequenceNumber :: st.events }

/-- The `switch (m_state)` of `process_completion`. In `NotStarted` the code
asserts and changes nothing. -/
def switchState (sequenceNumber : Nat) (st : IpoStream) : IpoStream :=
  match st.state with
  | .notStarted => st
  | .running => st
  | .waitFirstPacket =>
    { resync c sequenceNumber st with state := .running, nextPacketTime := st.now }
  | .waiting =>
    if c.senderRestartThreshold < st.now - st.nextPacketTime then
      let restarted := { st with events := .handleSenderRestart :: st.events }
      { resync c sequenceNumber restarted with
        startTime := st.now + c.maxPathDifferential
        state := .running
        nextPacketTime := st.now }
    else
      { st with state := .running, nextPacketTime := st.now }

/-- The three-way choice at the end of the loop body of `process_completion`. -/
def dispatchPacket (path sequenceNumber : Nat) (info : ReceivePacketInfo) (st : IpoStream) :
    IpoStream :=
  let extInfo := st.extPacketInfoArr (sequenceNumber % c.sequenceNumberWrapAround)
  let seqDelta := c.seqSub sequenceNumber st.lastProcessedSequenceNumber
  if seqDelta = 0 ∨ seqDelta &&& c.sequenceNumberMsbMask ≠ 0 then
    { st with events := .handleLatePacket path sequenceNumber :: st.events }
  else if !extInfo.isValid ∨ extInfo.sequenceNumber ≠ sequenceNumber then
    handlePacket c path sequenceNumber info st
  else
    { st with events := .handleRedundantPacket path sequenceNumber :: st.events }

/-- One turn of the loop of `process_completion`. -/
def processPacket (path : Nat) (packet : ReceivedPacket) (st : IpoStream) : IpoStream :=
  match c.getSequenceNumber packet.header (packet.info.getPacketSubBlockSize 0) with
  | none => { st with events := .handleCorruptedPacket path :: st.events }
  | some sequenceNumber =>
    dispatchPacket c path sequenceNumber packet.info (switchState c sequenceNumber st)

def processCompletion (path : Nat) (packets : List ReceivedPacket) (st : IpoStream) : IpoStream :=
  packets.foldl (fun st packet => processPacket c path packet st) st

/-- The loop of `get_next_chunk` over the sub-streams: a failed poll ends the
call, after the completions of the paths before it. -/
def pollPaths : List PathPoll → IpoStream → ReturnStatus × IpoStream
  | [], st => (.success, st)
  | poll :: rest, st =>
    match poll.result with
    | .completion packets => pollPaths rest (processCompletion c poll.path packets st)
    | .signalReceived => (.signalReceived, st)
    | .failure => (.failure, st)

end Completions

/-! ## Reconstruction -/

section Reconstruction

variable (c : IpoConfig)

/-- The search for the end of the dropped packets' interval: the first valid
slot at or after `startIdx`, `none` once `left` slots were found invalid. -/
def searchValid (arr : Nat → ExtPacketInfo) : (left startIdx : Nat) → Option Nat
  | 0, _ => none
  | left + 1, startIdx =>
    if (arr startIdx).isValid then some startIdx
    else searchValid arr left (c.nextIndex startIdx)

/-- `info->is_valid = false` and the step to the next slot. -/
def releaseSlot (st : IpoStream) : IpoStream :=
  { st with
    extPacketInfoArr := Function.update st.extPacketInfoArr st.index
      { st.extPacketInfoArr st.index with isValid := false }
    index := c.nextIndex st.index }

/-- The loop that skips packets during initial sync; the flag says that it
ended at a packet to deliver. `fuel` bounds the number of turns: see
`skipInitialSync_fuel`. -/
def skipInitialSync : (fuel : Nat) → IpoStream → IpoStream × Bool
  | 0, st => (st, false)
  | fuel + 1, st =>
    let info := st.extPacketInfoArr st.index
    if !info.isValid then (st, false)
    else if st.startTime ≤ info.timestamp then (st, true)
    else skipInitialSync fuel (releaseSlot c
      { st with
        nextPacketTime := info.timestamp
        events := .skipped info.sequenceNumber :: st.events })

/-- The loop that transfers the maximum contiguous sequence of valid packets,
with the chunk's last timestamp and the number of packets so far. -/
def transferContiguous : (fuel : Nat) → IpoStream → (timestampLast chunkSize : Nat) →
    IpoStream × Nat × Nat
  | 0, st, timestampLast, chunkSize => (st, timestampLast, chunkSize)
  | fuel + 1, st, timestampLast, chunkSize =>
    let info := st.extPacketInfoArr st.index
    if !info.isValid then (st, timestampLast, chunkSize)
    else if st.now ≤ info.timestamp + c.maxPathDifferential then (st, timestampLast, chunkSize)
    else
      let next := completePacket info.sequenceNumber (releaseSlot c st)
      -- stop at the end of the buffer: the returned arrays must be contiguous
      if c.sequenceNumberWrapAround ≤ st.index + 1 then (next, info.hwTimestamp, chunkSize + 1)
      else transferContiguous fuel next info.hwTimestamp (chunkSize + 1)

/-- The chunk for the packets transferred from slot `startIdx` on. -/
def fillChunk (startIdx chunkSize timestampLast : Nat) (first : ExtPacketInfo)
    (chunk : IpoReceiveChunk) : IpoReceiveChunk :=
  { chunk with
    seqnFirst := first.sequenceNumber
    timestampFirst := first.hwTimestamp
    timestampLast := timestampLast
    chunkSize := chunkSize
    headerPtr :=
      if c.headerDataSplit then some (c.headerBuffer + startIdx * c.headerStrideSize)
      else chunk.headerPtr
    payloadPtr := some (c.payloadBuffer + startIdx * c.payloadStrideSize)
    infoPtr := if c.pktInfoEnabled then some startIdx else chunk.infoPtr }

/-- The part of `get_next_chunk` after the sub-streams were polled. -/
def reconstruct (st : IpoStream) (chunk : IpoReceiveChunk) : IpoStream × IpoReceiveChunk :=
  if st.state ≠ .running then (st, chunk)
  else if st.now ≤ st.nextPacketTime + c.maxPathDifferential then (st, chunk)
  else
    match searchValid c st.extPacketInfoArr c.sequenceNumberWrapAround st.index with
    | none => ({ st with state := .waiting }, chunk)
    | some startIdx =>
      let info := st.extPacketInfoArr startIdx
      if st.now ≤ info.timestamp + c.maxPathDifferential then
        -- the time to send the next chunk has not yet come
        ({ st with nextPacketTime := info.timestamp }, chunk)
      else
        match skipInitialSync c (c.sequenceNumberWrapAround + 1) { st with index := startIdx } with
        | (skipped, false) => (skipped, chunk)
        | (synced, true) =>
          let transferred :=
            transferContiguous c c.sequenceNumberWrapAround synced chunk.timestampLast 0
          (transferred.1, fillChunk c synced.index transferred.2.2 transferred.2.1
            (synced.extPacketInfoArr synced.index) chunk)

end Reconstruction

/-! ## Entry points -/

section EntryPoints

variable (c : IpoConfig)

/-- `start`. -/
def start (now : Int) (st : IpoStream) : IpoStream :=
  { st with state := .waitFirstPacket, startTime := now + c.maxPathDifferential }

/-- The head of `get_next_chunk`: the clock is read, and the first call starts
the stream. -/
def beginCall (now : Int) (st : IpoStream) : IpoStream :=
  if st.state = .notStarted then
    { st with now := now, state := .waitFirstPacket, startTime := now + c.maxPathDifferential }
  else { st with now := now }

def getNextChunk (now : Int) (polls : List PathPoll) (st : IpoStream) (chunk : IpoReceiveChunk) :
    ReturnStatus × IpoStream × IpoReceiveChunk :=
  match pollPaths c polls (beginCall c now st) with
  | (.success, polled) => (.success, reconstruct c polled { chunk with chunkSize := 0 })
  | (status, polled) => (status, polled, chunk)

/-- The state a call of `get_next_chunk` leaves; the chunk the caller passes
has no influence on it. -/
def nextState (now : Int) (polls : List PathPoll) (st : IpoStream) : IpoStream :=
  (getNextChunk c now polls st {}).2.1

/-- The states reachable from creation. `start` is called before the first
packet only: the stream has not left the two states it waits in until then. -/
inductive Reachable : IpoStream → Prop
  | created : Reachable {}
  | start (now : Int) {st : IpoStream} : Reachable st →
      st.state = .notStarted ∨ st.state = .waitFirstPacket → Reachable (start c now st)
  | getNextChunk (now : Int) (polls : List PathPoll) {st : IpoStream} : Reachable st →
      Reachable (nextState c now polls st)

/-- The arguments of one call: what the clock reads and what the polls return. -/
abbrev IpoCall := Int × List PathPoll

def runCalls (calls : List IpoCall) (st : IpoStream) : IpoStream :=
  calls.foldl (fun st call => nextState c call.1 call.2 st) st

theorem reachable_runCalls {c : IpoConfig} (calls : List IpoCall) {st : IpoStream}
    (h : Reachable c st) : Reachable c (runCalls c calls st) := by
  induction calls generalizing st with
  | nil => exact h
  | cons call rest ih => exact ih (.getNextChunk call.1 call.2 h)

end EntryPoints

end RivermaxDevKit
