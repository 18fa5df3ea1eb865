import RivermaxDevKit.Rtp.HeaderParsers

/-!
# RTP receive stream

`AppRTPReceiveStream` (`rtp_receiver_io_node.cpp`), which counts the packets of
a stream of one path, next to `IPOReceiveStream::process_completion`, which does
so for the paths of a redundant stream.

* `verdicts_getNextChunk`, `verdicts_processCompletion` — what either receiver
  makes of the packets of a chunk.
* `receiversAgree_iff` — they agree unless header and payload are split and only
  one of the two is shorter than four bytes.

A chunk has fewer than `2 ^ 32` packets, so `stride_index` does not wrap.
-/

namespace RivermaxDevKit

open ByteStore

/-! ## State -/

/-- The counters of `RXStatistics` a stream updates by itself, each a `size_t`. -/
structure RXStatistics where
  rxCount : Nat := 0
  rxDropped : Nat := 0
  rxCorruptHeader : Nat := 0
  receivedBytes : Nat := 0
  deriving DecidableEq, Repr

/-- The members of `AppRTPReceiveStream`, with the strides of its base class. The
frame notifier is the list of its calls, newest first. `verdicts` is a ghost: the
sequence number of every header processed, newest first, `none` if corrupt. -/
structure AppRTPReceiveStream where
  isExtendedSequenceNumber : Bool
  isHeaderDataSplit : Bool
  isHeaderProcessingEnabled : Bool := true
  headerStrideSize : Nat := 0
  payloadStrideSize : Nat := 0
  statistic : RXStatistics := {}
  statisticTotals : RXStatistics := {}
  initialized : Bool := false
  lastSequenceNumber : Nat := 0
  lastMbit : Bool := true
  frameNotifier : Option (List (Nat × Nat)) := none
  verdicts : List (Option Nat) := []

/-- A completion of the input stream. A packet has a header block of its own
only with `hdsOn`; the info gives the sizes of the blocks there are. -/
structure ReceiveChunk where
  hdsOn : Bool
  headerPtr : Nat
  payloadPtr : Nat
  packetInfos : List ReceivePacketInfo

def ReceiveChunk.getHeaderPtr (chunk : ReceiveChunk) : Option Nat :=
  if chunk.hdsOn then some chunk.headerPtr else none

/-- The packets of the chunk, from the pointer on, a stride apart. -/
def ReceiveChunk.packetsAt (memory : Memory) (chunk : ReceiveChunk) (ptr strideSize : Nat) :
    List ReceivedPacket :=
  chunk.packetInfos.zipIdx.map fun p => ⟨fun i => memory (ptr + p.2 * strideSize + i), p.1⟩

namespace AppRTPReceiveStream

/-- Every counter is kept twice: since the last report, and in total. -/
def count (f : RXStatistics → RXStatistics) (app : AppRTPReceiveStream) : AppRTPReceiveStream :=
  { app with statistic := f app.statistic, statisticTotals := f app.statisticTotals }

def sequenceNumberMask (app : AppRTPReceiveStream) : Nat :=
  if app.isExtendedSequenceNumber then RTP_SEQUENCE_NUMBER_MASK_32BIT
  else RTP_SEQUENCE_NUMBER_MASK_16BIT

/-! ## Headers -/

/-- `num_dropped`, of `uint32_t` operands. -/
def numDropped (sequenceNumber : Nat) (app : AppRTPReceiveStream) : Nat :=
  let expected := (app.lastSequenceNumber + 1) % 2 ^ 32
  ((sequenceNumber + (2 ^ 32 - expected)) % 2 ^ 32) &&& app.sequenceNumberMask

def countCorrupt (app : AppRTPReceiveStream) : AppRTPReceiveStream :=
  { app.count fun s => { s with rxCorruptHeader := (s.rxCorruptHeader + 1) % 2 ^ 64 } with
    verdicts := none :: app.verdicts }

/-- The end of `process_packet_header`: the first packet after a marker starts a
frame. -/
def notifyFrameStart (header : Memory) (info : ReceivePacketInfo) (app : AppRTPReceiveStream) :
    AppRTPReceiveStream :=
  match app.frameNotifier with
  | none => app
  | some events =>
    let mbit : Bool := header 1 &&& 0x80 ≠ 0
    { app with
      frameNotifier :=
        if !mbit && app.lastMbit then
          some ((ofBigEndian (read header 4 4), info.timestamp) :: events)
        else some events
      lastMbit := mbit }

/-- `process_packet_header`, up to the frame notifier, for a valid header. -/
def countDropped (sequenceNumber : Nat) (app : AppRTPReceiveStream) : AppRTPReceiveStream :=
  -- the first valid header has no predecessor
  let dropped := if app.initialized then app.numDropped sequenceNumber else 0
  { app.count fun s => { s with rxDropped := (s.rxDropped + dropped) % 2 ^ 64 } with
    initialized := true
    lastSequenceNumber := sequenceNumber
    verdicts := some sequenceNumber :: app.verdicts }

def processPacketHeader (header : Memory) (length : Nat) (info : ReceivePacketInfo)
    (app : AppRTPReceiveStream) : AppRTPReceiveStream :=
  match appRtpSequenceNumber app.isExtendedSequenceNumber header length with
  | none => app.countCorrupt
  | some sequenceNumber => (app.countDropped sequenceNumber).notifyFrameStart header info

/-! ## Chunks -/

def countBytes (len : Nat) (app : AppRTPReceiveStream) : AppRTPReceiveStream :=
  app.count fun s => { s with receivedBytes := (s.receivedBytes + len) % 2 ^ 64 }

/-- The length `get_next_chunk` passes on: with split headers that of the second
block, which is the payload. -/
def headerLength (info : ReceivePacketInfo) (app : AppRTPReceiveStream) : Nat :=
  if app.isHeaderDataSplit then info.getPacketSubBlockSize 1 else info.getPacketSubBlockSize 0

/-- The bytes of a packet, block by block. -/
def countPacket (packet : ReceivedPacket) (app : AppRTPReceiveStream) : AppRTPReceiveStream :=
  let first := app.countBytes (packet.info.getPacketSubBlockSize 0)
  if app.isHeaderDataSplit then first.countBytes (packet.info.getPacketSubBlockSize 1) else first

/-- One turn of the loop of `get_next_chunk`. -/
def receivePacket (packet : ReceivedPacket) (app : AppRTPReceiveStream) : AppRTPReceiveStream :=
  if app.isHeaderProcessingEnabled then
    (app.countPacket packet).processPacketHeader packet.header (app.headerLength packet.info)
      packet.info
  else app.countPacket packet

/-- The packets `get_next_chunk` walks over. -/
def headers (memory : Memory) (chunk : ReceiveChunk) (app : AppRTPReceiveStream) :
    List ReceivedPacket :=
  if app.isHeaderDataSplit then chunk.packetsAt memory chunk.headerPtr app.headerStrideSize
  else chunk.packetsAt memory chunk.payloadPtr app.payloadStrideSize

/-- `get_next_chunk`, once the base class has got the chunk. -/
def getNextChunk (memory : Memory) (chunk : ReceiveChunk) (app : AppRTPReceiveStream) :
    AppRTPReceiveStream :=
  (app.headers memory chunk).foldl (fun app packet => app.receivePacket packet)
    (app.count fun s => { s with rxCount := (s.rxCount + chunk.packetInfos.length) % 2 ^ 64 })

end AppRTPReceiveStream

/-! ## The redundant receiver -/

/-- The packets `process_completion` walks over. -/
def completionPackets (memory : Memory) (headerStrideSize payloadStrideSize : Nat)
    (chunk : ReceiveChunk) : List ReceivedPacket :=
  match chunk.getHeaderPtr with
  | some ptr => chunk.packetsAt memory ptr headerStrideSize
  | none => chunk.packetsAt memory chunk.payloadPtr payloadStrideSize

/-- What an event of `process_completion` says of the packet it handled. -/
def IpoEvent.verdict : IpoEvent → Option (Option Nat)
  | .handleCorruptedPacket _ => some none
  | .handleLatePacket _ s => some (some s)
  | .handlePacket _ s _ => some (some s)
  | .handleRedundantPacket _ s => some (some s)
  | .completePacket _ | .handleSenderRestart | .resync _ | .skipped _ => none

/-- The sequence numbers of the packets handled, newest first, `none` for a
corrupt one. -/
def IpoStream.verdicts (st : IpoStream) : List (Option Nat) := st.events.filterMap IpoEvent.verdict

/-- Over a chunk, both receivers find the same packets corrupt and read the same
sequence numbers from the others. -/
def ReceiversAgree (memory : Memory) (c : IpoConfig) (path : Nat) (chunk : ReceiveChunk)
    (app : AppRTPReceiveStream) (st : IpoStream) : Prop :=
  ∃ verdicts, verdicts.length = chunk.packetInfos.length ∧
    (app.getNextChunk memory chunk).verdicts = verdicts ++ app.verdicts ∧
    (processCompletion c path
      (completionPackets memory app.headerStrideSize app.payloadStrideSize chunk) st).verdicts =
        verdicts ++ st.verdicts

/-! ## Verdicts of a run -/

namespace AppRTPReceiveStream

/-- What a stream with these settings makes of a packet. -/
def verdict (isExtendedSequenceNumber isHeaderDataSplit : Bool) (packet : ReceivedPacket) :
    Option Nat :=
  appRtpSequenceNumber isExtendedSequenceNumber packet.header
    (packet.info.getPacketSubBlockSize (if isHeaderDataSplit then 1 else 0))

/-- Nothing a stream was built with changes. -/
structure SameSettings (app app' : AppRTPReceiveStream) : Prop where
  extended : app'.isExtendedSequenceNumber = app.isExtendedSequenceNumber
  split : app'.isHeaderDataSplit = app.isHeaderDataSplit
  processing : app'.isHeaderProcessingEnabled = app.isHeaderProcessingEnabled

/-- The frame notifier and the last marker are all that changes. -/
theorem notifyFrameStart_eq (header : Memory) (info : ReceivePacketInfo)
    (app : AppRTPReceiveStream) :
    ∃ frameNotifier lastMbit, app.notifyFrameStart header info =
      { app with frameNotifier := frameNotifier, lastMbit := lastMbit } := by
  unfold notifyFrameStart
  split
  · exact ⟨app.frameNotifier, app.lastMbit, rfl⟩
  · exact ⟨_, _, rfl⟩

/-- The bytes received are all that changes. -/
theorem countPacket_eq (packet : ReceivedPacket) (app : AppRTPReceiveStream) :
    ∃ received receivedTotals, app.countPacket packet =
      { app with
        statistic := { app.statistic with receivedBytes := received }
        statisticTotals := { app.statisticTotals with receivedBytes := receivedTotals } } := by
  unfold countPacket
  dsimp only
  split
  · exact ⟨_, _, rfl⟩
  · exact ⟨_, _, rfl⟩

theorem verdicts_processPacketHeader (header : Memory) (length : Nat) (info : ReceivePacketInfo)
    (app : AppRTPReceiveStream) :
    SameSettings app (app.processPacketHeader header length info) ∧
      (app.processPacketHeader header length info).verdicts =
        appRtpSequenceNumber app.isExtendedSequenceNumber header length :: app.verdicts := by
  unfold processPacketHeader
  split
  · rename_i hCorrupt
    exact ⟨⟨rfl, rfl, rfl⟩, by rw [hCorrupt]; rfl⟩
  · rename_i sequenceNumber hValid
    -- the notifier runs last, and counts nothing
    obtain ⟨frameNotifier, lastMbit, hNotified⟩ :=
      notifyFrameStart_eq header info (app.countDropped sequenceNumber)
    rw [hNotified, hValid]
    exact ⟨⟨rfl, rfl, rfl⟩, rfl⟩

theorem verdicts_receivePacket (packet : ReceivedPacket) (app : AppRTPReceiveStream) :
    SameSettings app (app.receivePacket packet) ∧
      (app.receivePacket packet).verdicts =
        if app.isHeaderProcessingEnabled then
          verdict app.isExtendedSequenceNumber app.isHeaderDataSplit packet :: app.verdicts
        else app.verdicts := by
  have hCounted : SameSettings app (app.countPacket packet) ∧
      (app.countPacket packet).verdicts = app.verdicts := by
    obtain ⟨received, receivedTotals, hBytes⟩ := countPacket_eq packet app
    rw [hBytes]
    exact ⟨⟨rfl, rfl, rfl⟩, rfl⟩
  obtain ⟨⟨hExtended, hSplit, hProcessing⟩, hVerdicts⟩ := hCounted
  unfold receivePacket
  split
  · obtain ⟨⟨hExtended', hSplit', hProcessing'⟩, hVerdicts'⟩ :=
      verdicts_processPacketHeader packet.header (app.headerLength packet.info) packet.info
        (app.countPacket packet)
    refine ⟨⟨hExtended'.trans hExtended, hSplit'.trans hSplit, hProcessing'.trans hProcessing⟩, ?_⟩
    -- `verdict` takes the block `headerLength` takes
    rw [hVerdicts', hVerdicts, hExtended, verdict, headerLength]
    cases app.isHeaderDataSplit <;> rfl
  · exact ⟨⟨hExtended, hSplit, hProcessing⟩, hVerdicts⟩

/-- The verdicts of a list of packets. -/
theorem verdicts_foldl (packets : List ReceivedPacket) (app : AppRTPReceiveStream) :
    (packets.foldl (fun app packet => app.receivePacket packet) app).verdicts =
      (if app.isHeaderProcessingEnabled then
        (packets.map (verdict app.isExtendedSequenceNumber app.isHeaderDataSplit)).reverse
      else []) ++ app.verdicts := by
  induction packets generalizing app with
  | nil => simp
  | cons packet packets ih =>
    -- the settings are those of the first packet
    obtain ⟨⟨hExtended, hSplit, hProcessing⟩, hVerdicts⟩ := verdicts_receivePacket packet app
    rw [List.foldl_cons, ih, hVerdicts, hExtended, hSplit, hProcessing]
    cases app.isHeaderProcessingEnabled <;> simp

/-- What `get_next_chunk` makes of the packets of a chunk. -/
theorem verdicts_getNextChunk (memory : Memory) (chunk : ReceiveChunk)
    (app : AppRTPReceiveStream) :
    (app.getNextChunk memory chunk).verdicts =
      (if app.isHeaderProcessingEnabled then
        ((app.headers memory chunk).map
          (verdict app.isExtendedSequenceNumber app.isHeaderDataSplit)).reverse
      else []) ++ app.verdicts :=
  verdicts_foldl (app.headers memory chunk) _

end AppRTPReceiveStream

/-- A packet leaves one event that names it, after those of its state change. -/
theorem verdicts_processPacket (c : IpoConfig) (path : Nat) (packet : ReceivedPacket)
    (st : IpoStream) :
    (processPacket c path packet st).verdicts =
      c.getSequenceNumber packet.header (packet.info.getPacketSubBlockSize 0) :: st.verdicts := by
  -- a restart leaves events, but no verdict
  have hSwitch (s : Nat) : (switchState c s st).verdicts = st.verdicts := by
    unfold switchState
    split <;> try rfl
    split <;> rfl
  unfold processPacket
  split
  · rename_i hCorrupt
    rw [hCorrupt]
    rfl
  · rename_i s hValid
    rw [hValid, ← hSwitch s]
    -- late, new, or redundant: the event names the number
    unfold dispatchPacket
    dsimp only
    split
    · rfl
    · split <;> rfl

theorem verdicts_processCompletion (c : IpoConfig) (path : Nat) (packets : List ReceivedPacket)
    (st : IpoStream) :
    (processCompletion c path packets st).verdicts =
      (packets.map fun packet =>
        c.getSequenceNumber packet.header (packet.info.getPacketSubBlockSize 0)).reverse ++
          st.verdicts := by
  unfold processCompletion
  induction packets generalizing st with
  | nil => rfl
  | cons packet packets ih =>
    rw [List.foldl_cons, ih, verdicts_processPacket]
    simp

/-! ## Agreement -/

/-- The headers of the two receivers are the same bytes. -/
theorem headers_eq_completionPackets {memory : Memory} {chunk : ReceiveChunk}
    {app : AppRTPReceiveStream} (hSplit : chunk.hdsOn = app.isHeaderDataSplit) :
    app.headers memory chunk =
      completionPackets memory app.headerStrideSize app.payloadStrideSize chunk := by
  unfold AppRTPReceiveStream.headers completionPackets ReceiveChunk.getHeaderPtr
  rw [hSplit]
  cases app.isHeaderDataSplit <;> rfl

theorem rtpSequenceNumber_eq_none_iff (ext : Bool) (header : Memory) (length : Nat) :
    rtpSequenceNumber ext header length = none ↔ length < 4 ∨ header 0 &&& 0xC0 ≠ 0x80 := by
  unfold rtpSequenceNumber
  split
  · simp_all
  · cases ext <;> simp_all

/-- The length is compared with four, and then used no more. -/
theorem rtpSequenceNumber_eq_iff (ext : Bool) (header : Memory) (length length' : Nat) :
    rtpSequenceNumber ext header length = rtpSequenceNumber ext header length' ↔
      header 0 &&& 0xC0 ≠ 0x80 ∨ (length < 4 ↔ length' < 4) := by
  have hNone := rtpSequenceNumber_eq_none_iff ext header length
  have hNone' := rtpSequenceNumber_eq_none_iff ext header length'
  constructor
  · intro hEq
    -- the length decides between a number and none
    rw [hEq, hNone'] at hNone
    tauto
  · intro h
    by_cases hCorrupt : length < 4 ∨ header 0 &&& 0xC0 ≠ 0x80
    · rw [hNone.mpr hCorrupt, eq_comm, hNone']
      tauto
    · -- both lengths pass the check
      have hCorrupt' : ¬(length' < 4 ∨ header 0 &&& 0xC0 ≠ 0x80) := by tauto
      rw [rtpSequenceNumber, rtpSequenceNumber, if_neg hCorrupt, if_neg hCorrupt']

/-- **Two receivers.** Over every chunk, in split mode and in combined mode, the
receivers agree exactly if the single-path receiver processes the headers, and
of no packet with split header and version 2 one block is shorter than four
bytes and the other is not. -/
theorem receiversAgree_iff (memory : Memory) {c : IpoConfig} (path : Nat) (chunk : ReceiveChunk)
    (app : AppRTPReceiveStream) (st : IpoStream)
    (hParser : c.getSequenceNumber = rtpSequenceNumber app.isExtendedSequenceNumber)
    (hSplit : chunk.hdsOn = app.isHeaderDataSplit) :
    ReceiversAgree memory c path chunk app st ↔
      ∀ packet ∈ app.headers memory chunk, app.isHeaderProcessingEnabled = true ∧
        (chunk.hdsOn = true → packet.header 0 &&& 0xC0 = 0x80 →
          (packet.info.getPacketSubBlockSize 0 < 4 ↔ packet.info.getPacketSubBlockSize 1 < 4)) := by
  have hLength : (app.headers memory chunk).length = chunk.packetInfos.length := by
    unfold AppRTPReceiveStream.headers ReceiveChunk.packetsAt
    split <;> simp
  unfold ReceiversAgree
  rw [AppRTPReceiveStream.verdicts_getNextChunk, verdicts_processCompletion,
    ← headers_eq_completionPackets hSplit, hParser, hSplit, ← hLength]
  -- both verdicts are maps over the same headers
  generalize app.headers memory chunk = packets
  constructor
  · rintro ⟨verdicts, hCount, hApp, hIpo⟩ packet hPacket
    have hPos : 0 < packets.length := List.length_pos_of_mem hPacket
    have hApp := List.append_cancel_right hApp
    obtain rfl := List.append_cancel_right hIpo
    cases hProcessing : app.isHeaderProcessingEnabled with
    -- the single-path receiver has no verdict on the packet
    | false => simp_all
    | true =>
      rw [hProcessing, if_pos rfl, List.reverse_inj] at hApp
      -- the lists agree packet by packet
      have hSame := List.map_inj_left.mp hApp packet hPacket
      refine ⟨rfl, fun hOn hVersion => ?_⟩
      rw [hOn] at hSame
      exact ((rtpSequenceNumber_eq_iff _ _ _ _).mp hSame |>.resolve_left
        (fun h => h hVersion)).symm
  · intro h
    refine ⟨_, ?_, ?_, rfl⟩
    · simp
    · refine congrArg (· ++ app.verdicts) ?_
      cases hProcessing : app.isHeaderProcessingEnabled with
      | false =>
        -- then there is no packet
        have hEmpty : packets = [] := by
          refine List.eq_nil_iff_forall_not_mem.mpr fun packet hPacket => ?_
          exact absurd (h packet hPacket).1 (by simp [hProcessing])
        simp [hEmpty]
      | true =>
        rw [if_pos rfl]
        refine congrArg List.reverse (List.map_congr_left fun packet hPacket => ?_)
        refine (rtpSequenceNumber_eq_iff _ _ _ _).mpr ?_
        cases hOn : app.isHeaderDataSplit with
        -- a combined packet has one block, which both take
        | false => exact .inr Iff.rfl
        | true =>
          by_cases hVersion : packet.header 0 &&& 0xC0 = 0x80
          · exact .inr ((h packet hPacket).2 hOn hVersion).symm
          · exact .inl hVersion

/-- A memory of RTP headers with number `1`, one at every sixteenth address. -/
def headersEverySixteen : Memory := fun a =>
  match a % 16 with
  | 0 => 0x80
  | 3 => 1
  | _ => 0

/-- Two packets in combined mode. -/
theorem receiversAgree_combined :
    ReceiversAgree headersEverySixteen fourSlots 0
      { hdsOn := false, headerPtr := 0, payloadPtr := 64, packetInfos := [⟨[1220], 1⟩, ⟨[3], 2⟩] }
      { isExtendedSequenceNumber := false, isHeaderDataSplit := false, payloadStrideSize := 16 }
      { state := .running } :=
  (receiversAgree_iff _ 0 _ _ _ rfl rfl).mpr (by simp)

/-- A packet with a header of twelve bytes and an empty payload. -/
theorem receivers_differ_on_empty_payload :
    ¬ReceiversAgree headersEverySixteen fourSlots 0
      { hdsOn := true, headerPtr := 0, payloadPtr := 4096, packetInfos := [⟨[12, 0], 1⟩] }
      { isExtendedSequenceNumber := false, isHeaderDataSplit := true, headerStrideSize := 16,
        payloadStrideSize := 1200 }
      { state := .running } := by
  rintro ⟨verdicts, -, hApp, hIpo⟩
  have hApp := hApp.trans (List.append_nil verdicts)
  have hIpo := hIpo.trans (List.append_nil verdicts)
  -- the redundant receiver reads number 1, the other takes the header for corrupt
  exact absurd (hApp.trans hIpo.symm) (by decide +kernel)

end RivermaxDevKit
