import RivermaxDevKit.Rtp.FrameStart
import RivermaxDevKit.Transport.PacketStream

/-!
# Single path

The packets of a media sender over one lossy path into an `AppRTPReceiveStream`,
in order.

* `losses_counted` — the counters of the receiver are those of the network.
* `frames_announced` — without losses the frame handler hears of every field of
  the sender.
-/

namespace RivermaxDevKit

open ByteStore RtpVideoBufferWriter SerialNumber

variable {m : MediaSettings}

/-- The packets on the wire: packet `k` starts with the header the writer wrote for
it; whichever block the receiver takes for the header is long enough. -/
def OnOnePath (run : WriterRun m) (isHeaderDataSplit : Bool) (sent : Nat → ReceivedPacket) : Prop :=
  ∀ k header, run.headers[k]? = some header → StartsWith (sent k).header header ∧
    20 ≤ (sent k).info.getPacketSubBlockSize (if isHeaderDataSplit then 1 else 0)

/-- What the stream has counted behind packets `ks`. -/
structure Delivered (run : WriterRun m) (ext split : Bool) (ks : List Nat)
    (app : AppRTPReceiveStream) : Prop where
  drops : DropState ext run.sequence.toNat ks app
  hds : app.isHeaderDataSplit = split
  processing : app.isHeaderProcessingEnabled = true
  corrupt : app.statistic.rxCorruptHeader = 0 ∧ app.statisticTotals.rxCorruptHeader = 0

section Packets

variable {run : WriterRun m} {ext split : Bool} {sent : Nat → ReceivedPacket}

theorem verdict_of_carries {k : Nat} {packet : ReceivedPacket} (hCarries : run.Carries k packet)
    (hLength : 20 ≤ packet.info.getPacketSubBlockSize (if split then 1 else 0)) :
    AppRTPReceiveStream.verdict ext split packet =
      some ((run.sequence.toNat + k) % rtpSequenceSpace ext) :=
  hCarries.number ext _ hLength

/-- One packet of the sender. -/
theorem Delivered.receivePacket {ks : List Nat} {app : AppRTPReceiveStream}
    (h : Delivered run ext split ks app) {k : Nat} {packet : ReceivedPacket}
    (hVerdict : AppRTPReceiveStream.verdict ext split packet =
      some ((run.sequence.toNat + k) % rtpSequenceSpace ext)) :
    Delivered run ext split (ks ++ [k]) (app.receivePacket packet) ∧
      (app.receivePacket packet).statistic.rxCount = app.statistic.rxCount ∧
      (app.receivePacket packet).statisticTotals.rxCount = app.statisticTotals.rxCount := by
  obtain ⟨received, receivedTotals, hBytes⟩ := AppRTPReceiveStream.countPacket_eq packet app
  have hAdded := h.drops.added k
  -- the header is parsed with the length the stream passes on
  have hParsed : appRtpSequenceNumber app.isExtendedSequenceNumber packet.header
      (app.headerLength packet.info) =
        some ((run.sequence.toNat + k) % rtpSequenceSpace ext) := by
    rw [← hVerdict, AppRTPReceiveStream.verdict, AppRTPReceiveStream.headerLength,
      h.drops.extended, h.hds]
    cases split <;> rfl
  unfold AppRTPReceiveStream.receivePacket
  rw [if_pos h.processing, hBytes, AppRTPReceiveStream.processPacketHeader, hParsed]
  dsimp only
  obtain ⟨frameNotifier, lastMbit, hNotified⟩ := AppRTPReceiveStream.notifyFrameStart_eq
    packet.header packet.info (AppRTPReceiveStream.countDropped
      ((run.sequence.toNat + k) % rtpSequenceSpace ext)
      { app with
        statistic := { app.statistic with receivedBytes := received }
        statisticTotals := { app.statisticTotals with receivedBytes := receivedTotals } })
  rw [hNotified]
  refine ⟨⟨⟨h.drops.extended, hAdded, ?_, fun hNil => ?_, fun front b hLast => ?_⟩, h.hds,
    h.processing, h.corrupt⟩, rfl, rfl⟩
  · show (app.statisticTotals.rxDropped + _) % 2 ^ 64 = (app.statistic.rxDropped + _) % 2 ^ 64
    rw [h.drops.same]
  · simp at hNil
  · obtain ⟨-, hB⟩ := List.append_inj' hLast rfl
    obtain rfl : k = b := by simpa using hB
    exact ⟨rfl, rfl⟩

/-- The packets of one chunk. -/
theorem Delivered.receivePackets (hWire : OnOnePath run split sent) (more : List Nat)
    (hOwn : ∀ k ∈ more, k < run.headers.length) :
    ∀ {ks : List Nat} {app : AppRTPReceiveStream}, Delivered run ext split ks app →
      let app' := (more.map sent).foldl (fun app packet => app.receivePacket packet) app
      Delivered run ext split (ks ++ more) app' ∧
        app'.statistic.rxCount = app.statistic.rxCount ∧
        app'.statisticTotals.rxCount = app.statisticTotals.rxCount := by
  induction more with
  | nil =>
    intro ks app h
    rw [List.append_nil]
    exact ⟨h, rfl, rfl⟩
  | cons k more ih =>
    intro ks app h
    obtain ⟨hk, hMore⟩ := List.forall_mem_cons.mp hOwn
    obtain ⟨hStarts, hLength⟩ := hWire k _ (List.getElem?_eq_getElem hk)
    have hCarries := WriterRun.carries_of_written (List.getElem?_eq_getElem hk) hStarts
    obtain ⟨hStep, hCount, hTotals⟩ := h.receivePacket (verdict_of_carries hCarries hLength)
    obtain ⟨hRest, hRestCount, hRestTotals⟩ := ih hMore hStep
    rw [List.append_assoc] at hRest
    exact ⟨hRest, hRestCount.trans hCount, hRestTotals.trans hTotals⟩

/-- How the packets are cut into chunks does not matter. -/
theorem Delivered.getNextChunks (hWire : OnOnePath run split sent)
    (chunks : List (Memory × ReceiveChunk)) :
    ∀ {ks more : List Nat} {app : AppRTPReceiveStream}, Delivered run ext split ks app →
      app.statistic.rxCount = ks.length % 2 ^ 64 →
      app.statisticTotals.rxCount = ks.length % 2 ^ 64 →
      app.receivedPackets chunks = more.map sent → (∀ k ∈ more, k < run.headers.length) →
      let app' := app.getNextChunks chunks
      Delivered run ext split (ks ++ more) app' ∧
        app'.statistic.rxCount = (ks ++ more).length % 2 ^ 64 ∧
        app'.statisticTotals.rxCount = (ks ++ more).length % 2 ^ 64 := by
  induction chunks with
  | nil =>
    intro ks more app h hCount hTotals hReceived _
    obtain rfl : more = [] := List.map_eq_nil_iff.mp hReceived.symm
    rw [List.append_nil]
    exact ⟨h, hCount, hTotals⟩
  | cons chunk chunks ih =>
    intro ks more app h hCount hTotals hReceived hOwn
    obtain ⟨here, later, rfl, hHere, hLater⟩ := List.map_eq_append_iff.mp hReceived.symm
    have hLength : here.length = chunk.2.packetInfos.length := by
      rw [← List.length_map sent, hHere, AppRTPReceiveStream.headers]
      split <;> simp [ReceiveChunk.packetsAt]
    -- the chunk is counted first, and then its packets are looked at
    have hCounted : Delivered run ext split ks (app.count fun s =>
        { s with rxCount := (s.rxCount + chunk.2.packetInfos.length) % 2 ^ 64 }) :=
      ⟨⟨h.drops.extended, h.drops.dropped, h.drops.same, h.drops.fresh, h.drops.last⟩, h.hds,
        h.processing, h.corrupt⟩
    obtain ⟨hNext, hNextCount, hNextTotals⟩ := hCounted.receivePackets hWire here
      fun k hk => hOwn k (List.mem_append_left later hk)
    rw [hHere] at hNext hNextCount hNextTotals
    have hCountNext : (app.getNextChunk chunk.1 chunk.2).statistic.rxCount =
        (ks ++ here).length % 2 ^ 64 := by
      refine hNextCount.trans ?_
      show (app.statistic.rxCount + chunk.2.packetInfos.length) % 2 ^ 64 = _
      rw [hCount, Nat.mod_add_mod, ← hLength, List.length_append]
    have hTotalsNext : (app.getNextChunk chunk.1 chunk.2).statisticTotals.rxCount =
        (ks ++ here).length % 2 ^ 64 := by
      refine hNextTotals.trans ?_
      show (app.statisticTotals.rxCount + chunk.2.packetInfos.length) % 2 ^ 64 = _
      rw [hTotals, Nat.mod_add_mod, ← hLength, List.length_append]
    have hRest := ih hNext hCountNext hTotalsNext hLater.symm
      fun k hk => hOwn k (List.mem_append_right here hk)
    rwa [List.append_assoc] at hRest

end Packets

/-! ## Losses -/

/-- A stream before its first chunk. -/
structure JustCreated (ext split : Bool) (app : AppRTPReceiveStream) : Prop where
  extended : app.isExtendedSequenceNumber = ext
  hds : app.isHeaderDataSplit = split
  processing : app.isHeaderProcessingEnabled = true
  statistic : app.statistic = {}
  statisticTotals : app.statisticTotals = {}
  initialized : app.initialized = false

/-- **Losses are counted.** For every run of the writer and every network that keeps
the packets in order and loses less than a turn of the numbers at a time, cut into
any chunks: nothing is found corrupt, what arrives is counted, and what was lost
between the first and the last packet that arrived is counted as dropped. -/
theorem losses_counted (run : WriterRun m) {ext split : Bool} {sent : Nat → ReceivedPacket}
    (hWire : OnOnePath run split sent) {app : AppRTPReceiveStream}
    (hCreated : JustCreated ext split app) {ks : List Nat}
    (hOwn : ∀ k ∈ ks, k < run.headers.length) (hOrder : ks.Pairwise (· < ·))
    (hGaps : ks.IsChain fun a b => b ≤ a + rtpSequenceSpace ext)
    {chunks : List (Memory × ReceiveChunk)}
    (hReceived : app.receivedPackets chunks = ks.map sent) :
    let app' := app.getNextChunks chunks
    (app'.statistic.rxCount = ks.length % 2 ^ 64 ∧
        app'.statistic.rxDropped = neverArrived ks % 2 ^ 64 ∧
        app'.statistic.rxCorruptHeader = 0) ∧
      app'.statisticTotals.rxCount = app'.statistic.rxCount ∧
      app'.statisticTotals.rxDropped = app'.statistic.rxDropped ∧
      app'.statisticTotals.rxCorruptHeader = 0 := by
  have hFresh : Delivered run ext split [] app := by
    refine ⟨⟨hCreated.extended, ?_, ?_, fun _ => hCreated.initialized, ?_⟩, hCreated.hds,
      hCreated.processing, ?_⟩
    · rw [hCreated.statistic]
      rfl
    · rw [hCreated.statistic, hCreated.statisticTotals]
    · intro front a hNil
      simp at hNil
    · rw [hCreated.statistic, hCreated.statisticTotals]
      exact ⟨rfl, rfl⟩
  obtain ⟨hDelivered, hCount, hTotals⟩ := hFresh.getNextChunks hWire chunks
    (by rw [hCreated.statistic]; rfl) (by rw [hCreated.statisticTotals]; rfl) hReceived hOwn
  rw [List.nil_append] at hDelivered hCount hTotals
  refine ⟨⟨hCount, ?_, hDelivered.corrupt.1⟩, hTotals.trans hCount.symm, hDelivered.drops.same,
    hDelivered.corrupt.2⟩
  rw [hDelivered.drops.dropped, skipped_of_gaps hOrder hGaps]

/-! ## Frame starts -/

/-- The fields of which one of the first `n` packets is part. -/
def fieldsBegun (m : MediaSettings) (n : Nat) : Nat :=
  (n + (m.packetsInFrameField - 1)) / m.packetsInFrameField

theorem fieldsBegun_succ (hPackets : 0 < m.packetsInFrameField) (n : Nat) :
    fieldsBegun m (n + 1) = n / m.packetsInFrameField + 1 ∧
      fieldsBegun m n = if n % m.packetsInFrameField = 0 then n / m.packetsInFrameField
        else n / m.packetsInFrameField + 1 := by
  have hSplit := Nat.div_add_mod n m.packetsInFrameField
  have hLt := Nat.mod_lt n hPackets
  constructor
  · unfold fieldsBegun
    rw [show n + 1 + (m.packetsInFrameField - 1) = n + m.packetsInFrameField by omega,
      Nat.add_div_right _ hPackets]
  · have hDiv : fieldsBegun m n = n / m.packetsInFrameField +
        (n % m.packetsInFrameField + (m.packetsInFrameField - 1)) / m.packetsInFrameField := by
      unfold fieldsBegun
      rw [← Nat.mul_add_div hPackets, ← Nat.add_assoc, hSplit]
    rw [hDiv]
    split
    · rename_i hZero
      have hNone : (0 + (m.packetsInFrameField - 1)) / m.packetsInFrameField = 0 :=
        Nat.div_eq_of_lt (by omega)
      rw [hZero, hNone, Nat.add_zero]
    · rename_i hPos
      have hOne : (n % m.packetsInFrameField + (m.packetsInFrameField - 1)) /
          m.packetsInFrameField = 1 :=
        Nat.div_eq_of_lt_le (by omega) (by omega)
      rw [hOne]

/-- The handler behind the first `n` packets: it has heard of every field begun, and
the last marker is that of a field that has just ended. -/
theorem StartState.receiveAll {run : WriterRun m} {ext split : Bool} {sent : Nat → ReceivedPacket}
    (hWire : OnOnePath run split sent) (hFields : 2 ≤ m.packetsInFrameField)
    {app : AppRTPReceiveStream} (h : StartState ext split [] true app) (n : Nat)
    (hOwn : n ≤ run.headers.length) :
    StartState ext split
      ((List.range (fieldsBegun m n)).map fun field => (run.fieldTimestamp field,
        (sent (field * m.packetsInFrameField)).info.timestamp)).reverse
      (decide (n % m.packetsInFrameField = 0))
      (((List.range n).map sent).foldl (fun app packet => app.receivePacket packet) app) := by
  have hPackets : 0 < m.packetsInFrameField := by omega
  induction n with
  | zero =>
    have hNone : fieldsBegun m 0 = 0 := Nat.div_eq_of_lt (by omega)
    rw [hNone, Nat.zero_mod, decide_eq_true rfl]
    exact h
  | succ n ih =>
    rw [List.range_succ, List.map_append, List.foldl_append]
    have hBefore := ih (by omega)
    obtain ⟨hStarts, hLength⟩ := hWire n _ (List.getElem?_eq_getElem (by omega))
    have hCarries := WriterRun.carries_of_written
      (List.getElem?_eq_getElem (show n < run.headers.length by omega)) hStarts
    have hVerdict : AppRTPReceiveStream.verdict ext split (sent n) = some _ :=
      verdict_of_carries hCarries hLength
    -- the packet as one of a frame
    have hStep := hBefore.receivePacket (FramePacket.mk (sent n) true
      (by rw [hVerdict]; exact Option.some_ne_none _) hCarries.timestamped hCarries.marked)
    obtain ⟨hNext, hNow⟩ := fieldsBegun_succ hPackets n
    have hPlace := WrapCounter.succ_mod_eq (Nat.mod_lt n hPackets)
    have hMarker : decide ((n + 1) % m.packetsInFrameField = 0) =
        decide (n % m.packetsInFrameField + 1 = m.packetsInFrameField) := by
      rw [hPlace]
      split <;> simp [*]
    rw [hMarker]
    refine (congrArg (fun events => StartState ext split events _ _) ?_).mp hStep
    -- a field begins with the packet behind a marker
    by_cases hFirst : n % m.packetsInFrameField = 0
    · have hEvent : (!decide (n % m.packetsInFrameField + 1 = m.packetsInFrameField) &&
          decide (n % m.packetsInFrameField = 0)) = true := by
        rw [hFirst, decide_eq_false (by omega), decide_eq_true rfl]
        rfl
      rw [if_pos hFirst] at hNow
      rw [if_pos hEvent, hNext, hNow, List.range_succ, List.map_append, List.reverse_append]
      have hStart : n / m.packetsInFrameField * m.packetsInFrameField = n := by
        have := Nat.div_add_mod' n m.packetsInFrameField
        omega
      rw [List.map_singleton, hStart]
      rfl
    · rw [if_neg hFirst] at hNow
      rw [if_neg (by simp [hFirst]), hNext, hNow]

/-- **Frames are announced.** For every run of the writer whose fields have two
packets or more, cut into any chunks: a handler that misses no packet hears of every
field begun once, in order, with the RTP timestamp of the field and the hardware
time of its first packet. -/
theorem frames_announced (run : WriterRun m) {ext split : Bool} {sent : Nat → ReceivedPacket}
    (hWire : OnOnePath run split sent) (hFields : 2 ≤ m.packetsInFrameField)
    {app : AppRTPReceiveStream} (hCreated : CreatedWithHandler ext split app) {n : Nat}
    (hOwn : n ≤ run.headers.length) {chunks : List (Memory × ReceiveChunk)}
    (hReceived : app.receivedPackets chunks = (List.range n).map sent) :
    (app.getNextChunks chunks).rtpEvents =
      (List.range (fieldsBegun m n)).map fun field => (run.fieldTimestamp field,
        (sent (field * m.packetsInFrameField)).info.timestamp) := by
  have hFresh : StartState ext split [] true app :=
    ⟨hCreated.extended, hCreated.hds, hCreated.processing, hCreated.notified, hCreated.marker⟩
  have hRun := hFresh.receiveAll hWire hFields n hOwn
  rw [← hReceived] at hRun
  -- the events of the chunks are those of the packets
  have hSame : SameStart app app := ⟨rfl, rfl, rfl, rfl, rfl⟩
  rw [AppRTPReceiveStream.rtpEvents, (hSame.getNextChunks chunks).notified, hRun.notified]
  exact List.reverse_reverse _

/-! ## A run over one path -/

/-- Frames of one line, of two packets. -/
def oneLine : MediaSettings :=
  (commonMediaSettings { media := { frameRate := ⟨25, 1⟩, resolution := ⟨960, 1⟩ } } 5 2).media

/-- Four of them, in calls that do not end with them, across a wrap of the numbers. -/
def fourFieldsRun : WriterRun oneLine where
  packets_pos := by decide
  divisors := ⟨by decide, by decide, by decide⟩
  sequence := 65534
  timestamp := 90
  calls := [.writeBuffer 3, .writeBuffer 5]
  atBoundaries := ⟨nofun, nofun, trivial⟩

/-- The headers of the run, a stride of 32 bytes apart. -/
def fourFieldsMemory : Memory := fun i =>
  ((fourFieldsRun.headers.map RtpHeader.bytes).getD (i / 32) []).getD (i % 32) 0

def fourFieldsPacket (k : Nat) : ReceivedPacket where
  header := fun i => fourFieldsMemory (0 + k * 32 + i)
  info := { subBlockSizes := [32], timestamp := 1000 }

theorem onOnePath_fourFieldsPacket : OnOnePath fourFieldsRun false fourFieldsPacket := by
  intro k header hAt
  refine ⟨?_, show 20 ≤ 32 by decide⟩
  refine List.ext_getElem (by simp [ByteStore.read]) fun i hi hi' => ?_
  rw [header.length_bytes] at hi'
  -- byte `i` of stride `k`
  have hStride : (0 + k * 32 + (0 + i)) / 32 = k ∧ (0 + k * 32 + (0 + i)) % 32 = i := by omega
  have hBytes : (fourFieldsRun.headers.map RtpHeader.bytes).getD k [] = header.bytes := by
    rw [List.getD_eq_getElem?_getD, List.getElem?_map, hAt]
    rfl
  simp only [ByteStore.read, List.getElem_map, List.getElem_range]
  show fourFieldsMemory (0 + k * 32 + (0 + i)) = _
  rw [fourFieldsMemory, hStride.1, hStride.2, hBytes, List.getD_eq_getElem]

/-- A chunk of `n` packets, from packet `k` on. -/
def fourFieldsChunk (k n : Nat) : Memory × ReceiveChunk :=
  (fourFieldsMemory,
    { hdsOn := false, headerPtr := 0, payloadPtr := k * 32,
      packetInfos := List.replicate n { subBlockSizes := [32], timestamp := 1000 } })

def fourFieldsStream (frameNotifier : Option (List (Nat × Nat))) : AppRTPReceiveStream :=
  { createRtpReceiveStream false false frameNotifier with payloadStrideSize := 32 }

/-- Packets 1, 4 and 5 are lost. -/
theorem losses_counted_fourFields :
    let app := (fourFieldsStream none).getNextChunks [fourFieldsChunk 0 1, fourFieldsChunk 2 2,
      fourFieldsChunk 6 1]
    (app.statistic.rxCount = 4 ∧ app.statistic.rxDropped = 3 ∧
        app.statistic.rxCorruptHeader = 0) ∧
      app.statisticTotals.rxCount = app.statistic.rxCount ∧
      app.statisticTotals.rxDropped = app.statistic.rxDropped ∧
      app.statisticTotals.rxCorruptHeader = 0 :=
  @losses_counted oneLine fourFieldsRun false false fourFieldsPacket onOnePath_fourFieldsPacket _
    ⟨rfl, rfl, rfl, rfl, rfl, rfl⟩ [0, 2, 3, 6] (by decide) (by decide) (by decide) _ rfl

/-- Of seven packets the last begins the fourth field. -/
theorem frames_announced_fourFields :
    ((fourFieldsStream (some [])).getNextChunks
      [fourFieldsChunk 0 4, fourFieldsChunk 4 3]).rtpEvents =
        (List.range 4).map fun field => (fourFieldsRun.fieldTimestamp field, 1000) :=
  @frames_announced oneLine fourFieldsRun false false fourFieldsPacket onOnePath_fourFieldsPacket
    (by decide) _ ⟨rfl, rfl, rfl, rfl, rfl⟩ 7 (by decide)
    [fourFieldsChunk 0 4, fourFieldsChunk 4 3] rfl

end RivermaxDevKit
