import RivermaxDevKit.Lib.WrapCounter
import RivermaxDevKit.Media.Settings
import RivermaxDevKit.Rtp.Header
import RivermaxDevKit.Services.Time

/-!
# RTP video send stream

`RtpVideoSendStream` (`rtp_video_send_stream.cpp`): the headers of a chunk, and
the time of the first packet.

* `timestamp_of_packet` — every packet of a field has the timestamp of its
  field, however the stream is cut into chunks.
-/

namespace RivermaxDevKit

/-- The fields of `MediaStreamSettings` the generator reads. -/
structure MediaStreamSettings where
  mediaSettings : MediaSettings
  packetPayloadSize : Nat

/-- The settings the send stream gets of the application. -/
def AppSettings.streamSettings (s : AppSettings) : MediaStreamSettings :=
  ⟨s.media, s.packetPayloadSize⟩

open ByteStore

namespace RtpVideoSendStream

variable (c : MediaStreamSettings)

/-- `number_of_rows`. -/
def numberOfRows : Nat :=
  c.mediaSettings.resolution.height.toNat / c.mediaSettings.videoScanType.fields

/-- `group_size`, cast to `uint16_t`: it takes every format for 4:2:2 of ten
bits. -/
def groupSize : Nat := (c.packetPayloadSize - 20) * 2 / 5 % 2 ^ 16

/-- What the last packet of a field adds to the timestamp: a cast of a `double`
to `uint32_t`. -/
def ticks : Nat :=
  let media := c.mediaSettings
  let ticks : ℚ := media.sampleRate / (media.frameRate.num.toNat / media.frameRate.denom.toNat)
  ⌊ticks / (media.videoScanType.fields : ℚ)⌋₊ % 2 ^ 32

/-- The packet at hand is the last of its field. -/
def isLastPacket (st : SendingStatistics) : Prop :=
  st.packetCounter + 1 = c.mediaSettings.packetsInFrameField

instance (st : SendingStatistics) : Decidable (isLastPacket c st) :=
  inferInstanceAs (Decidable (_ = _))

/-- `build_2110_20_rtp_header`: the header, and the statistics behind it. -/
def build211020RtpHeader (st : SendingStatistics) : RtpHeader × SendingStatistics :=
  ({ flags := 0x80
     markerPayloadType := 96 ||| if isLastPacket c st then 0x80 else 0
     sequence := st.rtpSequence % 2 ^ 16
     timestamp := st.rtpTimestamp
     -- stored without a conversion to network order
     ssrc := 0xbd1db50e
     extendedSequence := st.rtpSequence / 2 ^ 16
     srdLength := (c.packetPayloadSize - 20) % 2 ^ 16
     -- the field bit is put on top of all sixteen bits of the row
     rowWord := (st.lineNumber % numberOfRows c) ||| (st.rtpInterlaceFieldIndicator.toNat <<< 15)
     offsetWord := st.srdOffset },
   { st with
     srdOffset :=
       (st.srdOffset + groupSize c) % (groupSize c * c.mediaSettings.packetsInLine) % 2 ^ 16
     packetCounter := st.packetCounter + 1
     rtpInterlaceFieldIndicator :=
       if isLastPacket c st ∧ c.mediaSettings.videoScanType = .Interlaced then
         !st.rtpInterlaceFieldIndicator
       else st.rtpInterlaceFieldIndicator
     rtpTimestamp :=
       if isLastPacket c st then (st.rtpTimestamp + ticks c) % 2 ^ 32 else st.rtpTimestamp
     rtpSequence := (st.rtpSequence + 1) % 2 ^ 32 })

theorem marker_build211020RtpHeader (st : SendingStatistics) :
    (build211020RtpHeader c st).1.marker =
      decide (st.packetCounter + 1 = c.mediaSettings.packetsInFrameField) := by
  show decide ((96 ||| if isLastPacket c st then 0x80 else 0) / 2 ^ 7 = 1) =
    decide (isLastPacket c st)
  by_cases hLast : isLastPacket c st <;> simp [hLast]

/-- The row word of a row that leaves the top bit free. -/
theorem rowWord_build211020RtpHeader {st : SendingStatistics}
    (hRow : st.lineNumber % numberOfRows c < 2 ^ 15) :
    (build211020RtpHeader c st).1.rowWord =
      st.rtpInterlaceFieldIndicator.toNat * 2 ^ 15 + st.lineNumber % numberOfRows c :=
  or_shiftLeft_eq_add hRow _

theorem field_build211020RtpHeader {st : SendingStatistics}
    (hRow : st.lineNumber % numberOfRows c < 2 ^ 15) :
    (build211020RtpHeader c st).1.field = st.rtpInterlaceFieldIndicator := by
  rw [RtpHeader.field, rowWord_build211020RtpHeader c hRow]
  exact (RtpHeader.topBit_add hRow _).1

/-- The strides of `prepare_chunk_to_send` from `stride` on. The line advances
with the strides of the chunk, not with the packets of the field. -/
def prepareStrides : (remaining stride : Nat) → SendingStatistics →
    List RtpHeader × SendingStatistics
  | 0, _, st => ([], st)
  | remaining + 1, stride, st =>
    if st.packetCounter < c.mediaSettings.packetsInFrameField then
      let built := build211020RtpHeader c st
      let next :=
        if (stride + 1) % c.mediaSettings.packetsInLine = 0 then
          { built.2 with
            lineNumber := (built.2.lineNumber + 1) % c.mediaSettings.resolution.height.toNat }
        else built.2
      let rest := prepareStrides remaining (stride + 1) next
      (built.1 :: rest.1, rest.2)
    else ([], st)

/-- `prepare_chunk_to_send`: the headers of the packets, in the order of their
strides. -/
def prepareChunkToSend (chunkLength : Nat) (st : SendingStatistics) :
    List RtpHeader × SendingStatistics :=
  let prepared := prepareStrides c chunkLength 0 st
  (prepared.1,
    { prepared.2 with
      packetCounter := prepared.2.packetCounter % c.mediaSettings.packetsInFrameField })

/-- One chunk after the other. -/
def prepareChunks : List Nat → SendingStatistics → List RtpHeader × SendingStatistics
  | [], st => ([], st)
  | chunkLength :: chunks, st =>
    let first := prepareChunkToSend c chunkLength st
    let rest := prepareChunks chunks first.2
    (first.1 ++ rest.1, rest.2)

/-! ## Start time -/

/-- The time `calculate_send_time_ns` returns: the next alignment point a second
from now, and the offset of the first packet. -/
def sendTimeNs (timeNowNs : Nat) : ℚ :=
  let media := c.mediaSettings
  let fields : Nat := if media.videoScanType = .Progressive then 1 else 2
  let tFrameNs := media.frameFieldTimeIntervalNs * fields
  let n := ⌊((timeNowNs + NS_IN_SEC : Nat) : ℚ) / tFrameNs + 1⌋₊
  n * tFrameNs + (calculateTroTrs media).1

/-- `calculate_send_time_ns`: it also sets the timestamp of the first packet. -/
def calculateSendTimeNs (timeNowNs : Nat) (st : SendingStatistics) : ℚ × SendingStatistics :=
  (sendTimeNs c timeNowNs,
    { st with
      rtpTimestamp :=
        ⌊timeToRtpTimestamp (sendTimeNs c timeNowNs) c.mediaSettings.sampleRate⌋₊ % 2 ^ 32 })

/-! ## The timestamp of a packet -/

/-- The `i`-th packet of a stream belongs to field `i / packetsInFrameField`. -/
def fieldTimestamp (t0 i : Nat) : Nat :=
  (t0 + i / c.mediaSettings.packetsInFrameField * ticks c) % 2 ^ 32

/-- After `sent` packets: the place in the field, which a chunk may have just
completed, and the timestamp of the next packet. -/
structure SentPackets (t0 sent : Nat) (st : SendingStatistics) : Prop where
  counter : st.packetCounter % c.mediaSettings.packetsInFrameField =
    sent % c.mediaSettings.packetsInFrameField
  counter_le : st.packetCounter ≤ c.mediaSettings.packetsInFrameField
  timestamp : st.rtpTimestamp = fieldTimestamp c t0 sent

/-- The timestamp moves on with the last packet of a field. -/
theorem fieldTimestamp_succ {t0 sent counter : Nat}
    (hCounter : counter % c.mediaSettings.packetsInFrameField =
      sent % c.mediaSettings.packetsInFrameField)
    (hLt : counter < c.mediaSettings.packetsInFrameField) :
    fieldTimestamp c t0 (sent + 1) =
      if counter + 1 = c.mediaSettings.packetsInFrameField then
        (fieldTimestamp c t0 sent + ticks c) % 2 ^ 32
      else fieldTimestamp c t0 sent := by
  rw [Nat.mod_eq_of_lt hLt] at hCounter
  have hPlace : sent % c.mediaSettings.packetsInFrameField < c.mediaSettings.packetsInFrameField :=
    hCounter ▸ hLt
  unfold fieldTimestamp
  rw [WrapCounter.succ_div_eq hPlace, hCounter]
  split
  · rw [Nat.mod_add_mod, Nat.succ_mul, Nat.add_assoc]
  · rfl

theorem sentPackets_build {t0 sent : Nat} {st : SendingStatistics}
    (h : SentPackets c t0 sent st) (hLt : st.packetCounter < c.mediaSettings.packetsInFrameField) :
    SentPackets c t0 (sent + 1) (build211020RtpHeader c st).2 := by
  refine ⟨?_, hLt, ?_⟩
  · show (st.packetCounter + 1) % _ = _
    rw [Nat.add_mod, h.counter, ← Nat.add_mod]
  · rw [fieldTimestamp_succ c h.counter hLt, ← h.timestamp]
    rfl

/-- Every packet the strides prepare has the timestamp of its field. -/
theorem sentPackets_prepareStrides (remaining : Nat) :
    ∀ (stride : Nat) {t0 sent : Nat} {st : SendingStatistics}, SentPackets c t0 sent st →
      let prepared := prepareStrides c remaining stride st
      (∀ i header, prepared.1[i]? = some header →
          header.timestamp = fieldTimestamp c t0 (sent + i)) ∧
        SentPackets c t0 (sent + prepared.1.length) prepared.2 := by
  induction remaining with
  | zero =>
    intro stride t0 sent st h
    exact ⟨by simp [prepareStrides], h⟩
  | succ remaining ih =>
    intro stride t0 sent st h
    unfold prepareStrides
    split
    case isFalse => exact ⟨by simp, h⟩
    case isTrue hLt =>
      have hBuilt := sentPackets_build c h hLt
      -- the line number plays no part in time
      have hNext : SentPackets c t0 (sent + 1)
          (if (stride + 1) % c.mediaSettings.packetsInLine = 0 then
            { (build211020RtpHeader c st).2 with
              lineNumber := ((build211020RtpHeader c st).2.lineNumber + 1) %
                c.mediaSettings.resolution.height.toNat }
          else (build211020RtpHeader c st).2) := by
        split
        · exact ⟨hBuilt.counter, hBuilt.counter_le, hBuilt.timestamp⟩
        · exact hBuilt
      obtain ⟨hRest, hFinal⟩ := ih (stride + 1) hNext
      refine ⟨?_, ?_⟩
      · intro i header hAt
        cases i with
        | zero =>
          obtain rfl := Option.some.inj hAt
          exact h.timestamp
        | succ i =>
          rw [Nat.add_comm i, ← Nat.add_assoc]
          exact hRest i header hAt
      · rw [List.length_cons, Nat.add_comm _ 1, ← Nat.add_assoc]
        exact hFinal

theorem sentPackets_prepareChunkToSend {t0 sent : Nat} {st : SendingStatistics} (chunkLength : Nat)
    (hPackets : 0 < c.mediaSettings.packetsInFrameField) (h : SentPackets c t0 sent st) :
    let prepared := prepareChunkToSend c chunkLength st
    (∀ i header, prepared.1[i]? = some header →
        header.timestamp = fieldTimestamp c t0 (sent + i)) ∧
      SentPackets c t0 (sent + prepared.1.length) prepared.2 := by
  obtain ⟨hHeaders, hFinal⟩ := sentPackets_prepareStrides c chunkLength 0 h
  refine ⟨hHeaders, ?_, (Nat.mod_lt _ hPackets).le, hFinal.timestamp⟩
  exact (Nat.mod_mod _ _).trans hFinal.counter

/-- **Timestamps.** However the stream is cut into chunks, every packet of a
field has the timestamp of its field. -/
theorem timestamp_of_packet (chunks : List Nat) :
    ∀ {t0 sent : Nat} {st : SendingStatistics}, 0 < c.mediaSettings.packetsInFrameField →
      SentPackets c t0 sent st → ∀ i header, (prepareChunks c chunks st).1[i]? = some header →
        header.timestamp = fieldTimestamp c t0 (sent + i) := by
  induction chunks with
  | nil =>
    intro t0 sent st hPackets h i header hAt
    simp [prepareChunks] at hAt
  | cons chunkLength chunks ih =>
    intro t0 sent st hPackets h i header hAt
    obtain ⟨hHeaders, hFinal⟩ := sentPackets_prepareChunkToSend c chunkLength hPackets h
    have hSplit : ((prepareChunkToSend c chunkLength st).1 ++
        (prepareChunks c chunks (prepareChunkToSend c chunkLength st).2).1)[i]? = some header := hAt
    by_cases hFirst : i < (prepareChunkToSend c chunkLength st).1.length
    · rw [List.getElem?_append_left hFirst] at hSplit
      exact hHeaders i header hSplit
    · rw [List.getElem?_append_right (by omega)] at hSplit
      have hRest := ih hPackets hFinal _ header hSplit
      rw [hRest]
      congr 1
      omega

/-! ## How many packets a chunk takes -/

/-- A chunk takes packets until the field is complete. -/
theorem length_prepareStrides (remaining : Nat) : ∀ (stride : Nat) (st : SendingStatistics),
    (prepareStrides c remaining stride st).1.length =
        min remaining (c.mediaSettings.packetsInFrameField - st.packetCounter) ∧
      (prepareStrides c remaining stride st).2.packetCounter = st.packetCounter +
        min remaining (c.mediaSettings.packetsInFrameField - st.packetCounter) := by
  induction remaining with
  | zero =>
    intro stride st
    simp [prepareStrides]
  | succ remaining ih =>
    intro stride st
    unfold prepareStrides
    split
    case isFalse hFull =>
      have hNone : c.mediaSettings.packetsInFrameField - st.packetCounter = 0 := by omega
      simp [hNone]
    case isTrue hLt =>
      have hCounter : (if (stride + 1) % c.mediaSettings.packetsInLine = 0 then
            { (build211020RtpHeader c st).2 with
              lineNumber := ((build211020RtpHeader c st).2.lineNumber + 1) %
                c.mediaSettings.resolution.height.toNat }
          else (build211020RtpHeader c st).2).packetCounter = st.packetCounter + 1 := by
        split <;> rfl
      obtain ⟨hLength, hFinal⟩ := ih (stride + 1) _
      rw [List.length_cons, hLength, hFinal, hCounter]
      omega

/-- Whole fields, one chunk each. -/
theorem length_prepareChunks_fields (n : Nat) : ∀ (st : SendingStatistics), st.packetCounter = 0 →
    (prepareChunks c (List.replicate n c.mediaSettings.packetsInFrameField) st).1.length =
      n * c.mediaSettings.packetsInFrameField := by
  induction n with
  | zero =>
    intro st _
    simp [prepareChunks]
  | succ n ih =>
    intro st hStart
    obtain ⟨hLength, hFinal⟩ :=
      length_prepareStrides c c.mediaSettings.packetsInFrameField 0 st
    rw [hStart, Nat.sub_zero, Nat.min_self] at hLength hFinal
    have hNext : (prepareChunkToSend c c.mediaSettings.packetsInFrameField st).2.packetCounter =
        0 := by
      show (prepareStrides c c.mediaSettings.packetsInFrameField 0 st).2.packetCounter % _ = 0
      rw [hFinal, Nat.zero_add, Nat.mod_self]
    rw [List.replicate_succ, prepareChunks, List.length_append, ih _ hNext, Nat.succ_mul,
      Nat.add_comm]
    exact congrArg _ hLength

end RtpVideoSendStream

end RivermaxDevKit
