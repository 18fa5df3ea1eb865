import RivermaxDevKit.Ipo.AppReceiveStream
import RivermaxDevKit.Rtp.BufferWriter
import RivermaxDevKit.Rtp.VideoSendStream

/-!
# Header parsers

What the receivers read from the headers of both generators:
`get_sequence_number` of `AppRTPReceiveStream` and `AppIPOReceiveStream`, and
`MediaRxIONode::get_rtp_param` (`media_latency_io_node.cpp`).

* `wellFormed_buildRtpHeader`, `wellFormed_build211020RtpHeader` — the words of
  both generators fit their fields.
* `parse_of_build` — the receivers read back what the sender had.
-/

namespace RivermaxDevKit

open ByteStore

/-! ## Parsers -/

/-- `AppRTPReceiveStream::get_sequence_number`: the text of
`AppIPOReceiveStream`. -/
def appRtpSequenceNumber : Bool → (Nat → UInt8) → Nat → Option Nat := rtpSequenceNumber

/-- What `get_rtp_param` returns. -/
structure RtpParam where
  sequenceNumber : Nat
  timestamp : Nat
  mBit : Bool
  fBit : Bool
  deriving DecidableEq, Repr

/-- `MediaRxIONode::get_rtp_param`; `none` is the failure status. -/
def getRtpParam (rtpHdr : Nat → UInt8) : Option RtpParam :=
  if rtpHdr 0 &&& 0xC0 ≠ 0x80 then none
  else
    let cc := 0x0F &&& (rtpHdr 0).toNat
    let offset := cc * RTP_HEADER_CSRC_GRANULARITY_BYTES
    some
      { sequenceNumber := ((rtpHdr 3).toNat ||| (rtpHdr 2).toNat <<< 8) |||
          ((rtpHdr (offset + 12)).toNat <<< 24 ||| (rtpHdr (offset + 13)).toNat <<< 16)
        timestamp := ofBigEndian (read rtpHdr 4 4)
        mBit := rtpHdr 1 &&& 0x80 ≠ 0
        fBit := rtpHdr (offset + 16) &&& 0x80 ≠ 0 }

/-! ## The bytes of a header -/

/-- `buffer` starts with the header. -/
def StartsWith (buffer : Memory) (header : RtpHeader) : Prop := read buffer 0 20 = header.bytes

/-- Every word of the header fits its field, and no contributing sources are
announced. -/
structure WellFormed (header : RtpHeader) : Prop where
  flags : header.flags = 0x80
  markerPayloadType : header.markerPayloadType < 2 ^ 8
  sequence : header.sequence < 2 ^ 16
  timestamp : header.timestamp < 2 ^ 32
  extendedSequence : header.extendedSequence < 2 ^ 16
  rowWord : header.rowWord < 2 ^ 16

section Bytes

variable {buffer : Memory} {header : RtpHeader}

/-- The bytes a parser looks at. -/
theorem bytes_of_startsWith (h : StartsWith buffer header) :
    buffer 0 = UInt8.ofNat header.flags ∧ buffer 1 = UInt8.ofNat header.markerPayloadType ∧
      buffer 2 = UInt8.ofNat (header.sequence / 256) ∧ buffer 3 = UInt8.ofNat header.sequence ∧
      buffer 12 = UInt8.ofNat (header.extendedSequence / 256) ∧
      buffer 13 = UInt8.ofNat header.extendedSequence ∧
      buffer 16 = UInt8.ofNat (header.rowWord / 256) ∧
      read buffer 4 4 = bigEndian 4 header.timestamp := by
  unfold StartsWith at h
  simp only [ByteStore.read, List.range_succ, List.range_zero, RtpHeader.bytes, bigEndian,
    List.nil_append, List.cons_append, List.map_cons, List.map_nil, Nat.zero_add,
    List.cons.injEq, and_true] at h
  -- of the twenty bytes the parsers look at these
  obtain ⟨h0, h1, h2, h3, h4, h5, h6, h7, -, -, -, -, h12, h13, -, -, h16, -⟩ := h
  refine ⟨h0, h1, h2, h3, h12, h13, h16, ?_⟩
  simp [ByteStore.read, List.range_succ, bigEndian, h4, h5, h6, h7]

/-- A big-endian half-word, put together from its bytes. -/
theorem halfWord_of_bytes {v : Nat} (hv : v < 2 ^ 16) :
    (UInt8.ofNat v).toNat ||| (UInt8.ofNat (v / 256)).toNat <<< 8 = v := by
  have hLow : (UInt8.ofNat v).toNat = v % 256 := UInt8.toNat_ofNat'
  have hHigh : (UInt8.ofNat (v / 256)).toNat = v / 256 % 256 := UInt8.toNat_ofNat'
  have hByte : v % 256 < 2 ^ 8 := Nat.mod_lt _ (by decide)
  -- the bytes do not overlap, so they add up
  rw [hLow, hHigh, or_shiftLeft_eq_add hByte]
  omega

/-- The byte test of bit 7. -/
theorem topBit_of_byte {v : Nat} (hv : v < 2 ^ 8) :
    decide (UInt8.ofNat v &&& 0x80 ≠ 0) = decide (v / 2 ^ 7 = 1) := by
  -- there are 256 bytes
  have hAll : ∀ v < 2 ^ 8, decide (UInt8.ofNat v &&& 0x80 ≠ 0) = decide (v / 2 ^ 7 = 1) := by
    decide +kernel
  exact hAll v hv

/-- The number over both halves of the sequence. -/
theorem fullSequence_of_bytes (hWell : WellFormed header) :
    header.sequence ||| ((UInt8.ofNat (header.extendedSequence / 256)).toNat <<< 24 |||
      (UInt8.ofNat header.extendedSequence).toNat <<< 16) = header.fullSequence := by
  -- the upper half is put together as a half-word and shifted
  have hUpper : (UInt8.ofNat (header.extendedSequence / 256)).toNat <<< 24 |||
      (UInt8.ofNat header.extendedSequence).toNat <<< 16 = header.extendedSequence <<< 16 := by
    rw [Nat.shiftLeft_add _ 8 16, ← Nat.shiftLeft_or_distrib, Nat.or_comm,
      halfWord_of_bytes hWell.extendedSequence]
  rw [hUpper, or_shiftLeft_eq_add hWell.sequence]
  rfl

/-- The first byte: version 2, no contributing sources. -/
theorem firstByte_of_startsWith (h : StartsWith buffer header) (hWell : WellFormed header) :
    buffer 0 = 0x80 := by
  rw [(bytes_of_startsWith h).1, hWell.flags]
  rfl

/-- Both receivers accept the header and read the sequence number. -/
theorem rtpSequenceNumber_of_startsWith (h : StartsWith buffer header) (hWell : WellFormed header)
    {length : Nat} (hLength : 20 ≤ length) :
    rtpSequenceNumber false buffer length = some header.sequence ∧
      rtpSequenceNumber true buffer length = some header.fullSequence := by
  obtain ⟨-, -, h2, h3, h12, h13, -, -⟩ := bytes_of_startsWith h
  have hVersion := firstByte_of_startsWith h hWell
  -- the length is enough, and the version is 2
  have hAccept : ¬ (length < 4 ∨ buffer 0 &&& 0xC0 ≠ 0x80) := by
    rw [hVersion, not_or]
    exact ⟨by omega, by decide⟩
  have hLow : (buffer 3).toNat ||| (buffer 2).toNat <<< 8 = header.sequence := by
    rw [h2, h3, halfWord_of_bytes hWell.sequence]
  constructor
  · rw [rtpSequenceNumber, if_neg hAccept]
    exact congrArg some hLow
  · rw [rtpSequenceNumber, if_neg hAccept, hLow, hVersion]
    -- without contributing sources the extended half is at byte 12
    show some (header.sequence ||| ((buffer 12).toNat <<< 24 ||| (buffer 13).toNat <<< 16)) = _
    rw [h12, h13, fullSequence_of_bytes hWell]

/-- `get_rtp_param` reads sequence number, timestamp, marker and field bit. -/
theorem getRtpParam_of_startsWith (h : StartsWith buffer header) (hWell : WellFormed header) :
    getRtpParam buffer =
      some ⟨header.fullSequence, header.timestamp, header.marker, header.field⟩ := by
  obtain ⟨-, h1, h2, h3, h12, h13, h16, hTs⟩ := bytes_of_startsWith h
  have hVersion := firstByte_of_startsWith h hWell
  have hAccept : ¬ (buffer 0 &&& 0xC0 ≠ 0x80) := by
    rw [hVersion]
    decide
  -- the field bit is the top bit of the row word
  have hRow : header.rowWord / 256 / 2 ^ 7 = header.rowWord / 2 ^ 15 :=
    Nat.div_div_eq_div_mul _ _ _
  rw [getRtpParam, if_neg hAccept, hVersion]
  show some (RtpParam.mk (((buffer 3).toNat ||| (buffer 2).toNat <<< 8) |||
    ((buffer 12).toNat <<< 24 ||| (buffer 13).toNat <<< 16)) _ _
      (decide (buffer 16 &&& 0x80 ≠ 0))) = _
  rw [h1, h2, h3, h12, h13, h16, hTs, halfWord_of_bytes hWell.sequence,
    fullSequence_of_bytes hWell, ofBigEndian_bigEndian_of_lt hWell.timestamp,
    topBit_of_byte hWell.markerPayloadType, topBit_of_byte (by have := hWell.rowWord; omega), hRow]
  rfl

end Bytes

/-! ## Generators -/

/-- The words of `RTPVideoMockBufferWriter` fit their fields. -/
theorem wellFormed_buildRtpHeader (m : MediaSettings) {st : SendingStatistics}
    (hSequence : st.rtpSequence < 2 ^ 32) (hTimestamp : st.rtpTimestamp < 2 ^ 32) :
    WellFormed (RtpVideoBufferWriter.buildRtpHeader m st) := by
  refine ⟨rfl, ?_, Nat.mod_lt _ (by decide), hTimestamp, ?_, ?_⟩
  · show m.payloadType % 2 ^ 7 + _ < 2 ^ 8
    split <;> simp [MediaSettings.payloadType]
  · show st.rtpSequence / 2 ^ 16 < 2 ^ 16
    omega
  · show st.lineNumber % m.linesInFrameField % 2 ^ 15 +
      st.rtpInterlaceFieldIndicator.toNat * 2 ^ 15 < 2 ^ 16
    have hBit := Bool.toNat_le st.rtpInterlaceFieldIndicator
    omega

/-- So do the words of `RtpVideoSendStream`. -/
theorem wellFormed_build211020RtpHeader (c : MediaStreamSettings) {st : SendingStatistics}
    (hSequence : st.rtpSequence < 2 ^ 32) (hTimestamp : st.rtpTimestamp < 2 ^ 32)
    (hRow : st.lineNumber % RtpVideoSendStream.numberOfRows c < 2 ^ 16) :
    WellFormed (RtpVideoSendStream.build211020RtpHeader c st).1 := by
  refine ⟨rfl, ?_, Nat.mod_lt _ (by decide), hTimestamp, ?_, ?_⟩
  · show 96 ||| _ < 2 ^ 8
    split <;> decide
  · show st.rtpSequence / 2 ^ 16 < 2 ^ 16
    omega
  -- the field bit is or-ed onto the row
  · refine Nat.or_lt_two_pow hRow ?_
    cases st.rtpInterlaceFieldIndicator <;> decide

/-- The receivers accept whatever buffer starts with the header, and read the
sequence number, the timestamp, the marker and the field bit of its sender. -/
structure Parses (header : RtpHeader) (sequence timestamp : Nat) (marker field : Bool) : Prop where
  appRtp : ∀ buffer length, StartsWith buffer header → 20 ≤ length →
    appRtpSequenceNumber false buffer length = some (sequence % 2 ^ 16) ∧
      appRtpSequenceNumber true buffer length = some sequence
  appIpo : ∀ buffer length, StartsWith buffer header → 20 ≤ length →
    rtpSequenceNumber false buffer length = some (sequence % 2 ^ 16) ∧
      rtpSequenceNumber true buffer length = some sequence
  mediaRx : ∀ buffer, StartsWith buffer header →
    getRtpParam buffer = some ⟨sequence, timestamp, marker, field⟩

theorem parses_of_wellFormed {header : RtpHeader} {sequence : Nat} (hWell : WellFormed header)
    (hLow : header.sequence = sequence % 2 ^ 16)
    (hHigh : header.extendedSequence = sequence / 2 ^ 16) :
    Parses header sequence header.timestamp header.marker header.field := by
  -- both halves together are the number that was sent
  have hFull : header.fullSequence = sequence := by
    rw [RtpHeader.fullSequence, hLow, hHigh]
    exact Nat.div_add_mod' _ _
  have hAccepted : ∀ buffer length, StartsWith buffer header → 20 ≤ length →
      rtpSequenceNumber false buffer length = some (sequence % 2 ^ 16) ∧
        rtpSequenceNumber true buffer length = some sequence := by
    intro buffer length hStarts hLength
    rw [← hLow, ← hFull]
    exact rtpSequenceNumber_of_startsWith hStarts hWell hLength
  refine ⟨hAccepted, hAccepted, ?_⟩
  intro buffer hStarts
  rw [← hFull]
  exact getRtpParam_of_startsWith hStarts hWell

/-- **Headers read back.** From any state of a generator, with a row below
`2 ^ 15`, every receiver reads what the sender put into the header: of
`RTPVideoMockBufferWriter` and of `RtpVideoSendStream`. -/
theorem parse_of_build (m : MediaSettings) (c : MediaStreamSettings) {st : SendingStatistics}
    (hSequence : st.rtpSequence < 2 ^ 32) (hTimestamp : st.rtpTimestamp < 2 ^ 32)
    (hRow : st.lineNumber % RtpVideoSendStream.numberOfRows c < 2 ^ 15) :
    Parses (RtpVideoBufferWriter.buildRtpHeader m st) st.rtpSequence st.rtpTimestamp
        (st.packetCounter + 1 = m.packetsInFrameField) st.rtpInterlaceFieldIndicator ∧
      Parses (RtpVideoSendStream.build211020RtpHeader c st).1 st.rtpSequence st.rtpTimestamp
        (st.packetCounter + 1 = c.mediaSettings.packetsInFrameField)
        st.rtpInterlaceFieldIndicator := by
  constructor
  · rw [← RtpVideoBufferWriter.marker_buildRtpHeader, ← RtpVideoBufferWriter.field_buildRtpHeader m]
    exact parses_of_wellFormed (wellFormed_buildRtpHeader m hSequence hTimestamp) rfl rfl
  · rw [← RtpVideoSendStream.marker_build211020RtpHeader,
      ← RtpVideoSendStream.field_build211020RtpHeader c hRow]
    exact parses_of_wellFormed
      (wellFormed_build211020RtpHeader c hSequence hTimestamp (hRow.trans (by decide))) rfl rfl

/-- The last packet of the second field of an interlaced stream, its sequence
number about to wrap. -/
theorem parse_of_build_interlaced :
    Parses (RtpVideoBufferWriter.buildRtpHeader
        { (fullHd ⟨25, 1⟩ .Interlaced).media with packetsInFrameField := 2160 }
        { packetCounter := 2159, rtpSequence := 0xFFFFFFFF, rtpTimestamp := 0x80000001,
          rtpInterlaceFieldIndicator := true, lineNumber := 539, srdOffset := 1440 })
      0xFFFFFFFF 0x80000001 true true :=
  (parse_of_build _ ⟨(fullHd ⟨25, 1⟩ .Interlaced).media, 1220⟩ (by decide) (by decide)
    (by decide)).1

end RivermaxDevKit
