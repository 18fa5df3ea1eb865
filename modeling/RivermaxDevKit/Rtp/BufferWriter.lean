import Mathlib.Data.Rat.Floor
import RivermaxDevKit.Lib.WrapCounter
import RivermaxDevKit.Media.Settings
import RivermaxDevKit.Rtp.Header
import RivermaxDevKit.Services.Time

/-!
# RTP video buffer writer

`RTPVideoMockBufferWriter` (`rtp_video_buffer_writer.cpp`) on top of
`RTPMediaBufferWriter` (`rtp_media_buffer_writer.cpp`): the headers of the
packets, and the state between them. Where a divisor is zero the code traps on
its first packet and the model says nothing: `DivisorsPositive` excludes it.

* `Keeps.runCalls` — what one packet keeps, a stream keeps, however it is cut into
  calls; and every packet asked for is written.
* `written_updateInFrameState` — what one packet does to the state, in closed form.
* `header_law` — every header of a stream.
-/

namespace RivermaxDevKit

namespace RtpVideoBufferWriter

variable (m : MediaSettings)

def DEFAULT_SSRC : Nat := 0x0eb51dbd

/-! ## Headers -/

/-- `build_rtp_header`. The row and the offset are bit fields of fifteen bits. -/
def buildRtpHeader (st : SendingStatistics) : RtpHeader where
  flags := 2 * 2 ^ 6
  markerPayloadType := m.payloadType % 2 ^ 7 +
    if st.packetCounter + 1 = m.packetsInFrameField then 2 ^ 7 else 0
  sequence := st.rtpSequence % 2 ^ 16
  timestamp := st.rtpTimestamp
  ssrc := DEFAULT_SSRC
  extendedSequence := st.rtpSequence / 2 ^ 16
  srdLength := m.rawPacketPayloadSize % 2 ^ 16
  rowWord := st.lineNumber % m.linesInFrameField % 2 ^ 15 +
    st.rtpInterlaceFieldIndicator.toNat * 2 ^ 15
  offsetWord := st.srdOffset % 2 ^ 15

theorem marker_buildRtpHeader (st : SendingStatistics) :
    (buildRtpHeader m st).marker = decide (st.packetCounter + 1 = m.packetsInFrameField) := by
  show decide ((m.payloadType % 2 ^ 7 +
    if st.packetCounter + 1 = m.packetsInFrameField then 2 ^ 7 else 0) / 2 ^ 7 = 1) = _
  -- the marker is the bit above the payload type
  split <;> simp [MediaSettings.payloadType, *]

theorem field_buildRtpHeader (st : SendingStatistics) :
    (buildRtpHeader m st).field = st.rtpInterlaceFieldIndicator := by
  show decide ((_ % 2 ^ 15 + st.rtpInterlaceFieldIndicator.toNat * 2 ^ 15) / 2 ^ 15 = 1) = _
  rw [Nat.add_comm]
  exact (RtpHeader.topBit_add (Nat.mod_lt _ (by decide)) _).1

theorem row_buildRtpHeader (st : SendingStatistics) :
    (buildRtpHeader m st).row = st.lineNumber % m.linesInFrameField % 2 ^ 15 := by
  show (_ % 2 ^ 15 + st.rtpInterlaceFieldIndicator.toNat * 2 ^ 15) % 2 ^ 15 = _
  rw [Nat.add_comm]
  exact (RtpHeader.topBit_add (Nat.mod_lt _ (by decide)) _).2

/-- The cast of `ticks_per_frame`. -/
def ticks : Nat := ⌊m.ticksPerFrame⌋₊ % 2 ^ 32

/-- The divisors of `build_rtp_header` and `update_in_frame_state`. -/
structure DivisorsPositive : Prop where
  width : 0 < m.resolution.width.toNat
  packetsInLine : 0 < m.packetsInLine
  linesInFrameField : 0 < m.linesInFrameField

/-- `update_in_frame_state`, of settings whose divisors are positive. -/
def updateInFrameState (st : SendingStatistics) : SendingStatistics where
  srdOffset := (st.srdOffset + m.pixelsPerPacket) % m.resolution.width.toNat
  lineNumber :=
    if (st.packetCounter + 1) % m.packetsInLine = 0 then
      (st.lineNumber + 1) % m.linesInFrameField % 2 ^ 16
    else st.lineNumber
  packetCounter :=
    if st.packetCounter + 1 = m.packetsInFrameField then 0 else st.packetCounter + 1
  rtpTimestamp :=
    if st.packetCounter + 1 = m.packetsInFrameField then (st.rtpTimestamp + ticks m) % 2 ^ 32
    else st.rtpTimestamp
  rtpInterlaceFieldIndicator :=
    if st.packetCounter + 1 = m.packetsInFrameField ∧ m.videoScanType = .Interlaced then
      !st.rtpInterlaceFieldIndicator
    else st.rtpInterlaceFieldIndicator
  rtpSequence := (st.rtpSequence + 1) % 2 ^ 32

/-- `set_first_packet_timestamp`. -/
def setFirstPacketTimestamp (packetTimeNs : Nat) (st : SendingStatistics) : SendingStatistics :=
  { st with rtpTimestamp := ⌊timeToRtpTimestamp packetTimeNs m.sampleRate⌋₊ % 2 ^ 32 }

/-- `reset_in_frame_state`. -/
def resetInFrameState (st : SendingStatistics) : SendingStatistics :=
  { st with packetCounter := 0, lineNumber := 0, srdOffset := 0,
            rtpInterlaceFieldIndicator := false }

/-- The loop of `write_buffer`. The counter is back at zero behind the last
packet of a field, so the loop runs on into the next field. -/
def writeBuffer : (lengthInStrides : Nat) → SendingStatistics →
    List RtpHeader × SendingStatistics
  | 0, st => ([], st)
  | lengthInStrides + 1, st =>
    if st.packetCounter < m.packetsInFrameField then
      let rest := writeBuffer lengthInStrides (updateInFrameState m st)
      (buildRtpHeader m st :: rest.1, rest.2)
    else ([], st)

/-! ## Calls -/

inductive WriterCall
  | setNextFrame
  | writeBuffer (lengthInStrides : Nat)
  deriving DecidableEq, Repr

def runCall (call : WriterCall) (st : SendingStatistics) : List RtpHeader × SendingStatistics :=
  match call with
  | .setNextFrame => ([], resetInFrameState st)
  | .writeBuffer lengthInStrides => writeBuffer m lengthInStrides st

def runCalls : List WriterCall → SendingStatistics → List RtpHeader × SendingStatistics
  | [], st => ([], st)
  | call :: calls, st =>
    let first := runCall m call st
    let rest := runCalls calls first.2
    (first.1 ++ rest.1, rest.2)

/-- Frames are set at field boundaries only. The lengths of the writes are
free. -/
def FramesAtBoundaries : List WriterCall → SendingStatistics → Prop
  | [], _ => True
  | call :: calls, st =>
    (call = .setNextFrame → st.packetCounter = 0) ∧ FramesAtBoundaries calls (runCall m call st).2

def WriterCall.lengthInStrides : WriterCall → Nat
  | .setNextFrame => 0
  | .writeBuffer lengthInStrides => lengthInStrides

/-- The packets the calls ask for. -/
def packetsAsked (calls : List WriterCall) : Nat := (calls.map WriterCall.lengthInStrides).sum

/-- `Inv` holds behind `sent` packets from packet to packet, and packet `k` has the
header `law k` asks for. -/
structure Keeps (Inv : Nat → SendingStatistics → Prop) (law : Nat → RtpHeader → Prop) : Prop where
  more : ∀ {sent st}, Inv sent st → st.packetCounter < m.packetsInFrameField
  header : ∀ {sent st}, Inv sent st → law sent (buildRtpHeader m st)
  update : ∀ {sent st}, Inv sent st → Inv (sent + 1) (updateInFrameState m st)
  reset : ∀ {sent st}, Inv sent st → st.packetCounter = 0 → Inv sent (resetInFrameState st)

section Runs

variable {m} {Inv : Nat → SendingStatistics → Prop} {law : Nat → RtpHeader → Prop}

/-- One call of `write_buffer`: all its headers, and the state behind it. -/
theorem Keeps.writeBuffer (h : Keeps m Inv law) (n : Nat) :
    ∀ {sent : Nat} {st : SendingStatistics}, Inv sent st →
      (writeBuffer m n st).1.length = n ∧
        (∀ i header, (writeBuffer m n st).1[i]? = some header → law (sent + i) header) ∧
        Inv (sent + n) (writeBuffer m n st).2 := by
  induction n with
  | zero => exact fun hInv => ⟨rfl, nofun, hInv⟩
  | succ n ih =>
    intro sent st hInv
    obtain ⟨hLength, hRest, hFinal⟩ := ih (h.update hInv)
    unfold RtpVideoBufferWriter.writeBuffer
    rw [if_pos (h.more hInv)]
    refine ⟨congrArg (· + 1) hLength, ?_, ?_⟩
    · intro i header hAt
      cases i with
      | zero =>
        obtain rfl := Option.some.inj hAt
        exact h.header hInv
      | succ i =>
        rw [Nat.add_comm i, ← Nat.add_assoc]
        exact hRest i header hAt
    · rw [Nat.add_comm n, ← Nat.add_assoc]
      exact hFinal

theorem Keeps.runCall (h : Keeps m Inv law) {call : WriterCall} {sent : Nat}
    {st : SendingStatistics} (hInv : Inv sent st)
    (hBoundary : call = .setNextFrame → st.packetCounter = 0) :
    (runCall m call st).1.length = call.lengthInStrides ∧
      (∀ i header, (runCall m call st).1[i]? = some header → law (sent + i) header) ∧
      Inv (sent + call.lengthInStrides) (runCall m call st).2 := by
  cases call with
  | setNextFrame => exact ⟨rfl, nofun, h.reset hInv (hBoundary rfl)⟩
  | writeBuffer n => exact h.writeBuffer n hInv

/-- A run of calls, from any point of a stream. -/
theorem Keeps.runCalls (h : Keeps m Inv law) (calls : List WriterCall) :
    ∀ {sent : Nat} {st : SendingStatistics}, Inv sent st → FramesAtBoundaries m calls st →
      (runCalls m calls st).1.length = packetsAsked calls ∧
        ∀ i header, (runCalls m calls st).1[i]? = some header → law (sent + i) header := by
  induction calls with
  | nil => exact fun _ _ => ⟨rfl, nofun⟩
  | cons call calls ih =>
    intro sent st hInv hCalls
    obtain ⟨hBoundary, hRestCalls⟩ := hCalls
    obtain ⟨hLength, hHeaders, hFinal⟩ := h.runCall hInv hBoundary
    obtain ⟨hRestLength, hRest⟩ := ih hFinal hRestCalls
    constructor
    · show ((RtpVideoBufferWriter.runCall m call st).1 ++ _).length = packetsAsked (call :: calls)
      rw [List.length_append, hLength, hRestLength, packetsAsked, packetsAsked, List.map_cons,
        List.sum_cons]
    · intro i header hAt
      have hSplit : ((RtpVideoBufferWriter.runCall m call st).1 ++
          (RtpVideoBufferWriter.runCalls m calls
            (RtpVideoBufferWriter.runCall m call st).2).1)[i]? = some header := hAt
      -- the header is of this call, or of a later one
      by_cases hFirst : i < call.lengthInStrides
      · rw [List.getElem?_append_left (hLength ▸ hFirst)] at hSplit
        exact hHeaders i header hSplit
      · rw [List.getElem?_append_right (by omega), hLength] at hSplit
        have hLater := hRest _ header hSplit
        rwa [Nat.add_assoc, Nat.add_sub_cancel' (by omega)] at hLater

end Runs

/-! ## Numbers and timestamps -/

/-- The counter and the timestamp behind `sent` packets of a stream that began
with timestamp `t0`: they do not depend on how packets tile lines. -/
structure Timed (t0 sent : Nat) (st : SendingStatistics) : Prop where
  counter : st.packetCounter = sent % m.packetsInFrameField
  timestamp : st.rtpTimestamp = (t0 + sent / m.packetsInFrameField * ticks m) % 2 ^ 32

/-- Nor does the sequence number, from `s0` on. -/
structure Numbered (s0 t0 sent : Nat) (st : SendingStatistics) : Prop
    extends Timed m t0 sent st where
  sequence : st.rtpSequence = (s0 + sent) % 2 ^ 32

/-- The numbers, the timestamp and the marker of packet `j` of field `n` of a stream
that began with sequence number `s0` and timestamp `t0`. -/
structure NumberLaw (m : MediaSettings) (s0 t0 n j : Nat) (header : RtpHeader) : Prop where
  sequence : header.sequence = (s0 + (n * m.packetsInFrameField + j)) % 2 ^ 32 % 2 ^ 16
  extendedSequence :
    header.extendedSequence = (s0 + (n * m.packetsInFrameField + j)) % 2 ^ 32 / 2 ^ 16
  timestamp : header.timestamp = (t0 + n * ticks m) % 2 ^ 32
  marker : header.marker = true ↔ j + 1 = m.packetsInFrameField

section Numbered

variable {m} {s0 t0 sent : Nat} {st : SendingStatistics}

theorem timed_updateInFrameState (hPackets : 0 < m.packetsInFrameField)
    (h : Timed m t0 sent st) : Timed m t0 (sent + 1) (updateInFrameState m st) := by
  have hj := Nat.mod_lt sent hPackets
  constructor
  · show (if st.packetCounter + 1 = _ then 0 else _) = _
    rw [WrapCounter.succ_mod_eq hj, h.counter]
  -- the timestamp moves on with the field
  · show (if st.packetCounter + 1 = _ then _ else _) = _
    rw [WrapCounter.succ_div_eq hj, h.counter, h.timestamp]
    split
    · rw [Nat.mod_add_mod, Nat.succ_mul, Nat.add_assoc]
    · rfl

/-- A new frame at a field boundary. -/
theorem timed_resetInFrameState (h : Timed m t0 sent st)
    (hBoundary : m.packetsInFrameField ∣ sent) : Timed m t0 sent (resetInFrameState st) :=
  ⟨(Nat.mod_eq_zero_of_dvd hBoundary).symm, h.timestamp⟩

theorem Timed.counter_lt (hPackets : 0 < m.packetsInFrameField) (h : Timed m t0 sent st) :
    st.packetCounter < m.packetsInFrameField := by
  rw [h.counter]
  exact Nat.mod_lt sent hPackets

theorem Timed.dvd_of_counter (h : Timed m t0 sent st) (hBoundary : st.packetCounter = 0) :
    m.packetsInFrameField ∣ sent :=
  Nat.dvd_of_mod_eq_zero (h.counter.symm.trans hBoundary)

theorem timed_keeps (hPackets : 0 < m.packetsInFrameField) (t0 : Nat) :
    Keeps m (Timed m t0) fun k header =>
      header.timestamp = (t0 + k / m.packetsInFrameField * ticks m) % 2 ^ 32 where
  more h := h.counter_lt hPackets
  header h := h.timestamp
  update h := timed_updateInFrameState hPackets h
  reset h hBoundary := timed_resetInFrameState h (h.dvd_of_counter hBoundary)

/-- The timestamps of one call. -/
theorem timed_writeBuffer (hPackets : 0 < m.packetsInFrameField) (n : Nat)
    (h : Timed m t0 sent st) :
    (writeBuffer m n st).1.map RtpHeader.timestamp = (List.range n).map (fun i =>
        (t0 + (sent + i) / m.packetsInFrameField * ticks m) % 2 ^ 32) ∧
      Timed m t0 (sent + n) (writeBuffer m n st).2 := by
  obtain ⟨hLength, hHeaders, hFinal⟩ := (timed_keeps hPackets t0).writeBuffer n h
  refine ⟨List.ext_getElem (by simp [hLength]) fun i hi _ => ?_, hFinal⟩
  rw [List.getElem_map, List.getElem_map, List.getElem_range]
  exact hHeaders i _ (List.getElem?_eq_getElem (by simpa using hi))

/-- Numbers, timestamps and markers of a stream, whatever its lines are. -/
theorem numbered_keeps (hPackets : 0 < m.packetsInFrameField) (s0 t0 : Nat) :
    Keeps m (Numbered m s0 t0) fun k =>
      NumberLaw m s0 t0 (k / m.packetsInFrameField) (k % m.packetsInFrameField) where
  more h := h.counter_lt hPackets
  header {sent st} h := by
    have hSent : sent / m.packetsInFrameField * m.packetsInFrameField +
        sent % m.packetsInFrameField = sent := Nat.div_add_mod' _ _
    refine ⟨?_, ?_, h.timestamp, ?_⟩
    · show st.rtpSequence % 2 ^ 16 = _
      rw [hSent, h.sequence]
    · show st.rtpSequence / 2 ^ 16 = _
      rw [hSent, h.sequence]
    · rw [marker_buildRtpHeader, h.counter, decide_eq_true_iff]
  update {sent st} h := by
    refine ⟨timed_updateInFrameState hPackets h.toTimed, ?_⟩
    show (st.rtpSequence + 1) % 2 ^ 32 = _
    rw [h.sequence, Nat.mod_add_mod, Nat.add_assoc]
  reset h hBoundary :=
    ⟨timed_resetInFrameState h.toTimed (h.dvd_of_counter hBoundary), h.sequence⟩

/-- Nothing has been sent at the start. -/
theorem numbered_start (m : MediaSettings) (s0 t0 : UInt32) :
    Numbered m s0.toNat t0.toNat 0 { rtpSequence := s0.toNat, rtpTimestamp := t0.toNat } := by
  refine ⟨⟨(Nat.zero_mod _).symm, ?_⟩, (Nat.mod_eq_of_lt s0.toNat_lt).symm⟩
  rw [Nat.zero_div, Nat.zero_mul, Nat.add_zero]
  exact (Nat.mod_eq_of_lt t0.toNat_lt).symm

end Numbered

/-! ## Closed form -/

/-- Settings whose packets tile a line and whose lines tile a field. -/
structure Tiled : Prop where
  line : m.packetsInLine * m.pixelsPerPacket = m.resolution.width.toNat
  field : m.packetsInFrameField = m.linesInFrameField * m.packetsInLine
  lines_le : m.linesInFrameField ≤ 2 ^ 16

/-- The state behind `sent` packets of a stream that began with sequence number
`s0` and timestamp `t0`. -/
structure Written (s0 t0 sent : Nat) (st : SendingStatistics) : Prop
    extends Numbered m s0 t0 sent st where
  line : st.lineNumber = sent % m.packetsInFrameField / m.packetsInLine
  offset : st.srdOffset = sent % m.packetsInFrameField % m.packetsInLine * m.pixelsPerPacket
  field : m.videoScanType ≠ .Interlaced → st.rtpInterlaceFieldIndicator = false

/-- The header of packet `j` of field `n` of a stream that began with sequence
number `s0` and timestamp `t0`. -/
structure HeaderLaw (m : MediaSettings) (s0 t0 n j : Nat) (header : RtpHeader) : Prop
    extends NumberLaw m s0 t0 n j header where
  row : header.row = j / m.packetsInLine % 2 ^ 15
  offset : header.offset = j % m.packetsInLine * m.pixelsPerPacket % 2 ^ 15
  field : m.videoScanType ≠ .Interlaced → header.field = false

section Steps

variable {m} {s0 t0 sent : Nat} {st : SendingStatistics}

/-- The line of the next packet: position and count of the rows of a field. -/
theorem line_step {lines perLine j : Nat} (hj : j < lines * perLine) (hLines : lines ≤ 2 ^ 16) :
    (if (j + 1) % perLine = 0 then (j / perLine + 1) % lines % 2 ^ 16 else j / perLine) =
      if j + 1 = lines * perLine then 0 else (j + 1) / perLine := by
  have hPer : 0 < perLine := Nat.pos_of_ne_zero fun h => by simp [h] at hj
  have hRow : j % perLine < perLine := Nat.mod_lt _ hPer
  have hDiv := WrapCounter.succ_div_eq hRow
  have hMod := WrapCounter.succ_mod_eq hRow
  have hBelow : j / perLine < lines := Nat.div_lt_of_lt_mul (by rwa [Nat.mul_comm] at hj)
  by_cases hLast : j % perLine + 1 = perLine
  · rw [if_pos hLast] at hDiv hMod
    rw [if_pos hMod]
    by_cases hEnd : j + 1 = lines * perLine
    -- the last row of the field is followed by the first
    · have hRows : j / perLine + 1 = lines := by
        rw [← hDiv, hEnd, Nat.mul_div_cancel _ hPer]
      rw [if_pos hEnd, hRows, Nat.mod_self]
      rfl
    -- a row is complete, and another one follows
    · have hMore : j / perLine + 1 < lines := by
        rw [← hDiv]
        exact Nat.div_lt_of_lt_mul (by rw [Nat.mul_comm]; omega)
      rw [if_neg hEnd, hDiv, Nat.mod_eq_of_lt hMore, Nat.mod_eq_of_lt (by omega)]
  · rw [if_neg hLast] at hDiv hMod
    -- within a row the field cannot end
    have hInside : j + 1 ≠ lines * perLine := by
      intro hEnd
      rw [hEnd, Nat.mul_mod_left] at hMod
      omega
    rw [if_neg (by omega), if_neg hInside, hDiv]

/-- The offset of the next packet: the packets of a row, and the width of all. -/
theorem offset_step {lines perLine pixels j : Nat} (hj : j < lines * perLine) :
    (j % perLine * pixels + pixels) % (perLine * pixels) =
      (if j + 1 = lines * perLine then 0 else j + 1) % perLine * pixels := by
  have hPer : 0 < perLine := Nat.pos_of_ne_zero fun h => by simp [h] at hj
  have hMod := WrapCounter.succ_mod_eq (Nat.mod_lt j hPer)
  rw [← Nat.succ_mul, Nat.mul_mod_mul_right, Nat.succ_eq_add_one]
  congr 1
  -- the pixels go around with the packets of a row
  have hNext : (j % perLine + 1) % perLine = (j + 1) % perLine := Nat.mod_add_mod _ _ _
  rw [hNext]
  split
  · rename_i hEnd
    rw [hEnd, Nat.mul_mod_left, Nat.zero_mod]
  · rfl

/-- One packet moves the closed form on by one. -/
theorem written_updateInFrameState (hTiled : Tiled m) (hPackets : 0 < m.packetsInFrameField)
    (h : Written m s0 t0 sent st) : Written m s0 t0 (sent + 1) (updateInFrameState m st) := by
  have hj := Nat.mod_lt sent hPackets
  have hNext := WrapCounter.succ_mod_eq hj
  refine ⟨(numbered_keeps hPackets s0 t0).update h.toNumbered, ?_, ?_, ?_⟩
  · show (if (st.packetCounter + 1) % _ = 0 then _ else _) = _
    rw [h.counter, h.line, hNext]
    rw [hTiled.field] at hj ⊢
    -- the row of the next packet
    rw [line_step hj hTiled.lines_le]
    split
    · rw [Nat.zero_div]
    · rfl
  · show (st.srdOffset + m.pixelsPerPacket) % _ = _
    rw [h.offset, hNext, ← hTiled.line]
    rw [hTiled.field] at hj ⊢
    -- and its offset in the row
    exact offset_step hj
  · intro hScan
    show (if _ ∧ m.videoScanType = .Interlaced then _ else _) = false
    rw [if_neg (fun hBoth => hScan hBoth.2), h.field hScan]

/-- A new frame at a field boundary resets what is at its start already. -/
theorem written_resetInFrameState (h : Written m s0 t0 sent st) (hBoundary : st.packetCounter = 0) :
    Written m s0 t0 sent (resetInFrameState st) := by
  have hZero : sent % m.packetsInFrameField = 0 := h.counter.symm.trans hBoundary
  refine ⟨⟨⟨hZero.symm, h.timestamp⟩, h.sequence⟩, ?_, ?_, fun _ => rfl⟩
  · show 0 = _
    rw [hZero, Nat.zero_div]
  · show 0 = _
    rw [hZero, Nat.zero_mod, Nat.zero_mul]

theorem header_of_written (hTiled : Tiled m) (hPackets : 0 < m.packetsInFrameField)
    (h : Written m s0 t0 sent st) :
    HeaderLaw m s0 t0 (sent / m.packetsInFrameField) (sent % m.packetsInFrameField)
      (buildRtpHeader m st) := by
  -- the row is one of the field already
  have hRow : st.lineNumber % m.linesInFrameField = st.lineNumber := by
    apply Nat.mod_eq_of_lt
    rw [h.line]
    apply Nat.div_lt_of_lt_mul
    rw [Nat.mul_comm, ← hTiled.field]
    exact Nat.mod_lt sent hPackets
  refine ⟨(numbered_keeps hPackets s0 t0).header h.toNumbered, ?_, ?_, ?_⟩
  · rw [row_buildRtpHeader, hRow, h.line]
  · show st.srdOffset % 2 ^ 15 % 2 ^ 15 = _
    rw [Nat.mod_mod, h.offset]
  · intro hScan
    rw [field_buildRtpHeader, h.field hScan]

theorem written_keeps (hTiled : Tiled m) (hPackets : 0 < m.packetsInFrameField) (s0 t0 : Nat) :
    Keeps m (Written m s0 t0) fun k =>
      HeaderLaw m s0 t0 (k / m.packetsInFrameField) (k % m.packetsInFrameField) where
  more h := h.counter_lt hPackets
  header h := header_of_written hTiled hPackets h
  update h := written_updateInFrameState hTiled hPackets h
  reset h hBoundary := written_resetInFrameState h hBoundary

end Steps

/-- **Header law.** For settings whose packets tile a line and whose lines tile
a field, from any initial sequence number and timestamp, and however the stream
is cut into calls: every packet asked for is written, and packet `j` of field `n`
has the header of `HeaderLaw`. -/
theorem header_law (hTiled : Tiled m) (hDivisors : DivisorsPositive m) (s0 t0 : UInt32)
    {calls : List WriterCall}
    (hCalls : FramesAtBoundaries m calls { rtpSequence := s0.toNat, rtpTimestamp := t0.toNat }) :
    let headers := (runCalls m calls { rtpSequence := s0.toNat, rtpTimestamp := t0.toNat }).1
    headers.length = packetsAsked calls ∧
      ∀ n j, j < m.packetsInFrameField → n * m.packetsInFrameField + j < packetsAsked calls →
        ∃ header, headers[n * m.packetsInFrameField + j]? = some header ∧
          HeaderLaw m s0.toNat t0.toNat n j header := by
  have hPackets : 0 < m.packetsInFrameField := by
    rw [hTiled.field]
    exact Nat.mul_pos hDivisors.linesInFrameField hDivisors.packetsInLine
  have hStart : Written m s0.toNat t0.toNat 0
      { rtpSequence := s0.toNat, rtpTimestamp := t0.toNat } := by
    refine ⟨numbered_start m s0 t0, ?_, ?_, fun _ => rfl⟩
    · rw [Nat.zero_mod, Nat.zero_div]
    · rw [Nat.zero_mod, Nat.zero_mod, Nat.zero_mul]
  obtain ⟨hLength, hHeaders⟩ :=
    (written_keeps hTiled hPackets s0.toNat t0.toNat).runCalls calls hStart hCalls
  refine ⟨hLength, fun n j hj hAsked => ?_⟩
  have hAt := List.getElem?_eq_getElem (hLength ▸ hAsked)
  refine ⟨_, hAt, ?_⟩
  have hLaw := hHeaders _ _ hAt
  have hField : (n * m.packetsInFrameField + j) / m.packetsInFrameField = n := by
    rw [Nat.mul_comm, Nat.mul_add_div hPackets, Nat.div_eq_of_lt hj, Nat.add_zero]
  have hPacket : (n * m.packetsInFrameField + j) % m.packetsInFrameField = j := by
    rw [Nat.mul_comm, Nat.mul_add_mod, Nat.mod_eq_of_lt hj]
  rwa [Nat.zero_add, hField, hPacket] at hLaw

/-- Full HD in two calls. -/
theorem header_law_fullHd :
    ∃ app', initializeCommonMediaSettings (fullHd ⟨25, 1⟩ .Progressive) = some app' ∧
      (runCalls app'.media [.writeBuffer 3, .writeBuffer 2] { rtpSequence := 7 }).1.length = 5 ∧
      ∃ header,
        (runCalls app'.media [.writeBuffer 3, .writeBuffer 2] { rtpSequence := 7 }).1[3]? =
          some header ∧
        HeaderLaw app'.media 7 0 0 3 header := by
  have hLaw := @header_law (commonMediaSettings (fullHd ⟨25, 1⟩ .Progressive) 5 2).media
    ⟨by decide, by decide, by decide⟩ ⟨by decide, by decide, by decide⟩ 7 0
    [.writeBuffer 3, .writeBuffer 2] ⟨nofun, nofun, trivial⟩
  exact ⟨_, rfl, hLaw.1, hLaw.2 0 3 (by decide) (by decide)⟩

/-- A line of 60000 pixels: the seventieth packet starts behind pixel 2 ^ 15. -/
theorem wide_line_offset :
    ∃ app', initializeCommonMediaSettings
        { media := { frameRate := ⟨25, 1⟩, resolution := ⟨60000, 1⟩ } } = some app' ∧
      Tiled app'.media ∧ DivisorsPositive app'.media ∧
      ∃ header,
        (runCalls app'.media [.setNextFrame, .writeBuffer 125] {}).1[69]? = some header ∧
        header.offset = 352 ∧
          69 % app'.media.packetsInLine * app'.media.pixelsPerPacket = 33120 := by
  refine ⟨_, rfl, ⟨by decide, by decide, by decide⟩, ⟨by decide, by decide, by decide⟩, _, rfl, ?_⟩
  decide +kernel

end RtpVideoBufferWriter

end RivermaxDevKit
