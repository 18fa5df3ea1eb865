import RivermaxDevKit.Rtp.BufferWriter
import RivermaxDevKit.Rtp.VideoSendStream

/-!
# States of the header generators

The state of each ST 2110-20 header generator before its `i`-th packet, in
closed form, when all chunks have one length.

* `prepareChunks_at` — packets of `RtpVideoSendStream`, whose lines advance with
  the strides of a chunk.
* `runWrites_at` — packets of `RTPVideoMockBufferWriter`, whose lines advance
  with the packets of a field.
-/

namespace RivermaxDevKit

open WrapCounter

/-- The second field of an interlaced frame. -/
def secondField (m : MediaSettings) (i : Nat) : Bool :=
  decide (m.videoScanType = .Interlaced ∧ i / m.packetsInFrameField % 2 = 1)

/-- The field indicator changes behind the last packet of an interlaced field. -/
theorem secondField_succ {m : MediaSettings} (hPackets : 0 < m.packetsInFrameField) (i : Nat) :
    secondField m (i + 1) =
      if i % m.packetsInFrameField + 1 = m.packetsInFrameField ∧ m.videoScanType = .Interlaced then
        !secondField m i
      else secondField m i := by
  unfold secondField
  rw [succ_div_eq (Nat.mod_lt _ hPackets)]
  by_cases hLast : i % m.packetsInFrameField + 1 = m.packetsInFrameField
  · by_cases hScan : m.videoScanType = .Interlaced
    · rw [if_pos hLast, if_pos ⟨hLast, hScan⟩]
      simp only [hScan, true_and, odd_succ]
    · -- a progressive stream has no second fields
      simp [hScan]
  · have hBoth : ¬ (i % m.packetsInFrameField + 1 = m.packetsInFrameField ∧
        m.videoScanType = .Interlaced) := fun h => hLast h.1
    rw [if_neg hLast, if_neg hBoth]

/-- The ends of lines of `L` packets in the first `i` packets, counted with the
strides of chunks of `C` packets that start over with every field of `P`. -/
def chunkLines (L C P i : Nat) : Nat := i / P * marks L C P + marks L C (i % P)

/-! ## Send stream -/

namespace RtpVideoSendStream

variable (c : MediaStreamSettings) (chunkLength s0 t0 : Nat)

/-- The offset of packet `i`: it goes around with the packets of a line. -/
def offsetOf : Nat → Nat
  | 0 => 0
  | i + 1 => (offsetOf i + groupSize c) % (groupSize c * c.mediaSettings.packetsInLine) % 2 ^ 16

/-- The lines counted before packet `i`, in chunks of `chunkLength`. -/
def linesBefore (i : Nat) : Nat :=
  chunkLines c.mediaSettings.packetsInLine chunkLength c.mediaSettings.packetsInFrameField i

/-- The state before packet `i`. -/
def preparedState (i : Nat) : SendingStatistics where
  packetCounter := i % c.mediaSettings.packetsInFrameField
  rtpSequence := (s0 + i) % 2 ^ 32
  rtpTimestamp := fieldTimestamp c t0 i
  rtpInterlaceFieldIndicator := secondField c.mediaSettings i
  lineNumber := linesBefore c chunkLength i % c.mediaSettings.resolution.height.toNat
  srdOffset := offsetOf c i

def preparedHeader (i : Nat) : RtpHeader :=
  (build211020RtpHeader c (preparedState c chunkLength s0 t0 i)).1

section Steps

variable {c chunkLength} {i : Nat}

theorem linesBefore_succ (hPackets : 0 < c.mediaSettings.packetsInFrameField)
    (hChunk : 0 < chunkLength) (i : Nat) :
    linesBefore c chunkLength (i + 1) = linesBefore c chunkLength i +
      if (i % c.mediaSettings.packetsInFrameField % chunkLength + 1) %
        c.mediaSettings.packetsInLine = 0 then 1 else 0 := by
  have hPlace := Nat.mod_lt i hPackets
  have hStep := marks_succ hChunk c.mediaSettings.packetsInLine
    (i % c.mediaSettings.packetsInFrameField)
  unfold linesBefore chunkLines
  rw [succ_div_eq hPlace, succ_mod_eq hPlace]
  by_cases hLast : i % c.mediaSettings.packetsInFrameField + 1 =
      c.mediaSettings.packetsInFrameField
  · -- the lines of the field are complete
    rw [hLast] at hStep
    rw [if_pos hLast, if_pos hLast, marks_zero, Nat.succ_mul, Nat.add_zero, hStep, Nat.add_assoc]
  · rw [if_neg hLast, if_neg hLast, hStep, Nat.add_assoc]

/-- The state a stride leaves, up to the counter that reaches the end of a field. -/
theorem stride_preparedState (hPackets : 0 < c.mediaSettings.packetsInFrameField)
    (hChunk : 0 < chunkLength) {stride : Nat}
    (hStride : i % c.mediaSettings.packetsInFrameField % chunkLength = stride) :
    (if (stride + 1) % c.mediaSettings.packetsInLine = 0 then
      { (build211020RtpHeader c (preparedState c chunkLength s0 t0 i)).2 with
        lineNumber :=
          ((build211020RtpHeader c (preparedState c chunkLength s0 t0 i)).2.lineNumber + 1) %
            c.mediaSettings.resolution.height.toNat }
      else (build211020RtpHeader c (preparedState c chunkLength s0 t0 i)).2) =
      { preparedState c chunkLength s0 t0 (i + 1) with
        packetCounter := i % c.mediaSettings.packetsInFrameField + 1 } := by
  have hPlace := Nat.mod_lt i hPackets
  have hLine := linesBefore_succ hPackets hChunk i
  have hField := secondField_succ hPackets i
  have hTime := @RtpVideoSendStream.fieldTimestamp_succ c t0 i _ (Nat.mod_mod i _) hPlace
  have hSequence : ((s0 + i) % 2 ^ 32 + 1) % 2 ^ 32 = (s0 + (i + 1)) % 2 ^ 32 := by
    rw [Nat.mod_add_mod, Nat.add_assoc]
  have hWrap : (linesBefore c chunkLength i % c.mediaSettings.resolution.height.toNat + 1) %
      c.mediaSettings.resolution.height.toNat =
        (linesBefore c chunkLength i + 1) % c.mediaSettings.resolution.height.toNat :=
    Nat.mod_add_mod _ _ _
  rw [hStride] at hLine
  -- the stride ends a line, or does not
  by_cases hRow : (stride + 1) % c.mediaSettings.packetsInLine = 0
  · rw [if_pos hRow] at hLine ⊢
    unfold build211020RtpHeader preparedState isLastPacket
    rw [hTime, hField, hLine, ← hSequence, ← hWrap]
    rfl
  · rw [if_neg hRow, Nat.add_zero] at hLine
    rw [if_neg hRow]
    unfold build211020RtpHeader preparedState isLastPacket
    rw [hTime, hField, hLine, ← hSequence]
    rfl

/-- What `n` packets from packet `i` on leave behind, at the end of a chunk. -/
structure PreparedFrom (c : MediaStreamSettings) (chunkLength s0 t0 i n : Nat)
    (prepared : List RtpHeader × SendingStatistics) : Prop where
  headers : prepared.1 = (List.range n).map fun k => preparedHeader c chunkLength s0 t0 (i + k)
  state : { prepared.2 with
    packetCounter := prepared.2.packetCounter % c.mediaSettings.packetsInFrameField } =
      preparedState c chunkLength s0 t0 (i + n)
  position : (i + n) % c.mediaSettings.packetsInFrameField % chunkLength = 0

theorem PreparedFrom.cons {s0 t0 n : Nat} {rest : List RtpHeader × SendingStatistics}
    (h : PreparedFrom c chunkLength s0 t0 (i + 1) n rest) :
    PreparedFrom c chunkLength s0 t0 i (n + 1)
      (preparedHeader c chunkLength s0 t0 i :: rest.1, rest.2) := by
  refine ⟨?_, ?_, ?_⟩
  · rw [List.range_succ_eq_map, List.map_cons, List.map_map]
    refine congrArg₂ List.cons rfl (h.headers.trans ?_)
    apply List.map_congr_left
    intro k _
    show preparedHeader c chunkLength s0 t0 (i + 1 + k) =
      preparedHeader c chunkLength s0 t0 (i + (k + 1))
    rw [Nat.add_assoc, Nat.add_comm 1]
  · rw [Nat.add_comm n, ← Nat.add_assoc]
    exact h.state
  · rw [Nat.add_comm n, ← Nat.add_assoc]
    exact h.position

/-- The strides of a chunk up to its end or the end of the field. -/
theorem prepareStrides_preparedState (hPackets : 0 < c.mediaSettings.packetsInFrameField)
    (hChunk : 0 < chunkLength) (remaining : Nat) : ∀ (stride i : Nat),
      stride + remaining = chunkLength →
      i % c.mediaSettings.packetsInFrameField % chunkLength = stride % chunkLength →
      ∃ n, (0 < remaining → 0 < n) ∧ PreparedFrom c chunkLength s0 t0 i n
        (prepareStrides c remaining stride (preparedState c chunkLength s0 t0 i)) := by
  induction remaining with
  | zero =>
    intro stride i hLength hStride
    obtain rfl : stride = chunkLength := hLength
    refine ⟨0, fun h => h, rfl, ?_, ?_⟩
    · show ({ preparedState c stride s0 t0 i with
        packetCounter := i % c.mediaSettings.packetsInFrameField %
          c.mediaSettings.packetsInFrameField } : SendingStatistics) = _
      rw [Nat.mod_mod]
      rfl
    · rw [Nat.add_zero, hStride, Nat.mod_self]
  | succ remaining ih =>
    intro stride i hLength hStride
    rw [Nat.mod_eq_of_lt (by omega : stride < chunkLength)] at hStride
    have hPlace := Nat.mod_lt i hPackets
    -- the body of the loop, with the state it leaves in closed form
    have hUnfold : prepareStrides c (remaining + 1) stride (preparedState c chunkLength s0 t0 i) =
        (preparedHeader c chunkLength s0 t0 i ::
            (prepareStrides c remaining (stride + 1)
              { preparedState c chunkLength s0 t0 (i + 1) with
                packetCounter := i % c.mediaSettings.packetsInFrameField + 1 }).1,
          (prepareStrides c remaining (stride + 1)
            { preparedState c chunkLength s0 t0 (i + 1) with
              packetCounter := i % c.mediaSettings.packetsInFrameField + 1 }).2) := by
      rw [← stride_preparedState s0 t0 hPackets hChunk hStride]
      exact if_pos hPlace
    have hNext := succ_mod_eq hPlace
    rw [hUnfold]
    by_cases hLast : i % c.mediaSettings.packetsInFrameField + 1 =
        c.mediaSettings.packetsInFrameField
    · rw [if_pos hLast] at hNext
      refine ⟨1, fun _ => Nat.one_pos, PreparedFrom.cons ?_⟩
      -- the counter at its limit ends the chunk
      have hEnd : prepareStrides c remaining (stride + 1)
          { preparedState c chunkLength s0 t0 (i + 1) with
            packetCounter := i % c.mediaSettings.packetsInFrameField + 1 } =
          ([], { preparedState c chunkLength s0 t0 (i + 1) with
            packetCounter := i % c.mediaSettings.packetsInFrameField + 1 }) := by
        cases remaining with
        | zero => rfl
        | succ remaining => exact if_neg (by show ¬ _ + 1 < _; omega)
      rw [hEnd]
      refine ⟨rfl, ?_, ?_⟩
      · show ({ preparedState c chunkLength s0 t0 (i + 1) with
          packetCounter := (i % c.mediaSettings.packetsInFrameField + 1) %
            c.mediaSettings.packetsInFrameField } : SendingStatistics) =
              preparedState c chunkLength s0 t0 (i + 1)
        rw [hLast, Nat.mod_self, ← hNext]
        rfl
      · rw [Nat.add_zero, hNext, Nat.zero_mod]
    · rw [if_neg hLast] at hNext
      -- within a field the counter is the place of the packet
      have hState : ({ preparedState c chunkLength s0 t0 (i + 1) with
          packetCounter := i % c.mediaSettings.packetsInFrameField + 1 } : SendingStatistics) =
            preparedState c chunkLength s0 t0 (i + 1) := by
        rw [← hNext]
        rfl
      have hStride' : (i + 1) % c.mediaSettings.packetsInFrameField % chunkLength =
          (stride + 1) % chunkLength := by
        rw [hNext, Nat.add_mod, hStride, Nat.add_mod_mod]
      obtain ⟨n, -, hRest⟩ := ih (stride + 1) (i + 1) (by omega) hStride'
      rw [hState]
      exact ⟨n + 1, fun _ => Nat.succ_pos n, hRest.cons⟩

/-- Chunk after chunk: at least a packet each, and all in closed form. -/
theorem prepareChunks_preparedState (hPackets : 0 < c.mediaSettings.packetsInFrameField)
    (hChunk : 0 < chunkLength) (calls : Nat) : ∀ (i : Nat),
      i % c.mediaSettings.packetsInFrameField % chunkLength = 0 →
      ∃ n, calls ≤ n ∧
        (prepareChunks c (List.replicate calls chunkLength)
          (preparedState c chunkLength s0 t0 i)).1 =
            (List.range n).map fun k => preparedHeader c chunkLength s0 t0 (i + k) := by
  induction calls with
  | zero => exact fun i _ => ⟨0, Nat.le_refl _, rfl⟩
  | succ calls ih =>
    intro i hStart
    obtain ⟨n, hSome, hHeaders, hFinal, hPosition⟩ :=
      prepareStrides_preparedState s0 t0 hPackets hChunk chunkLength 0 i
        (Nat.zero_add _) (hStart.trans (Nat.zero_mod _).symm)
    -- the next chunk starts where this one ends
    obtain ⟨rest, hCalls, hRest⟩ := ih (i + n) hPosition
    refine ⟨n + rest, by have := hSome hChunk; omega, ?_⟩
    rw [List.replicate_succ]
    show (prepareStrides c chunkLength 0 _).1 ++ (prepareChunks c _ _).1 = _
    rw [show (prepareChunkToSend c chunkLength (preparedState c chunkLength s0 t0 i)).2 = _ from
      hFinal, hHeaders, hRest, List.range_add, List.map_append, List.map_map]
    congr 1
    apply List.map_congr_left
    intro k _
    show preparedHeader c chunkLength s0 t0 (i + n + k) =
      preparedHeader c chunkLength s0 t0 (i + (n + k))
    rw [Nat.add_assoc]

end Steps

/-- **Packets of the send stream.** In chunks of one length, packet `i` has the
header of its state; every chunk has at least one packet. -/
theorem prepareChunks_at {calls : Nat} (hPackets : 0 < c.mediaSettings.packetsInFrameField)
    (hChunk : 0 < chunkLength) (hSequence : s0 < 2 ^ 32) (hTimestamp : t0 < 2 ^ 32) :
    let headers := (prepareChunks c (List.replicate calls chunkLength)
      { rtpSequence := s0, rtpTimestamp := t0 }).1
    calls ≤ headers.length ∧
      ∀ i header, headers[i]? = some header → header = preparedHeader c chunkLength s0 t0 i := by
  -- the state before the first packet
  have hStart : preparedState c chunkLength s0 t0 0 =
      { rtpSequence := s0, rtpTimestamp := t0 } := by
    unfold preparedState secondField linesBefore chunkLines fieldTimestamp offsetOf
    simp [marks_zero]
    exact ⟨hSequence, hTimestamp⟩
  obtain ⟨n, hCalls, hHeaders⟩ :=
    prepareChunks_preparedState s0 t0 hPackets hChunk calls 0 (by simp)
  rw [hStart] at hHeaders
  intro headers
  refine ⟨?_, ?_⟩
  · rw [show headers = _ from hHeaders, List.length_map, List.length_range]
    exact hCalls
  · intro i header hAt
    rw [show headers = _ from hHeaders, List.getElem?_map] at hAt
    obtain ⟨k, hk, rfl⟩ := Option.map_eq_some_iff.mp hAt
    obtain ⟨hBound, rfl⟩ := List.getElem?_eq_some_iff.mp hk
    rw [List.getElem_range, Nat.zero_add]

end RtpVideoSendStream

/-! ## Buffer writer -/

namespace RtpVideoBufferWriter

variable (m : MediaSettings) (s0 t0 : Nat)

/-- The state before packet `i`. -/
def writtenState (i : Nat) : SendingStatistics where
  packetCounter := i % m.packetsInFrameField
  rtpSequence := (s0 + i) % 2 ^ 32
  rtpTimestamp := (t0 + i / m.packetsInFrameField * ticks m) % 2 ^ 32
  rtpInterlaceFieldIndicator := secondField m i
  lineNumber := marks m.packetsInLine m.packetsInFrameField i % m.linesInFrameField
  srdOffset := i * m.pixelsPerPacket % m.resolution.width.toNat

section Steps

variable {m}

theorem updateInFrameState_writtenState (hPackets : 0 < m.packetsInFrameField)
    (hLines : 0 < m.linesInFrameField) (hLinesLe : m.linesInFrameField ≤ 2 ^ 16) (i : Nat) :
    updateInFrameState m (writtenState m s0 t0 i) = writtenState m s0 t0 (i + 1) := by
  have hPlace := Nat.mod_lt i hPackets
  have hLine := marks_succ hPackets m.packetsInLine i
  have hField := secondField_succ hPackets i
  have hOffset : (i * m.pixelsPerPacket % m.resolution.width.toNat + m.pixelsPerPacket) %
      m.resolution.width.toNat = (i + 1) * m.pixelsPerPacket % m.resolution.width.toNat := by
    rw [Nat.mod_add_mod, Nat.succ_mul]
  have hSequence : ((s0 + i) % 2 ^ 32 + 1) % 2 ^ 32 = (s0 + (i + 1)) % 2 ^ 32 := by
    rw [Nat.mod_add_mod, Nat.add_assoc]
  -- the timestamp moves behind the last packet of a field
  have hTime : (if i % m.packetsInFrameField + 1 = m.packetsInFrameField then
      ((t0 + i / m.packetsInFrameField * ticks m) % 2 ^ 32 + ticks m) % 2 ^ 32
      else (t0 + i / m.packetsInFrameField * ticks m) % 2 ^ 32) =
        (t0 + (i + 1) / m.packetsInFrameField * ticks m) % 2 ^ 32 := by
    rw [succ_div_eq hPlace]
    split
    · rw [Nat.mod_add_mod, Nat.succ_mul, Nat.add_assoc]
    · rfl
  have hRow : (if (i % m.packetsInFrameField + 1) % m.packetsInLine = 0 then
      (marks m.packetsInLine m.packetsInFrameField i % m.linesInFrameField + 1) %
        m.linesInFrameField % 2 ^ 16
      else marks m.packetsInLine m.packetsInFrameField i % m.linesInFrameField) =
        marks m.packetsInLine m.packetsInFrameField (i + 1) % m.linesInFrameField := by
    rw [hLine]
    split
    · -- the row fits its sixteen bits
      rw [Nat.mod_add_mod, Nat.mod_eq_of_lt (Nat.lt_of_lt_of_le (Nat.mod_lt _ hLines) hLinesLe)]
    · rfl
  unfold updateInFrameState writtenState
  rw [hOffset, hSequence, hTime, hRow, hField, succ_mod_eq hPlace]

theorem writeBuffer_writtenState (hPackets : 0 < m.packetsInFrameField)
    (hLines : 0 < m.linesInFrameField) (hLinesLe : m.linesInFrameField ≤ 2 ^ 16) (n : Nat) :
    ∀ i, writeBuffer m n (writtenState m s0 t0 i) =
      ((List.range n).map fun k => buildRtpHeader m (writtenState m s0 t0 (i + k)),
        writtenState m s0 t0 (i + n)) := by
  induction n with
  | zero => exact fun i => rfl
  | succ n ih =>
    intro i
    have hMore : (writtenState m s0 t0 i).packetCounter < m.packetsInFrameField :=
      Nat.mod_lt i hPackets
    unfold writeBuffer
    rw [if_pos hMore, updateInFrameState_writtenState s0 t0 hPackets hLines hLinesLe, ih (i + 1),
      List.range_succ_eq_map, List.map_cons, List.map_map]
    refine Prod.ext (congrArg (List.cons _) ?_) ?_
    · apply List.map_congr_left
      intro k _
      show _ = buildRtpHeader m (writtenState m s0 t0 (i + (k + 1)))
      rw [Nat.add_assoc, Nat.add_comm 1]
    · show writtenState m s0 t0 (i + 1 + n) = writtenState m s0 t0 (i + (n + 1))
      rw [Nat.add_assoc, Nat.add_comm 1]

theorem runWrites_writtenState (hPackets : 0 < m.packetsInFrameField)
    (hLines : 0 < m.linesInFrameField) (hLinesLe : m.linesInFrameField ≤ 2 ^ 16)
    (chunkLength calls : Nat) : ∀ i,
      (runCalls m (List.replicate calls (.writeBuffer chunkLength)) (writtenState m s0 t0 i)).1 =
        (List.range (calls * chunkLength)).map fun k =>
          buildRtpHeader m (writtenState m s0 t0 (i + k)) := by
  induction calls with
  | zero =>
    intro i
    rw [Nat.zero_mul]
    rfl
  | succ calls ih =>
    intro i
    rw [List.replicate_succ, Nat.succ_mul, Nat.add_comm, List.range_add, List.map_append,
      List.map_map]
    show (writeBuffer m chunkLength _).1 ++ (runCalls m _ (writeBuffer m chunkLength _).2).1 = _
    rw [writeBuffer_writtenState s0 t0 hPackets hLines hLinesLe, ih]
    -- the headers of the other calls, counted from the end of this one
    congr 1
    apply List.map_congr_left
    intro k _
    show _ = buildRtpHeader m (writtenState m s0 t0 (i + (chunkLength + k)))
    rw [Nat.add_assoc]

end Steps

/-- **Packets of the writer.** Packet `i` has the header of its state. -/
theorem runWrites_at {chunkLength calls : Nat} (hPackets : 0 < m.packetsInFrameField)
    (hLines : 0 < m.linesInFrameField) (hLinesLe : m.linesInFrameField ≤ 2 ^ 16)
    (hSequence : s0 < 2 ^ 32) (hTimestamp : t0 < 2 ^ 32) :
    let headers := (runCalls m (List.replicate calls (.writeBuffer chunkLength))
      { rtpSequence := s0, rtpTimestamp := t0 }).1
    headers.length = calls * chunkLength ∧
      ∀ i header, headers[i]? = some header →
        header = buildRtpHeader m (writtenState m s0 t0 i) := by
  have hStart : writtenState m s0 t0 0 = { rtpSequence := s0, rtpTimestamp := t0 } := by
    unfold writtenState secondField
    simp [marks_zero]
    exact ⟨hSequence, hTimestamp⟩
  have hHeaders := runWrites_writtenState s0 t0 hPackets hLines hLinesLe
    chunkLength calls 0
  rw [hStart] at hHeaders
  intro headers
  refine ⟨?_, ?_⟩
  · rw [show headers = _ from hHeaders, List.length_map, List.length_range]
  · intro i header hAt
    rw [show headers = _ from hHeaders, List.getElem?_map] at hAt
    obtain ⟨k, hk, rfl⟩ := Option.map_eq_some_iff.mp hAt
    obtain ⟨hBound, rfl⟩ := List.getElem?_eq_some_iff.mp hk
    rw [List.getElem_range, Nat.zero_add]

end RtpVideoBufferWriter

end RivermaxDevKit
