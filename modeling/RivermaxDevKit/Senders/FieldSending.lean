import RivermaxDevKit.Senders.MediaSender

/-!
# Fields of the sender loop

Each pass of the loop of `MediaSenderIONode::operator()` writes
`chunks_in_frame_field` chunks for one field. The packets of a pass are the
headers of consecutive writer states, so what a pass sends is read off the state
it starts from.

* `packetsOf_fieldChunks` — the packets of a pass, and the state behind it.
* `fields_exact_iff` — a pass sends its field and nothing else exactly when
  chunks divide the field.
* `field_parity_iff` — the field bit alternates as long as no frame resets it.
-/

namespace RivermaxDevKit

/-! ## Consecutive writer states -/

namespace RtpVideoBufferWriter

variable {m : MediaSettings}

theorem packetCounter_updateInFrameState {st : SendingStatistics}
    (h : st.packetCounter < m.packetsInFrameField) :
    (updateInFrameState m st).packetCounter < m.packetsInFrameField := by
  show (if st.packetCounter + 1 = m.packetsInFrameField then 0 else st.packetCounter + 1) < _
  split
  · exact Nat.lt_of_le_of_lt (Nat.zero_le _) h
  · omega

/-- The guard of `write_buffer` never stops it: the counter is back at zero when
the field ends. -/
theorem writeBuffer_eq (n : Nat) : ∀ {st : SendingStatistics},
    st.packetCounter < m.packetsInFrameField →
      writeBuffer m n st = ((List.range n).map fun i =>
        buildRtpHeader m ((updateInFrameState m)^[i] st), (updateInFrameState m)^[n] st) := by
  induction n with
  | zero => exact fun _ => rfl
  | succ n ih =>
    intro st h
    -- the first packet, and the packets from the state behind it
    rw [writeBuffer, if_pos h, ih (packetCounter_updateInFrameState h), List.range_succ_eq_map,
      List.map_cons, List.map_map]
    rfl

theorem packetCounter_iterate (n : Nat) {st : SendingStatistics}
    (h : st.packetCounter < m.packetsInFrameField) :
    ((updateInFrameState m)^[n] st).packetCounter < m.packetsInFrameField := by
  induction n with
  | zero => exact h
  | succ n ih =>
    rw [Function.iterate_succ_apply']
    exact packetCounter_updateInFrameState ih

/-- The writer `sent` packets behind a field start with sequence number `s0` and
field bit `f0`. -/
structure Placed (m : MediaSettings) (s0 : Nat) (f0 : Bool) (sent : Nat)
    (st : SendingStatistics) : Prop where
  counter : st.packetCounter = sent % m.packetsInFrameField
  sequence : st.rtpSequence = (s0 + sent) % 2 ^ 32
  field : m.videoScanType = .Interlaced →
    st.rtpInterlaceFieldIndicator = (f0 ^^ decide (sent / m.packetsInFrameField % 2 = 1))

theorem Placed.update {s0 : Nat} {f0 : Bool} {sent : Nat} {st : SendingStatistics}
    (hPackets : 0 < m.packetsInFrameField) (h : Placed m s0 f0 sent st) :
    Placed m s0 f0 (sent + 1) (updateInFrameState m st) := by
  have hPlace := Nat.mod_lt sent hPackets
  refine ⟨?_, ?_, ?_⟩
  · show (if st.packetCounter + 1 = _ then 0 else _) = _
    rw [WrapCounter.succ_mod_eq hPlace, h.counter]
  · show (st.rtpSequence + 1) % 2 ^ 32 = _
    rw [h.sequence, Nat.mod_add_mod, Nat.add_assoc]
  · intro hScan
    show (if st.packetCounter + 1 = _ ∧ m.videoScanType = .Interlaced then _ else _) = _
    rw [WrapCounter.succ_div_eq hPlace, ← h.counter]
    by_cases hLast : st.packetCounter + 1 = m.packetsInFrameField
    · -- the bit is toggled behind the last packet of the field
      rw [if_pos ⟨hLast, hScan⟩, if_pos hLast, WrapCounter.odd_succ, Bool.xor_not, h.field hScan]
    · rw [if_neg fun hBoth => hLast hBoth.1, if_neg hLast, h.field hScan]

theorem Placed.iterate {s0 : Nat} {f0 : Bool} {sent : Nat} {st : SendingStatistics}
    (hPackets : 0 < m.packetsInFrameField) (h : Placed m s0 f0 sent st) (n : Nat) :
    Placed m s0 f0 (sent + n) ((updateInFrameState m)^[n] st) := by
  induction n with
  | zero => exact h
  | succ n ih =>
    rw [Function.iterate_succ_apply']
    exact ih.update hPackets

/-- Every field start is such a place. -/
theorem placed_start {st : SendingStatistics} {s0 : Nat} (hStart : st.packetCounter = 0)
    (hSequence : st.rtpSequence = s0 % 2 ^ 32) :
    Placed m s0 st.rtpInterlaceFieldIndicator 0 st := by
  refine ⟨by simp [hStart], hSequence, fun _ => ?_⟩
  simp

end RtpVideoBufferWriter

/-! ## Passes of the loop -/

namespace MediaSenderIONode

open RtpVideoBufferWriter

variable {node : MediaSenderIONode}

/-- The packets of consecutive chunks are those of consecutive states. -/
theorem packetsOf_sendChunks (now : Nat → Nat) (remaining : Nat) :
    ∀ (counter : Nat) (sendTimeNs : ℚ) {st : SendingStatistics},
      st.packetCounter < node.mediaSettings.packetsInFrameField →
        packetsOf (node.sendChunks now remaining counter sendTimeNs st).1 =
            ((List.range (remaining * node.numOfPacketsInChunk)).map fun i =>
              buildRtpHeader node.mediaSettings
                ((updateInFrameState node.mediaSettings)^[i] st)) ∧
          (node.sendChunks now remaining counter sendTimeNs st).2 =
            (updateInFrameState node.mediaSettings)^[remaining * node.numOfPacketsInChunk] st := by
  induction remaining with
  | zero =>
    intro counter sendTimeNs st _
    rw [Nat.zero_mul]
    exact ⟨rfl, rfl⟩
  | succ remaining ih =>
    intro counter sendTimeNs st h
    have hChunk := writeBuffer_eq node.numOfPacketsInChunk h
    -- the chunks behind the first start from the state it leaves
    obtain ⟨hRest, hFinal⟩ := ih (counter + 1)
      (if counter % node.mediaSettings.chunksInFrameField = 0 then
        sendTimeNs + node.mediaSettings.frameFieldTimeIntervalNs else sendTimeNs)
      (packetCounter_iterate node.numOfPacketsInChunk h)
    -- the packets of the first chunk come first
    rw [Nat.succ_mul, Nat.add_comm (remaining * _), List.range_add, List.map_append, List.map_map]
    constructor
    · show (writeBuffer node.mediaSettings node.numOfPacketsInChunk st).1 ++ packetsOf
        (node.sendChunks now remaining _ _ (writeBuffer _ _ st).2).1 = _
      rw [hChunk, hRest]
      congr 1
      apply List.map_congr_left
      intro i _
      show _ = buildRtpHeader _ (_^[node.numOfPacketsInChunk + i] st)
      rw [Nat.add_comm, Function.iterate_add_apply]
    · show (node.sendChunks now remaining _ _ (writeBuffer _ _ st).2).2 = _
      rw [hChunk, hFinal, Nat.add_comm, Function.iterate_add_apply]

/-- The packets of field `k` and the writer behind it, from a writer that stands
at a field start. -/
theorem packetsOf_fieldChunks (hPackets : 0 < node.mediaSettings.packetsInFrameField)
    {timeNowNs k : Nat} {now : Nat → Nat → Nat} {st : SendingStatistics}
    (hAt : node.processFrame (node.stateAt timeNowNs now k) = st) (hStart : st.packetCounter = 0) :
    packetsOf (node.fieldChunks timeNowNs now k) =
        ((List.range
            (node.mediaSettings.chunksInFrameField * node.numOfPacketsInChunk)).map fun i =>
          buildRtpHeader node.mediaSettings ((updateInFrameState node.mediaSettings)^[i] st)) ∧
      node.stateAt timeNowNs now (k + 1) = (updateInFrameState node.mediaSettings)^[
        node.mediaSettings.chunksInFrameField * node.numOfPacketsInChunk] st := by
  subst hAt
  exact packetsOf_sendChunks (now k) _ 0 _ (by omega)

/-- What the packets of a pass say, in the order they are sent. -/
theorem header_of_placed {s0 sent : Nat} {f0 : Bool} {st : SendingStatistics}
    {m : MediaSettings} (h : Placed m s0 f0 sent st) :
    ((buildRtpHeader m st).marker = true ↔ sent % m.packetsInFrameField + 1 =
        m.packetsInFrameField) ∧
      (buildRtpHeader m st).fullSequence = (s0 + sent) % 2 ^ 32 ∧
      (m.videoScanType = .Interlaced →
        (buildRtpHeader m st).field =
          (f0 ^^ decide (sent / m.packetsInFrameField % 2 = 1))) := by
  refine ⟨?_, ?_, fun hScan => ?_⟩
  · rw [marker_buildRtpHeader, h.counter, decide_eq_true_iff]
  · show st.rtpSequence / 2 ^ 16 * 2 ^ 16 + st.rtpSequence % 2 ^ 16 = _
    rw [Nat.div_add_mod', h.sequence]
  · rw [field_buildRtpHeader, h.field hScan]

/-! ## Whole fields -/

/-- No divisor of the writer and of the chunk count is zero. -/
structure Divides (m : MediaSettings) : Prop where
  packets_pos : 0 < m.packetsInFrameField
  line_pos : 0 < m.packetsInLine
  rows_pos : 0 < m.linesInFrameField

/-- Pass `k` sends the packets of field `k`, the last and only the last with the
marker, with the sequence numbers behind those of the fields before, and leaves
the writer at the start of field `k + 1`. -/
structure FieldExact (node : MediaSenderIONode) (timeNowNs : Nat) (now : Nat → Nat → Nat)
    (k : Nat) : Prop where
  divides : Divides node.mediaSettings
  count : (packetsOf (node.fieldChunks timeNowNs now k)).length =
    node.mediaSettings.packetsInFrameField
  marker : ∀ i header, (packetsOf (node.fieldChunks timeNowNs now k))[i]? = some header →
    (header.marker = true ↔ i + 1 = node.mediaSettings.packetsInFrameField)
  sequence : ∀ i header, (packetsOf (node.fieldChunks timeNowNs now k))[i]? = some header →
    header.fullSequence = (k * node.mediaSettings.packetsInFrameField + i) % 2 ^ 32
  next : (node.stateAt timeNowNs now (k + 1)).packetCounter = 0 ∧
    (node.stateAt timeNowNs now (k + 1)).rtpSequence =
      (k + 1) * node.mediaSettings.packetsInFrameField % 2 ^ 32

/-- The writer in front of field `k`, when every pass before sent its field. -/
structure AtField (node : MediaSenderIONode) (k : Nat) (st : SendingStatistics) : Prop where
  counter : st.packetCounter = 0
  sequence : st.rtpSequence = k * node.mediaSettings.packetsInFrameField % 2 ^ 32
  field : node.frameProvider = false → node.mediaSettings.videoScanType = .Interlaced →
    st.rtpInterlaceFieldIndicator = decide (k % 2 = 1)

theorem atField_start (timeNowNs : Nat) (now : Nat → Nat → Nat) :
    AtField node 0 (node.stateAt timeNowNs now 0) :=
  ⟨rfl, by rw [Nat.zero_mul]; rfl, fun _ _ => rfl⟩

theorem AtField.processFrame {k : Nat} {st : SendingStatistics} (h : AtField node k st) :
    AtField node k (node.processFrame st) := by
  unfold MediaSenderIONode.processFrame
  split
  · rename_i hProvider
    -- a new frame resets counter and field bit, not the sequence number
    refine ⟨rfl, h.sequence, fun hNone => ?_⟩
    rw [hProvider] at hNone
    cases hNone
  · exact h

/-- A pass whose chunks fill the field moves on to the next one. -/
theorem AtField.next (hPackets : 0 < node.mediaSettings.packetsInFrameField)
    (hFill : node.mediaSettings.chunksInFrameField * node.numOfPacketsInChunk =
      node.mediaSettings.packetsInFrameField) {timeNowNs k : Nat} {now : Nat → Nat → Nat}
    (h : AtField node k (node.stateAt timeNowNs now k)) :
    AtField node (k + 1) (node.stateAt timeNowNs now (k + 1)) := by
  have hField := h.processFrame
  -- the pass ends as many packets further as the field has
  rw [(packetsOf_fieldChunks hPackets rfl hField.counter).2, hFill]
  have hPlaced := (placed_start (m := node.mediaSettings) hField.counter hField.sequence).iterate
    hPackets node.mediaSettings.packetsInFrameField
  rw [Nat.zero_add] at hPlaced
  refine ⟨?_, ?_, fun hNone hScan => ?_⟩
  · rw [hPlaced.counter, Nat.mod_self]
  · rw [hPlaced.sequence, Nat.succ_mul]
  · rw [hPlaced.field hScan, hField.field hNone hScan, Nat.div_self hPackets,
      WrapCounter.odd_succ k]
    exact Bool.xor_true _

theorem atField_stateAt (hPackets : 0 < node.mediaSettings.packetsInFrameField)
    (hFill : node.mediaSettings.chunksInFrameField * node.numOfPacketsInChunk =
      node.mediaSettings.packetsInFrameField) (timeNowNs : Nat) (now : Nat → Nat → Nat) (k : Nat) :
    AtField node k (node.stateAt timeNowNs now k) := by
  induction k with
  | zero => exact atField_start timeNowNs now
  | succ k ih => exact ih.next hPackets hFill

/-- Chunks that fill the field make every pass exact. -/
theorem fieldExact_of_fill (hDivides : Divides node.mediaSettings)
    (hFill : node.mediaSettings.chunksInFrameField * node.numOfPacketsInChunk =
      node.mediaSettings.packetsInFrameField) (timeNowNs : Nat) (now : Nat → Nat → Nat) (k : Nat) :
    FieldExact node timeNowNs now k := by
  have hPackets := hDivides.packets_pos
  have hField := (atField_stateAt hPackets hFill timeNowNs now k).processFrame
  have hNext := atField_stateAt hPackets hFill timeNowNs now (k + 1)
  have hSent := (packetsOf_fieldChunks hPackets rfl hField.counter).1
  rw [hFill] at hSent
  -- packet `i` of the pass is the header `i` states behind the start
  have hHeader (i : Nat) := header_of_placed
    ((placed_start (m := node.mediaSettings) hField.counter hField.sequence).iterate hPackets i)
  simp only [Nat.zero_add] at hHeader
  -- and the pass sends those of the field
  have hAt {i : Nat} {header : RtpHeader}
      (h : (packetsOf (node.fieldChunks timeNowNs now k))[i]? = some header) :
      i < node.mediaSettings.packetsInFrameField ∧ header = buildRtpHeader node.mediaSettings
        ((updateInFrameState node.mediaSettings)^[i]
          (node.processFrame (node.stateAt timeNowNs now k))) := by
    rw [hSent, List.getElem?_map, Option.map_eq_some_iff] at h
    obtain ⟨j, hj, rfl⟩ := h
    obtain ⟨hLt, rfl⟩ := List.getElem?_eq_some_iff.mp hj
    simpa using hLt
  refine ⟨hDivides, ?_, ?_, ?_, hNext.counter, hNext.sequence⟩
  · rw [hSent]
    simp
  · intro i header h
    obtain ⟨hLt, rfl⟩ := hAt h
    rw [(hHeader i).1, Nat.mod_eq_of_lt hLt]
  · intro i header h
    obtain ⟨-, rfl⟩ := hAt h
    exact (hHeader i).2.1

/-- All packets pass `k` sends carry the parity of `k` in their field bit. -/
structure FieldParity (node : MediaSenderIONode) (timeNowNs : Nat) (now : Nat → Nat → Nat)
    (k : Nat) : Prop where
  divides : Divides node.mediaSettings
  field : ∀ header ∈ packetsOf (node.fieldChunks timeNowNs now k),
    header.field = decide (k % 2 = 1)

/-- The field bits of a pass, from a writer at a field start. -/
theorem mem_packetsOf_fieldChunks (hPackets : 0 < node.mediaSettings.packetsInFrameField)
    (hScan : node.mediaSettings.videoScanType = .Interlaced) {timeNowNs k : Nat}
    {now : Nat → Nat → Nat} {st : SendingStatistics}
    (hAt : node.processFrame (node.stateAt timeNowNs now k) = st) (hStart : st.packetCounter = 0)
    (hSequence : st.rtpSequence < 2 ^ 32) (expected : Bool) :
    (∀ header ∈ packetsOf (node.fieldChunks timeNowNs now k), header.field = expected) ↔
      ∀ i < node.mediaSettings.chunksInFrameField * node.numOfPacketsInChunk,
        (st.rtpInterlaceFieldIndicator ^^
          decide (i / node.mediaSettings.packetsInFrameField % 2 = 1)) = expected := by
  rw [(packetsOf_fieldChunks hPackets hAt hStart).1]
  -- the bit of a packet is that of the start, turned at each field end
  have hHeader (i : Nat) := (header_of_placed ((placed_start (m := node.mediaSettings) hStart
    (Nat.mod_eq_of_lt hSequence).symm).iterate hPackets i)).2.2 hScan
  simp only [Nat.zero_add] at hHeader
  simp [hHeader]

/-! ## Accepted settings -/

/-- The packets of a frame, before a field is halved off. -/
def framePackets (m : MediaSettings) : Nat :=
  frameBytes m % 2 ^ 32 / rawPayloadSize m.samplingType m.bitDepth

/-- The length of a chunk: the custom one if it divides the frame, or four
lines. -/
def chunkPackets (s : AppSettings) : Nat :=
  if s.numOfPacketsInChunkSpecified ∧ s.numOfPacketsInChunk ∣ framePackets s.media then
    s.numOfPacketsInChunk
  else 4 * (framePackets s.media / s.media.resolution.height.toNat)

/-- A frame has a packet for each line, a field has lines, and the packets of a
field are whole chunks. -/
structure FieldsFill (s : AppSettings) : Prop where
  line : s.media.resolution.height.toNat ≤ framePackets s.media
  rows : s.media.videoScanType.fields ≤ s.media.resolution.height.toNat
  chunk : chunkPackets s ∣ framePackets s.media / s.media.videoScanType.fields

section Accepted

variable {s s' : AppSettings}

theorem fields_pos (scan : VideoScanType) : 0 < scan.fields := by
  rcases fields_eq scan with h | h
  · rw [h]
    decide
  · rw [h]
    decide

/-- The condition on the input is the one on the computed settings. -/
theorem fieldsFill_iff (hInit : initializeCommonMediaSettings s = some s') :
    FieldsFill s ↔ Divides s'.media ∧
      s'.media.chunksInFrameField * s'.numOfPacketsInChunk = s'.media.packetsInFrameField := by
  obtain ⟨bytes, pixels, h⟩ := computed_of_eq_some hInit
  have hFields := fields_pos s.media.videoScanType
  -- the computed settings in terms of the packets of a frame
  have hFrame : framePackets s.media = s'.media.bytesPerFrame / s'.media.rawPacketPayloadSize := by
    rw [framePackets, frameBytes, h.ratio, h.settings]
    rfl
  have hField : s'.media.packetsInFrameField =
      framePackets s.media / s.media.videoScanType.fields := by
    rw [hFrame, h.settings]
    rfl
  have hLine : s'.media.packetsInLine =
      framePackets s.media / s.media.resolution.height.toNat := by
    rw [hFrame, h.settings]
    rfl
  have hRows : s'.media.linesInFrameField =
      s.media.resolution.height.toNat / s.media.videoScanType.fields := by
    rw [h.settings]
    rfl
  have hChunk : s'.numOfPacketsInChunk = chunkPackets s := by
    simp only [chunkPackets, hFrame, Nat.dvd_iff_mod_eq_zero]
    rw [h.settings]
    rfl
  have hChunks : s'.media.chunksInFrameField =
      (s'.media.packetsInFrameField + s'.numOfPacketsInChunk - 1) / s'.numOfPacketsInChunk := by
    rw [h.settings]
    rfl
  rw [hChunks, ceil_mul_eq_iff h.chunk_pos]
  constructor
  · rintro ⟨hLines, hTwo, hDvd⟩
    -- quotients are positive where the divisor is not larger
    have hLinePos : 0 < s'.media.packetsInLine := hLine ▸ Nat.div_pos hLines h.height_pos
    have hRowsPos : 0 < s'.media.linesInFrameField := hRows ▸ Nat.div_pos hTwo hFields
    refine ⟨⟨packetsInFrameField_pos h hLinePos hRowsPos, hLinePos, hRowsPos⟩, ?_⟩
    rw [hChunk, hField]
    exact hDvd
  · rintro ⟨⟨-, hLinePos, hRowsPos⟩, hDvd⟩
    rw [hLine] at hLinePos
    rw [hRows] at hRowsPos
    rw [hChunk, hField] at hDvd
    exact ⟨(Nat.div_pos_iff.mp hLinePos).2, (Nat.div_pos_iff.mp hRowsPos).2, hDvd⟩

/-- Field 0 starts with a writer at rest. -/
theorem first_pass (node : MediaSenderIONode) (timeNowNs : Nat) (now : Nat → Nat → Nat) :
    (node.processFrame (node.stateAt timeNowNs now 0)).packetCounter = 0 ∧
      (node.processFrame (node.stateAt timeNowNs now 0)).rtpSequence = 0 ∧
      (node.processFrame (node.stateAt timeNowNs now 0)).rtpInterlaceFieldIndicator = false := by
  -- a new frame changes nothing at the start
  unfold MediaSenderIONode.processFrame
  split
  · exact ⟨rfl, rfl, rfl⟩
  · exact ⟨rfl, rfl, rfl⟩

/-- **Fields are sent exactly.** For all accepted settings, with or without a
frame provider, at any time and for any number of fields: every pass sends its
field and nothing of the next exactly when the chunks divide the field. -/
theorem fields_exact_iff (hInit : initializeCommonMediaSettings s = some s')
    (frameProvider : Bool) (timeNowNs : Nat) (now : Nat → Nat → Nat) (fields : Nat) :
    (∀ k < fields, FieldExact (ofSettings s' frameProvider) timeNowNs now k) ↔
      fields = 0 ∨ FieldsFill s := by
  rw [fieldsFill_iff hInit]
  constructor
  · intro hExact
    rcases Nat.eq_zero_or_pos fields with hNone | hSome
    · exact .inl hNone
    · -- the first pass writes as many headers as its chunks have strides
      have hFirst := hExact 0 hSome
      have hStart := (first_pass (ofSettings s' frameProvider) timeNowNs now).1
      have hCount := hFirst.count
      rw [(packetsOf_fieldChunks hFirst.divides.packets_pos rfl hStart).1, List.length_map,
        List.length_range] at hCount
      exact .inr ⟨hFirst.divides, hCount⟩
  · rintro (rfl | ⟨hDivides, hFill⟩)
    · exact nofun
    · exact fun k _ => fieldExact_of_fill hDivides hFill timeNowNs now k

/-- Full HD has 4320 packets in 270 chunks. -/
theorem fields_exact_fullHd :
    ∃ s', initializeCommonMediaSettings (fullHd ⟨25, 1⟩ .Progressive) = some s' ∧
      ∀ k < 1000, FieldExact (ofSettings s' true) 0 (fun _ _ => 0) k := by
  refine ⟨_, rfl, (@fields_exact_iff (fullHd ⟨25, 1⟩ .Progressive) _ rfl true 0 _ 1000).mpr
    (.inr ⟨?_, ?_, ?_⟩)⟩
  · decide +kernel
  · decide +kernel
  · decide +kernel

/-- 1366 by 768 pixels: 2185 packets are offered 274 chunks of eight strides, and
the last seven headers are those of the next frame. -/
theorem wide_fields_run_over :
    ∃ s', initializeCommonMediaSettings
        { media := { frameRate := ⟨25, 1⟩, resolution := ⟨1366, 768⟩ } } = some s' ∧
      ¬FieldExact (ofSettings s' false) 0 (fun _ _ => 0) 0 := by
  refine ⟨_, rfl, fun hExact => ?_⟩
  have hStart := (first_pass (ofSettings (commonMediaSettings
    { media := { frameRate := ⟨25, 1⟩, resolution := ⟨1366, 768⟩ } } 5 2) false) 0
      (fun _ _ => 0)).1
  have hCount := hExact.count
  rw [(packetsOf_fieldChunks hExact.divides.packets_pos rfl hStart).1, List.length_map,
    List.length_range] at hCount
  exact absurd hCount (by decide +kernel)

/-- A new frame resets the bit of every second field. -/
theorem not_fieldParity_of_frameProvider {node : MediaSenderIONode}
    (hProvider : node.frameProvider = true) (hPackets : 0 < node.mediaSettings.packetsInFrameField)
    (hFill : node.mediaSettings.chunksInFrameField * node.numOfPacketsInChunk =
      node.mediaSettings.packetsInFrameField)
    (hScan : node.mediaSettings.videoScanType = .Interlaced) {timeNowNs k : Nat}
    {now : Nat → Nat → Nat} (hOdd : k % 2 = 1) : ¬FieldParity node timeNowNs now k := by
  intro hParity
  have hAt := (atField_stateAt hPackets hFill timeNowNs now k).processFrame
  have hReset : (node.processFrame (node.stateAt timeNowNs now k)).rtpInterlaceFieldIndicator =
      false := congrArg _ (if_pos hProvider)
  -- the first packet of the odd field
  have hField := (mem_packetsOf_fieldChunks hPackets hScan rfl hAt.counter
    (by rw [hAt.sequence]; exact Nat.mod_lt _ (by decide)) _).mp hParity.field 0
    (by rw [hFill]; exact hPackets)
  rw [hReset, Nat.zero_div, hOdd] at hField
  cases hField

/-- **Field parity.** For all accepted interlaced settings: the field bit of pass
`k` is the parity of `k` in all its packets exactly when the chunks divide the
field and no frame is set after the first field. -/
theorem field_parity_iff (hInit : initializeCommonMediaSettings s = some s')
    (hScan : s.media.videoScanType = .Interlaced) (frameProvider : Bool) (timeNowNs : Nat)
    (now : Nat → Nat → Nat) (fields : Nat) :
    (∀ k < fields, FieldParity (ofSettings s' frameProvider) timeNowNs now k) ↔
      fields = 0 ∨ FieldsFill s ∧ (frameProvider = true → fields = 1) := by
  rw [fieldsFill_iff hInit]
  obtain ⟨bytes, pixels, h⟩ := computed_of_eq_some hInit
  have hInterlaced : s'.media.videoScanType = .Interlaced := by
    rw [(initialized_of_eq_some hInit).videoScanType, hScan]
  -- the chunks have room for the field, and maybe for more
  have hCover : s'.media.packetsInFrameField ≤
      s'.media.chunksInFrameField * s'.numOfPacketsInChunk := by
    have hCeil : s'.media.chunksInFrameField =
        (s'.media.packetsInFrameField + s'.numOfPacketsInChunk - 1) / s'.numOfPacketsInChunk := by
      rw [h.settings]
      rfl
    rw [hCeil]
    exact le_ceil_mul h.chunk_pos
  let node := ofSettings s' frameProvider
  constructor
  · intro hParity
    rcases Nat.eq_zero_or_pos fields with hNone | hSome
    · exact .inl hNone
    have hDivides : Divides s'.media := (hParity 0 hSome).divides
    have hPackets : 0 < s'.media.packetsInFrameField := hDivides.packets_pos
    obtain ⟨hStart, hSequence, hBit⟩ := first_pass node timeNowNs now
    have hFirst := (mem_packetsOf_fieldChunks hPackets hInterlaced rfl hStart
      (by rw [hSequence]; decide) _).mp (hParity 0 hSome).field
    -- already the first pass shows whether they have more
    have hFill : s'.media.chunksInFrameField * s'.numOfPacketsInChunk =
        s'.media.packetsInFrameField := by
      by_contra hOver
      -- the packet behind the field has the other bit
      have hBehind : (false ^^ decide (s'.media.packetsInFrameField / s'.media.packetsInFrameField %
          2 = 1)) = decide (0 % 2 = 1) := by
        rw [← hBit]
        exact hFirst s'.media.packetsInFrameField (Nat.lt_of_le_of_ne hCover (Ne.symm hOver))
      rw [Nat.div_self hPackets] at hBehind
      cases hBehind
    refine .inr ⟨⟨hDivides, hFill⟩, fun hProvider => ?_⟩
    -- a second field would start with the bit reset
    by_contra hMore
    exact not_fieldParity_of_frameProvider hProvider hPackets hFill hInterlaced rfl
      (hParity 1 (by omega))
  · rintro (rfl | ⟨⟨hDivides, hFill⟩, hProvider⟩)
    · exact nofun
    intro k hk
    have hPackets := hDivides.packets_pos
    have hAt := (@atField_stateAt node hPackets hFill timeNowNs now k).processFrame
    have hBit : (node.processFrame (node.stateAt timeNowNs now k)).rtpInterlaceFieldIndicator =
        decide (k % 2 = 1) := by
      cases hSet : frameProvider with
      | false => exact hAt.field hSet hInterlaced
      | true =>
        -- with a frame provider there is only the first field
        obtain rfl : k = 0 := by
          have := hProvider hSet
          omega
        exact (first_pass node timeNowNs now).2.2
    refine ⟨hDivides, (mem_packetsOf_fieldChunks hPackets hInterlaced rfl hAt.counter
      (by rw [hAt.sequence]; exact Nat.mod_lt _ (by decide)) _).mpr fun i hi => ?_⟩
    -- all packets of the pass are in the field
    have hInside : i < s'.media.packetsInFrameField := hi.trans_eq hFill
    rw [hBit, show i / node.mediaSettings.packetsInFrameField = 0 from Nat.div_eq_of_lt hInside]
    simp

/-- Interlaced full HD without a frame provider. -/
theorem field_parity_fullHd :
    ∃ s', initializeCommonMediaSettings (fullHd ⟨25, 1⟩ .Interlaced) = some s' ∧
      ∀ k < 1000, FieldParity (ofSettings s' false) 0 (fun _ _ => 0) k := by
  refine ⟨_, rfl, (@field_parity_iff (fullHd ⟨25, 1⟩ .Interlaced) _ rfl rfl false 0 _ 1000).mpr
    (.inr ⟨⟨?_, ?_, ?_⟩, nofun⟩)⟩
  · decide +kernel
  · decide +kernel
  · decide +kernel

/-- With a frame provider both fields of interlaced full HD are sent as field
0. -/
theorem frame_provider_resets_field :
    ∃ s', initializeCommonMediaSettings (fullHd ⟨25, 1⟩ .Interlaced) = some s' ∧
      ¬FieldParity (ofSettings s' true) 0 (fun _ _ => 0) 1 := by
  have hFill : FieldsFill (fullHd ⟨25, 1⟩ .Interlaced) :=
    ⟨by decide +kernel, by decide +kernel, by decide +kernel⟩
  obtain ⟨hDivides, hExact⟩ := (@fieldsFill_iff (fullHd ⟨25, 1⟩ .Interlaced) _ rfl).mp hFill
  exact ⟨_, rfl, not_fieldParity_of_frameProvider rfl hDivides.packets_pos hExact rfl rfl⟩

end Accepted

end MediaSenderIONode

end RivermaxDevKit
