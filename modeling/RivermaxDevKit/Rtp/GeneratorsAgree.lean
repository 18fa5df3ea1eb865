import RivermaxDevKit.Rtp.GeneratorStates
import RivermaxDevKit.Rtp.SendTime

/-!
# Agreement of the header generators

`RtpVideoSendStream` and `RTPVideoMockBufferWriter` on the same settings and
chunks.

* `RowsAgree` — the rows agree in chunks of whole lines or whole fields.
* `offsets_agree_iff` — the offsets agree in one pixel format.
* `generators_agree_iff` — when all the packets agree.
-/

namespace RivermaxDevKit

open WrapCounter

/-! ## Rows -/

section Rows

variable {L C P R H : Nat}

theorem chunkLines_of_lt {i : Nat} (h : i < P) : chunkLines L C P i = marks L C i := by
  rw [chunkLines, Nat.div_eq_of_lt h, Nat.mod_eq_of_lt h, Nat.zero_mul, Nat.zero_add]

theorem chunkLines_self (hP : 0 < P) : chunkLines L C P P = marks L C P := by
  rw [chunkLines, Nat.div_self hP, Nat.mod_self, Nat.one_mul, marks_zero, Nat.add_zero]

/-- Chunks of whole lines, or of whole fields, count the lines of a field. -/
theorem marks_of_cover (h : L ∣ C ∨ P ≤ C) {n : Nat} (hn : n ≤ P) : marks L C n = n / L := by
  rcases h with hDvd | hLe
  · exact marks_of_dvd hDvd n
  · exact marks_of_le (hn.trans hLe) L

theorem chunkLines_of_cover (hP : 0 < P) (h : L ∣ C ∨ P ≤ C) (i : Nat) :
    chunkLines L C P i = i / P * (P / L) + i % P / L := by
  rw [chunkLines, marks_of_cover h (Nat.le_refl P), marks_of_cover h (Nat.mod_lt i hP).le]

/-- Both count rows alike. -/
theorem rows_agree_of_cover (hP : 0 < P) (hHeight : R ∣ H) (hR : 0 < R) (hSmall : R ≤ 2 ^ 15)
    (hCover : L ∣ C ∨ P ≤ C) (i : Nat) :
    chunkLines L C P i % H % R = marks L P i % R % 2 ^ 15 := by
  rw [chunkLines_of_cover hP hCover, Nat.mod_mod_of_dvd _ hHeight, marks,
    Nat.mod_eq_of_lt (Nat.lt_of_lt_of_le (Nat.mod_lt _ hR) hSmall)]

/-- One line more is another row, also in fifteen bits. -/
theorem succ_row_ne (hR : 2 ≤ R) (q : Nat) : q % R ≠ (q + 1) % R % 2 ^ 15 := by
  rw [succ_mod_eq (Nat.mod_lt q (by omega))]
  split <;> omega

/-- A chunk shorter than a line never gets to its end. -/
theorem marks_line_of_short (hC : 0 < C) (hShort : C < L) : marks L C L = 0 := by
  rw [marks, Nat.div_eq_of_lt hShort, Nat.mul_zero, Nat.zero_add]
  exact Nat.div_eq_of_lt ((Nat.mod_lt L hC).trans hShort)

/-- A chunk that ends inside a line does not count that line. -/
theorem marks_of_cut (hL : 0 < L) (hLong : L ≤ C) {n : Nat} (hFrom : C ≤ n)
    (hTo : n ≤ (C / L + 1) * L) (hCut : ¬ L ∣ C) : marks L C n = C / L := by
  have hSplit := Nat.div_add_mod' C L
  have hRest : 0 < C % L := Nat.pos_of_ne_zero fun h => hCut (Nat.dvd_of_mod_eq_zero h)
  have hTail := Nat.mod_lt C hL
  have hLine : L ≤ C / L * L := Nat.le_mul_of_pos_left L (Nat.div_pos hLong hL)
  rw [Nat.succ_mul] at hTo
  -- one whole chunk, and less than a line of the next
  have hOne : n / C = 1 := Nat.div_eq_of_lt_le (by omega) (by omega)
  have hMod : n % C = n - C := by
    rw [Nat.mod_eq_sub_mod hFrom, Nat.mod_eq_of_lt (by omega)]
  have hNone : (n - C) / L = 0 := Nat.div_eq_of_lt (by omega)
  rw [marks, hOne, hMod, hNone, Nat.one_mul, Nat.add_zero]

/-- The rows of a field, and what the agreement of all packets says of chunks. -/
structure RowsAgree (L C P R H : Nat) : Prop where
  line_pos : 0 < L
  chunk_pos : 0 < C
  rows : P / L = R
  two_le : 2 ≤ R
  le_height : R ≤ H
  agree : ∀ i, chunkLines L C P i % H % R = marks L P i % R % 2 ^ 15

namespace RowsAgree

variable (h : RowsAgree L C P R H)
include h

theorem two_lines_le : 2 * L ≤ P :=
  (Nat.le_div_iff_mul_le h.line_pos).mp (h.rows.symm ▸ h.two_le)

theorem line_le_chunk : L ≤ C := by
  by_contra hShort
  have hTwo := h.two_lines_le
  have hLine := h.line_pos
  -- the first packet of the second line
  have hAt := h.agree L
  rw [chunkLines_of_lt (by omega), marks_line_of_short h.chunk_pos (by omega),
    marks_of_le (by omega), Nat.div_self h.line_pos, Nat.zero_mod, Nat.zero_mod] at hAt
  exact succ_row_ne h.two_le 0 ((Nat.zero_mod R).trans hAt)

theorem marks_line : marks L C L = 1 := by
  rw [marks_of_le h.line_le_chunk, Nat.div_self h.line_pos]

/-- With an odd line, the third field starts a row early. -/
theorem not_odd (hField : marks L C P = R) : H ≠ 2 * R + 1 := by
  rintro rfl
  have hTwo := h.two_lines_le
  have hLine := h.line_pos
  have hPackets : 0 < P := by omega
  -- the second line of the third field
  have hAt := h.agree (2 * P + L)
  have hDiv : (2 * P + L) / P = 2 := Nat.div_eq_of_lt_le (by omega) (by omega)
  have hMod : (2 * P + L) % P = L := by
    rw [Nat.mul_add_mod_self_right, Nat.mod_eq_of_lt (by omega)]
  rw [chunkLines, hDiv, hMod, hField, h.marks_line, Nat.mod_self, Nat.zero_mod, marks, hDiv, hMod,
    h.rows, Nat.div_self h.line_pos] at hAt
  refine succ_row_ne h.two_le (2 * R) ?_
  rw [Nat.mul_mod_left]
  exact hAt

/-- A chunk that cuts a line loses it at the latest at the end of the field, or
comes to the odd line. -/
theorem cover (hFrame : P = L * R ∨ H = 2 * R + 1) : L ∣ C ∨ P ≤ C := by
  by_contra hCut
  rw [not_or, Nat.not_le] at hCut
  obtain ⟨hDvd, hShort⟩ := hCut
  have hLine := h.line_pos
  have hLong := h.line_le_chunk
  have hBelow : C < (C / L + 1) * L := by
    have hRest := Nat.mod_lt C hLine
    have hSplit := Nat.div_add_mod' C L
    rw [Nat.succ_mul]
    omega
  have hQuotient : C / L ≤ R := h.rows ▸ Nat.div_le_div_right hShort.le
  rcases Nat.lt_or_ge ((C / L + 1) * L) P with hInside | hEnd
  · -- the next line begins inside the field
    have hAt := h.agree ((C / L + 1) * L)
    have hRows : C / L + 1 ≤ R := by
      rw [← h.rows]
      exact (Nat.le_div_iff_mul_le hLine).mpr hInside.le
    rw [chunkLines_of_lt hInside, marks_of_cut hLine hLong hBelow.le (Nat.le_refl _) hDvd,
      marks_of_le hInside.le, Nat.mul_div_cancel _ hLine,
      Nat.mod_eq_of_lt (Nat.lt_of_lt_of_le hRows h.le_height)] at hAt
    exact succ_row_ne h.two_le _ hAt
  · have hField := marks_of_cut hLine hLong hShort.le hEnd hDvd
    have hPackets : 0 < P := by omega
    rcases Nat.lt_or_eq_of_le hQuotient with hLess | hAll
    · -- the field ends a row short
      have hAt := h.agree P
      have hRows : C / L + 1 = R := by
        refine Nat.le_antisymm hLess ?_
        rw [← h.rows]
        exact Nat.div_le_of_le_mul (by rw [Nat.mul_comm]; exact hEnd)
      rw [chunkLines_self hPackets, hField, marks_of_le (Nat.le_refl P), h.rows,
        Nat.mod_eq_of_lt (Nat.lt_of_lt_of_le hLess h.le_height)] at hAt
      refine succ_row_ne h.two_le (C / L) ?_
      rw [hRows]
      exact hAt
    · rcases hFrame with hTiled | hOdd
      · -- the cut line would be one more than the field has
        have hWhole := Nat.div_mul_le_self C L
        rw [hAll, Nat.mul_comm, ← hTiled] at hWhole
        omega
      · exact h.not_odd (hField.trans hAll) hOdd

/-- A row of sixteen bits does not fit. -/
theorem rows_le (hCover : L ∣ C ∨ P ≤ C) (hHeight : R ∣ H) : R ≤ 2 ^ 15 := by
  by_contra hMany
  have hLine := h.line_pos
  have hInside : 2 ^ 15 * L < P := by
    have hMore : (2 ^ 15 + 1) * L ≤ P :=
      (Nat.le_div_iff_mul_le hLine).mp (h.rows.symm ▸ Nat.not_le.mp hMany)
    rw [Nat.succ_mul] at hMore
    omega
  -- the row that is zero in fifteen bits
  have hAt := h.agree (2 ^ 15 * L)
  rw [chunkLines_of_lt hInside, marks_of_cover hCover hInside.le, marks_of_le hInside.le,
    Nat.mod_mod_of_dvd _ hHeight, Nat.mul_div_cancel _ hLine,
    Nat.mod_eq_of_lt (Nat.not_le.mp hMany)] at hAt
  omega

end RowsAgree

end Rows

/-! ## Offsets -/

section Offsets

open RtpVideoSendStream

variable {c : MediaStreamSettings} {p W : Nat}

/-- Offsets that fit sixteen bits. -/
theorem offsetOf_of_fits (hLine : 0 < c.mediaSettings.packetsInLine)
    (hFits : c.mediaSettings.packetsInLine * groupSize c < 2 ^ 16) (i : Nat) :
    offsetOf c i = i % c.mediaSettings.packetsInLine * groupSize c := by
  induction i with
  | zero => rw [Nat.zero_mod, Nat.zero_mul]; rfl
  | succ i ih =>
    have hPlace : (i + 1) % c.mediaSettings.packetsInLine * groupSize c < 2 ^ 16 :=
      (Nat.mul_le_mul_right _ (Nat.mod_lt _ hLine).le).trans_lt hFits
    have hStep : (i % c.mediaSettings.packetsInLine * groupSize c + groupSize c) %
        (groupSize c * c.mediaSettings.packetsInLine) =
          (i + 1) % c.mediaSettings.packetsInLine * groupSize c := by
      rw [← Nat.succ_mul, Nat.mul_comm (groupSize c), Nat.mul_mod_mul_right, Nat.succ_eq_add_one,
        Nat.mod_add_mod]
    rw [offsetOf, ih, hStep, Nat.mod_eq_of_lt hPlace]

/-- The offsets agree if the packets tile the line, and count pixels alike or
are alone in their line. -/
theorem offsets_agree_iff (hLine : 0 < c.mediaSettings.packetsInLine)
    (hGroup : 0 < groupSize c ∧ groupSize c < 2 ^ 15) (hPixels : 0 < p ∧ p < 2 ^ 15)
    (hInside : c.mediaSettings.packetsInLine * p ≤ W) (hWidth : W < 2 ^ 16)
    (hHalf : groupSize c = p → c.mediaSettings.packetsInLine * p ≠ 2 ^ 15) :
    (∀ i, offsetOf c i % 2 ^ 15 = i * p % W % 2 ^ 15) ↔
      c.mediaSettings.packetsInLine * p = W ∧
        (groupSize c = p ∨ c.mediaSettings.packetsInLine = 1) := by
  constructor
  · intro hAgree
    have hFirst : offsetOf c 1 % 2 ^ 15 = 1 * p % W % 2 ^ 15 := hAgree 1
    rcases Nat.lt_or_eq_of_le (Nat.succ_le_of_lt hLine) with hSeveral | hOne
    · -- the second packet counts pixels, the first of the next line is at its start
      have hMore : 2 * p ≤ c.mediaSettings.packetsInLine * p := Nat.mul_le_mul_right p hSeveral
      -- the send stream counts one group on
      have hSend : offsetOf c 1 = groupSize c := by
        have hSecond : groupSize c * 2 ≤ groupSize c * c.mediaSettings.packetsInLine :=
          Nat.mul_le_mul_left _ hSeveral
        have hOnce : groupSize c < groupSize c * c.mediaSettings.packetsInLine := by omega
        rw [offsetOf, offsetOf, Nat.zero_add, Nat.mod_eq_of_lt hOnce]
        exact Nat.mod_eq_of_lt (by omega)
      have hSame : groupSize c = p := by
        have hBelow : p < W := by omega
        rw [hSend, Nat.one_mul, Nat.mod_eq_of_lt hBelow, Nat.mod_eq_of_lt hGroup.2,
          Nat.mod_eq_of_lt hPixels.2] at hFirst
        exact hFirst
      refine ⟨?_, Or.inl hSame⟩
      -- a line that is not tiled is still going on for the writer
      by_contra hShort
      have hNext := hAgree c.mediaSettings.packetsInLine
      have hBelow : c.mediaSettings.packetsInLine * p < W := by omega
      rw [offsetOf_of_fits hLine (by rw [hSame]; omega), Nat.mod_self, Nat.zero_mul, Nat.zero_mod,
        Nat.mod_eq_of_lt hBelow] at hNext
      have := hHalf hSame
      omega
    · rw [← hOne] at hInside ⊢
      refine ⟨?_, Or.inr rfl⟩
      by_contra hShort
      have hBelow : 1 * p < W := by omega
      rw [offsetOf_of_fits hLine (by rw [← hOne]; omega), ← hOne, Nat.mod_self, Nat.zero_mul,
        Nat.zero_mod, Nat.mod_eq_of_lt hBelow] at hFirst
      omega
  · rintro ⟨rfl, hSame | hOne⟩ i
    · rw [offsetOf_of_fits hLine (by rw [hSame]; exact hWidth), hSame, Nat.mul_mod_mul_right]
    · rw [offsetOf_of_fits hLine (by rw [hOne]; omega), hOne, Nat.mod_one, Nat.zero_mul,
        Nat.one_mul, Nat.mul_mod_left]

end Offsets

/-! ## Headers -/

/-- Two headers with the same fields, their sources aside. -/
structure SameHeader (h h' : RtpHeader) : Prop where
  version : h.version = h'.version
  marker : h.marker = h'.marker
  payloadType : h.payloadType = h'.payloadType
  sequence : h.sequence = h'.sequence
  extendedSequence : h.extendedSequence = h'.extendedSequence
  timestamp : h.timestamp = h'.timestamp
  srdLength : h.srdLength = h'.srdLength
  row : h.row = h'.row
  field : h.field = h'.field
  offset : h.offset = h'.offset

/-- From equal sequence numbers and timestamps, packet by packet: packet `i` of as
many calls, where both have one. The generators may differ in how many packets a
call makes: a chunk of the send stream ends with its field, and one of the writer
runs on into the next. No divisor of the generators is zero. -/
structure GeneratorsAgree (s : AppSettings) : Prop where
  packets_pos : 0 < s.media.packetsInFrameField
  line_pos : 0 < s.media.packetsInLine
  rows_pos : 0 < s.media.linesInFrameField
  agree : ∀ (s0 t0 : UInt32) (calls i : Nat) (sent written : RtpHeader),
    (RtpVideoSendStream.prepareChunks s.streamSettings
        (List.replicate calls s.numOfPacketsInChunk)
        { rtpSequence := s0.toNat, rtpTimestamp := t0.toNat }).1[i]? = some sent →
      (RtpVideoBufferWriter.runCalls s.media
        (List.replicate calls (.writeBuffer s.numOfPacketsInChunk))
        { rtpSequence := s0.toNat, rtpTimestamp := t0.toNat }).1[i]? = some written →
      SameHeader sent written

/-- Rows of the send stream lose nothing: a field of one row, or chunks of whole
lines or fields, even frames and fifteen bits. -/
structure RowsKept (s : AppSettings) : Prop where
  rows_le : s.media.linesInFrameField ≤ 2 ^ 15
  chunk : s.media.packetsInLine ∣ s.numOfPacketsInChunk ∨
    s.media.packetsInFrameField ≤ s.numOfPacketsInChunk
  height : s.media.videoScanType = .Interlaced → 2 ∣ s.media.resolution.height.toNat

/-- The settings the generators agree on. -/
structure GeneratorsMatch (s : AppSettings) : Prop where
  line_pos : 0 < s.media.packetsInLine
  rows_pos : 0 < s.media.linesInFrameField
  headerDataSplit : s.headerDataSplit = false
  line : s.media.packetsInLine * s.media.pixelsPerPacket = s.media.resolution.width.toNat
  format : (s.media.samplingType = .YCbCr_4_2_2 ∧ s.media.bitDepth = ._10) ∨
    s.media.packetsInLine = 1
  rows : s.media.linesInFrameField = 1 ∨ RowsKept s

/-- Row and field bit of a word, and what they say of its row. -/
theorem rowField_eq_iff {a b : Nat} {bit : Bool} (hWord : a < 2 ^ 16)
    (hBit : bit = true → a < 2 ^ 15) :
    ((a ||| (bit.toNat <<< 15)) % 2 ^ 15 = b % 2 ^ 15 ∧
        decide ((a ||| (bit.toNat <<< 15)) / 2 ^ 15 = 1) = bit) ↔ a = b % 2 ^ 15 := by
  cases bit with
  | false =>
    show ((a ||| 0) % 2 ^ 15 = b % 2 ^ 15 ∧ decide ((a ||| 0) / 2 ^ 15 = 1) = false) ↔ _
    rw [Nat.or_zero, decide_eq_false_iff_not]
    omega
  | true =>
    -- with its bit set the row has fifteen bits, and the two do not mix
    have hRow := hBit rfl
    obtain ⟨hTop, hLow⟩ := RtpHeader.topBit_add hRow true
    rw [ByteStore.or_shiftLeft_eq_add hRow, hTop, hLow]
    exact and_iff_left rfl

/-- What the send stream takes for pixels: a fifth of the doubled payload. It is
right in one format. -/
structure GroupsOfPayload (sampling : VideoSampling) (bitDepth : ColorBitDepth) : Prop where
  pos : 0 < rawPayloadSize sampling bitDepth * 2 / 5
  lt : rawPayloadSize sampling bitDepth * 2 / 5 < 2 ^ 15
  pixels_lt : packetPixels sampling bitDepth < 2 ^ 15
  raw_ge : 20 ≤ rawPayloadSize sampling bitDepth
  raw_lt : rawPayloadSize sampling bitDepth < 2 ^ 16
  payload : colorDepthToPayloadSize sampling bitDepth = rawPayloadSize sampling bitDepth + 20
  format : rawPayloadSize sampling bitDepth * 2 / 5 = packetPixels sampling bitDepth ↔
    sampling = .YCbCr_4_2_2 ∧ bitDepth = ._10

theorem groupsOfPayload_of_ratio {sampling : VideoSampling} {bitDepth : ColorBitDepth}
    {bytes pixels : Nat} (h : colorDepthToPixelRatio sampling bitDepth = some (bytes, pixels)) :
    GroupsOfPayload sampling bitDepth := by
  revert h
  cases sampling <;> cases bitDepth <;> rintro ⟨⟩ <;>
    exact ⟨by decide, by decide, by decide, by decide, by decide, by decide, by decide⟩

section Settings

variable {s s' : AppSettings} {bytes pixels : Nat}

/-- The payload size of a packet, with or without its header. -/
theorem packetPayloadSize_eq (h : Computed s s' bytes pixels) :
    s'.packetPayloadSize = if s'.headerDataSplit then
      rawPayloadSize s.media.samplingType s.media.bitDepth
    else rawPayloadSize s.media.samplingType s.media.bitDepth + 20 := by
  rw [← (groupsOfPayload_of_ratio h.ratio).payload, h.settings]
  rfl

theorem groupSize_eq (h : Computed s s' bytes pixels) (hSplit : s'.headerDataSplit = false) :
    RtpVideoSendStream.groupSize s'.streamSettings =
      rawPayloadSize s.media.samplingType s.media.bitDepth * 2 / 5 := by
  have hGroups := groupsOfPayload_of_ratio h.ratio
  show (s'.packetPayloadSize - 20) * 2 / 5 % 2 ^ 16 = _
  rw [packetPayloadSize_eq h, hSplit, if_neg (by decide), Nat.add_sub_cancel]
  have := hGroups.lt
  exact Nat.mod_eq_of_lt (by omega)

/-- An interlaced field has half the lines of its frame, no more than 2 ^ 15. -/
theorem rows_lt_of_interlaced (h : Computed s s' bytes pixels)
    (hScan : s'.media.videoScanType = .Interlaced) : s'.media.linesInFrameField < 2 ^ 15 := by
  rw [h.settings] at hScan ⊢
  have hScan' : s.media.videoScanType = .Interlaced := hScan
  have hHeight := s.media.resolution.height.toNat_lt
  show s.media.resolution.height.toNat / s.media.videoScanType.fields < 2 ^ 15
  rw [VideoScanType.fields, if_pos hScan']
  omega

/-- Packet by packet, three things can differ. -/
theorem sameHeader_iff (h : Computed s s' bytes pixels) (hRows : 0 < s'.media.linesInFrameField)
    (s0 t0 i : Nat) :
    SameHeader
        (RtpVideoSendStream.preparedHeader s'.streamSettings s'.numOfPacketsInChunk s0 t0 i)
        (RtpVideoBufferWriter.buildRtpHeader s'.media
          (RtpVideoBufferWriter.writtenState s'.media s0 t0 i)) ↔
      s'.headerDataSplit = false ∧
        chunkLines s'.media.packetsInLine s'.numOfPacketsInChunk s'.media.packetsInFrameField i %
            s'.media.resolution.height.toNat % s'.media.linesInFrameField =
          marks s'.media.packetsInLine s'.media.packetsInFrameField i %
            s'.media.linesInFrameField % 2 ^ 15 ∧
        RtpVideoSendStream.offsetOf s'.streamSettings i % 2 ^ 15 =
          i * s'.media.pixelsPerPacket % s'.media.resolution.width.toNat % 2 ^ 15 := by
  have hGroups := groupsOfPayload_of_ratio h.ratio
  have hRaw : s'.media.rawPacketPayloadSize =
      rawPayloadSize s.media.samplingType s.media.bitDepth := by
    rw [h.settings]
    rfl
  have hNumber : RtpVideoSendStream.numberOfRows s'.streamSettings =
      s'.media.linesInFrameField := by
    rw [h.settings]
    rfl
  have hLinesLe : s'.media.linesInFrameField < 2 ^ 16 := by
    rw [h.settings]
    exact (Nat.div_le_self _ _).trans_lt s.media.resolution.height.toNat_lt
  have hRowField := @rowField_eq_iff
    (chunkLines s'.media.packetsInLine s'.numOfPacketsInChunk s'.media.packetsInFrameField i %
      s'.media.resolution.height.toNat % s'.media.linesInFrameField)
    (marks s'.media.packetsInLine s'.media.packetsInFrameField i % s'.media.linesInFrameField)
    (secondField s'.media i) ((Nat.mod_lt _ hRows).trans hLinesLe) fun hSecond =>
      (Nat.mod_lt _ hRows).trans (rows_lt_of_interlaced h (of_decide_eq_true hSecond).1)
  have hSendWord : (RtpVideoSendStream.preparedHeader s'.streamSettings s'.numOfPacketsInChunk
      s0 t0 i).rowWord =
        (chunkLines s'.media.packetsInLine s'.numOfPacketsInChunk s'.media.packetsInFrameField i %
          s'.media.resolution.height.toNat % s'.media.linesInFrameField) |||
            ((secondField s'.media i).toNat <<< 15) := by
    rw [← hNumber]
    rfl
  have hWriteRow := RtpVideoBufferWriter.row_buildRtpHeader s'.media
    (RtpVideoBufferWriter.writtenState s'.media s0 t0 i)
  have hWriteField := RtpVideoBufferWriter.field_buildRtpHeader s'.media
    (RtpVideoBufferWriter.writtenState s'.media s0 t0 i)
  have hWriteLine : (RtpVideoBufferWriter.writtenState s'.media s0 t0 i).lineNumber %
      s'.media.linesInFrameField =
        marks s'.media.packetsInLine s'.media.packetsInFrameField i %
          s'.media.linesInFrameField := Nat.mod_mod _ _
  rw [hWriteLine] at hWriteRow
  constructor
  · intro hSame
    refine ⟨?_, ?_, ?_⟩
    · by_contra hSplit
      -- without its header a packet seems twenty bytes short
      have hLength : (s'.packetPayloadSize - 20) % 2 ^ 16 =
          s'.media.rawPacketPayloadSize % 2 ^ 16 := hSame.srdLength
      rw [packetPayloadSize_eq h, if_pos (Bool.eq_true_of_not_eq_false hSplit), hRaw] at hLength
      have hLeast := hGroups.raw_ge
      have hMost := hGroups.raw_lt
      omega
    · -- row and field bit share a word
      refine hRowField.mp ⟨?_, ?_⟩
      · rw [← hSendWord, ← hWriteRow]
        exact hSame.row
      · rw [← hSendWord]
        exact hSame.field.trans hWriteField
    · exact hSame.offset.trans (Nat.mod_mod _ _)
  · rintro ⟨hSplit, hRow, hOffset⟩
    obtain ⟨hLow, hTop⟩ := hRowField.mpr hRow
    rw [← hSendWord] at hLow hTop
    refine ⟨rfl, ?_, ?_, rfl, rfl, ?_, ?_, ?_, ?_, ?_⟩
    · exact (RtpVideoSendStream.marker_build211020RtpHeader _ _).trans
        (RtpVideoBufferWriter.marker_buildRtpHeader _ _).symm
    · show (96 ||| if _ then 0x80 else 0) % 2 ^ 7 = (96 % 2 ^ 7 + if _ then 2 ^ 7 else 0) % 2 ^ 7
      split <;> split <;> rfl
    · show RtpVideoSendStream.fieldTimestamp s'.streamSettings t0 i = _
      rw [RtpVideoSendStream.fieldTimestamp,
        show RtpVideoSendStream.ticks s'.streamSettings = _ from streamTicks_eq h _]
      rfl
    · show (s'.packetPayloadSize - 20) % 2 ^ 16 = s'.media.rawPacketPayloadSize % 2 ^ 16
      rw [packetPayloadSize_eq h, hSplit, if_neg (by decide), hRaw, Nat.add_sub_cancel]
    · exact hLow.trans hWriteRow.symm
    · exact hTop.trans hWriteField.symm
    · exact hOffset.trans (Nat.mod_mod _ _).symm

/-- The lines of a field of tiled lines. -/
structure FieldLines (m : MediaSettings) : Prop where
  rows : 0 < m.packetsInLine → m.packetsInFrameField / m.packetsInLine = m.linesInFrameField
  rows_le : m.linesInFrameField ≤ m.resolution.height.toNat
  frame : m.packetsInFrameField = m.packetsInLine * m.linesInFrameField ∨
    m.resolution.height.toNat = 2 * m.linesInFrameField + 1
  even : (m.videoScanType = .Interlaced → 2 ∣ m.resolution.height.toNat) ↔
    m.resolution.height.toNat ≠ 2 * m.linesInFrameField + 1
  rows_dvd : (m.videoScanType = .Interlaced → 2 ∣ m.resolution.height.toNat) →
    m.linesInFrameField ∣ m.resolution.height.toNat

theorem fieldLines_of_tiled (h : Computed s s' bytes pixels)
    (hTiled : s'.media.packetsInLine * s'.media.pixelsPerPacket =
      s'.media.resolution.width.toNat) : FieldLines s'.media := by
  have hResolution : s'.media.resolution = s.media.resolution := by
    rw [h.settings]
    rfl
  have hScan : s'.media.videoScanType = s.media.videoScanType := by
    rw [h.settings]
    rfl
  have hLines : s'.media.linesInFrameField =
      s'.media.resolution.height.toNat / s'.media.videoScanType.fields := by
    rw [h.settings]
    rfl
  obtain ⟨-, hPackets, -⟩ := packets_of_linePixels h (hResolution ▸ hTiled)
  rw [← hResolution, ← hScan] at hPackets
  have hHeight : 0 < s'.media.resolution.height.toNat := hResolution ▸ h.height_pos
  have hRows : 0 < s'.media.packetsInLine →
      s'.media.packetsInFrameField / s'.media.packetsInLine = s'.media.linesInFrameField := by
    intro hLine
    rw [hPackets, hLines, Nat.div_div_eq_div_mul, Nat.mul_comm _ s'.media.packetsInLine,
      Nat.mul_div_mul_left _ _ hLine]
  by_cases hInterlaced : s'.media.videoScanType = .Interlaced
  · rw [VideoScanType.fields, if_pos hInterlaced] at hPackets hLines
    refine ⟨hRows, by omega, ?_, ⟨?_, fun _ _ => by omega⟩, ?_⟩
    · rcases Nat.even_or_odd' s'.media.resolution.height.toNat with ⟨half, hEven | hOdd⟩
      · left
        rw [hPackets, hLines, hEven, Nat.mul_left_comm, Nat.mul_div_cancel_left _ (by decide),
          Nat.mul_div_cancel_left _ (by decide)]
      · right
        omega
    · intro hEven
      have := hEven hInterlaced
      omega
    · intro hEven
      obtain ⟨half, hHalf⟩ := hEven hInterlaced
      rw [hLines, hHalf, Nat.mul_div_cancel_left _ (by decide)]
      exact Nat.dvd_mul_left _ _
  · rw [VideoScanType.fields, if_neg hInterlaced, Nat.div_one] at hPackets hLines
    rw [← hLines] at hPackets
    refine ⟨hRows, hLines.le, Or.inl hPackets, ?_, fun _ => hLines ▸ Nat.dvd_refl _⟩
    exact iff_of_true (fun hScan => absurd hScan hInterlaced) (by omega)

/-- The rows of all packets. -/
theorem rows_agree_iff (hField : FieldLines s'.media) (hLine : 0 < s'.media.packetsInLine)
    (hLines : 0 < s'.media.linesInFrameField) (hChunk : 0 < s'.numOfPacketsInChunk) :
    (∀ i, chunkLines s'.media.packetsInLine s'.numOfPacketsInChunk s'.media.packetsInFrameField i %
          s'.media.resolution.height.toNat % s'.media.linesInFrameField =
        marks s'.media.packetsInLine s'.media.packetsInFrameField i %
          s'.media.linesInFrameField % 2 ^ 15) ↔
      s'.media.linesInFrameField = 1 ∨ RowsKept s' := by
  have hRows := hField.rows hLine
  constructor
  · intro hAgree
    rcases Nat.lt_or_eq_of_le (Nat.succ_le_of_lt hLines) with hSeveral | hOne
    · -- two rows or more: every loss shows in some packet
      right
      have hKept : RowsAgree s'.media.packetsInLine s'.numOfPacketsInChunk
          s'.media.packetsInFrameField s'.media.linesInFrameField
            s'.media.resolution.height.toNat :=
        ⟨hLine, hChunk, hRows, hSeveral, hField.rows_le, hAgree⟩
      have hCover := hKept.cover hField.frame
      have hEven := hField.even.mpr
        (hKept.not_odd ((marks_of_cover hCover (Nat.le_refl _)).trans hRows))
      exact ⟨hKept.rows_le hCover (hField.rows_dvd hEven), hCover, hEven⟩
    · exact Or.inl hOne.symm
  · rintro (hOne | hKept) i
    · rw [hOne, Nat.mod_one, Nat.mod_one]
      rfl
    · have hPackets : 0 < s'.media.packetsInFrameField := by
        refine Nat.pos_of_ne_zero fun hNone => ?_
        rw [hNone, Nat.zero_div] at hRows
        omega
      exact rows_agree_of_cover hPackets (hField.rows_dvd hKept.height) hLines hKept.rows_le
        hKept.chunk i

end Settings

/-- **Agreement of the generators.** For every accepted input they produce the
same packets exactly if the packets tile the lines, are taken without header-data
split, count ten-bit 4:2:2 pixels or lines of one packet, and keep their rows. -/
theorem generators_agree_iff {s s' : AppSettings}
    (hInit : initializeCommonMediaSettings s = some s') :
    GeneratorsAgree s' ↔ GeneratorsMatch s' := by
  obtain ⟨bytes, pixels, h⟩ := computed_of_eq_some hInit
  have hGroups := groupsOfPayload_of_ratio h.ratio
  have hWhole := wholeGroups_of_ratio h.ratio
  have hPixels := pixelsPerPacket_eq h
  have hFormat : s'.media.samplingType = s.media.samplingType ∧
      s'.media.bitDepth = s.media.bitDepth := by
    rw [h.settings]
    exact ⟨rfl, rfl⟩
  have hLinesLe : s'.media.linesInFrameField ≤ 2 ^ 16 := by
    rw [h.settings]
    exact ((Nat.div_le_self _ _).trans_lt s.media.resolution.height.toNat_lt).le
  have hInside : s'.media.packetsInLine * s'.media.pixelsPerPacket ≤
      s'.media.resolution.width.toNat := by
    rw [hPixels, h.settings]
    exact packets_le_of_bytes hWhole.exact hWhole.bytes_pos h.height_pos
      ((Nat.mul_le_mul_right _ (Nat.mod_le _ _)).trans (Nat.div_mul_le_self _ _))
  have hOffsets (hLine : 0 < s'.media.packetsInLine) (hSplit : s'.headerDataSplit = false) :
      (∀ i, RtpVideoSendStream.offsetOf s'.streamSettings i % 2 ^ 15 =
          i * s'.media.pixelsPerPacket % s'.media.resolution.width.toNat % 2 ^ 15) ↔
        s'.media.packetsInLine * s'.media.pixelsPerPacket = s'.media.resolution.width.toNat ∧
          ((s'.media.samplingType = .YCbCr_4_2_2 ∧ s'.media.bitDepth = ._10) ∨
            s'.media.packetsInLine = 1) := by
    have hGroup := groupSize_eq h hSplit
    rw [hFormat.1, hFormat.2, ← hGroups.format, ← hGroup, ← hPixels]
    refine offsets_agree_iff hLine ?_ ?_ hInside s'.media.resolution.width.toNat_lt ?_
    · rw [hGroup]
      exact ⟨hGroups.pos, hGroups.lt⟩
    · rw [hPixels]
      exact ⟨hWhole.packetPixels_pos, hGroups.pixels_lt⟩
    · intro hSame
      rw [hGroup, hPixels] at hSame
      obtain ⟨hSampling, hDepth⟩ := hGroups.format.mp hSame
      have hPacket : s'.media.pixelsPerPacket = 480 := by
        rw [hPixels, hSampling, hDepth]
        rfl
      show s'.media.packetsInLine * s'.media.pixelsPerPacket ≠ 2 ^ 15
      rw [hPacket]
      omega
  constructor
  · rintro ⟨hPackets, hLine, hLines, hAgree⟩
    -- chunk by chunk, as many packets as it takes
    have hSame (i : Nat) := (sameHeader_iff h hLines 0 0 i).mp <| by
      obtain ⟨hSent, hSentAt⟩ := @RtpVideoSendStream.prepareChunks_at s'.streamSettings
        s'.numOfPacketsInChunk 0 0 (i + 1) hPackets h.chunk_pos (by decide) (by decide)
      obtain ⟨hWritten, hWrittenAt⟩ := @RtpVideoBufferWriter.runWrites_at s'.media 0 0
        s'.numOfPacketsInChunk (i + 1) hPackets hLines hLinesLe (by decide) (by decide)
      have hMany : i + 1 ≤ (i + 1) * s'.numOfPacketsInChunk :=
        Nat.le_mul_of_pos_right _ h.chunk_pos
      have hSentGet := List.getElem?_eq_getElem (show i < _ from hSent)
      have hWrittenGet := List.getElem?_eq_getElem (show i < _ from hMany.trans_eq hWritten.symm)
      rw [← hSentAt i _ hSentGet, ← hWrittenAt i _ hWrittenGet]
      exact hAgree 0 0 (i + 1) i _ _ hSentGet hWrittenGet
    -- the first packet tells the split, and all of them the offsets and the rows
    have hSplit := (hSame 0).1
    obtain ⟨hTiled, hPixelFormat⟩ := (hOffsets hLine hSplit).mp fun i => (hSame i).2.2
    refine ⟨hLine, hLines, hSplit, hTiled, hPixelFormat, ?_⟩
    exact (rows_agree_iff (fieldLines_of_tiled h hTiled) hLine hLines h.chunk_pos).mp
      fun i => (hSame i).2.1
  · rintro ⟨hLine, hLines, hSplit, hTiled, hPixelFormat, hRows⟩
    have hField := fieldLines_of_tiled h hTiled
    have hPackets : 0 < s'.media.packetsInFrameField := by
      refine Nat.pos_of_ne_zero fun hNone => ?_
      have hZero := hField.rows hLine
      rw [hNone, Nat.zero_div] at hZero
      omega
    refine ⟨hPackets, hLine, hLines, ?_⟩
    intro s0 t0 calls i sent written hSent hWritten
    obtain ⟨-, hSentAt⟩ := @RtpVideoSendStream.prepareChunks_at s'.streamSettings
      s'.numOfPacketsInChunk s0.toNat t0.toNat calls hPackets h.chunk_pos s0.toNat_lt t0.toNat_lt
    obtain ⟨-, hWrittenAt⟩ := @RtpVideoBufferWriter.runWrites_at s'.media s0.toNat t0.toNat
      s'.numOfPacketsInChunk calls hPackets hLines hLinesLe s0.toNat_lt t0.toNat_lt
    rw [hSentAt i sent hSent, hWrittenAt i written hWritten, sameHeader_iff h hLines]
    exact ⟨hSplit, (rows_agree_iff hField hLine hLines h.chunk_pos).mpr hRows i,
      (hOffsets hLine hSplit).mpr ⟨hTiled, hPixelFormat⟩ i⟩

/-- Full HD in the default format. -/
theorem generators_agree_iff_fullHd :
    ∃ s', initializeCommonMediaSettings (fullHd ⟨25, 1⟩ .Interlaced) = some s' ∧
      GeneratorsAgree s' := by
  refine ⟨_, rfl, (@generators_agree_iff (fullHd ⟨25, 1⟩ .Interlaced) _ rfl).mpr ?_⟩
  exact
    { line_pos := by decide
      rows_pos := by decide
      headerDataSplit := rfl
      line := by decide
      format := .inl ⟨rfl, rfl⟩
      rows := .inr ⟨by decide, .inl (by decide), fun _ => by decide⟩ }

/-- The same frame in eight bits: the second packet begins at pixel 640 of its
line for the writer, and at 512 for the send stream. -/
theorem eight_bit_offsets_differ :
    ∃ s s', s = { fullHd ⟨25, 1⟩ .Progressive with
        media := { (fullHd ⟨25, 1⟩ .Progressive).media with bitDepth := ._8 } } ∧
      initializeCommonMediaSettings s = some s' ∧ ¬ GeneratorsAgree s' := by
  refine ⟨_, _, rfl, rfl, fun hAgree => ?_⟩
  have hSecond := (hAgree.agree 0 0 1 1 _ _ rfl rfl).offset
  exact absurd hSecond (by decide +kernel)

end RivermaxDevKit
