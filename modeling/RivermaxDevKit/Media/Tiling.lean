import Mathlib.Data.Nat.ModEq
import RivermaxDevKit.Media.Settings

/-!
# Packets, lines and frames

The packet counts `initialize_common_media_settings` (`media_utils.cpp`)
computes by truncating divisions, and when nothing is truncated.

* `packets_le_of_bytes` — packets never cover more than a line.
* `line_tiled_iff` — they cover a line when a line is a whole number of packets.
* `settings_tile_iff` — the whole of the settings.
-/

namespace RivermaxDevKit

/-! ## Formats -/

/-- The payload of a full packet behind its headers. -/
def rawPayloadSize (sampling : VideoSampling) (bitDepth : ColorBitDepth) : Nat :=
  colorDepthToPayloadSize sampling bitDepth - RTP_ST_2110_20_SINGLE_SRD_HEADER_SIZE

/-- The pixels a full packet holds. -/
def packetPixels (sampling : VideoSampling) (bitDepth : ColorBitDepth) : Nat :=
  match colorDepthToPixelRatio sampling bitDepth with
  | none => 0
  | some (bytes, pixels) => rawPayloadSize sampling bitDepth * pixels / bytes

/-- A full packet of a supported format holds whole pixel groups. -/
structure WholeGroups (sampling : VideoSampling) (bitDepth : ColorBitDepth) (bytes pixels : Nat) :
    Prop where
  bytes_pos : 0 < bytes
  pixels_pos : 0 < pixels
  packetPixels_pos : 0 < packetPixels sampling bitDepth
  exact : rawPayloadSize sampling bitDepth * pixels = packetPixels sampling bitDepth * bytes

theorem wholeGroups_of_ratio {sampling : VideoSampling} {bitDepth : ColorBitDepth}
    {bytes pixels : Nat} (h : colorDepthToPixelRatio sampling bitDepth = some (bytes, pixels)) :
    WholeGroups sampling bitDepth bytes pixels := by
  revert h
  -- an unsupported format has no ratio
  cases sampling <;> cases bitDepth <;> rintro ⟨⟩ <;>
    exact ⟨by decide, by decide, by decide, by decide⟩

/-- A successful initialization, taken apart. -/
structure Computed (s s' : AppSettings) (bytes pixels : Nat) : Prop where
  ratio : colorDepthToPixelRatio s.media.samplingType s.media.bitDepth = some (bytes, pixels)
  height_pos : 0 < s.media.resolution.height.toNat
  custom_pos : s.numOfPacketsInChunkSpecified → 0 < s.numOfPacketsInChunk
  chunk_pos : 0 < s'.numOfPacketsInChunk
  settings : s' = commonMediaSettings s bytes pixels

theorem computed_of_eq_some {s s' : AppSettings} (h : initializeCommonMediaSettings s = some s') :
    ∃ bytes pixels, Computed s s' bytes pixels := by
  unfold initializeCommonMediaSettings at h
  cases hRatio : colorDepthToPixelRatio s.media.samplingType s.media.bitDepth with
  | none =>
    rw [hRatio] at h
    cases h
  | some ratio =>
    obtain ⟨bytes, pixels⟩ := ratio
    rw [hRatio] at h
    obtain ⟨hAccepted, hSettings⟩ := Option.ite_none_left_eq_some.mp h
    obtain rfl := Option.some.inj hSettings
    rw [not_or, not_or, not_and] at hAccepted
    obtain ⟨hHeight, hCustom, hChunk⟩ := hAccepted
    refine ⟨bytes, pixels, hRatio, ?_, ?_, Nat.pos_of_ne_zero hChunk, rfl⟩
    · exact Nat.pos_of_ne_zero fun hZero => hHeight (UInt16.toNat_inj.mp hZero)
    · exact fun hSpecified => Nat.pos_of_ne_zero (hCustom hSpecified)

/-! ## Lines -/

section Lines

variable {raw p bytes pixels width height : Nat}

/-- The bytes of `height` lines of `width` pixels, in whole packets of `p`
pixels: no more than the lines hold. -/
theorem packets_le_of_bytes (hExact : raw * pixels = p * bytes) (hBytes : 0 < bytes)
    (hHeight : 0 < height) {frameBytes : Nat}
    (hFrame : frameBytes * pixels ≤ width * height * bytes) :
    frameBytes / raw / height * p ≤ width := by
  have hRaw : frameBytes / raw / height * height * raw ≤ frameBytes :=
    (Nat.mul_le_mul_right raw (Nat.div_mul_le_self _ _)).trans (Nat.div_mul_le_self _ _)
  generalize frameBytes / raw / height = perLine at hRaw ⊢
  have hGroups : perLine * p * (height * bytes) ≤ width * (height * bytes) :=
    calc perLine * p * (height * bytes)
        = perLine * height * (p * bytes) := by ring
      _ = perLine * height * raw * pixels := by rw [← hExact]; ring
      _ ≤ frameBytes * pixels := Nat.mul_le_mul_right pixels hRaw
      _ ≤ width * (height * bytes) := by rw [← Nat.mul_assoc]; exact hFrame
  exact Nat.le_of_mul_le_mul_right hGroups (Nat.mul_pos hHeight hBytes)

/-- The bytes of a frame whose lines are whole packets. -/
theorem frameBytes_of_dvd (hExact : raw * pixels = p * bytes) (hPixels : 0 < pixels) (k : Nat) :
    k * p * height * bytes / pixels = k * height * raw := by
  have hBytes : k * p * height * bytes = k * height * raw * pixels := by
    calc k * p * height * bytes = k * height * (p * bytes) := by ring
      _ = k * height * raw * pixels := by rw [← hExact]; ring
  rw [hBytes, Nat.mul_div_cancel _ hPixels]

/-- **Lines of whole packets.** The packets of a line cover it exactly if the
width is a multiple of a packet's pixels and the bytes of a frame fit their
`uint32_t`. -/
theorem line_tiled_iff (hExact : raw * pixels = p * bytes) (hRaw : 0 < raw) (hPixels : 0 < pixels)
    (hHeight : 0 < height) :
    width * height * bytes / pixels % 2 ^ 32 / raw / height * p = width ↔
      p ∣ width ∧ width * height * bytes / pixels < 2 ^ 32 := by
  constructor
  · intro hTiled
    refine ⟨⟨_, (Nat.mul_comm _ _).trans hTiled |>.symm⟩, ?_⟩
    by_contra hWrap
    -- a frame that wraps has fewer bytes than its packets
    have hLess : width * height * bytes / pixels % 2 ^ 32 < width * height * bytes / pixels :=
      Nat.lt_of_lt_of_le (Nat.mod_lt _ (by decide)) (Nat.not_lt.mp hWrap)
    generalize width * height * bytes / pixels % 2 ^ 32 = frameBytes at hTiled hLess
    have hPackets : frameBytes / raw / height * height * raw ≤ frameBytes :=
      (Nat.mul_le_mul_right raw (Nat.div_mul_le_self _ _)).trans (Nat.div_mul_le_self _ _)
    have hBytes : width * height * bytes / pixels =
        frameBytes / raw / height * height * raw := by
      have hFrame := @frameBytes_of_dvd _ _ _ _ height hExact hPixels (frameBytes / raw / height)
      rwa [hTiled] at hFrame
    omega
  · rintro ⟨⟨k, rfl⟩, hFits⟩
    rw [Nat.mod_eq_of_lt hFits, Nat.mul_comm p k, frameBytes_of_dvd hExact hPixels,
      Nat.mul_div_cancel _ hRaw, Nat.mul_div_cancel _ hHeight]

/-- Lines of whole packets make up a frame of whole packets. -/
theorem packetsInFrame_of_tiled (hExact : raw * pixels = p * bytes) (hRaw : 0 < raw)
    (hPixels : 0 < pixels) (hHeight : 0 < height)
    (hTiled : width * height * bytes / pixels % 2 ^ 32 / raw / height * p = width) :
    width * height * bytes / pixels % 2 ^ 32 / raw =
      width * height * bytes / pixels % 2 ^ 32 / raw / height * height := by
  obtain ⟨⟨k, rfl⟩, hFits⟩ := (line_tiled_iff hExact hRaw hPixels hHeight).mp hTiled
  rw [Nat.mod_eq_of_lt hFits, Nat.mul_comm p k, frameBytes_of_dvd hExact hPixels,
    Nat.mul_div_cancel _ hRaw, Nat.mul_div_cancel _ hHeight]

/-- Half a frame of whole lines is whole lines, unless the frame has an odd line
of several packets. -/
theorem field_tiled_iff {perLine fields : Nat} (hFields : fields = 1 ∨ fields = 2) :
    perLine * height / fields = height / fields * perLine ↔
      fields = 1 ∨ 2 ∣ height ∨ perLine ≤ 1 := by
  rcases hFields with rfl | rfl
  · rw [Nat.div_one, Nat.div_one, Nat.mul_comm]
    exact iff_of_true rfl (Or.inl rfl)
  · obtain ⟨half, rfl | rfl⟩ : ∃ half, height = 2 * half ∨ height = 2 * half + 1 :=
      ⟨height / 2, by omega⟩
    · rw [show perLine * (2 * half) = half * perLine * 2 by ring, Nat.mul_div_cancel _ (by decide),
        Nat.mul_div_cancel_left _ (by decide)]
      exact iff_of_true rfl (Or.inr (Or.inl ⟨half, rfl⟩))
    · rw [show perLine * (2 * half + 1) = perLine + half * perLine * 2 by ring,
        Nat.add_mul_div_right _ _ (by decide), show (2 * half + 1) / 2 = half by omega]
      omega

end Lines

/-! ## Settings -/

/-- The bytes of a frame, before they are cast. -/
def frameBytes (m : MediaSettings) : Nat :=
  match colorDepthToPixelRatio m.samplingType m.bitDepth with
  | none => 0
  | some (bytes, pixels) =>
    m.resolution.width.toNat * m.resolution.height.toNat * bytes / pixels

/-- The bytes of `n` pixels. -/
def bytesOfPixels (m : MediaSettings) (n : Nat) : ℚ :=
  match colorDepthToPixelRatio m.samplingType m.bitDepth with
  | none => 0
  | some (bytes, pixels) => n * bytes / pixels

/-- The custom chunk size was taken: it divides the packets of the frame. -/
def CustomChunk (s s' : AppSettings) : Prop :=
  s.numOfPacketsInChunkSpecified ∧
    s.numOfPacketsInChunk ∣ s'.media.bytesPerFrame / s'.media.rawPacketPayloadSize

/-- Packets, lines and chunks that leave nothing over. A field has the lines of
the frame, or half of them. -/
structure SettingsTile (s s' : AppSettings) : Prop where
  lineBytes : ((s'.media.packetsInLine * s'.media.rawPacketPayloadSize : Nat) : ℚ) =
    bytesOfPixels s.media s.media.resolution.width.toNat
  linePixels : s'.media.packetsInLine * s'.media.pixelsPerPacket =
    s.media.resolution.width.toNat
  packets : s'.media.packetsInFrameField =
    s'.media.linesInFrameField * s'.media.packetsInLine
  fieldBytes : ((s'.media.packetsInFrameField * s'.media.rawPacketPayloadSize : Nat) : ℚ) =
    bytesOfPixels s.media (s.media.resolution.width.toNat *
      (s.media.resolution.height.toNat / s.media.videoScanType.fields))
  chunks : CustomChunk s s' →
    s'.media.chunksInFrameField * s'.numOfPacketsInChunk = s'.media.packetsInFrameField

/-- What it takes of the input. -/
structure InputTiles (s : AppSettings) : Prop where
  line : packetPixels s.media.samplingType s.media.bitDepth ∣ s.media.resolution.width.toNat
  fits : frameBytes s.media < 2 ^ 32
  field : s.media.videoScanType = .Interlaced → 2 ∣ s.media.resolution.height.toNat ∨
    s.media.resolution.width.toNat ≤ packetPixels s.media.samplingType s.media.bitDepth
  chunk : s.numOfPacketsInChunkSpecified →
    s.numOfPacketsInChunk ∣ s.media.resolution.width.toNat /
        packetPixels s.media.samplingType s.media.bitDepth * s.media.resolution.height.toNat →
      s.numOfPacketsInChunk ∣ s.media.resolution.width.toNat /
        packetPixels s.media.samplingType s.media.bitDepth * s.media.resolution.height.toNat /
          s.media.videoScanType.fields

/-- Chunks cover the packets exactly if they divide them. -/
theorem ceil_mul_eq_iff {packets chunk : Nat} (hChunk : 0 < chunk) :
    (packets + chunk - 1) / chunk * chunk = packets ↔ chunk ∣ packets := by
  constructor
  · intro h
    exact ⟨_, (Nat.mul_comm _ _).trans h |>.symm⟩
  · rintro ⟨k, rfl⟩
    rw [Nat.add_sub_assoc hChunk, Nat.mul_add_div hChunk, Nat.div_eq_of_lt (by omega),
      Nat.add_zero, Nat.mul_comm]

theorem fields_eq (scan : VideoScanType) : scan.fields = 1 ∨ scan.fields = 2 := by
  unfold VideoScanType.fields
  split
  · exact Or.inr rfl
  · exact Or.inl rfl

section Settings

variable {s s' : AppSettings} {bytes pixels : Nat}

theorem pixelsPerPacket_eq (h : Computed s s' bytes pixels) :
    s'.media.pixelsPerPacket = packetPixels s.media.samplingType s.media.bitDepth := by
  rw [h.settings, packetPixels, h.ratio]
  rfl

theorem rawPayloadSize_pos (h : Computed s s' bytes pixels) :
    0 < rawPayloadSize s.media.samplingType s.media.bitDepth := by
  have hWhole := wholeGroups_of_ratio h.ratio
  refine Nat.pos_of_ne_zero fun hZero => ?_
  have hExact := hWhole.exact
  rw [hZero, Nat.zero_mul] at hExact
  have := Nat.mul_pos hWhole.packetPixels_pos hWhole.bytes_pos
  omega

/-- The lines are tiled exactly if the input says so. -/
theorem linePixels_iff (h : Computed s s' bytes pixels) :
    s'.media.packetsInLine * s'.media.pixelsPerPacket = s.media.resolution.width.toNat ↔
      packetPixels s.media.samplingType s.media.bitDepth ∣ s.media.resolution.width.toNat ∧
        frameBytes s.media < 2 ^ 32 := by
  have hWhole := wholeGroups_of_ratio h.ratio
  rw [pixelsPerPacket_eq h, h.settings, frameBytes, h.ratio]
  exact line_tiled_iff hWhole.exact (rawPayloadSize_pos h) hWhole.pixels_pos h.height_pos

/-- The packets of a frame in tiled lines. -/
theorem packets_of_linePixels (h : Computed s s' bytes pixels)
    (hLine : s'.media.packetsInLine * s'.media.pixelsPerPacket =
      s.media.resolution.width.toNat) :
    s'.media.bytesPerFrame / s'.media.rawPacketPayloadSize =
        s'.media.packetsInLine * s.media.resolution.height.toNat ∧
      s'.media.packetsInFrameField =
        s'.media.packetsInLine * s.media.resolution.height.toNat /
          s.media.videoScanType.fields ∧
      s'.media.packetsInLine = s.media.resolution.width.toNat /
        packetPixels s.media.samplingType s.media.bitDepth := by
  have hWhole := wholeGroups_of_ratio h.ratio
  have hQuotient : s'.media.packetsInLine = s.media.resolution.width.toNat /
      packetPixels s.media.samplingType s.media.bitDepth := by
    rw [← hLine, pixelsPerPacket_eq h, Nat.mul_div_cancel _ hWhole.packetPixels_pos]
  rw [pixelsPerPacket_eq h] at hLine
  rw [h.settings] at hLine hQuotient ⊢
  have hFrame := packetsInFrame_of_tiled hWhole.exact (rawPayloadSize_pos h) hWhole.pixels_pos
    h.height_pos hLine
  exact ⟨hFrame, congrArg (· / _) hFrame, hQuotient⟩

/-- Bytes of whole packets. -/
theorem bytesOfPixels_packets (h : Computed s s' bytes pixels) (k : Nat) :
    bytesOfPixels s.media (k * packetPixels s.media.samplingType s.media.bitDepth) =
      ((k * s'.media.rawPacketPayloadSize : Nat) : ℚ) := by
  have hWhole := wholeGroups_of_ratio h.ratio
  have hPixels : (pixels : ℚ) ≠ 0 := Nat.cast_ne_zero.mpr hWhole.pixels_pos.ne'
  have hExact : ((rawPayloadSize s.media.samplingType s.media.bitDepth : Nat) : ℚ) * pixels =
      packetPixels s.media.samplingType s.media.bitDepth * bytes := by
    exact_mod_cast hWhole.exact
  rw [bytesOfPixels, h.ratio, h.settings]
  show ((k * packetPixels s.media.samplingType s.media.bitDepth : Nat) : ℚ) * bytes / pixels =
    ((k * rawPayloadSize s.media.samplingType s.media.bitDepth : Nat) : ℚ)
  rw [div_eq_iff hPixels, Nat.cast_mul, Nat.cast_mul, mul_assoc, ← hExact, mul_assoc]

theorem customChunk_eq (h : Computed s s' bytes pixels) (hCustom : CustomChunk s s') :
    s'.numOfPacketsInChunk = s.numOfPacketsInChunk := by
  rw [h.settings] at hCustom ⊢
  exact if_pos ⟨hCustom.1, Nat.mod_eq_zero_of_dvd hCustom.2⟩

/-- A line of packets and a field of lines are packets. -/
theorem packetsInFrameField_pos (h : Computed s s' bytes pixels)
    (hLine : 0 < s'.media.packetsInLine) (hLines : 0 < s'.media.linesInFrameField) :
    0 < s'.media.packetsInFrameField := by
  have hFields : 0 < s.media.videoScanType.fields := by
    rcases fields_eq s.media.videoScanType with hOne | hTwo <;> omega
  rw [h.settings] at hLine hLines ⊢
  have hFrame := (Nat.div_pos_iff.mp hLine).2
  have hHeight := (Nat.div_pos_iff.mp hLines).2
  exact Nat.div_pos (hHeight.trans hFrame) hFields

/-- **Tiling.** Packets fill the lines, lines the frame or field, and an accepted
custom chunk the field, exactly for input that divides evenly. -/
theorem settings_tile_iff (hInit : initializeCommonMediaSettings s = some s') :
    SettingsTile s s' ↔ InputTiles s := by
  obtain ⟨bytes, pixels, h⟩ := computed_of_eq_some hInit
  have hWhole := wholeGroups_of_ratio h.ratio
  have hLines : s'.media.linesInFrameField =
      s.media.resolution.height.toNat / s.media.videoScanType.fields := by
    rw [h.settings]
    rfl
  have hChunks : s'.media.chunksInFrameField =
      (s'.media.packetsInFrameField + s'.numOfPacketsInChunk - 1) / s'.numOfPacketsInChunk := by
    rw [h.settings]
    rfl
  constructor
  · intro hTile
    obtain ⟨hDvd, hFits⟩ := (linePixels_iff h).mp hTile.linePixels
    obtain ⟨hFrame, hField, hQuotient⟩ := packets_of_linePixels h hTile.linePixels
    refine ⟨hDvd, hFits, ?_, ?_⟩
    · intro hInterlaced
      have hPackets := hTile.packets
      rw [hField, hLines] at hPackets
      rcases (field_tiled_iff (fields_eq _)).mp hPackets with hOne | hEven | hSingle
      · rw [VideoScanType.fields, if_pos hInterlaced] at hOne
        contradiction
      · exact Or.inl hEven
      · -- a line of one packet
        refine Or.inr ?_
        rw [← hTile.linePixels, pixelsPerPacket_eq h]
        exact (Nat.mul_le_mul_right _ hSingle).trans (Nat.one_mul _).le
    · intro hSpecified hDivides
      rw [← hQuotient, ← hFrame] at hDivides
      have hTaken := customChunk_eq h ⟨hSpecified, hDivides⟩
      have hExact := hTile.chunks ⟨hSpecified, hDivides⟩
      rw [hChunks, ceil_mul_eq_iff h.chunk_pos, hTaken, hField, hQuotient] at hExact
      exact hExact
  · intro hInput
    have hLine := (linePixels_iff h).mpr ⟨hInput.line, hInput.fits⟩
    obtain ⟨hFrame, hField, hQuotient⟩ := packets_of_linePixels h hLine
    have hPackets : s'.media.packetsInFrameField =
        s'.media.linesInFrameField * s'.media.packetsInLine := by
      rw [hField, hLines, field_tiled_iff (fields_eq _)]
      by_cases hInterlaced : s.media.videoScanType = .Interlaced
      · rcases hInput.field hInterlaced with hEven | hSingle
        · exact Or.inr (Or.inl hEven)
        · refine Or.inr (Or.inr ?_)
          rw [hQuotient]
          exact (Nat.div_le_div_right hSingle).trans (Nat.div_self hWhole.packetPixels_pos).le
      · exact Or.inl (if_neg hInterlaced)
    refine ⟨?_, hLine, hPackets, ?_, ?_⟩
    · rw [← hLine, pixelsPerPacket_eq h, bytesOfPixels_packets h]
    · rw [hPackets, hLines, ← bytesOfPixels_packets h, ← hLine, pixelsPerPacket_eq h]
      congr 1
      ring
    · intro hCustom
      have hDivides := hCustom.2
      rw [hFrame, hQuotient] at hDivides
      rw [hChunks, ceil_mul_eq_iff h.chunk_pos, customChunk_eq h hCustom, hField, hQuotient]
      exact hInput.chunk hCustom.1 hDivides

/-- Full HD tiles. -/
theorem settings_tile_iff_fullHd :
    ∃ s', initializeCommonMediaSettings (fullHd ⟨25, 1⟩ .Interlaced) = some s' ∧
      SettingsTile (fullHd ⟨25, 1⟩ .Interlaced) s' := by
  refine ⟨_, rfl, (@settings_tile_iff (fullHd ⟨25, 1⟩ .Interlaced) _ rfl).mpr ?_⟩
  exact ⟨by decide, by decide +kernel, fun _ => .inl (by decide), fun hCustom => nomatch hCustom⟩

/-- An interlaced frame of 4320 packets in chunks of 864: the message speaks of
the field, which has 2160, and the third chunk runs over its end. -/
theorem interlaced_chunk_runs_over :
    ∃ s', initializeCommonMediaSettings
        { fullHd ⟨25, 1⟩ .Interlaced with
          numOfPacketsInChunkSpecified := true
          numOfPacketsInChunk := 864 } = some s' ∧
      ¬ SettingsTile
        { fullHd ⟨25, 1⟩ .Interlaced with
          numOfPacketsInChunkSpecified := true
          numOfPacketsInChunk := 864 } s' := by
  refine ⟨_, rfl, fun hTile => ?_⟩
  exact absurd (hTile.chunks ⟨rfl, by decide +kernel⟩) (by decide +kernel)

end Settings

end RivermaxDevKit
