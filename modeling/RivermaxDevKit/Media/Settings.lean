import Mathlib.Data.Rat.Floor
import RivermaxDevKit.Services.Definitions

/-!
# Media settings

`MediaSettings` (`media_defs.h`) and the functions of `media_utils.cpp` that
fill it: `initialize_common_media_settings` and `calculate_tro_trs`. The SDP
text is left out, no modelled function reads it.

A `double` is the rational number it stands for; only the casts to an integer
type truncate. The `int` product of width and height is the exact product. A
frame rate of zero, which the validator refuses, makes the doubles infinite and
is outside the model.
-/

namespace RivermaxDevKit

/-! ## Enumerations and tables -/

inductive VideoSampling
  | YCbCr_4_4_4
  | YCbCr_4_2_2
  | YCbCr_4_2_0
  | CLYCbCr_4_4_4
  | CLYCbCr_4_2_2
  | CLYCbCr_4_2_0
  | ICtCp_4_4_4
  | ICtCp_4_2_2
  | ICtCp_4_2_0
  | RGB
  | XYZ
  | KEY
  | Unknown
  deriving DecidableEq, Repr

inductive ColorBitDepth
  | _8
  | _10
  | _12
  | _16
  | _16f
  | Unknown
  deriving DecidableEq, Repr

inductive VideoScanType
  | Progressive
  | Interlaced
  | Unknown
  deriving DecidableEq, Repr

/-- The name of a sampling type (`EnumMapper<VideoSampling>`). -/
def VideoSampling.name : VideoSampling → String
  | YCbCr_4_4_4 => "YCbCr-4:4:4"
  | YCbCr_4_2_2 => "YCbCr-4:2:2"
  | YCbCr_4_2_0 => "YCbCr-4:2:0"
  | CLYCbCr_4_4_4 => "CLYCbCr-4:4:4"
  | CLYCbCr_4_2_2 => "CLYCbCr-4:2:2"
  | CLYCbCr_4_2_0 => "CLYCbCr-4:2:0"
  | ICtCp_4_4_4 => "ICtCp-4:4:4"
  | ICtCp_4_2_2 => "ICtCp-4:2:2"
  | ICtCp_4_2_0 => "ICtCp-4:2:0"
  | RGB => "RGB"
  | XYZ => "XYZ"
  | KEY => "KEY"
  | Unknown => "Unknown"

/-- `std::stoi(enum_to_string(bit_depth))`; `Unknown` has no number. -/
def ColorBitDepth.bits : ColorBitDepth → Nat
  | _8 => 8
  | _10 => 10
  | _12 => 12
  | _16 => 16
  | _16f => 16
  | Unknown => 0

/-- `COLOR_DEPTH_TO_PIXEL_RATIO`: bytes and pixels of a pixel group. -/
def colorDepthToPixelRatio : VideoSampling → ColorBitDepth → Option (Nat × Nat)
  | .RGB, ._8 | .YCbCr_4_4_4, ._8 => some (3, 1)
  | .RGB, ._10 | .YCbCr_4_4_4, ._10 => some (15, 4)
  | .RGB, ._12 | .YCbCr_4_4_4, ._12 => some (9, 2)
  | .YCbCr_4_2_2, ._8 => some (4, 2)
  | .YCbCr_4_2_2, ._10 => some (5, 2)
  | .YCbCr_4_2_2, ._12 => some (6, 2)
  | .YCbCr_4_2_0, ._8 => some (6, 4)
  | .YCbCr_4_2_0, ._10 => some (15, 8)
  | .YCbCr_4_2_0, ._12 => some (9, 4)
  | _, _ => none

def RTP_HEADER_SIZE : Nat := 12
def RTP_SINGLE_SRD_HEADER_SIZE : Nat := 8
def RTP_ST_2110_20_SINGLE_SRD_HEADER_SIZE : Nat := RTP_HEADER_SIZE + RTP_SINGLE_SRD_HEADER_SIZE

/-- `COLOR_DEPTH_TO_PAYLOAD_SIZE`. -/
def colorDepthToPayloadSize : VideoSampling → ColorBitDepth → Nat
  | .YCbCr_4_2_2, ._8 => 1280 + RTP_ST_2110_20_SINGLE_SRD_HEADER_SIZE
  | .YCbCr_4_2_2, ._10 | .YCbCr_4_2_0, ._10 => 1200 + RTP_ST_2110_20_SINGLE_SRD_HEADER_SIZE
  | .YCbCr_4_2_2, ._12 | .YCbCr_4_2_0, ._12 => 1080 + RTP_ST_2110_20_SINGLE_SRD_HEADER_SIZE
  | _, _ => 1440 + RTP_ST_2110_20_SINGLE_SRD_HEADER_SIZE

def isBitDepthSupported (sampling : VideoSampling) (bitDepth : ColorBitDepth) : Bool :=
  (colorDepthToPixelRatio sampling bitDepth).isSome

/-! ## Settings -/

structure FrameRate where
  num : UInt16
  denom : UInt16
  deriving DecidableEq, Repr

structure Resolution where
  width : UInt16
  height : UInt16
  deriving DecidableEq, Repr

/-- `MediaSettings`. The reference clock is a `std::string`: any bytes. -/
structure MediaSettings where
  frameRate : FrameRate
  resolution : Resolution
  samplingType : VideoSampling := .YCbCr_4_2_2
  bitDepth : ColorBitDepth := ._10
  videoScanType : VideoScanType := .Progressive
  packetsInFrameField : Nat := 0
  packetsInLine : Nat := 0
  frameFieldTimeIntervalNs : ℚ := 0
  ticksPerFrame : ℚ := 0
  linesInFrameField : Nat := 0
  chunksInFrameField : Nat := 0
  framesFieldsInMemBlock : Nat := 0
  refclk : List UInt8 := []
  bytesPerFrame : Nat := 0
  protocolHeaderSize : Nat := 0
  rawPacketPayloadSize : Nat := 0
  pixelsPerPacket : Nat := 0

/-- `sample_rate` and `payload_type` keep their initializers: no code assigns
them. -/
def MediaSettings.sampleRate (_ : MediaSettings) : Nat := 90000

def MediaSettings.payloadType (_ : MediaSettings) : Nat := 96

/-- `VideoFrameRateValidator`, on the parsed rate. -/
def videoFrameRateValidator (rate : FrameRate) : Bool := rate.num ≠ 0 ∧ rate.denom ≠ 0

/-- The fields of `AppSettings` that `initialize_common_media_settings` reads
or writes. -/
structure AppSettings where
  media : MediaSettings
  headerDataSplit : Bool := false
  numOfTotalStreams : Nat := 1
  numOfTotalFlows : Nat := 0
  numOfMemoryBlocks : Nat := 0
  numOfPacketsInChunkSpecified : Bool := false
  numOfPacketsInChunk : Nat := 0
  numOfChunksInMemBlock : Nat := 0
  numOfPacketsInMemBlock : Nat := 0
  packetPayloadSize : Nat := 0
  packetAppHeaderSize : Nat := 0

/-- Full HD in the default format, YCbCr-4:2:2 of ten bits. -/
def fullHd (rate : FrameRate) (scan : VideoScanType) : AppSettings where
  media :=
    { frameRate := rate, resolution := ⟨1920, 1080⟩, videoScanType := scan,
      framesFieldsInMemBlock := 1 }

/-! ## Initialization -/

/-- Fields of a frame, as `initialize_common_media_settings` halves. -/
def VideoScanType.fields (scan : VideoScanType) : Nat := if scan = .Interlaced then 2 else 1

/-- What `initialize_common_media_settings` computes in a format of `bytes` per
`pixels`. -/
def commonMediaSettings (s : AppSettings) (bytes pixels : Nat) : AppSettings :=
  let m := s.media
  let numOfPixels := m.resolution.width.toNat * m.resolution.height.toNat
  let bytesPerFrame := numOfPixels * bytes / pixels % 2 ^ 32
  let payloadSize := colorDepthToPayloadSize m.samplingType m.bitDepth
  let rawPacketPayloadSize := payloadSize - RTP_ST_2110_20_SINGLE_SRD_HEADER_SIZE
  let packetsInFrame := bytesPerFrame / rawPacketPayloadSize
  let packetsInLine := packetsInFrame / m.resolution.height.toNat
  -- a custom chunk must divide the frame, not the field: the interlaced
  -- packet count is halved only below
  let numOfPacketsInChunk :=
    if s.numOfPacketsInChunkSpecified ∧ packetsInFrame % s.numOfPacketsInChunk = 0 then
      s.numOfPacketsInChunk
    else 4 * packetsInLine
  let fields := m.videoScanType.fields
  let intervalNs : ℚ := NS_IN_SEC / m.frameRate.num.toNat / m.frameRate.denom.toNat
  let ticksPerFrame : ℚ := m.sampleRate / (m.frameRate.num.toNat / m.frameRate.denom.toNat)
  let packetsInFrameField := packetsInFrame / fields
  let chunksInFrameField :=
    (packetsInFrameField + numOfPacketsInChunk - 1) / numOfPacketsInChunk
  let numOfChunksInMemBlock := m.framesFieldsInMemBlock * chunksInFrameField
  { s with
    numOfTotalFlows := s.numOfTotalStreams
    numOfMemoryBlocks := 1
    numOfPacketsInChunk := numOfPacketsInChunk
    numOfChunksInMemBlock := numOfChunksInMemBlock
    numOfPacketsInMemBlock := numOfChunksInMemBlock * numOfPacketsInChunk
    packetPayloadSize := if s.headerDataSplit then rawPacketPayloadSize else payloadSize
    packetAppHeaderSize :=
      if s.headerDataSplit then RTP_ST_2110_20_SINGLE_SRD_HEADER_SIZE else s.packetAppHeaderSize
    media :=
      { m with
        bytesPerFrame := bytesPerFrame
        protocolHeaderSize := RTP_ST_2110_20_SINGLE_SRD_HEADER_SIZE
        rawPacketPayloadSize := rawPacketPayloadSize
        pixelsPerPacket := rawPacketPayloadSize * pixels / bytes
        packetsInFrameField := packetsInFrameField
        packetsInLine := packetsInLine
        linesInFrameField := m.resolution.height.toNat / fields
        frameFieldTimeIntervalNs := intervalNs / fields
        ticksPerFrame := ticksPerFrame / fields
        chunksInFrameField := chunksInFrameField } }

/-- `initialize_common_media_settings`; `none` is the failure status, or a division
by zero: the traps of the integer divisions, and for chunks of no packets the cast of
`packets_in_frame_field / 0.0` to `size_t`. That cast is undefined, so what follows
it is left out. -/
def initializeCommonMediaSettings (s : AppSettings) : Option AppSettings :=
  match colorDepthToPixelRatio s.media.samplingType s.media.bitDepth with
  | none => none
  | some (bytes, pixels) =>
    let s' := commonMediaSettings s bytes pixels
    -- packets in a line, custom chunks in a frame, chunks in a field
    if s.media.resolution.height = 0 ∨
        s.numOfPacketsInChunkSpecified ∧ s.numOfPacketsInChunk = 0 ∨
        s'.numOfPacketsInChunk = 0 then none
    else some s'

/-- Rounding up takes nothing away. -/
theorem le_ceil_mul {length size : Nat} (hSize : 0 < size) :
    length ≤ (length + size - 1) / size * size := by
  have hDiv := Nat.div_add_mod' (length + size - 1) size
  have hRest := Nat.mod_lt (length + size - 1) hSize
  omega

/-! ## Traffic shaping -/

def FHD_HEIGHT : Nat := 1080
def VIDEO_TRO_DEFAULT_MODIFICATION : Nat := 2

/-- The active ratio and the default offset multiplier of `calculate_tro_trs`. -/
def troTrsFactors (scan : VideoScanType) (height : Nat) : ℚ × ℚ :=
  if scan = .Progressive then
    (1080 / 1125, if FHD_HEIGHT ≤ height then 43 / 1125 else 28 / 750)
  else if FHD_HEIGHT ≤ height then (1080 / 1125, 22 / 1125)
  else if 576 ≤ height then (576 / 625, 26 / 625)
  else (487 / 525, 20 / 525)

/-- `calculate_tro_trs`: the offset and the packet spacing of a frame. -/
def calculateTroTrs (s : MediaSettings) : ℚ × ℚ :=
  let fields : Nat := if s.videoScanType = .Progressive then 1 else 2
  let tFrameNs := s.frameFieldTimeIntervalNs * fields
  let factors := troTrsFactors s.videoScanType s.resolution.height.toNat
  let trs := tFrameNs * factors.1 / (s.packetsInFrameField * fields : Nat)
  (factors.2 * tFrameNs - VIDEO_TRO_DEFAULT_MODIFICATION * trs, trs)

/-! ## What initialization establishes -/

/-- What a successful initialization leaves of its input, the formats it
accepts, and the times it computes. -/
structure Initialized (s s' : AppSettings) : Prop where
  supported : isBitDepthSupported s'.media.samplingType s'.media.bitDepth = true
  frameRate : s'.media.frameRate = s.media.frameRate
  resolution : s'.media.resolution = s.media.resolution
  videoScanType : s'.media.videoScanType = s.media.videoScanType
  interval : s'.media.frameFieldTimeIntervalNs =
    NS_IN_SEC / s.media.frameRate.num.toNat / s.media.frameRate.denom.toNat /
      (s.media.videoScanType.fields : ℚ)

theorem initialized_of_eq_some {s s' : AppSettings}
    (h : initializeCommonMediaSettings s = some s') : Initialized s s' := by
  unfold initializeCommonMediaSettings at h
  cases hRatio : colorDepthToPixelRatio s.media.samplingType s.media.bitDepth with
  | none =>
    rw [hRatio] at h
    cases h
  | some ratio =>
    simp only [hRatio] at h
    split at h
    · cases h
    obtain rfl := Option.some.inj h
    refine ⟨?_, rfl, rfl, rfl, rfl⟩
    show (colorDepthToPixelRatio s.media.samplingType s.media.bitDepth).isSome = true
    rw [hRatio]
    rfl

/-- The supported formats. -/
theorem mem_of_supported {sampling : VideoSampling} {bitDepth : ColorBitDepth}
    (h : isBitDepthSupported sampling bitDepth = true) :
    sampling ∈ [VideoSampling.YCbCr_4_4_4, .YCbCr_4_2_2, .YCbCr_4_2_0, .RGB] ∧
      bitDepth ∈ [ColorBitDepth._8, ._10, ._12] := by
  revert h
  cases sampling <;> cases bitDepth <;> decide

end RivermaxDevKit
