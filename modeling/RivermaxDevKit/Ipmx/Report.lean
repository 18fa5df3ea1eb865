import RivermaxDevKit.Lib.ByteStore
import RivermaxDevKit.Media.Settings
import RivermaxDevKit.Services.Time

/-!
# IPMX Sender Report — encoder and parser

A compound packet is written field by field into a zeroed
`RTCPCompoundPacket` by `prepare_sender_report_base`,
`prepare_sender_report_sdes` and `commit_sender_report`
(`ipmx_sender_io_node.cpp`), and read back by
`IPMXStreamInfo::fill_from_rtcp_sr_packet` (`ipmx.cpp`). Both sides address
the structure by the byte offsets of `ipmx.h`; `htons` and `htonl` are
big-endian stores.
-/

namespace RivermaxDevKit

open ByteStore

/-! ## Layout of `RTCPCompoundPacket`

The simp set computes with the offsets. -/

@[simp] def RTP_VERSION : Nat := 2
@[simp] def RTCP_SOURCE_CNT : Nat := 1
@[simp] def RTCP_SENDER_REPORT : Nat := 200
@[simp] def RTCP_SOURCE_DESCR : Nat := 202
@[simp] def RTCP_SDES_CNAME : Nat := 1
@[simp] def RTCP_SDES_END : Nat := 0
@[simp] def RTCP_SDES_CNAME_LEN_MAX : Nat := 255
@[simp] def IPMX_TAG : Nat := 0x5831
@[simp] def IPMX_MIB_TYPE_UNCOMPRESSED_VIDEO : Nat := 0x0001

/-- Sizes of `IPMXInfoBlock`, `IPMXMediaInfoBlock`, `IPMXSenderReport` and
`RTCPCompoundPacket`. -/
@[simp] def INFO_BLOCK_SIZE : Nat := 84
@[simp] def MEDIA_BLOCK_SIZE : Nat := 92
@[simp] def SENDER_REPORT_SIZE : Nat := 204
@[simp] def COMPOUND_PACKET_SIZE : Nat := 476

/-- Offsets of `IPMXSenderReport`. -/
@[simp] def SR_TYPE_VER : Nat := 0
@[simp] def SR_LENGTH : Nat := 2
@[simp] def SR_SSRC : Nat := 4
@[simp] def SR_NTP_TS_HI : Nat := 8
@[simp] def SR_NTP_TS_LO : Nat := 12
@[simp] def SR_RTP_TS : Nat := 16
@[simp] def SR_PKT_CNT : Nat := 20
@[simp] def SR_BYTE_CNT : Nat := 24

/-- Offsets of its `IPMXInfoBlock`. -/
@[simp] def INFO_TAG : Nat := 28
@[simp] def INFO_LENGTH : Nat := 30
@[simp] def INFO_BLOCK_VERSION : Nat := 32
@[simp] def INFO_TS_REFCLK : Nat := 36
@[simp] def INFO_MEDIACLK : Nat := 100

/-- Offsets of its `IPMXMediaInfoBlock`. -/
@[simp] def MEDIA_TYPE : Nat := 112
@[simp] def MEDIA_LENGTH : Nat := 114
@[simp] def MEDIA_SAMPLING : Nat := 116
@[simp] def MEDIA_PACKING : Nat := 132
@[simp] def MEDIA_PAR_W : Nat := 134
@[simp] def MEDIA_PAR_H : Nat := 135
@[simp] def MEDIA_RANGE : Nat := 136
@[simp] def MEDIA_COLORIMETRY : Nat := 148
@[simp] def MEDIA_TCS : Nat := 168
@[simp] def MEDIA_WIDTH : Nat := 184
@[simp] def MEDIA_HEIGHT : Nat := 186
@[simp] def MEDIA_RATE : Nat := 188
@[simp] def MEDIA_PIXEL_CLK_HI : Nat := 192
@[simp] def MEDIA_PIXEL_CLK_LO : Nat := 196
@[simp] def MEDIA_HTOTAL : Nat := 200
@[simp] def MEDIA_VTOTAL : Nat := 202

/-- Offsets of the source description: `RTCPSourceDescr`, `RTCPSdesChunk` and
`RTCPSdesCname` one after the other, then the characters of the name. -/
@[simp] def SDES_TYPE_VER : Nat := 204
@[simp] def SDES_LENGTH : Nat := 206
@[simp] def SDES_SSRC : Nat := 208
@[simp] def SDES_CNAME_TYPE : Nat := 212
@[simp] def SDES_CNAME_LENGTH : Nat := 213
@[simp] def SDES_CNAME : Nat := 214

/-- The characters of a string literal. -/
def asciiBytes (s : String) : List UInt8 := s.toList.map fun ch => UInt8.ofNat ch.toNat

/-! ## Encoder -/

def packMediaBitsInterlace (bits : Nat) (isInterlaced : Bool) : Nat :=
  ((bits % 2 ^ 16 &&& 0x7f) <<< 8) ||| (isInterlaced.toNat <<< 5)

/-- The pixel clock `prepare_sender_report_base` computes. The product of the two
16-bit numbers is an `int`: `pixelClock` is its value below `2 ^ 31` pixels. -/
def pixelClock (s : MediaSettings) : Nat :=
  s.resolution.width.toNat * s.resolution.height.toNat * s.frameRate.num.toNat /
    s.frameRate.denom.toNat

def prepareSenderReportBase (s : MediaSettings) (ssrc : Nat) (report : Memory) : Memory :=
  report
    |> write SR_TYPE_VER (bigEndian 2 (RTP_VERSION <<< 14 ||| RTCP_SENDER_REPORT))
    |> write SR_SSRC (bigEndian 4 ssrc)
    |> write SR_LENGTH (bigEndian 2 (SENDER_REPORT_SIZE / 4 - 1))
    |> write INFO_TAG (bigEndian 2 IPMX_TAG)
    |> write INFO_LENGTH (bigEndian 2 (INFO_BLOCK_SIZE / 4 - 1))
    |> write INFO_TS_REFCLK (strncpy s.refclk 63)
    |> write INFO_MEDIACLK (strncpy (asciiBytes "direct=0") 11)
    |> write MEDIA_TYPE (bigEndian 2 IPMX_MIB_TYPE_UNCOMPRESSED_VIDEO)
    |> write MEDIA_LENGTH (bigEndian 2 (MEDIA_BLOCK_SIZE / 4 - 1))
    |> write MEDIA_SAMPLING (strncpy (asciiBytes s.samplingType.name) 15)
    |> write MEDIA_PACKING (bigEndian 2
      (packMediaBitsInterlace s.bitDepth.bits (s.videoScanType = .Interlaced)))
    |> write MEDIA_RANGE (strncpy (asciiBytes "NARROW") 11)
    |> write MEDIA_COLORIMETRY (strncpy (asciiBytes "BT709") 19)
    |> write MEDIA_TCS (strncpy (asciiBytes "SDR") 15)
    |> write MEDIA_PAR_H [1]
    |> write MEDIA_PAR_W [1]
    |> write MEDIA_WIDTH (bigEndian 2 s.resolution.width.toNat)
    |> write MEDIA_HEIGHT (bigEndian 2 s.resolution.height.toNat)
    |> write MEDIA_PIXEL_CLK_HI (bigEndian 4 (pixelClock s / NS_IN_SEC))
    |> write MEDIA_PIXEL_CLK_LO (bigEndian 4 (pixelClock s % NS_IN_SEC))
    |> write MEDIA_HTOTAL (bigEndian 2 s.resolution.width.toNat)
    |> write MEDIA_VTOTAL (bigEndian 2 s.resolution.height.toNat)
    |> write MEDIA_RATE (bigEndian 4 (s.frameRate.num.toNat <<< 10 ||| s.frameRate.denom.toNat))

/-- The canonical name of a source address. -/
def senderCname (ip : List UInt8) : List UInt8 := asciiBytes "ipmx@" ++ ip

/-- The length byte of the name: a cast to `uint8_t`. -/
def cnameLength (ip : List UInt8) : Nat := (senderCname ip).length % 256

/-- `sdes_size`: the headers, the name and the end item, padded to words. -/
def sdesSize (ip : List UInt8) : Nat := alignUpPow2 (4 + 4 + 2 + cnameLength ip + 1) 4

def prepareSenderReportSdes (ssrc : Nat) (ip : List UInt8) (report : Memory) : Memory :=
  report
    |> write SDES_TYPE_VER
      (bigEndian 2 (RTP_VERSION <<< 14 ||| RTCP_SOURCE_CNT <<< 8 ||| RTCP_SOURCE_DESCR))
    |> write SDES_SSRC (bigEndian 4 ssrc)
    |> write SDES_CNAME_TYPE [UInt8.ofNat RTCP_SDES_CNAME]
    |> write SDES_CNAME_LENGTH [UInt8.ofNat (cnameLength ip)]
    |> write SDES_CNAME (strncpy (senderCname ip) RTCP_SDES_CNAME_LEN_MAX)
    |> write (SDES_CNAME + cnameLength ip) [UInt8.ofNat RTCP_SDES_END]
    |> write SDES_LENGTH (bigEndian 2 (sdesSize ip / 4 - 1))

/-- `prepare_compound_report_template`. Without a denominator the division of
the pixel clock traps, from `2 ^ 31` pixels on its product overflows an `int`,
and `std::stoi` throws on a depth without a number: there is no report. -/
def prepareCompoundReportTemplate (s : MediaSettings) (ssrc : Nat) (ip : List UInt8) :
    Option (Memory × Nat) :=
  if s.frameRate.denom = 0 ∨ s.bitDepth = .Unknown ∨
      2 ^ 31 ≤ s.resolution.width.toNat * s.resolution.height.toNat then none
  else
    some (prepareSenderReportSdes ssrc ip (prepareSenderReportBase s ssrc fun _ => 0),
      SENDER_REPORT_SIZE + sdesSize ip)

/-- What a report says beyond its template. -/
structure ReportCounters where
  startSendTimeNs : Nat := 0
  finishedFirstChunks : Nat := 0
  finishedFields : Nat := 0
  packetPayloadSize : Nat := 0
  deriving DecidableEq, Repr

/-- The two values `commit_sender_report` computes in `double`: start time plus
interval times number, and the RTP ticks of a timestamp. -/
structure ReportClock where
  time : Nat → ℚ → Nat → ℚ
  ticks : Nat → Nat → ℚ

/-- The values without rounding. -/
def ReportClock.exact : ReportClock where
  time start interval number := start + interval * number
  ticks timestamp sampleRate := timeToRtpTimestamp timestamp sampleRate

theorem ReportClock.exact_time (start : Nat) (interval : ℚ) (number : Nat) :
    ReportClock.exact.time start interval number = start + interval * number := rfl

/-- `timestamp` of `commit_sender_report`: a cast of a `double` to `uint64_t`. -/
def reportTimestamp (s : MediaSettings) (r : ReportCounters) (clock : ReportClock := .exact) :
    Nat :=
  ⌊clock.time r.startSendTimeNs s.frameFieldTimeIntervalNs r.finishedFirstChunks⌋₊

def reportRtpTs (s : MediaSettings) (r : ReportCounters) (clock : ReportClock := .exact) : Nat :=
  ⌊clock.ticks (reportTimestamp s r clock) s.sampleRate⌋₊ % 2 ^ 32

def sentPktCnt (s : MediaSettings) (r : ReportCounters) : Nat :=
  r.finishedFields * s.packetsInFrameField % 2 ^ 32

/-- `uint32_t` arithmetic throughout: the subtraction wraps. -/
def sentByteCnt (s : MediaSettings) (r : ReportCounters) : Nat :=
  let payloadOctetsInPacket :=
    (r.packetPayloadSize + (2 ^ 32 - (RTP_HEADER_SIZE + RTP_SINGLE_SRD_HEADER_SIZE))) % 2 ^ 32
  sentPktCnt s r * payloadOctetsInPacket % 2 ^ 32

/-- The fields `commit_sender_report` sets before it copies the structure. -/
def updateSenderReport (s : MediaSettings) (r : ReportCounters) (report : Memory)
    (clock : ReportClock := .exact) : Memory :=
  report
    |> write SR_NTP_TS_HI (bigEndian 4 (reportTimestamp s r clock / NS_IN_SEC))
    |> write SR_NTP_TS_LO (bigEndian 4 (reportTimestamp s r clock % NS_IN_SEC))
    |> write SR_RTP_TS (bigEndian 4 (reportRtpTs s r clock))
    |> write SR_PKT_CNT (bigEndian 4 (sentPktCnt s r))
    |> write SR_BYTE_CNT (bigEndian 4 (sentByteCnt s r))

/-- The structure `commit_sender_report` copies into its buffer. With no
numerator the field interval is infinite, and the cast of its product to an
integer is undefined. -/
def commitSenderReport (s : MediaSettings) (r : ReportCounters) (report : Memory)
    (clock : ReportClock := .exact) : Option Memory :=
  if s.frameRate.num = 0 then none else some (updateSenderReport s r report clock)

/-! ## Parser -/

/-- `IPMXStreamVideoInfo`; `char` arrays are the lists of their bytes. -/
structure IpmxStreamVideoInfo where
  samplingFormat : List UInt8 := List.replicate 17 0
  bitDepth : Nat := 0
  isFloating : Bool := false
  isGpm : Bool := false
  isInterlaced : Bool := false
  isSegmented : Bool := false
  parW : Nat := 0
  parH : Nat := 0
  range : List UInt8 := List.replicate 13 0
  colorimetry : List UInt8 := List.replicate 21 0
  tcs : List UInt8 := List.replicate 17 0
  width : Nat := 0
  height : Nat := 0
  rateNum : Nat := 0
  rateDenom : Nat := 0
  pixelClock : Nat := 0
  hTotal : Nat := 0
  vTotal : Nat := 0
  deriving DecidableEq, Repr

/-- `IPMXStreamInfo`. -/
structure IpmxStreamInfo where
  rtpVersion : Nat := 0
  ssrc : Nat := 0
  ntpTs : Nat := 0
  rtpTs : Nat := 0
  pktCnt : Nat := 0
  byteCnt : Nat := 0
  infoBlockVersion : Nat := 0
  tsRefclk : List UInt8 := List.replicate 65 0
  mediaclk : List UInt8 := List.replicate 13 0
  mediaBlockType : Nat := 0
  video : IpmxStreamVideoInfo := {}
  cname : List UInt8 := List.replicate 256 0
  deriving DecidableEq, Repr

/-- A number of `n` bytes in network order. -/
def ntoh (pkt : Memory) (a n : Nat) : Nat := ofBigEndian (read pkt a n)

theorem ntoh_lt (pkt : Memory) (a n : Nat) : ntoh pkt a n < 256 ^ n := by
  have hBytes := ofBigEndian_lt (read pkt a n)
  rwa [length_read] at hBytes

/-- Copy at most `n` characters from address `a` into a `char` array of `n`
bytes, and terminate the array in its last byte. -/
def copyString (pkt : Memory) (a n : Nat) : List UInt8 :=
  (strncpy (read pkt a n) n).set (n - 1) 0

/-- The video fields of `fill_from_rtcp_sr_packet`. The terminator after the
colorimetry goes to `tcs`, which is then overwritten. -/
def fillVideo (pkt : Memory) : IpmxStreamVideoInfo where
  samplingFormat := copyString pkt MEDIA_SAMPLING 17
  isFloating := ntoh pkt MEDIA_PACKING 2 &&& (1 <<< 15) ≠ 0
  bitDepth := (ntoh pkt MEDIA_PACKING 2 >>> 8) &&& 0x7f
  isGpm := ntoh pkt MEDIA_PACKING 2 &&& (1 <<< 7) ≠ 0
  isInterlaced := ntoh pkt MEDIA_PACKING 2 &&& (1 <<< 6) ≠ 0
  isSegmented := ntoh pkt MEDIA_PACKING 2 &&& (1 <<< 5) ≠ 0
  parW := ntoh pkt MEDIA_PAR_W 1
  parH := ntoh pkt MEDIA_PAR_H 1
  range := copyString pkt MEDIA_RANGE 13
  colorimetry := strncpy (read pkt MEDIA_COLORIMETRY 21) 21
  tcs := copyString pkt MEDIA_TCS 17
  width := ntoh pkt MEDIA_WIDTH 2
  height := ntoh pkt MEDIA_HEIGHT 2
  rateNum := (ntoh pkt MEDIA_RATE 4 >>> 10) &&& 0x3fffff
  rateDenom := (ntoh pkt MEDIA_RATE 4 &&& 0x3ff) % 2 ^ 8
  pixelClock := (ntoh pkt MEDIA_PIXEL_CLK_HI 4 <<< 32 ||| ntoh pkt MEDIA_PIXEL_CLK_LO 4) % 2 ^ 32
  hTotal := ntoh pkt MEDIA_HTOTAL 2
  vTotal := ntoh pkt MEDIA_VTOTAL 2

/-- The name: as many characters as the packet says, then the terminator. -/
def fillCname (pkt : Memory) (cname : List UInt8) : List UInt8 :=
  let cnameLen := ntoh pkt SDES_CNAME_LENGTH 1
  (strncpy (read pkt SDES_CNAME cnameLen) cnameLen ++ cname.drop cnameLen).set cnameLen 0

/-- `IPMXStreamInfo::fill_from_rtcp_sr_packet`. The `memcpy` takes the whole
structure from `data`, whatever `len` is. -/
def fillFromRtcpSrPacket (data : Memory) (len : Nat) (info : IpmxStreamInfo) :
    ReturnStatus × IpmxStreamInfo :=
  if COMPOUND_PACKET_SIZE < len then (.failure, info)
  else
    let header :=
      { info with
        rtpVersion := (ntoh data SR_TYPE_VER 2 >>> 14) &&& 0x03
        ssrc := ntoh data SR_SSRC 4
        ntpTs := ntoh data SR_NTP_TS_HI 4 * NS_IN_SEC + ntoh data SR_NTP_TS_LO 4
        rtpTs := ntoh data SR_RTP_TS 4
        pktCnt := ntoh data SR_PKT_CNT 4
        byteCnt := ntoh data SR_BYTE_CNT 4
        infoBlockVersion := ntoh data INFO_BLOCK_VERSION 1
        tsRefclk := copyString data INFO_TS_REFCLK 65
        mediaclk := copyString data INFO_MEDIACLK 13
        -- the 16-bit type is narrowed to `uint8_t` before it is tested
        mediaBlockType := ntoh data MEDIA_TYPE 2 % 2 ^ 8 }
    if header.mediaBlockType ≠ IPMX_MIB_TYPE_UNCOMPRESSED_VIDEO then (.success, header)
    else
      (.success, { header with video := fillVideo data, cname := fillCname data info.cname })

end RivermaxDevKit
