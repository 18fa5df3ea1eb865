import RivermaxDevKit.Ipmx.Report

/-!
# IPMX Sender Report — round trip

What a receiver reads from a committed report, compared with what the sender
put into it.

* `contentsOfInfo_fillFromRtcpSrPacket` — the parser returns `contentsReceived`,
  a function of the sender's settings and counters alone.
* `report_round_trips_iff` — it equals `contentsSent` exactly for the settings
  of `ReportFits`: a progressive scan among them, since the encoder and the
  parser disagree on the bit of the interlaced flag.
-/

namespace RivermaxDevKit

open ByteStore

/-! ## Contents -/

/-- What a report says about its stream. -/
structure SenderReportContents where
  ssrc : Nat
  ntpTs : Nat
  rtpTs : Nat
  pktCnt : Nat
  byteCnt : Nat
  tsRefclk : List UInt8
  mediaclk : List UInt8
  samplingFormat : List UInt8
  bitDepth : Nat
  isInterlaced : Bool
  parW : Nat
  parH : Nat
  width : Nat
  height : Nat
  rateNum : Nat
  rateDenom : Nat
  pixelClock : Nat
  hTotal : Nat
  vTotal : Nat
  cname : List UInt8
  deriving DecidableEq, Repr

/-- What the sender means to say. -/
def contentsSent (s : MediaSettings) (ssrc : UInt32) (ip : List UInt8) (r : ReportCounters)
    (clock : ReportClock) : SenderReportContents where
  ssrc := ssrc.toNat
  ntpTs := reportTimestamp s r clock
  rtpTs := reportRtpTs s r clock
  pktCnt := sentPktCnt s r
  byteCnt := sentByteCnt s r
  tsRefclk := s.refclk
  mediaclk := asciiBytes "direct=0"
  samplingFormat := asciiBytes s.samplingType.name
  bitDepth := s.bitDepth.bits
  isInterlaced := s.videoScanType = .Interlaced
  parW := 1
  parH := 1
  width := s.resolution.width.toNat
  height := s.resolution.height.toNat
  rateNum := s.frameRate.num.toNat
  rateDenom := s.frameRate.denom.toNat
  pixelClock := pixelClock s
  hTotal := s.resolution.width.toNat
  vTotal := s.resolution.height.toNat
  cname := senderCname ip

/-- What a receiver makes of the fields of an `IPMXStreamInfo`. -/
def contentsOfInfo (info : IpmxStreamInfo) : SenderReportContents where
  ssrc := info.ssrc
  ntpTs := info.ntpTs
  rtpTs := info.rtpTs
  pktCnt := info.pktCnt
  byteCnt := info.byteCnt
  tsRefclk := cString info.tsRefclk
  mediaclk := cString info.mediaclk
  samplingFormat := cString info.video.samplingFormat
  bitDepth := info.video.bitDepth
  isInterlaced := info.video.isInterlaced
  parW := info.video.parW
  parH := info.video.parH
  width := info.video.width
  height := info.video.height
  rateNum := info.video.rateNum
  rateDenom := info.video.rateDenom
  pixelClock := info.video.pixelClock
  hTotal := info.video.hTotal
  vTotal := info.video.vTotal
  cname := cString info.cname

/-! ## Reading the encoder's regions back -/

theorem ntoh_eq_of_read {m : Memory} {a n v : Nat} (h : read m a n = bigEndian n v) :
    ntoh m a n = v % 256 ^ n := by
  rw [ntoh, h, ofBigEndian_bigEndian]

/-- `char` arrays are read back up to the bound of the copy that filled them. -/
theorem cString_copyString {m : Memory} {a k n : Nat} {source : List UInt8}
    (hField : read m a k = strncpy source k) (hNul : read m (a + k) 1 = [0]) (hn : k < n) :
    cString (copyString m a n) = (cString source).take k := by
  have hRead : cString (read m a n) = (cString source).take k :=
    cString_read_of_strncpy hField hNul hn
  have hCopy : cString (strncpy (read m a n) n) = (cString source).take k := by
    rw [cString_strncpy, hRead, List.take_take, Nat.min_eq_right hn.le]
  -- the terminator put at the end cuts nothing off
  have hLength : (cString (strncpy (read m a n) n)).length ≤ n - 1 := by
    rw [hCopy, List.length_take]
    omega
  rw [copyString, cString_set_zero hLength, hCopy]

section Regions

variable (s : MediaSettings) (ssrc : Nat) (ip : List UInt8) (r : ReportCounters)
  (clock : ReportClock)

/-- `commit_sender_report` only touches the sender information. -/
theorem read_updateSenderReport {m : Memory} {a n : Nat} (h : a + n ≤ 8 ∨ 28 ≤ a) :
    read (updateSenderReport s r m clock) a n = read m a n := by
  -- the five writes lie between 8 and 28
  have hHigh : a + n ≤ 12 ∨ 16 ≤ a := by omega
  have hLow : a + n ≤ 16 ∨ 20 ≤ a := by omega
  simp only [updateSenderReport]
  repeat rw [read_write_of_disjoint (by simp only [length_bigEndian]; simp; omega)]

/-- The source description starts behind the sender report. -/
theorem read_prepareSenderReportSdes {m : Memory} {a n : Nat} (h : a + n ≤ SENDER_REPORT_SIZE) :
    read (prepareSenderReportSdes ssrc ip m) a n = read m a n := by
  simp only [prepareSenderReportSdes]
  repeat rw [read_write_of_disjoint (by simp at *; omega)]

/-- The header fields of the template. -/
theorem prepareSenderReportBase_header (m : Memory) :
    read (prepareSenderReportBase s ssrc m) SR_LENGTH 2 = bigEndian 2 50 ∧
      read (prepareSenderReportBase s ssrc m) SR_SSRC 4 = bigEndian 4 ssrc := by
  constructor <;> simp [prepareSenderReportBase, read_write_of_disjoint, read_write_same]

/-- The clocks of the info block, each with the byte behind it. -/
theorem prepareSenderReportBase_info (m : Memory) :
    read (prepareSenderReportBase s ssrc m) INFO_TS_REFCLK 63 = strncpy s.refclk 63 ∧
      read (prepareSenderReportBase s ssrc m) (INFO_TS_REFCLK + 63) 1 = read m 99 1 ∧
      read (prepareSenderReportBase s ssrc m) INFO_MEDIACLK 11 =
        strncpy (asciiBytes "direct=0") 11 ∧
      read (prepareSenderReportBase s ssrc m) (INFO_MEDIACLK + 11) 1 = read m 111 1 := by
  refine ⟨?_, ?_, ?_, ?_⟩ <;>
    simp [prepareSenderReportBase, read_write_of_disjoint, read_write_same]

/-- The media block. -/
theorem prepareSenderReportBase_media (m : Memory) :
    let report := prepareSenderReportBase s ssrc m
    read report MEDIA_TYPE 2 = bigEndian 2 IPMX_MIB_TYPE_UNCOMPRESSED_VIDEO ∧
      read report MEDIA_SAMPLING 15 = strncpy (asciiBytes s.samplingType.name) 15 ∧
      read report (MEDIA_SAMPLING + 15) 1 = read m 131 1 ∧
      read report MEDIA_PACKING 2 = bigEndian 2
        (packMediaBitsInterlace s.bitDepth.bits (s.videoScanType = .Interlaced)) ∧
      read report MEDIA_PAR_W 1 = bigEndian 1 1 ∧
      read report MEDIA_PAR_H 1 = bigEndian 1 1 ∧
      read report MEDIA_WIDTH 2 = bigEndian 2 s.resolution.width.toNat ∧
      read report MEDIA_HEIGHT 2 = bigEndian 2 s.resolution.height.toNat ∧
      read report MEDIA_RATE 4 =
        bigEndian 4 (s.frameRate.num.toNat <<< 10 ||| s.frameRate.denom.toNat) ∧
      read report MEDIA_PIXEL_CLK_HI 4 = bigEndian 4 (pixelClock s / NS_IN_SEC) ∧
      read report MEDIA_PIXEL_CLK_LO 4 = bigEndian 4 (pixelClock s % NS_IN_SEC) ∧
      read report MEDIA_HTOTAL 2 = bigEndian 2 s.resolution.width.toNat ∧
      read report MEDIA_VTOTAL 2 = bigEndian 2 s.resolution.height.toNat := by
  have hOne : bigEndian 1 1 = [1] := rfl
  intro report
  refine ⟨?_, ?_, ?_, ?_, ?_, ?_, ?_, ?_, ?_, ?_, ?_, ?_, ?_⟩ <;>
    simp [report, prepareSenderReportBase, read_write_of_disjoint, read_write_same, hOne]

/-- The source description: its length word, and the canonical name. -/
theorem prepareSenderReportSdes_fields (m : Memory) :
    let report := prepareSenderReportSdes ssrc ip m
    read report SDES_LENGTH 2 = bigEndian 2 (sdesSize ip / 4 - 1) ∧
      read report SDES_CNAME_LENGTH 1 = bigEndian 1 (cnameLength ip) ∧
      read report SDES_CNAME (cnameLength ip) =
        (strncpy (senderCname ip) RTCP_SDES_CNAME_LEN_MAX).take (cnameLength ip) := by
  have hOne : bigEndian 1 (cnameLength ip) = [UInt8.ofNat (cnameLength ip)] := rfl
  have hLength : cnameLength ip ≤ 255 := by
    unfold cnameLength
    omega
  intro report
  refine ⟨?_, ?_, ?_⟩
  · simp [report, prepareSenderReportSdes, read_write_same]
  · rw [hOne]
    simp [report, prepareSenderReportSdes, read_write_of_disjoint, read_write_same]
  · show read (write SDES_LENGTH _ (write (SDES_CNAME + cnameLength ip) _ (write SDES_CNAME _ _)))
      SDES_CNAME (cnameLength ip) = _
    -- the end item stands right behind the name, the length word before it
    rw [read_write_of_disjoint (Or.inr (by simp)), read_write_of_disjoint (Or.inl le_rfl),
      ← take_read _ _ hLength, read_write_same (by simp)]

/-- The sender information. -/
theorem updateSenderReport_fields (m : Memory) :
    let report := updateSenderReport s r m clock
    read report SR_NTP_TS_HI 4 = bigEndian 4 (reportTimestamp s r clock / NS_IN_SEC) ∧
      read report SR_NTP_TS_LO 4 = bigEndian 4 (reportTimestamp s r clock % NS_IN_SEC) ∧
      read report SR_RTP_TS 4 = bigEndian 4 (reportRtpTs s r clock) ∧
      read report SR_PKT_CNT 4 = bigEndian 4 (sentPktCnt s r) ∧
      read report SR_BYTE_CNT 4 = bigEndian 4 (sentByteCnt s r) := by
  intro report
  refine ⟨?_, ?_, ?_, ?_, ?_⟩ <;>
    simp [report, updateSenderReport, read_write_of_disjoint, read_write_same]

end Regions

/-! ## What a receiver reads -/

/-- The bytes `commit_sender_report` hands over. -/
def committedReport (s : MediaSettings) (ssrc : Nat) (ip : List UInt8) (r : ReportCounters)
    (clock : ReportClock := .exact) : Memory :=
  updateSenderReport s r
    (prepareSenderReportSdes ssrc ip (prepareSenderReportBase s ssrc fun _ => 0)) clock

/-- The size it commits. -/
def reportSize (ip : List UInt8) : Nat := SENDER_REPORT_SIZE + sdesSize ip

/-- `data` starts with the first `size` bytes of `packet`. -/
def Carries (data packet : Memory) (size : Nat) : Prop := ∀ i < size, data i = packet i

/-- What a receiver reads from a committed report. -/
def contentsReceived (s : MediaSettings) (ssrc : UInt32) (ip : List UInt8) (r : ReportCounters)
    (clock : ReportClock) : SenderReportContents :=
  { contentsSent s ssrc ip r clock with
    ntpTs := reportTimestamp s r clock / NS_IN_SEC % 2 ^ 32 * NS_IN_SEC +
      reportTimestamp s r clock % NS_IN_SEC
    tsRefclk := (cString s.refclk).take 63
    -- the encoder sets bit 5, the parser tests bit 6
    isInterlaced := false
    -- the field of the denominator has ten bits, its destination eight
    rateNum := s.frameRate.num.toNat ||| s.frameRate.denom.toNat >>> 10
    rateDenom := s.frameRate.denom.toNat % 2 ^ 8
    -- the encoder splits at 10 ^ 9, the parser joins at 2 ^ 32
    pixelClock := pixelClock s % NS_IN_SEC
    cname := (cString (senderCname ip)).take (cnameLength ip) }

/-- The rate word fits its 32 bits. -/
theorem rate_lt (num denom : UInt16) : num.toNat <<< 10 ||| denom.toNat < 2 ^ 26 := by
  have hNum : num.toNat <<< 10 < 2 ^ 26 := by
    have := num.toNat_lt
    rw [Nat.shiftLeft_eq]
    omega
  have hDenom : denom.toNat < 2 ^ 26 := by
    have := denom.toNat_lt
    omega
  exact Nat.or_lt_two_pow hNum hDenom

theorem rateNum_of_rate (num denom : UInt16) :
    (((num.toNat <<< 10 ||| denom.toNat) % 256 ^ 4) >>> 10) &&& 0x3fffff =
      num.toNat ||| denom.toNat >>> 10 := by
  have hRate := rate_lt num denom
  have hShift : (num.toNat <<< 10 ||| denom.toNat) >>> 10 = num.toNat ||| denom.toNat >>> 10 := by
    rw [Nat.shiftRight_or_distrib, Nat.shiftLeft_shiftRight]
  -- the upper bits of the denominator fall into the numerator
  have hLt : num.toNat ||| denom.toNat >>> 10 < 2 ^ 22 := by
    rw [← hShift, Nat.shiftRight_eq_div_pow]
    omega
  rw [Nat.mod_eq_of_lt (by omega), hShift]
  show _ &&& (2 ^ 22 - 1) = _
  rw [Nat.and_two_pow_sub_one_eq_mod, Nat.mod_eq_of_lt hLt]

theorem rateDenom_of_rate (num denom : UInt16) :
    ((num.toNat <<< 10 ||| denom.toNat) % 256 ^ 4 &&& 0x3ff) % 2 ^ 8 = denom.toNat % 2 ^ 8 := by
  have hRate := rate_lt num denom
  -- the numerator is above the bits that are kept
  have hNum : num.toNat <<< 10 % 2 ^ 8 = 0 := by
    rw [Nat.shiftLeft_eq]
    omega
  have hWord : (num.toNat <<< 10 ||| denom.toNat) % 256 ^ 4 = num.toNat <<< 10 ||| denom.toNat :=
    Nat.mod_eq_of_lt (by omega)
  rw [hWord]
  show (_ &&& (2 ^ 10 - 1)) % 2 ^ 8 = _
  rw [Nat.and_two_pow_sub_one_eq_mod, Nat.mod_mod_of_dvd _ (by decide), Nat.or_mod_two_pow, hNum,
    Nat.zero_or]

theorem pixelClock_of_words (clock : Nat) :
    ((clock / NS_IN_SEC % 256 ^ 4) <<< 32 ||| clock % NS_IN_SEC % 256 ^ 4) % 2 ^ 32 =
      clock % NS_IN_SEC := by
  -- the high word is shifted out of the field it goes to
  have hHigh (x : Nat) : x <<< 32 % 2 ^ 32 = 0 := by
    rw [Nat.shiftLeft_eq, Nat.mul_mod_left]
  have hLow : clock % NS_IN_SEC < 10 ^ 9 := Nat.mod_lt _ (by decide)
  rw [Nat.or_mod_two_pow, hHigh, Nat.zero_or]
  omega

theorem bitDepth_of_packing (bitDepth : ColorBitDepth) (isInterlaced : Bool) :
    ((packMediaBitsInterlace bitDepth.bits isInterlaced % 256 ^ 2) >>> 8) &&& 0x7f =
      bitDepth.bits := by
  cases bitDepth <;> cases isInterlaced <;> decide

/-- The flag the parser tests is never set. -/
theorem isInterlaced_of_packing (bitDepth : ColorBitDepth) (isInterlaced : Bool) :
    packMediaBitsInterlace bitDepth.bits isInterlaced % 256 ^ 2 &&& (1 <<< 6) = 0 := by
  cases bitDepth <;> cases isInterlaced <;> decide

theorem take_cString_name (sampling : VideoSampling) :
    (cString (asciiBytes sampling.name)).take 15 = asciiBytes sampling.name := by
  cases sampling <;> decide +kernel

theorem cString_fillCname (m : Memory) (old : List UInt8) :
    cString (fillCname m old) = cString (read m SDES_CNAME (ntoh m SDES_CNAME_LENGTH 1)) := by
  have hLength : (strncpy (read m SDES_CNAME (ntoh m SDES_CNAME_LENGTH 1))
      (ntoh m SDES_CNAME_LENGTH 1)).length = ntoh m SDES_CNAME_LENGTH 1 := length_strncpy _ _
  have hSet := cString_append_set_zero
    (strncpy (read m SDES_CNAME (ntoh m SDES_CNAME_LENGTH 1)) (ntoh m SDES_CNAME_LENGTH 1))
    (old.drop (ntoh m SDES_CNAME_LENGTH 1))
  rw [hLength, cString_strncpy] at hSet
  -- the name that was copied is no longer than its length field
  have hShort : (cString (read m SDES_CNAME (ntoh m SDES_CNAME_LENGTH 1))).length ≤
      ntoh m SDES_CNAME_LENGTH 1 :=
    (List.takeWhile_prefix _).length_le.trans (length_read _ _ _).le
  rw [List.take_of_length_le hShort] at hSet
  exact hSet

/-! ## From the committed bytes to the received contents -/

theorem sdesSize_bounds (ip : List UInt8) :
    11 + cnameLength ip ≤ sdesSize ip ∧ sdesSize ip ≤ 268 ∧ sdesSize ip % 4 = 0 := by
  -- the length of the name is kept in a byte
  have hLength : cnameLength ip < 256 := Nat.mod_lt _ (by decide)
  simp only [sdesSize, alignUpPow2]
  omega

section Received

variable {s : MediaSettings} {ssrc : UInt32} {ip : List UInt8} {r : ReportCounters}
  {clock : ReportClock} {data : Memory}

theorem read_of_carries {packet : Memory} {size a n : Nat} (h : Carries data packet size)
    (hn : a + n ≤ size) : read data a n = read packet a n :=
  read_congr fun i _ hi => h i (by omega)

/-- The sender report, its sender information apart, comes from the template. -/
theorem read_received_base
    (h : Carries data (committedReport s ssrc.toNat ip r clock) (reportSize ip))
    {a n : Nat} (hn : a + n ≤ SENDER_REPORT_SIZE) (hInfo : a + n ≤ 8 ∨ 28 ≤ a) :
    read data a n = read (prepareSenderReportBase s ssrc.toNat fun _ => 0) a n := by
  have hSize : a + n ≤ reportSize ip := by
    unfold reportSize
    omega
  rw [read_of_carries h hSize, committedReport, read_updateSenderReport s r clock hInfo,
    read_prepareSenderReportSdes ssrc.toNat ip hn]

/-- The header of the source description comes from the template too. -/
theorem read_received_sdes
    (h : Carries data (committedReport s ssrc.toNat ip r clock) (reportSize ip))
    {a n : Nat} (hLow : SENDER_REPORT_SIZE ≤ a) (hn : a + n ≤ reportSize ip) :
    read data a n = read (prepareSenderReportSdes ssrc.toNat ip
      (prepareSenderReportBase s ssrc.toNat fun _ => 0)) a n := by
  have hInfo : a + n ≤ 8 ∨ 28 ≤ a := by
    simp only [SENDER_REPORT_SIZE] at hLow
    omega
  rw [read_of_carries h hn, committedReport, read_updateSenderReport s r clock hInfo]

theorem fillVideo_received
    (h : Carries data (committedReport s ssrc.toNat ip r clock) (reportSize ip)) :
    let video := fillVideo data
    cString video.samplingFormat = asciiBytes s.samplingType.name ∧
      video.bitDepth = s.bitDepth.bits ∧ video.isInterlaced = false ∧
      video.parW = 1 ∧ video.parH = 1 ∧
      video.width = s.resolution.width.toNat ∧ video.height = s.resolution.height.toNat ∧
      video.rateNum = s.frameRate.num.toNat ||| s.frameRate.denom.toNat >>> 10 ∧
      video.rateDenom = s.frameRate.denom.toNat % 2 ^ 8 ∧
      video.pixelClock = pixelClock s % NS_IN_SEC ∧
      video.hTotal = s.resolution.width.toNat ∧ video.vTotal = s.resolution.height.toNat := by
  obtain ⟨-, hSampling, hNul, hPacking, hParW, hParH, hWidth, hHeight, hRate, hHi, hLo, hHTotal,
    hVTotal⟩ := prepareSenderReportBase_media s ssrc.toNat fun _ => 0
  have hWidthLt := s.resolution.width.toNat_lt
  have hHeightLt := s.resolution.height.toNat_lt
  -- every field of the media block is read from the template
  have hRead {a n : Nat} {bytes : List UInt8}
      (hField : read (prepareSenderReportBase s ssrc.toNat fun _ => 0) a n = bytes)
      (hn : a + n ≤ 204) (ha : 28 ≤ a) : read data a n = bytes :=
    (read_received_base h (by simpa using hn) (Or.inr ha)).trans hField
  have hNumber {a n v : Nat}
      (hField : read (prepareSenderReportBase s ssrc.toNat fun _ => 0) a n = bigEndian n v)
      (hn : a + n ≤ 204) (ha : 28 ≤ a) : ntoh data a n = v % 256 ^ n :=
    ntoh_eq_of_read (hRead hField hn ha)
  rw [read_zeros] at hNul
  refine ⟨?_, ?_, ?_, ?_, ?_, ?_, ?_, ?_, ?_, ?_, ?_, ?_⟩
  · exact (cString_copyString (hRead hSampling (by decide) (by decide))
      (hRead hNul (by decide) (by decide)) (by decide)).trans (take_cString_name _)
  · simp only [fillVideo, hNumber hPacking (by decide) (by decide), bitDepth_of_packing]
  · simp only [fillVideo, hNumber hPacking (by decide) (by decide), isInterlaced_of_packing]
    rfl
  · exact hNumber hParW (by decide) (by decide)
  · exact hNumber hParH (by decide) (by decide)
  · exact (hNumber hWidth (by decide) (by decide)).trans (Nat.mod_eq_of_lt hWidthLt)
  · exact (hNumber hHeight (by decide) (by decide)).trans (Nat.mod_eq_of_lt hHeightLt)
  · simp only [fillVideo, hNumber hRate (by decide) (by decide), rateNum_of_rate]
  · simp only [fillVideo, hNumber hRate (by decide) (by decide), rateDenom_of_rate]
  · simp only [fillVideo, hNumber hHi (by decide) (by decide),
      hNumber hLo (by decide) (by decide), pixelClock_of_words]
  · exact (hNumber hHTotal (by decide) (by decide)).trans (Nat.mod_eq_of_lt hWidthLt)
  · exact (hNumber hVTotal (by decide) (by decide)).trans (Nat.mod_eq_of_lt hHeightLt)

/-- The sender information, whole words each. -/
theorem senderInfo_received
    (h : Carries data (committedReport s ssrc.toNat ip r clock) (reportSize ip)) :
    ntoh data SR_NTP_TS_HI 4 = reportTimestamp s r clock / NS_IN_SEC % 2 ^ 32 ∧
      ntoh data SR_NTP_TS_LO 4 = reportTimestamp s r clock % NS_IN_SEC ∧
      ntoh data SR_RTP_TS 4 = reportRtpTs s r clock ∧ ntoh data SR_PKT_CNT 4 = sentPktCnt s r ∧
      ntoh data SR_BYTE_CNT 4 = sentByteCnt s r := by
  obtain ⟨hHi, hLo, hRtp, hPkt, hByte⟩ := updateSenderReport_fields s r clock
    (prepareSenderReportSdes ssrc.toNat ip (prepareSenderReportBase s ssrc.toNat fun _ => 0))
  have hNumber {a v : Nat}
      (hField : read (committedReport s ssrc.toNat ip r clock) a 4 = bigEndian 4 v)
      (ha : a + 4 ≤ 204) : ntoh data a 4 = v % 256 ^ 4 := by
    have hSize : a + 4 ≤ reportSize ip := by
      simp only [reportSize, SENDER_REPORT_SIZE]
      omega
    exact ntoh_eq_of_read ((read_of_carries h hSize).trans hField)
  -- the nanoseconds fit their word, the seconds need not
  have hFraction : reportTimestamp s r clock % NS_IN_SEC < 256 ^ 4 :=
    (Nat.mod_lt _ (by decide : 0 < NS_IN_SEC)).trans (by decide)
  refine ⟨hNumber hHi (by decide), ?_, ?_, ?_, ?_⟩
  · exact (hNumber hLo (by decide)).trans (Nat.mod_eq_of_lt hFraction)
  · exact (hNumber hRtp (by decide)).trans (Nat.mod_eq_of_lt (Nat.mod_lt _ (by decide)))
  · exact (hNumber hPkt (by decide)).trans (Nat.mod_eq_of_lt (Nat.mod_lt _ (by decide)))
  · exact (hNumber hByte (by decide)).trans (Nat.mod_eq_of_lt (Nat.mod_lt _ (by decide)))

theorem ssrc_received
    (h : Carries data (committedReport s ssrc.toNat ip r clock) (reportSize ip)) :
    ntoh data SR_SSRC 4 = ssrc.toNat := by
  obtain ⟨-, hSsrc⟩ := prepareSenderReportBase_header s ssrc.toNat fun _ => 0
  rw [ntoh_eq_of_read ((read_received_base h (by decide) (by decide)).trans hSsrc)]
  exact Nat.mod_eq_of_lt ssrc.toNat_lt

theorem cname_received
    (h : Carries data (committedReport s ssrc.toNat ip r clock) (reportSize ip))
    (old : List UInt8) :
    cString (fillCname data old) = (cString (senderCname ip)).take (cnameLength ip) := by
  obtain ⟨-, hLength, hName⟩ := prepareSenderReportSdes_fields ssrc.toNat ip
    (prepareSenderReportBase s ssrc.toNat fun _ => 0)
  have hBounds := sdesSize_bounds ip
  have hByte : cnameLength ip < 256 := Nat.mod_lt _ (by decide)
  have hSize : 215 + cnameLength ip ≤ reportSize ip := by
    simp only [reportSize, SENDER_REPORT_SIZE]
    omega
  -- the length is read first, and then that much of the name
  have hLen : ntoh data SDES_CNAME_LENGTH 1 = cnameLength ip := by
    rw [ntoh_eq_of_read ((read_received_sdes h (by decide) (by simp; omega)).trans hLength)]
    exact Nat.mod_eq_of_lt hByte
  have hRead : read data SDES_CNAME (cnameLength ip) =
      (strncpy (senderCname ip) RTCP_SDES_CNAME_LEN_MAX).take (cnameLength ip) :=
    (read_received_sdes h (by decide) (by simp; omega)).trans hName
  rw [cString_fillCname, hLen, hRead, cString_take, cString_strncpy, List.take_take,
    Nat.min_eq_left (by simp; omega)]

/-- **What is received.** The parser accepts every committed report, whatever
stood in its structure and behind the packet, and reads `contentsReceived`. -/
theorem contentsOfInfo_fillFromRtcpSrPacket
    (h : Carries data (committedReport s ssrc.toNat ip r clock) (reportSize ip))
    (info : IpmxStreamInfo) :
    ∃ info', fillFromRtcpSrPacket data (reportSize ip) info = (.success, info') ∧
      contentsOfInfo info' = contentsReceived s ssrc ip r clock := by
  obtain ⟨hSampling, hDepth, hInterlaced, hParW, hParH, hWidth, hHeight, hNum, hDenom, hClock,
    hHTotal, hVTotal⟩ := fillVideo_received h
  obtain ⟨hNtpHi, hNtpLo, hRtp, hPkt, hByte⟩ := senderInfo_received h
  obtain ⟨hRefclk, hRefclkNul, hMediaclk, hMediaclkNul⟩ :=
    prepareSenderReportBase_info s ssrc.toNat fun _ => 0
  obtain ⟨hType, -⟩ := prepareSenderReportBase_media s ssrc.toNat fun _ => 0
  rw [read_zeros] at hRefclkNul hMediaclkNul
  -- the report passes both checks of the parser
  have hTypeWord : ntoh data MEDIA_TYPE 2 % 2 ^ 8 = IPMX_MIB_TYPE_UNCOMPRESSED_VIDEO := by
    rw [ntoh_eq_of_read ((read_received_base h (by decide) (by decide)).trans hType)]
    rfl
  have hTsRefclk : cString (copyString data INFO_TS_REFCLK 65) = (cString s.refclk).take 63 :=
    cString_copyString ((read_received_base h (by decide) (by decide)).trans hRefclk)
      ((read_received_base h (by decide) (by decide)).trans hRefclkNul) (by decide)
  have hMedia : cString (copyString data INFO_MEDIACLK 13) = asciiBytes "direct=0" :=
    (cString_copyString ((read_received_base h (by decide) (by decide)).trans hMediaclk)
      ((read_received_base h (by decide) (by decide)).trans hMediaclkNul) (by decide)).trans
      (by decide +kernel)
  have hFits : ¬ COMPOUND_PACKET_SIZE < reportSize ip := by
    have hBounds := sdesSize_bounds ip
    simp only [COMPOUND_PACKET_SIZE, reportSize, SENDER_REPORT_SIZE]
    omega
  refine ⟨_, by rw [fillFromRtcpSrPacket, if_neg hFits, if_neg (not_not.mpr hTypeWord)], ?_⟩
  simp only [contentsOfInfo, contentsReceived, contentsSent, SenderReportContents.mk.injEq]
  refine ⟨ssrc_received h, ?_, hRtp, hPkt, hByte, hTsRefclk, hMedia, hSampling, hDepth, hInterlaced,
    hParW, hParH, hWidth, hHeight, hNum, hDenom, hClock, hHTotal, hVTotal, cname_received h _⟩
  rw [hNtpHi, hNtpLo]

end Received

/-! ## Reports that read the same -/

/-- The words in which the reports of one sender differ. -/
structure SameReport (s : MediaSettings) (clock : ReportClock) (ssrc ssrc' : UInt32)
    (r r' : ReportCounters) : Prop where
  ssrc : ssrc = ssrc'
  seconds : reportTimestamp s r clock / NS_IN_SEC % 2 ^ 32 =
    reportTimestamp s r' clock / NS_IN_SEC % 2 ^ 32
  nanoseconds : reportTimestamp s r clock % NS_IN_SEC = reportTimestamp s r' clock % NS_IN_SEC
  rtpTs : reportRtpTs s r clock = reportRtpTs s r' clock
  pktCnt : sentPktCnt s r = sentPktCnt s r'
  byteCnt : sentByteCnt s r = sentByteCnt s r'

/-- Only the last update of a report counts. -/
theorem updateSenderReport_update (s : MediaSettings) (r r' : ReportCounters) (m : Memory)
    (clock : ReportClock) :
    updateSenderReport s r (updateSenderReport s r' m clock) clock =
      updateSenderReport s r m clock := by
  funext i
  simp only [updateSenderReport, write, length_bigEndian]
  split_ifs <;> rfl

theorem carries_of_read_eq {data packet : Memory} {size : Nat}
    (h : read data 0 size = read packet 0 size) : Carries data packet size := by
  intro i hi
  -- byte by byte
  have hByte := congrArg (·[i]?) h
  rw [List.getElem?_eq_getElem (by simpa using hi), List.getElem?_eq_getElem (by simpa using hi),
    getElem_read, getElem_read, Nat.zero_add] at hByte
  exact Option.some.inj hByte

/-- Reports have the same bytes exactly if they have the same words. -/
theorem read_committedReport_eq_iff {s : MediaSettings} {ssrc ssrc' : UInt32} {ip : List UInt8}
    {r r' : ReportCounters} {clock : ReportClock} :
    read (committedReport s ssrc.toNat ip r clock) 0 (reportSize ip) =
        read (committedReport s ssrc'.toNat ip r' clock) 0 (reportSize ip) ↔
      SameReport s clock ssrc ssrc' r r' := by
  constructor
  · intro h
    -- the first report, read as itself and as the second one
    have hOther := carries_of_read_eq h
    have hSelf : Carries (committedReport s ssrc.toNat ip r clock)
        (committedReport s ssrc.toNat ip r clock) (reportSize ip) := fun _ _ => rfl
    obtain ⟨hHi, hLo, hRtp, hPkt, hByte⟩ := senderInfo_received hSelf
    obtain ⟨hHi', hLo', hRtp', hPkt', hByte'⟩ := senderInfo_received hOther
    exact
      { ssrc := UInt32.toNat_inj.mp ((ssrc_received hSelf).symm.trans (ssrc_received hOther))
        seconds := hHi.symm.trans hHi'
        nanoseconds := hLo.symm.trans hLo'
        rtpTs := hRtp.symm.trans hRtp'
        pktCnt := hPkt.symm.trans hPkt'
        byteCnt := hByte.symm.trans hByte' }
  · rintro ⟨rfl, hSeconds, hNanoseconds, hRtp, hPkt, hByte⟩
    have hHi : bigEndian 4 (reportTimestamp s r clock / NS_IN_SEC) =
        bigEndian 4 (reportTimestamp s r' clock / NS_IN_SEC) := bigEndian_congr hSeconds
    simp only [committedReport, updateSenderReport, hHi, hNanoseconds, hRtp, hPkt, hByte]

/-! ## The round trip -/

/-- The length words, followed from packet to packet, end at `size`. -/
def LengthsDelimit (packet : Memory) (size : Nat) : Prop :=
  let report := (ntoh packet SR_LENGTH 2 + 1) * 4
  report + (ntoh packet (report + SR_LENGTH) 2 + 1) * 4 = size

/-- A report is committed, its length words delimit it, and whoever receives
its bytes reads what the sender meant to say. -/
def ReportRoundTrips (s : MediaSettings) (ssrc : UInt32) (ip : List UInt8) (r : ReportCounters)
    (clock : ReportClock) : Prop :=
  ∃ template size packet,
    prepareCompoundReportTemplate s ssrc.toNat ip = some (template, size) ∧
    commitSenderReport s r template clock = some packet ∧ LengthsDelimit packet size ∧
    ∀ data info, Carries data packet size →
      ∃ info', fillFromRtcpSrPacket data size info = (.success, info') ∧
        contentsOfInfo info' = contentsSent s ssrc ip r clock

/-- The settings, the source address and the counters that a report can hold. The
time is the one that comes out in `double`. -/
structure ReportFits (s : MediaSettings) (ip : List UInt8) (r : ReportCounters)
    (clock : ReportClock) : Prop where
  num_ne : s.frameRate.num ≠ 0
  denom_ne : s.frameRate.denom ≠ 0
  denom_lt : s.frameRate.denom.toNat < 2 ^ 8
  not_interlaced : s.videoScanType ≠ .Interlaced
  pixels_lt : s.resolution.width.toNat * s.resolution.height.toNat < 2 ^ 31
  clock_lt : s.resolution.width.toNat * s.resolution.height.toNat * s.frameRate.num.toNat <
    NS_IN_SEC * s.frameRate.denom.toNat
  refclk_length : s.refclk.length ≤ 63
  refclk_noNul : ∀ b ∈ s.refclk, b ≠ 0
  time_lt : clock.time r.startSendTimeNs s.frameFieldTimeIntervalNs r.finishedFirstChunks <
    ((2 ^ 32 * NS_IN_SEC : Nat) : ℚ)
  address_length : ip.length ≤ 250
  address_noNul : ∀ b ∈ ip, b ≠ 0

section RoundTrip

variable {s : MediaSettings} {ssrc : UInt32} {ip : List UInt8} {r : ReportCounters}
  {clock : ReportClock}

theorem lengthsDelimit_committedReport :
    LengthsDelimit (committedReport s ssrc.toNat ip r clock) (reportSize ip) := by
  have hSelf : Carries (committedReport s ssrc.toNat ip r clock)
      (committedReport s ssrc.toNat ip r clock) (reportSize ip) := fun _ _ => rfl
  obtain ⟨hLow, hHigh, hWords⟩ := sdesSize_bounds ip
  obtain ⟨hReport, -⟩ := prepareSenderReportBase_header s ssrc.toNat fun _ => 0
  obtain ⟨hSdes, -⟩ := prepareSenderReportSdes_fields ssrc.toNat ip
    (prepareSenderReportBase s ssrc.toNat fun _ => 0)
  have hFirst : ntoh (committedReport s ssrc.toNat ip r clock) SR_LENGTH 2 = 50 :=
    ntoh_eq_of_read ((read_received_base hSelf (by decide) (by decide)).trans hReport)
  -- the second length word stands where the first one ends
  have hSecond : ntoh (committedReport s ssrc.toNat ip r clock) SDES_LENGTH 2 =
      sdesSize ip / 4 - 1 := by
    have hIn : SDES_LENGTH + 2 ≤ reportSize ip := by
      simp only [SDES_LENGTH, reportSize, SENDER_REPORT_SIZE]
      omega
    rw [ntoh_eq_of_read ((read_received_sdes hSelf (by decide) hIn).trans hSdes)]
    exact Nat.mod_eq_of_lt (by omega)
  unfold LengthsDelimit
  rw [hFirst]
  show 204 + (ntoh (committedReport s ssrc.toNat ip r clock) SDES_LENGTH 2 + 1) * 4 = reportSize ip
  rw [hSecond, reportSize, SENDER_REPORT_SIZE]
  omega

/-- The round trip is a matter of contents: parsing and lengths never fail. -/
theorem reportRoundTrips_iff_contents (hDepth : s.bitDepth ≠ .Unknown) :
    ReportRoundTrips s ssrc ip r clock ↔ s.frameRate.num ≠ 0 ∧ s.frameRate.denom ≠ 0 ∧
      s.resolution.width.toNat * s.resolution.height.toNat < 2 ^ 31 ∧
      contentsReceived s ssrc ip r clock = contentsSent s ssrc ip r clock := by
  constructor
  · rintro ⟨template, size, packet, hTemplate, hCommit, -, hParse⟩
    unfold prepareCompoundReportTemplate at hTemplate
    split at hTemplate
    · cases hTemplate
    rename_i hDefined
    unfold commitSenderReport at hCommit
    split at hCommit
    · cases hCommit
    rename_i hNum
    obtain ⟨rfl, rfl⟩ := Prod.mk.inj (Option.some.inj hTemplate)
    obtain rfl := Option.some.inj hCommit
    obtain ⟨hDenom, -, hPixels⟩ := not_or.mp hDefined |>.imp_right not_or.mp
    refine ⟨hNum, hDenom, Nat.lt_of_not_le hPixels, ?_⟩
    -- the packet itself is one of the buffers that carry it
    have hSelf : Carries (committedReport s ssrc.toNat ip r clock)
        (committedReport s ssrc.toNat ip r clock) (reportSize ip) := fun _ _ => rfl
    obtain ⟨info', hSent, hContents⟩ := hParse _ {} hSelf
    obtain ⟨info'', hReceived, hContents'⟩ := contentsOfInfo_fillFromRtcpSrPacket hSelf {}
    have hSame : info' = info'' := congrArg Prod.snd (hSent.symm.trans hReceived)
    rw [← hContents, ← hContents', hSame]
  · rintro ⟨hNum, hDenom, hPixels, hContents⟩
    have hDefined := not_or.mpr ⟨hDenom, not_or.mpr ⟨hDepth, Nat.not_le_of_lt hPixels⟩⟩
    refine ⟨_, reportSize ip, committedReport s ssrc.toNat ip r clock, if_neg hDefined,
      if_neg hNum, lengthsDelimit_committedReport, ?_⟩
    intro data info hCarries
    rw [← hContents]
    exact contentsOfInfo_fillFromRtcpSrPacket hCarries info

/-- Seconds and nanoseconds hold a time below `2 ^ 32` seconds. -/
theorem ntp_split_eq_iff (ts : Nat) :
    ts / NS_IN_SEC % 2 ^ 32 * NS_IN_SEC + ts % NS_IN_SEC = ts ↔ ts < 2 ^ 32 * NS_IN_SEC := by
  simp only [NS_IN_SEC]
  omega

theorem rate_eq_iff (num denom : UInt16) :
    num.toNat ||| denom.toNat >>> 10 = num.toNat ∧ denom.toNat % 2 ^ 8 = denom.toNat ↔
      denom.toNat < 2 ^ 8 := by
  constructor
  · rintro ⟨-, h⟩
    omega
  · intro h
    -- no bit of the denominator reaches the numerator
    have hZero : denom.toNat >>> 10 = 0 := by
      rw [Nat.shiftRight_eq_div_pow]
      omega
    exact ⟨by rw [hZero, Nat.or_zero], Nat.mod_eq_of_lt h⟩

theorem pixelClock_eq_iff (hDenom : s.frameRate.denom ≠ 0) :
    pixelClock s % NS_IN_SEC = pixelClock s ↔
      s.resolution.width.toNat * s.resolution.height.toNat * s.frameRate.num.toNat <
        NS_IN_SEC * s.frameRate.denom.toNat := by
  have hPos : 0 < s.frameRate.denom.toNat :=
    Nat.pos_of_ne_zero fun h => hDenom (UInt16.toNat_inj.mp h)
  have hNs : 0 < NS_IN_SEC := by decide
  rw [← Nat.div_lt_iff_lt_mul hPos]
  show _ ↔ pixelClock s < NS_IN_SEC
  constructor
  · intro h
    rw [← h]
    exact Nat.mod_lt _ hNs
  · exact Nat.mod_eq_of_lt

theorem refclk_eq_iff :
    (cString s.refclk).take 63 = s.refclk ↔ s.refclk.length ≤ 63 ∧ ∀ b ∈ s.refclk, b ≠ 0 := by
  rw [← cString_strncpy, cString_strncpy_eq_iff]

/-- The length byte wraps at 256, so a longer name is cut. -/
theorem cname_eq_iff :
    (cString (senderCname ip)).take (cnameLength ip) = senderCname ip ↔
      ip.length ≤ 250 ∧ ∀ b ∈ ip, b ≠ 0 := by
  have hLength : (senderCname ip).length = ip.length + 5 := by
    simp [senderCname, asciiBytes]
  have hPrefix : ∀ b ∈ asciiBytes "ipmx@", b ≠ 0 := by decide +kernel
  rw [← cString_strncpy, cString_strncpy_eq_iff, cnameLength, hLength]
  refine and_congr (by omega) ⟨?_, ?_⟩
  · intro h b hb
    exact h b (List.mem_append_right _ hb)
  · intro h b hb
    exact (List.mem_append.mp hb).elim (hPrefix b) (h b)

theorem contentsReceived_eq_iff (hNum : s.frameRate.num ≠ 0) (hDenom : s.frameRate.denom ≠ 0)
    (hPixels : s.resolution.width.toNat * s.resolution.height.toNat < 2 ^ 31) :
    contentsReceived s ssrc ip r clock = contentsSent s ssrc ip r clock ↔
      ReportFits s ip r clock := by
  have hTime : reportTimestamp s r clock < 2 ^ 32 * NS_IN_SEC ↔
      clock.time r.startSendTimeNs s.frameFieldTimeIntervalNs r.finishedFirstChunks <
        ((2 ^ 32 * NS_IN_SEC : Nat) : ℚ) := Nat.floor_lt' (by decide)
  simp only [contentsReceived, contentsSent, SenderReportContents.mk.injEq, true_and]
  constructor
  · rintro ⟨hTs, hRefclk, hInterlaced, hRateNum, hRateDenom, hClock, hCname⟩
    obtain ⟨hRefLength, hRefNul⟩ := refclk_eq_iff.mp hRefclk
    obtain ⟨hIpLength, hIpNul⟩ := cname_eq_iff.mp hCname
    exact
      { num_ne := hNum
        denom_ne := hDenom
        denom_lt := (rate_eq_iff _ _).mp ⟨hRateNum, hRateDenom⟩
        not_interlaced := of_decide_eq_false hInterlaced.symm
        pixels_lt := hPixels
        clock_lt := (pixelClock_eq_iff hDenom).mp hClock
        refclk_length := hRefLength
        refclk_noNul := hRefNul
        time_lt := hTime.mp ((ntp_split_eq_iff _).mp hTs)
        address_length := hIpLength
        address_noNul := hIpNul }
  · intro h
    obtain ⟨hRateNum, hRateDenom⟩ := (rate_eq_iff _ _).mpr h.denom_lt
    refine ⟨(ntp_split_eq_iff _).mpr (hTime.mpr h.time_lt),
      refclk_eq_iff.mpr ⟨h.refclk_length, h.refclk_noNul⟩, ?_, hRateNum, hRateDenom,
      (pixelClock_eq_iff hDenom).mpr h.clock_lt,
      cname_eq_iff.mpr ⟨h.address_length, h.address_noNul⟩⟩
    exact (decide_eq_false h.not_interlaced).symm

/-- **Sender Report round trip.** For accepted media settings, any source
address and synchronization source, any counters, and however the two times are
rounded: a committed report reads back as it was sent, within the lengths it
announces, exactly when its contents fit the fields. -/
theorem report_round_trips_iff {app app' : AppSettings}
    (h : initializeCommonMediaSettings app = some app') (ssrc : UInt32) (ip : List UInt8)
    (r : ReportCounters) (clock : ReportClock) :
    ReportRoundTrips app'.media ssrc ip r clock ↔ ReportFits app'.media ip r clock := by
  obtain ⟨-, hDepths⟩ := mem_of_supported (initialized_of_eq_some h).supported
  have hDepth : app'.media.bitDepth ≠ .Unknown := by
    intro hUnknown
    rw [hUnknown] at hDepths
    exact absurd hDepths (by decide)
  rw [reportRoundTrips_iff_contents hDepth]
  constructor
  · rintro ⟨hNum, hDenom, hPixels, hContents⟩
    exact (contentsReceived_eq_iff hNum hDenom hPixels).mp hContents
  · intro hFits
    exact ⟨hFits.num_ne, hFits.denom_ne, hFits.pixels_lt,
      (contentsReceived_eq_iff hFits.num_ne hFits.denom_ne hFits.pixels_lt).mpr hFits⟩

end RoundTrip

/-- Full HD at 25 frames per second, two reports into a stream. -/
theorem report_round_trips_iff_fullHd :
    ∃ app', initializeCommonMediaSettings (fullHd ⟨25, 1⟩ .Progressive) = some app' ∧
      ReportRoundTrips app'.media 7 (asciiBytes "192.168.1.2")
        ⟨1700000000000000000, 2, 2, 1220⟩ .exact := by
  refine ⟨_, rfl, (@report_round_trips_iff (fullHd ⟨25, 1⟩ .Progressive) _ rfl _ _ _ _).mpr ?_⟩
  exact
    { num_ne := by decide
      denom_ne := by decide
      denom_lt := by decide
      not_interlaced := by decide
      pixels_lt := by decide
      clock_lt := by decide
      refclk_length := by decide
      refclk_noNul := by decide +kernel
      time_lt := by
        show ((1700000000000000000 : Nat) : ℚ) +
          ((NS_IN_SEC : ℚ) / ((25 : Nat) : ℚ) / ((1 : Nat) : ℚ) / ((1 : Nat) : ℚ)) *
            ((2 : Nat) : ℚ) < _
        norm_num [NS_IN_SEC]
      address_length := by decide +kernel
      address_noNul := by decide +kernel }

/-- An interlaced stream is reported as progressive. -/
theorem interlaced_report_fails :
    ∃ app', initializeCommonMediaSettings (fullHd ⟨25, 1⟩ .Interlaced) = some app' ∧
      ¬ ReportRoundTrips app'.media 0 (asciiBytes "192.168.1.2") {} .exact := by
  refine ⟨_, rfl, ?_⟩
  intro h
  obtain ⟨-, -, -, hContents⟩ := (reportRoundTrips_iff_contents (by decide)).mp h
  have hFlag : false = true := congrArg SenderReportContents.isInterlaced hContents
  exact Bool.false_ne_true hFlag

end RivermaxDevKit
