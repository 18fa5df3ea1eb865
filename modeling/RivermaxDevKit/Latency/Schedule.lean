import RivermaxDevKit.Latency.MediaRx
import RivermaxDevKit.Latency.MediaTx
import RivermaxDevKit.Rtp.GeneratorStates

/-!
# Transmit and receive schedules

The time `MediaTxIONode` sends a packet at, and the time `MediaRxIONode` measures
it against.

* `calcNextFrameStart_eq` — which alignment point the receiver takes.
* `schedules_agree_iff` — when both nodes have the same schedule.
-/

namespace RivermaxDevKit

open MediaRxIONode MediaTxIONode RtpVideoSendStream

/-! ## Alignment -/

section Alignment

variable (c : MediaStreamSettings) (timeNowNs : Nat)

/-- The fields between two alignment points. -/
def alignedFields (m : MediaSettings) : Nat := if m.videoScanType = .Progressive then 1 else 2

/-- The number of the alignment point in front of the first packet. -/
def alignmentNumber : Nat :=
  ⌊((timeNowNs + NS_IN_SEC : Nat) : ℚ) /
    (c.mediaSettings.frameFieldTimeIntervalNs * alignedFields c.mediaSettings) + 1⌋₊

def alignmentPointNs : ℚ :=
  alignmentNumber c timeNowNs *
    (c.mediaSettings.frameFieldTimeIntervalNs * alignedFields c.mediaSettings)

theorem sendTimeNs_eq : sendTimeNs c timeNowNs =
    alignmentPointNs c timeNowNs + (calculateTroTrs c.mediaSettings).1 :=
  rfl

/-- A time in the period of field `k`. -/
def OwnPeriod (k t : Nat) : Prop :=
  alignmentPointNs c timeNowNs + k * c.mediaSettings.frameFieldTimeIntervalNs ≤ t ∧
    t < alignmentPointNs c timeNowNs + (k + 1) * c.mediaSettings.frameFieldTimeIntervalNs

variable {c timeNowNs}

theorem alignedFields_pos (m : MediaSettings) : 0 < alignedFields m := by
  unfold alignedFields
  split <;> decide

/-- From the last packet of field `k`, the receiver takes the next alignment
point of a frame. -/
theorem calcNextFrameStart_eq (hInterval : 0 < c.mediaSettings.frameFieldTimeIntervalNs)
    {k t : Nat} (h : OwnPeriod c timeNowNs k t) :
    calcNextFrameStart c.mediaSettings t = ⌊alignmentPointNs c timeNowNs +
      ((k / alignedFields c.mediaSettings + 1) * alignedFields c.mediaSettings : Nat) *
        c.mediaSettings.frameFieldTimeIntervalNs⌋₊ := by
  obtain ⟨hLow, hHigh⟩ := h
  have hFields := alignedFields_pos c.mediaSettings
  -- the receiver counts frames, and is in that of field k
  have hNumber : ⌊(t : ℚ) / (c.mediaSettings.frameFieldTimeIntervalNs *
      alignedFields c.mediaSettings)⌋₊ =
        alignmentNumber c timeNowNs + k / alignedFields c.mediaSettings := by
    unfold alignmentPointNs at hLow hHigh
    generalize alignedFields c.mediaSettings = fields at *
    generalize alignmentNumber c timeNowNs = number at *
    generalize c.mediaSettings.frameFieldTimeIntervalNs = interval at *
    have hSplit := Nat.div_add_mod k fields
    have hRest := Nat.mod_lt k hFields
    have hFields' : (0 : ℚ) < fields := by exact_mod_cast hFields
    have hFrame : 0 < interval * fields := mul_pos hInterval hFields'
    have hBelow : ((fields * (k / fields) : Nat) : ℚ) ≤ (k : ℚ) := by
      exact_mod_cast Nat.mul_div_le k fields
    have hAbove : (k : ℚ) + 1 ≤ ((fields * (k / fields) + fields : Nat) : ℚ) := by
      exact_mod_cast (by omega : k + 1 ≤ fields * (k / fields) + fields)
    push_cast at hBelow hAbove
    rw [Nat.floor_eq_iff (by positivity), le_div_iff₀ hFrame, div_lt_iff₀ hFrame]
    push_cast
    constructor
    · have := mul_le_mul_of_nonneg_right hBelow hInterval.le
      linarith
    · have := mul_le_mul_of_nonneg_right hAbove hInterval.le
      linarith
  show ⌊((⌊(t : ℚ) / (c.mediaSettings.frameFieldTimeIntervalNs *
    alignedFields c.mediaSettings)⌋₊ + 1 : Nat) : ℚ) *
      (c.mediaSettings.frameFieldTimeIntervalNs * alignedFields c.mediaSettings)⌋₊ = _
  rw [hNumber, alignmentPointNs]
  congr 1
  push_cast
  ring

/-- The first alignment point is more than a second ahead. -/
theorem alignmentPointNs_gt (hInterval : 0 < c.mediaSettings.frameFieldTimeIntervalNs) :
    1000000000 < alignmentPointNs c timeNowNs := by
  have hFields : (0 : ℚ) < alignedFields c.mediaSettings := by
    exact_mod_cast alignedFields_pos c.mediaSettings
  have hFrame := mul_pos hInterval hFields
  have hAbove : ((timeNowNs + NS_IN_SEC : Nat) : ℚ) /
      (c.mediaSettings.frameFieldTimeIntervalNs * alignedFields c.mediaSettings) <
        alignmentNumber c timeNowNs := by
    rw [alignmentNumber, Nat.floor_add_one (by positivity)]
    push_cast
    exact Nat.lt_floor_add_one _
  rw [div_lt_iff₀ hFrame] at hAbove
  have hNow : (1000000000 : ℚ) ≤ ((timeNowNs + NS_IN_SEC : Nat) : ℚ) := by
    norm_num [NS_IN_SEC]
  exact hNow.trans_lt hAbove

end Alignment

/-! ## References -/

/-- The offset of packet `j` behind the start of its field. -/
def packetOffsetNs (m : MediaSettings) (j : Nat) : ℚ :=
  (calculateTroTrs m).1 + (calculateTroTrs m).2 * j

section References

variable {c : MediaStreamSettings} {timeNowNs : Nat}

theorem scheduledPacketTimeNs_eq (k j : Nat) : scheduledPacketTimeNs c timeNowNs k j =
    alignmentPointNs c timeNowNs + k * c.mediaSettings.frameFieldTimeIntervalNs +
      packetOffsetNs c.mediaSettings j := by
  rw [scheduledPacketTimeNs, sendTimeNs_eq, calculateTrs_eq, packetOffsetNs]
  ring

/-- Two truncations cost less than two nanoseconds. -/
theorem abs_referenceTs_sub_lt {x : ℚ} (hx : 0 ≤ x) (m : MediaSettings) (j : Nat) :
    |(referenceTs m ⌊x⌋₊ j : ℚ) - (x + packetOffsetNs m j)| < 2 := by
  have hCast := abs_truncInt_sub_lt
    ((⌊x⌋₊ : ℚ) + (calculateTroTrs m).1 + (calculateTroTrs m).2 * j)
  have hLow := Nat.floor_le hx
  have hHigh := Nat.lt_floor_add_one x
  unfold referenceTs packetOffsetNs
  rw [abs_lt] at hCast ⊢
  constructor <;> linarith

/-- What the two truncations cost. -/
theorem referenceTs_eq {x : ℚ} (hx : 0 ≤ x) {m : MediaSettings} {j : Nat}
    (hPos : 0 ≤ x - 1 + packetOffsetNs m j) :
    (referenceTs m ⌊x⌋₊ j : ℚ) =
      x + packetOffsetNs m j - Int.fract x - Int.fract (packetOffsetNs m j) := by
  have hHigh := Nat.lt_floor_add_one x
  have hFloor : (⌊x⌋₊ : ℚ) = ⌊x⌋ := natCast_floor_eq_intCast_floor hx
  have hTime : (⌊x⌋₊ : ℚ) + (calculateTroTrs m).1 + (calculateTroTrs m).2 * j =
      packetOffsetNs m j + ⌊x⌋ := by
    rw [packetOffsetNs, ← hFloor]
    ring
  rw [referenceTs, hTime, truncInt, if_pos (by rw [← hFloor]; linarith), Int.floor_add_intCast,
    Int.fract, Int.fract]
  push_cast
  ring

/-- Packets are sent less than two fields ahead of their alignment point. -/
theorem packetOffsetNs_ge (m : MediaSettings) (hInterval : 0 ≤ m.frameFieldTimeIntervalNs)
    (j : Nat) : -(2 * m.frameFieldTimeIntervalNs) ≤ packetOffsetNs m j := by
  have hTro := calculateTroTrs_ge m hInterval
  -- the packets of a field follow each other
  have hTrs : 0 ≤ (calculateTroTrs m).2 := by
    have hActive : 0 ≤ (troTrsFactors m.videoScanType m.resolution.height.toNat).1 := by
      unfold troTrsFactors
      repeat' split
      all_goals norm_num
    unfold calculateTroTrs
    positivity
  have hAhead : 0 ≤ (calculateTroTrs m).2 * j := mul_nonneg hTrs (Nat.cast_nonneg j)
  unfold packetOffsetNs
  linarith

/-- The next alignment point is the start of the next field. -/
theorem abs_reference_sub_scheduled_lt (hInterval : 0 < c.mediaSettings.frameFieldTimeIntervalNs)
    {k t : Nat} (hPeriod : OwnPeriod c timeNowNs k t)
    (hNext : (k / alignedFields c.mediaSettings + 1) * alignedFields c.mediaSettings = k + 1)
    (j : Nat) :
    |(referenceTs c.mediaSettings (calcNextFrameStart c.mediaSettings t) j : ℚ) -
      scheduledPacketTimeNs c timeNowNs (k + 1) j| < 2 := by
  have hPoint := @alignmentPointNs_gt c timeNowNs hInterval
  rw [calcNextFrameStart_eq hInterval hPeriod, scheduledPacketTimeNs_eq, hNext]
  refine abs_referenceTs_sub_lt (add_nonneg (by linarith) ?_) _ _
  positivity

/-- The next alignment point is a field later. -/
theorem reference_sub_scheduled (hInterval : 0 < c.mediaSettings.frameFieldTimeIntervalNs)
    {k t : Nat} (hPeriod : OwnPeriod c timeNowNs k t)
    (hNext : (k / alignedFields c.mediaSettings + 1) * alignedFields c.mediaSettings = k + 2)
    (j : Nat) :
    (referenceTs c.mediaSettings (calcNextFrameStart c.mediaSettings t) j : ℚ) -
        scheduledPacketTimeNs c timeNowNs (k + 1) j =
      c.mediaSettings.frameFieldTimeIntervalNs -
        Int.fract (alignmentPointNs c timeNowNs +
          ((k + 2 : Nat) : ℚ) * c.mediaSettings.frameFieldTimeIntervalNs) -
        Int.fract (packetOffsetNs c.mediaSettings j) := by
  have hPoint := @alignmentPointNs_gt c timeNowNs hInterval
  have hOffset := packetOffsetNs_ge c.mediaSettings hInterval.le j
  have hFields : 0 ≤ (k : ℚ) * c.mediaSettings.frameFieldTimeIntervalNs := by positivity
  -- late enough for the truncations to round down
  have hTime : 0 ≤ alignmentPointNs c timeNowNs +
      ((k + 2 : Nat) : ℚ) * c.mediaSettings.frameFieldTimeIntervalNs - 1 +
        packetOffsetNs c.mediaSettings j := by
    push_cast
    linarith
  rw [calcNextFrameStart_eq hInterval hPeriod, scheduledPacketTimeNs_eq, hNext,
    referenceTs_eq (add_nonneg (by linarith) (by positivity)) hTime]
  push_cast
  ring

end References

/-! ## Agreement -/

/-- A run without losses from packet `first` of the stream on, which the last
packet of each field reaches within the period of its field. A stream whose
generator divides by zero has no packets. -/
structure LossFreeRun (s : AppSettings) (timeNowNs first : Nat) (chunks : List RxChunk) :
    Prop where
  line_pos : 0 < s.media.packetsInLine
  rows_pos : 0 < s.media.linesInFrameField
  sent : ∃ (s0 : UInt32) (calls : Nat), ∀ n p, (packetsOf chunks)[n]? = some p → ∃ header,
    (prepareChunks s.streamSettings (List.replicate calls s.numOfPacketsInChunk)
      (calculateSendTimeNs s.streamSettings timeNowNs
        { rtpSequence := s0.toNat }).2).1[first + n]? = some header ∧
    StartsWith p.bytes header
  marked : ∀ n p, (packetsOf chunks)[n]? = some p →
    (first + n) % s.media.packetsInFrameField + 1 = s.media.packetsInFrameField →
      OwnPeriod s.streamSettings timeNowNs ((first + n) / s.media.packetsInFrameField) p.timestamp

/-- Every packet that is measured is measured against the time it was scheduled
for, up to two nanoseconds. -/
def SchedulesAgree (s : AppSettings) (timeNowNs : Nat) : Prop :=
  ∀ first lastPacketTs chunks, LossFreeRun s timeNowNs first chunks → ∀ n (reference : Int),
    (receiveSend s.media chunks { lastPacketTs := lastPacketTs }).1[n]? = some (some reference) →
      |(reference : ℚ) - scheduledPacketTimeNs s.streamSettings timeNowNs
        ((first + n) / s.media.packetsInFrameField)
        ((first + n) % s.media.packetsInFrameField)| < 2

/-- Every field is a frame, or a field is so short that the mistake goes under in
the two nanoseconds. -/
def PeriodsAlign (m : MediaSettings) : Prop :=
  m.videoScanType = .Progressive ∨
    (0 < m.packetsInLine → 0 < m.linesInFrameField → ∀ j < m.packetsInFrameField,
      m.frameFieldTimeIntervalNs < 2 + Int.fract (packetOffsetNs m j))

section Agreement

variable {s s' : AppSettings} {timeNowNs : Nat}

/-- What the receiver parses of a header of the stream. -/
theorem getRtpParam_of_sent {bytes pixels : Nat} (h : Computed s s' bytes pixels) (s0 : UInt32)
    (t0 i : Nat) {buffer : ByteStore.Memory}
    (hStarts : StartsWith buffer
      (preparedHeader s'.streamSettings s'.numOfPacketsInChunk s0.toNat t0 i)) :
    ∃ timestamp fBit, getRtpParam buffer = some ⟨(s0.toNat + i) % 2 ^ 32, timestamp,
      decide (i % s'.media.packetsInFrameField + 1 = s'.media.packetsInFrameField), fBit⟩ := by
  have hHeight : 0 < s'.media.resolution.height.toNat := by
    rw [h.settings]
    exact h.height_pos
  -- row and offset fit their fields, so the header is read back whole
  have hWell :
      WellFormed (preparedHeader s'.streamSettings s'.numOfPacketsInChunk s0.toNat t0 i) := by
    refine wellFormed_build211020RtpHeader _ (Nat.mod_lt _ (by decide))
      (Nat.mod_lt _ (by decide)) ?_
    exact (Nat.mod_le _ _).trans_lt ((Nat.mod_lt _ hHeight).trans
      s'.media.resolution.height.toNat_lt)
  have hParam := getRtpParam_of_startsWith hStarts hWell
  have hFull :
      (preparedHeader s'.streamSettings s'.numOfPacketsInChunk s0.toNat t0 i).fullSequence =
        (s0.toNat + i) % 2 ^ 32 := Nat.div_add_mod' _ _
  have hMarker : (preparedHeader s'.streamSettings s'.numOfPacketsInChunk s0.toNat t0 i).marker =
      decide (i % s'.media.packetsInFrameField + 1 = s'.media.packetsInFrameField) :=
    marker_build211020RtpHeader _ _
  rw [hFull, hMarker] at hParam
  exact ⟨_, _, hParam⟩

/-- A run without losses is in order. -/
theorem inOrder_of_lossFree {bytes pixels first : Nat} {chunks : List RxChunk}
    (h : Computed s s' bytes pixels) (hPackets : 0 < s'.media.packetsInFrameField)
    (hRun : LossFreeRun s' timeNowNs first chunks) :
    ∃ s0, MediaRxIONode.InOrder s'.media.packetsInFrameField s0 first
      (OwnPeriod s'.streamSettings timeNowNs) (packetsOf chunks) := by
  obtain ⟨s0, calls, hSent⟩ := hRun.sent
  have hTimestamp : (calculateSendTimeNs s'.streamSettings timeNowNs
      { rtpSequence := s0.toNat }).2.rtpTimestamp < 2 ^ 32 := Nat.mod_lt _ (by decide)
  refine ⟨s0.toNat, ?_, hRun.marked⟩
  intro n p hAt
  obtain ⟨header, hHeader, hStarts⟩ := hSent n p hAt
  have hPrepared := (@prepareChunks_at s'.streamSettings s'.numOfPacketsInChunk s0.toNat _ calls
    hPackets h.chunk_pos s0.toNat_lt hTimestamp).2 (first + n) header hHeader
  -- every packet is the prepared one of its index
  rw [hPrepared] at hStarts
  exact getRtpParam_of_sent h s0 _ _ hStarts

theorem nextAlignment_cases (m : MediaSettings) (k : Nat) :
    (k / alignedFields m + 1) * alignedFields m = k + 1 ∨
      m.videoScanType ≠ .Progressive ∧ (k / alignedFields m + 1) * alignedFields m = k + 2 := by
  unfold alignedFields
  split
  · left
    rw [Nat.div_one, Nat.mul_one]
  · rename_i hScan
    -- the first field of a frame is followed by its second
    rcases Nat.even_or_odd' k with ⟨half, rfl | rfl⟩
    · exact Or.inr ⟨hScan, by omega⟩
    · left
      omega

/-- Sooner or later an alignment point is a whole number of nanoseconds. -/
theorem exists_whole_alignment (hInit : initializeCommonMediaSettings s = some s')
    (hNum : 0 < s'.media.frameRate.num.toNat) (hDenom : 0 < s'.media.frameRate.denom.toNat)
    (hFields : 0 < s'.media.videoScanType.fields) (hTwo : alignedFields s'.media = 2) :
    ∃ k, (k / 2 + 1) * 2 = k + 2 ∧ Int.fract (alignmentPointNs s'.streamSettings timeNowNs +
      ((k + 2 : Nat) : ℚ) * s'.media.frameFieldTimeIntervalNs) = 0 := by
  obtain ⟨rate, hRate⟩ : ∃ rate, rate = s'.media.frameRate.num.toNat *
      s'.media.frameRate.denom.toNat * s'.media.videoScanType.fields := ⟨_, rfl⟩
  obtain ⟨number, hNumber⟩ : ∃ number, number = alignmentNumber s'.streamSettings timeNowNs :=
    ⟨_, rfl⟩
  have hRatePos : 0 < rate := hRate ▸ Nat.mul_pos (Nat.mul_pos hNum hDenom) hFields
  have hRate' : (rate : ℚ) ≠ 0 := by exact_mod_cast hRatePos.ne'
  obtain ⟨q, hq⟩ : ∃ q, number + q + 1 = rate * (number + 1) := by
    have hMany : number + 1 ≤ rate * (number + 1) := Nat.le_mul_of_pos_left _ hRatePos
    exact ⟨rate * (number + 1) - (number + 1), by omega⟩
  refine ⟨2 * q, by omega, ?_⟩
  -- two seconds of fields from one whole second on
  have hPoint : alignmentPointNs s'.streamSettings timeNowNs +
      ((2 * q + 2 : Nat) : ℚ) * s'.media.frameFieldTimeIntervalNs =
        ((2000000000 * (number + 1) : Nat) : ℚ) := by
    have hq' : (number : ℚ) + q + 1 = rate * (number + 1) := by exact_mod_cast hq
    show (alignmentNumber s'.streamSettings timeNowNs : ℚ) *
      (s'.media.frameFieldTimeIntervalNs * alignedFields s'.media) + _ = _
    rw [hTwo, ← hNumber, interval_eq hInit, ← hRate]
    calc (number : ℚ) * (((1000000000 : Nat) : ℚ) / rate * ((2 : Nat) : ℚ)) +
          ((2 * q + 2 : Nat) : ℚ) * (((1000000000 : Nat) : ℚ) / rate)
        = 2000000000 * ((number : ℚ) + q + 1) / rate := by
          push_cast
          ring
      _ = ((2000000000 * (number + 1) : Nat) : ℚ) := by
          rw [hq']
          push_cast
          field_simp
  rw [hPoint]
  exact Int.fract_natCast _

/-- The stream, each packet received at the start of its field. -/
def promptPackets (c : MediaStreamSettings) (chunkLength timeNowNs first count : Nat) :
    List RxPacket :=
  (List.range count).map fun n =>
    { timestamp := ⌈alignmentPointNs c timeNowNs +
        ((first + n) / c.mediaSettings.packetsInFrameField : Nat) *
          c.mediaSettings.frameFieldTimeIntervalNs⌉₊
      bytes := ByteStore.write 0 (preparedHeader c chunkLength 0
        (calculateSendTimeNs c timeNowNs {}).2.rtpTimestamp (first + n)).bytes fun _ => 0 }

theorem lossFreeRun_promptPackets {bytes pixels : Nat} (h : Computed s s' bytes pixels)
    (hLine : 0 < s'.media.packetsInLine) (hRows : 0 < s'.media.linesInFrameField)
    (hInterval : 1 < s'.media.frameFieldTimeIntervalNs) (first count : Nat) :
    LossFreeRun s' timeNowNs first
      [⟨promptPackets s'.streamSettings s'.numOfPacketsInChunk timeNowNs first count, 0⟩] := by
  have hPackets := packetsInFrameField_pos h hLine hRows
  have hPoint := @alignmentPointNs_gt s'.streamSettings timeNowNs (one_pos.trans hInterval)
  have hTimestamp : (calculateSendTimeNs s'.streamSettings timeNowNs {}).2.rtpTimestamp < 2 ^ 32 :=
    Nat.mod_lt _ (by decide)
  have hPacket {n : Nat} {p : RxPacket} (hAt : (MediaRxIONode.packetsOf [⟨promptPackets
      s'.streamSettings s'.numOfPacketsInChunk timeNowNs first count, 0⟩])[n]? = some p) :
      n < count ∧ p.timestamp = ⌈alignmentPointNs s'.streamSettings timeNowNs +
          ((first + n) / s'.media.packetsInFrameField : Nat) *
            s'.media.frameFieldTimeIntervalNs⌉₊ ∧
        p.bytes = ByteStore.write 0 (preparedHeader s'.streamSettings s'.numOfPacketsInChunk 0
          (calculateSendTimeNs s'.streamSettings timeNowNs {}).2.rtpTimestamp
            (first + n)).bytes fun _ => 0 := by
    rw [MediaRxIONode.packetsOf, List.flatMap_singleton, promptPackets, List.getElem?_map] at hAt
    obtain ⟨i, hi, rfl⟩ := Option.map_eq_some_iff.mp hAt
    obtain ⟨hLt, rfl⟩ := List.getElem?_eq_some_iff.mp hi
    rw [List.getElem_range]
    exact ⟨hLt.trans_eq List.length_range, rfl, rfl⟩
  refine ⟨hLine, hRows, ⟨0, first + count, ?_⟩, ?_⟩
  · intro n p hAt
    obtain ⟨hn, -, hBytes⟩ := hPacket hAt
    obtain ⟨hLength, hHeaders⟩ := @prepareChunks_at s'.streamSettings s'.numOfPacketsInChunk 0 _
      (first + count) hPackets h.chunk_pos (by decide) hTimestamp
    have hGet := List.getElem?_eq_getElem
      (show first + n < _ from (Nat.add_lt_add_left hn first).trans_le hLength)
    refine ⟨_, hGet, ?_⟩
    rw [hHeaders _ _ hGet, hBytes]
    exact ByteStore.read_write_same (RtpHeader.length_bytes _)
  · intro n p hAt _
    obtain ⟨-, hTime, -⟩ := hPacket hAt
    have hFields : 0 ≤ (((first + n) / s'.media.packetsInFrameField : Nat) : ℚ) *
        s'.media.frameFieldTimeIntervalNs :=
      mul_nonneg (Nat.cast_nonneg _) (one_pos.trans hInterval).le
    rw [hTime]
    constructor
    · exact Nat.le_ceil _
    · refine (Nat.ceil_lt_add_one (by linarith)).trans_le ?_
      show _ ≤ alignmentPointNs s'.streamSettings timeNowNs +
        (((first + n) / s'.media.packetsInFrameField : Nat) + 1) * s'.media.frameFieldTimeIntervalNs
      linarith

/-- The packets of a field are fewer than the bytes of a frame. -/
theorem packetsInFrameField_le {bytes pixels : Nat} (h : Computed s s' bytes pixels) :
    s'.media.packetsInFrameField ≤ 2 ^ 32 := by
  rw [h.settings]
  refine (Nat.div_le_self _ _).trans ((Nat.div_le_self _ _).trans ?_)
  exact (Nat.mod_lt _ (by decide)).le

theorem periodsAlign_of_schedulesAgree (hInit : initializeCommonMediaSettings s = some s')
    (hRate : videoFrameRateValidator s.media.frameRate = true)
    (hAgree : SchedulesAgree s' timeNowNs) : PeriodsAlign s'.media := by
  obtain ⟨hNum, hDenom, hFields, hInterval, hSecond⟩ := interval_bounds hInit hRate
  obtain ⟨bytes, pixels, h⟩ := computed_of_eq_some hInit
  have hLimit := packetsInFrameField_le h
  by_contra hNot
  unfold PeriodsAlign at hNot
  rw [not_or] at hNot
  obtain ⟨hScan, hLong⟩ := hNot
  push Not at hLong
  obtain ⟨hLine, hRows, j, hj, hError⟩ := hLong
  have hPackets := packetsInFrameField_pos h hLine hRows
  have hTwo : alignedFields s'.media = 2 := if_neg hScan
  have hFract := Int.fract_nonneg (packetOffsetNs s'.media j)
  -- an alignment point on a whole nanosecond, and the first of its two fields
  obtain ⟨k, hEven, hWhole⟩ :=
    @exists_whole_alignment s s' timeNowNs hInit hNum hDenom hFields hTwo
  -- from the last packet of that field on
  obtain ⟨first, hFirst⟩ : ∃ first, first = k * s'.media.packetsInFrameField +
      (s'.media.packetsInFrameField - 1) := ⟨_, rfl⟩
  have hNext : first + (j + 1) = (k + 1) * s'.media.packetsInFrameField + j := by
    rw [hFirst, Nat.succ_mul]
    omega
  have hLast : first % s'.media.packetsInFrameField + 1 = s'.media.packetsInFrameField := by
    rw [hFirst, Nat.mul_comm, Nat.mul_add_mod, Nat.mod_eq_of_lt (by omega)]
    omega
  have hRun := @lossFreeRun_promptPackets s s' timeNowNs bytes pixels h hLine hRows
    (by linarith) first (j + 2)
  obtain ⟨p, packets, hList, hMany⟩ : ∃ p packets, promptPackets s'.streamSettings
      s'.numOfPacketsInChunk timeNowNs first (j + 2) = p :: packets ∧ j < packets.length := by
    unfold promptPackets
    rw [List.range_succ_eq_map, List.map_cons]
    exact ⟨_, _, rfl, by simp⟩
  rw [hList] at hRun
  obtain ⟨s0, hOrder⟩ := inOrder_of_lossFree h hPackets hRun
  have hStart : MediaRxIONode.Synced s'.media s0 (OwnPeriod s'.streamSettings timeNowNs) first
      { lastPacketTs := 0 } := fun hState => by cases hState
  have hPacketOrder : MediaRxIONode.InOrder s'.media.packetsInFrameField s0 first
      (OwnPeriod s'.streamSettings timeNowNs) (p :: packets) := by
    rw [← show MediaRxIONode.packetsOf [⟨p :: packets, 0⟩] = p :: packets from
      List.flatMap_singleton _ _]
    exact hOrder
  obtain ⟨reference, hAt⟩ := measured_behind_marker hPackets hLimit hPacketOrder hLast 0 0 hMany
  obtain ⟨k', t, hField, hPeriod, hReference⟩ := measured_of_run hPackets hLimit _ hOrder hStart
    (j + 1) reference hAt
  have hClose := hAgree first 0 _ hRun (j + 1) reference hAt
  have hDiv : ((k + 1) * s'.media.packetsInFrameField + j) / s'.media.packetsInFrameField =
      k + 1 := by
    rw [Nat.mul_comm, Nat.mul_add_div hPackets, Nat.div_eq_of_lt hj, Nat.add_zero]
  have hMod : ((k + 1) * s'.media.packetsInFrameField + j) % s'.media.packetsInFrameField =
      j := by
    rw [Nat.mul_comm, Nat.mul_add_mod, Nat.mod_eq_of_lt hj]
  rw [hNext, hDiv] at hField
  obtain rfl : k = k' := Nat.succ.inj hField
  rw [hNext, hMod] at hReference
  rw [hNext, hDiv, hMod, hReference] at hClose
  have hLate := @reference_sub_scheduled s'.streamSettings timeNowNs hInterval k t hPeriod
    (by show (k / alignedFields s'.media + 1) * alignedFields s'.media = k + 2
        rw [hTwo, hEven]) j
  -- the mistake of a whole interval, which is longer than the two nanoseconds
  have hGap : |s'.media.frameFieldTimeIntervalNs - Int.fract (alignmentPointNs
      s'.streamSettings timeNowNs + ((k + 2 : Nat) : ℚ) * s'.media.frameFieldTimeIntervalNs) -
        Int.fract (packetOffsetNs s'.media j)| < 2 := (congrArg abs hLate).symm.trans_lt hClose
  rw [hWhole, abs_lt] at hGap
  linarith

theorem schedulesAgree_of_periodsAlign (hInit : initializeCommonMediaSettings s = some s')
    (hRate : videoFrameRateValidator s.media.frameRate = true)
    (hAlign : PeriodsAlign s'.media) : SchedulesAgree s' timeNowNs := by
  intro first lastPacketTs chunks hRun n reference hAt
  obtain ⟨hNum, hDenom, hFields, hInterval, hSecond⟩ := interval_bounds hInit hRate
  obtain ⟨bytes, pixels, h⟩ := computed_of_eq_some hInit
  have hLimit := packetsInFrameField_le h
  have hPackets := packetsInFrameField_pos h hRun.line_pos hRun.rows_pos
  obtain ⟨s0, hOrder⟩ := inOrder_of_lossFree h hPackets hRun
  have hStart : MediaRxIONode.Synced s'.media s0 (OwnPeriod s'.streamSettings timeNowNs) first
      { lastPacketTs := lastPacketTs } := fun hState => by cases hState
  obtain ⟨k, t, hField, hPeriod, rfl⟩ := measured_of_run hPackets hLimit chunks hOrder hStart n
    reference hAt
  have hPlace := Nat.mod_lt (first + n) hPackets
  rw [hField]
  rcases hAlign with hProgressive | hShort
  · have hOne : alignedFields s'.media = 1 := if_pos hProgressive
    refine @abs_reference_sub_scheduled_lt s'.streamSettings timeNowNs hInterval k t hPeriod ?_ _
    show (k / alignedFields s'.media + 1) * alignedFields s'.media = k + 1
    rw [hOne, Nat.div_one, Nat.mul_one]
  · rcases nextAlignment_cases s'.media k with hNext | ⟨-, hNext⟩
    · exact @abs_reference_sub_scheduled_lt s'.streamSettings timeNowNs hInterval k t hPeriod
        hNext _
    · have hLate := @reference_sub_scheduled s'.streamSettings timeNowNs hInterval k t hPeriod
        hNext ((first + n) % s'.media.packetsInFrameField)
      -- a field later, but a short one
      have hBelow := hShort hRun.line_pos hRun.rows_pos _ hPlace
      have hPoint := Int.fract_nonneg (alignmentPointNs s'.streamSettings timeNowNs +
        ((k + 2 : Nat) : ℚ) * s'.media.frameFieldTimeIntervalNs)
      have hPointLt := Int.fract_lt_one (alignmentPointNs s'.streamSettings timeNowNs +
        ((k + 2 : Nat) : ℚ) * s'.media.frameFieldTimeIntervalNs)
      have hOffsetLt := Int.fract_lt_one
        (packetOffsetNs s'.media ((first + n) % s'.media.packetsInFrameField))
      refine (congrArg abs hLate).trans_lt (abs_lt.mpr ?_)
      show -2 < s'.media.frameFieldTimeIntervalNs - Int.fract (alignmentPointNs
          s'.streamSettings timeNowNs + ((k + 2 : Nat) : ℚ) * s'.media.frameFieldTimeIntervalNs) -
            Int.fract (packetOffsetNs s'.media ((first + n) % s'.media.packetsInFrameField)) ∧
        s'.media.frameFieldTimeIntervalNs - Int.fract (alignmentPointNs
          s'.streamSettings timeNowNs + ((k + 2 : Nat) : ℚ) * s'.media.frameFieldTimeIntervalNs) -
            Int.fract (packetOffsetNs s'.media ((first + n) % s'.media.packetsInFrameField)) < 2
      constructor <;> linarith

/-- **Schedules.** For every accepted setting and any start: in all runs without
losses the receiver measures packets against the schedule of the transmitter
exactly when `PeriodsAlign` holds. -/
theorem schedules_agree_iff (hInit : initializeCommonMediaSettings s = some s')
    (hRate : videoFrameRateValidator s.media.frameRate = true) :
    SchedulesAgree s' timeNowNs ↔ PeriodsAlign s'.media :=
  ⟨periodsAlign_of_schedulesAgree hInit hRate, schedulesAgree_of_periodsAlign hInit hRate⟩

/-- Progressive full HD. -/
theorem schedules_agree_fullHd60 :
    ∃ s', initializeCommonMediaSettings (fullHd ⟨60, 1⟩ .Progressive) = some s' ∧
      SchedulesAgree s' 0 :=
  ⟨_, rfl, (@schedules_agree_iff (fullHd ⟨60, 1⟩ .Progressive) _ 0 rfl (by decide)).mpr
    (Or.inl rfl)⟩

/-- In interlaced video the second field of a frame is measured against the start
of the next frame. -/
theorem interlaced_schedules_differ :
    ∃ s', initializeCommonMediaSettings (fullHd ⟨25, 1⟩ .Interlaced) = some s' ∧
      ¬ SchedulesAgree s' 0 := by
  refine ⟨_, rfl, fun hAgree => ?_⟩
  have hAlign := @periodsAlign_of_schedulesAgree (fullHd ⟨25, 1⟩ .Interlaced) _ 0 rfl (by decide)
    hAgree
  rcases hAlign with hScan | hShort
  · exact absurd hScan (by decide)
  · have hFirst := hShort (by decide) (by decide) 0 (by decide)
    have hFract := Int.fract_lt_one (packetOffsetNs (commonMediaSettings
      (fullHd ⟨25, 1⟩ .Interlaced) 5 2).media 0)
    have hField : (20000000 : ℚ) =
        (commonMediaSettings (fullHd ⟨25, 1⟩ .Interlaced) 5 2).media.frameFieldTimeIntervalNs := by
      decide +kernel
    exact absurd (hField.trans_lt (hFirst.trans (add_lt_add_right hFract 2))) (by norm_num)

end Agreement

end RivermaxDevKit
