import Mathlib.Tactic.Linarith
import Mathlib.Tactic.FieldSimp
import RivermaxDevKit.Media.Tiling
import RivermaxDevKit.Rtp.BufferWriter
import RivermaxDevKit.Rtp.VideoSendStream

/-!
# Intervals and start times

The field interval, the ticks of a field and the time of the first packet of
accepted settings, bounded and in integers.

* `interval_eq` / `interval_bounds` — the interval of an accepted frame rate.
* `ticks_eq` — the ticks a field adds.
* `sendTimeNs_ge` — the first packet is not sent near the epoch.
-/

namespace RivermaxDevKit

/-- Whole ticks of 90 kHz in a time of `t` nanoseconds. -/
def ticksOfNs (t : Nat) : Nat := 9 * t / 100000

/-- The timestamp of a time in whole nanoseconds that is five ticks old. -/
theorem rtpTimestamp_of_ns {timeNs : Nat} (h : 55556 ≤ timeNs) (m : MediaSettings) :
    ⌊timeToRtpTimestamp timeNs m.sampleRate⌋₊ % 2 ^ 32 = (ticksOfNs timeNs - 5) % 2 ^ 32 := by
  have hTicks : (timeNs : ℚ) / NS_IN_SEC * m.sampleRate =
      ((9 * timeNs : Nat) : ℚ) / ((100000 : Nat) : ℚ) := by
    norm_num [NS_IN_SEC, MediaSettings.sampleRate]
    ring
  have hFive : 5 ≤ (timeNs : ℚ) / NS_IN_SEC * m.sampleRate := by
    rw [hTicks, le_div_iff₀ (by norm_num)]
    norm_cast
    omega
  rw [floor_timeToRtpTimestamp hFive, hTicks, Nat.floor_div_eq_div, Nat.mod_mod]
  rfl

section Interval

variable {app app' : AppSettings}

/-- The denominator of the frame rate divides the interval: this is the clock of
`num * denom` frames a second. -/
theorem interval_eq (hInit : initializeCommonMediaSettings app = some app') :
    app'.media.frameFieldTimeIntervalNs = ((1000000000 : Nat) : ℚ) /
      ((app'.media.frameRate.num.toNat * app'.media.frameRate.denom.toNat *
        app'.media.videoScanType.fields : Nat) : ℚ) := by
  have h := initialized_of_eq_some hInit
  rw [h.interval, h.frameRate, h.videoScanType, Nat.cast_mul, Nat.cast_mul, div_div, div_div,
    mul_assoc]
  norm_num [NS_IN_SEC]

/-- The interval of an accepted frame rate: at most a second. -/
theorem interval_bounds (hInit : initializeCommonMediaSettings app = some app')
    (hRate : videoFrameRateValidator app.media.frameRate = true) :
    0 < app'.media.frameRate.num.toNat ∧ 0 < app'.media.frameRate.denom.toNat ∧
      0 < app'.media.videoScanType.fields ∧ 0 < app'.media.frameFieldTimeIntervalNs ∧
      app'.media.frameFieldTimeIntervalNs ≤ 1000000000 := by
  obtain ⟨hNum, hDenom⟩ : app'.media.frameRate.num ≠ 0 ∧ app'.media.frameRate.denom ≠ 0 := by
    rw [(initialized_of_eq_some hInit).frameRate]
    simpa [videoFrameRateValidator] using hRate
  have hNumPos : 0 < app'.media.frameRate.num.toNat :=
    Nat.pos_of_ne_zero fun h => hNum (UInt16.toNat_inj.mp h)
  have hDenomPos : 0 < app'.media.frameRate.denom.toNat :=
    Nat.pos_of_ne_zero fun h => hDenom (UInt16.toNat_inj.mp h)
  have hFields : 0 < app'.media.videoScanType.fields := by
    unfold VideoScanType.fields
    split <;> decide
  have hProduct : 0 < app'.media.frameRate.num.toNat * app'.media.frameRate.denom.toNat *
      app'.media.videoScanType.fields := Nat.mul_pos (Nat.mul_pos hNumPos hDenomPos) hFields
  have hProduct' : (1 : ℚ) ≤ ((app'.media.frameRate.num.toNat *
      app'.media.frameRate.denom.toNat * app'.media.videoScanType.fields : Nat) : ℚ) := by
    exact_mod_cast hProduct
  refine ⟨hNumPos, hDenomPos, hFields, ?_, ?_⟩
  · rw [interval_eq hInit]
    positivity
  · rw [interval_eq hInit, div_le_iff₀ (by linarith)]
    push_cast at hProduct' ⊢
    linarith

end Interval

namespace RtpVideoSendStream

/-- What the last packet of a field adds, in integers. -/
theorem ticks_eq (c : MediaStreamSettings) :
    ticks c = 90000 * c.mediaSettings.frameRate.denom.toNat /
      (c.mediaSettings.frameRate.num.toNat * c.mediaSettings.videoScanType.fields) % 2 ^ 32 := by
  have hTicks : (c.mediaSettings.sampleRate : ℚ) /
      (c.mediaSettings.frameRate.num.toNat / c.mediaSettings.frameRate.denom.toNat) /
        c.mediaSettings.videoScanType.fields =
      ((90000 * c.mediaSettings.frameRate.denom.toNat : Nat) : ℚ) /
        ((c.mediaSettings.frameRate.num.toNat * c.mediaSettings.videoScanType.fields : Nat) :
          ℚ) := by
    rw [Nat.cast_mul, Nat.cast_mul, ← div_div, div_div_eq_mul_div]
    rfl
  rw [ticks, hTicks, Nat.floor_div_eq_div]

/-- The offset of the first packet is at most two packet spacings early. -/
theorem calculateTroTrs_ge (s : MediaSettings) (hInterval : 0 ≤ s.frameFieldTimeIntervalNs) :
    -(48 / 25 * s.frameFieldTimeIntervalNs) ≤ (calculateTroTrs s).1 := by
  obtain ⟨hActive, hActiveLe, hOffset⟩ : 0 ≤ (troTrsFactors s.videoScanType
      s.resolution.height.toNat).1 ∧ (troTrsFactors s.videoScanType s.resolution.height.toNat).1 ≤
        24 / 25 ∧ 0 ≤ (troTrsFactors s.videoScanType s.resolution.height.toNat).2 := by
    unfold troTrsFactors
    repeat' split
    all_goals norm_num
  unfold calculateTroTrs
  generalize troTrsFactors s.videoScanType s.resolution.height.toNat = factors at *
  obtain ⟨fields, hFields, hPos⟩ : ∃ fields : Nat,
      fields = (if s.videoScanType = .Progressive then 1 else 2) ∧ 0 < fields := by
    refine ⟨_, rfl, ?_⟩
    split <;> decide
  rw [← hFields]
  have hFieldsPos : (0 : ℚ) < fields := by exact_mod_cast hPos
  have hSpacing : s.frameFieldTimeIntervalNs * fields * factors.1 /
      ((s.packetsInFrameField * fields : Nat) : ℚ) ≤ 24 / 25 * s.frameFieldTimeIntervalNs := by
    rcases Nat.eq_zero_or_pos s.packetsInFrameField with hNone | hSome
    · rw [hNone, Nat.zero_mul, Nat.cast_zero, div_zero]
      positivity
    · have hPackets : (1 : ℚ) ≤ s.packetsInFrameField := by exact_mod_cast hSome
      rw [Nat.cast_mul, div_le_iff₀ (by positivity)]
      nlinarith [mul_le_mul_of_nonneg_left hActiveLe (mul_nonneg hInterval hFieldsPos.le),
        mul_le_mul_of_nonneg_left hPackets (mul_nonneg hInterval hFieldsPos.le)]
  have hTerm : 0 ≤ factors.2 * (s.frameFieldTimeIntervalNs * fields) := by positivity
  have hTwo : ((VIDEO_TRO_DEFAULT_MODIFICATION : Nat) : ℚ) = 2 := by
    norm_num [VIDEO_TRO_DEFAULT_MODIFICATION]
  show _ ≤ factors.2 * (s.frameFieldTimeIntervalNs * fields) -
    ((VIDEO_TRO_DEFAULT_MODIFICATION : Nat) : ℚ) * _
  rw [hTwo]
  linarith

/-- The first packet is sent well after the epoch. -/
theorem sendTimeNs_ge (c : MediaStreamSettings) (timeNowNs : Nat)
    (hInterval : 0 < c.mediaSettings.frameFieldTimeIntervalNs)
    (hSecond : c.mediaSettings.frameFieldTimeIntervalNs ≤ 1000000000) :
    40000000 ≤ sendTimeNs c timeNowNs := by
  have hTro := calculateTroTrs_ge c.mediaSettings hInterval.le
  obtain ⟨fields, hFields, hCases⟩ : ∃ fields : Nat,
      fields = (if c.mediaSettings.videoScanType = .Progressive then 1 else 2) ∧
        (fields = 1 ∨ fields = 2) := by
    refine ⟨_, rfl, ?_⟩
    split <;> simp
  have hTime : sendTimeNs c timeNowNs =
      (⌊((timeNowNs + NS_IN_SEC : Nat) : ℚ) /
        (c.mediaSettings.frameFieldTimeIntervalNs * fields) + 1⌋₊ : ℚ) *
          (c.mediaSettings.frameFieldTimeIntervalNs * fields) +
            (calculateTroTrs c.mediaSettings).1 := by
    rw [hFields]
    rfl
  rw [hTime]
  generalize (calculateTroTrs c.mediaSettings).1 = tro at *
  generalize c.mediaSettings.frameFieldTimeIntervalNs = interval at *
  have hFrame : 0 < interval * fields := by
    rcases hCases with rfl | rfl <;> norm_num <;> exact hInterval
  obtain ⟨n, hn⟩ : ∃ n, n = ⌊((timeNowNs + NS_IN_SEC : Nat) : ℚ) / (interval * fields) + 1⌋₊ :=
    ⟨_, rfl⟩
  rw [← hn]
  -- the alignment point lies behind the next second
  have hAligned : 1000000000 < n * (interval * fields) := by
    have hAbove : ((timeNowNs + NS_IN_SEC : Nat) : ℚ) / (interval * fields) < n := by
      rw [hn, Nat.floor_add_one (by positivity)]
      push_cast
      exact Nat.lt_floor_add_one _
    rw [div_lt_iff₀ hFrame] at hAbove
    have hNow : (1000000000 : ℚ) ≤ ((timeNowNs + NS_IN_SEC : Nat) : ℚ) := by
      norm_num [NS_IN_SEC]
    linarith
  rcases le_or_gt interval 500000000 with hShort | hLong
  · linarith
  · -- a long frame: two fields of it fit before the alignment point
    have hFields : (2 : ℚ) * interval ≤ n * (interval * fields) := by
      rcases hCases with rfl | rfl
      · rw [Nat.cast_one, mul_one] at hAligned ⊢
        have hTwo : 2 ≤ n := by
          by_contra hSmall
          have hOne : (n : ℚ) ≤ 1 := by exact_mod_cast (show n ≤ 1 by omega)
          nlinarith
        exact mul_le_mul_of_nonneg_right (by exact_mod_cast hTwo) hInterval.le
      · have hOne : 1 ≤ n := by
          by_contra hSmall
          have hZero : n = 0 := by omega
          rw [hZero] at hAligned
          norm_num at hAligned
        have hOne' : (1 : ℚ) ≤ n := by exact_mod_cast hOne
        push_cast
        nlinarith
    linarith

end RtpVideoSendStream

/-- Both generators step the timestamp alike. -/
theorem streamTicks_eq {s s' : AppSettings} {bytes pixels : Nat} (h : Computed s s' bytes pixels)
    (payloadSize : Nat) :
    RtpVideoSendStream.ticks ⟨s'.media, payloadSize⟩ = RtpVideoBufferWriter.ticks s'.media := by
  rw [h.settings]
  rfl

end RivermaxDevKit
