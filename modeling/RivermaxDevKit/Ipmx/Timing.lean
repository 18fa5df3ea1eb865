import Mathlib.Tactic.Linarith
import Mathlib.Tactic.FieldSimp
import RivermaxDevKit.Ipmx.ReportRoundTrip
import RivermaxDevKit.Ipmx.StreamTimelineTracker
import RivermaxDevKit.Rtp.SendTime

/-!
# Reports and media on one clock

The timestamp of Sender Report `k` is computed from an absolute time in
nanoseconds, the timestamp of media field `k` by adding up whole ticks. This
module says for which frame rates and start times the two agree.

* `fieldTime_ticks_iff` — the arithmetic: a truncated nanosecond clock and a
  truncated tick counter agree for ever exactly when the counter is exact.
* `times_agree_iff` — reports and media of an IPMX stream, and what the
  receiver's tracker counts.
-/

namespace RivermaxDevKit

open ByteStore

/-! ## A nanosecond clock and a tick counter -/

/-- Time of field `k`, `m` fields a second, from a start in whole nanoseconds. -/
def fieldTimeNs (start m k : Nat) : Nat := start + 1000000000 * k / m

section Clock

variable {start m : Nat}

/-- One field is at most a second and a nanosecond long. -/
theorem fieldTimeNs_succ_le (hm : 0 < m) (k : Nat) :
    fieldTimeNs start m k ≤ fieldTimeNs start m (k + 1) ∧
      fieldTimeNs start m (k + 1) ≤ fieldTimeNs start m k + 1000000001 := by
  have hLow : 1000000000 * k / m ≤ 1000000000 * (k + 1) / m := Nat.div_le_div_right (by omega)
  have hHigh : 1000000000 * (k + 1) / m ≤ 1000000000 * k / m + 1000000001 := by
    rw [Nat.mul_add, Nat.mul_one]
    have hSecond : 1000000000 / m ≤ 1000000000 := Nat.div_le_self _ _
    rw [Nat.add_div hm]
    split <;> omega
  unfold fieldTimeNs
  omega

/-- After `m` fields a second has passed. -/
theorem fieldTimeNs_second (hm : 0 < m) :
    fieldTimeNs start m m = fieldTimeNs start m 0 + 1000000000 := by
  unfold fieldTimeNs
  rw [Nat.mul_div_cancel _ hm, Nat.mul_zero, Nat.zero_div]

/-- If the clock's ticks follow a counter modulo `2 ^ 32`, they follow it
exactly: a field is far shorter than the counter's range. -/
theorem ticks_linear_of_modEq {g step : Nat} (hm : 0 < m) (hStep : step < 2 ^ 32)
    (h : ∀ k, ticksOfNs (fieldTimeNs start m k) % 2 ^ 32 = (g + k * step) % 2 ^ 32) (k : Nat) :
    ticksOfNs (fieldTimeNs start m k) = ticksOfNs (fieldTimeNs start m 0) + k * step := by
  induction k with
  | zero => simp
  | succ k ih =>
    obtain ⟨hLow, hHigh⟩ := @fieldTimeNs_succ_le start m hm k
    have hThis := h k
    have hNext := h (k + 1)
    rw [Nat.succ_mul] at hNext ⊢
    rw [ih] at hThis
    have hTickLow :
        ticksOfNs (fieldTimeNs start m k) ≤ ticksOfNs (fieldTimeNs start m (k + 1)) := by
      unfold ticksOfNs
      omega
    have hTickHigh : ticksOfNs (fieldTimeNs start m (k + 1)) ≤
        ticksOfNs (fieldTimeNs start m k) + 90001 := by
      unfold ticksOfNs
      omega
    omega

/-- A second of fields is a second of ticks. -/
theorem step_mul_eq_of_linear {step : Nat} (hm : 0 < m)
    (h : ∀ k, ticksOfNs (fieldTimeNs start m k) = ticksOfNs (fieldTimeNs start m 0) + k * step) :
    m * step = 90000 := by
  -- behind the fields of a second the clock is a second on
  have hSecond := h m
  rw [fieldTimeNs_second hm] at hSecond
  unfold ticksOfNs at hSecond
  omega

/-- The ticks of whole-tick fields: the nanoseconds lost to truncation are the
ninths of the tick count. -/
theorem ticks_of_whole_step {step : Nat} (hStep : m * step = 90000) (k : Nat) :
    ticksOfNs (fieldTimeNs start m k) = ticksOfNs start + k * step ↔
      k * step % 9 ≤ 9 * start % 100000 := by
  have hm : 0 < m := by
    rcases Nat.eq_zero_or_pos m with rfl | h
    · omega
    · exact h
  have hs : 0 < step := by
    rcases Nat.eq_zero_or_pos step with rfl | h
    · omega
    · exact h
  have hNs : 1000000000 * k / m = 100000 * (k * step) / 9 := by
    rw [← Nat.mul_div_mul_right _ _ hs, hStep, ← Nat.mul_div_mul_right (100000 * (k * step)) 9
      (by decide : 0 < 10000)]
    congr 1
    ring
  unfold ticksOfNs fieldTimeNs
  rw [hNs]
  generalize k * step = x
  -- a tick is 11111 nanoseconds and a ninth
  have hNinths : 100000 * x / 9 = 11111 * x + x / 9 := by omega
  rw [hNinths]
  omega

/-- The largest remainder the multiples of a step leave. -/
theorem forall_mul_mod_nine_le_iff (step r : Nat) :
    (∀ k, k * step % 9 ≤ r) ↔ 9 - Nat.gcd step 9 ≤ r := by
  have hLt : step % 9 < 9 := Nat.mod_lt _ (by decide)
  have hGcd : Nat.gcd step 9 = Nat.gcd (step % 9) 9 := by
    rw [Nat.gcd_comm, Nat.gcd_rec]
  -- only the residue of the step counts, so nine steps are looked at
  have hAttained : ∀ c < 9, ∃ k < 9, k * c % 9 = 9 - Nat.gcd c 9 := by decide
  have hBound : ∀ c < 9, ∀ k < 9, k * c % 9 ≤ 9 - Nat.gcd c 9 := by decide
  rw [hGcd]
  constructor
  · intro h
    obtain ⟨k, -, hk⟩ := hAttained _ hLt
    have hAt := h k
    have hSame : k * (step % 9) % 9 = k * step % 9 := Nat.mul_mod_mod _ _ _
    rwa [← hSame, hk] at hAt
  · intro h k
    rw [Nat.mul_mod]
    exact (hBound _ hLt _ (Nat.mod_lt _ (by decide))).trans h

/-- A counter whose step is the tick count of a field, of `num * fields` fields
per `denom` seconds, keeps up only with whole ticks and whole seconds. -/
theorem whole_step_of_linear {num denom fields : Nat} (hDenom : 0 < denom) (hLt : denom < 2 ^ 16)
    (h : num * denom * fields * (90000 * denom / (num * fields) % 2 ^ 32) = 90000) :
    denom = 1 ∧ num * fields ∣ 90000 := by
  obtain ⟨step, hStep⟩ : ∃ step, step = 90000 * denom / (num * fields) % 2 ^ 32 := ⟨_, rfl⟩
  rw [← hStep] at h
  have hWhole : num * fields * (denom * step) = 90000 := by
    rw [← h]
    ring
  have hFields : 0 < num * fields := Nat.pos_of_ne_zero fun hZero => by simp [hZero] at hWhole
  have hTicks : 90000 * denom / (num * fields) = denom * step * denom := by
    rw [← hWhole, Nat.mul_assoc (num * fields), Nat.mul_div_cancel_left _ hFields]
  -- a divisor of 90000 below 2 ^ 16 is at most 45000, so nothing wraps
  have hDvd : denom ∣ 90000 := ⟨num * fields * step, by rw [← hWhole]; ring⟩
  have hHalf : denom ≤ 45000 := by
    obtain ⟨q, hq⟩ := hDvd
    rcases Nat.lt_or_ge q 2 with hSmall | hLarge
    · have hCases : q = 0 ∨ q = 1 := by omega
      rcases hCases with rfl | rfl <;> omega
    · have hMul : denom * 2 ≤ denom * q := Nat.mul_le_mul_left _ hLarge
      omega
  have hStepLe : denom * step ≤ 90000 := Nat.le_of_dvd (by decide) ⟨num * fields, by
    rw [← hWhole, Nat.mul_comm]⟩
  have hNoWrap : denom * step * denom < 2 ^ 32 :=
    calc denom * step * denom ≤ 90000 * 45000 := Nat.mul_le_mul hStepLe hHalf
      _ < 2 ^ 32 := by decide
  rw [hTicks, Nat.mod_eq_of_lt hNoWrap] at hStep
  have hPos : 0 < step := Nat.pos_of_ne_zero fun hZero => by simp [hZero] at hWhole
  -- the step is itself times the square of the denominator
  have hSquare : step * (denom * denom) = step * 1 := by
    rw [Nat.mul_one]
    conv_rhs => rw [hStep]
    ring
  have hOne : denom * denom = 1 := Nat.eq_of_mul_eq_mul_left hPos hSquare
  exact ⟨Nat.eq_one_of_mul_eq_one_left hOne, ⟨denom * step, hWhole.symm⟩⟩

/-- **Clock and counter.** A clock of `num * denom * fields` fields a second and
a counter of the ticks of `num * fields` fields per `denom` seconds, started at
`first`, agree modulo `2 ^ 32` for ever exactly when a field is a whole number
of ticks, `denom` is 1, and the start is far enough behind a tick for the
truncated nanoseconds of a field not to reach it. -/
theorem fieldTime_ticks_iff {num denom fields first : Nat} (hNum : 0 < num) (hDenom : 0 < denom)
    (hLt : denom < 2 ^ 16) (hFields : 0 < fields)
    (hFirst : ticksOfNs start ≤ first ∧ first ≤ ticksOfNs start + 1) :
    (∀ k, ticksOfNs (fieldTimeNs start (num * denom * fields) k) % 2 ^ 32 =
        (first + k * (90000 * denom / (num * fields) % 2 ^ 32)) % 2 ^ 32) ↔
      denom = 1 ∧ num * fields ∣ 90000 ∧
        9 - Nat.gcd (90000 / (num * fields)) 9 ≤ 9 * start % 100000 ∧ first = ticksOfNs start := by
  have hm : 0 < num * denom * fields := Nat.mul_pos (Nat.mul_pos hNum hDenom) hFields
  have hZero : ticksOfNs (fieldTimeNs start (num * denom * fields) 0) = ticksOfNs start := by
    simp [fieldTimeNs]
  constructor
  · intro h
    have hLinear := ticks_linear_of_modEq hm (Nat.mod_lt _ (by decide)) h
    have hSecond := step_mul_eq_of_linear hm hLinear
    obtain ⟨rfl, hDvd⟩ := whole_step_of_linear hDenom hLt hSecond
    -- the first field, where neither side has moved
    have hStart : first = ticksOfNs start := by
      have hAtZero := h 0
      rw [hZero] at hAtZero
      omega
    have hStepEq : 90000 * 1 / (num * fields) % 2 ^ 32 = 90000 / (num * fields) := by
      rw [Nat.mul_one]
      exact Nat.mod_eq_of_lt ((Nat.div_le_self _ _).trans_lt (by decide))
    rw [hStepEq] at hLinear hSecond
    refine ⟨rfl, hDvd, ?_, hStart⟩
    rw [← forall_mul_mod_nine_le_iff]
    intro k
    rw [← ticks_of_whole_step hSecond k, hLinear k, hZero]
  · rintro ⟨rfl, hDvd, hRemainder, rfl⟩ k
    have hSecond : num * 1 * fields * (90000 / (num * fields)) = 90000 := by
      rw [Nat.mul_one, Nat.mul_div_cancel' hDvd]
    have hStepEq : 90000 * 1 / (num * fields) % 2 ^ 32 = 90000 / (num * fields) := by
      rw [Nat.mul_one]
      exact Nat.mod_eq_of_lt ((Nat.div_le_self _ _).trans_lt (by decide))
    have hTicks := (ticks_of_whole_step hSecond k).mpr
      ((forall_mul_mod_nine_le_iff _ _).mpr hRemainder k)
    rw [hStepEq, hTicks]

end Clock

/-! ## The two sides -/

section Sides

variable {app app' : AppSettings}

theorem reportTimestamp_eq (hInit : initializeCommonMediaSettings app = some app')
    (r : ReportCounters) :
    reportTimestamp app'.media r = fieldTimeNs r.startSendTimeNs
      (app'.media.frameRate.num.toNat * app'.media.frameRate.denom.toNat *
        app'.media.videoScanType.fields) r.finishedFirstChunks := by
  rw [reportTimestamp, ReportClock.exact_time, interval_eq hInit, div_mul_eq_mul_div,
    ← Nat.cast_mul, add_comm, Nat.floor_add_natCast (by positivity), Nat.floor_div_eq_div,
    fieldTimeNs, Nat.add_comm]

/-- The timestamp of a report whose time is five ticks old. -/
theorem reportRtpTs_eq (s : MediaSettings) (r : ReportCounters) (h : 55556 ≤ reportTimestamp s r) :
    reportRtpTs s r = (ticksOfNs (reportTimestamp s r) - 5) % 2 ^ 32 :=
  rtpTimestamp_of_ns h s

end Sides

namespace RtpVideoSendStream

variable {app app' : AppSettings}

/-- The timestamp of the first packet, and the ticks of the start time the
reports use: they share the start up to one tick. -/
theorem startTicks (c : MediaStreamSettings) (timeNowNs : Nat)
    (hStart : 40000000 ≤ sendTimeNs c timeNowNs) :
    ∃ first, first = ⌊sendTimeNs c timeNowNs * 9 / 100000⌋₊ ∧ 5 ≤ first ∧
      ticksOfNs ⌊sendTimeNs c timeNowNs⌋₊ ≤ first ∧
      first ≤ ticksOfNs ⌊sendTimeNs c timeNowNs⌋₊ + 1 ∧
      (calculateSendTimeNs c timeNowNs {}).2.rtpTimestamp = (first - 5) % 2 ^ 32 := by
  have hTicks : sendTimeNs c timeNowNs / NS_IN_SEC * c.mediaSettings.sampleRate =
      sendTimeNs c timeNowNs * 9 / 100000 := by
    norm_num [NS_IN_SEC, MediaSettings.sampleRate]
    ring
  have hFive : 5 ≤ sendTimeNs c timeNowNs * 9 / 100000 := by linarith
  have hFloorLe := Nat.floor_le (show 0 ≤ sendTimeNs c timeNowNs by linarith)
  have hLtFloor := Nat.lt_floor_add_one (sendTimeNs c timeNowNs)
  refine ⟨_, rfl, Nat.le_floor (by exact_mod_cast hFive), ?_, ?_, ?_⟩
  · rw [ticksOfNs, ← Nat.floor_div_eq_div (K := ℚ)]
    apply Nat.floor_mono
    push_cast
    linarith
  · rw [ticksOfNs, ← Nat.lt_succ_iff, Nat.floor_lt (by linarith)]
    have hSplit := Nat.div_add_mod (9 * ⌊sendTimeNs c timeNowNs⌋₊) 100000
    have hRest := Nat.mod_lt (9 * ⌊sendTimeNs c timeNowNs⌋₊) (by decide : 100000 > 0)
    -- the start is less than a nanosecond behind its whole nanoseconds
    have hUpper : 9 * (⌊sendTimeNs c timeNowNs⌋₊ + 1) ≤
        (9 * ⌊sendTimeNs c timeNowNs⌋₊ / 100000 + 1 + 1) * 100000 := by omega
    have hUpper' : (9 : ℚ) * (⌊sendTimeNs c timeNowNs⌋₊ + 1) ≤
        ((9 * ⌊sendTimeNs c timeNowNs⌋₊ / 100000 + 1 + 1 : Nat) : ℚ) * 100000 := by
      exact_mod_cast hUpper
    rw [div_lt_iff₀ (by norm_num)]
    refine lt_of_lt_of_le ?_ hUpper'
    linarith
  · show ⌊timeToRtpTimestamp (sendTimeNs c timeNowNs) c.mediaSettings.sampleRate⌋₊ % 2 ^ 32 = _
    rw [floor_timeToRtpTimestamp (by rw [hTicks]; exact hFive), hTicks, Nat.mod_mod]

end RtpVideoSendStream

/-! ## Agreement -/

open RtpVideoSendStream

/-- The counters of report `k` of a stream started at `start`. -/
def IsReport (start k : Nat) (r : ReportCounters) : Prop :=
  r.startSendTimeNs = start ∧ r.finishedFirstChunks = k

/-- A packet of field `k`, in some cut of the stream into chunks. -/
def IsPacketOf (c : MediaStreamSettings) (earliest k : Nat) (header : RtpHeader) : Prop :=
  ∃ chunks i, i / c.mediaSettings.packetsInFrameField = k ∧
    (prepareChunks c chunks (calculateSendTimeNs c earliest {}).2).1[i]? = some header

/-- What a receiver gets of a stream without losses: each field behind its
report. -/
def LossFree (c : MediaStreamSettings) (ssrc : UInt32) (ip : List UInt8) (earliest : Nat)
    (fields : List ReceivedField) : Prop :=
  ∀ k f, fields[k]? = some f →
    (∃ r, IsReport ⌊(calculateSendTimeNs c earliest {}).1⌋₊ k r ∧ f.size = reportSize ip ∧
      Carries f.report (committedReport c.mediaSettings ssrc.toNat ip r) (reportSize ip)) ∧
    ∃ header, IsPacketOf c earliest k header ∧ f.rtpTimestamp = header.timestamp

/-- The reports of a stream tell the time of its packets, and a receiver of the
whole stream counts every field. -/
structure TimesAgree (c : MediaStreamSettings) (ssrc : UInt32) (ip : List UInt8)
    (earliest : Nat) : Prop where
  timestamps : ∀ k header r, IsPacketOf c earliest k header →
    IsReport ⌊(calculateSendTimeNs c earliest {}).1⌋₊ k r →
      reportRtpTs c.mediaSettings r = header.timestamp
  tracked : ∀ fields, LossFree c ssrc ip earliest fields →
    AllReceived fields.length (receiveFields {} fields)

/-- The frame rates and start times at which reports and packets agree. -/
structure ClocksExact (c : MediaStreamSettings) (earliest : Nat) : Prop where
  denom_one : c.mediaSettings.frameRate.denom.toNat = 1
  ticks_whole :
    c.mediaSettings.frameRate.num.toNat * c.mediaSettings.videoScanType.fields ∣ 90000
  start_behind : 9 - Nat.gcd (90000 / (c.mediaSettings.frameRate.num.toNat *
    c.mediaSettings.videoScanType.fields)) 9 ≤ 9 * ⌊sendTimeNs c earliest⌋₊ % 100000
  start_whole : ⌊sendTimeNs c earliest * 9 / 100000⌋₊ = ticksOfNs ⌊sendTimeNs c earliest⌋₊

section Agreement

variable {app app' : AppSettings} {payloadSize : Nat}

/-- Every field has a packet. -/
theorem exists_isPacketOf (c : MediaStreamSettings) (earliest k : Nat)
    (hPackets : 0 < c.mediaSettings.packetsInFrameField) :
    ∃ header, IsPacketOf c earliest k header := by
  have hLength := length_prepareChunks_fields c (k + 1) (calculateSendTimeNs c earliest {}).2 rfl
  have hIn : k * c.mediaSettings.packetsInFrameField <
      (prepareChunks c (List.replicate (k + 1) c.mediaSettings.packetsInFrameField)
        (calculateSendTimeNs c earliest {}).2).1.length := by
    rw [hLength, Nat.succ_mul]
    omega
  exact ⟨_, _, _, Nat.mul_div_cancel _ hPackets, List.getElem?_eq_getElem hIn⟩

/-- The timestamp of a packet, from the ticks of the start. -/
theorem timestamp_of_isPacketOf {c : MediaStreamSettings} {earliest k : Nat} {header : RtpHeader}
    (hPackets : 0 < c.mediaSettings.packetsInFrameField) (h : IsPacketOf c earliest k header) :
    header.timestamp =
      ((calculateSendTimeNs c earliest {}).2.rtpTimestamp + k * ticks c) % 2 ^ 32 := by
  obtain ⟨chunks, i, rfl, hAt⟩ := h
  -- the state at the start of the stream
  have hSent : SentPackets c (calculateSendTimeNs c earliest {}).2.rtpTimestamp 0
      (calculateSendTimeNs c earliest {}).2 := by
    refine ⟨rfl, Nat.zero_le _, ?_⟩
    rw [fieldTimestamp, Nat.zero_div, Nat.zero_mul, Nat.add_zero]
    exact (Nat.mod_mod _ _).symm
  rw [timestamp_of_packet c chunks hPackets hSent i header hAt, fieldTimestamp, Nat.zero_add]

/-- A stream whose reports tell the time of its packets is tracked. -/
theorem tracked_of_timestamps {c : MediaStreamSettings} {ssrc : UInt32} {ip : List UInt8}
    {earliest : Nat}
    (h : ∀ k header r, IsPacketOf c earliest k header →
      IsReport ⌊(calculateSendTimeNs c earliest {}).1⌋₊ k r →
        reportRtpTs c.mediaSettings r = header.timestamp)
    {fields : List ReceivedField} (hFields : LossFree c ssrc ip earliest fields) :
    AllReceived fields.length (receiveFields {} fields) := by
  have hMatches : ∀ f ∈ fields, Matches f := by
    intro f hf old
    obtain ⟨k, hAt⟩ := List.getElem?_of_mem hf
    obtain ⟨⟨r, hReport, hSize, hCarries⟩, header, hPacket, hTs⟩ := hFields k f hAt
    -- the report is read back, with the timestamp it was sent with
    obtain ⟨info, hParsed, hContents⟩ := contentsOfInfo_fillFromRtcpSrPacket hCarries old
    refine ⟨info, by rw [hSize, hParsed], ?_⟩
    rw [hTs, ← h k header r hPacket hReport]
    exact congrArg SenderReportContents.rtpTs hContents
  -- a receiver that meets matching fields only counts all of them
  have hRun := receiveFields_of_match (n := 0) (t := {}) ⟨rfl, rfl, rfl⟩ hMatches
  rwa [Nat.zero_add] at hRun

/-- Agreement of the timestamps, as agreement of a clock and a counter. -/
theorem timestamps_iff_ticks (hInit : initializeCommonMediaSettings app = some app')
    (hPackets : 0 < app'.media.packetsInFrameField) {earliest first : Nat}
    (hStart : 40000000 ≤ sendTimeNs ⟨app'.media, payloadSize⟩ earliest) (hFive : 5 ≤ first)
    (hFirst : (calculateSendTimeNs ⟨app'.media, payloadSize⟩ earliest {}).2.rtpTimestamp =
      (first - 5) % 2 ^ 32) :
    (∀ k header r, IsPacketOf ⟨app'.media, payloadSize⟩ earliest k header →
        IsReport ⌊sendTimeNs ⟨app'.media, payloadSize⟩ earliest⌋₊ k r →
          reportRtpTs app'.media r = header.timestamp) ↔
      ∀ k, ticksOfNs (fieldTimeNs ⌊sendTimeNs ⟨app'.media, payloadSize⟩ earliest⌋₊
          (app'.media.frameRate.num.toNat * app'.media.frameRate.denom.toNat *
            app'.media.videoScanType.fields) k) % 2 ^ 32 =
        (first + k * (90000 * app'.media.frameRate.denom.toNat /
          (app'.media.frameRate.num.toNat * app'.media.videoScanType.fields) % 2 ^ 32)) %
            2 ^ 32 := by
  have hStartNs : 40000000 ≤ ⌊sendTimeNs ⟨app'.media, payloadSize⟩ earliest⌋₊ :=
    Nat.le_floor (by exact_mod_cast hStart)
  generalize ⌊sendTimeNs ⟨app'.media, payloadSize⟩ earliest⌋₊ = start at *
  -- both sides are five ticks early
  have hShift (k : Nat) (header : RtpHeader) (r : ReportCounters)
      (hPacket : IsPacketOf ⟨app'.media, payloadSize⟩ earliest k header)
      (hReport : IsReport start k r) :
      reportRtpTs app'.media r = header.timestamp ↔
        ticksOfNs (fieldTimeNs start (app'.media.frameRate.num.toNat *
          app'.media.frameRate.denom.toNat * app'.media.videoScanType.fields) k) % 2 ^ 32 =
        (first + k * (90000 * app'.media.frameRate.denom.toNat /
          (app'.media.frameRate.num.toNat * app'.media.videoScanType.fields) % 2 ^ 32)) %
            2 ^ 32 := by
    have hTime := reportTimestamp_eq hInit r
    rw [hReport.1, hReport.2] at hTime
    have hAtLeast : 40000000 ≤ reportTimestamp app'.media r := by
      rw [hTime]
      exact hStartNs.trans (Nat.le_add_right _ _)
    have hTicksFive : 5 ≤ ticksOfNs (reportTimestamp app'.media r) := by
      unfold ticksOfNs
      omega
    have hStep := ticks_eq ⟨app'.media, payloadSize⟩
    rw [reportRtpTs_eq _ _ (by omega), timestamp_of_isPacketOf hPackets hPacket, hFirst, ← hTime,
      ← hStep]
    generalize k * ticks _ = added
    omega
  constructor
  · intro h k
    -- every field has a packet to compare its report with
    obtain ⟨header, hPacket⟩ := exists_isPacketOf ⟨app'.media, payloadSize⟩ earliest k hPackets
    have hReport : IsReport start k { startSendTimeNs := start, finishedFirstChunks := k } :=
      ⟨rfl, rfl⟩
    exact (hShift k header _ hPacket hReport).mp (h k header _ hPacket hReport)
  · intro h k header r hPacket hReport
    exact (hShift k header r hPacket hReport).mpr (h k)

/-- **Sender Reports and media on one clock.** For an accepted frame rate, any
scan type and any start time: reports and packets of every field carry the same
timestamp, and a receiver of the whole stream counts every field, exactly when
`ClocksExact` holds. The send stream divides by its packets of a line and by its
rows, so the settings are meant to have one of each at least. -/
theorem times_agree_iff (hInit : initializeCommonMediaSettings app = some app')
    (hRate : videoFrameRateValidator app.media.frameRate = true)
    (hPackets : 0 < app'.media.packetsInFrameField) (ssrc : UInt32) (ip : List UInt8)
    (earliest : Nat) :
    TimesAgree ⟨app'.media, payloadSize⟩ ssrc ip earliest ↔
      ClocksExact ⟨app'.media, payloadSize⟩ earliest := by
  obtain ⟨hNum, hDenom, hFields, hInterval, hSecond⟩ := interval_bounds hInit hRate
  have hStart := sendTimeNs_ge ⟨app'.media, payloadSize⟩ earliest hInterval hSecond
  obtain ⟨first, hFirst, hFive, hLow, hHigh, hTs⟩ :=
    startTicks ⟨app'.media, payloadSize⟩ earliest hStart
  have hTicks := timestamps_iff_ticks hInit hPackets hStart hFive hTs
  have hClock := @fieldTime_ticks_iff _ _ _ _ first hNum hDenom app'.media.frameRate.denom.toNat_lt
    hFields ⟨hLow, hHigh⟩
  constructor
  · intro h
    obtain ⟨hOne, hDvd, hBehind, hWhole⟩ := hClock.mp (hTicks.mp h.timestamps)
    exact ⟨hOne, hDvd, hBehind, hFirst.symm.trans hWhole⟩
  · intro h
    have hTimestamps := hTicks.mpr (hClock.mpr
      ⟨h.denom_one, h.ticks_whole, h.start_behind, hFirst.trans h.start_whole⟩)
    exact ⟨hTimestamps, fun _ hLossFree => tracked_of_timestamps hTimestamps hLossFree⟩

end Agreement

/-- Full HD at 60 frames per second, started at the epoch. -/
theorem times_agree_iff_fullHd60 :
    ∃ app', initializeCommonMediaSettings (fullHd ⟨60, 1⟩ .Progressive) = some app' ∧
      TimesAgree ⟨app'.media, 1220⟩ 7 (asciiBytes "192.168.1.2") 0 := by
  refine ⟨_, rfl, (@times_agree_iff (fullHd ⟨60, 1⟩ .Progressive) _ 1220 rfl (by decide)
    (by decide) _ _ _).mpr ?_⟩
  exact
    { denom_one := by decide
      ticks_whole := by decide
      start_behind := by decide +kernel
      start_whole := by decide +kernel }

/-- At 30000/1001 frames per second the reports leave the packets behind. -/
theorem ntsc_times_disagree :
    ∃ app', initializeCommonMediaSettings (fullHd ⟨30000, 1001⟩ .Progressive) = some app' ∧
      ¬ TimesAgree ⟨app'.media, 1220⟩ 0 (asciiBytes "192.168.1.2") 0 := by
  have hInit : initializeCommonMediaSettings (fullHd ⟨30000, 1001⟩ .Progressive) =
      some (commonMediaSettings (fullHd ⟨30000, 1001⟩ .Progressive) 5 2) := rfl
  refine ⟨_, hInit, fun h => ?_⟩
  obtain ⟨hNum, hDenom, hFields, hInterval, hSecond⟩ := interval_bounds hInit (by decide)
  have hStart := sendTimeNs_ge
    ⟨(commonMediaSettings (fullHd ⟨30000, 1001⟩ .Progressive) 5 2).media, 1220⟩ 0 hInterval hSecond
  obtain ⟨first, -, hFive, hLow, hHigh, hTs⟩ := startTicks _ 0 hStart
  have hTicks := (timestamps_iff_ticks hInit (by decide) hStart hFive hTs).mp h.timestamps
  have hOne := ((fieldTime_ticks_iff hNum hDenom (UInt16.toNat_lt _) hFields ⟨hLow, hHigh⟩).mp
    hTicks).1
  exact absurd hOne (by decide)

end RivermaxDevKit
