import RivermaxDevKit.Ipmx.Report

/-!
# IPMX stream timeline tracker

`IPMXStreamTimelineTracker` (`ipmx_stream_timeline_tracker.cpp`): it matches
the Sender Reports of a stream with the starts of its media fields.

* `notifyDataFrame_of_match` — a field with the timestamp of the last report
  counts as received.
* `receiveFields_of_match` — so does every field of a run of matches.

The reports and the fields are taken in the order they reach the tracker. The
ratios in parts per million, only printed, are left out.
-/

namespace RivermaxDevKit

open ByteStore

/-! ## State -/

structure RtcpReportStats where
  reportsReceived : Nat := 0
  reportsCorrupted : Nat := 0
  lastReportRxTs : Nat := 0
  isLastReportValid : Bool := false

structure IpmxSenderReportState where
  lastReport : IpmxStreamInfo := {}
  stats : RtcpReportStats := {}

/-- A timing record of one media frame. -/
structure FrameTiming where
  txRtpTimestamp : Nat := 0
  txNtpTimestamp : Nat := 0
  rxTimestamp : Nat := 0
  clockDiff : Int := 0

structure ClockStats where
  framesReceived : Nat := 0
  framesMissingSendReport : Nat := 0
  framesBadRtpTime : Nat := 0
  clockDriftSinceStart : Int := 0
  clockDriftLastPeriod : Int := 0
  senderReportToDataMin : Int := 0
  senderReportToDataMax : Int := 0

structure IpmxDataClockState where
  firstFrame : FrameTiming := {}
  lastFrame : FrameTiming := {}
  prevStatsFrame : FrameTiming := {}
  stats : ClockStats := {}

structure IpmxStreamTimelineTracker where
  statsUpdateIntervalMs : Nat := 1000
  reportState : IpmxSenderReportState := {}
  clockState : IpmxDataClockState := {}
  newReportVersionAvailable : Bool := false
  newClockStatsAvailable : Bool := false

/-! ## Sender Reports -/

/-- `IPMXSenderReportState::update`. -/
def IpmxSenderReportState.update (st : IpmxSenderReportState) (data : Memory) (len rxTs : Nat) :
    IpmxSenderReportState :=
  let parsed := fillFromRtcpSrPacket data len st.lastReport
  let valid : Bool := parsed.1 = .success
  { lastReport := parsed.2
    stats :=
      { reportsReceived := st.stats.reportsReceived + 1
        lastReportRxTs := rxTs
        isLastReportValid := valid
        reportsCorrupted := st.stats.reportsCorrupted + if valid then 0 else 1 } }

def consumeRtcpPacket (t : IpmxStreamTimelineTracker) (data : Memory) (len rxTs : Nat) :
    IpmxStreamTimelineTracker :=
  let next := t.reportState.update data len rxTs
  let isFirstReport := next.stats.isLastReportValid && !t.reportState.stats.isLastReportValid
  let isMediaInfoChanged := next.stats.isLastReportValid &&
    next.lastReport.infoBlockVersion != t.reportState.lastReport.infoBlockVersion
  { t with
    reportState := next
    newReportVersionAvailable :=
      t.newReportVersionAvailable || isFirstReport || isMediaInfoChanged }

/-! ## Media fields -/

/-- `is_before`, on numbers of 32 bits. Two numbers that are `2 ^ 31` apart are
neither before nor after one another. -/
def isBefore (a b : Nat) : Bool :=
  ((a &&& 0x80000000 = b &&& 0x80000000) ∧ a < b) ∨
    ((a &&& 0x80000000 ≠ b &&& 0x80000000) ∧ b &&& 0x7fffffff < a &&& 0x7fffffff)

/-- The `int64_t` that a `uint64_t` difference is read as. -/
def int64Sub (a b : Nat) : Int := ((a : Int) - b).bmod (2 ^ 64)

/-- A frame whose report is there: the timing records and the statistics. -/
def IpmxDataClockState.received (st : IpmxDataClockState) (report : IpmxSenderReportState)
    (rtpTimestamp receiverTimestamp : Nat) (needUpdateStats : Bool) : IpmxDataClockState :=
  let isFirstUpdate := st.stats.framesReceived = 0
  let frame : FrameTiming :=
    { txNtpTimestamp := report.lastReport.ntpTs
      txRtpTimestamp := rtpTimestamp
      rxTimestamp := receiverTimestamp
      clockDiff := int64Sub receiverTimestamp report.lastReport.ntpTs }
  let firstFrame := if isFirstUpdate then frame else st.firstFrame
  let prevStatsFrame := if isFirstUpdate then frame else st.prevStatsFrame
  let reportToData := int64Sub receiverTimestamp report.stats.lastReportRxTs
  { firstFrame := firstFrame
    lastFrame := frame
    prevStatsFrame := if needUpdateStats then frame else prevStatsFrame
    stats :=
      { st.stats with
        framesReceived := st.stats.framesReceived + 1
        senderReportToDataMax :=
          if st.stats.senderReportToDataMax < reportToData ∨ isFirstUpdate then reportToData
          else st.stats.senderReportToDataMax
        senderReportToDataMin :=
          if reportToData < st.stats.senderReportToDataMin ∨ isFirstUpdate then reportToData
          else st.stats.senderReportToDataMin
        clockDriftLastPeriod :=
          if needUpdateStats then frame.clockDiff - prevStatsFrame.clockDiff
          else st.stats.clockDriftLastPeriod
        clockDriftSinceStart :=
          if needUpdateStats then frame.clockDiff - firstFrame.clockDiff
          else st.stats.clockDriftSinceStart } }

/-- `IPMXDataClockState::update`. -/
def IpmxDataClockState.update (st : IpmxDataClockState) (report : IpmxSenderReportState)
    (rtpTimestamp receiverTimestamp : Nat) (needUpdateStats : Bool) : IpmxDataClockState :=
  if !report.stats.isLastReportValid || isBefore report.lastReport.rtpTs rtpTimestamp then
    { st with
      stats := { st.stats with framesMissingSendReport := st.stats.framesMissingSendReport + 1 } }
  else if isBefore rtpTimestamp report.lastReport.rtpTs then
    { st with stats := { st.stats with framesBadRtpTime := st.stats.framesBadRtpTime + 1 } }
  else st.received report rtpTimestamp receiverTimestamp needUpdateStats

/-- `need_update_stats` of `notify_data_frame`. -/
def needUpdateStats (t : IpmxStreamTimelineTracker) : Bool :=
  int64Sub t.clockState.lastFrame.rxTimestamp t.clockState.prevStatsFrame.rxTimestamp ≥
    ((t.statsUpdateIntervalMs + (2 ^ 32 - 1)) % 2 ^ 32 : Nat) * 1000000

def notifyDataFrame (t : IpmxStreamTimelineTracker) (rtpTimestamp receiverTimestamp : Nat) :
    IpmxStreamTimelineTracker :=
  { t with
    clockState :=
      t.clockState.update t.reportState rtpTimestamp receiverTimestamp (needUpdateStats t)
    newClockStatsAvailable := t.newClockStatsAvailable || needUpdateStats t }

/-! ## Runs -/

/-- What reaches the tracker of one field: a report of `size` bytes, then the
start of the field. -/
structure ReceivedField where
  report : Memory
  size : Nat
  reportRxTs : Nat
  rtpTimestamp : Nat
  receiverTimestamp : Nat

def receiveField (t : IpmxStreamTimelineTracker) (f : ReceivedField) : IpmxStreamTimelineTracker :=
  notifyDataFrame (consumeRtcpPacket t f.report f.size f.reportRxTs)
    f.rtpTimestamp f.receiverTimestamp

def receiveFields (t : IpmxStreamTimelineTracker) (fields : List ReceivedField) :
    IpmxStreamTimelineTracker :=
  fields.foldl receiveField t

/-- Every field so far was counted as received. -/
structure AllReceived (n : Nat) (t : IpmxStreamTimelineTracker) : Prop where
  received : t.clockState.stats.framesReceived = n
  none_missing : t.clockState.stats.framesMissingSendReport = 0
  none_bad : t.clockState.stats.framesBadRtpTime = 0

/-- The report of a field is parsed, and carries the timestamp of the field. -/
def Matches (f : ReceivedField) : Prop :=
  ∀ old, ∃ info, fillFromRtcpSrPacket f.report f.size old = (.success, info) ∧
    info.rtpTs = f.rtpTimestamp

theorem isBefore_self (a : Nat) : isBefore a a = false := by
  simp [isBefore]

/-- A field with the timestamp of the last report counts as received. -/
theorem notifyDataFrame_of_match {n : Nat} {t : IpmxStreamTimelineTracker}
    {rtpTimestamp : Nat} (receiverTimestamp : Nat) (h : AllReceived n t)
    (hValid : t.reportState.stats.isLastReportValid = true)
    (hMatch : t.reportState.lastReport.rtpTs = rtpTimestamp) :
    AllReceived (n + 1) (notifyDataFrame t rtpTimestamp receiverTimestamp) := by
  -- neither side is before the other
  have hUpdate : t.clockState.update t.reportState rtpTimestamp receiverTimestamp
      (needUpdateStats t) =
        t.clockState.received t.reportState rtpTimestamp receiverTimestamp (needUpdateStats t) := by
    unfold IpmxDataClockState.update
    simp [hValid, hMatch, isBefore_self]
  unfold notifyDataFrame
  rw [hUpdate]
  exact ⟨congrArg (· + 1) h.received, h.none_missing, h.none_bad⟩

theorem receiveField_of_match {n : Nat} {t : IpmxStreamTimelineTracker} {f : ReceivedField}
    (h : AllReceived n t) (hMatch : Matches f) : AllReceived (n + 1) (receiveField t f) := by
  obtain ⟨info, hParsed, hTs⟩ := hMatch t.reportState.lastReport
  have hReport : (consumeRtcpPacket t f.report f.size f.reportRxTs).reportState.lastReport = info :=
    congrArg Prod.snd hParsed
  have hValid :
      (consumeRtcpPacket t f.report f.size f.reportRxTs).reportState.stats.isLastReportValid =
        true := by
    show decide ((fillFromRtcpSrPacket f.report f.size t.reportState.lastReport).1 = .success) = _
    rw [hParsed]
    rfl
  refine notifyDataFrame_of_match f.receiverTimestamp ?_ hValid (by rw [hReport, hTs])
  exact ⟨h.received, h.none_missing, h.none_bad⟩

/-- A run of matches counts every field. -/
theorem receiveFields_of_match {fields : List ReceivedField} :
    ∀ {n : Nat} {t : IpmxStreamTimelineTracker}, AllReceived n t → (∀ f ∈ fields, Matches f) →
      AllReceived (n + fields.length) (receiveFields t fields) := by
  induction fields with
  | nil =>
    intro n t h _
    exact h
  | cons f fields ih =>
    intro n t h hMatches
    have hFirst : AllReceived (n + 1) (receiveField t f) :=
      receiveField_of_match h (hMatches f List.mem_cons_self)
    have hRest := ih hFirst fun g hg => hMatches g (List.mem_cons_of_mem _ hg)
    rw [List.length_cons, Nat.add_comm fields.length, ← Nat.add_assoc]
    exact hRest

end RivermaxDevKit
