import Mathlib.Data.Nat.Bitwise
import RivermaxDevKit.Ipmx.StreamTimelineTracker
import RivermaxDevKit.Lib.SerialNumber

/-!
# Classes of frames

How `IPMXStreamTimelineTracker` counts the frames of a stream, over every run
of its two calls. A frame belongs to the last Sender Report, to a report that
is still missing, or to none.

* `isBefore_iff_dist` — `is_before` is the forward distance of serial numbers,
  up to half a turn and without it.
* `counters_runTracker` — the report counters of every run, and the report a
  frame is compared with.
* `trackerFaithful_iff` — the frames are counted by their class, unless one is
  exactly half a turn away from its report.
-/

namespace RivermaxDevKit

open SerialNumber ByteStore

/-! ## Calls -/

/-- A call of the tracker. -/
inductive TrackerCall
  | consumeRtcpPacket (data : Memory) (len rxTs : Nat)
  | notifyDataFrame (rtpTimestamp : UInt32) (receiverTimestamp : Nat)

def TrackerCall.apply (t : IpmxStreamTimelineTracker) : TrackerCall → IpmxStreamTimelineTracker
  | .consumeRtcpPacket data len rxTs => RivermaxDevKit.consumeRtcpPacket t data len rxTs
  | .notifyDataFrame rtpTimestamp receiverTimestamp =>
    RivermaxDevKit.notifyDataFrame t rtpTimestamp.toNat receiverTimestamp

/-- A tracker with the given interval, after the calls in the order they are
made. -/
def runTracker (intervalMs : UInt32) (calls : List TrackerCall) : IpmxStreamTimelineTracker :=
  calls.foldl TrackerCall.apply { statsUpdateIntervalMs := intervalMs.toNat }

theorem runTracker_append_singleton (intervalMs : UInt32) (calls : List TrackerCall)
    (call : TrackerCall) :
    runTracker intervalMs (calls ++ [call]) = call.apply (runTracker intervalMs calls) := by
  simp [runTracker]

/-! ## What the counters are for -/

/-- The RTP timestamp of a packet that is a report, `none` if it is rejected. -/
def reportedRtpTs (data : Memory) (len : Nat) : Option Nat :=
  match fillFromRtcpSrPacket data len {} with
  | (.success, info) => some info.rtpTs
  | (_, _) => none

/-- The RTP timestamp of the last report, if that was accepted. -/
def lastReport : List TrackerCall → Option Nat :=
  List.foldl
    (fun last call =>
      -- a report that is rejected takes the one before with it
      match call with
      | .consumeRtcpPacket data len _ => reportedRtpTs data len
      | .notifyDataFrame _ _ => last)
    none

def TrackerCall.isReport : TrackerCall → Bool
  | .consumeRtcpPacket _ _ _ => true
  | .notifyDataFrame _ _ => false

def TrackerCall.isRejected : TrackerCall → Bool
  | .consumeRtcpPacket data len _ => (reportedRtpTs data len).isNone
  | .notifyDataFrame _ _ => false

inductive FrameClass
  | received
  | missingSendReport
  | badRtpTime
  deriving DecidableEq

/-- The class of a frame: its report is the last one, it is still to come, or
it is behind. -/
def frameClass (report : Option Nat) (rtpTimestamp : Nat) : FrameClass :=
  match report with
  | none => .missingSendReport
  | some reported =>
    if reported = rtpTimestamp then .received
    else if 1 ≤ dist (2 ^ 32) reported rtpTimestamp ∧
        dist (2 ^ 32) reported rtpTimestamp ≤ 2 ^ 31 - 1 then .missingSendReport
    -- the timestamps that are not ahead are behind, half a turn included
    else .badRtpTime

/-- The three frame counters. -/
structure FrameCounts where
  received : Nat
  missingSendReport : Nat
  badRtpTime : Nat
  deriving DecidableEq

def FrameCounts.count (counts : FrameCounts) : FrameClass → FrameCounts
  | .received => { counts with received := counts.received + 1 }
  | .missingSendReport => { counts with missingSendReport := counts.missingSendReport + 1 }
  | .badRtpTime => { counts with badRtpTime := counts.badRtpTime + 1 }

def IpmxStreamTimelineTracker.frameCounts (t : IpmxStreamTimelineTracker) : FrameCounts :=
  ⟨t.clockState.stats.framesReceived, t.clockState.stats.framesMissingSendReport,
    t.clockState.stats.framesBadRtpTime⟩

/-- What is promised of a run, after each of its calls. -/
structure TrackerFaithful (intervalMs : UInt32) (calls : List TrackerCall) : Prop where
  reports_received : ∀ before, before <+: calls →
    (runTracker intervalMs before).reportState.stats.reportsReceived =
      before.countP TrackerCall.isReport
  reports_corrupted : ∀ before, before <+: calls →
    (runTracker intervalMs before).reportState.stats.reportsCorrupted =
      before.countP TrackerCall.isRejected
  frame_counted : ∀ before rtpTimestamp receiverTimestamp,
    before ++ [.notifyDataFrame rtpTimestamp receiverTimestamp] <+: calls →
      (runTracker intervalMs
        (before ++ [.notifyDataFrame rtpTimestamp receiverTimestamp])).frameCounts =
          (runTracker intervalMs before).frameCounts.count
            (frameClass (lastReport before) rtpTimestamp.toNat)
  report_uncounted : ∀ before data len rxTs,
    before ++ [.consumeRtcpPacket data len rxTs] <+: calls →
      (runTracker intervalMs (before ++ [.consumeRtcpPacket data len rxTs])).frameCounts =
        (runTracker intervalMs before).frameCounts

theorem FrameCounts.count_inj {counts : FrameCounts} {k l : FrameClass}
    (h : counts.count k = counts.count l) : k = l := by
  cases k <;> cases l <;> simp_all [FrameCounts.count]

/-! ## The wrap-aware comparison -/

theorem topBit_eq {a : Nat} (hA : a < 2 ^ 32) : a &&& 0x80000000 = a / 2 ^ 31 * 2 ^ 31 := by
  -- the quotient is the top bit
  have hBit : (a.testBit 31).toNat = a / 2 ^ 31 := by
    rw [Nat.toNat_testBit, Nat.mod_eq_of_lt (by omega)]
  rw [show (0x80000000 : Nat) = 2 ^ 31 by rfl, Nat.and_two_pow, hBit]

theorem dist_eq_ite {a b : Nat} (hA : a < 2 ^ 32) (hB : b < 2 ^ 32) :
    dist (2 ^ 32) a b = if a ≤ b then b - a else b + 2 ^ 32 - a := by
  rw [SerialNumber.dist, Nat.mod_eq_of_lt hA]
  split <;> omega

/-- `is_before` is the forward distance, up to half a turn. -/
theorem isBefore_iff_dist {a b : Nat} (hA : a < 2 ^ 32) (hB : b < 2 ^ 32) :
    isBefore a b = true ↔ 1 ≤ dist (2 ^ 32) a b ∧ dist (2 ^ 32) a b < 2 ^ 31 := by
  -- the low bits and the top bit are what `is_before` compares
  have hLow (n : Nat) : n &&& 0x7fffffff = n % 2 ^ 31 := Nat.and_two_pow_sub_one_eq_mod n 31
  rw [dist_eq_ite hA hB]
  simp only [isBefore, topBit_eq hA, topBit_eq hB, hLow, decide_eq_true_eq]
  split <;> omega

/-- The branch `IPMXDataClockState::update` takes. -/
def updateClass (valid : Bool) (reported rtpTimestamp : Nat) : FrameClass :=
  if !valid || isBefore reported rtpTimestamp then .missingSendReport
  else if isBefore rtpTimestamp reported then .badRtpTime
  else .received

theorem frameCounts_notifyDataFrame (t : IpmxStreamTimelineTracker)
    (rtpTimestamp receiverTimestamp : Nat) :
    (notifyDataFrame t rtpTimestamp receiverTimestamp).frameCounts =
      t.frameCounts.count
        (updateClass t.reportState.stats.isLastReportValid t.reportState.lastReport.rtpTs
          rtpTimestamp) := by
  unfold notifyDataFrame IpmxDataClockState.update updateClass
  dsimp only [IpmxStreamTimelineTracker.frameCounts]
  -- no valid report, or a frame ahead of it
  split
  · rfl
  · split <;> rfl

/-- With a valid report the branches are the classes, save half a turn away. -/
theorem updateClass_eq_iff {reported rtpTimestamp : Nat} (hReported : reported < 2 ^ 32)
    (hFrame : rtpTimestamp < 2 ^ 32) :
    updateClass true reported rtpTimestamp = frameClass (some reported) rtpTimestamp ↔
      dist (2 ^ 32) reported rtpTimestamp ≠ 2 ^ 31 := by
  have hAhead := isBefore_iff_dist hReported hFrame
  have hBehind := isBefore_iff_dist hFrame hReported
  by_cases hEq : reported = rtpTimestamp
  -- a frame of the report itself
  · subst hEq
    rw [SerialNumber.dist_self (by decide)] at hAhead ⊢
    have hNot : isBefore reported reported = false := by simpa using hAhead
    simp [updateClass, frameClass, hNot]
  have hPos := dist_pos_of_ne (by decide) hReported hFrame hEq
  have hTurn := dist_lt (show 0 < 2 ^ 32 by decide) reported rtpTimestamp
  rw [dist_back (by decide) hPos] at hBehind
  simp only [updateClass, frameClass, hAhead, hBehind, if_neg hEq, Bool.not_true, Bool.false_or]
  -- ahead, behind, or neither: half a turn either way
  rcases Nat.lt_trichotomy (dist (2 ^ 32) reported rtpTimestamp) (2 ^ 31) with hLt | hHalf | hGt
  -- ahead of the report
  · rw [if_pos ⟨hPos, hLt⟩, if_pos ⟨hPos, Nat.le_sub_one_of_lt hLt⟩]
    exact iff_of_true rfl hLt.ne
  -- half a turn away `is_before` holds neither way, and the code takes the frame for received
  · rw [hHalf]
    simp
  -- behind the report
  · rw [if_neg (by omega), if_pos (by omega), if_neg (by omega)]
    exact iff_of_true rfl hGt.ne'

/-! ## The report a frame is compared with -/

/-- The parser decides by the packet alone. -/
theorem fillFromRtcpSrPacket_rtpTs (data : Memory) (len : Nat) (info : IpmxStreamInfo) :
    (reportedRtpTs data len = none ∧ (fillFromRtcpSrPacket data len info).1 ≠ .success) ∨
      (reportedRtpTs data len = some (ntoh data SR_RTP_TS 4) ∧
        (fillFromRtcpSrPacket data len info).1 = .success ∧
        (fillFromRtcpSrPacket data len info).2.rtpTs = ntoh data SR_RTP_TS 4) := by
  unfold reportedRtpTs fillFromRtcpSrPacket
  dsimp only
  split_ifs
  -- longer than a report with its block can be
  · exact .inl ⟨rfl, nofun⟩
  -- with a media info block, and without one
  · exact .inr ⟨rfl, rfl, rfl⟩
  · exact .inr ⟨rfl, rfl, rfl⟩

/-- What the state of the tracker says of the calls so far. -/
structure Counters (calls : List TrackerCall) (t : IpmxStreamTimelineTracker) : Prop where
  reports : t.reportState.stats.reportsReceived = calls.countP TrackerCall.isReport
  corrupted : t.reportState.stats.reportsCorrupted = calls.countP TrackerCall.isRejected
  valid : t.reportState.stats.isLastReportValid = (lastReport calls).isSome
  rtp_ts : ∀ reported, lastReport calls = some reported →
    t.reportState.lastReport.rtpTs = reported ∧ reported < 2 ^ 32

theorem counters_consumeRtcpPacket {calls : List TrackerCall} {t : IpmxStreamTimelineTracker}
    (h : Counters calls t) (data : Memory) (len rxTs : Nat) :
    Counters (calls ++ [.consumeRtcpPacket data len rxTs])
      (consumeRtcpPacket t data len rxTs) := by
  -- a report forgets the one before, whether it is accepted or not
  have hLast : lastReport (calls ++ [TrackerCall.consumeRtcpPacket data len rxTs]) =
      reportedRtpTs data len := by
    simp [lastReport]
  have hReports : (consumeRtcpPacket t data len rxTs).reportState.stats.reportsReceived =
      (calls ++ [TrackerCall.consumeRtcpPacket data len rxTs]).countP TrackerCall.isReport := by
    rw [List.countP_append, ← h.reports]
    rfl
  have hState : (consumeRtcpPacket t data len rxTs).reportState =
      t.reportState.update data len rxTs := rfl
  rcases fillFromRtcpSrPacket_rtpTs data len t.reportState.lastReport with
    ⟨hNone, hStatus⟩ | ⟨hSome, hStatus, hTs⟩
  · -- a rejected packet
    refine ⟨hReports, ?_, ?_, ?_⟩
    · rw [hState, List.countP_append, ← h.corrupted]
      -- the counter of corrupted reports goes up with the rejected call
      simp [IpmxSenderReportState.update, hStatus, TrackerCall.isRejected, hNone]
    · rw [hState, hLast, hNone]
      simp [IpmxSenderReportState.update, hStatus]
    · -- no report is left to compare with
      intro reported hReported
      rw [hLast, hNone] at hReported
      simp at hReported
  · -- an accepted one: its timestamp is what frames are compared with
    refine ⟨hReports, ?_, ?_, ?_⟩
    · rw [hState, List.countP_append, ← h.corrupted]
      simp [IpmxSenderReportState.update, hStatus, TrackerCall.isRejected, hSome]
    · rw [hState, hLast, hSome]
      simp [IpmxSenderReportState.update, hStatus]
    · intro reported hReported
      rw [hLast, hSome] at hReported
      obtain rfl : ntoh data SR_RTP_TS 4 = reported := Option.some.inj hReported
      -- four bytes hold a number of 32 bits
      exact ⟨hTs, ntoh_lt data SR_RTP_TS 4⟩

theorem counters_notifyDataFrame {calls : List TrackerCall} {t : IpmxStreamTimelineTracker}
    (h : Counters calls t) (rtpTimestamp : UInt32) (receiverTimestamp : Nat) :
    Counters (calls ++ [.notifyDataFrame rtpTimestamp receiverTimestamp])
      (notifyDataFrame t rtpTimestamp.toNat receiverTimestamp) := by
  -- a frame leaves the report state alone
  have hLast : lastReport (calls ++ [.notifyDataFrame rtpTimestamp receiverTimestamp]) =
      lastReport calls := by
    simp [lastReport]
  refine ⟨?_, ?_, ?_, ?_⟩
  · simpa [notifyDataFrame, TrackerCall.isReport] using h.reports
  · simpa [notifyDataFrame, TrackerCall.isRejected] using h.corrupted
  · rw [hLast]
    exact h.valid
  · rw [hLast]
    exact h.rtp_ts

/-- The report counters of every run. -/
theorem counters_runTracker (intervalMs : UInt32) (calls : List TrackerCall) :
    Counters calls (runTracker intervalMs calls) := by
  induction calls using List.reverseRecOn with
  | nil => exact ⟨rfl, rfl, rfl, nofun⟩
  | append_singleton calls call ih =>
    rw [runTracker_append_singleton]
    cases call with
    | consumeRtcpPacket data len rxTs => exact counters_consumeRtcpPacket ih data len rxTs
    | notifyDataFrame rtpTimestamp receiverTimestamp =>
      exact counters_notifyDataFrame ih rtpTimestamp receiverTimestamp

/-! ## Classes over a run -/

/-- One frame is counted by its class exactly if it is not half a turn away from
its report. -/
theorem frameCounts_eq_iff (intervalMs : UInt32) (before : List TrackerCall)
    (rtpTimestamp : UInt32) (receiverTimestamp : Nat) :
    (runTracker intervalMs
        (before ++ [.notifyDataFrame rtpTimestamp receiverTimestamp])).frameCounts =
      (runTracker intervalMs before).frameCounts.count
        (frameClass (lastReport before) rtpTimestamp.toNat) ↔
      ∀ reported, lastReport before = some reported →
        dist (2 ^ 32) reported rtpTimestamp.toNat ≠ 2 ^ 31 := by
  have hTracks := counters_runTracker intervalMs before
  rw [runTracker_append_singleton, TrackerCall.apply, frameCounts_notifyDataFrame, hTracks.valid]
  cases hLast : lastReport before with
  | none =>
    -- without a report every frame waits for one
    simp [updateClass, frameClass]
  | some reported =>
    obtain ⟨hTs, hReported⟩ := hTracks.rtp_ts reported hLast
    rw [hTs]
    have hClass := updateClass_eq_iff hReported rtpTimestamp.toNat_lt
    constructor
    · rintro hCount other ⟨⟩
      -- the counters tell the classes apart
      exact hClass.mp (FrameCounts.count_inj hCount)
    · intro hApart
      rw [Option.isSome_some, hClass.mpr (hApart reported rfl)]

/-- **Classes of a run.** The tracker keeps its promise for a run of calls
exactly if no frame of the run is half a turn away from a report that was the
last before it, and accepted. -/
theorem trackerFaithful_iff (intervalMs : UInt32) (calls : List TrackerCall) :
    TrackerFaithful intervalMs calls ↔
      ∀ before rtpTimestamp receiverTimestamp,
        before ++ [.notifyDataFrame rtpTimestamp receiverTimestamp] <+: calls →
          ∀ reported, lastReport before = some reported →
            dist (2 ^ 32) reported rtpTimestamp.toNat ≠ 2 ^ 31 := by
  constructor
  · intro h before rtpTimestamp receiverTimestamp hPrefix
    exact (frameCounts_eq_iff intervalMs before rtpTimestamp receiverTimestamp).mp
      (h.frame_counted before rtpTimestamp receiverTimestamp hPrefix)
  · intro h
    refine ⟨fun before _ => (counters_runTracker intervalMs before).reports,
      fun before _ => (counters_runTracker intervalMs before).corrupted, ?_, ?_⟩
    · intro before rtpTimestamp receiverTimestamp hPrefix
      exact (frameCounts_eq_iff intervalMs before rtpTimestamp receiverTimestamp).mpr
        (h before rtpTimestamp receiverTimestamp hPrefix)
    · intro before data len rxTs _
      rw [runTracker_append_singleton]
      rfl

/-- A frame half a turn after its report counts as received. -/
theorem half_turn_counts_as_received :
    let calls := [.consumeRtcpPacket (fun _ => 0) 232 0, .notifyDataFrame 0x80000000 0]
    ¬TrackerFaithful 1000 calls := by
  intro calls h
  have hCount := congrArg FrameCounts.received
    (h.frame_counted [.consumeRtcpPacket (fun _ => 0) 232 0] 0x80000000 0 List.prefix_rfl)
  exact absurd hCount (by decide +kernel)

end RivermaxDevKit
