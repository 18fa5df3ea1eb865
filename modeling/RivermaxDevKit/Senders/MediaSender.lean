import Mathlib.Algebra.Order.Archimedean.Basic
import RivermaxDevKit.Rtp.SendTime

/-!
# Media sender

The loop of `MediaSenderIONode::operator()` (`media_sender_io_node.cpp`) for one
of its streams: the streams share the settings and start together.

* `withinOneTick_iff` — the arithmetic: whole ticks keep up with a schedule that
  truncates nanoseconds exactly when a field is a whole number of ticks.
* `no_drift_iff` — when packets and schedule stay together.
-/

namespace RivermaxDevKit

/-! ## A tick counter and a schedule -/

/-- Timestamps at most one tick apart, modulo `2 ^ 32`. -/
def WithinOneTick (a b : Nat) : Prop :=
  (a + 1) % 2 ^ 32 = b % 2 ^ 32 ∨ a % 2 ^ 32 = b % 2 ^ 32 ∨ a % 2 ^ 32 = (b + 1) % 2 ^ 32

section Drift

variable {start : ℚ} {n d : Nat}

/-- The whole nanoseconds of field `k`, `n` fields in `d` seconds. -/
def scheduledNs (start : ℚ) (n d k : Nat) : Nat :=
  ⌊start + (1000000000 * (d * k) : Nat) / (n : ℚ)⌋₊

/-- The schedule in integers: truncation costs less than a nanosecond. -/
theorem scheduledNs_bounds (hn : 0 < n) (hStart : 0 ≤ start) (k : Nat) :
    n * scheduledNs start n d k < n * (⌊start⌋₊ + 1) + 1000000000 * (d * k) ∧
      n * ⌊start⌋₊ + 1000000000 * (d * k) < n * (scheduledNs start n d k + 1) := by
  have hn' : (0 : ℚ) < n := by exact_mod_cast hn
  have hTime : (0 : ℚ) ≤ start + (1000000000 * (d * k) : Nat) / (n : ℚ) := by positivity
  have hLow := Nat.floor_le hTime
  have hHigh := Nat.lt_floor_add_one (start + (1000000000 * (d * k) : Nat) / (n : ℚ))
  have hStartLow := Nat.floor_le hStart
  have hStartHigh := Nat.lt_floor_add_one start
  -- times n, the schedule is without a fraction
  have hScaled : (n : ℚ) * (start + (1000000000 * (d * k) : Nat) / (n : ℚ)) =
      n * start + (1000000000 * (d * k) : Nat) := by
    field_simp
  have hLow' := mul_le_mul_of_nonneg_left hLow hn'.le
  have hHigh' := mul_lt_mul_of_pos_left hHigh hn'
  rw [hScaled] at hLow' hHigh'
  constructor
  · have hUpper : ((n * scheduledNs start n d k : Nat) : ℚ) <
        ((n * (⌊start⌋₊ + 1) + 1000000000 * (d * k) : Nat) : ℚ) := by
      rw [Nat.cast_mul, Nat.cast_add, Nat.cast_mul, Nat.cast_add, Nat.cast_one]
      have := mul_lt_mul_of_pos_left hStartHigh hn'
      exact lt_of_le_of_lt hLow' (by linarith)
    exact_mod_cast hUpper
  · have hLower : ((n * ⌊start⌋₊ + 1000000000 * (d * k) : Nat) : ℚ) <
        ((n * (scheduledNs start n d k + 1) : Nat) : ℚ) := by
      rw [Nat.cast_add, Nat.cast_mul, Nat.cast_mul n, Nat.cast_add, Nat.cast_one]
      have := mul_le_mul_of_nonneg_left hStartLow hn'.le
      exact lt_of_le_of_lt (by linarith) hHigh'
    exact_mod_cast hLower

/-- The ticks of field `k`, when a field is `q` ticks and `k` fields lose `lost`
ticks of them. -/
theorem ticks_scheduledNs_bounds (hn : 0 < n) (hStart : 0 ≤ start) {k low high : Nat}
    (hLow : n * low ≤ 90000 * d * k) (hHigh : 90000 * d * k ≤ n * high) :
    ticksOfNs ⌊start⌋₊ + low ≤ ticksOfNs (scheduledNs start n d k) + 1 ∧
      ticksOfNs (scheduledNs start n d k) ≤ ticksOfNs ⌊start⌋₊ + high + 1 := by
  obtain ⟨hUpper, hLower⟩ := @scheduledNs_bounds start n d hn hStart k
  generalize scheduledNs start n d k = t at *
  generalize ⌊start⌋₊ = s at *
  -- a tick is 100000 / 9 nanoseconds, so both sides are taken nine times
  have hUpper' : 9 * t < 9 * (s + 1) + 100000 * high := by
    refine Nat.lt_of_mul_lt_mul_left (a := n) ?_
    calc n * (9 * t) = 9 * (n * t) := by ring
      _ < 9 * (n * (s + 1) + 1000000000 * (d * k)) := by omega
      _ = n * (9 * (s + 1)) + 100000 * (90000 * d * k) := by ring
      _ ≤ n * (9 * (s + 1)) + 100000 * (n * high) := by omega
      _ = n * (9 * (s + 1) + 100000 * high) := by ring
  have hLower' : 9 * s + 100000 * low < 9 * (t + 1) := by
    refine Nat.lt_of_mul_lt_mul_left (a := n) ?_
    calc n * (9 * s + 100000 * low) = n * (9 * s) + 100000 * (n * low) := by ring
      _ ≤ n * (9 * s) + 100000 * (90000 * d * k) := by omega
      _ = 9 * (n * s + 1000000000 * (d * k)) := by ring
      _ < 9 * (n * (t + 1)) := by omega
      _ = n * (9 * (t + 1)) := by ring
  unfold ticksOfNs
  omega

/-- **Counter and schedule.** A counter of whole ticks stays within one tick of
the schedule for ever exactly when a field is a whole number of ticks. -/
theorem withinOneTick_iff (hn : 0 < n) (hStart : 0 ≤ start) :
    (∀ k, WithinOneTick (ticksOfNs ⌊start⌋₊ + k * (90000 * d / n))
        (ticksOfNs (scheduledNs start n d k))) ↔ n ∣ 90000 * d := by
  have hSplit := Nat.div_add_mod (90000 * d) n
  constructor
  · intro hWithin
    by_contra hRest
    have hLost : 0 < 90000 * d % n := Nat.pos_of_ne_zero fun h => hRest (Nat.dvd_of_mod_eq_zero h)
    have hLostLt := Nat.mod_lt (90000 * d) hn
    -- enough fields to lose four ticks, and no five
    obtain ⟨k, hFour, hFive⟩ : ∃ k, 4 * n ≤ k * (90000 * d % n) ∧ k * (90000 * d % n) ≤ 5 * n := by
      refine ⟨4 * n / (90000 * d % n) + 1, ?_, ?_⟩
      · rw [Nat.add_mul, Nat.one_mul]
        have := Nat.div_add_mod' (4 * n) (90000 * d % n)
        have := Nat.mod_lt (4 * n) hLost
        omega
      · rw [Nat.add_mul, Nat.one_mul]
        have := Nat.div_mul_le_self (4 * n) (90000 * d % n)
        omega
    have hTicks : 90000 * d * k = n * (k * (90000 * d / n)) + k * (90000 * d % n) := by
      calc 90000 * d * k = (n * (90000 * d / n) + 90000 * d % n) * k := by rw [hSplit]
        _ = _ := by ring
    obtain ⟨hLow, hHigh⟩ := @ticks_scheduledNs_bounds start n d hn hStart k
      (k * (90000 * d / n) + 4) (k * (90000 * d / n) + 5) (by rw [hTicks, Nat.mul_add]; omega)
      (by rw [hTicks, Nat.mul_add]; omega)
    -- four ticks behind, a counter is not within one
    have hAt := hWithin k
    unfold WithinOneTick at hAt
    omega
  · intro hDvd k
    have hTicks : 90000 * d * k = n * (k * (90000 * d / n)) := by
      rw [Nat.mod_eq_zero_of_dvd hDvd, Nat.add_zero] at hSplit
      calc 90000 * d * k = n * (90000 * d / n) * k := by rw [hSplit]
        _ = _ := by ring
    obtain ⟨hLow, hHigh⟩ := @ticks_scheduledNs_bounds start n d hn hStart k _ _ hTicks.ge hTicks.le
    unfold WithinOneTick
    omega

end Drift
/-! ## The sending loop -/

/-- The members of `MediaSenderIONode` its loop reads. -/
structure MediaSenderIONode where
  mediaSettings : MediaSettings
  numOfPacketsInChunk : Nat
  /-- `stream_pack.frame_provider` is set. -/
  frameProvider : Bool

/-- A chunk as it is committed. -/
structure SentChunk where
  headers : List RtpHeader
  commitTimestampNs : Nat

namespace MediaSenderIONode

open RtpVideoBufferWriter

/-- The node of initialized settings. -/
def ofSettings (s : AppSettings) (frameProvider : Bool) : MediaSenderIONode :=
  ⟨s.media, s.numOfPacketsInChunk, frameProvider⟩

def SEND_IMMEDIATELY_AFTER_PENDING_CHUNKS_TIMESTAMP : Nat := 0

/-- `get_commit_timestamp_ns`. -/
def getCommitTimestampNs (firstChunkInFrame : Bool) (sendTimeNs : ℚ) (currentTimeNs : Nat) :
    Nat :=
  if firstChunkInFrame ∧ (currentTimeNs : ℚ) < sendTimeNs then ⌊sendTimeNs⌋₊
  else SEND_IMMEDIATELY_AFTER_PENDING_CHUNKS_TIMESTAMP

variable (node : MediaSenderIONode)

/-- `get_send_time_ns`: the counter counts the fields sent, one for each pass. -/
def getSendTimeNs (startSendTimeNs : ℚ) (sentMemBlockCounter : Nat) : ℚ :=
  startSendTimeNs +
    node.mediaSettings.frameFieldTimeIntervalNs * node.mediaSettings.framesFieldsInMemBlock *
      sentMemBlockCounter

/-- The chunks of a field, from the counter on. `now` is the clock at each
commit. -/
def sendChunks (now : Nat → Nat) : (remaining chunkInFrameCounter : Nat) → ℚ →
    SendingStatistics → List SentChunk × SendingStatistics
  | 0, _, _, st => ([], st)
  | remaining + 1, chunkInFrameCounter, sendTimeNs, st =>
    let written := writeBuffer node.mediaSettings node.numOfPacketsInChunk st
    let first := chunkInFrameCounter % node.mediaSettings.chunksInFrameField = 0
    let commit := getCommitTimestampNs first sendTimeNs (now chunkInFrameCounter)
    -- the send time moves on with the first chunk of a field
    let rest := sendChunks now remaining (chunkInFrameCounter + 1)
      (if first then sendTimeNs + node.mediaSettings.frameFieldTimeIntervalNs else sendTimeNs)
      written.2
    (⟨written.1, commit⟩ :: rest.1, rest.2)

/-- `process_frame` for the stream: a new frame resets its writer. -/
def processFrame (st : SendingStatistics) : SendingStatistics :=
  if node.frameProvider then resetInFrameState st else st

/-- One pass of the loop. -/
def sendField (startSendTimeNs : ℚ) (now : Nat → Nat) (sentMemBlockCounter : Nat)
    (st : SendingStatistics) : List SentChunk × SendingStatistics :=
  node.sendChunks now node.mediaSettings.chunksInFrameField 0
    (node.getSendTimeNs startSendTimeNs sentMemBlockCounter) (node.processFrame st)

/-- The start time all streams compute from the same clock. -/
def startSendTimeNs (timeNowNs : Nat) : ℚ :=
  RtpVideoSendStream.sendTimeNs ⟨node.mediaSettings, 0⟩ timeNowNs

/-- The writer in front of field `k`, `now k` being the clock during field `k`. -/
def stateAt (timeNowNs : Nat) (now : Nat → Nat → Nat) : Nat → SendingStatistics
  | 0 => setFirstPacketTimestamp node.mediaSettings ⌊node.startSendTimeNs timeNowNs⌋₊ {}
  | k + 1 =>
    (node.sendField (node.startSendTimeNs timeNowNs) (now k) k (stateAt timeNowNs now k)).2

/-- The chunks of field `k`. -/
def fieldChunks (timeNowNs : Nat) (now : Nat → Nat → Nat) (k : Nat) : List SentChunk :=
  (node.sendField (node.startSendTimeNs timeNowNs) (now k) k (node.stateAt timeNowNs now k)).1

/-! ## Timestamps of a field -/

/-- The packets of the chunks, in the order they are sent. -/
def packetsOf (chunks : List SentChunk) : List RtpHeader := chunks.flatMap SentChunk.headers

variable {node} {t0 : Nat}

theorem timed_sendChunks (hPackets : 0 < node.mediaSettings.packetsInFrameField)
    (now : Nat → Nat) (remaining : Nat) :
    ∀ {sent : Nat} (counter : Nat) (sendTimeNs : ℚ) {st : SendingStatistics},
      Timed node.mediaSettings t0 sent st →
        ((packetsOf (node.sendChunks now remaining counter sendTimeNs st).1).map
            RtpHeader.timestamp =
          (List.range (remaining * node.numOfPacketsInChunk)).map fun i =>
            (t0 + (sent + i) / node.mediaSettings.packetsInFrameField *
              ticks node.mediaSettings) % 2 ^ 32) ∧
        Timed node.mediaSettings t0 (sent + remaining * node.numOfPacketsInChunk)
          (node.sendChunks now remaining counter sendTimeNs st).2 := by
  induction remaining with
  | zero =>
    intro sent counter sendTimeNs st h
    rw [Nat.zero_mul]
    exact ⟨rfl, h⟩
  | succ remaining ih =>
    intro sent counter sendTimeNs st h
    obtain ⟨hFirst, hNext⟩ := timed_writeBuffer hPackets node.numOfPacketsInChunk h
    obtain ⟨hRest, hFinal⟩ := ih (counter + 1)
      (if counter % node.mediaSettings.chunksInFrameField = 0 then
        sendTimeNs + node.mediaSettings.frameFieldTimeIntervalNs else sendTimeNs) hNext
    -- the packets of this chunk first, and the rest behind them
    rw [Nat.succ_mul, Nat.add_comm (remaining * _)]
    refine ⟨?_, ?_⟩
    · rw [List.range_add, List.map_append, ← hFirst, List.map_map]
      show ((writeBuffer node.mediaSettings node.numOfPacketsInChunk st).1 ++
        packetsOf _).map RtpHeader.timestamp = _
      rw [List.map_append]
      refine congrArg _ (hRest.trans ?_)
      apply List.map_congr_left
      intro i _
      show _ = (t0 + (sent + (node.numOfPacketsInChunk + i)) /
        node.mediaSettings.packetsInFrameField * ticks node.mediaSettings) % 2 ^ 32
      rw [Nat.add_assoc]
    · rw [← Nat.add_assoc]
      exact hFinal

/-- The timestamps of field `k`, from where the writer stands. -/
theorem timestamps_fieldChunks (hPackets : 0 < node.mediaSettings.packetsInFrameField)
    {timeNowNs k sent : Nat} {now : Nat → Nat → Nat}
    (h : Timed node.mediaSettings t0 sent (node.processFrame (node.stateAt timeNowNs now k))) :
    (packetsOf (node.fieldChunks timeNowNs now k)).map RtpHeader.timestamp =
      (List.range (node.mediaSettings.chunksInFrameField * node.numOfPacketsInChunk)).map fun i =>
        (t0 + (sent + i) / node.mediaSettings.packetsInFrameField *
          ticks node.mediaSettings) % 2 ^ 32 :=
  (timed_sendChunks hPackets (now k) _ 0 _ h).1

/-- The first chunk alone is committed to a time. -/
theorem commit_sendChunks (now : Nat → Nat) (remaining : Nat) :
    ∀ (counter : Nat) (sendTimeNs : ℚ) (st : SendingStatistics), 0 < counter →
      counter + remaining ≤ node.mediaSettings.chunksInFrameField →
      ∀ chunk ∈ (node.sendChunks now remaining counter sendTimeNs st).1,
        chunk.commitTimestampNs = 0 := by
  induction remaining with
  | zero => exact fun _ _ _ _ _ chunk hChunk => absurd hChunk (by simp [sendChunks])
  | succ remaining ih =>
    intro counter sendTimeNs st hCounter hFits chunk hChunk
    have hLater : ¬ counter % node.mediaSettings.chunksInFrameField = 0 := by
      rw [Nat.mod_eq_of_lt (by omega)]
      omega
    rcases List.mem_cons.mp hChunk with rfl | hRest
    · show getCommitTimestampNs _ sendTimeNs (now counter) = 0
      rw [decide_eq_false hLater]
      exact if_neg (fun h => Bool.noConfusion h.1)
    · exact ih (counter + 1) _ _ (Nat.succ_pos _) (by omega) chunk hRest

/-- A field has a chunk that is committed to its time, unless it is late, and no
other. -/
theorem commit_fieldChunks (hChunks : 0 < node.mediaSettings.chunksInFrameField)
    (timeNowNs : Nat) (now : Nat → Nat → Nat) (k : Nat) :
    (∀ chunk ∈ node.fieldChunks timeNowNs now k, chunk.commitTimestampNs ≠ 0 →
        chunk.commitTimestampNs = ⌊node.getSendTimeNs (node.startSendTimeNs timeNowNs) k⌋₊) ∧
      ((now k 0 : ℚ) < node.getSendTimeNs (node.startSendTimeNs timeNowNs) k →
        ∃ chunk ∈ node.fieldChunks timeNowNs now k,
          chunk.commitTimestampNs = ⌊node.getSendTimeNs (node.startSendTimeNs timeNowNs) k⌋₊) := by
  obtain ⟨rest, hRest⟩ : ∃ rest, node.mediaSettings.chunksInFrameField = rest + 1 :=
    ⟨_, (Nat.sub_add_cancel hChunks).symm⟩
  have hFirst : 0 % node.mediaSettings.chunksInFrameField = 0 := Nat.zero_mod _
  unfold fieldChunks sendField
  generalize node.processFrame _ = st
  generalize node.getSendTimeNs _ k = sendTimeNs
  rw [hRest]
  constructor
  · intro chunk hChunk hScheduled
    rcases List.mem_cons.mp hChunk with rfl | hLater
    · by_cases hLate : (now k 0 : ℚ) < sendTimeNs
      · exact if_pos ⟨decide_eq_true hFirst, hLate⟩
      · exact absurd (if_neg (fun h => hLate h.2)) hScheduled
    · exact absurd (commit_sendChunks (now k) rest 1 _ _ Nat.one_pos (by omega) chunk hLater)
        hScheduled
  · intro hTime
    exact ⟨_, List.mem_cons_self, if_pos ⟨decide_eq_true hFirst, hTime⟩⟩

/-- The timestamp the stream begins with. -/
def firstTimestamp (node : MediaSenderIONode) (timeNowNs : Nat) : Nat :=
  ⌊timeToRtpTimestamp ⌊node.startSendTimeNs timeNowNs⌋₊ node.mediaSettings.sampleRate⌋₊ % 2 ^ 32

theorem timed_start (timeNowNs : Nat) :
    Timed node.mediaSettings (node.firstTimestamp timeNowNs) 0
      (setFirstPacketTimestamp node.mediaSettings ⌊node.startSendTimeNs timeNowNs⌋₊ {}) := by
  refine ⟨(Nat.zero_mod _).symm, ?_⟩
  rw [Nat.zero_div, Nat.zero_mul, Nat.add_zero]
  exact (Nat.mod_mod _ _).symm

/-- Chunks that fill a field leave the writer at the next field. -/
theorem timed_stateAt (hPackets : 0 < node.mediaSettings.packetsInFrameField)
    (hFill : node.mediaSettings.chunksInFrameField * node.numOfPacketsInChunk =
      node.mediaSettings.packetsInFrameField) (timeNowNs : Nat) (now : Nat → Nat → Nat) (k : Nat) :
    Timed node.mediaSettings (node.firstTimestamp timeNowNs)
      (k * node.mediaSettings.packetsInFrameField)
      (node.processFrame (node.stateAt timeNowNs now k)) := by
  -- a new frame resets a writer that stands at a field already
  have hFrame {st : SendingStatistics} (j : Nat)
      (h : Timed node.mediaSettings (node.firstTimestamp timeNowNs)
        (j * node.mediaSettings.packetsInFrameField) st) :
      Timed node.mediaSettings (node.firstTimestamp timeNowNs)
        (j * node.mediaSettings.packetsInFrameField) (node.processFrame st) := by
    unfold processFrame
    split
    · exact timed_resetInFrameState h (Nat.dvd_mul_left _ _)
    · exact h
  induction k with
  | zero =>
    refine hFrame 0 ?_
    rw [Nat.zero_mul]
    exact timed_start timeNowNs
  | succ k ih =>
    refine hFrame (k + 1) ?_
    have hField := (timed_sendChunks hPackets (now k) node.mediaSettings.chunksInFrameField 0
      (node.getSendTimeNs (node.startSendTimeNs timeNowNs) k) ih).2
    rw [hFill, ← Nat.succ_mul] at hField
    exact hField

/-- Without ticks the timestamp stands still, wherever the writer is. -/
theorem exists_timed_stateAt (hPackets : 0 < node.mediaSettings.packetsInFrameField)
    (hStill : ticks node.mediaSettings = 0) (timeNowNs : Nat) (now : Nat → Nat → Nat) (k : Nat) :
    ∃ sent, Timed node.mediaSettings (node.firstTimestamp timeNowNs) sent
      (node.processFrame (node.stateAt timeNowNs now k)) := by
  -- or anywhere, if no tick is counted
  have hFrame {st : SendingStatistics} {sent : Nat}
      (h : Timed node.mediaSettings (node.firstTimestamp timeNowNs) sent st) :
      ∃ sent', Timed node.mediaSettings (node.firstTimestamp timeNowNs) sent'
        (node.processFrame st) := by
    unfold processFrame
    split
    · refine ⟨0, (Nat.zero_mod _).symm, ?_⟩
      have hTimestamp := h.timestamp
      rw [hStill, Nat.mul_zero] at hTimestamp ⊢
      exact hTimestamp
    · exact ⟨sent, h⟩
  induction k with
  | zero => exact hFrame (timed_start timeNowNs)
  | succ k ih =>
    obtain ⟨sent, hSent⟩ := ih
    exact hFrame (timed_sendChunks hPackets (now k) node.mediaSettings.chunksInFrameField 0
      (node.getSendTimeNs (node.startSendTimeNs timeNowNs) k) hSent).2

/-! ## Drift -/

/-- The time of field `k` behind the start, in nanoseconds. -/
def exactFieldTimeNs (m : MediaSettings) (k : Nat) : ℚ :=
  k * (m.frameRate.denom.toNat / m.frameRate.num.toNat / m.videoScanType.fields * NS_IN_SEC)

/-- The packets of every field carry one timestamp, within a tick of the time
their field is committed to, and the schedule keeps to the frame rate. No
divisor of the writer is zero. -/
structure NoDrift (node : MediaSenderIONode) (timeNowNs : Nat) : Prop where
  packets_pos : 0 < node.mediaSettings.packetsInFrameField
  line_pos : 0 < node.mediaSettings.packetsInLine
  rows_pos : 0 < node.mediaSettings.linesInFrameField
  timestamps : ∀ now k, ∃ timestamp, ∀ chunk ∈ node.fieldChunks timeNowNs now k,
    (∀ header ∈ chunk.headers, header.timestamp = timestamp) ∧
      (chunk.commitTimestampNs ≠ 0 → WithinOneTick timestamp
        (⌊timeToRtpTimestamp chunk.commitTimestampNs node.mediaSettings.sampleRate⌋₊ % 2 ^ 32))
  schedule : ∃ bound, ∀ k, |node.getSendTimeNs (node.startSendTimeNs timeNowNs) k -
    (node.startSendTimeNs timeNowNs + exactFieldTimeNs node.mediaSettings k)| ≤ bound

/-- The blocks make up for the misplaced denominator of the interval, a field is
a whole number of ticks, and chunks fill a field. -/
structure DriftFree (node : MediaSenderIONode) : Prop where
  line_pos : 0 < node.mediaSettings.packetsInLine
  rows_pos : 0 < node.mediaSettings.linesInFrameField
  blocks : node.mediaSettings.framesFieldsInMemBlock =
    node.mediaSettings.frameRate.denom.toNat ^ 2
  ticks : node.mediaSettings.frameRate.num.toNat * node.mediaSettings.videoScanType.fields ∣
    90000 * node.mediaSettings.frameRate.denom.toNat
  chunk : node.numOfPacketsInChunk ∣ node.mediaSettings.packetsInFrameField

section Drift

variable {s s' : AppSettings} {frameProvider : Bool} {timeNowNs : Nat}

/-- The chunks share a timestamp if the packets in them do. -/
theorem forall_headers_iff {chunks : List SentChunk} {timestamp : Nat} :
    (∀ chunk ∈ chunks, ∀ header ∈ chunk.headers, header.timestamp = timestamp) ↔
      ∀ x ∈ (packetsOf chunks).map RtpHeader.timestamp, x = timestamp := by
  constructor
  · intro h x hx
    obtain ⟨header, hHeader, rfl⟩ := List.mem_map.mp hx
    obtain ⟨chunk, hChunk, hIn⟩ := List.mem_flatMap.mp hHeader
    exact h chunk hChunk header hIn
  · intro h chunk hChunk header hHeader
    exact h _ (List.mem_map_of_mem (List.mem_flatMap_of_mem hChunk hHeader))

/-- With one timestamp for all packets of a field, the chunks fill the field or
the timestamp stands still. -/
theorem filled_or_still (hPackets : 0 < node.mediaSettings.packetsInFrameField)
    (hCover : node.mediaSettings.packetsInFrameField ≤
      node.mediaSettings.chunksInFrameField * node.numOfPacketsInChunk)
    (now : Nat → Nat → Nat)
    (h : ∀ k, ∃ timestamp, ∀ chunk ∈ node.fieldChunks timeNowNs now k,
      ∀ header ∈ chunk.headers, header.timestamp = timestamp) :
    (node.mediaSettings.chunksInFrameField * node.numOfPacketsInChunk =
        node.mediaSettings.packetsInFrameField ∨ ticks node.mediaSettings = 0) := by
  by_contra hNot
  rw [not_or] at hNot
  have hStart : Timed node.mediaSettings (node.firstTimestamp timeNowNs) 0
      (node.processFrame (node.stateAt timeNowNs now 0)) := by
    unfold processFrame
    split
    · exact timed_resetInFrameState (timed_start timeNowNs) (Nat.dvd_zero _)
    · exact timed_start timeNowNs
  have hSent := timestamps_fieldChunks hPackets hStart
  obtain ⟨timestamp, hTimestamp⟩ := h 0
  have hAll := forall_headers_iff.mp hTimestamp
  have hAt (i : Nat) (hi : i < node.mediaSettings.chunksInFrameField * node.numOfPacketsInChunk) :
      (node.firstTimestamp timeNowNs + (0 + i) / node.mediaSettings.packetsInFrameField *
        ticks node.mediaSettings) % 2 ^ 32 = timestamp := by
    refine hAll _ ?_
    rw [hSent]
    exact List.mem_map_of_mem (List.mem_range.mpr hi)
  -- the first packet, and the first behind the field
  have hFirst := hAt 0 (by omega)
  have hNext := hAt node.mediaSettings.packetsInFrameField (by omega)
  have hTicksLt : ticks node.mediaSettings < 2 ^ 32 := Nat.mod_lt _ (by decide)
  rw [Nat.zero_add, Nat.zero_div, Nat.zero_mul] at hFirst
  rw [Nat.zero_add, Nat.div_self hPackets, Nat.one_mul] at hNext
  omega

theorem getSendTimeNs_ofSettings (start : ℚ) (k : Nat) :
    (ofSettings s' frameProvider).getSendTimeNs start k =
      start + s'.media.frameFieldTimeIntervalNs * s'.media.framesFieldsInMemBlock * k :=
  rfl

/-- The timestamp of field `k` then. -/
theorem timestamp_of_filled_or_still (hPackets : 0 < node.mediaSettings.packetsInFrameField)
    (hSome : 0 < node.mediaSettings.chunksInFrameField * node.numOfPacketsInChunk)
    {now : Nat → Nat → Nat} {k timestamp : Nat}
    (hOne : ∀ chunk ∈ node.fieldChunks timeNowNs now k,
      ∀ header ∈ chunk.headers, header.timestamp = timestamp)
    (h : node.mediaSettings.chunksInFrameField * node.numOfPacketsInChunk =
        node.mediaSettings.packetsInFrameField ∨ ticks node.mediaSettings = 0) :
    timestamp = (node.firstTimestamp timeNowNs + k * ticks node.mediaSettings) % 2 ^ 32 := by
  have hFirst {sent : Nat} (hTimed : Timed node.mediaSettings (node.firstTimestamp timeNowNs) sent
      (node.processFrame (node.stateAt timeNowNs now k))) :
      (node.firstTimestamp timeNowNs + (sent + 0) / node.mediaSettings.packetsInFrameField *
        ticks node.mediaSettings) % 2 ^ 32 = timestamp := by
    refine forall_headers_iff.mp hOne _ ?_
    rw [timestamps_fieldChunks hPackets hTimed]
    exact List.mem_map_of_mem (List.mem_range.mpr hSome)
  -- field k begins k fields behind the start, or it does not matter
  rcases h with hFill | hStill
  · rw [← hFirst (timed_stateAt hPackets hFill timeNowNs now k), Nat.add_zero,
      Nat.mul_div_cancel _ hPackets]
  · obtain ⟨sent, hTimed⟩ := exists_timed_stateAt hPackets hStill timeNowNs now k
    rw [← hFirst hTimed, hStill, Nat.mul_zero, Nat.mul_zero]

/-- A drift that does not grow is none. -/
theorem bounded_multiples_iff (e : ℚ) : (∃ bound, ∀ k : Nat, |k * e| ≤ bound) ↔ e = 0 := by
  constructor
  · rintro ⟨bound, hBound⟩
    by_contra hDrift
    -- enough fields for any bound
    obtain ⟨k, hk⟩ := exists_nat_gt (bound / |e|)
    have hAt := hBound k
    rw [abs_mul, Nat.abs_cast] at hAt
    rw [div_lt_iff₀ (abs_pos.mpr hDrift)] at hk
    exact absurd hAt (not_le.mpr hk)
  · rintro rfl
    exact ⟨0, fun k => by simp⟩

/-- The schedule of an accepted frame rate keeps to it exactly if the blocks make
up for the denominator. -/
theorem schedule_iff (hInit : initializeCommonMediaSettings s = some s')
    (hNum : 0 < s'.media.frameRate.num.toNat) (hDenom : 0 < s'.media.frameRate.denom.toNat)
    (hFields : 0 < s'.media.videoScanType.fields) (start : ℚ) :
    (∃ bound, ∀ k, |(ofSettings s' frameProvider).getSendTimeNs start k -
        (start + exactFieldTimeNs s'.media k)| ≤ bound) ↔
      s'.media.framesFieldsInMemBlock = s'.media.frameRate.denom.toNat ^ 2 := by
  have hNum' : (s'.media.frameRate.num.toNat : ℚ) ≠ 0 := by exact_mod_cast hNum.ne'
  have hDenom' : (s'.media.frameRate.denom.toNat : ℚ) ≠ 0 := by exact_mod_cast hDenom.ne'
  have hFields' : (s'.media.videoScanType.fields : ℚ) ≠ 0 := by exact_mod_cast hFields.ne'
  obtain ⟨rate, hRate, hRatePos⟩ : ∃ rate : ℚ, rate = 1000000000 /
      (s'.media.frameRate.num.toNat * s'.media.frameRate.denom.toNat *
        s'.media.videoScanType.fields) ∧ rate ≠ 0 :=
    ⟨_, rfl, div_ne_zero (by norm_num) (mul_ne_zero (mul_ne_zero hNum' hDenom') hFields')⟩
  -- what a field drifts by, for each of them
  have hSlope (k : Nat) : (ofSettings s' frameProvider).getSendTimeNs start k -
      (start + exactFieldTimeNs s'.media k) =
        k * (rate * (s'.media.framesFieldsInMemBlock - s'.media.frameRate.denom.toNat ^ 2)) := by
    rw [getSendTimeNs_ofSettings, exactFieldTimeNs, interval_eq hInit, hRate]
    push_cast [NS_IN_SEC]
    field_simp
    ring
  simp only [hSlope]
  rw [bounded_multiples_iff, mul_eq_zero, or_iff_right hRatePos, sub_eq_zero]
  exact_mod_cast Iff.rfl

/-- The schedule in the arithmetic above. -/
theorem floor_getSendTimeNs (hInit : initializeCommonMediaSettings s = some s')
    (hNum : 0 < s'.media.frameRate.num.toNat) (hDenom : 0 < s'.media.frameRate.denom.toNat)
    (hFields : 0 < s'.media.videoScanType.fields)
    (hBlocks : s'.media.framesFieldsInMemBlock = s'.media.frameRate.denom.toNat ^ 2) (start : ℚ)
    (k : Nat) :
    ⌊(ofSettings s' frameProvider).getSendTimeNs start k⌋₊ =
      scheduledNs start (s'.media.frameRate.num.toNat * s'.media.videoScanType.fields)
        s'.media.frameRate.denom.toNat k := by
  have hNum' : (s'.media.frameRate.num.toNat : ℚ) ≠ 0 := by exact_mod_cast hNum.ne'
  have hDenom' : (s'.media.frameRate.denom.toNat : ℚ) ≠ 0 := by exact_mod_cast hDenom.ne'
  have hFields' : (s'.media.videoScanType.fields : ℚ) ≠ 0 := by exact_mod_cast hFields.ne'
  rw [getSendTimeNs_ofSettings, interval_eq hInit, hBlocks, scheduledNs]
  congr 1
  push_cast
  field_simp

/-- One tick, five ticks early and modulo `2 ^ 32`. -/
theorem withinOneTick_shift {b c x y : Nat} (hb : 5 ≤ b) (hc : 5 ≤ c)
    (hxy : x % 2 ^ 32 = y % 2 ^ 32) :
    WithinOneTick (((b - 5) % 2 ^ 32 + x) % 2 ^ 32) ((c - 5) % 2 ^ 32) ↔
      WithinOneTick (b + y) c := by
  unfold WithinOneTick
  omega

/-- The ticks of a field of whole ticks are not lost modulo `2 ^ 32`. -/
theorem ticks_pos_of_dvd {n d : Nat} (hd : 0 < d) (hd' : d < 2 ^ 16) (hDvd : n ∣ 90000 * d) :
    90000 * d / n % 2 ^ 32 ≠ 0 := by
  obtain ⟨q, hq⟩ := hDvd
  have hn : 0 < n := Nat.pos_of_ne_zero fun h => by
    rw [h, Nat.zero_mul] at hq
    omega
  rw [hq, Nat.mul_div_cancel_left _ hn]
  intro hZero
  obtain ⟨j, rfl⟩ := Nat.dvd_of_mod_eq_zero hZero
  rw [Nat.mul_left_comm] at hq
  omega

/-- The timestamp of field `k` and the time it is committed to. -/
theorem withinOneTick_field_iff (hInit : initializeCommonMediaSettings s = some s')
    (hRate : videoFrameRateValidator s.media.frameRate = true)
    (hBlocks : s'.media.framesFieldsInMemBlock = s'.media.frameRate.denom.toNat ^ 2) (k : Nat) :
    let node := ofSettings s' frameProvider
    let time := ⌊node.getSendTimeNs (node.startSendTimeNs timeNowNs) k⌋₊
    let n := s'.media.frameRate.num.toNat * s'.media.videoScanType.fields
    time ≠ 0 ∧
      (WithinOneTick ((node.firstTimestamp timeNowNs + k * ticks s'.media) % 2 ^ 32)
          (⌊timeToRtpTimestamp time s'.media.sampleRate⌋₊ % 2 ^ 32) ↔
        WithinOneTick (ticksOfNs ⌊node.startSendTimeNs timeNowNs⌋₊ +
            k * (90000 * s'.media.frameRate.denom.toNat / n))
          (ticksOfNs (scheduledNs (node.startSendTimeNs timeNowNs) n
            s'.media.frameRate.denom.toNat k))) := by
  obtain ⟨hNum, hDenom, hFields, hInterval, hSecond⟩ := interval_bounds hInit hRate
  obtain ⟨bytes, pixels, h⟩ := computed_of_eq_some hInit
  intro node time n
  -- the start is far from the epoch
  have hStart : 40000000 ≤ node.startSendTimeNs timeNowNs :=
    RtpVideoSendStream.sendTimeNs_ge ⟨s'.media, 0⟩ timeNowNs hInterval hSecond
  have hStartNs : 40000000 ≤ ⌊node.startSendTimeNs timeNowNs⌋₊ :=
    Nat.le_floor (by exact_mod_cast hStart)
  have hTime : time = scheduledNs (node.startSendTimeNs timeNowNs) n
      s'.media.frameRate.denom.toNat k :=
    floor_getSendTimeNs hInit hNum hDenom hFields hBlocks _ k
  have hTimeNs : 40000000 ≤ time := by
    rw [hTime]
    refine hStartNs.trans (Nat.floor_mono (le_add_of_nonneg_right ?_))
    positivity
  -- packets and schedule in the arithmetic of ticks
  have hTicks : ticks s'.media = 90000 * s'.media.frameRate.denom.toNat / n % 2 ^ 32 :=
    (streamTicks_eq h 0).symm.trans (RtpVideoSendStream.ticks_eq ⟨s'.media, 0⟩)
  have hFirst : node.firstTimestamp timeNowNs =
      (ticksOfNs ⌊node.startSendTimeNs timeNowNs⌋₊ - 5) % 2 ^ 32 :=
    rtpTimestamp_of_ns (by omega) s'.media
  refine ⟨by omega, ?_⟩
  rw [rtpTimestamp_of_ns (by omega) s'.media, hFirst, hTicks, ← hTime]
  refine withinOneTick_shift ?_ ?_ (Nat.mul_mod_mod _ _ _)
  · unfold ticksOfNs
    omega
  · unfold ticksOfNs
    omega

/-- **No drift.** For every accepted frame rate, scan type and number of fields
in a block, with or without a frame provider, and from any start time: packets
and schedule stay together for ever exactly when `DriftFree` holds. -/
theorem no_drift_iff (hInit : initializeCommonMediaSettings s = some s')
    (hRate : videoFrameRateValidator s.media.frameRate = true) :
    NoDrift (ofSettings s' frameProvider) timeNowNs ↔
      DriftFree (ofSettings s' frameProvider) := by
  obtain ⟨hNum, hDenom, hFields, hInterval, hSecond⟩ := interval_bounds hInit hRate
  obtain ⟨bytes, pixels, h⟩ := computed_of_eq_some hInit
  have hCount : s'.media.chunksInFrameField =
      (s'.media.packetsInFrameField + s'.numOfPacketsInChunk - 1) / s'.numOfPacketsInChunk := by
    rw [h.settings]
    rfl
  have hCover : s'.media.packetsInFrameField ≤
      s'.media.chunksInFrameField * s'.numOfPacketsInChunk := hCount ▸ le_ceil_mul h.chunk_pos
  have hFill : s'.media.chunksInFrameField * s'.numOfPacketsInChunk =
      s'.media.packetsInFrameField ↔ s'.numOfPacketsInChunk ∣ s'.media.packetsInFrameField := by
    rw [hCount]
    exact ceil_mul_eq_iff h.chunk_pos
  have hStart : 0 ≤ (ofSettings s' frameProvider).startSendTimeNs timeNowNs :=
    (by norm_num : (0 : ℚ) ≤ 40000000).trans
      (RtpVideoSendStream.sendTimeNs_ge ⟨s'.media, 0⟩ timeNowNs hInterval hSecond)
  have hTicks : ticks s'.media = 90000 * s'.media.frameRate.denom.toNat /
      (s'.media.frameRate.num.toNat * s'.media.videoScanType.fields) % 2 ^ 32 :=
    (streamTicks_eq h 0).symm.trans (RtpVideoSendStream.ticks_eq ⟨s'.media, 0⟩)
  have hArithmetic := @withinOneTick_iff _ _ s'.media.frameRate.denom.toNat
    (Nat.mul_pos hNum hFields) hStart
  constructor
  · rintro ⟨hPackets, hLine, hRows, hTimestamps, hSchedule⟩
    have hBlocks := (schedule_iff hInit hNum hDenom hFields _).mp hSchedule
    have hSome : 0 < s'.media.chunksInFrameField * s'.numOfPacketsInChunk :=
      Nat.lt_of_lt_of_le hPackets hCover
    have hChunks : 0 < s'.media.chunksInFrameField := Nat.pos_of_mul_pos_right hSome
    have hSteady := filled_or_still hPackets hCover (fun _ _ => 0) fun k => by
      obtain ⟨timestamp, hOne⟩ := hTimestamps (fun _ _ => 0) k
      exact ⟨timestamp, fun chunk hChunk => (hOne chunk hChunk).1⟩
    have hDvd := hArithmetic.mp fun k => by
      obtain ⟨hTime, hWithin⟩ := @withinOneTick_field_iff _ _ frameProvider timeNowNs hInit hRate
        hBlocks k
      obtain ⟨timestamp, hOne⟩ := hTimestamps (fun _ _ => 0) k
      -- a field that is on time is committed to its time
      have hOnTime := (Nat.floor_pos.mp (Nat.pos_of_ne_zero hTime)).trans_lt' one_pos
      obtain ⟨chunk, hChunk, hCommit⟩ :=
        (commit_fieldChunks hChunks timeNowNs (fun _ _ => 0) k).2 (by rwa [Nat.cast_zero])
      have hAt := (hOne chunk hChunk).2 (by rw [hCommit]; exact hTime)
      rw [hCommit, timestamp_of_filled_or_still hPackets hSome
        (fun chunk hChunk => (hOne chunk hChunk).1) hSteady] at hAt
      exact hWithin.mp hAt
    refine ⟨hLine, hRows, hBlocks, hDvd, hFill.mp (hSteady.resolve_right fun hStill => ?_)⟩
    exact ticks_pos_of_dvd hDenom s'.media.frameRate.denom.toNat_lt hDvd (hTicks.symm.trans hStill)
  · rintro ⟨hLine, hRows, hBlocks, hDvd, hChunk⟩
    have hPackets := packetsInFrameField_pos h hLine hRows
    have hChunks : 0 < s'.media.chunksInFrameField :=
      Nat.pos_of_mul_pos_right (hPackets.trans_le hCover)
    refine ⟨hPackets, hLine, hRows, ?_, (schedule_iff hInit hNum hDenom hFields _).mpr hBlocks⟩
    intro now k
    refine ⟨((ofSettings s' frameProvider).firstTimestamp timeNowNs + k * ticks s'.media) % 2 ^ 32,
      fun chunk hMem => ⟨forall_headers_iff.mpr ?_ chunk hMem, ?_⟩⟩
    · intro x hx
      rw [timestamps_fieldChunks hPackets (timed_stateAt hPackets (hFill.mpr hChunk) timeNowNs now
        k)] at hx
      obtain ⟨i, hi, rfl⟩ := List.mem_map.mp hx
      have hInside : i < s'.media.packetsInFrameField :=
        (List.mem_range.mp hi).trans_eq (hFill.mpr hChunk)
      have hField : (k * s'.media.packetsInFrameField + i) / s'.media.packetsInFrameField = k := by
        rw [Nat.mul_comm, Nat.mul_add_div hPackets, Nat.div_eq_of_lt hInside, Nat.add_zero]
      show ((ofSettings s' frameProvider).firstTimestamp timeNowNs +
        (k * s'.media.packetsInFrameField + i) / s'.media.packetsInFrameField *
          ticks s'.media) % 2 ^ 32 = _
      rw [hField]
    · intro hScheduled
      rw [(commit_fieldChunks hChunks timeNowNs now k).1 chunk hMem hScheduled]
      exact (withinOneTick_field_iff hInit hRate hBlocks k).2.mpr (hArithmetic.mpr hDvd k)

/-- Full HD at 60 frames per second, one field in a block. -/
theorem no_drift_fullHd60 :
    ∃ s', initializeCommonMediaSettings (fullHd ⟨60, 1⟩ .Progressive) = some s' ∧
      NoDrift (ofSettings s' false) 0 := by
  refine ⟨_, rfl, (@no_drift_iff (fullHd ⟨60, 1⟩ .Progressive) _ false 0 rfl (by decide)).mpr ?_⟩
  exact ⟨by decide, by decide, by decide, by decide, by decide⟩

/-- At 30000/1001 frames per second the schedule runs away from the frame rate. -/
theorem ntsc_drifts :
    ∃ s', initializeCommonMediaSettings (fullHd ⟨30000, 1001⟩ .Progressive) = some s' ∧
      ¬ NoDrift (ofSettings s' false) 0 := by
  refine ⟨_, rfl, fun h => ?_⟩
  have hBlocks := (@schedule_iff (fullHd ⟨30000, 1001⟩ .Progressive) _ false rfl (by decide)
    (by decide) (by decide) _).mp h.schedule
  exact absurd hBlocks (by decide)

end Drift

end MediaSenderIONode

end RivermaxDevKit
