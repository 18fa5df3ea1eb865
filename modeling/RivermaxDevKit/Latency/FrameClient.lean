import Mathlib.Data.List.Basic
import Mathlib.Tactic.Common
import RivermaxDevKit.Latency.FrameReply

/-!
# Frame latency client

`FrameIONode::send_receive` (`generic_latency_io_node.cpp`): the client numbers a
frame, sends its chunks, waits for a reply and hands the times to its statistics.
`LatencyStats` (`latency_io_node.cpp`) keeps them.

* `receiveReply_cases` — what a reply can do to the client.
* `flatten_prepareChunks` — the chunks of an iteration are its frame.
-/

namespace RivermaxDevKit

/-! ## Statistics -/

/-- `LatencyStats`. The percentiles are floating point and left out. -/
structure LatencyStats where
  minval : Int := 999999999999999999
  maxval : Int := -999999999999999999
  sumval : Int := 0
  count : Int := 0
  deriving DecidableEq, Repr

namespace LatencyStats

/-- `LatencyStats::DEFAULT_MIN_VALUE`. -/
def DEFAULT_MIN_VALUE : Int := 999999999999999999

def update (stats : LatencyStats) (value : Int) : LatencyStats :=
  let stats := { stats with sumval := stats.sumval + value }
  let stats := if value > stats.maxval then { stats with maxval := value } else stats
  let stats := if value < stats.minval then { stats with minval := value } else stats
  { stats with count := stats.count + 1 }

/-- `get_avg`. The division rounds towards zero. -/
def getAvg (stats : LatencyStats) : Int := stats.sumval.tdiv stats.count

/-- A counter after these values. -/
def ofValues (values : List Int) : LatencyStats := values.foldl update {}

theorem ofValues_concat (values : List Int) (value : Int) :
    ofValues (values ++ [value]) = (ofValues values).update value := by
  rw [ofValues, List.foldl_append]
  rfl

theorem update_eq (stats : LatencyStats) (value : Int) :
    stats.update value = ⟨min stats.minval value, max stats.maxval value, stats.sumval + value,
      stats.count + 1⟩ := by
  have hMax : (if value > stats.maxval then value else stats.maxval) = max stats.maxval value := by
    omega
  have hMin : (if value < stats.minval then value else stats.minval) = min stats.minval value := by
    omega
  rw [← hMax, ← hMin]
  by_cases hAbove : value > stats.maxval
  · by_cases hBelow : value < stats.minval
    · simp [update, hAbove, hBelow]
    · simp [update, hAbove, hBelow]
  · by_cases hBelow : value < stats.minval
    · simp [update, hAbove, hBelow]
    · simp [update, hAbove, hBelow]

/-- The minimum is the least of the values, and at most what it started with. -/
structure Holds (values : List Int) (stats : LatencyStats) : Prop where
  count_eq : stats.count = values.length
  sum_eq : stats.sumval = values.sum
  min_le : ∀ value ∈ values, stats.minval ≤ value
  le_max : ∀ value ∈ values, value ≤ stats.maxval
  min_mem : stats.minval ∈ DEFAULT_MIN_VALUE :: values
  max_mem : stats.maxval ∈ (-DEFAULT_MIN_VALUE) :: values

theorem Holds.update {values : List Int} {stats : LatencyStats} (h : Holds values stats)
    (value : Int) : Holds (values ++ [value]) (stats.update value) := by
  rw [update_eq]
  refine ⟨?_, ?_, fun v hv => ?_, fun v hv => ?_, ?_, ?_⟩
  · show stats.count + 1 = _
    rw [h.count_eq, List.length_append, List.length_singleton]
    rfl
  · show stats.sumval + value = _
    rw [h.sum_eq, List.sum_append, List.sum_singleton]
  · rcases List.mem_append.mp hv with hBefore | hNew
    · exact (min_le_left _ _).trans (h.min_le v hBefore)
    · rw [List.mem_singleton.mp hNew]
      exact min_le_right _ _
  · rcases List.mem_append.mp hv with hBefore | hNew
    · exact (h.le_max v hBefore).trans (le_max_left _ _)
    · rw [List.mem_singleton.mp hNew]
      exact le_max_right _ _
  · show min stats.minval value ∈ _
    rcases min_choice stats.minval value with hOld | hNew
    · rw [hOld]
      exact List.mem_append_left [value] h.min_mem
    · rw [hNew]
      exact List.mem_append_right (DEFAULT_MIN_VALUE :: values) (List.mem_singleton_self _)
  · show max stats.maxval value ∈ _
    rcases max_choice stats.maxval value with hOld | hNew
    · rw [hOld]
      exact List.mem_append_left [value] h.max_mem
    · rw [hNew]
      exact List.mem_append_right (-DEFAULT_MIN_VALUE :: values) (List.mem_singleton_self _)

theorem holds_ofValues (values : List Int) : Holds values (ofValues values) := by
  induction values using List.reverseRecOn with
  | nil => exact ⟨rfl, rfl, nofun, nofun, List.mem_cons_self, List.mem_cons_self⟩
  | append_singleton values value ih =>
    rw [ofValues_concat]
    exact ih.update value

/-- Bounds of all values bound their sum. -/
theorem sum_bounds {values : List Int} {lo hi : Int} (hLo : ∀ value ∈ values, lo ≤ value)
    (hHi : ∀ value ∈ values, value ≤ hi) :
    lo * values.length ≤ values.sum ∧ values.sum ≤ hi * values.length := by
  induction values with
  | nil => simp
  | cons value values ih =>
    obtain ⟨hLo', hLoRest⟩ := List.forall_mem_cons.mp hLo
    obtain ⟨hHi', hHiRest⟩ := List.forall_mem_cons.mp hHi
    obtain ⟨hLower, hUpper⟩ := ih hLoRest hHiRest
    rw [List.sum_cons, List.length_cons, Int.natCast_succ, mul_add, mul_add, mul_one, mul_one]
    omega

/-- The average lies between the bounds of the values. -/
theorem getAvg_bounds {values : List Int} (hSome : values ≠ []) {lo hi : Int}
    (hLo : ∀ value ∈ values, lo ≤ value) (hHi : ∀ value ∈ values, value ≤ hi) :
    lo ≤ (ofValues values).getAvg ∧ (ofValues values).getAvg ≤ hi := by
  obtain ⟨hLower, hUpper⟩ := sum_bounds hLo hHi
  have hPos : (0 : Int) < values.length := by
    exact_mod_cast List.length_pos_iff.mpr hSome
  rw [getAvg, (holds_ofValues values).sum_eq, (holds_ofValues values).count_eq]
  -- rounding towards zero stays between integers
  constructor
  · rcases le_or_gt 0 values.sum with hSum | hSum
    · rw [Int.tdiv_eq_ediv_of_nonneg hSum]
      exact Int.le_ediv_of_mul_le hPos hLower
    · have hNeg := Int.tdiv_eq_ediv_of_nonneg (show 0 ≤ -values.sum by omega) (b := values.length)
      rw [Int.neg_tdiv] at hNeg
      have hLe : -values.sum / values.length ≤ -lo := by
        refine Int.ediv_le_of_le_mul hPos ?_
        rw [neg_mul]
        omega
      omega
  · rcases le_or_gt 0 values.sum with hSum | hSum
    · rw [Int.tdiv_eq_ediv_of_nonneg hSum]
      exact Int.ediv_le_of_le_mul hPos hUpper
    · have hNeg := Int.tdiv_eq_ediv_of_nonneg (show 0 ≤ -values.sum by omega) (b := values.length)
      rw [Int.neg_tdiv] at hNeg
      have hGe : -hi ≤ -values.sum / values.length := by
        refine Int.le_ediv_of_mul_le hPos ?_
        rw [neg_mul]
        omega
      omega

end LatencyStats

/-! ## State and environment -/

/-- `DEFAULT_SKIP_PACKETS`. -/
def DEFAULT_SKIP_PACKETS : Nat := 4

/-- What `send_receive` reads of the settings of the node. -/
structure FrameSettings where
  numOfChunks : Nat
  numOfPacketsInChunk : Nat
  trackCompletions : Bool := false
  measureIntervalSec : Nat
  deriving DecidableEq, Repr

def FrameSettings.packetsInFrame (settings : FrameSettings) : Nat :=
  settings.numOfChunks * settings.numOfPacketsInChunk

/-- Where the client is: at the head of its loop, at a chunk of the frame, at the
poll for the reply, or out of the loop. -/
inductive FramePhase
  | preparing
  | sending (chunk : Nat)
  | waiting
  | finished
  deriving DecidableEq, Repr

/-- The times of a reply that counts. -/
structure FrameMeasurement where
  sendTs : Nat
  receiveTs : Nat
  txHwTimestamp : Nat
  rxHwTimestamp : Nat
  timing : ReceiveTiming
  deriving DecidableEq, Repr

/-- The locals of `send_receive`. `chunks` is what `prepare_chunks` wrote, and
`measurements` what the statistics got. -/
structure FrameTx where
  phase : FramePhase := .preparing
  iteration : UInt32 := 0
  skipPackets : Nat := DEFAULT_SKIP_PACKETS
  packetCnt : Nat := 0
  startTimeNs : Nat
  sendTs : Nat := 0
  token : UInt64 := 0
  txHwTimestamp : Nat := 0
  rxHwTimestamp : Nat := 0
  chunks : List (List PacketHeader) := []
  measurements : List FrameMeasurement := []
  deriving DecidableEq, Repr

/-- What the calls for one chunk return. `next` and `commit` are the statuses
that end the retries: there is a chunk, and room in the queue. -/
structure ChunkSend where
  next : ReturnStatus := .success
  mark : ReturnStatus := .success
  layout : ReturnStatus := .success
  commit : ReturnStatus := .success
  deriving DecidableEq, Repr

/-- The first packet of a reply chunk. -/
structure ReplyPacket where
  size : Nat
  timing : ReceiveTiming
  deriving DecidableEq, Repr

/-- What the calls that wait for a reply return. Without a packet `reply` is
`none`; `completion` holds the polls for the last chunk, one after the other. -/
structure ReplyPoll where
  rc : ReturnStatus := .success
  receiveTs : Nat
  reply : Option ReplyPacket
  completion : Nat → ReturnStatus := fun _ => .success
  completionInfo : ReturnStatus := .success
  complToken : UInt64 := 0
  txHwTimestamp : Nat := 0
  rxHwTimestamp : Nat := 0

namespace FrameIONode

/-! ## Sending a frame -/

/-- The inner loop of `prepare_chunks`, and the packet id behind it. -/
def preparePackets (iteration : UInt32) : Nat → UInt32 → List PacketHeader × UInt32
  | 0, pktId => ([], pktId)
  | n + 1, pktId =>
    let rest := preparePackets iteration n (pktId + 1)
    (⟨iteration, pktId⟩ :: rest.1, rest.2)

/-- `prepare_chunks`, from this packet id on. -/
def prepareChunks (iteration : UInt32) (numOfPackets : Nat) : Nat → UInt32 →
    List (List PacketHeader)
  | 0, _ => []
  | n + 1, pktId =>
    let chunk := preparePackets iteration numOfPackets pktId
    chunk.1 :: prepareChunks iteration numOfPackets n chunk.2

variable (settings : FrameSettings)

/-- The next chunk, or the poll for the reply behind the last one. -/
def nextChunk (chunk : Nat) (tx : FrameTx) : FrameTx :=
  if chunk < settings.numOfChunks then { tx with phase := .sending chunk }
  else { tx with phase := .waiting, iteration := tx.iteration + 1 }

/-- The head of the loop. A signal ends it. -/
def prepareFrame (now : Nat) (signal : Bool) (tx : FrameTx) : FrameTx :=
  if signal then { tx with phase := .finished }
  else
    nextChunk settings 0
      { tx with
        chunks := prepareChunks tx.iteration settings.numOfPacketsInChunk settings.numOfChunks 0
        sendTs := now }

/-- One chunk of the frame, and the packets that go out. -/
def sendChunk (chunk : Nat) (calls : ChunkSend) (tx : FrameTx) : FrameTx × List PacketHeader :=
  if calls.next ≠ .success then ({ tx with phase := .finished }, [])
  else
    -- only the last chunk of a frame is marked for tracking
    let isTracked := settings.trackCompletions && chunk + 1 == settings.numOfChunks
    let tx := if isTracked then { tx with token := tx.token + 1 } else tx
    if isTracked && calls.mark ≠ .success then ({ tx with phase := .finished }, [])
    else if calls.layout ≠ .success then ({ tx with phase := .finished }, [])
    else if calls.commit ≠ .success then ({ tx with phase := .finished }, [])
    else (nextChunk settings (chunk + 1) tx, tx.chunks.getD chunk [])

/-! ## Waiting for the reply -/

/-- `sizeof(receive_timing)`; the structure is packed. -/
def RECEIVE_TIMING_SIZE : Nat := 32

/-- `parse_receive_timing`. -/
def parseReceiveTiming (reply : ReplyPacket) : Option ReceiveTiming :=
  if reply.size ≠ RECEIVE_TIMING_SIZE then none else some reply.timing

/-- The polls for a completion, until one succeeds. -/
def pollForCompletion : List ReturnStatus → ReturnStatus → ReturnStatus
  | [], rc => rc
  | poll :: polls, _ => if poll = .success then poll else pollForCompletion polls poll

/-- The completion of the last chunk. `none` ends the loop. -/
def trackCompletion (poll : ReplyPoll) (tx : FrameTx) : Option FrameTx :=
  if !settings.trackCompletions then some tx
  else if pollForCompletion ((List.range settings.numOfChunks).map poll.completion) .success ≠
      .success then none
  else if poll.completionInfo ≠ .success then none
  else if poll.complToken + 1 ≠ tx.token then none
  else
    some { tx with
      txHwTimestamp := poll.txHwTimestamp
      -- the time of the reply is read with the reply
      rxHwTimestamp := if poll.reply.isSome then poll.rxHwTimestamp else tx.rxHwTimestamp }

/-- The rest of the loop, behind the last chunk. -/
def receiveReply (poll : ReplyPoll) (tx : FrameTx) : FrameTx :=
  if poll.rc ≠ .success then { tx with phase := .finished }
  else
    match trackCompletion settings poll tx with
    | none => { tx with phase := .finished }
    | some tx =>
      -- the interval is over: the reply at hand is dropped
      if poll.receiveTs > tx.startTimeNs + settings.measureIntervalSec * NS_IN_SEC then
        { tx with phase := .finished }
      -- the first turns are not looked at
      else if tx.skipPackets ≠ 0 then
        { tx with skipPackets := tx.skipPackets - 1, phase := .preparing }
      else
        match poll.reply with
        | none => { tx with phase := .preparing }
        | some reply =>
          match parseReceiveTiming reply with
          | none => { tx with phase := .finished }
          | some timing =>
            -- the iteration was counted up when the frame was sent
            if timing.iterNum + 1 ≠ tx.iteration then { tx with phase := .finished }
            else if !timing.valid then { tx with phase := .preparing }
            else
              { tx with
                phase := .preparing
                packetCnt := tx.packetCnt + 1
                measurements := tx.measurements ++
                  [⟨tx.sendTs, poll.receiveTs, tx.txHwTimestamp, tx.rxHwTimestamp, timing⟩] }

end FrameIONode

/-! ## What the statistics get -/

namespace FrameMeasurement

/-- The difference of two times as an `int64_t`. -/
def deltaNs (late early : Nat) : Int := Int.bmod (late - early) (2 ^ 64)

def totalTime (m : FrameMeasurement) : Int := deltaNs m.receiveTs m.sendTs

def commitToTxDone (m : FrameMeasurement) : Int := deltaNs m.txHwTimestamp m.sendTs

def commitToRxTs (m : FrameMeasurement) : Int := deltaNs m.rxHwTimestamp m.sendTs

def commitToRxFirst (m : FrameMeasurement) : Int := deltaNs m.timing.firstRxTs m.sendTs

def commitToRxLast (m : FrameMeasurement) : Int := deltaNs m.timing.lastRxTs m.sendTs

def commitToRxSoft (m : FrameMeasurement) : Int := deltaNs m.timing.softRxTs m.sendTs

def rxFirstHwToSoft (m : FrameMeasurement) : Int := deltaNs m.timing.softRxTs m.timing.firstRxTs

def softFeedback (m : FrameMeasurement) : Int := deltaNs m.receiveTs m.timing.softRxTs

theorem deltaNs_eq {late early : Nat} (hLate : late < 2 ^ 63) (hEarly : early < 2 ^ 63) :
    deltaNs late early = late - early := by
  refine Int.bmod_eq_of_le ?_ ?_
  · omega
  · omega

end FrameMeasurement

/-- A statistic of the client, after all its measurements. -/
def FrameTx.stats (tx : FrameTx) (value : FrameMeasurement → Int) : LatencyStats :=
  .ofValues (tx.measurements.map value)

namespace FrameIONode

/-! ## The frame -/

theorem preparePackets_eq (iteration : UInt32) (n : Nat) (pktId : UInt32) :
    preparePackets iteration n pktId =
      ((List.range n).map fun i => ⟨iteration, pktId + UInt32.ofNat i⟩,
        pktId + UInt32.ofNat n) := by
  induction n generalizing pktId with
  | zero => simp [preparePackets]
  | succ n ih =>
    have hShift (i : Nat) : pktId + 1 + UInt32.ofNat i = pktId + UInt32.ofNat (i + 1) := by
      rw [UInt32.ofNat_add, UInt32.add_assoc, UInt32.add_comm 1]
      rfl
    rw [preparePackets, ih, List.range_succ_eq_map, List.map_cons, List.map_map, hShift]
    refine Prod.ext (congrArg₂ List.cons (by simp) ?_) rfl
    exact List.map_congr_left fun i _ => by rw [hShift]; rfl

/-- The chunks of an iteration are its frame. -/
theorem flatten_prepareChunks (iteration : UInt32) (numOfPackets n : Nat) :
    (prepareChunks iteration numOfPackets n 0).flatten =
      preparedFrame (n * numOfPackets) iteration := by
  have hFrom (n first : Nat) :
      (prepareChunks iteration numOfPackets n (UInt32.ofNat first)).flatten =
      (List.range' first (n * numOfPackets)).map fun i => ⟨iteration, UInt32.ofNat i⟩ := by
    induction n generalizing first with
    | zero => simp [prepareChunks]
    | succ n ih =>
      rw [prepareChunks, preparePackets_eq, List.flatten_cons, ← UInt32.ofNat_add, ih,
        Nat.succ_mul, Nat.add_comm (n * numOfPackets), ← List.range'_append_1, List.map_append]
      refine congrArg (· ++ _) ?_
      rw [List.range'_eq_map_range, List.map_map]
      exact List.map_congr_left fun i _ => by simp [UInt32.ofNat_add]
  rw [preparedFrame, List.range_eq_range']
  exact hFrom n 0

theorem iterNum_of_mem_prepareChunks {iteration : UInt32} {numOfPackets n chunk : Nat}
    {header : PacketHeader}
    (h : header ∈ (prepareChunks iteration numOfPackets n 0).getD chunk []) :
    header.iterNum = iteration := by
  rw [List.getD_eq_getElem?_getD] at h
  cases hAt : (prepareChunks iteration numOfPackets n 0)[chunk]? with
  | none => simp [hAt] at h
  | some packets =>
    rw [hAt, Option.getD_some] at h
    have hFrame : header ∈ (prepareChunks iteration numOfPackets n 0).flatten :=
      List.mem_flatten_of_mem (List.mem_of_getElem? hAt) h
    rw [flatten_prepareChunks, preparedFrame] at hFrame
    obtain ⟨i, -, rfl⟩ := List.mem_map.mp hFrame
    rfl

/-! ## What a reply can do -/

section Reply

variable {settings : FrameSettings} {poll : ReplyPoll} {tx : FrameTx}

/-- The ways through the rest of the loop: it ends, the client goes on with the
next frame, or it counts the reply. -/
inductive ReplyOutcome (poll : ReplyPoll) (tx tx' : FrameTx) : Prop
  | stopped (hPhase : tx'.phase = .finished) (hKept : tx'.measurements = tx.measurements)
      (hCount : tx'.packetCnt = tx.packetCnt) (hSkip : tx'.skipPackets = tx.skipPackets)
  | passed (hPhase : tx'.phase = .preparing) (hIteration : tx'.iteration = tx.iteration)
      (hKept : tx'.measurements = tx.measurements) (hCount : tx'.packetCnt = tx.packetCnt)
      (hSkip : tx'.skipPackets = tx.skipPackets - 1)
  | counted (reply : ReplyPacket) (m : FrameMeasurement) (hReply : poll.reply = some reply)
      (hSize : reply.size = RECEIVE_TIMING_SIZE)
      (hDue : reply.timing.iterNum + 1 = tx.iteration) (hValid : reply.timing.valid = true)
      (hSkipped : tx.skipPackets = 0) (hTiming : m.timing = reply.timing)
      (hSent : m.sendTs = tx.sendTs) (hReceived : m.receiveTs = poll.receiveTs)
      (hPhase : tx'.phase = .preparing) (hIteration : tx'.iteration = tx.iteration)
      (hKept : tx'.measurements = tx.measurements ++ [m])
      (hCount : tx'.packetCnt = tx.packetCnt + 1) (hSkip : tx'.skipPackets = tx.skipPackets)

/-- The completion of a chunk tells the hardware times, and nothing else. -/
theorem trackCompletion_eq_some {tx' : FrameTx}
    (h : trackCompletion settings poll tx = some tx') :
    ∃ txTs rxTs, tx' = { tx with txHwTimestamp := txTs, rxHwTimestamp := rxTs } := by
  unfold trackCompletion at h
  split_ifs at h
  -- not tracked, a reply chunk with its time, an empty one
  · exact ⟨tx.txHwTimestamp, tx.rxHwTimestamp, (Option.some.inj h).symm⟩
  · exact ⟨_, _, (Option.some.inj h).symm⟩
  · exact ⟨_, _, (Option.some.inj h).symm⟩

theorem receiveReply_cases (settings : FrameSettings) (poll : ReplyPoll) (tx : FrameTx) :
    ReplyOutcome poll tx (receiveReply settings poll tx) := by
  unfold receiveReply
  split_ifs with hRc
  · exact .stopped rfl rfl rfl rfl
  cases hTrack : trackCompletion settings poll tx with
  | none => exact .stopped rfl rfl rfl rfl
  | some tracked =>
    obtain ⟨txTs, rxTs, rfl⟩ := trackCompletion_eq_some hTrack
    dsimp only
    split_ifs with hLate hSkip
    · exact .stopped rfl rfl rfl rfl
    · exact .passed rfl rfl rfl rfl rfl
    have hSkipped : tx.skipPackets = 0 := not_not.mp hSkip
    cases hReply : poll.reply with
    | none => exact .passed rfl rfl rfl rfl (by simp [hSkipped])
    | some reply =>
      -- a reply of another size, of another frame, of a damaged one, or a good one
      by_cases hSize : reply.size = RECEIVE_TIMING_SIZE
      · have hParse : parseReceiveTiming reply = some reply.timing := if_neg (not_not.mpr hSize)
        dsimp only
        rw [hParse]
        dsimp only
        split_ifs with hDue hValid
        · exact .stopped rfl rfl rfl rfl
        · exact .passed rfl rfl rfl rfl (by simp [hSkipped])
        · exact .counted reply _ hReply hSize (not_not.mp hDue) (by simpa using hValid) hSkipped
            rfl rfl rfl rfl rfl rfl rfl rfl
      · have hParse : parseReceiveTiming reply = none := if_pos hSize
        dsimp only
        rw [hParse]
        exact .stopped rfl rfl rfl rfl

end Reply

end FrameIONode
end RivermaxDevKit
