import RivermaxDevKit.Rtp.HeaderParsers

/-!
# Media receive latency node

`MediaRxIONode::receive_send` (`media_latency_io_node.cpp`): which reference time
it subtracts from the timestamp of a packet.

* `measured_of_run` — in a run without losses: the time `calculate_tro_trs` gives
  to the packet's place in its field, behind the start computed from the last
  packet of the field before.
-/

namespace RivermaxDevKit

open ByteStore

/-- A cast of a `double` to a signed integer. -/
def truncInt (x : ℚ) : Int := if 0 ≤ x then ⌊x⌋ else ⌈x⌉

theorem abs_truncInt_sub_lt (x : ℚ) : |(truncInt x : ℚ) - x| < 1 := by
  unfold truncInt
  rw [abs_lt]
  split
  · have := Int.floor_le x
    have := Int.lt_floor_add_one x
    constructor <;> linarith
  · have := Int.le_ceil x
    have := Int.ceil_lt_add_one x
    constructor <;> linarith

namespace MediaRxIONode

def WAIT_SERVER_RECEIVE_NSEC : Nat := 10000000
def WAIT_SERVER_INACT_NSEC : Nat := 20000000

inductive RxState
  | syncing
  | receiving
  | paused
  deriving DecidableEq, Repr

/-- A packet of a received chunk: its hardware timestamp, and the memory at its
first header byte. -/
structure RxPacket where
  timestamp : Nat
  bytes : Memory

/-- A chunk from `get_next_chunk`, and the clock. -/
structure RxChunk where
  packets : List RxPacket
  timeNowNs : Nat

/-- The variables of `receive_send`. -/
structure RxVariables where
  rxState : RxState := .syncing
  frameStartTs : Nat := 0
  frameFirstSeqNum : Nat := 0
  lastSeqNum : Nat := 0
  lastPacketTs : Nat
  droppedPktCnt : Nat := 0
  measureCnt : Nat := 0
  deriving DecidableEq, Repr

variable (m : MediaSettings)

/-- `calc_next_frame_start`. -/
def calcNextFrameStart (lastPktTs : Nat) : Nat :=
  let fields : Nat := if m.videoScanType = .Progressive then 1 else 2
  let tFrameNs := m.frameFieldTimeIntervalNs * fields
  let n := ⌊(lastPktTs : ℚ) / tFrameNs⌋₊ + 1
  ⌊n * tFrameNs⌋₊

/-- The time a packet is measured against. -/
def referenceTs (frameStartTs pktIdxInFrame : Nat) : Int :=
  truncInt (frameStartTs + (calculateTroTrs m).1 + (calculateTroTrs m).2 * pktIdxInFrame)

/-- The end of the loop body: the last packet of a field. -/
def handleMarker (param : RtpParam) (st : RxVariables) : RxVariables :=
  if param.mBit then
    { st with
      frameStartTs := calcNextFrameStart m st.lastPacketTs
      rxState := .receiving
      lastSeqNum := param.sequenceNumber
      frameFirstSeqNum := (param.sequenceNumber + 1) % 2 ^ 32 }
  else st

/-- The loop body for a packet: the time it is measured against, if it is, and
the variables behind it. The numbers wrap as `uint32_t` and `uint64_t`. -/
def receivePacket (p : RxPacket) (st : RxVariables) : Option Int × RxVariables :=
  let st := { st with lastPacketTs := p.timestamp }
  match getRtpParam p.bytes with
  | none => (none, st)
  | some param =>
    if st.rxState = .receiving then
      let expected := (st.lastSeqNum + 1) % 2 ^ 32
      let dropped :=
        if param.sequenceNumber ≠ expected then
          (st.droppedPktCnt + (param.sequenceNumber + 2 ^ 32 - expected) % 2 ^ 32) % 2 ^ 64
        else st.droppedPktCnt
      let pktIdxInFrame := (param.sequenceNumber + 2 ^ 32 - st.frameFirstSeqNum) % 2 ^ 32
      if m.packetsInFrameField ≤ pktIdxInFrame then
        -- the marker of this packet is not looked at
        (none, { st with droppedPktCnt := dropped, rxState := .syncing })
      else
        (some (referenceTs m st.frameStartTs pktIdxInFrame),
          handleMarker m param
            { st with
              droppedPktCnt := dropped
              measureCnt := st.measureCnt + 1
              lastSeqNum := param.sequenceNumber })
    else (none, handleMarker m param st)

def receivePackets : List RxPacket → RxVariables → List (Option Int) × RxVariables
  | [], st => ([], st)
  | p :: packets, st =>
    let first := receivePacket m p st
    let rest := receivePackets packets first.2
    (first.1 :: rest.1, rest.2)

/-- A chunk without packets: the stream pauses, and is given up. -/
def receiveNothing (timeNowNs : Nat) (st : RxVariables) : RxVariables :=
  let idle := (timeNowNs + 2 ^ 64 - st.lastPacketTs) % 2 ^ 64
  match st.rxState with
  | .syncing => st
  | .receiving => if WAIT_SERVER_RECEIVE_NSEC ≤ idle then { st with rxState := .paused } else st
  | .paused =>
    if idle ≤ WAIT_SERVER_INACT_NSEC then st
    else { st with rxState := .syncing, droppedPktCnt := 0, measureCnt := 0 }

/-- The loop of `receive_send`: for each packet the time it is measured
against. -/
def receiveSend : List RxChunk → RxVariables → List (Option Int) × RxVariables
  | [], st => ([], st)
  | chunk :: chunks, st =>
    let received :=
      if chunk.packets = [] then ([], receiveNothing chunk.timeNowNs st)
      else receivePackets m chunk.packets st
    let rest := receiveSend chunks received.2
    (received.1 ++ rest.1, rest.2)

/-! ## Runs without losses -/

/-- The packets of a stream of `perField` packets in a field, in order from
packet `first` on: consecutive sequence numbers from `s0`, a marker on the last
packet of each field. `marked k t` says that a time suits the last packet of
field `k`. -/
structure InOrder (perField s0 first : Nat) (marked : Nat → Nat → Prop)
    (packets : List RxPacket) : Prop where
  parsed : ∀ n p, packets[n]? = some p → ∃ timestamp fBit, getRtpParam p.bytes =
    some ⟨(s0 + (first + n)) % 2 ^ 32, timestamp,
      decide ((first + n) % perField + 1 = perField), fBit⟩
  marked_time : ∀ n p, packets[n]? = some p → (first + n) % perField + 1 = perField →
    marked ((first + n) / perField) p.timestamp

/-- In front of packet `next`: what a receiving node knows of the field. -/
def Synced (s0 : Nat) (marked : Nat → Nat → Prop) (next : Nat) (st : RxVariables) : Prop :=
  st.rxState = .receiving →
    st.frameFirstSeqNum =
        (s0 + next / m.packetsInFrameField * m.packetsInFrameField) % 2 ^ 32 ∧
      ∃ k t, next / m.packetsInFrameField = k + 1 ∧ marked k t ∧
        st.frameStartTs = calcNextFrameStart m t

/-- The reference of packet `i`, from the last packet of the field before. -/
def Measured (marked : Nat → Nat → Prop) (i : Nat) (reference : Int) : Prop :=
  ∃ k t, i / m.packetsInFrameField = k + 1 ∧ marked k t ∧
    reference = referenceTs m (calcNextFrameStart m t) (i % m.packetsInFrameField)

variable {m} {s0 first : Nat} {marked : Nat → Nat → Prop}

theorem InOrder.split {perField : Nat} {front back : List RxPacket}
    (h : InOrder perField s0 first marked (front ++ back)) :
    InOrder perField s0 first marked front ∧
      InOrder perField s0 (first + front.length) marked back := by
  have hFront {n : Nat} {p : RxPacket} (hAt : front[n]? = some p) :
      (front ++ back)[n]? = some p := by
    rwa [List.getElem?_append_left (List.getElem?_eq_some_iff.mp hAt).1]
  have hBack {n : Nat} {p : RxPacket} (hAt : back[n]? = some p) :
      (front ++ back)[front.length + n]? = some p := by
    rwa [List.getElem?_append_right (Nat.le_add_right _ _), Nat.add_sub_cancel_left]
  refine ⟨⟨?_, ?_⟩, ⟨?_, ?_⟩⟩
  · exact fun n p hAt => h.parsed n p (hFront hAt)
  · exact fun n p hAt => h.marked_time n p (hFront hAt)
  · intro n p hAt
    rw [Nat.add_assoc]
    exact h.parsed _ p (hBack hAt)
  · intro n p hAt
    rw [Nat.add_assoc]
    exact h.marked_time _ p (hBack hAt)

theorem InOrder.tail {perField : Nat} {p : RxPacket} {packets : List RxPacket}
    (h : InOrder perField s0 first marked (p :: packets)) :
    InOrder perField s0 (first + 1) marked packets :=
  (@InOrder.split s0 first marked perField [p] packets h).2

theorem synced_handleMarker {next : Nat} {param : RtpParam} {st : RxVariables}
    (hPackets : 0 < m.packetsInFrameField)
    (hSequence : param.sequenceNumber = (s0 + next) % 2 ^ 32)
    (hBit : param.mBit = decide (next % m.packetsInFrameField + 1 = m.packetsInFrameField))
    (hTime : next % m.packetsInFrameField + 1 = m.packetsInFrameField →
      marked (next / m.packetsInFrameField) st.lastPacketTs)
    (h : next % m.packetsInFrameField + 1 ≠ m.packetsInFrameField →
      Synced m s0 marked next st) :
    Synced m s0 marked (next + 1) (handleMarker m param st) := by
  have hPlace := Nat.mod_lt next hPackets
  have hDiv := WrapCounter.succ_div_eq hPlace
  by_cases hLast : next % m.packetsInFrameField + 1 = m.packetsInFrameField
  · rw [if_pos hLast] at hDiv
    intro _
    rw [handleMarker, if_pos (by rw [hBit]; exact decide_eq_true hLast), hDiv]
    refine ⟨?_, _, _, rfl, hTime hLast, rfl⟩
    -- behind a marker the next field starts with the next packet
    have hNext : (next / m.packetsInFrameField + 1) * m.packetsInFrameField = next + 1 := by
      have hSplit := Nat.div_add_mod' next m.packetsInFrameField
      rw [Nat.succ_mul]
      omega
    rw [hNext]
    show (param.sequenceNumber + 1) % 2 ^ 32 = _
    rw [hSequence, Nat.mod_add_mod, Nat.add_assoc]
  · rw [if_neg hLast] at hDiv
    -- within a field nothing changes
    have hSame := h hLast
    unfold Synced at hSame ⊢
    rw [handleMarker, if_neg (by rw [hBit, decide_eq_true_iff]; exact hLast), hDiv]
    exact hSame

/-- One packet: it is measured against its place, and the node stays in step. -/
theorem receivePacket_synced {next : Nat} {p : RxPacket} {st : RxVariables}
    (hPackets : 0 < m.packetsInFrameField) (hLimit : m.packetsInFrameField ≤ 2 ^ 32)
    (hParsed : ∃ timestamp fBit, getRtpParam p.bytes = some ⟨(s0 + next) % 2 ^ 32, timestamp,
      decide (next % m.packetsInFrameField + 1 = m.packetsInFrameField), fBit⟩)
    (hTime : next % m.packetsInFrameField + 1 = m.packetsInFrameField →
      marked (next / m.packetsInFrameField) p.timestamp)
    (h : Synced m s0 marked next st) :
    (∀ reference, (receivePacket m p st).1 = some reference → Measured m marked next reference) ∧
      Synced m s0 marked (next + 1) (receivePacket m p st).2 := by
  obtain ⟨timestamp, fBit, hParam⟩ := hParsed
  unfold receivePacket
  rw [hParam]
  by_cases hState : st.rxState = .receiving
  · obtain ⟨hFirst, k, t, hField, hMarked, hStart⟩ := h hState
    have hSplit := Nat.div_add_mod' next m.packetsInFrameField
    have hPlace := Nat.mod_lt next hPackets
    -- the place survives the wrap of the sequence number
    have hIndex : ((s0 + next) % 2 ^ 32 + 2 ^ 32 - st.frameFirstSeqNum) % 2 ^ 32 =
        next % m.packetsInFrameField := by
      rw [hFirst]
      omega
    simp only [hState, if_true, hIndex]
    rw [if_neg (by omega)]
    refine ⟨?_, ?_⟩
    · intro reference hReference
      obtain rfl := Option.some.inj hReference
      exact ⟨k, t, hField, hMarked, by rw [hStart]⟩
    · refine synced_handleMarker hPackets rfl rfl hTime fun _ => ?_
      intro _
      exact ⟨hFirst, k, t, hField, hMarked, hStart⟩
  · simp only [if_neg hState]
    -- a node that is syncing measures nothing, and waits for a marker
    refine ⟨nofun, ?_⟩
    refine synced_handleMarker hPackets rfl rfl hTime fun _ hReceiving => ?_
    exact absurd hReceiving hState

/-- Every packet of a stream in step is measured, and so is the next. -/
theorem receivePacket_receiving {next : Nat} {p : RxPacket} {st : RxVariables}
    (hPackets : 0 < m.packetsInFrameField) (hLimit : m.packetsInFrameField ≤ 2 ^ 32)
    (hParsed : ∃ timestamp fBit, getRtpParam p.bytes = some ⟨(s0 + next) % 2 ^ 32, timestamp,
      decide (next % m.packetsInFrameField + 1 = m.packetsInFrameField), fBit⟩)
    (h : Synced m s0 marked next st) :
    (st.rxState = .receiving → (receivePacket m p st).1.isSome ∧
        (receivePacket m p st).2.rxState = .receiving) ∧
      (next % m.packetsInFrameField + 1 = m.packetsInFrameField →
        (receivePacket m p st).2.rxState = .receiving) := by
  obtain ⟨timestamp, fBit, hParam⟩ := hParsed
  have hMarker (st' : RxVariables) (hState : st'.rxState = .receiving) (param : RtpParam) :
      (handleMarker m param st').rxState = .receiving := by
    unfold handleMarker
    split
    · rfl
    · exact hState
  unfold receivePacket
  rw [hParam]
  by_cases hState : st.rxState = .receiving
  · obtain ⟨hFirst, -⟩ := h hState
    have hSplit := Nat.div_add_mod' next m.packetsInFrameField
    have hPlace := Nat.mod_lt next hPackets
    have hIndex : ((s0 + next) % 2 ^ 32 + 2 ^ 32 - st.frameFirstSeqNum) % 2 ^ 32 =
        next % m.packetsInFrameField := by
      rw [hFirst]
      omega
    simp only [hState, if_true, hIndex]
    rw [if_neg (by omega)]
    exact ⟨fun _ => ⟨rfl, hMarker _ rfl _⟩, fun _ => hMarker _ rfl _⟩
  · simp only [if_neg hState]
    refine ⟨fun hReceiving => absurd hReceiving hState, fun hLast => ?_⟩
    unfold handleMarker
    rw [if_pos (decide_eq_true hLast)]

/-- A chunk of packets. -/
theorem receivePackets_synced (hPackets : 0 < m.packetsInFrameField)
    (hLimit : m.packetsInFrameField ≤ 2 ^ 32) (packets : List RxPacket) :
    ∀ {first : Nat} {st : RxVariables}, InOrder m.packetsInFrameField s0 first marked packets →
      Synced m s0 marked first st →
      (∀ n reference, (receivePackets m packets st).1[n]? = some (some reference) →
          Measured m marked (first + n) reference) ∧
        (receivePackets m packets st).1.length = packets.length ∧
        Synced m s0 marked (first + packets.length) (receivePackets m packets st).2 := by
  induction packets with
  | nil =>
    intro first st _ h
    exact ⟨by simp [receivePackets], rfl, h⟩
  | cons p packets ih =>
    intro first st hOrder h
    -- the packet leaves the node in step for the others
    obtain ⟨hMeasured, hNext⟩ := receivePacket_synced hPackets hLimit (hOrder.parsed 0 p rfl)
      (hOrder.marked_time 0 p rfl) h
    obtain ⟨hRest, hLength, hFinal⟩ := ih hOrder.tail hNext
    refine ⟨?_, congrArg Nat.succ hLength, ?_⟩
    · intro n reference hAt
      cases n with
      | zero => exact hMeasured reference (Option.some.inj hAt)
      | succ n =>
        rw [Nat.add_comm n, ← Nat.add_assoc]
        exact hRest n reference hAt
    · rw [List.length_cons, Nat.add_comm packets.length, ← Nat.add_assoc]
      exact hFinal

/-- A node in step measures every packet of a chunk. -/
theorem receivePackets_receiving (hPackets : 0 < m.packetsInFrameField)
    (hLimit : m.packetsInFrameField ≤ 2 ^ 32) (packets : List RxPacket) :
    ∀ {first : Nat} {st : RxVariables}, InOrder m.packetsInFrameField s0 first marked packets →
      Synced m s0 marked first st → st.rxState = .receiving →
      ∀ n, n < packets.length → ∃ reference,
        (receivePackets m packets st).1[n]? = some (some reference) := by
  induction packets with
  | nil => exact fun _ _ _ n hn => absurd hn (Nat.not_lt_zero n)
  | cons p packets ih =>
    intro first st hOrder h hState n hn
    have hParsed := hOrder.parsed 0 p rfl
    obtain ⟨hSome, hStays⟩ := (receivePacket_receiving hPackets hLimit hParsed h).1 hState
    cases n with
    | zero =>
      obtain ⟨reference, hReference⟩ := Option.isSome_iff_exists.mp hSome
      exact ⟨reference, congrArg some hReference⟩
    | succ n =>
      have hNext := (receivePacket_synced hPackets hLimit hParsed (hOrder.marked_time 0 p rfl) h).2
      exact ih hOrder.tail hNext hStays n (Nat.lt_of_succ_lt_succ hn)

theorem receiveNothing_synced {next : Nat} {st : RxVariables} (timeNowNs : Nat)
    (h : Synced m s0 marked next st) :
    Synced m s0 marked next (receiveNothing timeNowNs st) := by
  unfold receiveNothing
  cases hState : st.rxState with
  | syncing => exact h
  | receiving =>
    simp only
    split
    -- a node that pauses knows nothing of the field any more
    · exact nofun
    · exact h
  | paused =>
    simp only
    split
    · exact h
    · exact nofun

/-- The packets of a run, in order. -/
def packetsOf (chunks : List RxChunk) : List RxPacket := chunks.flatMap RxChunk.packets

/-- **Measured packets.** In a run without losses, cut into chunks and broken by
pauses in any way, every packet that is measured is measured against its place
in its field, behind the start computed from the field before. -/
theorem measured_of_run (hPackets : 0 < m.packetsInFrameField)
    (hLimit : m.packetsInFrameField ≤ 2 ^ 32) (chunks : List RxChunk) :
    ∀ {first : Nat} {st : RxVariables},
      InOrder m.packetsInFrameField s0 first marked (packetsOf chunks) →
      Synced m s0 marked first st →
      ∀ n reference, (receiveSend m chunks st).1[n]? = some (some reference) →
        Measured m marked (first + n) reference := by
  induction chunks with
  | nil =>
    intro first st _ _ n reference hAt
    simp [receiveSend] at hAt
  | cons chunk chunks ih =>
    intro first st hOrder h n reference hAt
    obtain ⟨hHere, hRest⟩ := InOrder.split hOrder
    by_cases hEmpty : chunk.packets = []
    · rw [hEmpty] at hRest
      rw [receiveSend] at hAt
      simp only [hEmpty, if_true, List.nil_append] at hAt
      -- nothing was received: no packet is lost by that either
      exact ih hRest (receiveNothing_synced _ h) n reference hAt
    · obtain ⟨hMeasured, hLength, hFinal⟩ :=
        receivePackets_synced hPackets hLimit chunk.packets hHere h
      rw [receiveSend] at hAt
      simp only [if_neg hEmpty] at hAt
      by_cases hFront : n < chunk.packets.length
      · rw [List.getElem?_append_left (by rw [hLength]; exact hFront)] at hAt
        exact hMeasured n reference hAt
      · rw [List.getElem?_append_right (by rw [hLength]; omega), hLength] at hAt
        have hLater := ih hRest hFinal (n - chunk.packets.length) reference hAt
        rwa [Nat.add_assoc, Nat.add_sub_cancel' (by omega)] at hLater

/-- Behind the last packet of a field every packet is measured. -/
theorem measured_behind_marker (hPackets : 0 < m.packetsInFrameField)
    (hLimit : m.packetsInFrameField ≤ 2 ^ 32) {p : RxPacket} {packets : List RxPacket}
    (hOrder : InOrder m.packetsInFrameField s0 first marked (p :: packets))
    (hLast : first % m.packetsInFrameField + 1 = m.packetsInFrameField)
    (timeNowNs lastPacketTs : Nat) {n : Nat} (hn : n < packets.length) :
    ∃ reference, (receiveSend m [⟨p :: packets, timeNowNs⟩]
      { lastPacketTs := lastPacketTs }).1[n + 1]? = some (some reference) := by
  -- a node that starts is syncing
  have hStart : Synced m s0 marked first { lastPacketTs := lastPacketTs } :=
    fun hState => by cases hState
  have hParsed := hOrder.parsed 0 p rfl
  have hNext := (receivePacket_synced hPackets hLimit hParsed (hOrder.marked_time 0 p rfl)
    hStart).2
  -- the marker puts it in step
  have hState := (receivePacket_receiving hPackets hLimit hParsed hStart).2 hLast
  obtain ⟨reference, hAt⟩ :=
    receivePackets_receiving hPackets hLimit packets hOrder.tail hNext hState n hn
  refine ⟨reference, ?_⟩
  rw [receiveSend]
  simp only [reduceCtorEq, if_false]
  rw [receiveSend, List.append_nil]
  exact hAt

end MediaRxIONode

end RivermaxDevKit
