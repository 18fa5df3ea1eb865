import Mathlib.Data.List.Basic
import Mathlib.Data.UInt
import Mathlib.Tactic.Common
import RivermaxDevKit.Latency.FrameClient
import RivermaxDevKit.Lib.StopAndWait

/-!
# Frame latency exchange

`FrameIONode::send_receive` and `FrameIONode::receive_send`
(`generic_latency_io_node.cpp`), with a network between them that may lose, delay,
repeat and reorder packets and replies.

* `Mirrors` — the client and the server as a stop and wait session.
* `Step.simulated` — every step of the two is what such a session may do.
* `counted_in_turn` — the replies that count are those of the frame just sent.
-/

namespace RivermaxDevKit
namespace FrameIONode

open StopAndWait

/-! ## The system -/

/-- The client, the server and all they sent so far. `prepared` has the times at
which the client prepared its frames, one after the other. -/
structure FrameExchange where
  clock : Nat
  prepared : List Nat := []
  tx : FrameTx
  rx : FrameRx := {}
  rxRunning : Bool := true
  wire : List (Nat × PacketHeader) := []
  replies : List (Nat × ReceiveTiming) := []

/-- The number of frames that the client prepared. -/
def FrameExchange.turns (s : FrameExchange) : Nat := s.prepared.length

/-- The reply is committed when the frame is received, and the next frame starts. -/
def serveChunk (packetsInFrame : Nat) (chunk : FrameChunk) (commit : ReturnStatus) (rx : FrameRx) :
    FrameRx × Option ReceiveTiming :=
  let rx := receiveChunk packetsInFrame chunk rx
  if rx.frameReceived then
    (startFrame rx, if commit = .success then some (composeReply rx) else none)
  else (rx, none)

/-- The loop of the server goes on behind these statuses of a commit. -/
def servesOn (packetsInFrame : Nat) (chunk : FrameChunk) (commit : ReturnStatus) (rx : FrameRx) :
    Bool :=
  !((receiveChunk packetsInFrame chunk rx).frameReceived &&
    (commit == .failure || commit == .signalReceived))

/-- A chunk of the server holds packets that were sent, and its completion has
the times of the first and the last of them. -/
structure FromWire (wire : List (Nat × PacketHeader)) (chunk : FrameChunk) : Prop where
  headers : ∀ header ∈ chunk.headers, ∃ t, (t, header) ∈ wire
  first : ∀ header ∈ chunk.headers.head?, ∃ t ≤ chunk.timestampFirst, (t, header) ∈ wire
  last : ∀ header ∈ chunk.headers.getLast?, ∃ t ≤ chunk.timestampLast, (t, header) ∈ wire
  seen : chunk.timestampFirst ≤ chunk.receiveTs ∧ chunk.timestampLast ≤ chunk.receiveTs

/-- A reply of the server, as a packet. -/
structure FromServer (replies : List (Nat × ReceiveTiming)) (reply : ReplyPacket) : Prop where
  size_eq : reply.size = RECEIVE_TIMING_SIZE
  sent : ∃ t, (t, reply.timing) ∈ replies

variable (settings : FrameSettings)

/-- One step of the client or of the server. Nothing that was sent is taken off
the network: it may come late, again, or never. -/
inductive Step : FrameExchange → FrameExchange → Prop
  | prepare {s : FrameExchange} {now : Nat} {signal : Bool} (hPhase : s.tx.phase = .preparing)
      (hClock : s.clock ≤ now) :
      Step s { s with
        clock := now
        prepared := if signal then s.prepared else s.prepared ++ [now]
        tx := prepareFrame settings now signal s.tx }
  | send {s : FrameExchange} {now chunk : Nat} {calls : ChunkSend}
      (hPhase : s.tx.phase = .sending chunk) (hClock : s.clock ≤ now) :
      Step s { s with
        clock := now
        tx := (sendChunk settings chunk calls s.tx).1
        wire := s.wire ++ (sendChunk settings chunk calls s.tx).2.map (now, ·) }
  | serve {s : FrameExchange} {chunk : FrameChunk} {commit : ReturnStatus}
      (hRunning : s.rxRunning = true) (hClock : s.clock ≤ chunk.receiveTs)
      (hSome : chunk.headers ≠ []) (hWire : FromWire s.wire chunk) :
      Step s { s with
        clock := chunk.receiveTs
        rx := (serveChunk settings.packetsInFrame chunk commit s.rx).1
        rxRunning := servesOn settings.packetsInFrame chunk commit s.rx
        replies := s.replies ++ (serveChunk settings.packetsInFrame chunk commit s.rx).2.toList.map
          (chunk.receiveTs, ·) }
  | stopServer {s : FrameExchange} : Step s { s with rxRunning := false }
  | receive {s : FrameExchange} {poll : ReplyPoll} (hPhase : s.tx.phase = .waiting)
      (hClock : s.clock ≤ poll.receiveTs)
      (hReply : ∀ reply ∈ poll.reply, FromServer s.replies reply) :
      Step s { s with
        clock := poll.receiveTs
        tx := receiveReply settings poll s.tx }

/-- A client and a server that start at this time. -/
def start (now : Nat) : FrameExchange where
  clock := now
  tx := { startTimeNs := now }

inductive Reachable : FrameExchange → Prop
  | start (now : Nat) : Reachable (start now)
  | step {s s' : FrameExchange} (h : Reachable s) (hStep : Step settings s s') : Reachable s'

variable {settings : FrameSettings}

/-! ## What the steps of the two do -/

theorem nextChunk_fields (chunk : Nat) (tx : FrameTx) :
    let tx' := nextChunk settings chunk tx
    tx'.sendTs = tx.sendTs ∧ tx'.chunks = tx.chunks ∧ tx'.measurements = tx.measurements ∧
      tx'.packetCnt = tx.packetCnt ∧ tx'.skipPackets = tx.skipPackets ∧
        ((∃ j, tx'.phase = .sending j ∧ tx'.iteration = tx.iteration) ∨
          tx'.phase = .waiting ∧ tx'.iteration = tx.iteration + 1) := by
  unfold nextChunk
  split_ifs
  · exact ⟨rfl, rfl, rfl, rfl, rfl, .inl ⟨chunk, rfl, rfl⟩⟩
  · exact ⟨rfl, rfl, rfl, rfl, rfl, .inr ⟨rfl, rfl⟩⟩

/-- A chunk ends the client, or goes out. -/
theorem sendChunk_cases (chunk : Nat) (calls : ChunkSend) (tx : FrameTx) :
    (∃ token, sendChunk settings chunk calls tx =
        ({ tx with token := token, phase := .finished }, [])) ∨
      ∃ token, sendChunk settings chunk calls tx =
        (nextChunk settings (chunk + 1) { tx with token := token }, tx.chunks.getD chunk []) := by
  unfold sendChunk
  by_cases hTracked : (settings.trackCompletions && chunk + 1 == settings.numOfChunks) = true
  · simp only [hTracked, if_true, Bool.true_and]
    split_ifs
    · exact .inl ⟨tx.token, rfl⟩
    · exact .inl ⟨tx.token + 1, rfl⟩
    · exact .inl ⟨tx.token + 1, rfl⟩
    · exact .inl ⟨tx.token + 1, rfl⟩
    · exact .inr ⟨tx.token + 1, rfl⟩
  · simp only [Bool.eq_false_iff.mpr hTracked, Bool.false_eq_true, if_false, Bool.false_and]
    split_ifs
    · exact .inl ⟨tx.token, rfl⟩
    · exact .inl ⟨tx.token, rfl⟩
    · exact .inl ⟨tx.token, rfl⟩
    · exact .inr ⟨tx.token, rfl⟩

/-- A frame is received with a last packet, and has its iteration. -/
theorem rxIteration_parseHeaders {packetsInFrame : Nat} (headers : List PacketHeader) {st : FrameRx}
    (hSome : ∃ header ∈ headers, IsLast packetsInFrame header) :
    ∃ header ∈ headers, IsLast packetsInFrame header ∧
      (parseHeaders packetsInFrame headers st).rxIteration = header.iterNum := by
  induction headers generalizing st with
  | nil =>
    obtain ⟨header, hMem, -⟩ := hSome
    cases hMem
  | cons header headers ih =>
    by_cases hLater : ∃ other ∈ headers, IsLast packetsInFrame other
    · obtain ⟨other, hMem, hLast, hIs⟩ :=
        @ih (parseHeader packetsInFrame header headers.isEmpty st) hLater
      exact ⟨other, List.mem_cons_of_mem _ hMem, hLast, hIs⟩
    · obtain ⟨other, hMem, hLast⟩ := hSome
      rcases List.mem_cons.mp hMem with rfl | hMem
      · refine ⟨other, List.mem_cons_self, hLast, ?_⟩
        have hHere := (parseHeader_of_last hLast headers.isEmpty st).2.1
        -- the packets behind it change nothing
        have hBehind (packets : List PacketHeader) (st : FrameRx)
            (hNone : ∀ packet ∈ packets, ¬ IsLast packetsInFrame packet) :
            (parseHeaders packetsInFrame packets st).rxIteration = st.rxIteration := by
          induction packets generalizing st with
          | nil => rfl
          | cons packet packets ihPackets =>
            obtain ⟨hThis, hRest⟩ := List.forall_mem_cons.mp hNone
            exact (ihPackets _ hRest).trans (parseHeader_of_not_last hThis _ st).2.1
        exact (hBehind headers _ fun packet hPacket hIs => hLater
          ⟨packet, hPacket, hIs⟩).trans hHere
      · exact absurd ⟨other, hMem, hLast⟩ hLater

/-- The headers tell no time. -/
theorem times_parseHeaders {packetsInFrame : Nat} (headers : List PacketHeader) (st : FrameRx) :
    let st' := parseHeaders packetsInFrame headers st
    st'.receiveTs = st.receiveTs ∧ st'.frameStart = st.frameStart ∧
      st'.firstPacketTs = st.firstPacketTs := by
  induction headers generalizing st with
  | nil => exact ⟨rfl, rfl, rfl⟩
  | cons header headers ih =>
    obtain ⟨hReceive, hStart, hFirst⟩ := ih (parseHeader packetsInFrame header headers.isEmpty st)
    have hHere : (parseHeader packetsInFrame header headers.isEmpty st).receiveTs = st.receiveTs ∧
        (parseHeader packetsInFrame header headers.isEmpty st).frameStart = st.frameStart ∧
        (parseHeader packetsInFrame header headers.isEmpty st).firstPacketTs =
          st.firstPacketTs := by
      unfold parseHeader
      dsimp only
      split_ifs <;> exact ⟨rfl, rfl, rfl⟩
    exact ⟨hReceive.trans hHere.1, hStart.trans hHere.2.1, hFirst.trans hHere.2.2⟩

theorem receiveChunk_times {packetsInFrame : Nat} (chunk : FrameChunk) (st : FrameRx) :
    let st' := receiveChunk packetsInFrame chunk st
    st'.receiveTs = chunk.receiveTs ∧ st'.frameStart = false ∧
      st'.firstPacketTs = (if st.frameStart then chunk.timestampFirst else st.firstPacketTs) ∧
        (st'.frameReceived = true → st'.lastPacketTs = chunk.timestampLast) := by
  obtain ⟨hReceive, hStart, hFirst⟩ := @times_parseHeaders packetsInFrame chunk.headers
    { st with receiveTs := chunk.receiveTs, valid := true }
  unfold receiveChunk parsePacketHeaders
  dsimp only
  generalize parseHeaders packetsInFrame chunk.headers
    { st with receiveTs := chunk.receiveTs, valid := true } = parsed at hReceive hStart hFirst ⊢
  -- the first chunk of a frame, and the one that ends it
  by_cases hOn : st.frameStart = true
  · have hParsed := hStart.trans hOn
    by_cases hReceived : parsed.frameReceived = true
    · simp [hParsed, hReceived, hReceive, hOn]
    · simp [hParsed, hReceived, hReceive, hOn]
  · have hParsed := hStart.trans (Bool.eq_false_iff.mpr hOn)
    by_cases hReceived : parsed.frameReceived = true
    · simp [hParsed, hReceived, hReceive, hFirst, hOn]
    · simp [hParsed, hReceived, hReceive, hFirst, hOn]

/-- What a reply tells of the chunk that ended its frame. -/
structure RepliesTo (packetsInFrame : Nat) (chunk : FrameChunk) (timing : ReceiveTiming) :
    Prop where
  softRxTs_eq : timing.softRxTs = chunk.receiveTs
  lastRxTs_eq : timing.lastRxTs = chunk.timestampLast
  iteration : ∃ header ∈ chunk.headers, IsLast packetsInFrame header ∧
    timing.iterNum = header.iterNum
  whole : timing.valid = true → ∃ header ∈ chunk.headers.getLast?,
    timing.iterNum = header.iterNum

/-- A chunk without a last packet is kept for later; one with it may be answered,
and the next frame starts. -/
theorem serveChunk_cases {packetsInFrame : Nat} {chunk : FrameChunk} {commit : ReturnStatus}
    {rx : FrameRx} (hOn : rx.frameReceived = false) :
    (serveChunk packetsInFrame chunk commit rx).1.frameReceived = false ∧
      ∀ timing ∈ (serveChunk packetsInFrame chunk commit rx).2,
        RepliesTo packetsInFrame chunk timing := by
  unfold serveChunk
  dsimp only
  split_ifs with hReceived hCommit
  · refine ⟨rfl, fun timing hTiming => ?_⟩
    obtain rfl := Option.some.inj hTiming
    obtain ⟨hReceivedField, hValid, hIteration, -⟩ :=
      @receiveChunk_fields packetsInFrame chunk rx
    obtain ⟨hReceiveTs, -, -, hLast⟩ := @receiveChunk_times packetsInFrame chunk rx
    -- a frame is received in this chunk, or it had been before
    have hSome : ∃ header ∈ chunk.headers, IsLast packetsInFrame header := by
      by_contra hNone
      have hKept := parseHeaders_of_no_last chunk.headers
        (fun header hMem hIs => hNone ⟨header, hMem, hIs⟩)
        { rx with receiveTs := chunk.receiveTs, valid := true }
      rw [hReceivedField, hKept.1] at hReceived
      exact absurd hReceived (Bool.eq_false_iff.mp hOn)
    refine ⟨hReceiveTs, hLast hReceived, ?_, fun h => ?_⟩
    · obtain ⟨header, hMem, hIs, hIter⟩ := rxIteration_parseHeaders chunk.headers hSome
      exact ⟨header, hMem, hIs, hIteration.trans hIter⟩
    · -- a whole frame ends the chunk
      obtain ⟨front, header, hSplit, -, hIter⟩ := (valid_parseHeaders chunk.headers hSome _).2.2
        (hValid.symm.trans h)
      refine ⟨header, ?_, hIteration.trans hIter⟩
      rw [hSplit, List.getLast?_concat]
      rfl
  · exact ⟨rfl, nofun⟩
  · exact ⟨Bool.eq_false_iff.mpr hReceived, nofun⟩

/-! ## Stop and wait -/

/-- The iteration that the client is in, between the head of the loop and the
reply. -/
def inIteration (tx : FrameTx) : Option UInt32 :=
  match tx.phase with
  | .sending _ => some tx.iteration
  | .waiting => some (tx.iteration - 1)
  | _ => none

/-- A measurement as an answer that was taken. -/
def takenOf (m : FrameMeasurement) : Taken Nat where
  round := m.timing.iterNum.toNat
  answeredAt := m.timing.softRxTs
  takenAt := m.receiveTs

/-- The times of a measurement, in a session. -/
structure TimedIn (a : Session Nat) (m : FrameMeasurement) : Prop where
  opened : a.opened[m.timing.iterNum.toNat]? = some m.sendTs
  late : DEFAULT_SKIP_PACKETS ≤ m.timing.iterNum.toNat
  last : m.sendTs ≤ m.timing.lastRxTs ∧ m.timing.lastRxTs ≤ m.timing.softRxTs

/-- What the client and the server did is a stop and wait session: a frame opens
a round, and a reply answers it. -/
structure Mirrors (settings : FrameSettings) (s : FrameExchange) (a : Session Nat) : Prop where
  clock_eq : a.clock = s.clock
  opened_eq : a.opened = s.prepared
  preparing : s.tx.phase = .preparing → s.tx.iteration = UInt32.ofNat s.turns
  sending : ∀ j, s.tx.phase = .sending j → s.tx.chunks =
    prepareChunks s.tx.iteration settings.numOfPacketsInChunk settings.numOfChunks 0
  turn : ∀ iteration, inIteration s.tx = some iteration → ∃ k, k + 1 = s.turns ∧
    iteration = UInt32.ofNat k ∧ a.opened[k]? = some s.tx.sendTs ∧
      (∀ b ∈ a.taken, b.round < k) ∧
        s.tx.packetCnt + (DEFAULT_SKIP_PACKETS - s.tx.skipPackets) ≤ k
  wire : ∀ t header, (t, header) ∈ s.wire → ∃ k t₀, a.opened[k]? = some t₀ ∧ t₀ ≤ t ∧
    header.iterNum = UInt32.ofNat k
  serving : s.rx.frameReceived = false
  replies : ∀ t timing, (t, timing) ∈ s.replies → ∃ k t₀, a.opened[k]? = some t₀ ∧
    (k, timing.softRxTs) ∈ a.answers ∧ timing.iterNum = UInt32.ofNat k ∧
      (timing.valid = true → t₀ ≤ timing.lastRxTs ∧ timing.lastRxTs ≤ timing.softRxTs)
  taken_eq : a.taken = s.tx.measurements.map takenOf
  timed : ∀ m ∈ s.tx.measurements, TimedIn a m
  count_eq : s.tx.packetCnt = s.tx.measurements.length
  count_le : s.tx.packetCnt + (DEFAULT_SKIP_PACKETS - s.tx.skipPackets) ≤ s.turns
  skipped : s.tx.skipPackets ≤ DEFAULT_SKIP_PACKETS ∧
    (s.tx.packetCnt ≠ 0 → s.tx.skipPackets = 0)

theorem Mirrors.turns_eq {s : FrameExchange} {a : Session Nat} (h : Mirrors settings s a) :
    a.opened.length = s.turns := congrArg List.length h.opened_eq

theorem mirrors_start (now : Nat) : Mirrors settings (start now) (.start now) where
  clock_eq := rfl
  opened_eq := rfl
  preparing := fun _ => rfl
  sending := nofun
  turn := nofun
  wire := nofun
  serving := rfl
  replies := nofun
  taken_eq := rfl
  timed := nofun
  count_eq := rfl
  count_le := Nat.le_refl _
  skipped := ⟨Nat.le_refl _, fun h => absurd rfl h⟩

/-- Rounds below `2 ^ 32` keep their numbers. -/
theorem toNat_ofNat_of_lt {k : Nat} (hk : k < 2 ^ 32) : (UInt32.ofNat k).toNat = k :=
  UInt32.toNat_ofNat_of_lt' hk

theorem eq_of_iterNum {k l n : Nat} (hk : k < n) (hl : l < n) (hn : n ≤ 2 ^ 32)
    (h : UInt32.ofNat k = UInt32.ofNat l) : k = l := by
  have hNat := congrArg UInt32.toNat h
  rwa [toNat_ofNat_of_lt (by omega), toNat_ofNat_of_lt (by omega)] at hNat

section Simulation

variable {s : FrameExchange} {a : Session Nat}

/-- A later look at the clock. -/
theorem Mirrors.wait (h : Mirrors settings s a) (now : Nat) :
    Mirrors settings { s with clock := now } (a.wait now) where
  clock_eq := rfl
  opened_eq := h.opened_eq
  preparing := h.preparing
  sending := h.sending
  turn := h.turn
  wire := h.wire
  serving := h.serving
  replies := h.replies
  taken_eq := h.taken_eq
  timed := fun m hm => ⟨(h.timed m hm).opened, (h.timed m hm).late, (h.timed m hm).last⟩
  count_eq := h.count_eq
  count_le := h.count_le
  skipped := h.skipped

/-- The client leaves its loop. -/
theorem Mirrors.finish (h : Mirrors settings s a) {tx : FrameTx} (hPhase : tx.phase = .finished)
    (hKept : tx.measurements = s.tx.measurements) (hCount : tx.packetCnt = s.tx.packetCnt)
    (hSkip : tx.skipPackets = s.tx.skipPackets) : Mirrors settings { s with tx := tx } a where
  clock_eq := h.clock_eq
  opened_eq := h.opened_eq
  preparing := fun hOther => by cases hPhase.symm.trans hOther
  sending := fun _ hOther => by cases hPhase.symm.trans hOther
  turn := fun _ hTurn => by simp [inIteration, hPhase] at hTurn
  wire := h.wire
  serving := h.serving
  replies := h.replies
  taken_eq := hKept ▸ h.taken_eq
  timed := hKept ▸ h.timed
  count_eq := by
    show tx.packetCnt = tx.measurements.length
    rw [hCount, hKept, h.count_eq]
  count_le := by
    show tx.packetCnt + (DEFAULT_SKIP_PACKETS - tx.skipPackets) ≤ s.turns
    rw [hCount, hSkip]
    exact h.count_le
  skipped := by
    show tx.skipPackets ≤ DEFAULT_SKIP_PACKETS ∧ (tx.packetCnt ≠ 0 → tx.skipPackets = 0)
    rw [hCount, hSkip]
    exact h.skipped

/-- The turn is the same before and behind `nextChunk`. -/
theorem inIteration_nextChunk (chunk : Nat) (tx : FrameTx) :
    inIteration (nextChunk settings chunk tx) = some tx.iteration := by
  unfold nextChunk inIteration
  split_ifs
  · rfl
  · show some (tx.iteration + 1 - 1) = _
    rw [UInt32.add_sub_cancel]

theorem phase_nextChunk_ne (chunk : Nat) (tx : FrameTx) :
    (nextChunk settings chunk tx).phase ≠ .preparing := by
  unfold nextChunk
  split_ifs <;> exact nofun

theorem Mirrors.prepare (h : Mirrors settings s a) (hOrderly : a.Orderly)
    (hPhase : s.tx.phase = .preparing) (now : Nat) :
    Mirrors settings
      { s with
        clock := now
        prepared := s.prepared ++ [now]
        tx := prepareFrame settings now false s.tx } (a.openRound now) := by
  obtain ⟨hSent, hChunks, hKept, hCount, hSkip, hNext⟩ := @nextChunk_fields settings 0
    { s.tx with
      chunks := prepareChunks s.tx.iteration settings.numOfPacketsInChunk settings.numOfChunks 0
      sendTs := now }
  have hPacketCnt : (prepareFrame settings now false s.tx).packetCnt = s.tx.packetCnt := hCount
  have hSkipPackets : (prepareFrame settings now false s.tx).skipPackets = s.tx.skipPackets :=
    hSkip
  have hOld {k t₀ : Nat} (hAt : a.opened[k]? = some t₀) :
      (a.openRound now).opened[k]? = some t₀ :=
    (List.getElem?_append_left (List.getElem?_eq_some_iff.mp hAt).1).trans hAt
  have hNew : (a.openRound now).opened[s.turns]? = some now := by
    rw [← h.turns_eq, Session.openRound, List.getElem?_append_right (Nat.le_refl _), Nat.sub_self]
    rfl
  refine
    { clock_eq := rfl, opened_eq := ?_, preparing := ?_, sending := ?_, turn := ?_, wire := ?_,
      serving := h.serving, replies := ?_, taken_eq := ?_, timed := ?_, count_eq := ?_,
      count_le := ?_, skipped := ?_ }
  · rw [Session.openRound, h.opened_eq]
  · exact fun hOther => absurd hOther (phase_nextChunk_ne 0 _)
  · -- its chunks are those of its iteration
    intro j hj
    rcases hNext with ⟨i, -, hIteration⟩ | ⟨hWaiting, -⟩
    · exact hChunks.trans (by rw [show (prepareFrame settings now false s.tx).iteration = _ from
        hIteration])
    · cases hj.symm.trans hWaiting
  · -- the round that is opened is the last, so nothing was taken of it
    intro iteration hTurn
    obtain rfl := Option.some.inj ((inIteration_nextChunk 0 _).symm.trans hTurn)
    have hTurns : s.turns + 1 = (s.prepared ++ [now]).length := by
      rw [List.length_append]
      rfl
    refine ⟨s.turns, hTurns, h.preparing hPhase, ?_, fun b hb => ?_, ?_⟩
    · rw [show (prepareFrame settings now false s.tx).sendTs = now from hSent]
      exact hNew
    · rw [← h.turns_eq]
      exact hOrderly.round_lt hb
    · rw [hPacketCnt, hSkipPackets]
      exact h.count_le
  · -- what was sent and answered is of the rounds before
    intro t header hMem
    obtain ⟨k, t₀, hAt, hRest⟩ := h.wire t header hMem
    exact ⟨k, t₀, hOld hAt, hRest⟩
  · intro t timing hMem
    obtain ⟨k, t₀, hAt, hRest⟩ := h.replies t timing hMem
    exact ⟨k, t₀, hOld hAt, hRest⟩
  · exact h.taken_eq.trans (congrArg (List.map takenOf) hKept.symm)
  · intro m hm
    have hTimed := h.timed m (hKept ▸ hm)
    exact ⟨hOld hTimed.opened, hTimed.late, hTimed.last⟩
  · exact hCount.trans (h.count_eq.trans (congrArg List.length hKept.symm))
  · show (prepareFrame settings now false s.tx).packetCnt +
      (DEFAULT_SKIP_PACKETS - (prepareFrame settings now false s.tx).skipPackets) ≤
        (s.prepared ++ [now]).length
    rw [hPacketCnt, hSkipPackets]
    rw [List.length_append]
    exact Nat.le_succ_of_le h.count_le
  · show (prepareFrame settings now false s.tx).skipPackets ≤ DEFAULT_SKIP_PACKETS ∧
      ((prepareFrame settings now false s.tx).packetCnt ≠ 0 →
        (prepareFrame settings now false s.tx).skipPackets = 0)
    rw [hPacketCnt, hSkipPackets]
    exact h.skipped

/-- A chunk goes out: its packets are of the round that is open. -/
theorem Mirrors.send (h : Mirrors settings s a) (hOrderly : a.Orderly) {chunk : Nat}
    (hPhase : s.tx.phase = .sending chunk) {now : Nat} (hClock : s.clock ≤ now) (token : UInt64) :
    Mirrors settings
      { s with
        clock := now
        tx := nextChunk settings (chunk + 1) { s.tx with token := token }
        wire := s.wire ++ (s.tx.chunks.getD chunk []).map (now, ·) } (a.wait now) := by
  obtain ⟨hSent, hChunks, hKept, hCount, hSkip, hNext⟩ :=
    @nextChunk_fields settings (chunk + 1) { s.tx with token := token }
  have hIn : inIteration s.tx = some s.tx.iteration := by simp [inIteration, hPhase]
  obtain ⟨k, hk, hIteration, hAt, hBefore, hLe⟩ := h.turn _ hIn
  refine
    { clock_eq := rfl, opened_eq := h.opened_eq, preparing := ?_, sending := ?_, turn := ?_,
      wire := ?_, serving := h.serving, replies := h.replies, taken_eq := ?_, timed := ?_,
      count_eq := ?_, count_le := ?_, skipped := ?_ }
  · exact fun hOther => absurd hOther (phase_nextChunk_ne _ _)
  · intro j hj
    rcases hNext with ⟨i, -, hSame⟩ | ⟨hWaiting, -⟩
    · refine hChunks.trans ((h.sending _ hPhase).trans ?_)
      exact congrArg (prepareChunks · settings.numOfPacketsInChunk settings.numOfChunks 0)
        hSame.symm
    · cases hj.symm.trans hWaiting
  · -- the round stays open, also behind the last chunk
    intro iteration hTurn
    obtain rfl := Option.some.inj ((inIteration_nextChunk _ _).symm.trans hTurn)
    refine ⟨k, hk, hIteration, ?_, hBefore, ?_⟩
    · exact hAt.trans (congrArg some hSent.symm)
    · rw [hCount, hSkip]
      exact hLe
  · intro t header hMem
    rcases List.mem_append.mp hMem with hOld | hNew
    · exact h.wire t header hOld
    · obtain ⟨packet, hPacket, hPair⟩ := List.mem_map.mp hNew
      obtain ⟨rfl, rfl⟩ := Prod.mk.inj hPair
      rw [h.sending _ hPhase] at hPacket
      refine ⟨k, s.tx.sendTs, hAt, ?_, (iterNum_of_mem_prepareChunks hPacket).trans hIteration⟩
      -- the frame was begun before
      have hPast := hOrderly.openedPast _ (List.mem_of_getElem? hAt)
      rw [h.clock_eq] at hPast
      exact hPast.trans hClock
  · exact h.taken_eq.trans (congrArg (List.map takenOf) hKept.symm)
  · intro m hm
    have hTimed := h.timed m (hKept ▸ hm)
    exact ⟨hTimed.opened, hTimed.late, hTimed.last⟩
  · exact hCount.trans (h.count_eq.trans (congrArg List.length hKept.symm))
  · rw [hCount, hSkip]
    exact h.count_le
  · rw [hCount, hSkip]
    exact h.skipped

/-- The server keeps a chunk for later, or does not answer it. -/
theorem Mirrors.keep (h : Mirrors settings s a) {rx : FrameRx} (hServing : rx.frameReceived = false)
    (running : Bool) : Mirrors settings { s with rx := rx, rxRunning := running } a :=
  { clock_eq := h.clock_eq, opened_eq := h.opened_eq, preparing := h.preparing,
    sending := h.sending, turn := h.turn, wire := h.wire, serving := hServing,
    replies := h.replies, taken_eq := h.taken_eq, timed := h.timed, count_eq := h.count_eq,
    count_le := h.count_le, skipped := h.skipped }

/-- The round that a chunk answers, and when it was opened. -/
theorem Mirrors.round_of_repliesTo (h : Mirrors settings s a) {chunk : FrameChunk}
    (hWire : FromWire s.wire chunk) {timing : ReceiveTiming}
    (hTo : RepliesTo settings.packetsInFrame chunk timing) :
    ∃ k t₀, a.opened[k]? = some t₀ ∧ timing.iterNum = UInt32.ofNat k ∧
      (timing.valid = true → t₀ ≤ timing.lastRxTs ∧ timing.lastRxTs ≤ timing.softRxTs) := by
  by_cases hValid : timing.valid = true
  · -- the last packet ends the chunk, and its time is that of the chunk
    obtain ⟨header, hLast, hIter⟩ := hTo.whole hValid
    obtain ⟨t, hLe, hSent⟩ := hWire.last header hLast
    obtain ⟨k, t₀, hAt, hAfter, hOwn⟩ := h.wire t header hSent
    refine ⟨k, t₀, hAt, hIter.trans hOwn, fun _ => ?_⟩
    rw [hTo.lastRxTs_eq, hTo.softRxTs_eq]
    exact ⟨hAfter.trans hLe, hWire.seen.2⟩
  · -- without the flag only the iteration is known
    obtain ⟨header, hMem, -, hIter⟩ := hTo.iteration
    obtain ⟨t, hSent⟩ := hWire.headers header hMem
    obtain ⟨k, t₀, hAt, -, hOwn⟩ := h.wire t header hSent
    exact ⟨k, t₀, hAt, hIter.trans hOwn, fun hOther => absurd hOther hValid⟩

/-- The server answers a round that was opened. -/
theorem Mirrors.reply (h : Mirrors settings s a) {k t₀ now : Nat} {timing : ReceiveTiming}
    {rx : FrameRx} (hServing : rx.frameReceived = false) (running : Bool)
    (hAt : a.opened[k]? = some t₀) (hIter : timing.iterNum = UInt32.ofNat k)
    (hValid : timing.valid = true → t₀ ≤ timing.lastRxTs ∧ timing.lastRxTs ≤ timing.softRxTs)
    (hSoft : timing.softRxTs = now) :
    Mirrors settings
      { s with
        clock := now
        rx := rx
        rxRunning := running
        replies := s.replies ++ [(now, timing)] } (a.answer k now) :=
  { clock_eq := rfl, opened_eq := h.opened_eq, preparing := h.preparing,
    sending := h.sending, turn := h.turn, wire := h.wire, serving := hServing,
    replies := by
      intro t other hMem
      rcases List.mem_append.mp hMem with hOld | hNew
      · obtain ⟨l, t₁, hAtOld, hAnswer, hRest⟩ := h.replies t other hOld
        exact ⟨l, t₁, hAtOld, List.mem_append_left _ hAnswer, hRest⟩
      · -- the reply just sent
        obtain ⟨rfl, rfl⟩ := Prod.mk.inj (List.mem_singleton.mp hNew)
        refine ⟨k, t₀, hAt, List.mem_append_right a.answers ?_, hIter, hValid⟩
        rw [hSoft]
        exact List.mem_singleton_self _
    taken_eq := h.taken_eq
    timed := fun m hm => ⟨(h.timed m hm).opened, (h.timed m hm).late, (h.timed m hm).last⟩
    count_eq := h.count_eq
    count_le := h.count_le
    skipped := h.skipped }

/-- A turn that counts nothing is over. -/
theorem Mirrors.pass (h : Mirrors settings s a) (hPhase : s.tx.phase = .waiting) {tx : FrameTx}
    (hNext : tx.phase = .preparing) (hIteration : tx.iteration = s.tx.iteration)
    (hKept : tx.measurements = s.tx.measurements) (hCount : tx.packetCnt = s.tx.packetCnt)
    (hSkip : tx.skipPackets = s.tx.skipPackets - 1) : Mirrors settings { s with tx := tx } a := by
  have hIn : inIteration s.tx = some (s.tx.iteration - 1) := by simp [inIteration, hPhase]
  obtain ⟨k, hk, hRound, -, -, hLe⟩ := h.turn _ hIn
  -- the iteration was counted up behind the last chunk
  have hOver : s.tx.iteration = UInt32.ofNat s.turns := by
    rw [← hk, UInt32.ofNat_add, ← hRound]
    exact (UInt32.sub_add_cancel _ _).symm
  exact
    { clock_eq := h.clock_eq, opened_eq := h.opened_eq,
      preparing := fun _ => hIteration.trans hOver,
      sending := fun _ hOther => FramePhase.noConfusion (hNext.symm.trans hOther),
      turn := fun _ hTurn => by simp [inIteration, hNext] at hTurn,
      wire := h.wire, serving := h.serving, replies := h.replies,
      taken_eq := hKept ▸ h.taken_eq, timed := hKept ▸ h.timed,
      count_eq := by
        show tx.packetCnt = tx.measurements.length
        rw [hCount, hKept, h.count_eq],
      count_le := by
        show tx.packetCnt + (DEFAULT_SKIP_PACKETS - tx.skipPackets) ≤ s.turns
        rw [hCount, hSkip]
        omega,
      skipped := by
        obtain ⟨hMost, hNone⟩ := h.skipped
        refine ⟨?_, fun hSome => ?_⟩
        · show tx.skipPackets ≤ _
          omega
        · show tx.skipPackets = 0
          have hZero := hNone (hCount ▸ hSome)
          omega }

/-- The client takes the answer to the round that is open, for the first time. -/
theorem Mirrors.take (h : Mirrors settings s a) (hPhase : s.tx.phase = .waiting)
    (hTurns : s.turns ≤ 2 ^ 32) {tx : FrameTx} {m : FrameMeasurement} {t : Nat}
    (hSentReply : (t, m.timing) ∈ s.replies) (hDue : m.timing.iterNum + 1 = s.tx.iteration)
    (hValid : m.timing.valid = true) (hSkipped : s.tx.skipPackets = 0)
    (hSent : m.sendTs = s.tx.sendTs) (hNext : tx.phase = .preparing)
    (hIteration : tx.iteration = s.tx.iteration)
    (hKept : tx.measurements = s.tx.measurements ++ [m])
    (hCount : tx.packetCnt = s.tx.packetCnt + 1) (hSkip : tx.skipPackets = s.tx.skipPackets) :
    ((takenOf m).round, (takenOf m).answeredAt) ∈ a.answers ∧
      (takenOf m).round + 1 = a.opened.length ∧ (∀ b ∈ a.taken, b.round ≠ (takenOf m).round) ∧
        Mirrors settings { s with clock := m.receiveTs, tx := tx } (a.take (takenOf m)) := by
  have hIn : inIteration s.tx = some (s.tx.iteration - 1) := by simp [inIteration, hPhase]
  obtain ⟨k, hk, hRound, hAt, hBefore, hLe⟩ := h.turn _ hIn
  obtain ⟨l, t₀, hAtReply, hAnswer, hIter, hTimes⟩ := h.replies _ _ hSentReply
  have hl : l < s.turns := by
    rw [← h.turns_eq]
    exact (List.getElem?_eq_some_iff.mp hAtReply).1
  -- the reply names the iteration that is open, so it answers this round
  have hSame : l = k := by
    refine eq_of_iterNum hl (show k < s.turns by omega) hTurns ?_
    rw [← hIter, ← hRound, ← hDue, UInt32.add_sub_cancel]
  subst hSame
  have hName : m.timing.iterNum.toNat = l := by
    rw [hIter]
    exact toNat_ofNat_of_lt (by omega)
  have hRoundIs : (takenOf m).round = l := hName
  -- and it was opened when the client noted the time
  obtain rfl : t₀ = s.tx.sendTs := Option.some.inj (hAtReply.symm.trans hAt)
  refine ⟨?_, ?_, fun b hb => ?_, ?_⟩
  · rw [hRoundIs]
    exact hAnswer
  · rw [hRoundIs, h.turns_eq]
    exact hk
  · rw [hRoundIs]
    exact Nat.ne_of_lt (hBefore b hb)
  · have hOver : s.tx.iteration = UInt32.ofNat s.turns := by
      rw [← hk, UInt32.ofNat_add, ← hRound]
      exact (UInt32.sub_add_cancel _ _).symm
    exact
      { clock_eq := rfl, opened_eq := h.opened_eq,
        preparing := fun _ => hIteration.trans hOver,
        sending := fun _ hOther => FramePhase.noConfusion (hNext.symm.trans hOther),
        turn := fun _ hTurn => by simp [inIteration, hNext] at hTurn,
        wire := h.wire, serving := h.serving, replies := h.replies,
        taken_eq := by
          show a.taken ++ [takenOf m] = tx.measurements.map takenOf
          rw [hKept, List.map_append, ← h.taken_eq]
          rfl,
        timed := by
          intro other hOther
          rw [show ({ s with clock := m.receiveTs, tx := tx } : FrameExchange).tx.measurements =
            s.tx.measurements ++ [m] from hKept] at hOther
          rcases List.mem_append.mp hOther with hOld | hNew
          · exact ⟨(h.timed other hOld).opened, (h.timed other hOld).late,
              (h.timed other hOld).last⟩
          · obtain rfl := List.mem_singleton.mp hNew
            refine ⟨?_, ?_, ?_⟩
            · rw [hName, hSent]
              exact hAt
            · -- the frames that are skipped came before
              rw [hName]
              omega
            · rw [hSent]
              exact hTimes hValid,
        count_eq := by
          show tx.packetCnt = tx.measurements.length
          rw [hCount, hKept, List.length_append, h.count_eq]
          rfl,
        count_le := by
          show tx.packetCnt + (DEFAULT_SKIP_PACKETS - tx.skipPackets) ≤ s.turns
          rw [hCount, hSkip]
          omega,
        skipped := by
          refine ⟨?_, fun _ => hSkip.trans hSkipped⟩
          show tx.skipPackets ≤ DEFAULT_SKIP_PACKETS
          rw [hSkip]
          exact h.skipped.1 }

/-- **The exchange is stop and wait.** A step of the client or of the server is
what the session may do. -/
theorem Step.simulated {s' : FrameExchange} (hStep : Step settings s s')
    (h : Mirrors settings s a) (hOrderly : a.Orderly) (hTurns : s'.turns ≤ 2 ^ 32) :
    ∃ a', Moves a a' ∧ Mirrors settings s' a' := by
  cases hStep with
  | @prepare now signal hPhase hClock =>
    rw [← h.clock_eq] at hClock
    cases signal with
    | true =>
      exact ⟨a.wait now, .single (.wait hClock), (h.wait now).finish rfl rfl rfl rfl⟩
    | false =>
      exact ⟨a.openRound now, .single (.openRound hClock), h.prepare hOrderly hPhase now⟩
  | @send now chunk calls hPhase hClock =>
    refine ⟨a.wait now, .single (.wait (h.clock_eq ▸ hClock)), ?_⟩
    -- a call that fails ends the client
    rcases sendChunk_cases chunk calls s.tx with ⟨token, hSend⟩ | ⟨token, hSend⟩
    · rw [hSend, List.map_nil, List.append_nil]
      exact (h.wait now).finish rfl rfl rfl rfl
    · rw [hSend]
      exact h.send hOrderly hPhase hClock token
  | @serve chunk commit hRunning hClock hSome hWire =>
    obtain ⟨hServing, hTo⟩ := @serveChunk_cases settings.packetsInFrame chunk commit s.rx h.serving
    cases hReply : (serveChunk settings.packetsInFrame chunk commit s.rx).2 with
    | none =>
      refine ⟨a.wait chunk.receiveTs, .single (.wait (h.clock_eq ▸ hClock)), ?_⟩
      rw [Option.toList_none, List.map_nil, List.append_nil]
      exact (h.wait chunk.receiveTs).keep hServing _
    | some timing =>
      -- the reply answers the round of the packet that ended its frame
      have hThis := hTo timing hReply
      obtain ⟨k, t₀, hAt, hIter, hValid⟩ := h.round_of_repliesTo hWire hThis
      refine ⟨a.answer k chunk.receiveTs, .single (.answer (h.clock_eq ▸ hClock) ?_), ?_⟩
      · exact (List.getElem?_eq_some_iff.mp hAt).1
      · exact h.reply hServing _ hAt hIter hValid hThis.softRxTs_eq
  | stopServer => exact ⟨a, .refl, h.keep h.serving false⟩
  | @receive poll hPhase hClock hReply =>
    rw [← h.clock_eq] at hClock
    cases receiveReply_cases settings poll s.tx with
    | stopped hFinished hKept hCount hSkip =>
      exact ⟨a.wait poll.receiveTs, .single (.wait hClock),
        (h.wait poll.receiveTs).finish hFinished hKept hCount hSkip⟩
    | passed hNext hIteration hKept hCount hSkip =>
      exact ⟨a.wait poll.receiveTs, .single (.wait hClock),
        (h.wait poll.receiveTs).pass hPhase hNext hIteration hKept hCount hSkip⟩
    | counted reply m hIs hSize hDue hValid hSkipped hTiming hSent hReceived hNext hIteration
        hKept hCount hSkip =>
      obtain ⟨t, hSentReply⟩ := (hReply reply hIs).sent
      rw [← hTiming] at hSentReply hDue hValid
      obtain ⟨hAnswer, hLast, hFresh, hMirrors⟩ := h.take hPhase hTurns hSentReply hDue hValid
        hSkipped hSent hNext hIteration hKept hCount hSkip
      rw [← hReceived] at hClock ⊢
      exact ⟨a.take (takenOf m), .single (.take hClock hAnswer hLast hFresh), hMirrors⟩

/-- What a step adds to the measurements is the reply to the frame prepared last. -/
theorem Step.measured {s' : FrameExchange} (hStep : Step settings s s') (h : Mirrors settings s a)
    (hTurns : s.turns ≤ 2 ^ 32) {m : FrameMeasurement} (hm : m ∈ s'.tx.measurements) :
    m ∈ s.tx.measurements ∨ m.timing.iterNum.toNat + 1 = s.turns := by
  cases hStep with
  | @prepare now signal hPhase hClock =>
    cases signal with
    | true => exact .inl hm
    | false =>
      obtain ⟨-, -, hKept, -⟩ := @nextChunk_fields settings 0
        { s.tx with
          chunks := prepareChunks s.tx.iteration settings.numOfPacketsInChunk settings.numOfChunks 0
          sendTs := now }
      exact .inl (hKept ▸ hm)
  | @send now chunk calls hPhase hClock =>
    rcases sendChunk_cases chunk calls s.tx with ⟨token, hSend⟩ | ⟨token, hSend⟩
    · rw [hSend] at hm
      exact .inl hm
    · rw [hSend] at hm
      obtain ⟨-, -, hKept, -⟩ := @nextChunk_fields settings (chunk + 1)
        { s.tx with token := token }
      exact .inl (hKept ▸ hm)
  | serve => exact .inl hm
  | stopServer => exact .inl hm
  | @receive poll hPhase hClock hReply =>
    cases receiveReply_cases settings poll s.tx with
    | stopped _ hKept => exact .inl (hKept ▸ hm)
    | passed _ _ hKept => exact .inl (hKept ▸ hm)
    | counted reply m' hIs hSize hDue hValid hSkipped hTiming hSent hReceived hNext hIteration
        hKept hCount hSkip =>
      obtain ⟨t, hSentReply⟩ := (hReply reply hIs).sent
      rw [← hTiming] at hSentReply hDue hValid
      obtain ⟨-, hLast, -, -⟩ := h.take hPhase hTurns hSentReply hDue hValid hSkipped hSent hNext
        hIteration hKept hCount hSkip
      -- the one that is added answers the round opened last
      rcases List.mem_append.mp (hKept ▸ hm : m ∈ s.tx.measurements ++ [m']) with hOld | hNew
      · exact .inl hOld
      · obtain rfl := List.mem_singleton.mp hNew
        exact .inr (hLast.trans h.turns_eq)

end Simulation

/-- Frames are only added. -/
theorem Step.turns_le {s s' : FrameExchange} (hStep : Step settings s s') : s.turns ≤ s'.turns := by
  cases hStep with
  | @prepare now signal _ _ =>
    show s.prepared.length ≤ (if signal then s.prepared else s.prepared ++ [now]).length
    split_ifs
    · exact Nat.le_refl _
    · rw [List.length_append]
      exact Nat.le_succ _
  | send => exact Nat.le_refl _
  | serve => exact Nat.le_refl _
  | stopServer => exact Nat.le_refl _
  | receive => exact Nat.le_refl _

/-- A whole run is a session. -/
theorem Reachable.simulated {s : FrameExchange} (h : Reachable settings s)
    (hTurns : s.turns ≤ 2 ^ 32) : ∃ t a, Moves (.start t) a ∧ Mirrors settings s a := by
  induction h with
  | start now => exact ⟨now, .start now, .refl, mirrors_start now⟩
  | step _ hStep ih =>
    obtain ⟨t, a, hMoves, hMirrors⟩ := ih (hStep.turns_le.trans hTurns)
    have hOrderly := hMoves.orderly (Session.orderly_start t)
    obtain ⟨a', hMore, hMirrors'⟩ := hStep.simulated hMirrors hOrderly hTurns
    exact ⟨t, a', hMoves.trans hMore, hMirrors'⟩

/-! ## What is counted -/

/-- The statistics that both ends take part in, but for the first packet: its time
may be that of an earlier frame, of which the last packet was lost. -/
def endToEndTimes : List (FrameMeasurement → Int) :=
  [FrameMeasurement.totalTime, FrameMeasurement.commitToRxLast, FrameMeasurement.commitToRxSoft,
    FrameMeasurement.softFeedback]

/-- The times of a measured frame, in the order in which they were taken. -/
structure InSequence (m : FrameMeasurement) : Prop where
  sent_le : m.sendTs ≤ m.timing.lastRxTs
  last_le : m.timing.lastRxTs ≤ m.timing.softRxTs
  soft_le : m.timing.softRxTs ≤ m.receiveTs
  receive_lt : m.receiveTs < 2 ^ 63

namespace InSequence

variable {m : FrameMeasurement}

theorem commitToRxLast_eq (h : InSequence m) :
    m.commitToRxLast = m.timing.lastRxTs - m.sendTs := by
  obtain ⟨hSent, hLast, hSoft, hLate⟩ := h
  exact FrameMeasurement.deltaNs_eq (by omega) (by omega)

theorem commitToRxSoft_eq (h : InSequence m) :
    m.commitToRxSoft = m.timing.softRxTs - m.sendTs := by
  obtain ⟨hSent, hLast, hSoft, hLate⟩ := h
  exact FrameMeasurement.deltaNs_eq (by omega) (by omega)

theorem softFeedback_eq (h : InSequence m) :
    m.softFeedback = m.receiveTs - m.timing.softRxTs := by
  obtain ⟨hSent, hLast, hSoft, hLate⟩ := h
  exact FrameMeasurement.deltaNs_eq (by omega) (by omega)

theorem totalTime_eq (h : InSequence m) : m.totalTime = m.receiveTs - m.sendTs := by
  obtain ⟨hSent, hLast, hSoft, hLate⟩ := h
  exact FrameMeasurement.deltaNs_eq (by omega) (by omega)

/-- No latency is negative, and the total is its two parts. -/
theorem deltas (h : InSequence m) : 0 ≤ m.commitToRxLast ∧
    m.commitToRxLast ≤ m.commitToRxSoft ∧ 0 ≤ m.softFeedback ∧
      m.totalTime = m.commitToRxSoft + m.softFeedback := by
  have hTotal := h.totalTime_eq
  rw [h.commitToRxLast_eq, h.commitToRxSoft_eq, h.softFeedback_eq]
  obtain ⟨hSent, hLast, hSoft, -⟩ := h
  omega

theorem nonneg (h : InSequence m) {value : FrameMeasurement → Int}
    (hValue : value ∈ endToEndTimes) : 0 ≤ value m := by
  obtain ⟨hLast, hSoft, hFeedback, hTotal⟩ := h.deltas
  simp only [endToEndTimes, List.mem_cons, List.not_mem_nil, or_false] at hValue
  rcases hValue with rfl | rfl | rfl | rfl
  · omega
  · exact hLast
  · omega
  · exact hFeedback

end InSequence

section Counted

variable {s : FrameExchange} {a : Session Nat}

/-- A reply lies between the sending of its frame and its reception. -/
theorem Mirrors.inSequence (h : Mirrors settings s a) (hOrderly : a.Orderly)
    (hClock : s.clock < 2 ^ 63) {m : FrameMeasurement} (hm : m ∈ s.tx.measurements) :
    InSequence m := by
  obtain ⟨hSent, hSeen⟩ := (h.timed m hm).last
  -- an answer that was taken was there before
  have hWithin := hOrderly.taken (takenOf m) (h.taken_eq ▸ List.mem_map_of_mem hm)
  have hPast : m.receiveTs ≤ a.clock := hWithin.past
  rw [h.clock_eq] at hPast
  exact ⟨hSent, hSeen, hWithin.inTime, hPast.trans_lt hClock⟩

/-- Of two measured frames the later was sent when the reply to the other was there. -/
theorem Mirrors.measured_ascending (h : Mirrors settings s a) (hOrderly : a.Orderly)
    (hSorted : a.opened.Pairwise (· ≤ ·)) :
    s.tx.measurements.Pairwise fun m m' =>
      m.timing.iterNum < m'.timing.iterNum ∧ m.receiveTs ≤ m'.sendTs := by
  have hAscending := hOrderly.ascending
  rw [h.taken_eq, List.pairwise_map] at hAscending
  refine hAscending.imp_of_mem fun {m m'} hm hm' hLt => ⟨hLt, ?_⟩
  have hWithin := hOrderly.taken (takenOf m) (h.taken_eq ▸ List.mem_map_of_mem hm)
  have hOpened := (h.timed m' hm').opened
  obtain ⟨hRound, hIs⟩ := List.getElem?_eq_some_iff.mp hOpened
  have hNext : (takenOf m).round + 1 < a.opened.length := by
    show m.timing.iterNum.toNat + 1 < _
    have hLt' : m.timing.iterNum.toNat < m'.timing.iterNum.toNat := hLt
    omega
  -- the round of the first was over by the next round
  have hBefore := hWithin.beforeNext _ (List.getElem?_eq_getElem hNext)
  refine hBefore.trans (hIs ▸ ?_)
  -- rounds may lie between the two
  rcases Nat.lt_or_ge ((takenOf m).round + 1) m'.timing.iterNum.toNat with hFar | hNear
  · exact List.pairwise_iff_getElem.mp hSorted _ _ hNext hRound hFar
  · have hSame : (takenOf m).round + 1 = m'.timing.iterNum.toNat := Nat.le_antisymm hLt hNear
    simp [hSame]

/-- The smallest of the values is one of them, or the mark of an empty series. -/
theorem minval_nonneg (hTimes : ∀ m ∈ s.tx.measurements, InSequence m)
    {value : FrameMeasurement → Int} (hValue : value ∈ endToEndTimes) :
    0 ≤ (s.tx.stats value).minval := by
  have hHolds := LatencyStats.holds_ofValues (s.tx.measurements.map value)
  rcases List.mem_cons.mp hHolds.min_mem with hMark | hMem
  · rw [FrameTx.stats, hMark]
    decide
  · obtain ⟨m, hm, hIs⟩ := List.mem_map.mp hMem
    rw [FrameTx.stats, ← hIs]
    exact (hTimes m hm).nonneg hValue

end Counted

/-- What a counted reply tells of the frames that the client prepared: it is the
reply to the frame sent at `sendTs`, behind the ones that are skipped, and it was
there before the next frame was prepared. -/
structure CountedFor (prepared : List Nat) (m : FrameMeasurement) : Prop where
  sent : prepared[m.timing.iterNum.toNat]? = some m.sendTs
  before : ∀ next, prepared[m.timing.iterNum.toNat + 1]? = some next → m.receiveTs ≤ next
  late : DEFAULT_SKIP_PACKETS ≤ m.timing.iterNum.toNat

theorem Mirrors.countedFor {s : FrameExchange} {a : Session Nat} (h : Mirrors settings s a)
    (hOrderly : a.Orderly) {m : FrameMeasurement} (hm : m ∈ s.tx.measurements) :
    CountedFor s.prepared m := by
  have hTimed := h.timed m hm
  have hWithin := hOrderly.taken (takenOf m) (h.taken_eq ▸ List.mem_map_of_mem hm)
  rw [← h.opened_eq]
  exact ⟨hTimed.opened, hWithin.beforeNext, hTimed.late⟩

/-- **Only replies to the frame just sent are counted**, whatever the network loses,
delays, repeats or reorders: each frame once at most, and none of the first four.
The last packet reached the server behind the sending of its frame, the server saw
it then, and the reply came back before the next frame: so no latency is negative,
and the total is what it takes there and back. -/
theorem counted_in_turn {s : FrameExchange} (h : Reachable settings s)
    (hTurns : s.turns ≤ 2 ^ 32) (hClock : s.clock < 2 ^ 63) :
    (∀ s', Step settings s s' → ∀ m ∈ s'.tx.measurements,
        m ∈ s.tx.measurements ∨ m.timing.iterNum.toNat + 1 = s.turns) ∧
      (∀ m ∈ s.tx.measurements, CountedFor s.prepared m) ∧
      s.tx.packetCnt = s.tx.measurements.length ∧
      (s.tx.packetCnt ≠ 0 → s.tx.packetCnt + DEFAULT_SKIP_PACKETS ≤ s.turns) ∧
      (s.tx.measurements.Pairwise fun m m' =>
        m.timing.iterNum < m'.timing.iterNum ∧ m.receiveTs ≤ m'.sendTs) ∧
      (∀ m ∈ s.tx.measurements, 0 ≤ m.commitToRxLast ∧ m.commitToRxLast ≤ m.commitToRxSoft ∧
        0 ≤ m.softFeedback ∧ m.totalTime = m.commitToRxSoft + m.softFeedback) ∧
      ∀ value ∈ endToEndTimes, 0 ≤ (s.tx.stats value).minval ∧
        (s.tx.packetCnt ≠ 0 → (s.tx.stats value).minval ≤ (s.tx.stats value).getAvg ∧
          (s.tx.stats value).getAvg ≤ (s.tx.stats value).maxval) := by
  obtain ⟨t, a, hMoves, hMirrors⟩ := h.simulated hTurns
  have hOrderly := hMoves.orderly (Session.orderly_start t)
  have hSorted := hMoves.opened_sorted (Session.orderly_start t) .nil
  have hTimes : ∀ m ∈ s.tx.measurements, InSequence m :=
    fun m hm => hMirrors.inSequence hOrderly hClock hm
  refine ⟨fun s' hStep m hm => hStep.measured hMirrors hTurns hm,
    fun m hm => hMirrors.countedFor hOrderly hm, hMirrors.count_eq, fun hSome => ?_,
    hMirrors.measured_ascending hOrderly hSorted, fun m hm => (hTimes m hm).deltas,
    fun value hValue => ⟨minval_nonneg hTimes hValue, fun hSome => ?_⟩⟩
  · -- a frame counts when none is left to skip
    have hLe := hMirrors.count_le
    rwa [hMirrors.skipped.2 hSome, Nat.sub_zero] at hLe
  · have hHolds := LatencyStats.holds_ofValues (s.tx.measurements.map value)
    have hNonempty : s.tx.measurements.map value ≠ [] := by
      intro hNil
      rw [hMirrors.count_eq, List.map_eq_nil_iff.mp hNil] at hSome
      exact hSome rfl
    exact LatencyStats.getAvg_bounds hNonempty hHolds.min_le hHolds.le_max

end FrameIONode
end RivermaxDevKit
