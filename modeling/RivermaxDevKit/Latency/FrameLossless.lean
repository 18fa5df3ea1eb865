import Mathlib.Data.List.Basic
import Mathlib.Data.UInt
import Mathlib.Tactic.Common
import RivermaxDevKit.Latency.FrameExchange

/-!
# Frame latency exchange without losses

`FrameIONode::send_receive` and `FrameIONode::receive_send`
(`generic_latency_io_node.cpp`), over a network that brings every packet and every
reply, in order.

* `serveAll_frame` — the server answers a frame in any number of chunks.
* `exchange_counted` — every frame but the first four is measured, with the times
  of its first and its last chunk.
-/

namespace RivermaxDevKit
namespace FrameIONode

variable {settings : FrameSettings}

/-! ## A turn -/

/-- What happens in a turn: the chunks in which the server takes the frame, and
the poll for its reply. -/
structure FrameTurn where
  sendTs : Nat
  chunks : List FrameChunk
  receiveTs : Nat
  txHwTimestamp : Nat := 0
  rxHwTimestamp : Nat := 0

section Play

variable (settings)

/-- The client sends these many chunks, from one on. -/
def sendFrame (now : Nat) : Nat → Nat → FrameExchange → FrameExchange
  | 0, _, s => s
  | n + 1, chunk, s =>
    sendFrame now n (chunk + 1)
      { s with
        clock := now
        tx := (sendChunk settings chunk {} s.tx).1
        wire := s.wire ++ (sendChunk settings chunk {} s.tx).2.map (now, ·) }

/-- The server takes a chunk, and its reply goes out. -/
def serve (s : FrameExchange) (chunk : FrameChunk) : FrameExchange :=
  { s with
    clock := chunk.receiveTs
    rx := (serveChunk settings.packetsInFrame chunk .success s.rx).1
    rxRunning := servesOn settings.packetsInFrame chunk .success s.rx
    replies := s.replies ++ (serveChunk settings.packetsInFrame chunk .success s.rx).2.toList.map
      (chunk.receiveTs, ·) }

/-- The poll that brings the newest reply, and the completion of the last chunk. -/
def newestReply (turn : FrameTurn) (s : FrameExchange) : ReplyPoll where
  receiveTs := turn.receiveTs
  reply := s.replies.getLast?.map fun sent => ⟨RECEIVE_TIMING_SIZE, sent.2⟩
  complToken := s.tx.token - 1
  txHwTimestamp := turn.txHwTimestamp
  rxHwTimestamp := turn.rxHwTimestamp

/-- One turn. -/
def play (s : FrameExchange) (turn : FrameTurn) : FrameExchange :=
  let prepared : FrameExchange := { s with
    clock := turn.sendTs
    prepared := s.prepared ++ [turn.sendTs]
    tx := prepareFrame settings turn.sendTs false s.tx }
  let sent := sendFrame settings turn.sendTs settings.numOfChunks 0 prepared
  let served := turn.chunks.foldl (serve settings) sent
  { served with
    clock := turn.receiveTs
    tx := receiveReply settings (newestReply turn served) served.tx }

/-- Turn by turn from the start. -/
def exchange (now : Nat) (turns : List FrameTurn) : FrameExchange :=
  turns.foldl (play settings) (start now)

end Play

/-- The server takes the whole frame of this iteration. -/
structure FrameTurn.Whole (settings : FrameSettings) (i : Nat) (turn : FrameTurn) : Prop where
  some : ∀ chunk ∈ turn.chunks, chunk.headers ≠ []
  packets : packetsOf turn.chunks = preparedFrame settings.packetsInFrame (UInt32.ofNat i)

/-- The reply to the frame of this iteration. -/
def FrameTurn.timing (turn : FrameTurn) (i : Nat) : ReceiveTiming where
  firstRxTs := (turn.chunks.head?.map FrameChunk.timestampFirst).getD 0
  lastRxTs := (turn.chunks.getLast?.map FrameChunk.timestampLast).getD 0
  softRxTs := (turn.chunks.getLast?.map FrameChunk.receiveTs).getD 0
  iterNum := UInt32.ofNat i
  valid := true

/-! ## The client sends -/

theorem sendChunk_success (chunk : Nat) (tx : FrameTx) :
    ∃ token, sendChunk settings chunk {} tx =
        (nextChunk settings (chunk + 1) { tx with token := token }, tx.chunks.getD chunk []) ∧
      token = if settings.trackCompletions && chunk + 1 == settings.numOfChunks then tx.token + 1
        else tx.token := by
  unfold sendChunk
  by_cases hTracked : (settings.trackCompletions && chunk + 1 == settings.numOfChunks) = true
  · exact ⟨tx.token + 1, by simp [hTracked], by simp [hTracked]⟩
  · exact ⟨tx.token, by simp [hTracked], by simp [hTracked]⟩

/-- The rest of a frame: the client waits for the reply behind it. -/
theorem sendFrame_eq (now : Nat) {n chunk : Nat} (hn : chunk + (n + 1) = settings.numOfChunks)
    (s : FrameExchange) (hPhase : s.tx.phase = .sending chunk) :
    sendFrame settings now (n + 1) chunk s =
      { s with
        clock := now
        tx := { s.tx with
          phase := .waiting
          iteration := s.tx.iteration + 1
          token := if settings.trackCompletions then s.tx.token + 1 else s.tx.token }
        wire := s.wire ++ ((List.range' chunk (n + 1)).flatMap fun j =>
          s.tx.chunks.getD j []).map (now, ·) } := by
  induction n generalizing chunk s with
  | zero =>
    obtain ⟨token, hSend, hToken⟩ := @sendChunk_success settings chunk s.tx
    -- behind the last chunk the client waits
    have hLast : ¬ chunk + 1 < settings.numOfChunks := by omega
    rw [sendFrame, sendFrame, hSend, hToken]
    simp [nextChunk, hn]
  | succ n ih =>
    obtain ⟨token, hSend, hToken⟩ := @sendChunk_success settings chunk s.tx
    -- this chunk is not the last, so it is not tracked
    have hMore : chunk + 1 < settings.numOfChunks := by omega
    have hNot : (chunk + 1 == settings.numOfChunks) = false := by
      rw [beq_eq_false_iff_ne]
      omega
    rw [hNot, Bool.and_false] at hToken
    obtain rfl : token = s.tx.token := hToken
    rw [sendFrame, hSend, ih (by omega)]
    · simp [nextChunk, hMore, List.range'_succ, List.append_assoc]
    · simp [nextChunk, hMore]

/-! ## The server answers -/

/-- The server has taken these chunks of a frame. -/
structure Serving (earlier : List FrameChunk) (rx : FrameRx) : Prop where
  frameReceived_eq : rx.frameReceived = false
  rxNextPktNum_eq : rx.rxNextPktNum = due (packetsOf earlier)
  frameStart_eq : rx.frameStart = earlier.isEmpty
  firstPacketTs_eq : rx.firstPacketTs = (earlier.head?.map FrameChunk.timestampFirst).getD 0

theorem serving_startFrame (rx : FrameRx) : Serving [] (startFrame rx) := ⟨rfl, rfl, rfl, rfl⟩

theorem packetsOf_concat (earlier : List FrameChunk) (chunk : FrameChunk) :
    packetsOf (earlier ++ [chunk]) = packetsOf earlier ++ chunk.headers := by
  rw [packetsOf, List.flatMap_append, List.flatMap_singleton]
  rfl

section Server

variable {packetsInFrame : Nat} {earlier : List FrameChunk} {rx : FrameRx}

/-- The time of the first chunk is kept. -/
theorem Serving.first (h : Serving earlier rx) (chunk : FrameChunk) :
    (receiveChunk packetsInFrame chunk rx).firstPacketTs =
      ((earlier ++ [chunk]).head?.map FrameChunk.timestampFirst).getD 0 := by
  rw [(receiveChunk_times chunk rx).2.2.1, h.frameStart_eq, h.firstPacketTs_eq]
  cases earlier with
  | nil => rfl
  | cons first earlier => rfl

theorem Serving.keep (h : Serving earlier rx) {chunk : FrameChunk}
    (hNone : ∀ header ∈ chunk.headers, ¬ IsLast packetsInFrame header) :
    Serving (earlier ++ [chunk]) (receiveChunk packetsInFrame chunk rx) := by
  obtain ⟨hReceived, -, -, hNext⟩ := @receiveChunk_fields packetsInFrame chunk rx
  obtain ⟨hSame, hBehind⟩ := parseHeaders_of_no_last chunk.headers hNone
    { rx with receiveTs := chunk.receiveTs, valid := true }
  refine ⟨hReceived.trans (hSame.trans h.frameReceived_eq), ?_, ?_, h.first chunk⟩
  · -- the packet that is due follows the newest one, of whichever chunk
    rw [hNext.trans hBehind, packetsOf_concat, due, getLast?_append_getD]
    show ((chunk.headers.getLast?).map fun header => header.pktNum + 1).getD rx.rxNextPktNum = _
    rw [h.rxNextPktNum_eq, due]
  · rw [(receiveChunk_times chunk rx).2.1]
    cases earlier <;> rfl

/-- The chunk that ends a whole frame makes a valid reply. -/
theorem Serving.answer (h : Serving earlier rx) {chunk : FrameChunk} {iteration : UInt32}
    (hNone : ∀ header ∈ packetsOf earlier, ¬ IsLast packetsInFrame header)
    (hSome : ∃ header ∈ chunk.headers, IsLast packetsInFrame header)
    (hWhole : packetsOf earlier ++ chunk.headers = preparedFrame packetsInFrame iteration) :
    (receiveChunk packetsInFrame chunk rx).frameReceived = true ∧
      composeReply (receiveChunk packetsInFrame chunk rx) =
        ⟨((earlier ++ [chunk]).head?.map FrameChunk.timestampFirst).getD 0, chunk.timestampLast,
          chunk.receiveTs, iteration, true⟩ := by
  obtain ⟨hReceivedField, hValidField, hIterationField, -⟩ :=
    @receiveChunk_fields packetsInFrame chunk rx
  obtain ⟨hReceived, hValid, hHeader⟩ := valid_parseHeaders chunk.headers hSome
    { rx with receiveTs := chunk.receiveTs, valid := true }
  obtain ⟨hReceiveTs, -, -, hLast⟩ := @receiveChunk_times packetsInFrame chunk rx
  have hEnds := ((whole_iff hNone hSome).mp hWhole).2
  rw [← h.rxNextPktNum_eq] at hEnds
  have hIsValid := hValid.mpr ⟨rfl, hEnds⟩
  -- the last header is one of the frame
  obtain ⟨front, header, hSplit, -, hIteration⟩ := hHeader hIsValid
  have hOwn : header.iterNum = iteration := by
    refine iterNum_preparedFrame header (n := packetsInFrame) ?_
    rw [← hWhole, hSplit]
    simp
  have hReceived' := hReceivedField.trans hReceived
  refine ⟨hReceived', ?_⟩
  rw [composeReply, h.first chunk, hLast hReceived', hReceiveTs, hIterationField, hIteration, hOwn,
    hValidField, hIsValid]

end Server

/-- The last packet of a frame is in its last chunk. -/
theorem FrameTurn.Whole.split {i : Nat} {turn : FrameTurn} (h : turn.Whole settings i)
    (hPackets : 0 < settings.packetsInFrame) (hFew : settings.packetsInFrame ≤ 2 ^ 32) :
    ∃ earlier final, turn.chunks = earlier ++ [final] ∧
      (∀ header ∈ packetsOf earlier, ¬ IsLast settings.packetsInFrame header) ∧
        ∃ header ∈ final.headers, IsLast settings.packetsInFrame header := by
  obtain ⟨n, hn⟩ : ∃ n, settings.packetsInFrame = n + 1 :=
    ⟨_, (Nat.succ_pred_eq_of_pos hPackets).symm⟩
  have hPacketsOf := h.packets
  rw [hn, preparedFrame_succ] at hPacketsOf
  rcases List.eq_nil_or_concat' turn.chunks with hNil | ⟨earlier, final, hSplit⟩
  · rw [hNil] at hPacketsOf
    exact absurd hPacketsOf.symm (by simp [packetsOf])
  refine ⟨earlier, final, hSplit, ?_, ?_⟩
  all_goals
    have hFinal : final.headers ≠ [] := h.some final (by simp [hSplit])
    obtain ⟨front, header, hHeaders⟩ := (List.eq_nil_or_concat' final.headers).resolve_left hFinal
    rw [hSplit, packetsOf_concat, hHeaders, ← List.append_assoc] at hPacketsOf
    obtain ⟨hFront, hHeader⟩ := List.append_inj' hPacketsOf rfl
    rw [hn]
  · intro other hOther
    exact not_isLast_of_front (by omega) hFront other (List.mem_append_left _ hOther)
  · refine ⟨header, by simp [hHeaders], ?_⟩
    obtain rfl := (List.cons.inj hHeader).1
    exact (isLast_iff_of_mem (Nat.le_refl n) (by omega)).mpr rfl

/-- Chunks without a last packet are taken one after the other. -/
theorem serveAll_earlier {earlier taken : List FrameChunk} {s : FrameExchange}
    (h : Serving taken s.rx) (hRunning : s.rxRunning = true)
    (hNone : ∀ header ∈ packetsOf earlier, ¬ IsLast settings.packetsInFrame header) :
    ∃ rx clock, Serving (taken ++ earlier) rx ∧
      earlier.foldl (serve settings) s = { s with clock := clock, rx := rx } := by
  induction earlier generalizing taken s with
  | nil => exact ⟨s.rx, s.clock, by rwa [List.append_nil], rfl⟩
  | cons chunk earlier ih =>
    -- nothing in this chunk ends the frame
    have hHere : ∀ header ∈ chunk.headers, ¬ IsLast settings.packetsInFrame header :=
      fun header hMem => hNone header (List.mem_append_left _ hMem)
    have hKeep := h.keep hHere
    have hServe : serve settings s chunk = { s with
        clock := chunk.receiveTs
        rx := receiveChunk settings.packetsInFrame chunk s.rx } := by
      simp [serve, serveChunk, servesOn, hKeep.frameReceived_eq, hRunning]
    obtain ⟨rx, clock, hServing, hRest⟩ := @ih (taken ++ [chunk]) (serve settings s chunk)
      (by rw [hServe]; exact hKeep) (by rw [hServe]; exact hRunning)
      fun header hMem => hNone header (List.mem_append_right _ hMem)
    refine ⟨rx, clock, by simpa using hServing, ?_⟩
    rw [List.foldl_cons, hRest, hServe]

/-- **The server answers a whole frame**, in whatever chunks it takes it. -/
theorem serveAll_frame {i : Nat} {turn : FrameTurn} (hWhole : turn.Whole settings i)
    (hPackets : 0 < settings.packetsInFrame) (hFew : settings.packetsInFrame ≤ 2 ^ 32)
    {s : FrameExchange} (h : Serving [] s.rx) (hRunning : s.rxRunning = true) :
    let s' := turn.chunks.foldl (serve settings) s
    s'.tx = s.tx ∧ Serving [] s'.rx ∧ s'.rxRunning = true ∧
      ∃ sentAt, s'.replies = s.replies ++ [(sentAt, turn.timing i)] := by
  obtain ⟨earlier, final, hSplit, hNone, hSome⟩ := hWhole.split hPackets hFew
  -- the chunks up to the last are kept, and the last one is answered
  obtain ⟨rx, clock, hServing, hEarlier⟩ := serveAll_earlier h hRunning hNone
  rw [List.nil_append] at hServing
  have hPacketsOf := hWhole.packets
  rw [hSplit, packetsOf_concat] at hPacketsOf
  obtain ⟨hReceived, hReply⟩ := hServing.answer hNone hSome hPacketsOf
  have hTiming : composeReply (receiveChunk settings.packetsInFrame final rx) = turn.timing i := by
    rw [hReply, FrameTurn.timing, hSplit, List.getLast?_concat]
    rfl
  rw [hSplit, List.foldl_append, hEarlier]
  have hServe : serve settings { s with clock := clock, rx := rx } final =
      { s with
        clock := final.receiveTs
        rx := startFrame (receiveChunk settings.packetsInFrame final rx)
        replies := s.replies ++ [(final.receiveTs, turn.timing i)] } := by
    simp [serve, serveChunk, servesOn, hReceived, hTiming, hRunning]
  rw [List.foldl_cons, List.foldl_nil, hServe]
  exact ⟨rfl, serving_startFrame _, hRunning, final.receiveTs, rfl⟩

/-! ## Turn by turn -/

/-- Both ends are ready for the frame of this iteration. -/
structure Ready (i : Nat) (s : FrameExchange) : Prop where
  phase_eq : s.tx.phase = .preparing
  iteration_eq : s.tx.iteration = UInt32.ofNat i
  serving : Serving [] s.rx
  running : s.rxRunning = true

theorem ready_start (now : Nat) : Ready 0 (start now) := ⟨rfl, rfl, ⟨rfl, rfl, rfl, rfl⟩, rfl⟩

/-- A turn, up to the poll for the reply. -/
def playFrame (settings : FrameSettings) (s : FrameExchange) (turn : FrameTurn) : FrameExchange :=
  turn.chunks.foldl (serve settings) (sendFrame settings turn.sendTs settings.numOfChunks 0
    { s with
      clock := turn.sendTs
      prepared := s.prepared ++ [turn.sendTs]
      tx := prepareFrame settings turn.sendTs false s.tx })

theorem numOfChunks_pos (hPackets : 0 < settings.packetsInFrame) : 0 < settings.numOfChunks :=
  Nat.pos_of_mul_pos_right hPackets

/-- The client as it waits for the reply to a frame. -/
structure Waiting (turn : FrameTurn) (tx tx' : FrameTx) : Prop where
  phase_eq : tx'.phase = .waiting
  iteration_eq : tx'.iteration = tx.iteration + 1
  sendTs_eq : tx'.sendTs = turn.sendTs
  skip_eq : tx'.skipPackets = tx.skipPackets
  count_eq : tx'.packetCnt = tx.packetCnt
  kept : tx'.measurements = tx.measurements
  start_eq : tx'.startTimeNs = tx.startTimeNs

/-- The client waits, with the reply on its way. -/
theorem Ready.playFrame {i : Nat} {s : FrameExchange} (h : Ready i s) {turn : FrameTurn}
    (hWhole : turn.Whole settings i) (hPackets : 0 < settings.packetsInFrame)
    (hFew : settings.packetsInFrame ≤ 2 ^ 32) :
    let s' := playFrame settings s turn
    Waiting turn s.tx s'.tx ∧ Serving [] s'.rx ∧ s'.rxRunning = true ∧
      ∃ sentAt, s'.replies = s.replies ++ [(sentAt, turn.timing i)] := by
  obtain ⟨n, hn⟩ : ∃ n, settings.numOfChunks = n + 1 :=
    ⟨_, (Nat.succ_pred_eq_of_pos (numOfChunks_pos hPackets)).symm⟩
  have hPrepared : prepareFrame settings turn.sendTs false s.tx =
      { s.tx with
        phase := .sending 0
        chunks := prepareChunks s.tx.iteration settings.numOfPacketsInChunk settings.numOfChunks 0
        sendTs := turn.sendTs } := by
    simp [prepareFrame, nextChunk, numOfChunks_pos hPackets]
  unfold FrameIONode.playFrame
  generalize hState : ({ s with
      clock := turn.sendTs
      prepared := s.prepared ++ [turn.sendTs]
      tx := prepareFrame settings turn.sendTs false s.tx } : FrameExchange) = prepared
  have hTx : prepared.tx =
      { s.tx with
        phase := .sending 0
        chunks := prepareChunks s.tx.iteration settings.numOfPacketsInChunk settings.numOfChunks 0
        sendTs := turn.sendTs } := by
    rw [← hState]
    exact hPrepared
  have hSent := sendFrame_eq turn.sendTs (show 0 + (n + 1) = settings.numOfChunks by omega) prepared
    (by rw [hTx])
  rw [← hn] at hSent
  generalize sendFrame settings turn.sendTs settings.numOfChunks 0 prepared = sent at hSent ⊢
  have hServing : Serving [] sent.rx := by
    rw [hSent, ← hState]
    exact h.serving
  have hRunning : sent.rxRunning = true := by
    rw [hSent, ← hState]
    exact h.running
  -- the server takes what was sent, and leaves the client as it is
  obtain ⟨hSame, hServed, hOn, sentAt, hReplies⟩ :=
    serveAll_frame hWhole hPackets hFew hServing hRunning
  refine ⟨?_, hServed, hOn, sentAt, hReplies.trans ?_⟩
  · rw [hSame, hSent]
    exact ⟨rfl, by rw [hTx], by rw [hTx], by rw [hTx], by rw [hTx], by rw [hTx], by rw [hTx]⟩
  · rw [hSent, ← hState]

/-- What a turn does to the client: it counts the reply, once the first are
skipped. -/
structure Played (i : Nat) (turn : FrameTurn) (s s' : FrameExchange) : Prop where
  ready : Ready (i + 1) s'
  skip_eq : s'.tx.skipPackets = s.tx.skipPackets - 1
  start_eq : s'.tx.startTimeNs = s.tx.startTimeNs
  skipped : s.tx.skipPackets ≠ 0 →
    s'.tx.packetCnt = s.tx.packetCnt ∧ s'.tx.measurements = s.tx.measurements
  counted : s.tx.skipPackets = 0 → s'.tx.packetCnt = s.tx.packetCnt + 1 ∧
    ∃ m : FrameMeasurement, s'.tx.measurements = s.tx.measurements ++ [m] ∧
      m.sendTs = turn.sendTs ∧ m.receiveTs = turn.receiveTs ∧ m.timing = turn.timing i

theorem pollForCompletion_success (n : Nat) :
    pollForCompletion ((List.range n).map fun _ => ReturnStatus.success) .success = .success := by
  cases n with
  | zero => rfl
  | succ n =>
    rw [List.range_succ_eq_map, List.map_cons]
    rfl

/-- A completion that was tracked is that of the last chunk. -/
theorem trackCompletion_success {poll : ReplyPoll} {tx : FrameTx}
    (hPolls : ∀ i, poll.completion i = .success) (hInfo : poll.completionInfo = .success)
    (hToken : poll.complToken = tx.token - 1) :
    ∃ txTs rxTs, trackCompletion settings poll tx =
      some { tx with txHwTimestamp := txTs, rxHwTimestamp := rxTs } := by
  have hPoll : pollForCompletion ((List.range settings.numOfChunks).map poll.completion) .success =
      .success := by
    rw [List.map_congr_left fun i _ => hPolls i]
    exact pollForCompletion_success _
  have hNext : poll.complToken + 1 = tx.token := by
    rw [hToken]
    exact UInt64.sub_add_cancel _ _
  -- with tracking off nothing is polled for
  by_cases hTracked : settings.trackCompletions = true
  · by_cases hSome : poll.reply.isSome = true
    · exact ⟨poll.txHwTimestamp, poll.rxHwTimestamp, by
        simp [trackCompletion, hTracked, hPoll, hInfo, hNext, hSome]⟩
    · exact ⟨poll.txHwTimestamp, tx.rxHwTimestamp, by
        simp [trackCompletion, hTracked, hPoll, hInfo, hNext, hSome]⟩
  · exact ⟨tx.txHwTimestamp, tx.rxHwTimestamp, by simp [trackCompletion, hTracked]⟩

theorem Ready.play {i : Nat} {s : FrameExchange} (h : Ready i s) {turn : FrameTurn}
    (hWhole : turn.Whole settings i) (hPackets : 0 < settings.packetsInFrame)
    (hFew : settings.packetsInFrame ≤ 2 ^ 32)
    (hInterval : turn.receiveTs ≤ s.tx.startTimeNs + settings.measureIntervalSec * NS_IN_SEC) :
    Played i turn s (FrameIONode.play settings s turn) := by
  obtain ⟨hWaiting, hServing, hRunning, sentAt, hReplies⟩ := h.playFrame hWhole hPackets hFew
  have hPlay : FrameIONode.play settings s turn =
      { FrameIONode.playFrame settings s turn with
        clock := turn.receiveTs
        tx := receiveReply settings (newestReply turn (FrameIONode.playFrame settings s turn))
          (FrameIONode.playFrame settings s turn).tx } := rfl
  rw [hPlay]
  generalize FrameIONode.playFrame settings s turn = served at hWaiting hServing hRunning hReplies ⊢
  have hReply : (newestReply turn served).reply = some ⟨RECEIVE_TIMING_SIZE, turn.timing i⟩ := by
    rw [newestReply, hReplies, List.getLast?_concat]
    rfl
  obtain ⟨txTs, rxTs, hTrack⟩ := @trackCompletion_success settings (newestReply turn served)
    served.tx (fun _ => rfl) rfl rfl
  have hInTime : ¬ turn.receiveTs > served.tx.startTimeNs +
      settings.measureIntervalSec * NS_IN_SEC := by
    rw [hWaiting.start_eq]
    omega
  have hNext : served.tx.iteration = UInt32.ofNat (i + 1) := by
    rw [hWaiting.iteration_eq, h.iteration_eq, UInt32.ofNat_add]
    rfl
  -- the iteration counted up behind the frame is the one the reply is held against
  have hDue : (turn.timing i).iterNum + 1 = served.tx.iteration := by
    rw [hNext, UInt32.ofNat_add]
    rfl
  have hParse : parseReceiveTiming ⟨RECEIVE_TIMING_SIZE, turn.timing i⟩ = some (turn.timing i) :=
    rfl
  unfold receiveReply
  rw [hTrack, hReply]
  dsimp only
  rw [hParse]
  dsimp only
  rw [if_neg (show ¬ (newestReply turn served).rc ≠ .success from not_not.mpr rfl),
    if_neg (show ¬ (newestReply turn served).receiveTs > _ from hInTime)]
  by_cases hSkip : s.tx.skipPackets = 0
  · -- none left to skip: the reply counts
    rw [if_neg (not_not.mpr (hWaiting.skip_eq.trans hSkip)), if_neg (not_not.mpr hDue),
      if_neg (show ¬ (!(turn.timing i).valid) = true from Bool.false_ne_true)]
    refine ⟨⟨rfl, hNext, hServing, hRunning⟩, ?_, hWaiting.start_eq, fun hNot => absurd hSkip hNot,
      fun _ => ⟨congrArg (· + 1) hWaiting.count_eq, _, congrArg (· ++ _) hWaiting.kept,
        hWaiting.sendTs_eq, rfl, rfl⟩⟩
    exact hWaiting.skip_eq.trans (by omega)
  · -- the reply is passed over
    rw [if_pos (show served.tx.skipPackets ≠ 0 by rwa [hWaiting.skip_eq])]
    exact ⟨⟨rfl, hNext, hServing, hRunning⟩, congrArg (· - 1) hWaiting.skip_eq, hWaiting.start_eq,
      fun _ => ⟨hWaiting.count_eq, hWaiting.kept⟩, fun hZero => absurd hZero hSkip⟩

/-- The times and the reply that a measurement is made of. -/
def entryOf (m : FrameMeasurement) : Nat × Nat × ReceiveTiming := (m.sendTs, m.receiveTs, m.timing)

def FrameTurn.entry (turn : FrameTurn × Nat) : Nat × Nat × ReceiveTiming :=
  (turn.1.sendTs, turn.1.receiveTs, turn.1.timing turn.2)

/-- Turn by turn, and the first ones are skipped. -/
theorem Ready.playAll {i : Nat} {s : FrameExchange} (h : Ready i s) {turns : List FrameTurn}
    (hWhole : ∀ (j : Nat) (turn : FrameTurn), turns[j]? = some turn → turn.Whole settings (i + j))
    (hPackets : 0 < settings.packetsInFrame) (hFew : settings.packetsInFrame ≤ 2 ^ 32)
    (hInterval : ∀ turn ∈ turns,
      turn.receiveTs ≤ s.tx.startTimeNs + settings.measureIntervalSec * NS_IN_SEC) :
    let s' := turns.foldl (FrameIONode.play settings) s
    Ready (i + turns.length) s' ∧
      s'.tx.packetCnt = s.tx.packetCnt + (turns.length - s.tx.skipPackets) ∧
        s'.tx.measurements.map entryOf = s.tx.measurements.map entryOf ++
          ((turns.zipIdx i).drop s.tx.skipPackets).map FrameTurn.entry := by
  -- by induction on the turns, and the first one leaves one fewer to skip
  induction turns generalizing i s with
  | nil => exact ⟨h, by simp, by simp⟩
  | cons turn turns ih =>
    have hPlayed := h.play (hWhole 0 turn rfl) hPackets hFew (hInterval turn List.mem_cons_self)
    obtain ⟨hReady, hCount, hEntries⟩ := @ih (i + 1) (FrameIONode.play settings s turn)
      hPlayed.ready
      (fun j other hOther => by
        have hThis := hWhole (j + 1) other hOther
        rwa [show i + (j + 1) = i + 1 + j by omega] at hThis)
      fun other hOther => by
        rw [hPlayed.start_eq]
        exact hInterval other (List.mem_cons_of_mem _ hOther)
    refine ⟨?_, ?_, ?_⟩
    · rw [List.length_cons, show i + (turns.length + 1) = i + 1 + turns.length by omega]
      exact hReady
    · rw [List.foldl_cons, hCount, hPlayed.skip_eq, List.length_cons]
      by_cases hSkip : s.tx.skipPackets = 0
      · rw [(hPlayed.counted hSkip).1]
        omega
      · rw [(hPlayed.skipped hSkip).1]
        omega
    · rw [List.foldl_cons, hEntries, hPlayed.skip_eq, List.zipIdx_cons]
      by_cases hSkip : s.tx.skipPackets = 0
      · obtain ⟨-, m, hKept, hSent, hReceived, hTiming⟩ := hPlayed.counted hSkip
        rw [hKept, hSkip, List.map_append, List.append_assoc]
        refine congrArg (_ ++ ·) ?_
        show entryOf m :: _ = FrameTurn.entry (turn, i) :: _
        rw [entryOf, FrameTurn.entry, hSent, hReceived, hTiming]
        rfl
      · -- one of those to be skipped is dropped
        obtain ⟨k, hk⟩ := Nat.exists_eq_succ_of_ne_zero hSkip
        rw [(hPlayed.skipped hSkip).2, hk]
        rfl

/-! ## Runs of the system -/

/-- The times of a turn are in order, from this time on. -/
structure FrameTurn.InTime (clock : Nat) (turn : FrameTurn) : Prop where
  begins : clock ≤ turn.sendTs
  stamps : ∀ chunk ∈ turn.chunks, turn.sendTs ≤ chunk.timestampFirst ∧
    turn.sendTs ≤ chunk.timestampLast ∧ chunk.timestampFirst ≤ chunk.receiveTs ∧
      chunk.timestampLast ≤ chunk.receiveTs
  sorted : turn.chunks.Pairwise fun a b => a.receiveTs ≤ b.receiveTs
  ends : turn.sendTs ≤ turn.receiveTs ∧ ∀ chunk ∈ turn.chunks, chunk.receiveTs ≤ turn.receiveTs

/-- The turns come one after the other. -/
def InOrder : Nat → List FrameTurn → Prop
  | _, [] => True
  | clock, turn :: turns => turn.InTime clock ∧ InOrder turn.receiveTs turns

theorem reachable_sendFrame {now n chunk : Nat} (hn : chunk + n = settings.numOfChunks)
    {s : FrameExchange} (h : Reachable settings s) (hClock : s.clock ≤ now)
    (hPhase : n ≠ 0 → s.tx.phase = .sending chunk) :
    Reachable settings (sendFrame settings now n chunk s) := by
  induction n generalizing chunk s with
  | zero => exact h
  | succ n ih =>
    refine ih (by omega) (h.step (.send (hPhase (by omega)) hClock)) (Nat.le_refl _) fun hMore => ?_
    obtain ⟨token, hSend, -⟩ := @sendChunk_success settings chunk s.tx
    have hLt : chunk + 1 < settings.numOfChunks := by omega
    show (sendChunk settings chunk {} s.tx).1.phase = _
    rw [hSend]
    simp [nextChunk, hLt]

/-- A server that takes chunks of what was sent. -/
theorem reachable_serveAll {chunks : List FrameChunk} {s : FrameExchange}
    (h : Reachable settings s) (hRunning : s.rxRunning = true)
    (hSome : ∀ chunk ∈ chunks, chunk.headers ≠ []) (hWire : ∀ chunk ∈ chunks, FromWire s.wire chunk)
    (hClock : ∀ chunk ∈ chunks, s.clock ≤ chunk.receiveTs)
    (hSorted : chunks.Pairwise fun a b => a.receiveTs ≤ b.receiveTs) :
    Reachable settings (chunks.foldl (serve settings) s) := by
  induction chunks generalizing s with
  | nil => exact h
  | cons chunk chunks ih =>
    obtain ⟨hFirst, hRest⟩ := List.pairwise_cons.mp hSorted
    obtain ⟨hSomeHere, hSomeRest⟩ := List.forall_mem_cons.mp hSome
    obtain ⟨hWireHere, hWireRest⟩ := List.forall_mem_cons.mp hWire
    refine ih (h.step (.serve hRunning (hClock chunk List.mem_cons_self) hSomeHere hWireHere)) ?_
      hSomeRest hWireRest hFirst hRest
    -- the reply was committed, if there was one
    show servesOn settings.packetsInFrame chunk .success s.rx = true
    simp [servesOn]

theorem clock_serveAll {chunks : List FrameChunk} {s : FrameExchange} {now : Nat}
    (hStart : s.clock ≤ now) (hClock : ∀ chunk ∈ chunks, chunk.receiveTs ≤ now) :
    (chunks.foldl (serve settings) s).clock ≤ now := by
  induction chunks generalizing s with
  | nil => exact hStart
  | cons chunk chunks ih =>
    obtain ⟨hHere, hRest⟩ := List.forall_mem_cons.mp hClock
    exact ih hHere hRest

/-- The chunks that a frame was sent in are the frame. -/
theorem packets_prepareChunks (iteration : UInt32) :
    (List.range' 0 settings.numOfChunks).flatMap (fun j =>
      (prepareChunks iteration settings.numOfPacketsInChunk settings.numOfChunks 0).getD j []) =
        preparedFrame settings.packetsInFrame iteration := by
  have hLength (n : Nat) (pktId : UInt32) :
      (prepareChunks iteration settings.numOfPacketsInChunk n pktId).length = n := by
    induction n generalizing pktId with
    | zero => rfl
    | succ n ih => exact congrArg (· + 1) (ih _)
  rw [FrameSettings.packetsInFrame, ← flatten_prepareChunks, ← List.range_eq_range',
    List.flatMap_def]
  refine congrArg List.flatten (List.ext_getElem ?_ fun j hj hj' => ?_)
  · rw [List.length_map, List.length_range, hLength]
  · rw [List.getElem_map, List.getElem_range, List.getD_eq_getElem?_getD,
      List.getElem?_eq_getElem hj',
      Option.getD_some]

/-- The packets of a frame are on the wire. -/
theorem Ready.sendFrame {i : Nat} {s : FrameExchange} (h : Ready i s) (turn : FrameTurn)
    (hPackets : 0 < settings.packetsInFrame) :
    let sent := sendFrame settings turn.sendTs settings.numOfChunks 0
      { s with
        clock := turn.sendTs
        prepared := s.prepared ++ [turn.sendTs]
        tx := prepareFrame settings turn.sendTs false s.tx }
    sent.clock = turn.sendTs ∧ sent.rxRunning = true ∧
      ∀ header ∈ preparedFrame settings.packetsInFrame (UInt32.ofNat i),
        (turn.sendTs, header) ∈ sent.wire := by
  obtain ⟨n, hn⟩ : ∃ n, settings.numOfChunks = n + 1 :=
    ⟨_, (Nat.succ_pred_eq_of_pos (numOfChunks_pos hPackets)).symm⟩
  generalize hState : ({ s with
      clock := turn.sendTs
      prepared := s.prepared ++ [turn.sendTs]
      tx := prepareFrame settings turn.sendTs false s.tx } : FrameExchange) = prepared
  have hChunks : prepared.tx.chunks =
      prepareChunks s.tx.iteration settings.numOfPacketsInChunk settings.numOfChunks 0 := by
    rw [← hState]
    exact (nextChunk_fields 0 _).2.1
  have hPhase : prepared.tx.phase = .sending 0 := by
    rw [← hState]
    simp [prepareFrame, nextChunk, numOfChunks_pos hPackets]
  -- all the chunks go out at once
  have hSent := sendFrame_eq turn.sendTs (show 0 + (n + 1) = settings.numOfChunks by omega) prepared
    hPhase
  rw [← hn] at hSent
  dsimp only
  rw [hSent]
  refine ⟨rfl, by rw [← hState]; exact h.running, fun header hHeader => ?_⟩
  refine List.mem_append_right prepared.wire (List.mem_map_of_mem ?_)
  rw [hChunks, packets_prepareChunks, h.iteration_eq]
  exact hHeader

/-- A turn without losses is a run of the system. -/
theorem Ready.reachable_play {i : Nat} {s : FrameExchange} (h : Ready i s) {turn : FrameTurn}
    (hWhole : turn.Whole settings i) (hPackets : 0 < settings.packetsInFrame)
    (hFew : settings.packetsInFrame ≤ 2 ^ 32) (hInTime : turn.InTime s.clock)
    (hReach : Reachable settings s) : Reachable settings (FrameIONode.play settings s turn) := by
  obtain ⟨hClock, hRunning, hWire⟩ := h.sendFrame turn hPackets
  obtain ⟨hWaiting, -, -, sentAt, hReplies⟩ := h.playFrame hWhole hPackets hFew
  have hSent : Reachable settings (FrameIONode.sendFrame settings turn.sendTs settings.numOfChunks 0
      { s with
        clock := turn.sendTs
        prepared := s.prepared ++ [turn.sendTs]
        tx := prepareFrame settings turn.sendTs false s.tx }) := by
    refine reachable_sendFrame (by omega) (hReach.step (@Step.prepare settings s
      turn.sendTs false h.phase_eq hInTime.begins)) (Nat.le_refl _) fun _ => ?_
    simp [prepareFrame, nextChunk, numOfChunks_pos hPackets]
  have hServed : Reachable settings (FrameIONode.playFrame settings s turn) := by
    refine reachable_serveAll hSent hRunning hWhole.some (fun chunk hChunk => ?_)
      (fun chunk hChunk => ?_) hInTime.sorted
    · -- every packet of a chunk was sent at the time of its frame, and the chunk came later
      obtain ⟨hFirst, hLast, hFirstSeen, hLastSeen⟩ := hInTime.stamps chunk hChunk
      have hMem : ∀ header ∈ chunk.headers,
          header ∈ preparedFrame settings.packetsInFrame (UInt32.ofNat i) := by
        intro header hHeader
        rw [← hWhole.packets]
        exact List.mem_flatMap_of_mem hChunk hHeader
      exact
        { headers := fun header hHeader => ⟨_, hWire header (hMem header hHeader)⟩
          first := fun header hHeader =>
            ⟨_, hFirst, hWire header (hMem header (List.mem_of_mem_head? hHeader))⟩
          last := fun header hHeader =>
            ⟨_, hLast, hWire header (hMem header (List.mem_of_mem_getLast? hHeader))⟩
          seen := ⟨hFirstSeen, hLastSeen⟩ }
    · rw [hClock]
      obtain ⟨hFirst, -, hFirstSeen, -⟩ := hInTime.stamps chunk hChunk
      exact hFirst.trans hFirstSeen
  have hStep := @Step.receive settings _ (newestReply turn (FrameIONode.playFrame settings s turn))
    hWaiting.phase_eq
  refine hServed.step (hStep ?_ fun reply hReply => ?_)
  · exact clock_serveAll (by rw [hClock]; exact hInTime.ends.1) hInTime.ends.2
  · -- the reply is the last that the server sent
    obtain ⟨sent, hLast, rfl⟩ := Option.map_eq_some_iff.mp hReply
    exact ⟨rfl, sent.1, List.mem_of_getLast? hLast⟩

theorem Ready.reachable_playAll {i : Nat} {s : FrameExchange} (h : Ready i s)
    {turns : List FrameTurn}
    (hWhole : ∀ (j : Nat) (turn : FrameTurn), turns[j]? = some turn → turn.Whole settings (i + j))
    (hPackets : 0 < settings.packetsInFrame) (hFew : settings.packetsInFrame ≤ 2 ^ 32)
    (hInterval : ∀ turn ∈ turns,
      turn.receiveTs ≤ s.tx.startTimeNs + settings.measureIntervalSec * NS_IN_SEC)
    (hTimes : InOrder s.clock turns) (hReach : Reachable settings s) :
    Reachable settings (turns.foldl (FrameIONode.play settings) s) := by
  induction turns generalizing i s with
  | nil => exact hReach
  | cons turn turns ih =>
    have hHere := hWhole 0 turn rfl
    have hPlayed := h.play hHere hPackets hFew (hInterval turn List.mem_cons_self)
    refine @ih (i + 1) (FrameIONode.play settings s turn) hPlayed.ready (fun j other hOther => ?_)
      (fun other hOther => ?_) hTimes.2 (h.reachable_play hHere hPackets hFew hTimes.1 hReach)
    · have hThis := hWhole (j + 1) other hOther
      rwa [show i + (j + 1) = i + 1 + j by omega] at hThis
    · rw [hPlayed.start_eq]
      exact hInterval other (List.mem_cons_of_mem _ hOther)

/-- **Every frame is measured** but the first four, in any number of chunks each: the
reply is valid, and has the times of its first and of its last chunk. -/
theorem exchange_counted {now : Nat} {turns : List FrameTurn}
    (hWhole : ∀ (i : Nat) (turn : FrameTurn), turns[i]? = some turn → turn.Whole settings i)
    (hPackets : 0 < settings.packetsInFrame) (hFew : settings.packetsInFrame ≤ 2 ^ 32)
    (hInterval : ∀ turn ∈ turns,
      turn.receiveTs ≤ now + settings.measureIntervalSec * NS_IN_SEC)
    (hTimes : InOrder now turns) :
    Reachable settings (exchange settings now turns) ∧
      (exchange settings now turns).tx.packetCnt = turns.length - DEFAULT_SKIP_PACKETS ∧
        (exchange settings now turns).tx.measurements.map entryOf =
          (turns.zipIdx.drop DEFAULT_SKIP_PACKETS).map FrameTurn.entry := by
  -- the first turn is that of iteration 0
  have hFrom : ∀ (j : Nat) (turn : FrameTurn), turns[j]? = some turn →
      turn.Whole settings (0 + j) := by
    intro j turn hAt
    rw [Nat.zero_add]
    exact hWhole j turn hAt
  obtain ⟨-, hCount, hEntries⟩ := (ready_start now).playAll hFrom hPackets hFew hInterval
  refine ⟨?_, hCount.trans (Nat.zero_add _), hEntries⟩
  exact (ready_start now).reachable_playAll hFrom hPackets hFew hInterval hTimes (.start now)

/-! ## Five frames of two packets -/

def fiveFrames : List FrameTurn :=
  (List.range 5).map fun i => {
    sendTs := 100 * i + 10
    chunks := [⟨[⟨UInt32.ofNat i, 0⟩], 100 * i + 20, 100 * i + 20, 100 * i + 25⟩,
      ⟨[⟨UInt32.ofNat i, 1⟩], 100 * i + 30, 100 * i + 30, 100 * i + 35⟩]
    receiveTs := 100 * i + 50 }

def fiveFramesSettings : FrameSettings where
  numOfChunks := 2
  numOfPacketsInChunk := 1
  measureIntervalSec := 1

theorem fiveFrames_whole (i : Nat) (turn : FrameTurn) (hAt : fiveFrames[i]? = some turn) :
    turn.Whole fiveFramesSettings i := by
  obtain ⟨hi, rfl⟩ := List.getElem?_eq_some_iff.mp hAt
  simp only [fiveFrames, List.getElem_map, List.getElem_range]
  exact ⟨by simp, by simp [packetsOf, preparedFrame, fiveFramesSettings,
    FrameSettings.packetsInFrame, List.range_succ]⟩

theorem fiveFrames_inTime (turn : FrameTurn) (hMem : turn ∈ fiveFrames) :
    turn.receiveTs ≤ 0 + fiveFramesSettings.measureIntervalSec * NS_IN_SEC := by
  obtain ⟨i, hi, rfl⟩ := List.mem_map.mp hMem
  have hLt := List.mem_range.mp hi
  simp [fiveFramesSettings, NS_IN_SEC]
  omega

theorem fiveFrames_inOrder : InOrder 0 fiveFrames := by
  have hTurn (i clock : Nat) (hClock : clock ≤ 100 * i + 10) :
      FrameTurn.InTime clock {
        sendTs := 100 * i + 10
        chunks := [⟨[⟨UInt32.ofNat i, 0⟩], 100 * i + 20, 100 * i + 20, 100 * i + 25⟩,
          ⟨[⟨UInt32.ofNat i, 1⟩], 100 * i + 30, 100 * i + 30, 100 * i + 35⟩]
        receiveTs := 100 * i + 50 } :=
    ⟨hClock, by simp, by simp, by simp⟩
  exact ⟨hTurn 0 0 (by omega), hTurn 1 50 (by omega), hTurn 2 150 (by omega),
    hTurn 3 250 (by omega),
    hTurn 4 350 (by omega), trivial⟩

/-- The fifth frame is measured. -/
theorem exchange_counted_fiveFrames :
    Reachable fiveFramesSettings (exchange fiveFramesSettings 0 fiveFrames) ∧
      (exchange fiveFramesSettings 0 fiveFrames).tx.packetCnt = 1 ∧
        (exchange fiveFramesSettings 0 fiveFrames).tx.measurements.map entryOf =
          [(410, 450, ⟨420, 430, 435, 4, true⟩)] :=
  exchange_counted fiveFrames_whole (by decide) (by decide) fiveFrames_inTime fiveFrames_inOrder

theorem counted_in_turn_fiveFrames :
    (∀ s', Step fiveFramesSettings (exchange fiveFramesSettings 0 fiveFrames) s' →
        ∀ m ∈ s'.tx.measurements, m ∈ (exchange fiveFramesSettings 0 fiveFrames).tx.measurements ∨
          m.timing.iterNum.toNat + 1 = 5) ∧
      (exchange fiveFramesSettings 0 fiveFrames).prepared = [10, 110, 210, 310, 410] ∧
      (exchange fiveFramesSettings 0 fiveFrames).tx.measurements.length = 1 ∧
      ∀ m ∈ (exchange fiveFramesSettings 0 fiveFrames).tx.measurements,
        CountedFor [10, 110, 210, 310, 410] m ∧
        0 ≤ m.commitToRxLast ∧ m.commitToRxLast ≤ m.commitToRxSoft ∧ 0 ≤ m.softFeedback ∧
          m.totalTime = m.commitToRxSoft + m.softFeedback := by
  have hReach : Reachable fiveFramesSettings (exchange fiveFramesSettings 0 fiveFrames) :=
    (ready_start 0).reachable_playAll (fun j turn hAt => by simpa using fiveFrames_whole j turn hAt)
      (by decide) (by decide) fiveFrames_inTime fiveFrames_inOrder (.start 0)
  have hPrepared : (exchange fiveFramesSettings 0 fiveFrames).prepared =
      [10, 110, 210, 310, 410] := by decide +kernel
  obtain ⟨hNew, hFor, hLength, -, -, hDeltas, -⟩ :=
    counted_in_turn hReach (by decide +kernel) (by decide +kernel)
  refine ⟨fun s' hStep m hm => ?_, hPrepared, hLength.symm.trans (by decide +kernel),
    fun m hm => ⟨hPrepared ▸ hFor m hm, hDeltas m hm⟩⟩
  have hThis := hNew s' hStep m hm
  rwa [FrameExchange.turns, hPrepared] at hThis

end FrameIONode
end RivermaxDevKit
