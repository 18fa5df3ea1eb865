import Mathlib.Data.List.Induction
import Mathlib.Tactic.Common
import RivermaxDevKit.Lib.RoundRobin
import RivermaxDevKit.Lib.Sweep
import RivermaxDevKit.Services.Definitions

/-!
# Generic sender — sending

The loop of `GenericSenderIONode::operator()` (`generic_sender_io_node.cpp`) over the
streams of a sender: a pass makes as many rounds as there are chunks, and a round
sends one chunk of every stream, each stream to its flows in turn.

* `Sends.attempt` — the rounds are sweeps over the streams.
* `sending_fair` — how far the streams and their flows can come apart.
-/

namespace RivermaxDevKit

/-- What the calls for a chunk return. `commit` is the status that ends the retries. -/
structure SendAttempt where
  next : ReturnStatus := .success
  layout : ReturnStatus := .success
  commit : ReturnStatus := .success
  commit_ends : commit ≠ .hwSendQueueFull := by decide

/-- An `AppGenericSendStream` while it sends. -/
structure SendingStream (α : Type*) where
  flows : List α
  nextFlowToSend : Nat := 0
  deriving DecidableEq, Repr

namespace SendingStream

variable {α : Type*}

/-- `get_next_flow_to_send`, where the destination is not fixed. -/
def getNextFlowToSend (stream : SendingStream α) : Option α :=
  if stream.flows.length > 1 then stream.flows[stream.nextFlowToSend]? else none

/-- `set_next_flow_to_send`, of a stream with flows: where there is none the code
divides by zero. -/
def setNextFlowToSend (stream : SendingStream α) : SendingStream α :=
  { stream with nextFlowToSend := (stream.nextFlowToSend + 1) % stream.flows.length }

/-- Where the chunks of a stream go. -/
def destination (flows : List α) (n : Nat) : Option α :=
  if flows.length > 1 then flows[n % flows.length]? else none

end SendingStream

/-- The locals of the loop. `sent` has the stream and the destination of every
chunk, `cuts` the streams at which rounds were cut short, and `passes` the passes
that are over. -/
structure Sending (α : Type*) where
  streams : List (SendingStream α)
  chunk : Nat := 0
  streamIndex : Nat := 0
  rc : ReturnStatus := .success
  running : Bool := true
  passes : Nat := 0
  sent : List (Nat × Option α) := []
  cuts : List Nat := []
  deriving DecidableEq, Repr

namespace GenericSenderIONode

variable {α : Type*} (numOfChunks : Nat) (signal : Nat → Bool)

/-- The statuses that end the loop. -/
def endsSending (rc : ReturnStatus) : Bool := rc == .failure || rc == .signalReceived

/-- A round is over. Behind the last one of a pass, the status of that round tells
whether to go on. -/
def endRound (rc : ReturnStatus) (s : Sending α) : Sending α :=
  if s.chunk + 1 < numOfChunks then
    { s with rc := rc, streamIndex := 0, chunk := s.chunk + 1 }
  else
    { s with
      rc := rc
      streamIndex := 0
      chunk := 0
      passes := s.passes + 1
      running := !endsSending rc && !signal (s.passes + 1) }

/-- A round ends before its last stream. -/
def cutRound (rc : ReturnStatus) (s : Sending α) : Sending α :=
  endRound numOfChunks signal rc { s with cuts := s.cuts ++ [s.streamIndex] }

/-- The chunk is committed: the stream turns to its next flow, and the round to its
next stream. -/
def commitChunk (rc : ReturnStatus) (stream : SendingStream α) (s : Sending α) : Sending α :=
  let s := { s with
    rc := rc
    streams := s.streams.set s.streamIndex stream.setNextFlowToSend
    sent := s.sent ++ [(s.streamIndex, stream.getNextFlowToSend)] }
  if s.streamIndex + 1 < s.streams.length then { s with streamIndex := s.streamIndex + 1 }
  else endRound numOfChunks signal rc s

/-- The body of the inner loop. -/
def sendAttempt (attempt : SendAttempt) (s : Sending α) : Sending α :=
  match s.streams[s.streamIndex]? with
  | none => s
  | some stream =>
    if !s.running || numOfChunks == 0 then s
    else if attempt.next = .noFreeChunks then { s with rc := attempt.next }
    else if attempt.next ≠ .success then cutRound numOfChunks signal attempt.next s
    else if attempt.layout ≠ .success then cutRound numOfChunks signal .success s
    else if endsSending attempt.commit then cutRound numOfChunks signal attempt.commit s
    else commitChunk numOfChunks signal attempt.commit stream s

/-- The loop, with these streams and over these attempts. -/
def sendStreams (flows : List (List α)) (attempts : List SendAttempt) : Sending α :=
  attempts.foldl (fun s attempt => sendAttempt numOfChunks signal attempt s)
    { streams := flows.map fun own => ⟨own, 0⟩, running := !signal 0 }

/-! ## Rounds are sweeps -/

section Sweeps

open Sweep

/-- What a state tells of the sweeps. -/
def recordOf (s : Sending α) : Record := ⟨s.streamIndex, s.sent.map Prod.fst, s.cuts⟩

/-- The destinations of the chunks of a stream, in order. -/
def destinationsOf (s : Sending α) (j : Nat) : List (Option α) :=
  (s.sent.filter fun chunk => chunk.1 == j).map Prod.snd

/-- A stream has sent this many chunks. -/
structure StreamAt (own : List α) (times : Nat) (stream : SendingStream α) : Prop where
  flows_eq : stream.flows = own
  nextFlow_eq : 1 < own.length → stream.nextFlowToSend = times % own.length

theorem StreamAt.next {own : List α} {times : Nat} {stream : SendingStream α}
    (h : StreamAt own times stream) : StreamAt own (times + 1) stream.setNextFlowToSend where
  flows_eq := h.flows_eq
  nextFlow_eq := fun hMany => by
    show (stream.nextFlowToSend + 1) % stream.flows.length = _
    rw [h.flows_eq, h.nextFlow_eq hMany, Nat.mod_add_mod]

theorem StreamAt.destination_eq {own : List α} {times : Nat} {stream : SendingStream α}
    (h : StreamAt own times stream) :
    stream.getNextFlowToSend = SendingStream.destination own times := by
  unfold SendingStream.getNextFlowToSend SendingStream.destination
  rw [h.flows_eq]
  split_ifs with hMany
  · rw [h.nextFlow_eq hMany]
  · rfl

/-- The state of the loop, by what was sent. -/
structure Sends (flows : List (List α)) (s : Sending α) : Prop where
  even : Even flows.length (recordOf s)
  length_eq : s.streams.length = flows.length
  streamAt : ∀ j own, flows[j]? = some own →
    ∃ stream, s.streams[j]? = some stream ∧ StreamAt own ((recordOf s).times j) stream
  destinations : ∀ j own, flows[j]? = some own → destinationsOf s j =
    (List.range ((recordOf s).times j)).map (SendingStream.destination own)

variable {numOfChunks : Nat} {signal : Nat → Bool} {flows : List (List α)} {s : Sending α}

theorem endRound_fields (rc : ReturnStatus) (s : Sending α) :
    let s' := endRound numOfChunks signal rc s
    recordOf s' = { recordOf s with position := 0 } ∧ s'.streams = s.streams ∧
      s'.sent = s.sent := by
  unfold endRound
  split_ifs <;> exact ⟨rfl, rfl, rfl⟩

/-- Only the record, the streams and what was sent count. -/
theorem Sends.congr (h : Sends flows s) {s' : Sending α} (hRecord : recordOf s' = recordOf s)
    (hStreams : s'.streams = s.streams) (hSent : s'.sent = s.sent) : Sends flows s' where
  even := hRecord ▸ h.even
  length_eq := hStreams ▸ h.length_eq
  streamAt := hRecord ▸ hStreams ▸ h.streamAt
  destinations := by
    unfold destinationsOf
    rw [hSent, hRecord]
    exact h.destinations

theorem Sends.cut (h : Sends flows s) (rc : ReturnStatus) :
    Sends flows (cutRound numOfChunks signal rc s) := by
  obtain ⟨hRecord, hStreams, hSent⟩ := @endRound_fields α numOfChunks signal rc
    { s with cuts := s.cuts ++ [s.streamIndex] }
  have hCut : recordOf (cutRound numOfChunks signal rc s) = (recordOf s).cut := hRecord
  have hTimes (j : Nat) : (recordOf s).cut.times j = (recordOf s).times j := rfl
  refine ⟨hCut ▸ h.even.cut, hStreams ▸ h.length_eq, fun j own hOwn => ?_, fun j own hOwn => ?_⟩
  · obtain ⟨stream, hAt, hStream⟩ := h.streamAt j own hOwn
    exact ⟨stream, (congrArg (·[j]?) hStreams).trans hAt, by rw [hCut, hTimes]; exact hStream⟩
  · have hDestinations : destinationsOf (cutRound numOfChunks signal rc s) j = destinationsOf s j :=
      congrArg (fun sent => (sent.filter fun chunk => chunk.1 == j).map Prod.snd) hSent
    rw [hDestinations, hCut, hTimes]
    exact h.destinations j own hOwn

theorem Sends.commit (h : Sends flows s) (rc : ReturnStatus) {stream : SendingStream α}
    (hStream : s.streams[s.streamIndex]? = some stream) :
    Sends flows (commitChunk numOfChunks signal rc stream s) := by
  have hLt : s.streamIndex < flows.length := h.even.position_lt
  obtain ⟨own, hOwn⟩ : ∃ own, flows[s.streamIndex]? = some own :=
    ⟨_, List.getElem?_eq_getElem hLt⟩
  obtain ⟨other, hOther, hAtHere⟩ := h.streamAt _ own hOwn
  obtain rfl : other = stream := Option.some.inj (hOther.symm.trans hStream)
  -- the next state has the stream behind its next flow, and one more chunk sent
  have hNext : ∃ s', commitChunk numOfChunks signal rc other s = s' ∧
      recordOf s' = (recordOf s).serve flows.length ∧
        s'.streams = s.streams.set s.streamIndex other.setNextFlowToSend ∧
          s'.sent = s.sent ++ [(s.streamIndex, other.getNextFlowToSend)] := by
    refine ⟨_, rfl, ?_⟩
    unfold commitChunk
    dsimp only
    rw [List.length_set, h.length_eq]
    split_ifs with hMore
    · refine ⟨?_, rfl, rfl⟩
      have hNot : ¬ s.streamIndex + 1 = flows.length := by omega
      simp [recordOf, Record.serve, hNot]
    · obtain ⟨hRecord, hStreams, hSent⟩ := @endRound_fields α numOfChunks signal rc
        { s with
          rc := rc
          streams := s.streams.set s.streamIndex other.setNextFlowToSend
          sent := s.sent ++ [(s.streamIndex, other.getNextFlowToSend)] }
      refine ⟨hRecord.trans ?_, hStreams, hSent⟩
      have hLast : s.streamIndex + 1 = flows.length := by omega
      simp [recordOf, Record.serve, hLast]
  obtain ⟨s', hIs, hRecord, hStreams, hSent⟩ := hNext
  rw [hIs]
  have hTimes (j : Nat) : (recordOf s').times j =
      (recordOf s).times j + if j = s.streamIndex then 1 else 0 := by
    rw [hRecord, Record.times_serve]
    rfl
  refine ⟨hRecord ▸ h.even.serve, ?_, fun j other' hOther' => ?_, fun j other' hOther' => ?_⟩
  · rw [hStreams, List.length_set]
    exact h.length_eq
  · rw [hTimes, hStreams]
    by_cases hHere : j = s.streamIndex
    · subst hHere
      obtain rfl : own = other' := Option.some.inj (hOwn.symm.trans hOther')
      refine ⟨other.setNextFlowToSend, ?_, ?_⟩
      · exact List.getElem?_set_self (by rw [h.length_eq]; exact hLt)
      · rw [if_pos rfl]
        exact hAtHere.next
    · obtain ⟨stream', hAt, hKept⟩ := h.streamAt j other' hOther'
      refine ⟨stream', (List.getElem?_set_ne (Ne.symm hHere)).trans hAt, ?_⟩
      rw [if_neg hHere]
      exact hKept
  · rw [hTimes]
    unfold destinationsOf
    rw [hSent, List.filter_append, List.map_append]
    show destinationsOf s j ++ _ = _
    rw [h.destinations j other' hOther']
    by_cases hHere : j = s.streamIndex
    · subst hHere
      obtain rfl : own = other' := Option.some.inj (hOwn.symm.trans hOther')
      rw [if_pos rfl, List.range_succ, List.map_append, hAtHere.destination_eq]
      simp
    · rw [if_neg hHere]
      simp [Ne.symm hHere]

/-- One attempt keeps the state of the loop. -/
theorem Sends.attempt (h : Sends flows s) (attempt : SendAttempt) :
    Sends flows (sendAttempt numOfChunks signal attempt s) := by
  unfold sendAttempt
  cases hStream : s.streams[s.streamIndex]? with
  | none => exact h
  | some stream =>
    dsimp only
    split_ifs
    · exact h
    · exact h.congr rfl rfl rfl
    · exact h.cut _
    · exact h.cut _
    · exact h.cut _
    · exact h.commit _ hStream

theorem sends_start (hFlows : flows ≠ []) (running : Bool) :
    Sends flows { streams := flows.map fun own => ⟨own, 0⟩, running := running } where
  even := even_start (List.length_pos_iff.mpr hFlows)
  length_eq := List.length_map _
  streamAt := fun j own hOwn => by
    refine ⟨⟨own, 0⟩, ?_, rfl, fun _ => (Nat.zero_mod _).symm⟩
    rw [List.getElem?_map, hOwn]
    rfl
  destinations := fun _ _ _ => rfl

/-- The loop only ends between two passes, and only for a signal or for the status
of the last round. -/
structure EndsBetween (signal : Nat → Bool) (s : Sending α) : Prop where
  between : s.running = false → s.chunk = 0 ∧ s.streamIndex = 0
  reason : s.running = false → endsSending s.rc = true ∨ signal s.passes = true

theorem endsBetween_endRound (rc : ReturnStatus) (hRunning : s.running = true) :
    EndsBetween signal (endRound numOfChunks signal rc s) := by
  unfold endRound
  split_ifs
  · exact ⟨fun hOff => Bool.noConfusion (hRunning.symm.trans hOff),
      fun hOff => Bool.noConfusion (hRunning.symm.trans hOff)⟩
  · refine ⟨fun _ => ⟨rfl, rfl⟩, fun hOff => ?_⟩
    show endsSending rc = true ∨ signal (s.passes + 1) = true
    have hEither : (!endsSending rc && !signal (s.passes + 1)) = false := hOff
    cases hEnds : endsSending rc with
    | true => exact .inl rfl
    | false =>
      rw [hEnds] at hEither
      exact .inr (by simpa using hEither)

theorem EndsBetween.attempt (h : EndsBetween signal s) (attempt : SendAttempt) :
    EndsBetween signal (sendAttempt numOfChunks signal attempt s) := by
  unfold sendAttempt
  cases hStream : s.streams[s.streamIndex]? with
  | none => exact h
  | some stream =>
    dsimp only
    split_ifs with hOff
    · exact h
    all_goals
      have hRunning : s.running = true := by
        cases hIs : s.running with
        | true => rfl
        | false => simp [hIs] at hOff
    · exact ⟨fun hNot => Bool.noConfusion (hRunning.symm.trans hNot),
        fun hNot => Bool.noConfusion (hRunning.symm.trans hNot)⟩
    · exact endsBetween_endRound _ hRunning
    · exact endsBetween_endRound _ hRunning
    · exact endsBetween_endRound _ hRunning
    · unfold commitChunk
      dsimp only
      split_ifs
      · exact ⟨fun hNot => Bool.noConfusion (hRunning.symm.trans hNot),
          fun hNot => Bool.noConfusion (hRunning.symm.trans hNot)⟩
      · exact endsBetween_endRound _ hRunning

/-- **The streams share the sender fairly**, whatever the calls return. Of two streams
the earlier is ahead by the rounds that were cut short between them, and the one
that is on its way; the chunks of a stream go to its flows in turn, and so no flow
gets more than one chunk more than another. Only the last round of a pass can end
the loop. -/
theorem sending_fair (numOfChunks : Nat) (signal : Nat → Bool) {flows : List (List α)}
    (hFlows : flows ≠ []) (attempts : List SendAttempt) :
    let s := sendStreams numOfChunks signal flows attempts
    (∀ i j, i ≤ j → j < flows.length →
      (destinationsOf s i).length = (destinationsOf s j).length +
        (s.cuts.countP fun k => i < k ∧ k ≤ j) +
          if i < s.streamIndex ∧ s.streamIndex ≤ j then 1 else 0) ∧
      (∀ j own, flows[j]? = some own →
        destinationsOf s j = (List.range (destinationsOf s j).length).map
          (SendingStream.destination own) ∧
        ∀ f g, f < own.length → g < own.length →
          ((List.range (destinationsOf s j).length).countP fun n => n % own.length = f) ≤
            ((List.range (destinationsOf s j).length).countP fun n => n % own.length = g) + 1) ∧
      (s.running = false → s.chunk = 0 ∧ s.streamIndex = 0 ∧
        (endsSending s.rc = true ∨ signal s.passes = true)) := by
  have hRun : ∀ attempts : List SendAttempt,
      Sends flows (sendStreams numOfChunks signal flows attempts) ∧
        EndsBetween signal (sendStreams numOfChunks signal flows attempts) := by
    -- attempt by attempt
    intro attempts
    induction attempts using List.reverseRecOn with
    | nil =>
      refine ⟨sends_start hFlows _, fun _ => ⟨rfl, rfl⟩, fun hOff => .inr ?_⟩
      have hSignal : (!signal 0) = false := hOff
      show signal 0 = true
      simpa using hSignal
    | append_singleton attempts attempt ih =>
      obtain ⟨hSends, hEnds⟩ := ih
      unfold sendStreams at hSends hEnds ⊢
      rw [List.foldl_append]
      exact ⟨hSends.attempt attempt, hEnds.attempt attempt⟩
  obtain ⟨hSends, hEnds⟩ := hRun attempts
  generalize sendStreams numOfChunks signal flows attempts = s at hSends hEnds
  have hLength (j : Nat) (hj : j < flows.length) :
      (destinationsOf s j).length = (recordOf s).times j := by
    rw [hSends.destinations j _ (List.getElem?_eq_getElem hj), List.length_map, List.length_range]
  refine ⟨fun i j hij hj => ?_, fun j own hOwn => ⟨?_, fun f g hf hg => ?_⟩, fun hOff => ?_⟩
  · rw [hLength i (by omega), hLength j hj]
    exact hSends.even.times_eq i j hij hj
  · rw [hLength j (List.getElem?_eq_some_iff.mp hOwn).1]
    exact hSends.destinations j own hOwn
  · have hCount (n t : Nat) :
        ((List.range n).countP fun n => n % own.length = t) = RoundRobin.dealt n own.length t := by
      induction n with
      | zero => rfl
      | succ n ih =>
        rw [List.range_succ, List.countP_append, ih, List.countP_singleton, RoundRobin.dealt_succ]
        simp only [decide_eq_true_eq]
    rw [hCount, hCount]
    exact RoundRobin.dealt_le_succ hf hg _
  · obtain ⟨hChunk, hIndex⟩ := hEnds.between hOff
    exact ⟨hChunk, hIndex, hEnds.reason hOff⟩

/-- Two streams, of two flows and of one. The second chunk of the second stream is not
laid out: that stream stays one chunk behind. -/
theorem sending_fair_cut :
    let s := sendStreams 2 (fun _ => false) [["a", "b"], ["c"]]
      [{}, {}, {}, { layout := .failure }, {}]
    ((destinationsOf s 0).length = (destinationsOf s 1).length + 1 + 1) ∧
      destinationsOf s 0 = [some "a", some "b", some "a"] :=
  ⟨(sending_fair 2 (fun _ => false) (by decide) _).1 0 1 (by decide) (by decide),
    (((sending_fair 2 (fun _ => false) (by decide) _).2.1 0 ["a", "b"] rfl).1)⟩

end Sweeps

end GenericSenderIONode
end RivermaxDevKit
