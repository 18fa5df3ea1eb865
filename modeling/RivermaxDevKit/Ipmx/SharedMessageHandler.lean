import Mathlib.Data.List.Induction
import RivermaxDevKit.Core.GenericSendStream
import RivermaxDevKit.Ipmx.ReportRoundTrip

/-!
# Shared message handler

The streams of an IPMX sender node hand their reports to one
`SharedMessageHandler` (`ipmx_sender_io_node.cpp`), which sends all of them
through the first chunk of the RTCP stream. The library reads a report from
memory until it has completed it; it may refuse the chunk, before anything is
written, or the packet, behind that.

* `Safe` — the pending reports have memory of their own, and it still says what
  their streams wrote.
* `pending_reports_safe_iff` — the runs that stay safe.
-/

namespace RivermaxDevKit

open ByteStore

/-! ## Handler -/

/-- `SharedMessageHandler`: the packets of its chunk are lists of sub-blocks. -/
structure SharedMessageHandler where
  pendingMessageCount : Nat := 0
  chunkHandle : List (List Region)

namespace SharedMessageHandler

/-- The first sub-block of the first packet. -/
def buffer (h : SharedMessageHandler) : Option Region :=
  (h.chunkHandle[0]?).bind (·[0]?)

/-- `get_next_buffer`, `nextChunk` being what `get_next_chunk` returns: the
buffer, also while the packet is in flight. -/
def getNextBuffer (nextChunk : ReturnStatus) (h : SharedMessageHandler) :
    ReturnStatus × Option Region :=
  if nextChunk ≠ .success then (nextChunk, none) else (.success, h.buffer)

/-- `commit_message`, `append` being what `apply_packets_layout` returns: the
region becomes the sub-block first. What marking and committing the chunk return
is dropped: the message counts as pending. -/
def commitMessage (append : ReturnStatus) (mreg : Region) (h : SharedMessageHandler) :
    ReturnStatus × SharedMessageHandler :=
  let placed :=
    { h with chunkHandle := h.chunkHandle.modify 0 fun packet => packet.set 0 mreg }
  if append ≠ .success then (append, placed)
  else (.success, { placed with pendingMessageCount := h.pendingMessageCount + 1 })

end SharedMessageHandler

/-! ## Node -/

/-- What the node's streams have in common. All send from one source address. -/
structure ReportNode where
  settings : MediaSettings
  sourceIp : List UInt8
  streamNumbers : List Nat
  memRegion : Region
  /-- `m_sender_report_buffer_size`. -/
  senderReportBufferSize : Nat
  clock : ReportClock := .exact

/-- A report the library has not completed: who sent it, from which counters,
where it lies, and the bytes the stream wrote there. -/
structure PendingReport where
  senderId : Nat
  counters : ReportCounters
  region : Region
  bytes : List UInt8

/-- The handler, the `m_report` of each stream, the memory, and the reports in
flight. -/
structure ReportState where
  handler : SharedMessageHandler
  reports : List Memory
  memory : Memory
  inFlight : List PendingReport := []

/-- What `get_next_chunk` and `apply_packets_layout` return. -/
structure ChunkAnswers where
  nextChunk : ReturnStatus := .success
  append : ReturnStatus := .success
  deriving DecidableEq, Repr

namespace ReportNode

variable (n : ReportNode)

/-- The size of a compound report, `m_report_size`. -/
def reportSize : Nat := SENDER_REPORT_SIZE + sdesSize n.sourceIp

/-- The RTCP stream: a chunk for each stream, of one packet without a header. -/
def rtcpStream : GenericStreamSettings where
  numOfRequestedChunks := n.streamNumbers.length
  numOfPacketsInChunk := 1
  packetTypicalPayloadSize := n.senderReportBufferSize

/-- `start_rivermax_streams`: the handler gets the first chunk of the RTCP stream. -/
def start : Option ReportState := do
  let chunks := (n.rtcpStream.initializeChunks n.rtcpStream.numOfRequestedChunks
    n.memRegion.addr).1
  let chunk ← chunks[0]?
  let templates ← n.streamNumbers.mapM fun number =>
    prepareCompoundReportTemplate n.settings (UInt32.ofNat number).toNat n.sourceIp
  return {
    handler := { chunkHandle := chunk }
    reports := templates.map Prod.fst
    memory := fun _ => 0 }

/-- `commit_sender_report` of the stream `senderId`. The whole structure is
copied; the region covers the report in it. -/
def commitReport (senderId : Nat) (r : ReportCounters) (answers : ChunkAnswers)
    (st : ReportState) : Option (ReturnStatus × ReportState) :=
  match st.handler.getNextBuffer answers.nextChunk with
  | (.success, buffer) => do
    let mreg ← buffer
    let template ← st.reports[senderId]?
    let report ← commitSenderReport n.settings r template n.clock
    -- the region is cut to the report, and placed as the sub-block
    let region : Region := { mreg with length := n.reportSize }
    let committed := st.handler.commitMessage answers.append region
    let written : ReportState :=
      { st with
        handler := committed.2
        reports := st.reports.set senderId report
        -- the copy runs before the packet is given to the library
        memory := write mreg.addr (read report 0 COMPOUND_PACKET_SIZE) st.memory }
    if committed.1 ≠ .success then some (committed.1, written)
    else
      some (.success,
        { written with
          inFlight := st.inFlight ++
            [{ senderId := senderId, counters := r, region := region,
               bytes := read report 0 n.reportSize }] })
  | (status, _) => some (status, st)

/-- `check_completion`, when the library has completed the `k`-th pending report
and `info` is what `get_last_completion_info` returns. -/
def checkCompletion (k : Nat) (info : ReturnStatus) (st : ReportState) : ReportState :=
  if st.handler.pendingMessageCount = 0 then st
  else
    let polled := { st with inFlight := st.inFlight.eraseIdx k }
    -- a status that is no success leaves the count
    if info ≠ .success then polled
    else
      { polled with
        handler :=
          { st.handler with pendingMessageCount := st.handler.pendingMessageCount - 1 } }

inductive ReportEvent
  | commit (senderId : Nat) (r : ReportCounters) (answers : ChunkAnswers)
  | completion (k : Nat) (info : ReturnStatus)
  deriving DecidableEq, Repr

def step (st : ReportState) : ReportEvent → Option ReportState
  | .commit senderId r answers => (n.commitReport senderId r answers st).map Prod.snd
  | .completion k info => if k < st.inFlight.length then some (checkCompletion k info st) else none

/-- A run of calls, each with any answers of the library. -/
def run (events : List ReportEvent) (st : ReportState) : Option ReportState :=
  events.foldlM n.step st

/-! ## Safety -/

/-- The pending reports have memory of their own, with their bytes in it. -/
structure Safe (st : ReportState) : Prop where
  apart : st.inFlight.Pairwise fun a b => a.region.Disjoint b.region
  intact : ∀ p ∈ st.inFlight, read st.memory p.region.addr p.region.length = p.bytes

/-- Every state a run passes through is safe. -/
def SafeThroughout (events : List ReportEvent) (st : ReportState) : Prop :=
  ∀ done left, events = done ++ left → ∀ reached, n.run done st = some reached → Safe reached

/-- The stream `senderId` would send the pending report `p` once more. -/
def Repeats (senderId : Nat) (r : ReportCounters) (p : PendingReport) : Prop :=
  ∃ number number', n.streamNumbers[senderId]? = some number ∧
    n.streamNumbers[p.senderId]? = some number' ∧
    SameReport n.settings n.clock (UInt32.ofNat number) (UInt32.ofNat number') r p.counters

/-- A commit that gets its chunk is made while no report is pending, of whichever
stream. Where the library refuses the packet, it may repeat the reports that are
pending. -/
def CommitsAlone (events : List ReportEvent) (st : ReportState) : Prop :=
  ∀ done senderId r answers left, events = done ++ .commit senderId r answers :: left →
    ∀ reached, n.run done st = some reached → answers.nextChunk = .success →
      reached.inFlight = [] ∨
        answers.append ≠ .success ∧ ∀ p ∈ reached.inFlight, n.Repeats senderId r p

/-- What holds of any run: there is one buffer, every report lies in it, and a
report is made of its stream's number and its counters. -/
structure ReportInvariant (n : ReportNode) (st : ReportState) : Prop where
  buffer : ∃ length, st.handler.buffer = some ⟨n.memRegion.addr, length⟩
  regions : ∀ p ∈ st.inFlight, p.region = ⟨n.memRegion.addr, n.reportSize⟩
  count : st.inFlight.length ≤ st.handler.pendingMessageCount
  templates : ∀ (i : Nat) (template : Memory), st.reports[i]? = some template →
    ∃ number, n.streamNumbers[i]? = some number ∧ ∀ r,
      updateSenderReport n.settings r template n.clock =
        committedReport n.settings (UInt32.ofNat number).toNat n.sourceIp r n.clock
  sent : ∀ p ∈ st.inFlight, ∃ number, n.streamNumbers[p.senderId]? = some number ∧
    p.bytes = read (committedReport n.settings (UInt32.ofNat number).toNat n.sourceIp p.counters
      n.clock) 0 n.reportSize

section Runs

variable {n} {st st' : ReportState}

theorem reportSize_pos : 0 < n.reportSize := by
  unfold reportSize SENDER_REPORT_SIZE
  omega

theorem reportSize_le : n.reportSize ≤ COMPOUND_PACKET_SIZE := by
  -- the name of the source fits a byte
  have hLength : cnameLength n.sourceIp < 256 := Nat.mod_lt _ (by decide)
  unfold reportSize sdesSize alignUpPow2 SENDER_REPORT_SIZE COMPOUND_PACKET_SIZE
  omega

/-! ### A commit -/

/-- What a call leaves that got its chunk: the report stands in the buffer,
whatever becomes of the packet. -/
structure Written (n : ReportNode) (senderId : Nat) (r : ReportCounters) (st st' : ReportState)
    (mreg : Region) (template : Memory) : Prop where
  buffer : st.handler.buffer = some mreg
  prepared : st.reports[senderId]? = some template
  handler : st'.handler.chunkHandle = st.handler.chunkHandle.modify 0 fun packet =>
    packet.set 0 ⟨mreg.addr, n.reportSize⟩
  reports : st'.reports =
    st.reports.set senderId (updateSenderReport n.settings r template n.clock)
  memory : st'.memory = write mreg.addr (read
    (updateSenderReport n.settings r template n.clock) 0 COMPOUND_PACKET_SIZE) st.memory

/-- A commit without a chunk changes nothing. -/
theorem step_commit_refused {senderId : Nat} {r : ReportCounters} {answers : ChunkAnswers}
    (hChunk : answers.nextChunk ≠ .success)
    (hStep : n.step st (.commit senderId r answers) = some st') : st' = st := by
  have hBuffer : st.handler.getNextBuffer answers.nextChunk = (answers.nextChunk, none) :=
    if_pos hChunk
  rw [step, commitReport, hBuffer] at hStep
  cases hStatus : answers.nextChunk with
  | success => exact absurd hStatus hChunk
  | _ =>
    rw [hStatus] at hStep
    exact (Option.some.inj hStep).symm

/-- A commit with a chunk writes the report; it is pending if the packet is taken. -/
theorem step_commit_granted {senderId : Nat} {r : ReportCounters} {answers : ChunkAnswers}
    (hChunk : answers.nextChunk = .success)
    (hStep : n.step st (.commit senderId r answers) = some st') :
    ∃ mreg template, Written n senderId r st st' mreg template ∧
      (answers.append ≠ .success ∧ st'.inFlight = st.inFlight ∧
          st'.handler.pendingMessageCount = st.handler.pendingMessageCount ∨
        answers.append = .success ∧
          st'.handler.pendingMessageCount = st.handler.pendingMessageCount + 1 ∧
          st'.inFlight = st.inFlight ++ [⟨senderId, r, ⟨mreg.addr, n.reportSize⟩,
            read (updateSenderReport n.settings r template n.clock) 0 n.reportSize⟩]) := by
  have hBuffer : st.handler.getNextBuffer answers.nextChunk = (.success, st.handler.buffer) :=
    if_neg (not_not.mpr hChunk)
  rw [step, commitReport, hBuffer] at hStep
  obtain ⟨⟨status, state⟩, hCommit, rfl⟩ := Option.map_eq_some_iff.mp hStep
  simp only [Option.bind_eq_bind, Option.bind_eq_some_iff] at hCommit
  obtain ⟨mreg, hRegion, template, hTemplate, report, hReport, hState⟩ := hCommit
  -- the report is built in place of the stream's template
  obtain rfl := Option.some.inj (Option.ite_none_left_eq_some.mp hReport).2
  by_cases hAppend : answers.append = .success
  · -- the packet is taken, and the message counts
    have hTaken : st.handler.commitMessage answers.append ⟨mreg.addr, n.reportSize⟩ = (.success,
        ⟨st.handler.pendingMessageCount + 1, st.handler.chunkHandle.modify 0 fun packet =>
          packet.set 0 ⟨mreg.addr, n.reportSize⟩⟩) := if_neg (not_not.mpr hAppend)
    rw [hTaken, if_neg (not_not.mpr rfl)] at hState
    obtain rfl := (Prod.mk.inj (Option.some.inj hState)).2
    exact ⟨mreg, template, ⟨hRegion, hTemplate, rfl, rfl, rfl⟩, Or.inr ⟨hAppend, rfl, rfl⟩⟩
  · -- the packet is refused behind the copy
    have hRefused : st.handler.commitMessage answers.append ⟨mreg.addr, n.reportSize⟩ =
        (answers.append,
          ⟨st.handler.pendingMessageCount, st.handler.chunkHandle.modify 0 fun packet =>
            packet.set 0 ⟨mreg.addr, n.reportSize⟩⟩) := if_pos hAppend
    rw [hRefused, if_pos hAppend] at hState
    obtain rfl := (Prod.mk.inj (Option.some.inj hState)).2
    exact ⟨mreg, template, ⟨hRegion, hTemplate, rfl, rfl, rfl⟩, Or.inl ⟨hAppend, rfl, rfl⟩⟩

/-- The region that was placed is the buffer from then on. -/
theorem Written.buffer_eq {senderId : Nat} {r : ReportCounters} {mreg : Region}
    {template : Memory} (h : Written n senderId r st st' mreg template) :
    st'.handler.buffer = some ⟨mreg.addr, n.reportSize⟩ := by
  obtain ⟨packet, hPacket, hSubBlock⟩ := Option.bind_eq_some_iff.mp h.buffer
  -- the first packet has a sub-block, which becomes the region
  obtain ⟨hLength, -⟩ := List.getElem?_eq_some_iff.mp hSubBlock
  rw [SharedMessageHandler.buffer, h.handler, List.getElem?_modify_eq, hPacket]
  exact List.getElem?_set_self hLength

/-- The front of the structure that is copied is the report. -/
theorem Written.read_eq {senderId : Nat} {r : ReportCounters} {mreg : Region}
    {template : Memory} (h : Written n senderId r st st' mreg template) :
    read st'.memory mreg.addr n.reportSize =
      read (updateSenderReport n.settings r template n.clock) 0 n.reportSize := by
  rw [h.memory, ← take_read _ _ reportSize_le, read_write_same (length_read _ _ _),
    take_read _ _ reportSize_le]

/-! ### Any run -/

/-- Templates are made in the order of the streams. -/
theorem getElem?_of_mapM {α β : Type} {f : α → Option β} {l : List α} {l' : List β}
    (h : l.mapM f = some l') (i : Nat) {b : β} (hb : l'[i]? = some b) :
    ∃ a, l[i]? = some a ∧ f a = some b := by
  induction l generalizing l' i with
  | nil =>
    obtain rfl := Option.some.inj h
    exact absurd hb nofun
  | cons a l ih =>
    simp only [List.mapM_cons, Option.bind_eq_bind, Option.bind_eq_some_iff] at h
    obtain ⟨b', hHead, rest, hRest, hList⟩ := h
    obtain rfl := Option.some.inj hList
    cases i with
    | zero => exact ⟨a, rfl, hHead.trans hb⟩
    | succ i => exact ih hRest i hb

theorem start_invariant (hStart : n.start = some st) :
    ReportInvariant n st ∧ st.inFlight = [] := by
  unfold start at hStart
  simp only [Option.bind_eq_bind, Option.bind_eq_some_iff] at hStart
  obtain ⟨chunk, hChunk, templates, hTemplates, hState⟩ := hStart
  obtain rfl := Option.some.inj hState
  refine ⟨⟨⟨n.senderReportBufferSize, ?_⟩, nofun, le_rfl, ?_, nofun⟩, rfl⟩
  · -- a node without streams has no chunk to start with
    cases hStreams : n.rtcpStream.numOfRequestedChunks with
    | zero =>
      rw [hStreams] at hChunk
      contradiction
    | succ chunks =>
      rw [hStreams] at hChunk
      obtain rfl := Option.some.inj hChunk
      rfl
  · intro i template hTemplate
    change (templates.map Prod.fst)[i]? = some template at hTemplate
    rw [List.getElem?_map] at hTemplate
    obtain ⟨made, hMade, rfl⟩ := Option.map_eq_some_iff.mp hTemplate
    obtain ⟨number, hNumber, hPrepared⟩ := getElem?_of_mapM hTemplates i hMade
    obtain rfl := Option.some.inj (Option.ite_none_left_eq_some.mp hPrepared).2
    exact ⟨number, hNumber, fun _ => rfl⟩

theorem Written.templates {senderId : Nat} {r : ReportCounters} {mreg : Region}
    {template : Memory} (h : ReportInvariant n st)
    (hWritten : Written n senderId r st st' mreg template) :
    ∀ (i : Nat) (template' : Memory), st'.reports[i]? = some template' →
      ∃ number, n.streamNumbers[i]? = some number ∧ ∀ r,
        updateSenderReport n.settings r template' n.clock =
          committedReport n.settings (UInt32.ofNat number).toNat n.sourceIp r n.clock := by
  intro i template' hTemplate
  rw [hWritten.reports, List.getElem?_set] at hTemplate
  split at hTemplate
  · -- the stream that wrote: its new template makes the same reports
    rename_i hSelf
    obtain ⟨-, hUpdated⟩ := Option.ite_none_right_eq_some.mp hTemplate
    obtain rfl := Option.some.inj hUpdated
    obtain ⟨number, hNumber, hReport⟩ := h.templates senderId template hWritten.prepared
    refine ⟨number, hSelf ▸ hNumber, fun r' => ?_⟩
    rw [updateSenderReport_update, hReport]
  · exact h.templates i template' hTemplate

theorem checkCompletion_eq (h : ReportInvariant n st) {k : Nat} (hPending : k < st.inFlight.length)
    (info : ReturnStatus) :
    (checkCompletion k info st).inFlight = st.inFlight.eraseIdx k ∧
      (checkCompletion k info st).memory = st.memory ∧
      (checkCompletion k info st).reports = st.reports ∧
      (checkCompletion k info st).handler.chunkHandle = st.handler.chunkHandle ∧
      st.handler.pendingMessageCount - 1 ≤
        (checkCompletion k info st).handler.pendingMessageCount := by
  have hCount := h.count
  unfold checkCompletion
  rw [if_neg (by omega)]
  split
  · exact ⟨rfl, rfl, rfl, rfl, Nat.sub_le _ _⟩
  · exact ⟨rfl, rfl, rfl, rfl, le_rfl⟩

theorem step_invariant {event : ReportEvent} (h : ReportInvariant n st)
    (hStep : n.step st event = some st') : ReportInvariant n st' := by
  cases event with
  | commit senderId r answers =>
    by_cases hChunk : answers.nextChunk = .success
    · -- the report goes to the one buffer there is
      obtain ⟨mreg, template, hWritten, hPacket⟩ := step_commit_granted hChunk hStep
      obtain ⟨length, hSame⟩ := h.buffer
      obtain rfl := Option.some.inj (hWritten.buffer.symm.trans hSame)
      have hBuffer : ∃ length, st'.handler.buffer = some ⟨n.memRegion.addr, length⟩ :=
        ⟨n.reportSize, hWritten.buffer_eq⟩
      rcases hPacket with ⟨-, hFlight, hCount⟩ | ⟨-, hCount, hFlight⟩
      · -- refused behind the copy: what is pending is as before
        exact ⟨hBuffer, hFlight ▸ h.regions, by rw [hFlight, hCount]; exact h.count,
          hWritten.templates h, hFlight ▸ h.sent⟩
      · -- one more is pending, in the same place
        refine ⟨hBuffer, ?_, ?_, hWritten.templates h, ?_⟩
        · rw [hFlight]
          exact List.forall_mem_append.mpr ⟨h.regions, List.forall_mem_singleton.mpr rfl⟩
        · rw [hCount, hFlight, List.length_append]
          exact Nat.succ_le_succ h.count
        · rw [hFlight]
          refine List.forall_mem_append.mpr ⟨h.sent, List.forall_mem_singleton.mpr ?_⟩
          obtain ⟨number, hNumber, hReport⟩ := h.templates senderId template hWritten.prepared
          exact ⟨number, hNumber, congrArg (read · 0 n.reportSize) (hReport r)⟩
    · rw [step_commit_refused hChunk hStep]
      exact h
  | completion k info =>
    -- a completion takes a report out and keeps the buffer
    obtain ⟨hPending, hDone⟩ := Option.ite_none_right_eq_some.mp hStep
    obtain rfl := Option.some.inj hDone
    obtain ⟨hFlight, -, hReports, hHandler, hCount⟩ := checkCompletion_eq h hPending info
    refine ⟨?_, ?_, ?_, hReports ▸ h.templates, ?_⟩
    · rw [SharedMessageHandler.buffer, hHandler]
      exact h.buffer
    · rw [hFlight]
      exact fun p hp => h.regions p (List.mem_of_mem_eraseIdx hp)
    · have hLe := h.count
      rw [hFlight, List.length_eraseIdx_of_lt hPending]
      omega
    · rw [hFlight]
      exact fun p hp => h.sent p (List.mem_of_mem_eraseIdx hp)

theorem run_concat {events : List ReportEvent} {event : ReportEvent} :
    n.run (events ++ [event]) st = (n.run events st).bind fun reached => n.step reached event := by
  unfold run
  rw [List.foldlM_append]
  congr 1
  funext reached
  exact bind_pure _

theorem run_invariant (events : List ReportEvent) (h : ReportInvariant n st)
    (hRun : n.run events st = some st') : ReportInvariant n st' := by
  induction events using List.reverseRecOn generalizing st' with
  | nil =>
    obtain rfl := Option.some.inj hRun
    exact h
  | append_singleton events event ih =>
    rw [run_concat] at hRun
    obtain ⟨reached, hReached, hStep⟩ := Option.bind_eq_some_iff.mp hRun
    exact step_invariant (ih hReached) hStep

/-! ### Reports one at a time -/

/-- Repeating a report is writing its bytes. -/
theorem repeats_iff {senderId : Nat} {r : ReportCounters} {mreg : Region} {template : Memory}
    (h : ReportInvariant n st) (hWritten : Written n senderId r st st' mreg template)
    {p : PendingReport} (hp : p ∈ st.inFlight) :
    n.Repeats senderId r p ↔
      read (updateSenderReport n.settings r template n.clock) 0 n.reportSize = p.bytes := by
  obtain ⟨number, hNumber, hReport⟩ := h.templates senderId template hWritten.prepared
  obtain ⟨number', hNumber', hBytes⟩ := h.sent p hp
  have hSame := @read_committedReport_eq_iff n.settings (UInt32.ofNat number)
    (UInt32.ofNat number') n.sourceIp r p.counters n.clock
  rw [hReport, hBytes]
  refine Iff.trans ⟨?_, ?_⟩ hSame.symm
  · rintro ⟨i, j, hi, hj, hRepeats⟩
    obtain rfl := Option.some.inj (hi.symm.trans hNumber)
    obtain rfl := Option.some.inj (hj.symm.trans hNumber')
    exact hRepeats
  · intro hRepeats
    exact ⟨number, number', hNumber, hNumber', hRepeats⟩

/-- At most one report is pending, and its bytes are in memory. -/
def OnePending (st : ReportState) : Prop :=
  st.inFlight = [] ∨
    ∃ p, st.inFlight = [p] ∧ read st.memory p.region.addr p.region.length = p.bytes

theorem OnePending.safe (h : OnePending st) : Safe st := by
  rcases h with hNone | ⟨p, hOne, hIntact⟩
  · exact ⟨hNone ▸ .nil, fun p hp => absurd hp (hNone ▸ List.not_mem_nil)⟩
  · refine ⟨hOne ▸ List.pairwise_singleton _ _, ?_⟩
    rw [hOne]
    exact List.forall_mem_singleton.mpr hIntact

theorem step_onePending {event : ReportEvent} (h : ReportInvariant n st) (hOne : OnePending st)
    (hAlone : ∀ senderId r answers, event = .commit senderId r answers →
      answers.nextChunk = .success → st.inFlight = [] ∨
        answers.append ≠ .success ∧ ∀ p ∈ st.inFlight, n.Repeats senderId r p)
    (hStep : n.step st event = some st') : OnePending st' := by
  cases event with
  | commit senderId r answers =>
    by_cases hChunk : answers.nextChunk = .success
    · obtain ⟨mreg, template, hWritten, hPacket⟩ := step_commit_granted hChunk hStep
      rcases hPacket with ⟨hRefused, hFlight, -⟩ | ⟨hTaken, -, hFlight⟩
      · rcases hOne with hNone | ⟨p, hPending, -⟩
        · exact Or.inl (hFlight.trans hNone)
        · -- the pending report stands in the buffer that is written
          have hp : p ∈ st.inFlight := hPending ▸ List.mem_singleton_self p
          have hRepeats : n.Repeats senderId r p := by
            rcases hAlone senderId r answers rfl hChunk with hNone | ⟨-, hAll⟩
            · exact absurd (hNone ▸ hp) List.not_mem_nil
            · exact hAll p hp
          obtain ⟨length, hSame⟩ := h.buffer
          obtain rfl := Option.some.inj (hWritten.buffer.symm.trans hSame)
          refine Or.inr ⟨p, hFlight.trans hPending, ?_⟩
          rw [h.regions p hp]
          exact hWritten.read_eq.trans ((repeats_iff h hWritten hp).mp hRepeats)
      · -- the packet was taken, so nothing else was pending
        have hNone : st.inFlight = [] := by
          rcases hAlone senderId r answers rfl hChunk with hNone | ⟨hRefused, -⟩
          · exact hNone
          · exact absurd hTaken hRefused
        rw [hNone] at hFlight
        exact Or.inr ⟨_, hFlight, hWritten.read_eq⟩
    · rw [step_commit_refused hChunk hStep]
      exact hOne
  | completion k info =>
    obtain ⟨hPending, hDone⟩ := Option.ite_none_right_eq_some.mp hStep
    obtain rfl := Option.some.inj hDone
    obtain ⟨hFlight, -⟩ := checkCompletion_eq h hPending info
    rcases hOne with hNone | ⟨p, hOnly, -⟩
    · rw [hNone] at hPending
      contradiction
    · -- the only report completes
      rw [hOnly] at hPending hFlight
      obtain rfl : k = 0 := Nat.lt_one_iff.mp hPending
      exact Or.inl hFlight

theorem CommitsAlone.of_append {events left : List ReportEvent}
    (h : CommitsAlone n (events ++ left) st) : CommitsAlone n events st := by
  intro done senderId r answers rest hSplit
  exact h done senderId r answers (rest ++ left) (by simp [hSplit])

/-- Where reports are committed one at a time, at most one is pending. -/
theorem run_onePending (events : List ReportEvent) (h : ReportInvariant n st)
    (hEmpty : st.inFlight = []) (hAlone : CommitsAlone n events st)
    (hRun : n.run events st = some st') : OnePending st' := by
  induction events using List.reverseRecOn generalizing st' with
  | nil =>
    obtain rfl := Option.some.inj hRun
    exact Or.inl hEmpty
  | append_singleton events event ih =>
    rw [run_concat] at hRun
    obtain ⟨reached, hReached, hStep⟩ := Option.bind_eq_some_iff.mp hRun
    refine step_onePending (run_invariant events h hReached) (ih hAlone.of_append hReached) ?_ hStep
    rintro senderId r answers rfl
    exact hAlone events senderId r answers [] rfl reached hReached

/-- A report over a pending one: they share the buffer, or it says something
else than the pending one. -/
theorem alone_of_safe {senderId : Nat} {r : ReportCounters} {answers : ChunkAnswers}
    (h : ReportInvariant n st) (hChunk : answers.nextChunk = .success)
    (hStep : n.step st (.commit senderId r answers) = some st') (hSafe : Safe st') :
    st.inFlight = [] ∨ answers.append ≠ .success ∧ ∀ p ∈ st.inFlight, n.Repeats senderId r p := by
  obtain ⟨mreg, template, hWritten, hPacket⟩ := step_commit_granted hChunk hStep
  obtain ⟨length, hSame⟩ := h.buffer
  obtain rfl := Option.some.inj (hWritten.buffer.symm.trans hSame)
  rcases hPacket with ⟨hRefused, hFlight, -⟩ | ⟨-, -, hFlight⟩
  · -- what is pending was overwritten, and is intact all the same
    refine Or.inr ⟨hRefused, fun p hp => ?_⟩
    have hIntact := hSafe.intact p (hFlight ▸ hp)
    rw [h.regions p hp] at hIntact
    exact (repeats_iff h hWritten hp).mpr (hWritten.read_eq.symm.trans hIntact)
  · left
    by_contra hPending
    obtain ⟨p, hp⟩ := List.exists_mem_of_ne_nil _ hPending
    have hApart := hSafe.apart
    rw [hFlight] at hApart
    -- the new report would have to lie apart from one in the same place
    have hDisjoint := (List.pairwise_append.mp hApart).2.2 p hp _ List.mem_cons_self
    rw [h.regions p hp] at hDisjoint
    exact Region.not_disjoint_self reportSize_pos hDisjoint

end Runs

/-- **Pending reports.** A run of commits and completions, by any of the streams,
in any order and with any answers of the library, keeps the pending reports
apart and intact exactly if every report that gets its chunk is committed when
none is pending, or is refused behind that and repeats what is pending. -/
theorem pending_reports_safe_iff {st final : ReportState} (hStart : n.start = some st)
    {events : List ReportEvent} (hRun : n.run events st = some final) :
    SafeThroughout n events st ↔ CommitsAlone n events st := by
  obtain ⟨hInitial, hEmpty⟩ := start_invariant hStart
  constructor
  · intro hSafe done senderId r answers left hSplit reached hReached hChunk
    rw [hSplit, run, List.foldlM_append] at hRun
    obtain ⟨reached', hReached', hRest⟩ := Option.bind_eq_some_iff.mp hRun
    obtain rfl := Option.some.inj (hReached.symm.trans hReached')
    obtain ⟨after, hCommit, -⟩ := Option.bind_eq_some_iff.mp hRest
    -- the state behind the commit is one of the run
    have hAfter : n.run (done ++ [.commit senderId r answers]) st = some after := by
      rw [run_concat, hReached]
      exact hCommit
    exact alone_of_safe (run_invariant done hInitial hReached) hChunk hCommit
      (hSafe (done ++ [.commit senderId r answers]) left (by simp [hSplit]) after hAfter)
  · intro hAlone done left hSplit reached hReached
    subst hSplit
    exact (run_onePending done hInitial hEmpty hAlone.of_append hReached).safe

/-- Two streams of full HD in one node. -/
def twoStreams : ReportNode where
  settings := (commonMediaSettings (fullHd ⟨25, 1⟩ .Progressive) 5 2).media
  sourceIp := asciiBytes "192.168.1.1"
  streamNumbers := [0, 1]
  memRegion := ⟨4096, 1024⟩
  senderReportBufferSize := 512

/-- One stream's report, a commit of the other without a chunk, the completion,
and the other's report. -/
theorem pending_reports_safe_iff_twoStreams :
    ∃ st, twoStreams.start = some st ∧
      SafeThroughout twoStreams [.commit 0 {} {}, .commit 1 {} { nextChunk := .noFreeChunks },
        .completion 0 .success, .commit 1 {} {}] st := by
  refine ⟨_, rfl, (@pending_reports_safe_iff twoStreams _ _ rfl _ rfl).mpr ?_⟩
  intro done senderId r answers left hSplit reached hReached hChunk
  left
  match done with
  | [] =>
    obtain rfl := Option.some.inj hReached
    rfl
  | [_] =>
    simp only [List.cons_append, List.nil_append, List.cons.injEq, ReportEvent.commit.injEq]
      at hSplit
    obtain ⟨-, ⟨-, -, rfl⟩, -⟩ := hSplit
    contradiction
  | [_, _] => simp at hSplit
  | [_, _, _] =>
    simp only [List.cons_append, List.nil_append, List.cons.injEq] at hSplit
    obtain ⟨rfl, rfl, rfl, -⟩ := hSplit
    obtain rfl := Option.some.inj hReached
    rfl
  | _ :: _ :: _ :: _ :: _ => simp at hSplit

/-- The initial reports of two streams: the second is written over the first. -/
theorem initial_reports_overlap :
    ∃ st final, twoStreams.start = some st ∧
      twoStreams.run [.commit 0 {} {}, .commit 1 {} {}] st = some final ∧
      ¬ SafeThroughout twoStreams [.commit 0 {} {}, .commit 1 {} {}] st := by
  refine ⟨_, _, rfl, rfl, ?_⟩
  intro hSafe
  have hFirst := run_invariant [.commit 0 {} {}] (start_invariant (n := twoStreams) rfl).1 rfl
  have hSecond := hSafe [.commit 0 {} {}, .commit 1 {} {}] [] rfl _ rfl
  rcases @alone_of_safe twoStreams _ _ 1 {} {} hFirst rfl rfl hSecond with hNone | ⟨hRefused, -⟩
  · exact List.cons_ne_nil _ _ hNone
  · exact hRefused rfl

end ReportNode

end RivermaxDevKit
