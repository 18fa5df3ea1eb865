import Mathlib.Data.List.Infix
import RivermaxDevKit.Media.Settings

/-!
# IPMX stream sender — bookkeeping

The counters of `IPMXStreamSender` (`ipmx_sender_io_node.cpp`) and the tokens
that tie them to the chunks in flight.

* `commitNextMediaChunk_cases` — what a call that does not fail can do.
* `SenderInvariant` — the tokens sent so far, and the counters as counts of
  their completed part.
* `accounting` — the bounds between the counters, in every reachable state.
* `never_stalls_iff` — settled streams have a free buffer, unless a field is one
  chunk.

The counters are unbounded here and the token of a last chunk is no number: the
code takes the largest `uint64_t`, which no count of fields reaches.
-/

namespace RivermaxDevKit

/-! ## Sender -/

/-- The token a chunk is marked with. -/
inductive CompletionToken
  | firstChunk (committedFirstChunks : Nat)
  | lastChunkInFrame
  deriving DecidableEq, Repr

/-- The counters of `IPMXStreamSender`. Behind them what the library holds: the
mark of the chunk at hand, the marked chunks it has not completed, oldest first,
and the reports it has not completed. -/
structure IpmxStreamSender where
  committedReports : Nat := 0
  finishedReports : Nat := 0
  committedFirstChunks : Nat := 0
  finishedFirstChunks : Nat := 0
  committedFields : Nat := 0
  finishedFields : Nat := 0
  chunkInFieldCounter : Nat := 0
  chunkPending : Bool := false
  chunkToken : Option CompletionToken := none
  inFlight : List CompletionToken := []
  reportsInFlight : Nat := 0
  deriving DecidableEq, Repr

/-- What the library answers to the calls for one media chunk. -/
structure ChunkOutcome where
  getNextChunk : ReturnStatus := .success
  markForTracking : ReturnStatus := .success
  commitChunk : ReturnStatus := .success

/-- What `SharedMessageHandler` answers to the calls for one report. -/
structure ReportOutcome where
  getNextBuffer : ReturnStatus := .success
  commitMessage : ReturnStatus := .success

namespace IpmxStreamSender

/-- `commit_sender_report`, as far as it counts. -/
def commitSenderReport (o : ReportOutcome) (w : IpmxStreamSender) :
    ReturnStatus × IpmxStreamSender :=
  if o.getNextBuffer ≠ .success then (o.getNextBuffer, w)
  else if o.commitMessage ≠ .success then (o.commitMessage, w)
  else
    (.success,
      { w with
        committedReports := w.committedReports + 1
        reportsInFlight := w.reportsInFlight + 1 })

/-- `notify_report_completion`; `check_report_completion` calls it for a report
the library has completed. -/
def notifyReportCompletion (w : IpmxStreamSender) : ReturnStatus × IpmxStreamSender :=
  let w := { w with reportsInFlight := w.reportsInFlight - 1 }
  -- an unsolicited completion
  if w.committedReports ≤ w.finishedReports then (.failure, w)
  else (.success, { w with finishedReports := w.finishedReports + 1 })

/-- `process_media_completion`, for the completion of a chunk marked `token`. -/
def processMediaCompletion (o : ReportOutcome) (token : CompletionToken) (w : IpmxStreamSender) :
    ReturnStatus × IpmxStreamSender :=
  match token with
  | .lastChunkInFrame => (.success, { w with finishedFields := w.finishedFields + 1 })
  | .firstChunk n =>
    -- an out-of-order completion
    if n ≠ w.finishedFirstChunks then (.failure, w)
    -- the field has begun to go out, and the report of the next one follows
    else commitSenderReport o { w with finishedFirstChunks := w.finishedFirstChunks + 1 }

/-- `track_media_completions`: chunks complete in the order of their commits. -/
def trackMediaCompletions (o : ReportOutcome) (w : IpmxStreamSender) :
    ReturnStatus × IpmxStreamSender :=
  match w.inFlight with
  | [] => (.success, w)
  | token :: rest => processMediaCompletion o token { w with inFlight := rest }

variable (s : MediaSettings)

def hasFreeFrameBuffer (w : IpmxStreamSender) : Bool :=
  w.committedFields < w.finishedFields + s.framesFieldsInMemBlock

/-- The chunk to commit: the one a full queue left over, or a new one. -/
def takeChunk (o : ChunkOutcome) (w : IpmxStreamSender) : ReturnStatus × IpmxStreamSender :=
  if !w.chunkPending then
    if o.getNextChunk ≠ .success then (o.getNextChunk, w)
    else (.success, { w with chunkToken := none })
  -- its mark stays with it
  else (.success, { w with chunkPending := false })

/-- The first and the last chunk of a field are marked for tracking. -/
def markChunk (o : ChunkOutcome) (w : IpmxStreamSender) : ReturnStatus × IpmxStreamSender :=
  if w.chunkInFieldCounter = 0 then
    if o.markForTracking ≠ .success then (o.markForTracking, w)
    else (.success, { w with chunkToken := some (.firstChunk w.committedFirstChunks) })
  -- the only chunk of a field never gets here
  else if w.chunkInFieldCounter = s.chunksInFrameField - 1 then
    if o.markForTracking ≠ .success then (o.markForTracking, w)
    else (.success, { w with chunkToken := some .lastChunkInFrame })
  else (.success, w)

/-- The counters behind a committed chunk. -/
def countChunk (w : IpmxStreamSender) : IpmxStreamSender :=
  { w with
    committedFirstChunks :=
      if w.chunkInFieldCounter = 0 then w.committedFirstChunks + 1 else w.committedFirstChunks
    chunkInFieldCounter :=
      if w.chunkInFieldCounter + 1 = s.chunksInFrameField then 0 else w.chunkInFieldCounter + 1
    committedFields :=
      if w.chunkInFieldCounter + 1 = s.chunksInFrameField then w.committedFields + 1
      else w.committedFields }

/-- The commit and what follows it. A full queue is no failure. -/
def commitChunk (o : ChunkOutcome) (w : IpmxStreamSender) : ReturnStatus × IpmxStreamSender :=
  if o.commitChunk ≠ .success then
    if o.commitChunk = .hwSendQueueFull then (.success, { w with chunkPending := true })
    else (o.commitChunk, w)
  else (.success, countChunk s { w with inFlight := w.inFlight ++ w.chunkToken.toList })

def commitNextMediaChunk (o : ChunkOutcome) (w : IpmxStreamSender) :
    ReturnStatus × IpmxStreamSender :=
  let taken := takeChunk o w
  if taken.1 ≠ .success then taken
  else
    let marked := markChunk s o taken.2
    if marked.1 ≠ .success then marked else commitChunk s o marked.2

/-- The states of a sender whose calls have not failed. The node sends a first
report before it commits media, and commits only into a free buffer. -/
inductive Reachable : IpmxStreamSender → Prop
  | initialReport (o : ReportOutcome) : (commitSenderReport o {}).1 = .success →
      Reachable (commitSenderReport o {}).2
  | commitMedia (o : ChunkOutcome) {w : IpmxStreamSender} : Reachable w →
      w.hasFreeFrameBuffer s → (commitNextMediaChunk s o w).1 = .success →
      Reachable (commitNextMediaChunk s o w).2
  | mediaCompletion (o : ReportOutcome) {w : IpmxStreamSender} : Reachable w →
      (trackMediaCompletions o w).1 = .success → Reachable (trackMediaCompletions o w).2
  | reportCompletion {w : IpmxStreamSender} : Reachable w → 0 < w.reportsInFlight →
      (notifyReportCompletion w).1 = .success → Reachable (notifyReportCompletion w).2

/-! ## What a call does -/

section Calls

variable {s} {w : IpmxStreamSender}

/-- The mark of a chunk, by its position in the field. -/
def tokenAt (s : MediaSettings) (w : IpmxStreamSender) : Option CompletionToken :=
  if w.chunkInFieldCounter = 0 then some (.firstChunk w.committedFirstChunks)
  else if w.chunkInFieldCounter = s.chunksInFrameField - 1 then some .lastChunkInFrame
  else none

/-- A chunk that waits for a retry is marked as its position asks for, or not yet. -/
def PendingMarked (s : MediaSettings) (w : IpmxStreamSender) : Prop :=
  w.chunkPending → tokenAt s w = none → w.chunkToken = none

theorem takeChunk_of_success {o : ChunkOutcome} (hPending : PendingMarked s w)
    (h : (takeChunk o w).1 = .success) :
    ∃ token, (takeChunk o w).2 = { w with chunkPending := false, chunkToken := token } ∧
      (tokenAt s w = none → token = none) := by
  unfold takeChunk at h ⊢
  cases hRetry : w.chunkPending with
  -- a retry: the mark is the one of its position
  | true => exact ⟨w.chunkToken, rfl, hPending hRetry⟩
  | false =>
    rw [hRetry] at h
    refine ⟨none, ?_, fun _ => rfl⟩
    rw [← hRetry]
    by_cases hNext : o.getNextChunk = .success
    · rw [if_pos (by simp [hRetry]), if_neg (not_not.mpr hNext), hRetry]
    · exact absurd h (by simp [hNext])

theorem markChunk_of_success {o : ChunkOutcome}
    (hToken : tokenAt s w = none → w.chunkToken = none) (h : (markChunk s o w).1 = .success) :
    (markChunk s o w).2 = { w with chunkToken := tokenAt s w } := by
  unfold markChunk at h ⊢
  unfold tokenAt at hToken ⊢
  by_cases hFirst : w.chunkInFieldCounter = 0
  · rw [if_pos hFirst] at h ⊢
    by_cases hMark : o.markForTracking = .success
    · rw [if_neg (not_not.mpr hMark), if_pos hFirst]
    · exact absurd h (by simp [hMark])
  · rw [if_neg hFirst] at h hToken ⊢
    rw [if_neg hFirst]
    by_cases hLast : w.chunkInFieldCounter = s.chunksInFrameField - 1
    · rw [if_pos hLast] at h ⊢
      by_cases hMark : o.markForTracking = .success
      · rw [if_neg (not_not.mpr hMark), if_pos hLast]
      · exact absurd h (by simp [hMark])
    · -- between the two nothing is marked
      rw [if_neg hLast] at hToken ⊢
      rw [if_neg hLast, ← hToken rfl]

/-- A call that does not fail leaves its chunk to a retry or commits it. -/
theorem commitNextMediaChunk_cases {o : ChunkOutcome} (hPending : PendingMarked s w)
    (h : (commitNextMediaChunk s o w).1 = .success) :
    (commitNextMediaChunk s o w).2 = { w with chunkPending := true, chunkToken := tokenAt s w } ∨
      (commitNextMediaChunk s o w).2 = countChunk s
        { w with
          chunkPending := false
          chunkToken := tokenAt s w
          inFlight := w.inFlight ++ (tokenAt s w).toList } := by
  by_cases hTake : (takeChunk o w).1 = .success
  case neg => exact absurd h (by simp [commitNextMediaChunk, hTake])
  obtain ⟨token, hTaken, hToken⟩ := takeChunk_of_success hPending hTake
  by_cases hMark : (markChunk s o (takeChunk o w).2).1 = .success
  case neg => exact absurd h (by simp [commitNextMediaChunk, hTake, hMark])
  rw [hTaken] at hMark
  have hCommit : commitNextMediaChunk s o w =
      commitChunk s o { w with chunkPending := false, chunkToken := tokenAt s w } := by
    unfold commitNextMediaChunk
    rw [if_neg (not_not.mpr hTake), hTaken, if_neg (not_not.mpr hMark),
      @markChunk_of_success s { w with chunkPending := false, chunkToken := token } o hToken hMark]
    rfl
  rw [hCommit] at h ⊢
  unfold commitChunk at h ⊢
  -- it is committed, or the queue was full
  by_cases hDone : o.commitChunk = .success
  · rw [if_neg (not_not.mpr hDone)]
    exact Or.inr rfl
  · rw [if_pos hDone] at h ⊢
    by_cases hFull : o.commitChunk = .hwSendQueueFull
    · rw [if_pos hFull]
      exact Or.inl rfl
    · exact absurd h (by simp [hFull, hDone])

theorem commitSenderReport_of_success {o : ReportOutcome}
    (h : (commitSenderReport o w).1 = .success) :
    (commitSenderReport o w).2 =
      { w with
        committedReports := w.committedReports + 1
        reportsInFlight := w.reportsInFlight + 1 } := by
  unfold commitSenderReport at h ⊢
  split at h
  · contradiction
  · split at h
    · contradiction
    · rename_i hBuffer hCommit
      rw [if_neg hBuffer, if_neg hCommit]

end Calls

/-! ## Tokens -/

/-- The numbers of the first chunks among `tokens`. -/
def firstChunks (tokens : List CompletionToken) : List Nat :=
  tokens.filterMap fun token =>
    match token with
    | .firstChunk n => some n
    | .lastChunkInFrame => none

def lastChunks (tokens : List CompletionToken) : Nat := tokens.count .lastChunkInFrame

/-- The tokens of a stream: `firsts` first chunks, numbered in order, and `lasts`
last chunks, none of them ahead of the first chunk of its field. -/
structure Trail (firsts lasts : Nat) (sent : List CompletionToken) : Prop where
  firsts : firstChunks sent = List.range firsts
  lasts : lastChunks sent = lasts
  balanced : ∀ done, done <+: sent → lastChunks done ≤ (firstChunks done).length

section Trails

variable {firsts lasts : Nat} {sent done rest : List CompletionToken}

theorem firstChunks_append (a b : List CompletionToken) :
    firstChunks (a ++ b) = firstChunks a ++ firstChunks b := List.filterMap_append

theorem lastChunks_append (a b : List CompletionToken) :
    lastChunks (a ++ b) = lastChunks a + lastChunks b := List.count_append

theorem trail_nil : Trail 0 0 [] where
  firsts := rfl
  lasts := rfl
  balanced := by
    intro done hDone
    rw [List.prefix_nil.mp hDone]
    exact Nat.le_refl _

theorem Trail.first (h : Trail firsts lasts sent) :
    Trail (firsts + 1) lasts (sent ++ [.firstChunk firsts]) where
  firsts := by
    rw [firstChunks_append, h.firsts, List.range_succ]
    rfl
  lasts := by
    rw [lastChunks_append, h.lasts]
    rfl
  balanced := by
    intro done hDone
    rcases List.prefix_concat_iff.mp hDone with rfl | hEarlier
    · -- one more first chunk only helps
      have hSent := h.balanced sent (List.prefix_refl _)
      rw [lastChunks_append, firstChunks_append, List.length_append]
      exact Nat.le_trans hSent (Nat.le_add_right _ _)
    · exact h.balanced done hEarlier

theorem Trail.last (h : Trail firsts lasts sent) (hOpen : lasts < firsts) :
    Trail firsts (lasts + 1) (sent ++ [.lastChunkInFrame]) where
  firsts := by
    rw [firstChunks_append, h.firsts]
    exact List.append_nil _
  lasts := by
    rw [lastChunks_append, h.lasts]
    rfl
  balanced := by
    intro done hDone
    rcases List.prefix_concat_iff.mp hDone with rfl | hEarlier
    · -- the last chunk closes a field whose first chunk was sent
      rw [lastChunks_append, firstChunks_append, List.length_append, h.lasts, h.firsts,
        List.length_range]
      exact Nat.le_trans hOpen (Nat.le_add_right _ _)
    · exact h.balanced done hEarlier

theorem Trail.bounds (h : Trail firsts lasts (done ++ rest)) :
    lastChunks done ≤ (firstChunks done).length ∧ (firstChunks done).length ≤ firsts ∧
      lastChunks done ≤ lasts := by
  refine ⟨h.balanced done (List.prefix_append _ _), ?_, ?_⟩
  · -- what is completed was sent
    have hLength := congrArg List.length h.firsts
    rw [firstChunks_append, List.length_append, List.length_range] at hLength
    omega
  · have hCount := h.lasts
    rw [lastChunks_append] at hCount
    omega

/-- First chunks complete in the order of their numbers. -/
theorem Trail.next_first {n : Nat} (h : Trail firsts lasts (done ++ .firstChunk n :: rest)) :
    n = (firstChunks done).length := by
  have hNumbers := h.firsts
  rw [firstChunks_append] at hNumbers
  have hAt := congrArg (·[(firstChunks done).length]?) hNumbers
  -- its number is its place among the first chunks
  have hHead : (firstChunks done ++ firstChunks (.firstChunk n :: rest))[
      (firstChunks done).length]? = some n := by
    rw [List.getElem?_append_right (Nat.le_refl _), Nat.sub_self]
    rfl
  rw [hHead] at hAt
  obtain ⟨_, hValue⟩ := List.getElem?_eq_some_iff.mp hAt.symm
  rw [List.getElem_range] at hValue
  exact hValue.symm

end Trails

/-! ## Invariant -/

/-- Last chunks are marked, unless a field is its first chunk. -/
def lastsSent (s : MediaSettings) (w : IpmxStreamSender) : Nat :=
  if s.chunksInFrameField = 1 then 0 else w.committedFields

structure SenderInvariant (s : MediaSettings) (w : IpmxStreamSender) : Prop where
  position : w.chunkInFieldCounter < s.chunksInFrameField
  fields : w.committedFirstChunks =
    w.committedFields + if w.chunkInFieldCounter = 0 then 0 else 1
  room : w.committedFields ≤ w.finishedFields + s.framesFieldsInMemBlock
  pending : PendingMarked s w
  reports : w.committedReports = w.finishedFirstChunks + 1
  reportsInFlight : w.committedReports = w.finishedReports + w.reportsInFlight
  tokens : ∃ done, Trail w.committedFirstChunks (lastsSent s w) (done ++ w.inFlight) ∧
    w.finishedFirstChunks = (firstChunks done).length ∧ w.finishedFields = lastChunks done

section Invariant

variable {s} {w : IpmxStreamSender}

theorem initialReport_invariant {o : ReportOutcome} (hChunks : 1 ≤ s.chunksInFrameField)
    (h : (commitSenderReport o {}).1 = .success) :
    SenderInvariant s (commitSenderReport o {}).2 := by
  rw [commitSenderReport_of_success h]
  exact
    { position := hChunks
      fields := rfl
      room := Nat.zero_le _
      pending := nofun
      reports := rfl
      reportsInFlight := rfl
      tokens := ⟨[], by unfold lastsSent; split <;> exact trail_nil, rfl, rfl⟩ }

/-- The tokens behind a committed chunk. -/
theorem trail_countChunk (h : SenderInvariant s w) {sent : List CompletionToken}
    (hTrail : Trail w.committedFirstChunks (lastsSent s w) sent) :
    Trail (countChunk s w).committedFirstChunks (lastsSent s (countChunk s w))
      (sent ++ (tokenAt s w).toList) := by
  have hPosition := h.position
  have hFields := h.fields
  by_cases hFirst : w.chunkInFieldCounter = 0
  · have hSame : lastsSent s (countChunk s w) = lastsSent s w := by
      unfold lastsSent countChunk
      split
      · rfl
      · exact if_neg (by omega)
    rw [hSame, tokenAt, if_pos hFirst]
    show Trail (if w.chunkInFieldCounter = 0 then _ else _) _ _
    rw [if_pos hFirst]
    exact hTrail.first
  · rw [if_neg hFirst] at hFields
    show Trail (if w.chunkInFieldCounter = 0 then _ else _) _ _
    rw [if_neg hFirst, tokenAt, if_neg hFirst]
    -- a chunk that is not the first: there are two or more in a field
    have hMany : s.chunksInFrameField ≠ 1 := by omega
    unfold lastsSent at hTrail ⊢
    rw [if_neg hMany] at hTrail ⊢
    by_cases hLast : w.chunkInFieldCounter = s.chunksInFrameField - 1
    · rw [if_pos hLast]
      show Trail _ (if w.chunkInFieldCounter + 1 = s.chunksInFrameField then _ else _) _
      rw [if_pos (by omega)]
      exact hTrail.last (by omega)
    · rw [if_neg hLast]
      show Trail _ (if w.chunkInFieldCounter + 1 = s.chunksInFrameField then _ else _) _
      rw [if_neg (by omega)]
      exact (List.append_nil sent).symm ▸ hTrail

theorem commitMedia_invariant {o : ChunkOutcome} (h : SenderInvariant s w)
    (hFree : w.hasFreeFrameBuffer s) (hDone : (commitNextMediaChunk s o w).1 = .success) :
    SenderInvariant s (commitNextMediaChunk s o w).2 := by
  have hRoom : w.committedFields < w.finishedFields + s.framesFieldsInMemBlock :=
    of_decide_eq_true hFree
  rcases commitNextMediaChunk_cases h.pending hDone with hRetry | hCommitted
  · rw [hRetry]
    exact { h with pending := fun _ hNone => hNone }
  · rw [hCommitted]
    obtain ⟨done, hTrail, hFirsts, hLasts⟩ := h.tokens
    have hPosition := h.position
    have hFields := h.fields
    refine { h with position := ?_, fields := ?_, room := ?_, pending := nofun, tokens := ?_ }
    · show (if w.chunkInFieldCounter + 1 = s.chunksInFrameField then 0
        else w.chunkInFieldCounter + 1) < s.chunksInFrameField
      split <;> omega
    · show (if w.chunkInFieldCounter = 0 then w.committedFirstChunks + 1
          else w.committedFirstChunks) =
        (if w.chunkInFieldCounter + 1 = s.chunksInFrameField then w.committedFields + 1
          else w.committedFields) +
        (if (if w.chunkInFieldCounter + 1 = s.chunksInFrameField then 0
          else w.chunkInFieldCounter + 1) = 0 then 0 else 1)
      -- a field is open from its first chunk to its last
      by_cases hLast : w.chunkInFieldCounter + 1 = s.chunksInFrameField
      · rw [if_pos hLast, if_pos hLast, if_pos rfl]
        split at hFields <;> split <;> omega
      · rw [if_neg hLast, if_neg hLast, if_neg (Nat.succ_ne_zero _)]
        split at hFields <;> split <;> omega
    · show (if w.chunkInFieldCounter + 1 = s.chunksInFrameField then w.committedFields + 1
        else w.committedFields) ≤ w.finishedFields + s.framesFieldsInMemBlock
      split <;> omega
    · -- one more token is sent, and none is completed
      refine ⟨done, ?_, hFirsts, hLasts⟩
      have hNext := trail_countChunk h hTrail
      rw [List.append_assoc] at hNext
      exact hNext

/-- What is pending, and where the next chunk stands, is not touched by completions. -/
theorem processMediaCompletion_invariant {o : ReportOutcome} {token : CompletionToken}
    {rest : List CompletionToken} (h : SenderInvariant s w) (hHead : w.inFlight = token :: rest)
    (hDone : (processMediaCompletion o token { w with inFlight := rest }).1 = .success) :
    SenderInvariant s (processMediaCompletion o token { w with inFlight := rest }).2 := by
  obtain ⟨done, hTrail, hFirsts, hLasts⟩ := h.tokens
  rw [hHead, ← List.singleton_append, ← List.append_assoc] at hTrail
  cases token with
  | lastChunkInFrame =>
    refine { h with room := ?_, tokens := ?_ }
    · exact Nat.le_trans h.room (Nat.add_le_add_right (Nat.le_succ _) _)
    -- a field is finished with its last chunk
    refine ⟨done ++ [CompletionToken.lastChunkInFrame], hTrail, ?_, ?_⟩
    · rw [firstChunks_append]
      exact hFirsts.trans (congrArg List.length (List.append_nil _).symm)
    · rw [lastChunks_append]
      exact congrArg (· + 1) hLasts
  | firstChunk n =>
    unfold processMediaCompletion at hDone ⊢
    dsimp only at hDone ⊢
    split at hDone
    · contradiction
    · rename_i hOrder
      -- every completed first chunk brings a report
      rw [if_neg hOrder, commitSenderReport_of_success hDone]
      refine
        { h with
          reports := congrArg (· + 1) h.reports
          reportsInFlight := congrArg (· + 1) h.reportsInFlight
          tokens := ⟨done ++ [CompletionToken.firstChunk n], hTrail, ?_, ?_⟩ }
      · rw [firstChunks_append, List.length_append]
        exact congrArg (· + 1) hFirsts
      · rw [lastChunks_append]
        exact hLasts

theorem mediaCompletion_invariant {o : ReportOutcome} (h : SenderInvariant s w)
    (hDone : (trackMediaCompletions o w).1 = .success) :
    SenderInvariant s (trackMediaCompletions o w).2 := by
  unfold trackMediaCompletions at hDone ⊢
  cases hFlight : w.inFlight with
  | nil => exact h
  | cons token rest =>
    rw [hFlight] at hDone
    exact processMediaCompletion_invariant h hFlight hDone

theorem reportCompletion_invariant (h : SenderInvariant s w) (hReport : 0 < w.reportsInFlight)
    (hDone : (notifyReportCompletion w).1 = .success) :
    SenderInvariant s (notifyReportCompletion w).2 := by
  have hBalance := h.reportsInFlight
  unfold notifyReportCompletion at hDone ⊢
  dsimp only at hDone ⊢
  split at hDone
  · contradiction
  · rename_i hSolicited
    rw [if_neg hSolicited]
    refine { h with reportsInFlight := ?_ }
    show w.committedReports = w.finishedReports + 1 + (w.reportsInFlight - 1)
    omega

/-- The counters of every reachable state are those of its tokens. -/
theorem reachable_invariant (hChunks : 1 ≤ s.chunksInFrameField) (hReach : Reachable s w) :
    SenderInvariant s w := by
  induction hReach with
  | initialReport o hDone => exact initialReport_invariant hChunks hDone
  | commitMedia o _ hFree hDone ih => exact commitMedia_invariant ih hFree hDone
  | mediaCompletion o _ hDone ih => exact mediaCompletion_invariant ih hDone
  | reportCompletion _ hReport hDone ih => exact reportCompletion_invariant ih hReport hDone

end Invariant

/-! ## Accounting -/

/-- What the counters of a sender promise, and that its completions are the
ones it expects. -/
structure Accounting (s : MediaSettings) (w : IpmxStreamSender) : Prop where
  finishedFields_le : w.finishedFields ≤ w.finishedFirstChunks
  finishedFirstChunks_le : w.finishedFirstChunks ≤ w.committedFirstChunks
  committedFields_le : w.committedFields ≤ w.committedFirstChunks
  committedFirstChunks_le : w.committedFirstChunks ≤ w.committedFields + 1
  buffers : w.finishedFields ≤ w.committedFields ∧
    w.committedFields - w.finishedFields ≤ s.framesFieldsInMemBlock
  committedReports_eq : w.committedReports = w.finishedFirstChunks + 1
  finishedReports_le : w.finishedReports ≤ w.committedReports
  /-- The next media completion fails only if its report cannot be sent. -/
  inOrder : ∀ o : ReportOutcome, o.getNextBuffer = .success → o.commitMessage = .success →
    (trackMediaCompletions o w).1 = .success
  solicited : 0 < w.reportsInFlight → (notifyReportCompletion w).1 = .success

theorem lastsSent_le (w : IpmxStreamSender) : lastsSent s w ≤ w.committedFields := by
  unfold lastsSent
  split <;> omega

theorem commitSenderReport_success {o : ReportOutcome} {w : IpmxStreamSender}
    (hBuffer : o.getNextBuffer = .success) (hCommit : o.commitMessage = .success) :
    (commitSenderReport o w).1 = .success := by
  unfold commitSenderReport
  rw [if_neg (not_not.mpr hBuffer), if_neg (not_not.mpr hCommit)]

/-- No completion meets a sender that does not expect it. -/
theorem trackMediaCompletions_success {w : IpmxStreamSender} (h : SenderInvariant s w)
    {o : ReportOutcome} (hBuffer : o.getNextBuffer = .success)
    (hCommit : o.commitMessage = .success) : (trackMediaCompletions o w).1 = .success := by
  obtain ⟨done, hTrail, hFirsts, -⟩ := h.tokens
  unfold trackMediaCompletions
  cases hFlight : w.inFlight with
  | nil => rfl
  | cons token rest =>
    cases token with
    | lastChunkInFrame => rfl
    | firstChunk n =>
      rw [hFlight] at hTrail
      show (if n ≠ w.finishedFirstChunks then _ else _ : ReturnStatus × IpmxStreamSender).1 = _
      -- the oldest first chunk in flight is the one that is due
      rw [if_neg (not_not.mpr (hTrail.next_first.trans hFirsts.symm))]
      exact commitSenderReport_success hBuffer hCommit

/-- **Accounting.** As long as no call has failed, the counters of a sender stay
within their bounds, and every completion is one it expects. -/
theorem accounting (s : MediaSettings) (hChunks : 1 ≤ s.chunksInFrameField)
    {w : IpmxStreamSender} (hReach : Reachable s w) : Accounting s w := by
  have h := reachable_invariant hChunks hReach
  obtain ⟨done, hTrail, hFirsts, hLasts⟩ := h.tokens
  obtain ⟨hBalanced, hFirstsLe, hLastsLe⟩ := hTrail.bounds
  have hSent := lastsSent_le s w
  have hRoom := h.room
  have hReports := h.reports
  have hReportsInFlight := h.reportsInFlight
  have hFields : w.committedFields ≤ w.committedFirstChunks ∧
      w.committedFirstChunks ≤ w.committedFields + 1 := by
    have hFields := h.fields
    split at hFields <;> omega
  refine ⟨?_, ?_, hFields.1, hFields.2, ⟨?_, ?_⟩, hReports, ?_, ?_, ?_⟩
  · rw [hFirsts, hLasts]
    exact hBalanced
  · rw [hFirsts]
    exact hFirstsLe
  · rw [hLasts]
    exact hLastsLe.trans hSent
  · omega
  · omega
  · intro o hBuffer hCommit
    exact trackMediaCompletions_success s h hBuffer hCommit
  · intro hReport
    show (if w.committedReports ≤ w.finishedReports then _ else _ :
      ReturnStatus × IpmxStreamSender).1 = _
    rw [if_neg (by omega)]

/-- A full HD stream whose first chunk has gone out. -/
theorem accounting_fullHd :
    ∃ app', initializeCommonMediaSettings (fullHd ⟨25, 1⟩ .Progressive) = some app' ∧
      ∃ w, w.finishedFirstChunks = 1 ∧ Accounting app'.media w := by
  refine ⟨_, rfl, _, ?_, accounting
    (commonMediaSettings (fullHd ⟨25, 1⟩ .Progressive) 5 2).media (by decide +kernel)
    (.mediaCompletion {} (.commitMedia {} (.initialReport {} rfl) ?_ ?_) ?_)⟩ <;> decide +kernel

/-! ## Stalls -/

/-- A sender whose chunks are all completed, between two fields, has a free buffer. -/
def NeverStalls (s : MediaSettings) : Prop :=
  ∀ w, Reachable s w → w.inFlight = [] → w.chunkInFieldCounter = 0 →
    w.finishedFields = w.committedFields ∧ w.hasFreeFrameBuffer s

/-- A field of one chunk is marked as begun, never as finished. -/
theorem stalls_of_one_chunk {s : MediaSettings} (hOne : s.chunksInFrameField = 1)
    (hBlock : 1 ≤ s.framesFieldsInMemBlock) : ¬ NeverStalls s := by
  intro hNever
  have hStart : Reachable s { committedReports := 1, reportsInFlight := 1 } :=
    .initialReport {} rfl
  have hCommit := Reachable.commitMedia {} hStart
    (by simp [hasFreeFrameBuffer]; omega)
    (by simp [commitNextMediaChunk, takeChunk, markChunk, commitChunk])
  have hState : (commitNextMediaChunk s {} { committedReports := 1, reportsInFlight := 1 }).2 =
      { committedReports := 1, reportsInFlight := 1, committedFirstChunks := 1,
        committedFields := 1, chunkToken := some (.firstChunk 0),
        inFlight := [.firstChunk 0] } := by
    simp [commitNextMediaChunk, takeChunk, markChunk, commitChunk, countChunk, hOne]
  rw [hState] at hCommit
  -- its completion counts as a first chunk, and nothing is in flight behind it
  have hSettled := Reachable.mediaCompletion {} hCommit rfl
  exact absurd (hNever _ hSettled rfl rfl).1 (by decide)

/-- **Stalls.** A sender never stalls on its own bookkeeping, exactly if its
fields have more than one chunk. -/
theorem never_stalls_iff (s : MediaSettings) (hChunks : 1 ≤ s.chunksInFrameField)
    (hBlock : 1 ≤ s.framesFieldsInMemBlock) : NeverStalls s ↔ 2 ≤ s.chunksInFrameField := by
  constructor
  · intro hNever
    by_contra hFew
    exact stalls_of_one_chunk (by omega) hBlock hNever
  · intro hMany w hReach hSettled hBetween
    have h := reachable_invariant hChunks hReach
    obtain ⟨done, hTrail, -, hLasts⟩ := h.tokens
    -- all tokens are completed, and every field has its last one among them
    rw [hSettled, List.append_nil] at hTrail
    have hEqual : w.finishedFields = w.committedFields := by
      rw [hLasts, hTrail.lasts]
      exact if_neg (by omega)
    refine ⟨hEqual, decide_eq_true ?_⟩
    omega

theorem never_stalls_iff_fullHd :
    ∃ app', initializeCommonMediaSettings (fullHd ⟨25, 1⟩ .Progressive) = some app' ∧
      NeverStalls app'.media :=
  ⟨_, rfl, (never_stalls_iff (commonMediaSettings (fullHd ⟨25, 1⟩ .Progressive) 5 2).media
    (by decide +kernel) (by decide +kernel)).mpr (by decide +kernel)⟩

/-- Four lines of video are one chunk. -/
theorem four_lines_stall :
    ∃ app', initializeCommonMediaSettings
        { media :=
          { frameRate := ⟨25, 1⟩, resolution := ⟨1920, 4⟩, framesFieldsInMemBlock := 1 } } =
          some app' ∧
      app'.media.chunksInFrameField = 1 ∧ ¬ NeverStalls app'.media :=
  ⟨_, rfl, by decide +kernel, stalls_of_one_chunk (by decide +kernel) (by decide +kernel)⟩

end IpmxStreamSender

end RivermaxDevKit
