import RivermaxDevKit.Ipmx.FrameClasses
import RivermaxDevKit.Services.StaticRcu

/-!
# Threads of the IPMX tracker

`IPMXStreamTimelineTracker` as its three threads run it: the RTCP thread in
`consume_rtcp_packet`, the data thread in `notify_data_frame` and the main thread
in `print_updates`. They share the report state and the clock state, each a
`StaticRCU` of four versions, and the flag of each.

* `SharedsInv.step`, `CallsInv.step`, `FramesInv.step` — what every step of a thread
  keeps.
* `threads_sequential` — unless a read of the data thread is overtaken by four
  reports, the threads do what one thread does, making the same calls in an order
  that respects theirs.

The text that is printed is left out: printing is reading the parts of the state
that go into it.
-/

namespace RivermaxDevKit

open ByteStore

/-! ## Shared states -/

def RCU_NUM_VERSIONS : Nat := 4

/-- How a value is cut into parts when it is copied. -/
structure Parts (V W : Type) where
  count : Nat
  part : V → Nat → W
  whole : (Nat → Option W) → V
  whole_eq : ∀ v f, (∀ k < count, f k = some (part v k)) → whole f = v

inductive TrackerReader
  | dataThread
  | printThread
  deriving DecidableEq

/-- The two states that the threads share. -/
inductive Shared
  | report
  | clock
  deriving DecidableEq

def Shared.other : Shared → Shared
  | .report => .clock
  | .clock => .report

/-- A `StaticRCU` with the flag that something new is there to print. The version
that last raised the flag is for the proofs. -/
structure SharedState (W : Type) where
  threads : RcuThreads W TrackerReader
  available : Bool := false
  raised : Nat := 0

/-- The next step of a writer: of its `update`, or behind it the store of the flag
and the return. -/
def SharedState.writerStep {W : Type} (raise : Bool) (s : SharedState W) :
    Option (SharedState W × Bool) :=
  match s.threads.writer with
  | .idle =>
    some ({ s with
      available := s.available || raise
      raised := if raise then s.threads.published else s.raised }, true)
  | _ => s.threads.writerStep.map fun threads => ({ s with threads := threads }, false)

/-! ## Threads -/

/-- `consume_rtcp_packet`: between calls, or behind the update of the local state. -/
inductive ConsumeStep
  | idle
  | updating (data : Memory) (len rxTs : Nat) (raise : Bool)

/-- `notify_data_frame`: between calls, copying the report state, or behind the
update of the local state. -/
inductive NotifyStep
  | idle
  | reading (rtpTimestamp : UInt32) (receiverTimestamp : Nat)
  | updating (raise : Bool)

/-- `print_updates`, for one of the states: before its flag is taken, between that
and `read()`, or printing. -/
inductive PrintStep
  | exchange
  | load
  | printing
  deriving DecidableEq

/-- The tracker and its threads. The calls are for the proofs: each in its place,
a report where it is published and a frame where it calls `read()`. -/
structure TrackerThreads (W : Type) where
  localReportState : IpmxSenderReportState := {}
  localClockState : IpmxDataClockState := {}
  shared : Shared → SharedState W
  consume : ConsumeStep := .idle
  notify : NotifyStep := .idle
  printed : Shared := .report
  print : PrintStep := .exchange
  calls : List TrackerCall := []

/-- The parts of the two states, and those of them that are printed. -/
structure TrackerParts (W : Type) where
  report : Parts IpmxSenderReportState W
  clock : Parts IpmxDataClockState W
  printed : Shared → List Nat

def TrackerParts.count {W : Type} (parts : TrackerParts W) : Shared → Nat
  | .report => parts.report.count
  | .clock => parts.clock.count

namespace TrackerThreads

variable {W : Type} (parts : TrackerParts W) (intervalMs : UInt32)

def start : TrackerThreads W where
  shared
    | .report => { threads := .start (parts.report.part {}) }
    | .clock => { threads := .start (parts.clock.part {}) }

def setShared (which : Shared) (state : SharedState W) (s : TrackerThreads W) :
    TrackerThreads W :=
  { s with shared := Function.update s.shared which state }

def setThreads (which : Shared) (threads : RcuThreads W TrackerReader) (s : TrackerThreads W) :
    TrackerThreads W :=
  s.setShared which { s.shared which with threads := threads }

/-! ### RTCP thread -/

/-- The flag of a report: it is the first that is valid, or its block is new. -/
def isReportNew (previous next : IpmxSenderReportState) : Bool :=
  next.stats.isLastReportValid && !previous.stats.isLastReportValid ||
    next.stats.isLastReportValid &&
      next.lastReport.infoBlockVersion != previous.lastReport.infoBlockVersion

/-- The call of `consume_rtcp_packet`, up to the first step of its `update`. -/
def consumeCall (data : Memory) (len rxTs : Nat) (order : List Nat) (s : TrackerThreads W) :
    Option (TrackerThreads W) :=
  -- one call at a time: the flag is worked out before the update, and stored behind it
  match s.consume with
  | .idle =>
    let next := s.localReportState.update data len rxTs
    ((s.shared .report).threads.update RCU_NUM_VERSIONS parts.report.count
      (parts.report.part next) order).map fun threads =>
        { s.setThreads .report threads with
          localReportState := next
          consume := .updating data len rxTs (isReportNew s.localReportState next) }
  | _ => none

def consumeStep (s : TrackerThreads W) : Option (TrackerThreads W) :=
  match s.consume with
  | .idle => none
  | .updating data len rxTs raise =>
    ((s.shared .report).writerStep raise).map fun (state, returned) =>
      { s.setShared .report state with
        consume := if returned then .idle else s.consume
        -- the call takes its place where its version is published
        calls :=
          if state.threads.published = (s.shared .report).threads.published then s.calls
          else s.calls ++ [.consumeRtcpPacket data len rxTs] }

/-! ### Data thread -/

/-- The call of `notify_data_frame`, and the first load of its `read()`. -/
def notifyCall (rtpTimestamp : UInt32) (receiverTimestamp : Nat) (s : TrackerThreads W) :
    Option (TrackerThreads W) :=
  match s.notify with
  | .idle =>
    some { s.setThreads .report ((s.shared .report).threads.loadIndex .dataThread) with
      notify := .reading rtpTimestamp receiverTimestamp
      calls := s.calls ++ [.notifyDataFrame rtpTimestamp receiverTimestamp] }
  | _ => none

def notifyLoad (s : TrackerThreads W) : Option (TrackerThreads W) :=
  match s.notify with
  | .reading _ _ =>
    ((s.shared .report).threads.loadVersion .dataThread).map fun threads =>
      s.setThreads .report threads
  | _ => none

/-- The copy of a part of the report state. -/
def notifyRead (part : Nat) (s : TrackerThreads W) : Option (TrackerThreads W) :=
  match s.notify with
  | .reading _ _ =>
    ((s.shared .report).threads.readPart parts.report.count .dataThread part).map fun threads =>
      s.setThreads .report threads
  | _ => none

/-- The copy that the data thread made. -/
def copied (seen : List (PartRead W)) (part : Nat) : Option W :=
  (seen.find? fun p => p.part = part).map PartRead.value

/-- `need_update_stats`, of the local state. -/
def needsUpdate (s : TrackerThreads W) : Bool :=
  needUpdateStats { statsUpdateIntervalMs := intervalMs.toNat, clockState := s.localClockState }

/-- Behind the copy: the update of the local state and the first step of the other. -/
def notifyUpdate (order : List Nat) (s : TrackerThreads W) : Option (TrackerThreads W) :=
  match s.notify, (s.shared .report).threads.readers .dataThread with
  | .reading rtpTimestamp receiverTimestamp, .reading _ seen =>
    -- the copy has to be whole
    if ∀ k < parts.report.count, (copied seen k).isSome then
      let next := s.localClockState.update (parts.report.whole (copied seen))
        rtpTimestamp.toNat receiverTimestamp (s.needsUpdate intervalMs)
      ((s.shared .clock).threads.update RCU_NUM_VERSIONS parts.clock.count
        (parts.clock.part next) order).map fun threads =>
          { s.setThreads .clock threads with
            localClockState := next
            notify := .updating (s.needsUpdate intervalMs) }
    else none
  | _, _ => none

def notifyStep (s : TrackerThreads W) : Option (TrackerThreads W) :=
  match s.notify with
  | .updating raise =>
    ((s.shared .clock).writerStep raise).map fun (state, returned) =>
      { s.setShared .clock state with notify := if returned then .idle else s.notify }
  | _ => none

/-! ### Main thread -/

/-- The next step of `print_updates`, the reads of parts apart. -/
def printStep (s : TrackerThreads W) : Option (TrackerThreads W) :=
  let state := s.shared s.printed
  match s.print, state.threads.readers .printThread with
  | .exchange, _ =>
    if state.available then
      some { s.setShared s.printed { state with available := false } with print := .load }
    else some { s with printed := s.printed.other }
  | .load, _ =>
    some { s.setThreads s.printed (state.threads.loadIndex .printThread) with print := .printing }
  | .printing, .indexed _ =>
    (state.threads.loadVersion .printThread).map fun threads => s.setThreads s.printed threads
  -- only the parts that go into the text have to be read
  | .printing, .reading _ seen =>
    if ∀ k ∈ parts.printed s.printed, (copied seen k).isSome then
      some { s with printed := s.printed.other, print := .exchange }
    else none
  | .printing, .idle => none

def printRead (part : Nat) (s : TrackerThreads W) : Option (TrackerThreads W) :=
  match s.print with
  | .printing =>
    ((s.shared s.printed).threads.readPart (parts.count s.printed) .printThread part).map
      fun threads => s.setThreads s.printed threads
  | _ => none

end TrackerThreads

inductive TrackerEvent
  | consumeCall (data : Memory) (len rxTs : Nat) (order : List Nat)
  | consumeStep
  | notifyCall (rtpTimestamp : UInt32) (receiverTimestamp : Nat)
  | notifyLoad
  | notifyRead (part : Nat)
  | notifyUpdate (order : List Nat)
  | notifyStep
  | printStep
  | printRead (part : Nat)

def TrackerThreads.step {W : Type} (parts : TrackerParts W) (intervalMs : UInt32)
    (s : TrackerThreads W) : TrackerEvent → Option (TrackerThreads W)
  | .consumeCall data len rxTs order => s.consumeCall parts data len rxTs order
  | .consumeStep => s.consumeStep
  | .notifyCall rtpTimestamp receiverTimestamp => s.notifyCall rtpTimestamp receiverTimestamp
  | .notifyLoad => s.notifyLoad
  | .notifyRead part => s.notifyRead parts part
  | .notifyUpdate order => s.notifyUpdate parts intervalMs order
  | .notifyStep => s.notifyStep
  | .printStep => s.printStep parts
  | .printRead part => s.printRead parts part

/-- The tracker after the steps of its threads, in this order. -/
def runThreads {W : Type} (parts : TrackerParts W) (intervalMs : UInt32)
    (events : List TrackerEvent) : Option (TrackerThreads W) :=
  events.foldlM (TrackerThreads.step parts intervalMs) (.start parts)

/-! ## What a step of a thread does -/

/-- The calls that the events start, reports and frames. -/
def reportsOf (events : List TrackerEvent) : List TrackerCall :=
  events.filterMap fun
    | .consumeCall data len rxTs _ => some (.consumeRtcpPacket data len rxTs)
    | _ => none

def framesOf (events : List TrackerEvent) : List TrackerCall :=
  events.filterMap fun
    | .notifyCall rtpTimestamp receiverTimestamp =>
      some (.notifyDataFrame rtpTimestamp receiverTimestamp)
    | _ => none

namespace TrackerThreads

variable {W : Type} {parts : TrackerParts W} {intervalMs : UInt32} {s s' : TrackerThreads W}

@[simp] theorem shared_setShared_self (which : Shared) (state : SharedState W) :
    (s.setShared which state).shared which = state :=
  Function.update_self ..

@[simp] theorem shared_setShared_of_ne {which other : Shared} (h : other ≠ which)
    (state : SharedState W) : (s.setShared which state).shared other = s.shared other :=
  Function.update_of_ne h ..

theorem consumeCall_eq_some {data : Memory} {len rxTs : Nat} {order : List Nat}
    (h : s.consumeCall parts data len rxTs order = some s') :
    s.consume = .idle ∧ ∃ threads,
      (s.shared .report).threads.update RCU_NUM_VERSIONS parts.report.count
        (parts.report.part (s.localReportState.update data len rxTs)) order = some threads ∧
      s' = { s.setThreads .report threads with
        localReportState := s.localReportState.update data len rxTs
        consume := .updating data len rxTs
          (isReportNew s.localReportState (s.localReportState.update data len rxTs)) } := by
  unfold consumeCall at h
  split at h
  case h_1 hIdle =>
    obtain ⟨threads, hThreads, rfl⟩ := Option.map_eq_some_iff.mp h
    exact ⟨hIdle, threads, hThreads, rfl⟩
  case h_2 => cases h

theorem consumeStep_eq_some (h : s.consumeStep = some s') :
    ∃ data len rxTs raise state returned, s.consume = .updating data len rxTs raise ∧
      (s.shared .report).writerStep raise = some (state, returned) ∧
      s' = { s.setShared .report state with
        consume := if returned then .idle else s.consume
        calls :=
          if state.threads.published = (s.shared .report).threads.published then s.calls
          else s.calls ++ [.consumeRtcpPacket data len rxTs] } := by
  unfold consumeStep at h
  split at h
  case h_1 => cases h
  case h_2 data len rxTs raise hUpdating =>
    obtain ⟨⟨state, returned⟩, hState, rfl⟩ := Option.map_eq_some_iff.mp h
    exact ⟨data, len, rxTs, raise, state, returned, hUpdating, hState, rfl⟩

theorem notifyCall_eq_some {rtpTimestamp : UInt32} {receiverTimestamp : Nat}
    (h : s.notifyCall rtpTimestamp receiverTimestamp = some s') :
    s.notify = .idle ∧
      s' = { s.setThreads .report ((s.shared .report).threads.loadIndex .dataThread) with
        notify := .reading rtpTimestamp receiverTimestamp
        calls := s.calls ++ [.notifyDataFrame rtpTimestamp receiverTimestamp] } := by
  unfold notifyCall at h
  split at h
  case h_1 hIdle => exact ⟨hIdle, (Option.some.inj h).symm⟩
  case h_2 => cases h

theorem notifyLoad_eq_some (h : s.notifyLoad = some s') :
    ∃ threads, (s.shared .report).threads.loadVersion .dataThread = some threads ∧
      s' = s.setThreads .report threads := by
  unfold notifyLoad at h
  split at h
  case h_1 =>
    obtain ⟨threads, hThreads, rfl⟩ := Option.map_eq_some_iff.mp h
    exact ⟨threads, hThreads, rfl⟩
  case h_2 => cases h

theorem notifyRead_eq_some {part : Nat} (h : s.notifyRead parts part = some s') :
    ∃ threads, (s.shared .report).threads.readPart parts.report.count .dataThread part =
        some threads ∧ s' = s.setThreads .report threads := by
  unfold notifyRead at h
  split at h
  case h_1 =>
    obtain ⟨threads, hThreads, rfl⟩ := Option.map_eq_some_iff.mp h
    exact ⟨threads, hThreads, rfl⟩
  case h_2 => cases h

theorem notifyUpdate_eq_some {order : List Nat}
    (h : s.notifyUpdate parts intervalMs order = some s') :
    ∃ rtpTimestamp receiverTimestamp index seen next threads,
      s.notify = .reading rtpTimestamp receiverTimestamp ∧
      (s.shared .report).threads.readers .dataThread = .reading index seen ∧
      (∀ k < parts.report.count, (copied seen k).isSome) ∧
      next = s.localClockState.update (parts.report.whole (copied seen)) rtpTimestamp.toNat
        receiverTimestamp (s.needsUpdate intervalMs) ∧
      (s.shared .clock).threads.update RCU_NUM_VERSIONS parts.clock.count
        (parts.clock.part next) order = some threads ∧
      s' = { s.setThreads .clock threads with
        localClockState := next
        notify := .updating (s.needsUpdate intervalMs) } := by
  unfold notifyUpdate at h
  split at h
  case h_1 rtpTimestamp receiverTimestamp index seen hNotify hReader =>
    split at h
    case isTrue hAll =>
      obtain ⟨threads, hThreads, rfl⟩ := Option.map_eq_some_iff.mp h
      exact ⟨rtpTimestamp, receiverTimestamp, index, seen, _, threads, hNotify, hReader, hAll,
        rfl, hThreads, rfl⟩
    case isFalse => cases h
  case h_2 => cases h

theorem notifyStep_eq_some (h : s.notifyStep = some s') :
    ∃ raise state returned, s.notify = .updating raise ∧
      (s.shared .clock).writerStep raise = some (state, returned) ∧
      s' = { s.setShared .clock state with
        notify := if returned then .idle else s.notify } := by
  unfold notifyStep at h
  split at h
  case h_1 raise hUpdating =>
    obtain ⟨⟨state, returned⟩, hState, rfl⟩ := Option.map_eq_some_iff.mp h
    exact ⟨raise, state, returned, hUpdating, hState, rfl⟩
  case h_2 => cases h

/-- The main thread takes a flag, goes on to the other state, or reads. -/
theorem printStep_eq_some (h : s.printStep parts = some s') :
    (s.print = .exchange ∧ s' = { s.setShared s.printed { s.shared s.printed with
        available := false } with print := .load }) ∨
    (s.print = .exchange ∧ (s.shared s.printed).available = false ∧
      s' = { s with printed := s.printed.other }) ∨
    (s.print = .load ∧ s' = { s.setThreads s.printed
        ((s.shared s.printed).threads.loadIndex .printThread) with print := .printing }) ∨
    (s.print = .printing ∧ ∃ threads,
      (s.shared s.printed).threads.loadVersion .printThread = some threads ∧
        s' = s.setThreads s.printed threads) ∨
    (s.print = .printing ∧
      (∃ index seen, (s.shared s.printed).threads.readers .printThread = .reading index seen ∧
        ∀ k ∈ parts.printed s.printed, (copied seen k).isSome) ∧
        s' = { s with printed := s.printed.other, print := .exchange }) := by
  unfold printStep at h
  dsimp only at h
  split at h
  case h_1 _ hPrint =>
    split at h
    case isTrue => exact .inl ⟨hPrint, (Option.some.inj h).symm⟩
    case isFalse hDown =>
      exact .inr (.inl ⟨hPrint, by simpa using hDown, (Option.some.inj h).symm⟩)
  case h_2 _ hPrint => exact .inr (.inr (.inl ⟨hPrint, (Option.some.inj h).symm⟩))
  -- between the two loads of read()
  case h_3 _ hPrint _ =>
    obtain ⟨threads, hThreads, rfl⟩ := Option.map_eq_some_iff.mp h
    exact .inr (.inr (.inr (.inl ⟨hPrint, threads, hThreads, rfl⟩)))
  -- all that is printed of this state is read
  case h_4 _ index seen hPrint hReader =>
    split at h
    case isTrue hAll =>
      exact .inr (.inr (.inr (.inr ⟨hPrint, ⟨index, seen, hReader, hAll⟩,
        (Option.some.inj h).symm⟩)))
    case isFalse => cases h
  case h_5 => cases h

theorem printRead_eq_some {part : Nat} (h : s.printRead parts part = some s') :
    s.print = .printing ∧ ∃ threads,
      (s.shared s.printed).threads.readPart (parts.count s.printed) .printThread part =
        some threads ∧ s' = s.setThreads s.printed threads := by
  unfold printRead at h
  split at h
  case h_1 hPrint =>
    obtain ⟨threads, hThreads, rfl⟩ := Option.map_eq_some_iff.mp h
    exact ⟨hPrint, threads, hThreads, rfl⟩
  case h_2 => cases h

end TrackerThreads

/-! ## Shared states, step by step -/

/-- The `StaticRCU` of a shared state, and its flag: when the flag is down, and the
main thread is not about to load the index, it has loaded that of the version that
raised the flag, or of a later one. -/
structure SharedInv {W : Type} (count : Nat) (loading : Prop) (s : SharedState W) : Prop where
  rcu : RcuInv RCU_NUM_VERSIONS count s.threads
  raised_le : s.raised ≤ s.threads.published
  noticed : s.available = false → ¬loading → s.raised ≤ s.threads.since .printThread

namespace SharedInv

variable {W : Type} {count : Nat} {loading loading' : Prop} {s : SharedState W}

theorem mono (h : SharedInv count loading s) (hMore : loading → loading') :
    SharedInv count loading' s where
  rcu := h.rcu
  raised_le := h.raised_le
  noticed hDown hNot := h.noticed hDown fun hLoading => hNot (hMore hLoading)

theorem threads {threads : RcuThreads W TrackerReader} (h : SharedInv count loading s)
    (event : RcuEvent W TrackerReader)
    (hStep : s.threads.step RCU_NUM_VERSIONS count event = some threads)
    (hNot : ¬event.IsReadOf .printThread) :
    SharedInv count loading { s with threads := threads } where
  rcu := h.rcu.step (by decide) hStep
  raised_le := h.raised_le.trans (published_le_step hStep)
  noticed hDown hLoading := by
    show s.raised ≤ threads.since .printThread
    rw [since_step hStep hNot]
    exact h.noticed hDown hLoading

/-- A writer raises the flag behind the publication of its version. -/
theorem writerStep {raise returned : Bool} {state : SharedState W}
    (h : SharedInv count loading s) (hStep : s.writerStep raise = some (state, returned)) :
    SharedInv count loading state := by
  unfold SharedState.writerStep at hStep
  split at hStep
  case h_1 =>
    obtain ⟨rfl, -⟩ := Prod.mk.inj (Option.some.inj hStep)
    refine ⟨h.rcu, ?_, fun hDown hLoading => ?_⟩
    · -- the version that raises it is published
      show (if raise then s.threads.published else s.raised) ≤ s.threads.published
      split
      · exact Nat.le_refl _
      · exact h.raised_le
    · -- a flag that is down behind this was down before, and is not raised
      obtain ⟨hOld, rfl⟩ := Bool.or_eq_false_iff.mp hDown
      exact h.noticed hOld hLoading
  case h_2 =>
    -- a step of the update leaves the flag
    obtain ⟨threads, hThreads, hState⟩ := Option.map_eq_some_iff.mp hStep
    obtain ⟨rfl, -⟩ := Prod.mk.inj hState
    exact h.threads .writerStep hThreads not_false

end SharedInv

/-- The invariant of both shared states. -/
def SharedsInv {W : Type} (parts : TrackerParts W) (s : TrackerThreads W) : Prop :=
  ∀ which, SharedInv (parts.count which) (s.print = .load ∧ s.printed = which) (s.shared which)

namespace SharedsInv

variable {W : Type} {parts : TrackerParts W} {intervalMs : UInt32} {s s' : TrackerThreads W}

theorem of_set {state : SharedState W} (h : SharedsInv parts s) (which : Shared)
    (hShared : s'.shared = (s.setShared which state).shared)
    (hLoading : ∀ other ≠ which, s.print = .load ∧ s.printed = other →
      s'.print = .load ∧ s'.printed = other)
    (hState : SharedInv (parts.count which) (s'.print = .load ∧ s'.printed = which) state) :
    SharedsInv parts s' := by
  intro other
  rw [hShared]
  rcases eq_or_ne other which with rfl | hNe
  · rwa [TrackerThreads.shared_setShared_self]
  · rw [TrackerThreads.shared_setShared_of_ne hNe]
    exact (h other).mono (hLoading other hNe)

/-- A step of a thread at one `StaticRCU`, that of the main thread's `read()` apart. -/
theorem of_threads {threads : RcuThreads W TrackerReader} (h : SharedsInv parts s)
    (which : Shared) (event : RcuEvent W TrackerReader)
    (hStep : (s.shared which).threads.step RCU_NUM_VERSIONS (parts.count which) event =
      some threads)
    (hNot : ¬event.IsReadOf .printThread)
    (hShared : s'.shared = (s.setThreads which threads).shared)
    (hPrint : s'.print = s.print) (hPrinted : s'.printed = s.printed) : SharedsInv parts s' := by
  refine h.of_set which hShared (fun other _ hLoading => ?_) ?_
  · rwa [hPrint, hPrinted]
  · rw [hPrint, hPrinted]
    exact (h which).threads event hStep hNot

theorem printStep (h : SharedsInv parts s) (hStep : s.printStep parts = some s') :
    SharedsInv parts s' := by
  have hHere := h s.printed
  rcases TrackerThreads.printStep_eq_some hStep with
    ⟨hPrint, rfl⟩ | ⟨hPrint, hDown, rfl⟩ | ⟨hPrint, rfl⟩ | ⟨hPrint, threads, hThreads, rfl⟩ |
      ⟨hPrint, -, rfl⟩
  · -- the flag is taken, and the load is to follow
    refine h.of_set s.printed rfl (fun other _ hLoading => ?_) ⟨hHere.rcu, hHere.raised_le, ?_⟩
    · exact absurd (hPrint.symm.trans hLoading.1) (by decide)
    · exact fun _ hNot => absurd ⟨rfl, rfl⟩ hNot
  · exact fun which => (h which).mono fun hLoading =>
      absurd (hPrint.symm.trans hLoading.1) (by decide)
  · -- the index that is loaded is the last
    refine h.of_set s.printed rfl (fun other hNe hLoading => absurd hLoading.2.symm hNe) ?_
    refine ⟨hHere.rcu.loadIndex .printThread, hHere.raised_le, fun _ _ => ?_⟩
    have hSince : ((s.shared s.printed).threads.loadIndex .printThread).since .printThread =
        (s.shared s.printed).threads.published := by simp [RcuThreads.loadIndex]
    show (s.shared s.printed).raised ≤ _
    rw [hSince]
    exact hHere.raised_le
  · exact h.of_threads s.printed (.loadVersion .printThread) hThreads not_false rfl rfl rfl
  · exact fun which => (h which).mono fun hLoading =>
      absurd (hPrint.symm.trans hLoading.1) (by decide)

/-- Every step of a thread keeps both. -/
theorem step (h : SharedsInv parts s) {event : TrackerEvent}
    (hStep : s.step parts intervalMs event = some s') : SharedsInv parts s' := by
  cases event with
  | consumeCall data len rxTs order =>
    obtain ⟨-, threads, hThreads, rfl⟩ := TrackerThreads.consumeCall_eq_some hStep
    exact h.of_threads .report (.update _ order) hThreads not_false rfl rfl rfl
  | consumeStep =>
    obtain ⟨_, _, _, _, state, _, -, hState, rfl⟩ := TrackerThreads.consumeStep_eq_some hStep
    exact h.of_set .report rfl (fun _ _ hLoading => hLoading)
      ((h .report).writerStep hState)
  | notifyCall rtpTimestamp receiverTimestamp =>
    obtain ⟨-, rfl⟩ := TrackerThreads.notifyCall_eq_some hStep
    exact h.of_threads .report (.loadIndex .dataThread) rfl
      TrackerReader.noConfusion rfl rfl rfl
  | notifyLoad =>
    obtain ⟨threads, hThreads, rfl⟩ := TrackerThreads.notifyLoad_eq_some hStep
    exact h.of_threads .report (.loadVersion .dataThread) hThreads not_false
      rfl rfl rfl
  | notifyRead part =>
    obtain ⟨threads, hThreads, rfl⟩ := TrackerThreads.notifyRead_eq_some hStep
    exact h.of_threads .report (.readPart .dataThread part) hThreads not_false
      rfl rfl rfl
  | notifyUpdate order =>
    obtain ⟨_, _, _, _, _, threads, -, -, -, -, hThreads, rfl⟩ :=
      TrackerThreads.notifyUpdate_eq_some hStep
    exact h.of_threads .clock (.update _ order) hThreads not_false rfl rfl rfl
  | notifyStep =>
    obtain ⟨_, state, _, -, hState, rfl⟩ := TrackerThreads.notifyStep_eq_some hStep
    exact h.of_set .clock rfl (fun _ _ hLoading => hLoading)
      ((h .clock).writerStep hState)
  | printStep => exact h.printStep hStep
  | printRead part =>
    obtain ⟨-, threads, hThreads, rfl⟩ := TrackerThreads.printRead_eq_some hStep
    exact h.of_threads s.printed (.readPart .printThread part) hThreads not_false rfl rfl rfl

theorem start (parts : TrackerParts W) : SharedsInv parts (.start parts) := by
  intro which
  cases which <;> exact ⟨.start _, Nat.le_refl _, fun _ _ => Nat.le_refl _⟩

end SharedsInv

/-! ## Runs of one thread -/

section OneThread

variable (intervalMs : UInt32) (calls : List TrackerCall)

/-- The frames leave the report state as it is. -/
theorem reportState_filter : (runTracker intervalMs calls).reportState =
    (runTracker intervalMs (calls.filter TrackerCall.isReport)).reportState := by
  induction calls using List.reverseRecOn with
  | nil => rfl
  | append_singleton calls call ih =>
    rw [List.filter_append, runTracker_append_singleton]
    cases call with
    | consumeRtcpPacket data len rxTs =>
      rw [show [TrackerCall.consumeRtcpPacket data len rxTs].filter TrackerCall.isReport =
        [.consumeRtcpPacket data len rxTs] from rfl, runTracker_append_singleton]
      show (runTracker intervalMs calls).reportState.update data len rxTs = _
      rw [ih]
      rfl
    -- a frame is dropped, and writes the clock state only
    | notifyDataFrame rtpTimestamp receiverTimestamp =>
      rw [show [TrackerCall.notifyDataFrame rtpTimestamp receiverTimestamp].filter
        TrackerCall.isReport = [] from rfl, List.append_nil]
      exact ih

theorem interval_runTracker :
    (runTracker intervalMs calls).statsUpdateIntervalMs = intervalMs.toNat := by
  induction calls using List.reverseRecOn with
  | nil => rfl
  | append_singleton calls call ih =>
    rw [runTracker_append_singleton]
    cases call <;> exact ih

/-- What a frame does to the clock state. -/
theorem clockState_notify (rtpTimestamp : UInt32) (receiverTimestamp : Nat) :
    (runTracker intervalMs
      (calls ++ [.notifyDataFrame rtpTimestamp receiverTimestamp])).clockState =
        (runTracker intervalMs calls).clockState.update (runTracker intervalMs calls).reportState
          rtpTimestamp.toNat receiverTimestamp
          (needUpdateStats { statsUpdateIntervalMs := intervalMs.toNat
                             clockState := (runTracker intervalMs calls).clockState }) := by
  rw [runTracker_append_singleton, ← interval_runTracker intervalMs calls]
  rfl

end OneThread

/-! ## The order of the calls -/

/-- Nothing but a reader's own loads and reads. -/
structure ReadsOnly {W ι : Type} (r : ι) (t t' : RcuThreads W ι) : Prop where
  writer : t'.writer = t.writer
  history : t'.history = t.history
  published : t'.published = t.published
  readers : ∀ q ≠ r, t'.readers q = t.readers q
  since : ∀ q ≠ r, t'.since q = t.since q

namespace ReadsOnly

variable {W ι : Type} [DecidableEq ι] {r : ι} {t t' : RcuThreads W ι}

theorem refl {W ι : Type} (r : ι) (t : RcuThreads W ι) : ReadsOnly r t t :=
  ⟨rfl, rfl, rfl, fun _ _ => rfl, fun _ _ => rfl⟩

theorem loadIndex (r : ι) (t : RcuThreads W ι) : ReadsOnly r t (t.loadIndex r) :=
  ⟨rfl, rfl, rfl, fun _ hNe => Function.update_of_ne hNe _ _,
    fun _ hNe => Function.update_of_ne hNe _ _⟩

theorem loadVersion (h : t.loadVersion r = some t') : ReadsOnly r t t' := by
  obtain ⟨_, -, rfl⟩ := RcuThreads.loadVersion_eq_some h
  exact ⟨rfl, rfl, rfl, fun _ hNe => Function.update_of_ne hNe _ _, fun _ _ => rfl⟩

theorem readPart {parts part : Nat} (h : t.readPart parts r part = some t') :
    ReadsOnly r t t' := by
  obtain ⟨_, _, -, -, rfl⟩ := RcuThreads.readPart_eq_some h
  exact ⟨rfl, rfl, rfl, fun _ hNe => Function.update_of_ne hNe _ _, fun _ _ => rfl⟩

/-- Reading one shared state reads the report state, or leaves it. -/
theorem setShared {r : TrackerReader} {s : TrackerThreads W} {which : Shared}
    {state : SharedState W} (h : ReadsOnly r (s.shared which).threads state.threads) :
    ReadsOnly r (s.shared .report).threads ((s.setShared which state).shared .report).threads := by
  rcases eq_or_ne Shared.report which with rfl | hNe
  · rwa [TrackerThreads.shared_setShared_self]
  · rw [TrackerThreads.shared_setShared_of_ne hNe]
    exact .refl r _

end ReadsOnly

/-- A report in progress that is not published. -/
def TrackerThreads.inFlight {W : Type} (s : TrackerThreads W) : List TrackerCall :=
  match s.consume, (s.shared .report).threads.writer with
  | .idle, _ => []
  | .updating _ _ _ _, .idle => []
  | .updating data len rxTs _, _ => [.consumeRtcpPacket data len rxTs]

/-- The report state after so many of the reports. -/
def reportAfter (intervalMs : UInt32) (reports : List TrackerCall) : IpmxSenderReportState :=
  (runTracker intervalMs reports).reportState

/-- The calls are those that the threads made, and every version of the report state
is that of one thread behind as many reports. -/
structure CallsInv {W : Type} (parts : TrackerParts W) (intervalMs : UInt32)
    (events : List TrackerEvent) (s : TrackerThreads W) : Prop where
  reports : s.calls.filter TrackerCall.isReport ++ s.inFlight = reportsOf events
  frames : (s.calls.filter fun call => !call.isReport) = framesOf events
  published : (s.shared .report).threads.published =
    (s.calls.filter TrackerCall.isReport).length
  history : (s.shared .report).threads.history =
    (reportsOf events).inits.map fun before => parts.report.part (reportAfter intervalMs before)
  localReport : s.localReportState = reportAfter intervalMs (reportsOf events)

/-- The clock state is that of the calls; while a frame copies the report state, it is
that of the calls but for this frame, which counts with the report it reads. -/
structure FramesInv {W : Type} (intervalMs : UInt32) (events : List TrackerEvent)
    (s : TrackerThreads W) : Prop where
  clock : (runTracker intervalMs s.calls).clockState =
    match s.notify with
    | .reading rtpTimestamp receiverTimestamp =>
      s.localClockState.update
        (reportAfter intervalMs
          ((reportsOf events).take ((s.shared .report).threads.since .dataThread)))
        rtpTimestamp.toNat receiverTimestamp (s.needsUpdate intervalMs)
    | _ => s.localClockState
  fresh : ∀ index seen, (s.shared .report).threads.readers .dataThread = .reading index seen →
    ∀ p ∈ seen, p.begun < (s.shared .report).threads.since .dataThread + RCU_NUM_VERSIONS

theorem reportsOf_append (events later : List TrackerEvent) :
    reportsOf (events ++ later) = reportsOf events ++ reportsOf later :=
  List.filterMap_append

theorem framesOf_append (events later : List TrackerEvent) :
    framesOf (events ++ later) = framesOf events ++ framesOf later :=
  List.filterMap_append

section Steps

variable {W : Type} {parts : TrackerParts W} {intervalMs : UInt32} {events : List TrackerEvent}
  {event : TrackerEvent} {s s' : TrackerThreads W}

/-- A step that starts no call, publishes nothing and leaves the local report state. -/
theorem CallsInv.keep (h : CallsInv parts intervalMs events s)
    (hInFlight : s'.inFlight = s.inFlight) (hCalls : s'.calls = s.calls)
    (hPublished : (s'.shared .report).threads.published = (s.shared .report).threads.published)
    (hHistory : (s'.shared .report).threads.history = (s.shared .report).threads.history)
    (hLocal : s'.localReportState = s.localReportState) (hReports : reportsOf [event] = [])
    (hFrames : framesOf [event] = []) : CallsInv parts intervalMs (events ++ [event]) s' := by
  have hSame : reportsOf (events ++ [event]) = reportsOf events := by
    rw [reportsOf_append, hReports, List.append_nil]
  refine ⟨?_, ?_, ?_, ?_, ?_⟩
  · rw [hSame, hCalls, hInFlight]
    exact h.reports
  · rw [framesOf_append, hFrames, List.append_nil, hCalls]
    exact h.frames
  · rw [hPublished, hCalls]
    exact h.published
  · rw [hHistory, hSame]
    exact h.history
  · rw [hLocal, hSame]
    exact h.localReport

/-- What the other threads see of a step that only reads the report state. -/
theorem CallsInv.of_reads {r : TrackerReader} (h : CallsInv parts intervalMs events s)
    (hReads : ReadsOnly r (s.shared .report).threads (s'.shared .report).threads)
    (hConsume : s'.consume = s.consume) (hLocal : s'.localReportState = s.localReportState)
    (hCalls : s'.calls = s.calls) (hReports : reportsOf [event] = [])
    (hFrames : framesOf [event] = []) : CallsInv parts intervalMs (events ++ [event]) s' := by
  have hInFlight : s'.inFlight = s.inFlight := by
    rw [TrackerThreads.inFlight, TrackerThreads.inFlight, hConsume, hReads.writer]
  exact h.keep hInFlight hCalls hReads.published hReads.history hLocal hReports hFrames

/-- The call of a report: its version is begun, and in flight. -/
theorem CallsInv.consumeCall {data : Memory} {len rxTs : Nat} {order : List Nat}
    (h : CallsInv parts intervalMs events s)
    (hStep : s.consumeCall parts data len rxTs order = some s') :
    CallsInv parts intervalMs (events ++ [.consumeCall data len rxTs order]) s' := by
  obtain ⟨hIdle, threads, hThreads, rfl⟩ := TrackerThreads.consumeCall_eq_some hStep
  obtain ⟨-, -, rfl⟩ := RcuThreads.update_eq_some hThreads
  have hNew : reportsOf (events ++ [.consumeCall data len rxTs order]) =
      reportsOf events ++ [.consumeRtcpPacket data len rxTs] :=
    reportsOf_append events _
  have hLocal : s.localReportState.update data len rxTs =
      reportAfter intervalMs (reportsOf events ++ [.consumeRtcpPacket data len rxTs]) := by
    rw [reportAfter, runTracker_append_singleton, h.localReport]
    rfl
  have hReports := h.reports
  rw [TrackerThreads.inFlight, hIdle, List.append_nil] at hReports
  refine ⟨?_, ?_, h.published, ?_, ?_⟩
  · rw [hNew, ← hReports]
    rfl
  · rw [framesOf_append]
    exact h.frames.trans (List.append_nil _).symm
  · show (s.shared .report).threads.history ++ _ = _
    rw [hNew, List.inits_append, List.map_append, ← h.history, hLocal]
    simp
  · rw [hNew]
    exact hLocal

/-- The steps of a report: its call counts when its version is published. -/
theorem CallsInv.consumeStep (h : CallsInv parts intervalMs events s)
    (hStep : s.consumeStep = some s') :
    CallsInv parts intervalMs (events ++ [.consumeStep]) s' := by
  obtain ⟨data, len, rxTs, raise, state, returned, hConsume, hState, rfl⟩ :=
    TrackerThreads.consumeStep_eq_some hStep
  unfold SharedState.writerStep at hState
  split at hState
  case h_1 hIdle =>
    -- the flag, and the return
    obtain ⟨rfl, rfl⟩ := Prod.mk.inj (Option.some.inj hState)
    refine h.keep ?_ (by simp) (by simp) (by simp) rfl rfl rfl
    simp [TrackerThreads.inFlight, hConsume, hIdle]
  case h_2 hBusy =>
    obtain ⟨threads, hThreads, hPair⟩ := Option.map_eq_some_iff.mp hState
    obtain ⟨rfl, rfl⟩ := Prod.mk.inj hPair
    rcases RcuThreads.writerStep_eq_some hThreads with
      ⟨newIndex, newData, k, todo, hWriter, rfl⟩ | ⟨newIndex, newData, hWriter, rfl⟩ |
        ⟨newIndex, hWriter, rfl⟩
    · refine h.keep ?_ (by simp) (by simp) (by simp) rfl rfl rfl
      simp [TrackerThreads.inFlight, hConsume, hWriter]
    · refine h.keep ?_ (by simp) (by simp) (by simp) rfl rfl rfl
      simp [TrackerThreads.inFlight, hConsume, hWriter]
    · -- the index is stored: the report takes effect
      have hReports := h.reports
      rw [TrackerThreads.inFlight, hConsume, hWriter] at hReports
      have hSame : reportsOf (events ++ [.consumeStep]) = reportsOf events :=
        (reportsOf_append events _).trans (List.append_nil _)
      have hOne : [TrackerCall.consumeRtcpPacket data len rxTs].filter TrackerCall.isReport =
        [.consumeRtcpPacket data len rxTs] := rfl
      refine ⟨?_, ?_, ?_, ?_, ?_⟩
      · rw [hSame]
        simpa [TrackerThreads.inFlight, hConsume, hOne] using hReports
      · rw [framesOf_append]
        simpa [TrackerCall.isReport, framesOf] using h.frames
      · simpa [hOne] using h.published
      · rw [hSame]
        simpa using h.history
      · rw [hSame]
        exact h.localReport

/-- The call of a frame counts when it loads the index. -/
theorem CallsInv.notifyCall {rtpTimestamp : UInt32} {receiverTimestamp : Nat}
    (h : CallsInv parts intervalMs events s)
    (hStep : s.notifyCall rtpTimestamp receiverTimestamp = some s') :
    CallsInv parts intervalMs (events ++ [.notifyCall rtpTimestamp receiverTimestamp]) s' := by
  obtain ⟨-, rfl⟩ := TrackerThreads.notifyCall_eq_some hStep
  have hSame : reportsOf (events ++ [.notifyCall rtpTimestamp receiverTimestamp]) =
      reportsOf events := (reportsOf_append events _).trans (List.append_nil _)
  have hFilter : (s.calls ++ [TrackerCall.notifyDataFrame rtpTimestamp receiverTimestamp]).filter
      TrackerCall.isReport = s.calls.filter TrackerCall.isReport := by
    rw [List.filter_append]
    exact List.append_nil _
  refine ⟨?_, ?_, ?_, ?_, ?_⟩
  · rw [hSame, hFilter]
    exact h.reports
  · rw [framesOf_append, List.filter_append, h.frames]
    rfl
  · rw [hFilter]
    exact h.published
  · rw [hSame]
    exact h.history
  · rw [hSame]
    exact h.localReport

/-- A step that leaves what the data thread does and what it reads. -/
theorem FramesInv.keep (h : FramesInv intervalMs events s)
    (hSince : (s.shared .report).threads.since .dataThread ≤ (reportsOf events).length)
    (hReader : (s'.shared .report).threads.readers .dataThread =
      (s.shared .report).threads.readers .dataThread)
    (hSameSince : (s'.shared .report).threads.since .dataThread =
      (s.shared .report).threads.since .dataThread)
    (hClock : (runTracker intervalMs s'.calls).clockState =
      (runTracker intervalMs s.calls).clockState)
    (hNotify : s'.notify = s.notify) (hLocal : s'.localClockState = s.localClockState) :
    FramesInv intervalMs (events ++ [event]) s' where
  clock := by
    -- more reports do not change the first of them
    have hTake : (reportsOf (events ++ [event])).take
        ((s.shared .report).threads.since .dataThread) =
          (reportsOf events).take ((s.shared .report).threads.since .dataThread) := by
      rw [reportsOf_append, List.take_append_of_le_length hSince]
    rw [hClock, h.clock, hNotify, hSameSince, hTake, TrackerThreads.needsUpdate,
      TrackerThreads.needsUpdate, hLocal]
  fresh := by
    rw [hReader, hSameSince]
    exact h.fresh

theorem FramesInv.of_reads (h : FramesInv intervalMs events s)
    (hSince : (s.shared .report).threads.since .dataThread ≤ (reportsOf events).length)
    (hReads : ReadsOnly .printThread (s.shared .report).threads (s'.shared .report).threads)
    (hCalls : s'.calls = s.calls) (hNotify : s'.notify = s.notify)
    (hLocal : s'.localClockState = s.localClockState) :
    FramesInv intervalMs (events ++ [event]) s' :=
  h.keep hSince (hReads.readers _ TrackerReader.noConfusion)
    (hReads.since _ TrackerReader.noConfusion) (by rw [hCalls]) hNotify hLocal

theorem FramesInv.consumeCall {data : Memory} {len rxTs : Nat} {order : List Nat}
    (h : FramesInv intervalMs events s)
    (hSince : (s.shared .report).threads.since .dataThread ≤ (reportsOf events).length)
    (hStep : s.consumeCall parts data len rxTs order = some s') :
    FramesInv intervalMs (events ++ [.consumeCall data len rxTs order]) s' := by
  obtain ⟨-, threads, hThreads, rfl⟩ := TrackerThreads.consumeCall_eq_some hStep
  obtain ⟨-, -, rfl⟩ := RcuThreads.update_eq_some hThreads
  exact h.keep hSince rfl rfl rfl rfl rfl

/-- A report leaves the clock state, wherever it takes effect. -/
theorem FramesInv.consumeStep (h : FramesInv intervalMs events s)
    (hSince : (s.shared .report).threads.since .dataThread ≤ (reportsOf events).length)
    (hStep : s.consumeStep = some s') :
    FramesInv intervalMs (events ++ [.consumeStep]) s' := by
  obtain ⟨data, len, rxTs, raise, state, returned, hConsume, hState, rfl⟩ :=
    TrackerThreads.consumeStep_eq_some hStep
  have hClock : ∀ calls : List TrackerCall,
      (runTracker intervalMs (calls ++ [.consumeRtcpPacket data len rxTs])).clockState =
        (runTracker intervalMs calls).clockState := by
    intro calls
    rw [runTracker_append_singleton]
    rfl
  unfold SharedState.writerStep at hState
  split at hState
  case h_1 =>
    -- the return, with the call in its place already
    obtain ⟨rfl, rfl⟩ := Prod.mk.inj (Option.some.inj hState)
    exact h.keep hSince rfl rfl (by simp) rfl rfl
  case h_2 =>
    obtain ⟨threads, hThreads, hPair⟩ := Option.map_eq_some_iff.mp hState
    obtain ⟨rfl, rfl⟩ := Prod.mk.inj hPair
    rcases RcuThreads.writerStep_eq_some hThreads with
      ⟨_, _, _, _, -, rfl⟩ | ⟨_, _, -, rfl⟩ | ⟨_, -, rfl⟩
    · exact h.keep hSince rfl rfl (by simp) rfl rfl
    · exact h.keep hSince rfl rfl (by simp) rfl rfl
    · -- the publication
      exact h.keep hSince rfl rfl (by simp [hClock]) rfl rfl

/-- The frame that loads the index counts with the report published last. -/
theorem FramesInv.notifyCall {rtpTimestamp : UInt32} {receiverTimestamp : Nat}
    (h : FramesInv intervalMs events s) (hCalls : CallsInv parts intervalMs events s)
    (hStep : s.notifyCall rtpTimestamp receiverTimestamp = some s') :
    FramesInv intervalMs (events ++ [.notifyCall rtpTimestamp receiverTimestamp]) s' := by
  obtain ⟨hIdle, rfl⟩ := TrackerThreads.notifyCall_eq_some hStep
  have hClock := h.clock
  rw [hIdle] at hClock
  -- the reports that are published are those among the calls
  have hTake : (reportsOf events).take (s.shared .report).threads.published =
      s.calls.filter TrackerCall.isReport := by
    rw [← hCalls.reports, hCalls.published]
    exact List.take_left
  have hSince : ((s.shared .report).threads.loadIndex .dataThread).since .dataThread =
      (s.shared .report).threads.published := by simp [RcuThreads.loadIndex]
  refine ⟨?_, ?_⟩
  · show (runTracker intervalMs (s.calls ++ _)).clockState =
      s.localClockState.update (reportAfter intervalMs ((reportsOf (events ++ _)).take _))
        rtpTimestamp.toNat receiverTimestamp _
    rw [reportsOf_append, show reportsOf [TrackerEvent.notifyCall rtpTimestamp receiverTimestamp] =
      [] from rfl, List.append_nil, TrackerThreads.setThreads,
      TrackerThreads.shared_setShared_self, hSince, hTake, reportAfter, ← reportState_filter,
      clockState_notify, hClock]
    rfl
  · -- nothing is copied yet
    intro index seen hReader
    simp [TrackerThreads.setThreads, RcuThreads.loadIndex] at hReader

theorem FramesInv.notifyLoad (h : FramesInv intervalMs events s)
    (hStep : s.notifyLoad = some s') : FramesInv intervalMs (events ++ [.notifyLoad]) s' := by
  obtain ⟨threads, hThreads, rfl⟩ := TrackerThreads.notifyLoad_eq_some hStep
  obtain ⟨index, -, rfl⟩ := RcuThreads.loadVersion_eq_some hThreads
  refine ⟨?_, ?_⟩
  · rw [reportsOf_append, show reportsOf [TrackerEvent.notifyLoad] = [] from rfl, List.append_nil]
    simpa [TrackerThreads.setThreads, TrackerThreads.needsUpdate, TrackerThreads.setShared] using
      h.clock
  · -- nor is it behind the second load
    intro index seen hReader p hp
    simp only [TrackerThreads.setThreads, TrackerThreads.shared_setShared_self,
      Function.update_self, ReadStep.reading.injEq] at hReader
    rw [← hReader.2] at hp
    exact absurd hp List.not_mem_nil

/-- A part is read in time. -/
theorem FramesInv.notifyRead {part : Nat} (h : FramesInv intervalMs events s)
    (hPace : (s.shared .report).threads.begun <
      (s.shared .report).threads.since .dataThread + RCU_NUM_VERSIONS)
    (hStep : s.notifyRead parts part = some s') :
    FramesInv intervalMs (events ++ [.notifyRead part]) s' := by
  obtain ⟨threads, hThreads, rfl⟩ := TrackerThreads.notifyRead_eq_some hStep
  obtain ⟨index, before, hBefore, -, rfl⟩ := RcuThreads.readPart_eq_some hThreads
  refine ⟨?_, ?_⟩
  · rw [reportsOf_append, show reportsOf [TrackerEvent.notifyRead part] = [] from rfl,
      List.append_nil]
    simpa [TrackerThreads.setThreads, TrackerThreads.needsUpdate, TrackerThreads.setShared] using
      h.clock
  · -- the part just read is in time by the pace, the others were
    intro index' seen hReader p hp
    simp only [TrackerThreads.setThreads, TrackerThreads.shared_setShared_self,
      Function.update_self, ReadStep.reading.injEq] at hReader ⊢
    rw [← hReader.2] at hp
    rcases List.mem_cons.mp hp with rfl | hOld
    · exact hPace
    · exact h.fresh index before hBefore p hOld

/-- Version `v` of the report state is that of one thread behind `v` reports. -/
theorem CallsInv.version (h : CallsInv parts intervalMs events s) {v : Nat}
    (hv : v ≤ (reportsOf events).length) : (s.shared .report).threads.history[v]? =
      some (parts.report.part (reportAfter intervalMs ((reportsOf events).take v))) := by
  have hLength : v < (reportsOf events).inits.length := by
    rw [List.length_inits]
    omega
  rw [h.history, List.getElem?_map, List.getElem?_eq_getElem hLength, List.getElem_inits]
  rfl

/-- No reader is ahead of the reports. -/
theorem CallsInv.since_le (h : CallsInv parts intervalMs events s) (hShareds : SharedsInv parts s)
    (r : TrackerReader) :
    (s.shared .report).threads.since r ≤ (reportsOf events).length := by
  have hSince := (hShareds .report).rcu.since_le r
  have hPublished := (hShareds .report).rcu.published_lt
  rw [h.history, List.length_map, List.length_inits] at hPublished
  omega

/-- What a reader has read in time is the report state behind so many reports. -/
theorem CallsInv.read_eq (h : CallsInv parts intervalMs events s) (hShareds : SharedsInv parts s)
    {r : TrackerReader} {index : Nat} {seen : List (PartRead W)}
    (hReading : (s.shared .report).threads.readers r = .reading index seen) {p : PartRead W}
    (hp : p ∈ seen) (hFresh : p.begun < (s.shared .report).threads.since r + RCU_NUM_VERSIONS) :
    p.value = parts.report.part (reportAfter intervalMs
      ((reportsOf events).take ((s.shared .report).threads.since r))) p.part := by
  have hReader := (hShareds .report).rcu.reader r
  rw [ReaderInv, hReading] at hReader
  exact hReader.2 p hp hFresh _ (h.version (h.since_le hShareds r))

/-- The value that the data thread copied. -/
theorem FramesInv.whole_copied (h : FramesInv intervalMs events s)
    (hCalls : CallsInv parts intervalMs events s) (hShareds : SharedsInv parts s) {index : Nat}
    {seen : List (PartRead W)}
    (hReading : (s.shared .report).threads.readers .dataThread = .reading index seen)
    (hAll : ∀ k < parts.report.count, (TrackerThreads.copied seen k).isSome) :
    parts.report.whole (TrackerThreads.copied seen) = reportAfter intervalMs
      ((reportsOf events).take ((s.shared .report).threads.since .dataThread)) := by
  refine parts.report.whole_eq _ _ fun k hk => ?_
  -- each part was found among those read, and all of them in time
  obtain ⟨w, hw⟩ := Option.isSome_iff_exists.mp (hAll k hk)
  obtain ⟨p, hFound, rfl⟩ := Option.map_eq_some_iff.mp hw
  have hPart : p.part = k := by simpa using List.find?_some hFound
  have hMem : p ∈ seen := List.mem_of_find?_eq_some hFound
  rw [hw, ← hPart, hCalls.read_eq hShareds hReading hMem (h.fresh index seen hReading p hMem)]

/-- The frame counts, with the report it has read. -/
theorem FramesInv.notifyUpdate {order : List Nat} (h : FramesInv intervalMs events s)
    (hCalls : CallsInv parts intervalMs events s) (hShareds : SharedsInv parts s)
    (hStep : s.notifyUpdate parts intervalMs order = some s') :
    FramesInv intervalMs (events ++ [.notifyUpdate order]) s' := by
  obtain ⟨rtpTimestamp, receiverTimestamp, index, seen, next, threads, hNotify, hReading, hAll,
    rfl, -, rfl⟩ := TrackerThreads.notifyUpdate_eq_some hStep
  have hReport : (s.setThreads .clock threads).shared .report = s.shared .report :=
    TrackerThreads.shared_setShared_of_ne Shared.noConfusion _
  refine ⟨?_, ?_⟩
  · -- what the invariant promised of this frame is what the update computes
    have hClock := h.clock
    rw [hNotify] at hClock
    rw [h.whole_copied hCalls hShareds hReading hAll]
    exact hClock
  · -- the report state is not touched
    intro index' seen' hReader
    simp only [hReport] at hReader ⊢
    exact h.fresh index' seen' hReader

theorem FramesInv.notifyStep (h : FramesInv intervalMs events s) (hStep : s.notifyStep = some s') :
    FramesInv intervalMs (events ++ [.notifyStep]) s' := by
  obtain ⟨raise, state, returned, hNotify, -, rfl⟩ := TrackerThreads.notifyStep_eq_some hStep
  have hReport : (s.setShared .clock state).shared .report = s.shared .report :=
    TrackerThreads.shared_setShared_of_ne Shared.noConfusion _
  have hClock := h.clock
  rw [hNotify] at hClock
  refine ⟨?_, ?_⟩
  · cases returned
    · simpa [hNotify, TrackerThreads.setShared] using hClock
    · simpa [TrackerThreads.setShared] using hClock
  · intro index seen hReader
    simp only [hReport] at hReader ⊢
    exact h.fresh index seen hReader

/-! ## Every step -/

/-- The main thread and the clock state are not seen by the other calls. -/
theorem readsOnly_printStep (hStep : s.printStep parts = some s') :
    ReadsOnly .printThread (s.shared .report).threads (s'.shared .report).threads ∧
      s'.consume = s.consume ∧ s'.notify = s.notify ∧ s'.calls = s.calls ∧
        s'.localReportState = s.localReportState ∧ s'.localClockState = s.localClockState := by
  rcases TrackerThreads.printStep_eq_some hStep with
    ⟨-, rfl⟩ | ⟨-, -, rfl⟩ | ⟨-, rfl⟩ | ⟨-, threads, hThreads, rfl⟩ | ⟨-, -, rfl⟩
  · exact ⟨.setShared (.refl _ _), rfl, rfl, rfl, rfl, rfl⟩
  · exact ⟨.refl _ _, rfl, rfl, rfl, rfl, rfl⟩
  · exact ⟨.setShared (.loadIndex _ _), rfl, rfl, rfl, rfl, rfl⟩
  · exact ⟨.setShared (.loadVersion hThreads), rfl, rfl, rfl, rfl, rfl⟩
  · exact ⟨.refl _ _, rfl, rfl, rfl, rfl, rfl⟩

theorem CallsInv.step (h : CallsInv parts intervalMs events s)
    (hStep : s.step parts intervalMs event = some s') :
    CallsInv parts intervalMs (events ++ [event]) s' := by
  cases event with
  | consumeCall data len rxTs order => exact h.consumeCall hStep
  | consumeStep => exact h.consumeStep hStep
  | notifyCall rtpTimestamp receiverTimestamp => exact h.notifyCall hStep
  | notifyLoad =>
    obtain ⟨threads, hThreads, rfl⟩ := TrackerThreads.notifyLoad_eq_some hStep
    exact h.of_reads (.setShared (.loadVersion hThreads)) rfl rfl rfl rfl rfl
  | notifyRead part =>
    obtain ⟨threads, hThreads, rfl⟩ := TrackerThreads.notifyRead_eq_some hStep
    exact h.of_reads (.setShared (.readPart hThreads)) rfl rfl rfl rfl rfl
  | notifyUpdate order =>
    obtain ⟨_, _, _, _, _, threads, -, -, -, -, -, rfl⟩ :=
      TrackerThreads.notifyUpdate_eq_some hStep
    exact h.of_reads (r := .dataThread) (.refl _ _) rfl rfl rfl rfl rfl
  | notifyStep =>
    obtain ⟨_, state, _, -, -, rfl⟩ := TrackerThreads.notifyStep_eq_some hStep
    exact h.of_reads (r := .dataThread) (.refl _ _) rfl rfl rfl rfl rfl
  | printStep =>
    obtain ⟨hReads, hConsume, -, hCalls, hLocal, -⟩ := readsOnly_printStep hStep
    exact h.of_reads hReads hConsume hLocal hCalls rfl rfl
  | printRead part =>
    obtain ⟨-, threads, hThreads, rfl⟩ := TrackerThreads.printRead_eq_some hStep
    exact h.of_reads (.setShared (.readPart hThreads)) rfl rfl rfl rfl rfl

/-- A step of the data thread that reads a part is in time. -/
def InTime (event : TrackerEvent) (s : TrackerThreads W) : Prop :=
  ∀ part, event = .notifyRead part → (s.shared .report).threads.begun <
    (s.shared .report).threads.since .dataThread + RCU_NUM_VERSIONS

theorem FramesInv.step (h : FramesInv intervalMs events s)
    (hCalls : CallsInv parts intervalMs events s) (hShareds : SharedsInv parts s)
    (hInTime : InTime event s) (hStep : s.step parts intervalMs event = some s') :
    FramesInv intervalMs (events ++ [event]) s' := by
  have hSince := hCalls.since_le hShareds .dataThread
  cases event with
  | consumeCall data len rxTs order => exact h.consumeCall hSince hStep
  | consumeStep => exact h.consumeStep hSince hStep
  | notifyCall rtpTimestamp receiverTimestamp => exact h.notifyCall hCalls hStep
  | notifyLoad => exact h.notifyLoad hStep
  | notifyRead part => exact h.notifyRead (hInTime part rfl) hStep
  | notifyUpdate order => exact h.notifyUpdate hCalls hShareds hStep
  | notifyStep => exact h.notifyStep hStep
  | printStep =>
    obtain ⟨hReads, -, hNotify, hCalls, -, hLocal⟩ := readsOnly_printStep hStep
    exact h.of_reads hSince hReads hCalls hNotify hLocal
  | printRead part =>
    obtain ⟨-, threads, hThreads, rfl⟩ := TrackerThreads.printRead_eq_some hStep
    exact h.of_reads hSince (.setShared (.readPart hThreads)) rfl rfl rfl

/-- The calls so far stay in their places. -/
theorem calls_step (hStep : s.step parts intervalMs event = some s') : s.calls <+: s'.calls := by
  cases event with
  | consumeCall data len rxTs order =>
    obtain ⟨-, _, -, rfl⟩ := TrackerThreads.consumeCall_eq_some hStep
    exact List.prefix_rfl
  | consumeStep =>
    obtain ⟨_, _, _, _, state, _, -, -, rfl⟩ := TrackerThreads.consumeStep_eq_some hStep
    dsimp only
    split
    · exact List.prefix_rfl
    · exact List.prefix_append _ _
  | notifyCall rtpTimestamp receiverTimestamp =>
    obtain ⟨-, rfl⟩ := TrackerThreads.notifyCall_eq_some hStep
    exact List.prefix_append _ _
  | notifyLoad =>
    obtain ⟨_, -, rfl⟩ := TrackerThreads.notifyLoad_eq_some hStep
    exact List.prefix_rfl
  | notifyRead part =>
    obtain ⟨_, -, rfl⟩ := TrackerThreads.notifyRead_eq_some hStep
    exact List.prefix_rfl
  | notifyUpdate order =>
    obtain ⟨_, _, _, _, _, _, -, -, -, -, -, rfl⟩ := TrackerThreads.notifyUpdate_eq_some hStep
    exact List.prefix_rfl
  | notifyStep =>
    obtain ⟨_, _, _, -, -, rfl⟩ := TrackerThreads.notifyStep_eq_some hStep
    exact List.prefix_rfl
  | printStep =>
    obtain ⟨-, -, -, hCalls, -⟩ := readsOnly_printStep hStep
    rw [hCalls]
  | printRead part =>
    obtain ⟨-, _, -, rfl⟩ := TrackerThreads.printRead_eq_some hStep
    exact List.prefix_rfl

end Steps

/-! ## Runs -/

section Runs

variable {W : Type} {parts : TrackerParts W} {intervalMs : UInt32} {events : List TrackerEvent}
  {s : TrackerThreads W}

theorem runThreads_append {later : List TrackerEvent}
    (hRun : runThreads parts intervalMs (events ++ later) = some s) :
    ∃ before, runThreads parts intervalMs events = some before ∧
      later.foldlM (TrackerThreads.step parts intervalMs) before = some s := by
  rw [runThreads, List.foldlM_append] at hRun
  exact Option.bind_eq_some_iff.mp hRun

theorem runThreads_concat {event : TrackerEvent}
    (hRun : runThreads parts intervalMs (events ++ [event]) = some s) :
    ∃ before, runThreads parts intervalMs events = some before ∧
      before.step parts intervalMs event = some s := by
  obtain ⟨before, hBefore, hLast⟩ := runThreads_append hRun
  simp only [List.foldlM_cons, List.foldlM_nil, bind_pure] at hLast
  exact ⟨before, hBefore, hLast⟩

/-- Both invariants hold in every run, whatever the order of the steps. -/
theorem runThreads_inv (hRun : runThreads parts intervalMs events = some s) :
    SharedsInv parts s ∧ CallsInv parts intervalMs events s := by
  induction events using List.reverseRecOn generalizing s with
  | nil =>
    obtain rfl := Option.some.inj hRun
    exact ⟨.start parts, ⟨rfl, rfl, rfl, rfl, rfl⟩⟩
  | append_singleton events event ih =>
    obtain ⟨before, hBefore, hLast⟩ := runThreads_concat hRun
    obtain ⟨hShareds, hCalls⟩ := ih hBefore
    exact ⟨hShareds.step hLast, hCalls.step hLast⟩

/-- Every read of the data thread is in time: fewer than four reports have begun
since it loaded the index, one that was under way then included. -/
def Paced (parts : TrackerParts W) (intervalMs : UInt32) (events : List TrackerEvent) : Prop :=
  ∀ before event s, before ++ [event] <+: events →
    runThreads parts intervalMs before = some s → InTime event s

theorem runThreads_frames (hRun : runThreads parts intervalMs events = some s)
    (hPaced : Paced parts intervalMs events) : FramesInv intervalMs events s := by
  induction events using List.reverseRecOn generalizing s with
  | nil =>
    obtain rfl := Option.some.inj hRun
    exact ⟨rfl, nofun⟩
  | append_singleton events event ih =>
    obtain ⟨before, hBefore, hLast⟩ := runThreads_concat hRun
    obtain ⟨hShareds, hCalls⟩ := runThreads_inv hBefore
    have hFrames := ih hBefore fun past next at' hPrefix =>
      hPaced past next at' (hPrefix.trans (List.prefix_append _ _))
    exact hFrames.step hCalls hShareds (hPaced events event before List.prefix_rfl hBefore) hLast

theorem calls_prefix (hRun : runThreads parts intervalMs events = some s)
    {before : List TrackerEvent} (hPrefix : before <+: events) :
    ∃ s₀, runThreads parts intervalMs before = some s₀ ∧ s₀.calls <+: s.calls := by
  induction events using List.reverseRecOn generalizing s with
  | nil =>
    obtain rfl := List.prefix_nil.mp hPrefix
    exact ⟨s, hRun, List.prefix_rfl⟩
  | append_singleton events event ih =>
    rcases List.prefix_concat_iff.mp hPrefix with rfl | hEarlier
    · exact ⟨s, hRun, List.prefix_rfl⟩
    · obtain ⟨last, hBefore, hLast⟩ := runThreads_concat hRun
      obtain ⟨s₀, hAt, hCalls⟩ := ih hBefore hEarlier
      exact ⟨s₀, hAt, hCalls.trans (calls_step hLast)⟩

/-- A run of up to three reports leaves every read in time. -/
theorem paced_of_few (hFew : (reportsOf events).length < RCU_NUM_VERSIONS) :
    Paced parts intervalMs events := by
  intro before event s hPrefix hRun part hEvent
  obtain ⟨-, hCalls⟩ := runThreads_inv hRun
  have hBegun : (s.shared .report).threads.begun = (reportsOf before).length := by
    rw [RcuThreads.begun, hCalls.history, List.length_map, List.length_inits, Nat.add_sub_cancel]
  obtain ⟨rest, rfl⟩ := hPrefix
  rw [List.append_assoc, reportsOf_append, List.length_append] at hFew
  omega

/-- **The threads work as one.** When every read of the data thread is in time, the
local states are those of one thread that makes the same calls one by one: the
reports in their order, one in progress apart, and the frames in theirs, each call
in a place between its begin and its end. -/
theorem threads_sequential (hRun : runThreads parts intervalMs events = some s)
    (hPaced : Paced parts intervalMs events) :
    s.calls.filter TrackerCall.isReport ++ s.inFlight = reportsOf events ∧
      (s.calls.filter fun call => !call.isReport) = framesOf events ∧
      (s.inFlight = [] → s.localReportState = (runTracker intervalMs s.calls).reportState) ∧
      ((∀ rtpTimestamp receiverTimestamp, s.notify ≠ .reading rtpTimestamp receiverTimestamp) →
        s.localClockState = (runTracker intervalMs s.calls).clockState) ∧
      ∀ before, before <+: events →
        ∃ s₀, runThreads parts intervalMs before = some s₀ ∧ s₀.calls <+: s.calls := by
  obtain ⟨-, hCalls⟩ := runThreads_inv hRun
  have hFrames := runThreads_frames hRun hPaced
  refine ⟨hCalls.reports, hCalls.frames, fun hNone => ?_, fun hNotify => ?_,
    fun before hPrefix => calls_prefix hRun hPrefix⟩
  · have hReports := hCalls.reports
    rw [hNone, List.append_nil] at hReports
    rw [hCalls.localReport, reportAfter, reportState_filter intervalMs s.calls, hReports]
  · have hClock := hFrames.clock
    split at hClock
    case h_1 rtpTimestamp receiverTimestamp hReading =>
      exact absurd hReading (hNotify rtpTimestamp receiverTimestamp)
    case h_2 => exact hClock.symm

end Runs

/-- The members of the two states, each copied as one part. -/
inductive TrackerPart
  | info (lastReport : IpmxStreamInfo)
  | reports (stats : RtcpReportStats)
  | clock (state : IpmxDataClockState)

def memberParts : TrackerParts TrackerPart where
  report :=
    { count := 2
      part := fun state k => if k = 0 then .info state.lastReport else .reports state.stats
      whole := fun parts =>
        { lastReport := match parts 0 with
            | some (.info lastReport) => lastReport
            | _ => {}
          stats := match parts 1 with
            | some (.reports stats) => stats
            | _ => {} }
      whole_eq := fun state parts h => by simp [h 0, h 1] }
  clock :=
    { count := 1
      part := fun state _ => .clock state
      whole := fun parts => match parts 0 with
        | some (.clock state) => state
        | _ => {}
      whole_eq := fun state parts h => by simp [h 0] }
  printed := fun _ => [0]

/-- A report is published while a frame copies the state before it. -/
def overtakenFrame : List TrackerEvent :=
  [.notifyCall 0 100, .consumeCall (fun _ => 0) 28 50 [0, 1], .notifyLoad, .consumeStep,
    .consumeStep, .notifyRead 0, .consumeStep, .consumeStep, .notifyRead 1, .notifyUpdate [0]]

theorem threads_sequential_overtakenFrame :
    ∃ s, runThreads memberParts 1000 overtakenFrame = some s ∧
      s.calls.filter TrackerCall.isReport ++ s.inFlight = reportsOf overtakenFrame ∧
      (s.calls.filter fun call => !call.isReport) = framesOf overtakenFrame ∧
      (s.inFlight = [] → s.localReportState = (runTracker 1000 s.calls).reportState) ∧
      ((∀ rtpTimestamp receiverTimestamp, s.notify ≠ .reading rtpTimestamp receiverTimestamp) →
        s.localClockState = (runTracker 1000 s.calls).clockState) ∧
      ∀ before, before <+: overtakenFrame →
        ∃ s₀, runThreads memberParts 1000 before = some s₀ ∧ s₀.calls <+: s.calls := by
  have hRuns : (runThreads memberParts 1000 overtakenFrame).isSome := by decide
  obtain ⟨s, hRun⟩ := Option.isSome_iff_exists.mp hRuns
  exact ⟨s, hRun, threads_sequential hRun (paced_of_few (by decide))⟩

end RivermaxDevKit
