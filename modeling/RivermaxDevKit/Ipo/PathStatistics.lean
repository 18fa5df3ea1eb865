import RivermaxDevKit.Ipo.Moves
import RivermaxDevKit.Ipo.Ordering

/-!
# Inline Packet Ordering — path statistics

The hooks `AppIPOReceiveStream` overrides (`ipo_receiver_io_node.cpp`), and what
they count. They keep a bitmap for each slot: the paths that brought the packet
stored there.

* `AppIPOReceiveStream.hook` — the overriding hooks, one for each event.
* `Counted` — the members the hooks write, as functions of the list of events.
* `path_statistics` — the counters at every moment of every run.
-/

namespace RivermaxDevKit

open SerialNumber

/-! ## Statistics -/

structure IPOPathStatistics where
  rxCount : Nat := 0
  rxDropped : Nat := 0

/-- `IPORXStatistics`. The path counters are `uint32_t`, the others `size_t`;
paths are indexed by a total function. -/
structure IPORXStatistics where
  rxCount : Nat := 0
  rxDropped : Nat := 0
  rxCorruptHeader : Nat := 0
  receivedBytes : Nat := 0
  rxExceedMd : Nat := 0
  pathStats : Nat → IPOPathStatistics := fun _ => {}

namespace IPORXStatistics

/-- What `complete_packet` adds, for the bitmap of the packet. -/
def countComplete (byPaths : Nat → Bool) (numDropped : Nat) (s : IPORXStatistics) :
    IPORXStatistics :=
  { s with
    pathStats := fun i =>
      { rxCount := ((s.pathStats i).rxCount + (byPaths i).toNat) % 2 ^ 32
        rxDropped := ((s.pathStats i).rxDropped + (1 - (byPaths i).toNat)) % 2 ^ 32 }
    rxDropped := (s.rxDropped + numDropped) % 2 ^ 64 }

/-- What `get_next_chunk` adds. -/
def countChunk (length bytes : Nat) (s : IPORXStatistics) : IPORXStatistics :=
  { s with
    rxCount := (s.rxCount + length) % 2 ^ 64
    receivedBytes := (s.receivedBytes + bytes) % 2 ^ 64 }

end IPORXStatistics

/-- The members of `AppIPOReceiveStream`, with those of its base class. -/
structure AppIPOReceiveStream where
  stream : IpoStream := {}
  statistic : IPORXStatistics := {}
  statisticTotals : IPORXStatistics := {}
  pathPackets : Nat → Nat → Bool := fun _ _ => false
  initialized : Bool := false
  lastSequenceNumber : Nat := 0

namespace AppIPOReceiveStream

/-- Every counter is kept twice: since the last report, and in total. -/
def count (f : IPORXStatistics → IPORXStatistics) (app : AppIPOReceiveStream) :
    AppIPOReceiveStream :=
  { app with statistic := f app.statistic, statisticTotals := f app.statisticTotals }

/-! ### Hooks -/

def handleCorruptedPacket (app : AppIPOReceiveStream) : AppIPOReceiveStream :=
  app.count fun s => { s with rxCorruptHeader := (s.rxCorruptHeader + 1) % 2 ^ 64 }

def handleLatePacket (app : AppIPOReceiveStream) : AppIPOReceiveStream :=
  app.count fun s => { s with rxExceedMd := (s.rxExceedMd + 1) % 2 ^ 64 }

variable (c : IpoConfig)

def handlePacket (path sequenceNumber : Nat) (app : AppIPOReceiveStream) : AppIPOReceiveStream :=
  { app with
    pathPackets := Function.update app.pathPackets (sequenceNumber % c.sequenceNumberWrapAround)
      fun i => i = path }

def handleRedundantPacket (path sequenceNumber : Nat) (app : AppIPOReceiveStream) :
    AppIPOReceiveStream :=
  let slot := sequenceNumber % c.sequenceNumberWrapAround
  { app with
    pathPackets := Function.update app.pathPackets slot
      (Function.update (app.pathPackets slot) path true) }

def completePacket (sequenceNumber : Nat) (app : AppIPOReceiveStream) : AppIPOReceiveStream :=
  let byPaths := app.pathPackets (sequenceNumber % c.sequenceNumberWrapAround)
  let expected := (app.lastSequenceNumber + 1) % 2 ^ 32
  let numDropped := if app.initialized then c.seqSub sequenceNumber expected else 0
  { app.count (·.countComplete byPaths numDropped) with
    initialized := true
    lastSequenceNumber := sequenceNumber }

def handleSenderRestart (app : AppIPOReceiveStream) : AppIPOReceiveStream :=
  { app with initialized := false }

/-- The override the base class calls at an event. -/
def hook (e : IpoEvent) (app : AppIPOReceiveStream) : AppIPOReceiveStream :=
  match e with
  | .handleCorruptedPacket _ => app.handleCorruptedPacket
  | .handleLatePacket _ _ => app.handleLatePacket
  | .handlePacket path s _ => app.handlePacket c path s
  | .handleRedundantPacket path s => app.handleRedundantPacket c path s
  | .completePacket s => app.completePacket c s
  | .handleSenderRestart => app.handleSenderRestart
  | .resync _ | .skipped _ => app

/-! ### Calls -/

/-- The bytes of the packets of a chunk, as their infos give them. -/
def receivedBytes (st : IpoStream) (chunk : IpoReceiveChunk) : Nat :=
  ((List.range chunk.chunkSize).map fun k =>
    let info := st.packetInfoArr (chunk.infoPtr.getD 0 + k)
    info.getPacketSubBlockSize 0 +
      if c.headerDataSplit then info.getPacketSubBlockSize 1 else 0).sum

/-- The hooks called while the stream became `st`, in the order of its events. -/
def callHooks (app : AppIPOReceiveStream) (st : IpoStream) : AppIPOReceiveStream :=
  let newEvents := st.events.take (st.events.length - app.stream.events.length)
  newEvents.foldr (hook c) { app with stream := st }

/-- `get_next_chunk`: the call of the base class, with its hooks, and the count
of the chunk. -/
def getNextChunk (now : Int) (polls : List PathPoll) (app : AppIPOReceiveStream)
    (chunk : IpoReceiveChunk) : ReturnStatus × AppIPOReceiveStream × IpoReceiveChunk :=
  let r := RivermaxDevKit.getNextChunk c now polls app.stream chunk
  let hooked := app.callHooks c r.2.1
  if r.1 = .success then
    (r.1, hooked.count (·.countChunk r.2.2.chunkSize (receivedBytes c r.2.1 r.2.2)), r.2.2)
  else (r.1, hooked, r.2.2)

def start (now : Int) (app : AppIPOReceiveStream) : AppIPOReceiveStream :=
  { app with stream := RivermaxDevKit.start c now app.stream }

/-- `reset_statistics`, after each report. -/
def resetStatistics (app : AppIPOReceiveStream) : AppIPOReceiveStream :=
  { app with statistic := {} }

/-- The states of a run, with the lengths of the chunks returned so far. Nothing
calls `reset_statistics_totals`. -/
inductive Run : Nat → AppIPOReceiveStream → Prop
  | created : Run 0 {}
  | start {returned : Nat} {app : AppIPOReceiveStream} (now : Int) : Run returned app →
      app.stream.state = .notStarted ∨ app.stream.state = .waitFirstPacket →
      Run returned (start c now app)
  | getNextChunk {returned : Nat} {app : AppIPOReceiveStream} (now : Int) (polls : List PathPoll)
      (chunk : IpoReceiveChunk) : Run returned app →
      (getNextChunk c now polls app chunk).1 = .success →
      Run (returned + (getNextChunk c now polls app chunk).2.2.chunkSize)
        (getNextChunk c now polls app chunk).2.1
  | failedCall {returned : Nat} {app : AppIPOReceiveStream} (now : Int) (polls : List PathPoll)
      (chunk : IpoReceiveChunk) : Run returned app →
      (getNextChunk c now polls app chunk).1 ≠ .success →
      Run returned (getNextChunk c now polls app chunk).2.1
  | resetStatistics {returned : Nat} {app : AppIPOReceiveStream} : Run returned app →
      Run returned (resetStatistics app)

/-- The stream right after the events of a log. -/
def atMoment (log : List IpoEvent) : AppIPOReceiveStream := log.foldr (hook c) {}

end AppIPOReceiveStream

variable {c : IpoConfig}

/-! ## What the events say -/

/-- The number that was last stored in slot `i`. -/
def lastFill (c : IpoConfig) (i : Nat) : List IpoEvent → Option Nat
  | [] => none
  | .handlePacket _ s _ :: rest =>
    if s % c.sequenceNumberWrapAround = i then some s else lastFill c i rest
  | _ :: rest => lastFill c i rest

/-- Path `path` supplied packet `s`: the copy that last filled the slot of `s`,
or a redundant copy of `s` after it. -/
def supplied (c : IpoConfig) (path s : Nat) : List IpoEvent → Bool
  | [] => false
  | .handlePacket path' s' _ :: rest =>
    if s' % c.sequenceNumberWrapAround = s % c.sequenceNumberWrapAround then path' = path
    else supplied c path s rest
  | .handleRedundantPacket path' s' :: rest => (path' = path ∧ s' = s) || supplied c path s rest
  | _ :: rest => supplied c path s rest

/-- How many completed packets path `path` had supplied when they were
completed. -/
def suppliedCount (c : IpoConfig) (path : Nat) : List IpoEvent → Nat
  | [] => 0
  | .completePacket s :: rest => (supplied c path s rest).toNat + suppliedCount c path rest
  | _ :: rest => suppliedCount c path rest

/-- The numbers completed, newest first. -/
def completedNumbers (log : List IpoEvent) : List Nat :=
  log.filterMap fun
    | .completePacket s => some s
    | _ => none

/-- The numbers completed since the last restart, newest first. -/
def completedSince : List IpoEvent → List Nat
  | [] => []
  | .handleSenderRestart :: _ => []
  | .completePacket s :: rest => s :: completedSince rest
  | _ :: rest => completedSince rest

/-- The log as it was at the last restart. -/
def upToRestart : List IpoEvent → List IpoEvent
  | [] => []
  | .handleSenderRestart :: rest => .handleSenderRestart :: rest
  | _ :: rest => upToRestart rest

/-- What the drop counter adds up, whatever the numbers are. -/
def droppedCount (c : IpoConfig) : List IpoEvent → Nat
  | [] => 0
  | .completePacket s :: rest =>
    (match (completedSince rest).head? with
      | none => 0
      | some last => c.seqSub s ((last + 1) % 2 ^ 32)) + droppedCount c rest
  | _ :: rest => droppedCount c rest

/-! ## The log of a run -/

/-- A redundant copy and a completed packet are of the number last stored in
their slot. -/
def LogOk (c : IpoConfig) : List IpoEvent → Prop
  | [] => True
  | .handleRedundantPacket _ s :: rest =>
    lastFill c (s % c.sequenceNumberWrapAround) rest = some s ∧ LogOk c rest
  | .completePacket s :: rest =>
    lastFill c (s % c.sequenceNumberWrapAround) rest = some s ∧ s < c.sequenceSpace ∧ LogOk c rest
  | _ :: rest => LogOk c rest

theorem LogOk.of_cons {e : IpoEvent} {log : List IpoEvent} (h : LogOk c (e :: log)) :
    LogOk c log := by
  cases e with
  | handleRedundantPacket _ _ => exact h.2
  | completePacket _ => exact h.2.2
  | _ => exact h

theorem LogOk.of_suffix {log log' : List IpoEvent} (h : LogOk c log') (hSuffix : log <:+ log') :
    LogOk c log := by
  induction log' with
  | nil =>
    rw [List.suffix_nil.mp hSuffix]
    exact h
  | cons e rest ih =>
    rcases List.suffix_cons_iff.mp hSuffix with rfl | hRest
    · exact h
    · exact ih h.of_cons hRest

/-- The log is in order, and a valid slot holds the number last stored in it. -/
structure LogKept (c : IpoConfig) (st : IpoStream) : Prop where
  ok : LogOk c st.events
  fills : ∀ i < c.sequenceNumberWrapAround, (st.extPacketInfoArr i).isValid = true →
    lastFill c i st.events = some (st.extPacketInfoArr i).sequenceNumber ∧
      (st.extPacketInfoArr i).sequenceNumber < c.sequenceSpace

theorem logKept_created : LogKept c {} where
  ok := trivial
  fills := nofun

/-- Events that store nothing do not change what was last stored. -/
theorem lastFill_cons {e : IpoEvent} (he : isHandlePacket e = false) (i : Nat)
    (log : List IpoEvent) : lastFill c i (e :: log) = lastFill c i log := by
  cases e with
  | handlePacket _ _ _ => cases he
  | _ => rfl

/-- Releasing the current slot, on either way out. -/
theorem LogKept.release {st st' : IpoStream} (h : LogKept c st) {e : IpoEvent}
    (he : isHandlePacket e = false) (hOk : LogOk c (e :: st.events)) {slot : ExtPacketInfo}
    (hSlot : slot.isValid = false)
    (hArr : st'.extPacketInfoArr = Function.update st.extPacketInfoArr st.index slot)
    (hEvents : st'.events = e :: st.events) : LogKept c st' where
  ok := hEvents ▸ hOk
  fills := by
    intro i hi hValid
    rw [hArr] at hValid ⊢
    rw [hEvents, lastFill_cons he]
    -- the released slot is not valid any more
    by_cases hEq : i = st.index
    · subst hEq
      rw [Function.update_self, hSlot] at hValid
      cases hValid
    · rw [Function.update_of_ne hEq] at hValid ⊢
      exact h.fills i hi hValid

theorem IpoMove.logKept {st st' : IpoStream} (hMove : IpoMove c st st') (h : LogKept c st) :
    LogKept c st' := by
  cases hMove with
  | silent hArr hEvents =>
    refine ⟨hEvents ▸ h.ok, ?_⟩
    rw [hArr, hEvents]
    exact h.fills
  | mark e hMark hArr hEvents =>
    -- only hooks that store nothing and complete nothing are marks
    have hQuiet : isHandlePacket e = false ∧ (LogOk c st.events → LogOk c (e :: st.events)) := by
      cases e with
      | handlePacket _ _ _ => cases hMark
      | handleRedundantPacket _ _ => cases hMark
      | completePacket _ => cases hMark
      | _ => exact ⟨rfl, id⟩
    refine ⟨hEvents ▸ hQuiet.2 h.ok, ?_⟩
    intro i hi hValid
    rw [hArr] at hValid ⊢
    rw [hEvents, lastFill_cons hQuiet.1]
    exact h.fills i hi hValid
  | store path hs info =>
    rename_i s
    refine ⟨h.ok, ?_⟩
    intro i hi hValid
    simp only [handlePacket, lastFill] at hValid ⊢
    -- the slot that is overwritten, or another
    by_cases hEq : s % c.sequenceNumberWrapAround = i
    · subst hEq
      rw [if_pos rfl, Function.update_self]
      exact ⟨rfl, hs⟩
    · rw [Function.update_of_ne (Ne.symm hEq)] at hValid ⊢
      rw [if_neg hEq]
      exact h.fills i hi hValid
  | redundant path s hValid hSame =>
    -- the slot holds the number of the redundant copy
    have hFill := (h.fills _ (Nat.mod_lt _ wrapAround_pos) hValid).1
    rw [hSame] at hFill
    refine ⟨⟨hFill, h.ok⟩, ?_⟩
    intro i hi hValid
    rw [lastFill_cons rfl]
    exact h.fills i hi hValid
  | skip =>
    exact @LogKept.release c st (skipPacket c st) h (.skipped _) rfl h.ok _ rfl rfl rfl
  | transfer hValid hSlot =>
    have hIndex : st.index < c.sequenceNumberWrapAround := hSlot ▸ Nat.mod_lt _ wrapAround_pos
    obtain ⟨hFill, hLt⟩ := h.fills st.index hIndex hValid
    -- what is completed was the last stored in the current slot
    have hOk : LogOk c (.completePacket (st.extPacketInfoArr st.index).sequenceNumber ::
        st.events) := by
      refine ⟨?_, hLt, h.ok⟩
      rw [hSlot]
      exact hFill
    exact @LogKept.release c st (transferPacket c st) h (.completePacket _) rfl hOk _ rfl rfl rfl

theorem logKept_of_moves {st : IpoStream} (h : IpoMoves c {} st) : LogKept c st :=
  invariant_of_moves (fun hMove hKept => hMove.logKept hKept) h logKept_created

/-! ## The hooks on a log -/

namespace AppIPOReceiveStream

/-- The bitmap of a stored packet says which paths supplied it. -/
theorem pathPackets_atMoment {log : List IpoEvent} (hOk : LogOk c log) {s : Nat}
    (hFill : lastFill c (s % c.sequenceNumberWrapAround) log = some s) (path : Nat) :
    (atMoment c log).pathPackets (s % c.sequenceNumberWrapAround) path =
      supplied c path s log := by
  induction log with
  | nil => cases hFill
  | cons e rest ih =>
    cases e with
    | handlePacket path' s' _ =>
      show Function.update (atMoment c rest).pathPackets (s' % c.sequenceNumberWrapAround)
        (fun i => decide (i = path')) (s % c.sequenceNumberWrapAround) path = _
      rw [lastFill] at hFill
      rw [supplied]
      split at hFill
      · rename_i hSlot
        -- a new packet starts a bitmap with its own path
        rw [if_pos hSlot, hSlot, Function.update_self, decide_eq_decide]
        exact eq_comm
      · rename_i hSlot
        rw [if_neg hSlot, Function.update_of_ne (Ne.symm hSlot)]
        exact ih hOk hFill
    | handleRedundantPacket path' s' =>
      show Function.update (atMoment c rest).pathPackets (s' % c.sequenceNumberWrapAround)
        (Function.update ((atMoment c rest).pathPackets (s' % c.sequenceNumberWrapAround)) path'
          true) (s % c.sequenceNumberWrapAround) path = _
      have hBefore := ih hOk.2 hFill
      rw [supplied]
      by_cases hSlot : s' % c.sequenceNumberWrapAround = s % c.sequenceNumberWrapAround
      · -- the copy is of the number stored in its slot
        have hStored := hOk.1
        rw [hSlot] at hStored
        obtain rfl : s' = s := Option.some.inj (hStored.symm.trans hFill)
        rw [Function.update_self]
        by_cases hPath : path = path'
        · subst hPath
          simp
        · rw [Function.update_of_ne hPath]
          simp [Ne.symm hPath, hBefore]
      · have hNe : s' ≠ s := fun h => hSlot (h ▸ rfl)
        rw [Function.update_of_ne (Ne.symm hSlot)]
        simp [hNe, hBefore]
    | completePacket _ => exact ih hOk.2.2 hFill
    | _ => exact ih hOk hFill

/-- The members `complete_packet` and the other hooks write, against the log. -/
structure Counted (c : IpoConfig) (log : List IpoEvent) (app : AppIPOReceiveStream) : Prop where
  last : (if app.initialized then some app.lastSequenceNumber else none) =
    (completedSince log).head?
  rxCount : ∀ path, (app.statisticTotals.pathStats path).rxCount =
    suppliedCount c path log % 2 ^ 32
  rxDropped : ∀ path, ((app.statisticTotals.pathStats path).rxCount +
    (app.statisticTotals.pathStats path).rxDropped) % 2 ^ 32 =
      (completedNumbers log).length % 2 ^ 32
  fits : ∀ path, (app.statisticTotals.pathStats path).rxDropped < 2 ^ 32
  lost : app.statisticTotals.rxDropped = droppedCount c log % 2 ^ 64

/-- `complete_packet` counts the packet of its bitmap. -/
theorem Counted.completePacket {log : List IpoEvent} {app : AppIPOReceiveStream}
    (h : Counted c log app) {s : Nat}
    (hBits : ∀ path, app.pathPackets (s % c.sequenceNumberWrapAround) path =
      supplied c path s log) :
    Counted c (.completePacket s :: log) (completePacket c s app) where
  last := rfl
  rxCount := by
    intro path
    show ((app.statisticTotals.pathStats path).rxCount +
      (app.pathPackets (s % c.sequenceNumberWrapAround) path).toNat) % 2 ^ 32 = _
    rw [hBits, h.rxCount, Nat.mod_add_mod, suppliedCount, Nat.add_comm]
  rxDropped := by
    intro path
    have hSum := h.rxDropped path
    show (((app.statisticTotals.pathStats path).rxCount +
      (app.pathPackets (s % c.sequenceNumberWrapAround) path).toNat) % 2 ^ 32 +
      ((app.statisticTotals.pathStats path).rxDropped +
        (1 - (app.pathPackets (s % c.sequenceNumberWrapAround) path).toNat)) % 2 ^ 32) % 2 ^ 32 =
      (List.length (s :: completedNumbers log)) % 2 ^ 32
    have hBit := Bool.toNat_le (app.pathPackets (s % c.sequenceNumberWrapAround) path)
    rw [List.length_cons]
    omega
  fits := fun _ => Nat.mod_lt _ (Nat.two_pow_pos 32)
  lost := by
    have hLast := h.last
    show (app.statisticTotals.rxDropped + if app.initialized then
      c.seqSub s ((app.lastSequenceNumber + 1) % 2 ^ 32) else 0) % 2 ^ 64 = _
    rw [h.lost, Nat.mod_add_mod, droppedCount, ← hLast, Nat.add_comm]
    cases app.initialized <;> rfl

theorem counted_atMoment {log : List IpoEvent} (hOk : LogOk c log) :
    Counted c log (atMoment c log) := by
  induction log with
  | nil => exact ⟨rfl, fun _ => rfl, fun _ => rfl, fun _ => Nat.two_pow_pos 32, rfl⟩
  | cons e rest ih =>
    have h := ih hOk.of_cons
    cases e with
    | completePacket s =>
      exact h.completePacket (pathPackets_atMoment hOk.2.2 hOk.1)
    | handleSenderRestart => exact ⟨rfl, h.rxCount, h.rxDropped, h.fits, h.lost⟩
    | _ => exact ⟨h.last, h.rxCount, h.rxDropped, h.fits, h.lost⟩

end AppIPOReceiveStream

/-! ## Completions of a call -/

theorem completed_processPacket (path : Nat) (packet : ReceivedPacket) (st : IpoStream) :
    completedNumbers (processPacket c path packet st).events = completedNumbers st.events := by
  unfold processPacket
  split
  · rfl
  · rename_i s hParsed
    have hSwitch : completedNumbers (switchState c s st).events = completedNumbers st.events := by
      unfold switchState
      split
      · rfl
      · rfl
      · rfl
      · split
        · rfl
        · rfl
    rw [← hSwitch]
    unfold dispatchPacket
    dsimp only
    split
    · rfl
    · split
      · rfl
      · rfl

theorem completed_pollPaths (polls : List PathPoll) (st : IpoStream) :
    completedNumbers (pollPaths c polls st).2.events = completedNumbers st.events :=
  pollPaths_keeps (P := fun st' => completedNumbers st'.events = completedNumbers st.events)
    (fun path packet st' h => (completed_processPacket path packet st').trans h) polls rfl

theorem completed_skipInitialSync (fuel : Nat) (st : IpoStream) :
    completedNumbers (skipInitialSync c fuel st).1.events = completedNumbers st.events :=
  skipInitialSync_keeps (P := fun st' => completedNumbers st'.events = completedNumbers st.events)
    (fun _ h => h) fuel rfl

theorem completed_transferContiguous (fuel : Nat) (st : IpoStream) (last size : Nat) :
    (completedNumbers (transferContiguous c fuel st last size).1.events).length + size =
      (completedNumbers st.events).length + (transferContiguous c fuel st last size).2.2 := by
  induction fuel generalizing st last size with
  | zero => rfl
  | succ fuel ih =>
    rw [transferContiguous_succ]
    have hOne : (completedNumbers (transferPacket c st).events).length =
        (completedNumbers st.events).length + 1 := rfl
    split
    · rfl
    · split
      · rfl
      · split
        · rw [hOne, Nat.add_assoc, Nat.add_comm 1]
        · have := ih (transferPacket c st) (st.extPacketInfoArr st.index).hwTimestamp (size + 1)
          rw [hOne] at this
          omega

theorem completed_reconstruct (st : IpoStream) {chunk : IpoReceiveChunk}
    (hSize : chunk.chunkSize = 0) :
    (completedNumbers (reconstruct c st chunk).1.events).length =
      (completedNumbers st.events).length + (reconstruct c st chunk).2.chunkSize := by
  have hDone := reconstructs (c := c) st chunk
  generalize reconstruct c st chunk = r at hDone ⊢
  cases hDone with
  | early => rw [hSize, Nat.add_zero]
  | empty => rw [hSize, Nat.add_zero]
  | young => rw [hSize, Nat.add_zero]
  | @skipped startIdx _ _ _ hSkip =>
    -- a skipped packet is not completed
    have hKept := completed_skipInitialSync (c := c) (c.sequenceNumberWrapAround + 1)
      { st with index := startIdx }
    rw [hSkip] at hKept
    rw [hKept, hSize, Nat.add_zero]
  | @delivered startIdx synced _ _ _ _ hSkip =>
    have hKept := completed_skipInitialSync (c := c) (c.sequenceNumberWrapAround + 1)
      { st with index := startIdx }
    rw [hSkip] at hKept
    have hTransfer := completed_transferContiguous (c := c) c.sequenceNumberWrapAround synced
      chunk.timestampLast 0
    rw [hKept, Nat.add_zero] at hTransfer
    exact hTransfer

/-- A call completes the packets of the chunk it returns, and a failed call
completes none. -/
theorem completed_getNextChunk (now : Int) (polls : List PathPoll) (st : IpoStream)
    (chunk : IpoReceiveChunk) :
    (completedNumbers (getNextChunk c now polls st chunk).2.1.events).length =
      (completedNumbers st.events).length +
        if (getNextChunk c now polls st chunk).1 = .success then
          (getNextChunk c now polls st chunk).2.2.chunkSize else 0 := by
  have hBegin : (beginCall c now st).events = st.events := by
    unfold beginCall
    split
    · rfl
    · rfl
  have hPolls := completed_pollPaths (c := c) polls (beginCall c now st)
  rw [hBegin] at hPolls
  unfold getNextChunk
  split
  · rename_i polled hEq
    rw [hEq] at hPolls
    rw [if_pos rfl, ← hPolls]
    exact completed_reconstruct polled rfl
  · rename_i status polled hFailed hEq
    rw [hEq] at hPolls
    rw [if_neg hFailed, Nat.add_zero, ← hPolls]

/-! ## Gaps -/

/-- `newer` lies ahead of `older`, by less than the whole range. -/
def Ahead (c : IpoConfig) (newer older : Nat) : Prop := 1 ≤ dist c.sequenceSpace older newer

theorem upToRestart_suffix (log : List IpoEvent) : upToRestart log <:+ log := by
  induction log with
  | nil => exact List.suffix_rfl
  | cons e rest ih =>
    cases e with
    | handleSenderRestart => exact List.suffix_rfl
    | _ => exact ih.trans (List.suffix_cons _ _)

/-- While the numbers go forward, the drop counter grows by those left out. -/
theorem droppedCount_eq_missing {log : List IpoEvent}
    (hForward : (completedSince log).IsChain (Ahead c)) :
    droppedCount c log =
      droppedCount c (upToRestart log) + missing c.sequenceSpace (completedSince log) := by
  induction log with
  | nil => rfl
  | cons e rest ih =>
    cases e with
    | handleSenderRestart => rfl
    | completePacket s =>
      have hSame : upToRestart (.completePacket s :: rest) = upToRestart rest := rfl
      rw [completedSince] at hForward ⊢
      rw [droppedCount, hSame, ih hForward.of_cons]
      cases hNumbers : completedSince rest with
      | nil =>
        rw [missing_singleton]
        exact Nat.zero_add _
      | cons last older =>
        rw [hNumbers, List.isChain_cons_cons] at hForward
        rw [missing_cons hForward.1]
        show c.seqSub s ((last + 1) % 2 ^ 32) + _ = _
        rw [seqSub_expected hForward.1]
        omega
    | _ => exact ih hForward

/-! ## Runs -/

namespace AppIPOReceiveStream

/-- The members the hooks read and write, and the counters of a report aside. -/
structure SameCounts (app app' : AppIPOReceiveStream) : Prop where
  pathPackets : app.pathPackets = app'.pathPackets
  initialized : app.initialized = app'.initialized
  lastSequenceNumber : app.lastSequenceNumber = app'.lastSequenceNumber
  pathStats : app.statisticTotals.pathStats = app'.statisticTotals.pathStats
  rxDropped : app.statisticTotals.rxDropped = app'.statisticTotals.rxDropped

theorem SameCounts.hook {app app' : AppIPOReceiveStream} (h : SameCounts app app')
    (e : IpoEvent) : SameCounts (hook c e app) (hook c e app') := by
  obtain ⟨hBits, hInit, hLast, hPaths, hLost⟩ := h
  cases e with
  | handleCorruptedPacket _ => exact ⟨hBits, hInit, hLast, hPaths, hLost⟩
  | handleLatePacket _ _ => exact ⟨hBits, hInit, hLast, hPaths, hLost⟩
  | handlePacket path s _ =>
    exact ⟨congrArg (Function.update · _ _) hBits, hInit, hLast, hPaths, hLost⟩
  | handleRedundantPacket path s =>
    refine ⟨?_, hInit, hLast, hPaths, hLost⟩
    show Function.update app.pathPackets _ (Function.update (app.pathPackets _) path true) = _
    rw [hBits]
    rfl
  | completePacket s =>
    refine ⟨hBits, rfl, rfl, ?_, ?_⟩
    · show (app.statisticTotals.countComplete _ _).pathStats = _
      unfold IPORXStatistics.countComplete
      rw [hPaths, hBits]
      rfl
    · show (app.statisticTotals.countComplete _ _).rxDropped = _
      unfold IPORXStatistics.countComplete
      rw [hInit, hLast, hLost]
      rfl
  | handleSenderRestart => exact ⟨hBits, rfl, hLast, hPaths, hLost⟩
  | resync _ => exact ⟨hBits, hInit, hLast, hPaths, hLost⟩
  | skipped _ => exact ⟨hBits, hInit, hLast, hPaths, hLost⟩

theorem SameCounts.hooks {app app' : AppIPOReceiveStream} (h : SameCounts app app')
    (events : List IpoEvent) :
    SameCounts (events.foldr (AppIPOReceiveStream.hook c) app)
      (events.foldr (AppIPOReceiveStream.hook c) app') := by
  induction events with
  | nil => exact h
  | cons e rest ih => exact ih.hook e

/-- The hooks do not touch the stream, nor the count of returned packets. -/
theorem hooks_stream (events : List IpoEvent) (app : AppIPOReceiveStream) :
    (events.foldr (hook c) app).stream = app.stream ∧
      (events.foldr (hook c) app).statisticTotals.rxCount = app.statisticTotals.rxCount := by
  induction events with
  | nil => exact ⟨rfl, rfl⟩
  | cons e rest ih =>
    cases e with
    | _ => exact ih

/-- A stream against its own log. -/
structure Tracks (c : IpoConfig) (returned : Nat) (app : AppIPOReceiveStream) : Prop where
  invariant : IpoInvariant c app.stream
  moves : IpoMoves c {} app.stream
  counts : SameCounts app (atMoment c app.stream.events)
  completed : (completedNumbers app.stream.events).length = returned
  rxCount : app.statisticTotals.rxCount = returned % 2 ^ 64

/-- One call, before the chunk it returns is counted. -/
theorem Tracks.callHooks {returned : Nat} {app : AppIPOReceiveStream} (h : Tracks c returned app)
    {st : IpoStream} (hSuffix : app.stream.events <:+ st.events) :
    (callHooks c app st).stream = st ∧
      (callHooks c app st).statisticTotals.rxCount = returned % 2 ^ 64 ∧
      SameCounts (callHooks c app st) (atMoment c st.events) := by
  unfold AppIPOReceiveStream.callHooks
  obtain ⟨added, hAdded⟩ := hSuffix
  have hNew : st.events.take (st.events.length - app.stream.events.length) = added := by
    rw [← hAdded, List.length_append, Nat.add_sub_cancel, List.take_left]
  rw [hNew]
  obtain ⟨hStream, hCount⟩ := hooks_stream (c := c) added { app with stream := st }
  have hBefore : SameCounts { app with stream := st } (atMoment c app.stream.events) :=
    ⟨h.counts.pathPackets, h.counts.initialized, h.counts.lastSequenceNumber, h.counts.pathStats,
      h.counts.rxDropped⟩
  have hAfter := hBefore.hooks (c := c) added
  unfold atMoment at hAfter ⊢
  rw [← List.foldr_append, hAdded] at hAfter
  exact ⟨hStream, hCount.trans h.rxCount, hAfter⟩

/-- The hooks change nothing of what the base class returns. -/
theorem getNextChunk_base (now : Int) (polls : List PathPoll) (app : AppIPOReceiveStream)
    (chunk : IpoReceiveChunk) :
    let r := RivermaxDevKit.getNextChunk c now polls app.stream chunk
    (getNextChunk c now polls app chunk).1 = r.1 ∧
      (getNextChunk c now polls app chunk).2.1.stream = r.2.1 ∧
      (getNextChunk c now polls app chunk).2.2 = r.2.2 := by
  intro r
  have hStream : (callHooks c app r.2.1).stream = r.2.1 := (hooks_stream _ _).1
  unfold getNextChunk
  dsimp only
  split
  · exact ⟨rfl, hStream, rfl⟩
  · exact ⟨rfl, hStream, rfl⟩

theorem Tracks.getNextChunk {returned : Nat} {app : AppIPOReceiveStream}
    (h : Tracks c returned app) {now : Int} {polls : List PathPoll} {chunk : IpoReceiveChunk} :
    Tracks c
      (returned + if (getNextChunk c now polls app chunk).1 = .success then
        (getNextChunk c now polls app chunk).2.2.chunkSize else 0)
      (getNextChunk c now polls app chunk).2.1 := by
  have hCall := moves_getNextChunk now polls chunk h.invariant
  obtain ⟨hStream, hCount, hCounts⟩ := h.callHooks hCall.events_suffix
  have hInv := @getNextChunk_invariant c now polls app.stream chunk h.invariant
  have hMoves := h.moves.trans hCall
  have hCompleted := completed_getNextChunk (c := c) now polls app.stream chunk
  rw [h.completed] at hCompleted
  rw [(getNextChunk_base now polls app chunk).1]
  unfold AppIPOReceiveStream.getNextChunk
  dsimp only
  generalize AppIPOReceiveStream.callHooks c app
    (RivermaxDevKit.getNextChunk c now polls app.stream chunk).2.1 = hooked at *
  split
  · rename_i hSuccess
    rw [if_pos hSuccess] at hCompleted
    rw [← hStream] at hInv hMoves hCompleted hCounts
    refine ⟨hInv, hMoves, ⟨hCounts.pathPackets, hCounts.initialized, hCounts.lastSequenceNumber,
      hCounts.pathStats, hCounts.rxDropped⟩, hCompleted, ?_⟩
    show (_ + _) % 2 ^ 64 = _
    rw [hCount, Nat.mod_add_mod]
  · rename_i hFailed
    rw [if_neg hFailed] at hCompleted
    rw [← hStream] at hInv hMoves hCompleted hCounts
    exact ⟨hInv, hMoves, hCounts, hCompleted, hCount⟩

theorem Run.tracks {returned : Nat} {app : AppIPOReceiveStream} (h : Run c returned app) :
    Tracks c returned app := by
  induction h with
  | created => exact ⟨created_invariant, .refl, ⟨rfl, rfl, rfl, rfl, rfl⟩, rfl, rfl⟩
  | @start returned app now _ hIdle ih =>
    obtain ⟨hInv, hMoves, hCounts, hCompleted, hCount⟩ := ih
    -- `start` is only called before the stream runs
    have hNotRunning : app.stream.state ≠ .running := by
      rcases hIdle with hIdle | hIdle
      · rw [hIdle]
        decide
      · rw [hIdle]
        decide
    exact ⟨start_invariant hInv hNotRunning, hMoves.tail (.silent rfl rfl),
      ⟨hCounts.pathPackets, hCounts.initialized, hCounts.lastSequenceNumber, hCounts.pathStats,
        hCounts.rxDropped⟩, hCompleted, hCount⟩
  | @getNextChunk returned app now polls chunk _ hSuccess ih =>
    have h := @Tracks.getNextChunk c returned app ih now polls chunk
    rw [if_pos hSuccess] at h
    exact h
  | @failedCall returned app now polls chunk _ hFailed ih =>
    have h := @Tracks.getNextChunk c returned app ih now polls chunk
    rw [if_neg hFailed] at h
    exact h
  | resetStatistics _ ih =>
    obtain ⟨hInv, hMoves, hCounts, hCompleted, hCount⟩ := ih
    exact ⟨hInv, hMoves, ⟨hCounts.pathPackets, hCounts.initialized, hCounts.lastSequenceNumber,
      hCounts.pathStats, hCounts.rxDropped⟩, hCompleted, hCount⟩

/-- **Path statistics.** At every moment of every run, the counters of a path add
up to the packets completed so far, which the returned chunks hold, and its
receive counter to those it supplied; from one restart to the next, the drop
counter grows by the numbers left out. The path counters are kept modulo
`2 ^ 32`, the drop counter modulo `2 ^ 64`. -/
theorem path_statistics {returned : Nat} {app : AppIPOReceiveStream} (hRun : Run c returned app) :
    (completedNumbers app.stream.events).length = returned ∧
      SameCounts app (atMoment c app.stream.events) ∧
      ∀ log, log <:+ app.stream.events →
        (∀ path,
          let stats := (atMoment c log).statisticTotals.pathStats path
          (stats.rxCount + stats.rxDropped) % 2 ^ 32 = (completedNumbers log).length % 2 ^ 32 ∧
            stats.rxCount = suppliedCount c path log % 2 ^ 32) ∧
        ((completedSince log).IsChain (Ahead c) →
          (atMoment c log).statisticTotals.rxDropped =
            ((atMoment c (upToRestart log)).statisticTotals.rxDropped +
              missing c.sequenceSpace (completedSince log)) % 2 ^ 64) := by
  have hTracks := hRun.tracks
  have hKept := logKept_of_moves hTracks.moves
  refine ⟨hTracks.completed, hTracks.counts, ?_⟩
  intro log hSuffix
  have hOk := hKept.ok.of_suffix hSuffix
  have hCounted := counted_atMoment hOk
  refine ⟨fun path => ⟨hCounted.rxDropped path, hCounted.rxCount path⟩, ?_⟩
  intro hForward
  -- the counter at the last restart is the base of the difference
  have hRestart := counted_atMoment (hOk.of_suffix (upToRestart_suffix log))
  rw [hCounted.lost, hRestart.lost, droppedCount_eq_missing hForward, Nat.mod_add_mod]

/-- Two paths each supply `100` and `101`, in three calls. -/
theorem path_statistics_twoPaths :
    let idle := (getNextChunk fourSlots 0 [] {} {}).2.1
    let stored := getNextChunk fourSlots 60000 [rtpPoll 0 [100, 101], rtpPoll 1 [100]] idle {}
    let last := getNextChunk fourSlots 120000 [rtpPoll 1 [101, 106]] stored.2.1 {}
    last.2.2.chunkSize = 2 ∧
      (last.2.1.statisticTotals.pathStats 1).rxCount = 2 ∧
      (∀ log, log <:+ last.2.1.stream.events → ∀ path,
        ((atMoment fourSlots log).statisticTotals.pathStats path).rxCount =
          suppliedCount fourSlots path log % 2 ^ 32) := by
  intro idle stored last
  have hIdle : Run fourSlots _ idle := .getNextChunk 0 [] {} .created (by decide +kernel)
  have hStored : Run fourSlots _ stored.2.1 := .getNextChunk 60000 _ {} hIdle (by decide +kernel)
  have hRun : Run fourSlots _ last.2.1 := .getNextChunk 120000 _ {} hStored (by decide +kernel)
  refine ⟨by decide +kernel, by decide +kernel, ?_⟩
  intro log hSuffix path
  exact (((path_statistics hRun).2.2 log hSuffix).1 path).2

end AppIPOReceiveStream

/-! ### Wide runs -/

/-- A 16-bit stream of one slot, without a path differential. -/
def oneSlot : IpoConfig := rtpConfig false 1 (by decide) 0

theorem oneSlot_wrapAround : oneSlot.sequenceNumberWrapAround = 1 := by decide

theorem oneSlot_parses {s : Nat} (hs : s < 2 ^ 16) :
    oneSlot.getSequenceNumber (rtpPacket s).header 12 = some s := by
  -- the number is put together from its two bytes
  have hHigh : s >>> 8 < 2 ^ 8 := by
    rw [Nat.shiftRight_eq_div_pow]
    omega
  have hLow : (UInt8.ofNat s).toNat = s % 2 ^ 8 := rfl
  have hUpper : (UInt8.ofNat (s >>> 8)).toNat = s >>> 8 := Nat.mod_eq_of_lt hHigh
  have hHeader : ¬((12 : Nat) < 4 ∨ (0x80 : UInt8) &&& 0xC0 ≠ 0x80) := by decide
  refine (if_neg hHeader).trans ?_
  show some ((UInt8.ofNat s).toNat ||| (UInt8.ofNat (s >>> 8)).toNat <<< 8) = some s
  rw [hLow, hUpper, Nat.or_comm, ← Nat.shiftLeft_add_eq_or_of_lt (Nat.mod_lt _ (by decide)),
    Nat.shiftLeft_eq, Nat.shiftRight_eq_div_pow, Nat.div_add_mod']

/-- Running since `t` at the latest. -/
structure OneSlotAt (t : Int) (st : IpoStream) : Prop where
  state : st.state = .running
  index : st.index = 0
  startTime : st.startTime ≤ t
  nextPacketTime : st.nextPacketTime ≤ t

/-- The packet after the last one returned is stored. -/
theorem oneSlot_stores {last : Nat} {t : Int} {st : IpoStream} (h : OneSlotAt t st)
    (hEmpty : (st.extPacketInfoArr 0).isValid = false) (hLast : last < 2 ^ 16)
    (hReturned : st.lastProcessedSequenceNumber = last) :
    processPacket oneSlot 0 (rtpPacket ((last + 1) % 2 ^ 16)) st =
      handlePacket oneSlot 0 ((last + 1) % 2 ^ 16) { subBlockSizes := [12] } st := by
  -- it is one ahead, so it is neither late nor a restart
  have hDelta : oneSlot.seqSub ((last + 1) % 2 ^ 16) last = 1 := by
    show ((last + 1) % 2 ^ 16 + (2 ^ 32 - last)) % 2 ^ 32 &&& (2 ^ 16 - 1) = 1
    rw [Nat.and_two_pow_sub_one_eq_mod]
    omega
  have hSwitch : switchState oneSlot ((last + 1) % 2 ^ 16) st = st := by
    unfold switchState
    rw [h.state]
  have hParsed := @oneSlot_parses ((last + 1) % 2 ^ 16) (Nat.mod_lt _ (by decide))
  unfold processPacket
  rw [show (rtpPacket ((last + 1) % 2 ^ 16)).info.getPacketSubBlockSize 0 = 12 from rfl, hParsed]
  dsimp only
  rw [hSwitch]
  unfold dispatchPacket
  dsimp only
  rw [hReturned, hDelta, oneSlot_wrapAround, Nat.mod_one, hEmpty, if_neg (by decide),
    if_pos (.inl rfl)]
  rfl

/-- A packet that arrives now is not due. -/
theorem oneSlot_waits {t : Int} {st : IpoStream} (h : OneSlotAt t st) (hNow : st.now = t + 1)
    (hValid : (st.extPacketInfoArr 0).isValid = true)
    (hArrived : (st.extPacketInfoArr 0).timestamp = t + 1) (chunk : IpoReceiveChunk) :
    reconstruct oneSlot st chunk = ({ st with nextPacketTime := t + 1 }, chunk) := by
  have hNext := h.nextPacketTime
  have hMax : oneSlot.maxPathDifferential = 0 := rfl
  -- the one slot is the search
  have hSearch : searchValid oneSlot st.extPacketInfoArr 1 0 = some 0 := if_pos hValid
  unfold reconstruct
  rw [if_neg (not_not.mpr h.state), hNow, hMax, if_neg (by omega), oneSlot_wrapAround, h.index,
    hSearch]
  dsimp only
  rw [hArrived, if_pos (by omega)]

/-- A packet that arrived before is the chunk. -/
theorem oneSlot_returns {t : Int} {st : IpoStream} (h : OneSlotAt t st) (hNow : st.now = t + 1)
    (hValid : (st.extPacketInfoArr 0).isValid = true)
    (hArrived : (st.extPacketInfoArr 0).timestamp = t) (chunk : IpoReceiveChunk) :
    (reconstruct oneSlot st chunk).1 = transferPacket oneSlot st ∧
      (reconstruct oneSlot st chunk).2.chunkSize = 1 := by
  have hStart := h.startTime
  have hNext := h.nextPacketTime
  have hMax : oneSlot.maxPathDifferential = 0 := rfl
  have hIndex : { st with index := 0 } = st := by rw [← h.index]
  have hSearch : searchValid oneSlot st.extPacketInfoArr 1 0 = some 0 := if_pos hValid
  -- it arrived after the start, so none is skipped
  have hSkip : skipInitialSync oneSlot 2 st = (st, true) := by
    rw [skipInitialSync_succ, h.index, hValid, if_neg (by decide), hArrived, if_pos hStart]
  -- one packet, and the loop is through with the slots
  have hTransfer : ∀ last, transferContiguous oneSlot 1 st last 0 =
      (transferPacket oneSlot st, (st.extPacketInfoArr 0).hwTimestamp, 1) := by
    intro last
    rw [transferContiguous_succ, h.index, hValid, if_neg (by decide), hArrived, hNow, hMax,
      if_neg (by omega), if_pos (by decide)]
  have hDue : ¬st.now ≤ st.nextPacketTime + 0 := by omega
  have hMature : ¬st.now ≤ t + 0 := by omega
  unfold reconstruct
  rw [if_neg (not_not.mpr h.state), hMax, if_neg hDue, oneSlot_wrapAround, h.index, hSearch]
  dsimp only
  rw [hArrived, if_neg hMature, hIndex, hSkip]
  dsimp only
  rw [hTransfer]
  exact ⟨rfl, rfl⟩

/-- `n` packets were returned, and the buffer is empty. -/
structure OneSlotRun (n : Nat) (t : Int) (app : AppIPOReceiveStream) : Prop where
  run : AppIPOReceiveStream.Run oneSlot n app
  at_time : OneSlotAt t app.stream
  empty : (app.stream.extPacketInfoArr 0).isValid = false
  last : app.stream.lastProcessedSequenceNumber < 2 ^ 16

theorem oneSlotRun_store {n : Nat} {t : Int} {app : AppIPOReceiveStream}
    (h : OneSlotRun n t app) :
    ∃ stored, AppIPOReceiveStream.Run oneSlot n stored ∧ OneSlotAt (t + 1) stored.stream ∧
      (stored.stream.extPacketInfoArr 0).isValid = true ∧
      (stored.stream.extPacketInfoArr 0).timestamp = t + 1 ∧
      (stored.stream.extPacketInfoArr 0).sequenceNumber < 2 ^ 16 := by
  obtain ⟨hRun, ⟨hState, hIndex, hStart, hNext⟩, hEmpty, hLast⟩ := h
  let s := (app.stream.lastProcessedSequenceNumber + 1) % 2 ^ 16
  have hs : s < 2 ^ 16 := Nat.mod_lt _ (by decide)
  let polled := handlePacket oneSlot 0 s { subBlockSizes := [12] } { app.stream with now := t + 1 }
  have hSlot : polled.extPacketInfoArr 0 =
      { sequenceNumber := s, isValid := true, timestamp := t + 1, hwTimestamp := 0 } := by
    show Function.update _ (s % oneSlot.sequenceNumberWrapAround) _ 0 = _
    rw [oneSlot_wrapAround, Nat.mod_one]
    exact Function.update_self _ _ _
  -- a running stream begins a call by the time alone
  have hBegin : beginCall oneSlot (t + 1) app.stream = { app.stream with now := t + 1 } := by
    refine if_neg ?_
    rw [hState]
    decide
  have hStore : processPacket oneSlot 0 (rtpPacket s) { app.stream with now := t + 1 } = polled :=
    @oneSlot_stores _ t { app.stream with now := t + 1 } ⟨hState, hIndex, hStart, hNext⟩ hEmpty
      hLast rfl
  -- the poll brings one packet, which is stored
  have hPolled : pollPaths oneSlot [rtpPoll 0 [s]] (beginCall oneSlot (t + 1) app.stream) =
      (.success, polled) := by
    rw [hBegin, ← hStore]
    rfl
  have hCall : getNextChunk oneSlot (t + 1) [rtpPoll 0 [s]] app.stream {} =
      (.success, { polled with nextPacketTime := t + 1 }, {}) := by
    have hAt : OneSlotAt t polled := ⟨hState, hIndex, hStart, hNext⟩
    unfold getNextChunk
    rw [hPolled]
    dsimp only
    rw [oneSlot_waits hAt rfl (by rw [hSlot]) (by rw [hSlot])]
  obtain ⟨hStatus, hStream, hChunk⟩ :=
    AppIPOReceiveStream.getNextChunk_base (c := oneSlot) (t + 1) [rtpPoll 0 [s]] app {}
  rw [hCall] at hStatus hStream hChunk
  have hNew := AppIPOReceiveStream.Run.getNextChunk (t + 1) [rtpPoll 0 [s]] {} hRun hStatus
  rw [hChunk] at hNew
  refine ⟨_, hNew, ?_⟩
  rw [hStream]
  dsimp only
  rw [hSlot]
  exact ⟨⟨hState, hIndex, by show app.stream.startTime ≤ t + 1; omega, Int.le_refl _⟩, rfl, rfl, hs⟩

theorem oneSlotRun_return {n : Nat} {t : Int} {app : AppIPOReceiveStream}
    (hRun : AppIPOReceiveStream.Run oneSlot n app) (h : OneSlotAt t app.stream)
    (hValid : (app.stream.extPacketInfoArr 0).isValid = true)
    (hArrived : (app.stream.extPacketInfoArr 0).timestamp = t)
    (hLast : (app.stream.extPacketInfoArr 0).sequenceNumber < 2 ^ 16) :
    ∃ returned, OneSlotRun (n + 1) (t + 1) returned := by
  obtain ⟨hState, hIndex, hStart, hNext⟩ := h
  have hBegin : beginCall oneSlot (t + 1) app.stream = { app.stream with now := t + 1 } := by
    refine if_neg ?_
    rw [hState]
    decide
  obtain ⟨hStream, hSize⟩ := @oneSlot_returns t { app.stream with now := t + 1 }
    ⟨hState, hIndex, hStart, hNext⟩ rfl hValid hArrived {}
  obtain ⟨hStatus', hStream', hChunk'⟩ :=
    AppIPOReceiveStream.getNextChunk_base (c := oneSlot) (t + 1) [] app {}
  -- nothing is polled, and what is stored is due
  have hCall : getNextChunk oneSlot (t + 1) [] app.stream {} =
      (.success, reconstruct oneSlot { app.stream with now := t + 1 } {}) := by
    unfold getNextChunk
    rw [hBegin]
    rfl
  rw [hCall] at hStatus' hStream' hChunk'
  have hNew := AppIPOReceiveStream.Run.getNextChunk (t + 1) [] {} hRun hStatus'
  rw [hChunk', hSize] at hNew
  rw [hStream] at hStream'
  -- the slot is released
  have hFree : Function.update app.stream.extPacketInfoArr app.stream.index
      { app.stream.extPacketInfoArr app.stream.index with isValid := false } 0 =
        { app.stream.extPacketInfoArr 0 with isValid := false } := by
    rw [hIndex]
    exact Function.update_self _ _ _
  refine ⟨_, hNew, ?_, ?_, ?_⟩
  · rw [hStream']
    refine ⟨hState, ?_, ?_, ?_⟩
    · show oneSlot.nextIndex app.stream.index = 0
      rw [hIndex]
      decide
    · show app.stream.startTime ≤ t + 1
      omega
    · show app.stream.nextPacketTime ≤ t + 1
      omega
  · rw [hStream']
    show (Function.update app.stream.extPacketInfoArr app.stream.index
      { app.stream.extPacketInfoArr app.stream.index with isValid := false } 0).isValid = false
    rw [hFree]
  · rw [hStream']
    show (app.stream.extPacketInfoArr app.stream.index).sequenceNumber < 2 ^ 16
    rw [hIndex]
    exact hLast

/-- The stream returns as many packets as it is polled for. -/
theorem oneSlotRun_exists (n : Nat) : ∃ t app, OneSlotRun (n + 1) t app := by
  induction n with
  | zero =>
    -- the first packet starts the stream and is stored
    have hFirst := AppIPOReceiveStream.Run.getNextChunk (c := oneSlot) 0 [rtpPoll 0 [0]] {} .created
      (by decide +kernel)
    obtain ⟨app, hApp⟩ := @oneSlotRun_return 0 0 _ hFirst (by
      refine ⟨?_, ?_, ?_, ?_⟩ <;> decide +kernel) (by decide +kernel) (by decide +kernel)
      (by decide +kernel)
    exact ⟨1, app, hApp⟩
  | succ n ih =>
    obtain ⟨t, app, h⟩ := ih
    -- then a packet is stored and returned, in two calls
    obtain ⟨stored, hRun, hAt, hValid, hArrived, hLast⟩ := oneSlotRun_store h
    obtain ⟨returned, hReturned⟩ := oneSlotRun_return hRun hAt hValid hArrived hLast
    exact ⟨t + 1 + 1, returned, hReturned⟩

/-- After `2 ^ 33` packets, two counters of 32 bits cannot add up to them. -/
theorem pathStatistics_wrap : ∃ app, AppIPOReceiveStream.Run oneSlot (2 ^ 33) app ∧
    (completedNumbers app.stream.events).length = 2 ^ 33 ∧
      (app.statisticTotals.pathStats 0).rxCount + (app.statisticTotals.pathStats 0).rxDropped ≠
        (completedNumbers app.stream.events).length := by
  obtain ⟨t, app, hRun, -⟩ := oneSlotRun_exists (2 ^ 33 - 1)
  have hTracks := hRun.tracks
  have hCompleted : (completedNumbers app.stream.events).length = 2 ^ 33 := hTracks.completed
  refine ⟨app, hRun, hCompleted, ?_⟩
  have hCounted := AppIPOReceiveStream.counted_atMoment (logKept_of_moves hTracks.moves).ok
  have hCount := hCounted.rxCount 0
  have hFits := hCounted.fits 0
  rw [hCompleted, hTracks.counts.pathStats]
  omega

end RivermaxDevKit
