import RivermaxDevKit.Ipmx.TrackerThreads

/-!
# Printing of the IPMX tracker

`IPMXStreamTimelineTracker::print_updates` on the main thread, beside the threads that
raise its flags.

* `MainKept.or_of_step` — the other threads leave the main thread where it stands.
* `PrintsInv.step` — the main thread leaves a state when what it prints of it is read.
* `noticed_foldlM` — a flag that was up is up, or is taken and the read is behind it.
* `updates_printed` — no update that raises a flag is left unprinted.
-/

namespace RivermaxDevKit

open ByteStore

namespace TrackerThreads

variable {W : Type}

/-- The main thread has taken the flag of this state, and calls `read()` next. -/
def Loading (which : Shared) (s : TrackerThreads W) : Prop :=
  s.print = .load ∧ s.printed = which

/-- The main thread prints this state. -/
def Printing (which : Shared) (s : TrackerThreads W) : Prop :=
  s.print = .printing ∧ s.printed = which

/-- There is news of this state that the main thread is still to read. -/
def Awaited (which : Shared) (s : TrackerThreads W) : Prop :=
  (s.shared which).available = true ∨ s.Loading which

variable {s : TrackerThreads W} {step : PrintStep}

theorem not_loading (hPrint : s.print = step) (hNot : step ≠ .load) (which : Shared) :
    ¬s.Loading which := fun h => hNot (hPrint.symm.trans h.1)

theorem not_printing (hPrint : s.print = step) (hNot : step ≠ .printing) (which : Shared) :
    ¬s.Printing which := fun h => hNot (hPrint.symm.trans h.1)

end TrackerThreads

/-! ## The version that raised the flag -/

section Raised

variable {W : Type} {parts : TrackerParts W} {intervalMs : UInt32} {events : List TrackerEvent}
  {event : TrackerEvent} {s s' : TrackerThreads W}

theorem SharedState.raised_writerStep {raise returned : Bool} {state state' : SharedState W}
    (hLe : state.raised ≤ state.threads.published)
    (hStep : state.writerStep raise = some (state', returned)) : state.raised ≤ state'.raised := by
  unfold SharedState.writerStep at hStep
  split at hStep
  case h_1 =>
    -- the store of the flag: it is raised for the version published last
    obtain ⟨rfl, -⟩ := Prod.mk.inj (Option.some.inj hStep)
    dsimp only
    split
    · exact hLe
    · exact Nat.le_refl _
  case h_2 =>
    -- a step of the update
    obtain ⟨threads, -, hState⟩ := Option.map_eq_some_iff.mp hStep
    obtain ⟨rfl, -⟩ := Prod.mk.inj hState
    exact Nat.le_refl _

theorem raised_setShared {which : Shared} {state : SharedState W}
    (h : (s.shared which).raised ≤ state.raised) (other : Shared) :
    (s.shared other).raised ≤ ((s.setShared which state).shared other).raised := by
  rcases eq_or_ne other which with rfl | hNe
  · rwa [TrackerThreads.shared_setShared_self]
  · rw [TrackerThreads.shared_setShared_of_ne hNe]

theorem raised_setThreads {which : Shared} {threads : RcuThreads W TrackerReader} (other : Shared) :
    (s.shared other).raised ≤ ((s.setThreads which threads).shared other).raised := by
  refine raised_setShared ?_ other
  exact Nat.le_refl _

/-- The version that raised a flag is followed by later ones only. -/
theorem SharedsInv.raised_step (h : SharedsInv parts s)
    (hStep : s.step parts intervalMs event = some s') (which : Shared) :
    (s.shared which).raised ≤ (s'.shared which).raised := by
  cases event with
  | consumeCall data len rxTs order =>
    obtain ⟨-, _, -, rfl⟩ := TrackerThreads.consumeCall_eq_some hStep
    exact raised_setThreads which
  | consumeStep =>
    obtain ⟨_, _, _, _, _, _, -, hState, rfl⟩ := TrackerThreads.consumeStep_eq_some hStep
    exact raised_setShared (SharedState.raised_writerStep (h .report).raised_le hState) which
  | notifyCall rtpTimestamp receiverTimestamp =>
    obtain ⟨-, rfl⟩ := TrackerThreads.notifyCall_eq_some hStep
    exact raised_setThreads which
  | notifyLoad =>
    obtain ⟨_, -, rfl⟩ := TrackerThreads.notifyLoad_eq_some hStep
    exact raised_setThreads which
  | notifyRead part =>
    obtain ⟨_, -, rfl⟩ := TrackerThreads.notifyRead_eq_some hStep
    exact raised_setThreads which
  | notifyUpdate order =>
    obtain ⟨_, _, _, _, _, _, -, -, -, -, -, rfl⟩ := TrackerThreads.notifyUpdate_eq_some hStep
    exact raised_setThreads which
  | notifyStep =>
    obtain ⟨_, _, _, -, hState, rfl⟩ := TrackerThreads.notifyStep_eq_some hStep
    exact raised_setShared (SharedState.raised_writerStep (h .clock).raised_le hState) which
  | printStep =>
    -- the main thread takes flags, and never raises one
    rcases TrackerThreads.printStep_eq_some hStep with
      ⟨-, rfl⟩ | ⟨-, -, rfl⟩ | ⟨-, rfl⟩ | ⟨-, _, -, rfl⟩ | ⟨-, -, rfl⟩
    · refine raised_setShared ?_ which
      exact Nat.le_refl _
    · exact Nat.le_refl _
    · exact raised_setThreads which
    · exact raised_setThreads which
    · exact Nat.le_refl _
  | printRead part =>
    obtain ⟨-, _, -, rfl⟩ := TrackerThreads.printRead_eq_some hStep
    exact raised_setThreads which

theorem SharedsInv.raised_foldlM (h : SharedsInv parts s)
    (hRun : events.foldlM (TrackerThreads.step parts intervalMs) s = some s') (which : Shared) :
    (s.shared which).raised ≤ (s'.shared which).raised := by
  induction events generalizing s with
  | nil =>
    obtain rfl := Option.some.inj hRun
    exact Nat.le_refl _
  | cons event events ih =>
    rw [List.foldlM_cons] at hRun
    obtain ⟨next, hFirst, hRest⟩ := Option.bind_eq_some_iff.mp hRun
    exact (h.raised_step hFirst which).trans (ih (h.step hFirst) hRest)

end Raised

/-! ## The other threads -/

/-- The main thread stands where it stood, and no flag is taken. -/
structure MainKept {W : Type} (s s' : TrackerThreads W) : Prop where
  print : s'.print = s.print
  printed : s'.printed = s.printed
  reader : ∀ which, (s'.shared which).threads.readers .printThread =
    (s.shared which).threads.readers .printThread
  since : ∀ which, (s'.shared which).threads.since .printThread =
    (s.shared which).threads.since .printThread
  available : ∀ which, (s.shared which).available = true → (s'.shared which).available = true

namespace MainKept

variable {W : Type} {parts : TrackerParts W} {intervalMs : UInt32} {event : TrackerEvent}
  {s s' : TrackerThreads W}

theorem of_set {state : SharedState W} (which : Shared)
    (hShared : s'.shared = (s.setShared which state).shared)
    (hPrint : s'.print = s.print) (hPrinted : s'.printed = s.printed)
    (hReader : state.threads.readers .printThread =
      (s.shared which).threads.readers .printThread)
    (hSince : state.threads.since .printThread = (s.shared which).threads.since .printThread)
    (hAvailable : (s.shared which).available = true → state.available = true) :
    MainKept s s' := by
  refine ⟨hPrint, hPrinted, fun other => ?_, fun other => ?_, fun other => ?_⟩ <;> rw [hShared]
  all_goals
    rcases eq_or_ne other which with rfl | hNe
  · rwa [TrackerThreads.shared_setShared_self]
  · rw [TrackerThreads.shared_setShared_of_ne hNe]
  · rwa [TrackerThreads.shared_setShared_self]
  · rw [TrackerThreads.shared_setShared_of_ne hNe]
  · rwa [TrackerThreads.shared_setShared_self]
  · rw [TrackerThreads.shared_setShared_of_ne hNe]
    exact id

theorem of_reads {threads : RcuThreads W TrackerReader} (which : Shared)
    (hReads : ReadsOnly .dataThread (s.shared which).threads threads)
    (hShared : s'.shared = (s.setThreads which threads).shared)
    (hPrint : s'.print = s.print) (hPrinted : s'.printed = s.printed) : MainKept s s' :=
  of_set which hShared hPrint hPrinted (hReads.readers .printThread (by decide))
    (hReads.since .printThread (by decide)) id

theorem of_update {newData : Nat → W} {order : List Nat} {threads : RcuThreads W TrackerReader}
    {n : Nat} (which : Shared)
    (hUpdate : (s.shared which).threads.update RCU_NUM_VERSIONS n newData order = some threads)
    (hShared : s'.shared = (s.setThreads which threads).shared)
    (hPrint : s'.print = s.print) (hPrinted : s'.printed = s.printed) : MainKept s s' := by
  obtain ⟨-, -, rfl⟩ := RcuThreads.update_eq_some hUpdate
  exact of_set which hShared hPrint hPrinted rfl rfl id

theorem of_writerStep {raise returned : Bool} {state : SharedState W} (which : Shared)
    (hState : (s.shared which).writerStep raise = some (state, returned))
    (hShared : s'.shared = (s.setShared which state).shared)
    (hPrint : s'.print = s.print) (hPrinted : s'.printed = s.printed) : MainKept s s' := by
  unfold SharedState.writerStep at hState
  split at hState
  case h_1 =>
    obtain ⟨rfl, -⟩ := Prod.mk.inj (Option.some.inj hState)
    exact of_set which hShared hPrint hPrinted rfl rfl fun hUp =>
      Bool.or_eq_true_iff.mpr (.inl hUp)
  case h_2 =>
    obtain ⟨threads, hThreads, hIs⟩ := Option.map_eq_some_iff.mp hState
    obtain ⟨rfl, -⟩ := Prod.mk.inj hIs
    -- the copy of a part, the store of the pointer, the store of the index
    rcases RcuThreads.writerStep_eq_some hThreads with
      ⟨_, _, _, _, -, rfl⟩ | ⟨_, _, -, rfl⟩ | ⟨_, -, rfl⟩
    all_goals exact of_set which hShared hPrint hPrinted rfl rfl id

/-- A step is one of the main thread, or of another. -/
theorem or_of_step (hStep : s.step parts intervalMs event = some s') :
    (event = .printStep ∧ s.printStep parts = some s') ∨
      (∃ part, event = .printRead part ∧ s.printRead parts part = some s') ∨ MainKept s s' := by
  cases event with
  | consumeCall data len rxTs order =>
    obtain ⟨-, _, hThreads, rfl⟩ := TrackerThreads.consumeCall_eq_some hStep
    exact .inr <| .inr <| of_update .report hThreads rfl rfl rfl
  | consumeStep =>
    obtain ⟨_, _, _, _, _, _, -, hState, rfl⟩ := TrackerThreads.consumeStep_eq_some hStep
    exact .inr <| .inr <| of_writerStep .report hState rfl rfl rfl
  | notifyCall rtpTimestamp receiverTimestamp =>
    obtain ⟨-, rfl⟩ := TrackerThreads.notifyCall_eq_some hStep
    exact .inr <| .inr <| of_reads .report (.loadIndex _ _) rfl rfl rfl
  | notifyLoad =>
    obtain ⟨_, hThreads, rfl⟩ := TrackerThreads.notifyLoad_eq_some hStep
    exact .inr <| .inr <| of_reads .report (.loadVersion hThreads) rfl rfl rfl
  | notifyRead part =>
    obtain ⟨_, hThreads, rfl⟩ := TrackerThreads.notifyRead_eq_some hStep
    exact .inr <| .inr <| of_reads .report (.readPart hThreads) rfl rfl rfl
  | notifyUpdate order =>
    obtain ⟨_, _, _, _, _, _, -, -, -, -, hThreads, rfl⟩ :=
      TrackerThreads.notifyUpdate_eq_some hStep
    exact .inr <| .inr <| of_update .clock hThreads rfl rfl rfl
  | notifyStep =>
    obtain ⟨_, _, _, -, hState, rfl⟩ := TrackerThreads.notifyStep_eq_some hStep
    exact .inr <| .inr <| of_writerStep .clock hState rfl rfl rfl
  | printStep => exact .inl ⟨rfl, hStep⟩
  | printRead part => exact .inr (.inl ⟨part, rfl, hStep⟩)

end MainKept

/-! ## What is printed -/

/-- What the main thread prints of this state is read. -/
def HasRead {W : Type} (parts : TrackerParts W) (which : Shared) (s : TrackerThreads W) : Prop :=
  ∃ index seen, (s.shared which).threads.readers .printThread = .reading index seen ∧
    ∀ k ∈ parts.printed which, (TrackerThreads.copied seen k).isSome

/-- The main thread has never read this state, prints it, or has read what it prints. -/
def PrintsInv {W : Type} (parts : TrackerParts W) (s : TrackerThreads W) : Prop :=
  ∀ which, ¬s.Printing which →
    (s.shared which).threads.readers .printThread = .idle ∨ HasRead parts which s

namespace PrintsInv

variable {W : Type} {parts : TrackerParts W} {intervalMs : UInt32} {event : TrackerEvent}
  {events : List TrackerEvent} {s s' : TrackerThreads W} {which : Shared}

theorem start (parts : TrackerParts W) : PrintsInv parts (.start parts) := by
  intro which _
  cases which <;> exact .inl rfl

/-- The reader stands where it stood. -/
theorem of_reader (h : PrintsInv parts s) (hNot : ¬s.Printing which)
    (hReader : (s'.shared which).threads.readers .printThread =
      (s.shared which).threads.readers .printThread) :
    (s'.shared which).threads.readers .printThread = .idle ∨ HasRead parts which s' := by
  rw [HasRead, hReader]
  exact h which hNot

theorem of_shared (h : PrintsInv parts s) (hNot : ¬s.Printing which)
    (hShared : s'.shared which = s.shared which) :
    (s'.shared which).threads.readers .printThread = .idle ∨ HasRead parts which s' :=
  h.of_reader hNot (by rw [hShared])

theorem printStep (h : PrintsInv parts s) (hStep : s.printStep parts = some s') :
    PrintsInv parts s' := by
  intro which hNot
  rcases TrackerThreads.printStep_eq_some hStep with
    ⟨hPrint, rfl⟩ | ⟨hPrint, -, rfl⟩ | ⟨hPrint, rfl⟩ | ⟨hPrint, threads, hThreads, rfl⟩ |
      ⟨hPrint, ⟨index, seen, hReader, hAll⟩, rfl⟩
  · -- the flag is taken, and the reader stands where it stood
    refine h.of_reader (TrackerThreads.not_printing hPrint (by decide) which) ?_
    rcases eq_or_ne which s.printed with rfl | hNe
    · simp
    · simp [TrackerThreads.shared_setShared_of_ne hNe]
  · exact h.of_shared (TrackerThreads.not_printing hPrint (by decide) which) rfl
  · -- the state that is loaded is the one that is printed now
    have hNe : which ≠ s.printed := fun hEq => hNot ⟨rfl, hEq.symm⟩
    exact h.of_shared (TrackerThreads.not_printing hPrint (by decide) which)
      (TrackerThreads.shared_setShared_of_ne hNe _)
  · -- the second load: this state is still being printed
    have hNe : which ≠ s.printed := fun hEq => hNot ⟨hPrint, hEq.symm⟩
    exact h.of_shared (fun hThis => hNe hThis.2.symm)
      (TrackerThreads.shared_setShared_of_ne hNe _)
  · rcases eq_or_ne which s.printed with rfl | hNe
    · exact .inr ⟨index, seen, hReader, hAll⟩
    · exact h.of_shared (fun hThis => hNe hThis.2.symm) rfl

theorem step (h : PrintsInv parts s) (hStep : s.step parts intervalMs event = some s') :
    PrintsInv parts s' := by
  rcases MainKept.or_of_step hStep with ⟨-, hPrint⟩ | ⟨part, -, hRead⟩ | hKept
  · exact h.printStep hPrint
  · -- a part is copied while the state is being printed
    obtain ⟨hPrint, threads, -, rfl⟩ := TrackerThreads.printRead_eq_some hRead
    intro which hNot
    have hNe : which ≠ s.printed := fun hEq => hNot ⟨hPrint, hEq.symm⟩
    exact h.of_shared hNot (TrackerThreads.shared_setShared_of_ne hNe _)
  · -- another thread
    intro which hNot
    refine h.of_reader (fun hThis => hNot ?_) (hKept.reader which)
    exact ⟨hKept.print.trans hThis.1, hKept.printed.trans hThis.2⟩

theorem run (hRun : runThreads parts intervalMs events = some s) : PrintsInv parts s := by
  induction events using List.reverseRecOn generalizing s with
  | nil =>
    obtain rfl := Option.some.inj hRun
    exact .start parts
  | append_singleton events event ih =>
    obtain ⟨before, hBefore, hLast⟩ := runThreads_concat hRun
    exact (ih hBefore).step hLast

end PrintsInv

/-! ## What is read -/

/-- In these steps the main thread called `read()` of this state; this is the state at
the last of the calls. -/
structure LastRead {W : Type} (parts : TrackerParts W) (intervalMs : UInt32) (which : Shared)
    (s₀ : TrackerThreads W) (events : List TrackerEvent) (s : TrackerThreads W)
    (middle : List TrackerEvent) (sr : TrackerThreads W) : Prop where
  split : ∃ later, events = middle ++ .printStep :: later
  run : middle.foldlM (TrackerThreads.step parts intervalMs) s₀ = some sr
  loading : sr.Loading which
  since : (s.shared which).threads.since .printThread = (sr.shared which).threads.published
  reader : (s.shared which).threads.readers .printThread ≠ .idle

/-- The flag that was up is up, or is taken and the read is to follow, or is behind. -/
def Noticed {W : Type} (parts : TrackerParts W) (intervalMs : UInt32) (which : Shared)
    (s₀ : TrackerThreads W) (events : List TrackerEvent) (s : TrackerThreads W) : Prop :=
  s.Awaited which ∨ ∃ middle sr, LastRead parts intervalMs which s₀ events s middle sr

section Noticing

variable {W : Type} {parts : TrackerParts W} {intervalMs : UInt32} {event : TrackerEvent}
  {events : List TrackerEvent} {s₀ s s' : TrackerThreads W} {which : Shared}

/-- A step that is no `read()` of this state. -/
theorem Noticed.keep (h : Noticed parts intervalMs which s₀ events s)
    (hAwaited : s.Awaited which → s'.Awaited which)
    (hSince : (s'.shared which).threads.since .printThread =
      (s.shared which).threads.since .printThread)
    (hReader : (s.shared which).threads.readers .printThread ≠ .idle →
      (s'.shared which).threads.readers .printThread ≠ .idle) :
    Noticed parts intervalMs which s₀ (events ++ [event]) s' := by
  rcases h with hStill | ⟨middle, sr, hLast⟩
  · exact .inl (hAwaited hStill)
  · -- the call of read() stays the last one
    obtain ⟨later, rfl⟩ := hLast.split
    exact .inr ⟨middle, sr, ⟨later ++ [event], by simp⟩, hLast.run, hLast.loading,
      hSince.trans hLast.since, hReader hLast.reader⟩

/-- A step at the other state. -/
theorem Noticed.keep_of_ne (h : Noticed parts intervalMs which s₀ events s)
    (hShared : s'.shared which = s.shared which) (hNot : ¬s.Loading which) :
    Noticed parts intervalMs which s₀ (events ++ [event]) s' := by
  refine h.keep (fun hAwaited => .inl ?_) (by rw [hShared]) (by rw [hShared]; exact id)
  rw [hShared]
  exact hAwaited.resolve_right hNot

theorem Noticed.printStep (h : Noticed parts intervalMs which s₀ events s)
    (hRun : events.foldlM (TrackerThreads.step parts intervalMs) s₀ = some s)
    (hStep : s.printStep parts = some s') :
    Noticed parts intervalMs which s₀ (events ++ [.printStep]) s' := by
  rcases TrackerThreads.printStep_eq_some hStep with
    ⟨hPrint, rfl⟩ | ⟨hPrint, -, rfl⟩ | ⟨hPrint, rfl⟩ | ⟨hPrint, threads, hThreads, rfl⟩ |
      ⟨hPrint, -, rfl⟩
  · have hNot := TrackerThreads.not_loading hPrint (by decide) which
    rcases eq_or_ne which s.printed with rfl | hNe
    · -- the flag is taken, and the read is to follow
      exact .inl (.inr ⟨rfl, rfl⟩)
    · exact h.keep_of_ne (TrackerThreads.shared_setShared_of_ne hNe _) hNot
  · exact h.keep_of_ne rfl (TrackerThreads.not_loading hPrint (by decide) which)
  · rcases eq_or_ne which s.printed with rfl | hNe
    · -- the read itself
      refine .inr ⟨events, s, ⟨[], rfl⟩, hRun, ⟨hPrint, rfl⟩, ?_, ?_⟩
      · simp [TrackerThreads.setThreads, TrackerThreads.setShared, RcuThreads.loadIndex]
      · simp [TrackerThreads.setThreads, TrackerThreads.setShared, RcuThreads.loadIndex]
    · exact h.keep_of_ne (TrackerThreads.shared_setShared_of_ne hNe _)
        fun hThis => hNe hThis.2.symm
  · have hNot := TrackerThreads.not_loading hPrint (by decide) which
    rcases eq_or_ne which s.printed with rfl | hNe
    · -- the second load of the same read
      obtain ⟨index, -, rfl⟩ := RcuThreads.loadVersion_eq_some hThreads
      refine h.keep (fun hAwaited => .inl ?_) ?_ fun _ => ?_
      · simpa [TrackerThreads.setThreads] using hAwaited.resolve_right hNot
      · simp [TrackerThreads.setThreads]
      · simp [TrackerThreads.setThreads]
    · exact h.keep_of_ne (TrackerThreads.shared_setShared_of_ne hNe _) hNot
  · exact h.keep_of_ne rfl (TrackerThreads.not_loading hPrint (by decide) which)

theorem Noticed.step (h : Noticed parts intervalMs which s₀ events s)
    (hRun : events.foldlM (TrackerThreads.step parts intervalMs) s₀ = some s)
    (hStep : s.step parts intervalMs event = some s') :
    Noticed parts intervalMs which s₀ (events ++ [event]) s' := by
  rcases MainKept.or_of_step hStep with ⟨rfl, hPrint⟩ | ⟨part, rfl, hRead⟩ | hKept
  · exact h.printStep hRun hPrint
  · obtain ⟨hPrint, threads, hThreads, rfl⟩ := TrackerThreads.printRead_eq_some hRead
    have hNot := TrackerThreads.not_loading hPrint (by decide) which
    rcases eq_or_ne which s.printed with rfl | hNe
    · -- a part of the same read
      obtain ⟨index, seen, -, -, rfl⟩ := RcuThreads.readPart_eq_some hThreads
      refine h.keep (fun hAwaited => .inl ?_) ?_ fun _ => ?_
      · simpa [TrackerThreads.setThreads] using hAwaited.resolve_right hNot
      · simp [TrackerThreads.setThreads]
      · simp [TrackerThreads.setThreads]
    · exact h.keep_of_ne (TrackerThreads.shared_setShared_of_ne hNe _) hNot
  · -- another thread takes no flag
    refine h.keep (fun hAwaited => ?_) (hKept.since which) (by rw [hKept.reader]; exact id)
    rcases hAwaited with hUp | hLoading
    · exact .inl (hKept.available which hUp)
    · exact .inr ⟨hKept.print.trans hLoading.1, hKept.printed.trans hLoading.2⟩

/-- A flag that is up is noticed. -/
theorem noticed_foldlM (hAwaited : s₀.Awaited which)
    (hRun : events.foldlM (TrackerThreads.step parts intervalMs) s₀ = some s) :
    Noticed parts intervalMs which s₀ events s := by
  induction events using List.reverseRecOn generalizing s with
  | nil =>
    obtain rfl := Option.some.inj hRun
    exact .inl hAwaited
  | append_singleton events event ih =>
    rw [List.foldlM_append] at hRun
    obtain ⟨before, hBefore, hLast⟩ := Option.bind_eq_some_iff.mp hRun
    simp only [List.foldlM_cons, List.foldlM_nil, bind_pure] at hLast
    exact (ih hBefore).step hBefore hLast

end Noticing

section Printing

variable {W : Type} {parts : TrackerParts W} {intervalMs : UInt32} {events : List TrackerEvent}
  {s : TrackerThreads W}

/-- The store of a flag for a report, after these events: the main thread called
`read()` of the report state behind it, last in the state `sr`. It got the version
published then, which is behind this report; and where it went on, it has read what
it prints. -/
structure PrintedBehind (parts : TrackerParts W) (intervalMs : UInt32)
    (before after : List TrackerEvent) (s : TrackerThreads W) (middle : List TrackerEvent)
    (sr : TrackerThreads W) : Prop where
  split : ∃ later, after = middle ++ .printStep :: later
  run : runThreads parts intervalMs (before ++ .consumeStep :: middle) = some sr
  loading : sr.Loading .report
  behind : (reportsOf before).length ≤ (sr.shared .report).threads.published
  begun : (sr.shared .report).threads.published ≤
    (reportsOf (before ++ .consumeStep :: after)).length
  hasRead : ¬s.Printing .report → HasRead parts .report s
  version : ∀ index seen, (s.shared .report).threads.readers .printThread = .reading index seen →
    ∀ p ∈ seen, p.begun < (sr.shared .report).threads.published + RCU_NUM_VERSIONS →
      p.value = parts.report.part (reportAfter intervalMs
        ((reportsOf (before ++ .consumeStep :: after)).take
          (sr.shared .report).threads.published)) p.part

/-- **No news is lost.** A report that is news raises the flag. Whenever the flag is
down again, and the main thread is not about to read, it has read the state behind
this report or behind a later one: the one published when it called `read()`. -/
theorem updates_printed {before after : List TrackerEvent} {s₀ : TrackerThreads W}
    {data : Memory} {len rxTs : Nat} (hBefore : runThreads parts intervalMs before = some s₀)
    (hNews : s₀.consume = .updating data len rxTs true)
    (hReady : (s₀.shared .report).threads.writer = .idle)
    (hRun : runThreads parts intervalMs (before ++ .consumeStep :: after) = some s)
    (hDown : (s.shared .report).available = false) (hRead : ¬s.Loading .report) :
    ∃ middle sr, PrintedBehind parts intervalMs before after s middle sr := by
  obtain ⟨hShareds₀, hCalls₀⟩ := runThreads_inv hBefore
  obtain ⟨hShareds, hCalls⟩ := runThreads_inv hRun
  obtain ⟨s₁, hAt, hRest⟩ := runThreads_append hRun
  obtain rfl := Option.some.inj (hBefore.symm.trans hAt)
  rw [List.foldlM_cons] at hRest
  obtain ⟨next, hFirst, hAfter⟩ := Option.bind_eq_some_iff.mp hRest
  -- the report is published when it raises the flag
  have hReports := hCalls₀.reports
  rw [TrackerThreads.inFlight, hNews, hReady, List.append_nil] at hReports
  have hPublished := hCalls₀.published
  rw [hReports] at hPublished
  have hRaises : (next.shared .report).available = true ∧
      (next.shared .report).raised = (s₀.shared .report).threads.published := by
    obtain ⟨_, _, _, raise, state, returned, hConsume, hState, rfl⟩ :=
      TrackerThreads.consumeStep_eq_some hFirst
    obtain ⟨-, -, -, rfl⟩ := ConsumeStep.updating.inj (hNews.symm.trans hConsume)
    rw [SharedState.writerStep, hReady] at hState
    obtain ⟨rfl, -⟩ := Prod.mk.inj (Option.some.inj hState)
    simp
  -- so it is read behind that
  obtain ⟨middle, sr, hLast⟩ : ∃ middle sr,
      LastRead parts intervalMs .report next after s middle sr := by
    refine (noticed_foldlM (.inl hRaises.1) hAfter).resolve_left fun hAwaited => ?_
    rcases hAwaited with hUp | hLoading
    · exact Bool.false_ne_true (hDown.symm.trans hUp)
    · exact hRead hLoading
  refine ⟨middle, sr, hLast.split, ?_, hLast.loading, ?_, ?_, fun hNot => ?_,
    fun index seen hReading p hp hFresh => ?_⟩
  · rw [runThreads, List.foldlM_append]
    refine Option.bind_eq_some_iff.mpr ⟨s₀, hBefore, ?_⟩
    rw [List.foldlM_cons]
    exact Option.bind_eq_some_iff.mpr ⟨next, hFirst, hLast.run⟩
  · -- what raised the flag since then is no older
    have hLater := (hShareds₀.step hFirst).raised_foldlM hAfter .report
    have hNoticed := (hShareds .report).noticed hDown hRead
    rw [← hLast.since]
    omega
  · rw [← hLast.since]
    exact hCalls.since_le hShareds _
  · -- it has called read(), so its reader is not where it started
    exact (PrintsInv.run hRun .report hNot).resolve_left hLast.reader
  · rw [← hLast.since] at hFresh ⊢
    exact hCalls.read_eq hShareds hReading hp hFresh

end Printing

/-- The first report, up to the store of its flag. -/
def firstReport : List TrackerEvent :=
  .consumeCall (fun _ => 0) 28 50 [0, 1] :: List.replicate 4 .consumeStep

/-- The flag is taken, and the report is read and printed. -/
def firstPrint : List TrackerEvent :=
  [.printStep, .printStep, .printStep, .printRead 0, .printStep]

theorem updates_printed_firstReport :
    ∃ s, runThreads memberParts 1000 (firstReport ++ .consumeStep :: firstPrint) = some s ∧
      HasRead memberParts .report s ∧
        ∃ middle sr, PrintedBehind memberParts 1000 firstReport firstPrint s middle sr := by
  refine ⟨_, rfl, ?_, updates_printed rfl rfl rfl rfl rfl fun h => PrintStep.noConfusion h.1⟩
  exact ⟨_, _, rfl, by decide⟩

end RivermaxDevKit
