import Mathlib.Data.List.TakeWhile
import RivermaxDevKit.Lib.Holdings
import RivermaxDevKit.Memory.Layout
import RivermaxDevKit.Services.Definitions

/-!
# Registration

`RmaxBaseMemoryStrategy::register_memory` and `unregister_memory` against what
the library holds: a region for each buffer and device interface.

* `registerMemoryCall_spec` — a call registers the regions in order, up to the
  first the library refuses.
* `registrationUndone_iff` — a run ends with nothing registered exactly if no
  call was refused behind its first region.
-/

namespace RivermaxDevKit

/-- The buffers of a strategy. -/
inductive MemoryBuffer
  | header
  | payload
  deriving DecidableEq, Repr

/-- A memory region of the library: a buffer, for a device interface. -/
abbrev MemRegion := MemoryBuffer × Nat

namespace RmaxBaseMemoryStrategy

open Holdings

/-! ## The calls -/

/-- What a loop over the device interfaces leaves: the keys, the interfaces that
were registered, and whether the library refused none. -/
structure RegisterLoop where
  memRegions : List (Option Nat)
  registered : List Nat
  succeeded : Bool
  deriving Repr

/-- The loop of the lambda of `register_memory`. The library answers with a key,
or refuses. -/
def registerLoop (rmxRegisterMemory : Nat → Option Nat) (memorySize : Nat) :
    List Nat → List (Option Nat) → RegisterLoop
  | [], memRegions => ⟨memRegions, [], true⟩
  | i :: is, memRegions =>
    let memRegions := memRegions.set i none
    if memorySize = 0 then registerLoop rmxRegisterMemory memorySize is memRegions
    else match rmxRegisterMemory i with
      | none => ⟨memRegions, [], false⟩
      | some mkey =>
        let rest := registerLoop rmxRegisterMemory memorySize is (memRegions.set i (some mkey))
        { rest with registered := i :: rest.registered }

/-- `std::vector::resize`: what is new has key zero. -/
def resizeMemRegions (memRegions : List (Option Nat)) (n : Nat) : List (Option Nat) :=
  memRegions.take n ++ List.replicate (n - memRegions.length) (some 0)

/-- What a call leaves, and what it did with the library. -/
structure RegistrationCall where
  strategy : RmaxBaseMemoryStrategy
  events : List (Event MemRegion) := []
  status : ReturnStatus := .success

def acquired (buffer : MemoryBuffer) (interfaces : List Nat) : List (Event MemRegion) :=
  interfaces.map fun i => .acquire (buffer, i)

def registerMemoryCall (rmxRegisterMemory : MemRegion → Option Nat)
    (s : RmaxBaseMemoryStrategy) : RegistrationCall :=
  if ¬ s.appAllocatedMemory ∨ ¬ s.registerMemory ∨ s.memoryRegistered then { strategy := s }
  else if ¬ s.memoryAllocated ∨ s.payloadBuffer = 0 then { strategy := s, status := .failure }
  else
    let s := { s with
      headerMemRegions := resizeMemRegions s.headerMemRegions s.numOfMemRegions
      payloadMemRegions := resizeMemRegions s.payloadMemRegions s.numOfMemRegions }
    let header := registerLoop (fun i => rmxRegisterMemory (.header, i)) s.headerMemorySize
      (List.range s.numOfMemRegions) s.headerMemRegions
    let s := { s with headerMemRegions := header.memRegions }
    if ¬ header.succeeded then ⟨s, acquired .header header.registered, .failure⟩
    else
      let payload := registerLoop (fun i => rmxRegisterMemory (.payload, i)) s.payloadMemorySize
        (List.range s.numOfMemRegions) s.payloadMemRegions
      let s := { s with payloadMemRegions := payload.memRegions }
      let events := acquired .header header.registered ++ acquired .payload payload.registered
      if ¬ payload.succeeded then ⟨s, events, .failure⟩
      else ⟨{ s with memoryRegistered := true }, events, .success⟩

def released (buffer : MemoryBuffer) (memRegions : List (Option Nat)) : List (Event MemRegion) :=
  (List.range memRegions.length).map fun i => .release (buffer, i)

/-- `unregister_memory`. The library deregisters what it holds. -/
def unregisterMemoryCall (s : RmaxBaseMemoryStrategy) : RegistrationCall :=
  if ¬ s.appAllocatedMemory ∨ ¬ s.registerMemory ∨ ¬ s.memoryRegistered then { strategy := s }
  else
    { strategy := { s with memoryRegistered := false }
      events := (if s.headerBuffer ≠ 0 then released .header s.headerMemRegions else []) ++
        released .payload s.payloadMemRegions }

/-! ## Runs -/

/-- A call, with the answers of the library. -/
inductive MemoryCall
  | registerMemory (rmxRegisterMemory : MemRegion → Option Nat)
  | unregisterMemory

def MemoryCall.call (s : RmaxBaseMemoryStrategy) : MemoryCall → RegistrationCall
  | registerMemory rmxRegisterMemory => s.registerMemoryCall rmxRegisterMemory
  | unregisterMemory => s.unregisterMemoryCall

/-- The promise, of a strategy and of what the library holds for it: no region is
registered while it is, or deregistered while it is not, and after
`unregister_memory` none is. -/
def RegistrationUndone : RmaxBaseMemoryStrategy → Finset MemRegion → List MemoryCall → Prop
  | _, _, [] => True
  | s, held, call :: calls =>
    let done := call.call s
    Allowed held done.events ∧
      (match call with
        | .registerMemory _ => True
        | .unregisterMemory => after held done.events = ∅) ∧
      RegistrationUndone done.strategy (after held done.events) calls

/-- The call reaches the library. -/
def Registers (s : RmaxBaseMemoryStrategy) : Prop :=
  s.appAllocatedMemory = true ∧ s.registerMemory = true ∧ s.memoryRegistered = false ∧
    s.memoryAllocated = true ∧ s.payloadBuffer ≠ 0

instance (s : RmaxBaseMemoryStrategy) : Decidable s.Registers :=
  inferInstanceAs (Decidable (_ ∧ _))

/-- The regions of a strategy, in the order in which they are registered. A buffer
without bytes has none. -/
def memRegions (s : RmaxBaseMemoryStrategy) : List MemRegion :=
  (if s.headerMemorySize ≠ 0 then
    (List.range s.numOfMemRegions).map (Prod.mk .header) else []) ++
  (if s.payloadMemorySize ≠ 0 then
    (List.range s.numOfMemRegions).map (Prod.mk .payload) else [])

/-- The library takes all of these regions, or refuses the first. -/
def AllOrNothing (rmxRegisterMemory : MemRegion → Option Nat) (regions : List MemRegion) : Prop :=
  (∀ region ∈ regions, rmxRegisterMemory region ≠ none) ∨
    ∀ region ∈ regions.head?, rmxRegisterMemory region = none

/-- No call of the run is refused behind its first region. -/
def RegistrationsWhole : RmaxBaseMemoryStrategy → List MemoryCall → Prop
  | _, [] => True
  | s, call :: calls =>
    (match call with
      | .registerMemory rmxRegisterMemory =>
        s.Registers → AllOrNothing rmxRegisterMemory s.memRegions
      | .unregisterMemory => True) ∧
    RegistrationsWhole (call.call s).strategy calls

/-! ## One call -/

section Loop

variable (rmxRegisterMemory : Nat → Option Nat) (memorySize : Nat)

theorem registerLoop_registered (is : List Nat) (memRegions : List (Option Nat)) :
    (registerLoop rmxRegisterMemory memorySize is memRegions).registered =
      if memorySize = 0 then [] else is.takeWhile fun i => (rmxRegisterMemory i).isSome := by
  induction is generalizing memRegions with
  | nil => simp [registerLoop]
  | cons i is ih =>
    by_cases hSize : memorySize = 0
    · simp only [registerLoop, hSize, if_true] at ih ⊢
      exact ih _
    · simp only [registerLoop, hSize, if_false] at ih ⊢
      -- the loop stops at the first interface that is refused
      cases hKey : rmxRegisterMemory i with
      | none => simp [hKey]
      | some mkey => simp [hKey, ih]

theorem registerLoop_succeeded (is : List Nat) (memRegions : List (Option Nat)) :
    (registerLoop rmxRegisterMemory memorySize is memRegions).succeeded = true ↔
      memorySize = 0 ∨ ∀ i ∈ is, rmxRegisterMemory i ≠ none := by
  induction is generalizing memRegions with
  | nil => simp [registerLoop]
  | cons i is ih =>
    by_cases hSize : memorySize = 0
    · simp only [registerLoop, hSize, if_true, true_or, iff_true] at ih ⊢
      exact ih _
    · simp only [registerLoop, hSize, if_false, false_or] at ih ⊢
      -- one refusal is the end of it
      cases hKey : rmxRegisterMemory i with
      | none => simp [hKey]
      | some mkey => simp [hKey, ih]

theorem length_registerLoop (is : List Nat) (memRegions : List (Option Nat)) :
    (registerLoop rmxRegisterMemory memorySize is memRegions).memRegions.length =
      memRegions.length := by
  induction is generalizing memRegions with
  | nil => rfl
  | cons i is ih =>
    unfold registerLoop
    split_ifs
    · simp [ih]
    -- an entry is overwritten, never added
    · cases rmxRegisterMemory i with
      | none => simp
      | some mkey => simp [ih]

end Loop

theorem length_resizeMemRegions (memRegions : List (Option Nat)) (n : Nat) :
    (resizeMemRegions memRegions n).length = n := by
  rw [resizeMemRegions, List.length_append, List.length_take, List.length_replicate]
  omega

/-- The settings and buffers are those of `s`, so the regions are as well. -/
structure SameBuffers (s s' : RmaxBaseMemoryStrategy) : Prop where
  appAllocatedMemory : s'.appAllocatedMemory = s.appAllocatedMemory
  registerMemory : s'.registerMemory = s.registerMemory
  memoryAllocated : s'.memoryAllocated = s.memoryAllocated
  numOfMemRegions : s'.numOfMemRegions = s.numOfMemRegions
  headerMemorySize : s'.headerMemorySize = s.headerMemorySize
  payloadMemorySize : s'.payloadMemorySize = s.payloadMemorySize
  headerBuffer : s'.headerBuffer = s.headerBuffer
  payloadBuffer : s'.payloadBuffer = s.payloadBuffer

/-- What a call that reaches the library does: it registers the regions up to the
first that is refused, and notes the end. -/
structure RegisterSpec (rmxRegisterMemory : MemRegion → Option Nat)
    (s : RmaxBaseMemoryStrategy) (call : RegistrationCall) : Prop where
  same : SameBuffers s call.strategy
  events : call.events =
    (s.memRegions.takeWhile fun region => (rmxRegisterMemory region).isSome).map .acquire
  registered : call.strategy.memoryRegistered = true ↔
    ∀ region ∈ s.memRegions, rmxRegisterMemory region ≠ none
  headerMemRegions : call.strategy.headerMemRegions.length = s.numOfMemRegions
  payloadMemRegions : call.strategy.payloadMemRegions.length = s.numOfMemRegions

/-- The regions of one buffer. -/
def bufferRegions (s : RmaxBaseMemoryStrategy) (buffer : MemoryBuffer) (memorySize : Nat) :
    List MemRegion :=
  if memorySize ≠ 0 then (List.range s.numOfMemRegions).map (Prod.mk buffer) else []

theorem memRegions_eq (s : RmaxBaseMemoryStrategy) :
    s.memRegions = s.bufferRegions .header s.headerMemorySize ++
      s.bufferRegions .payload s.payloadMemorySize := rfl

theorem registerLoop_buffer (s : RmaxBaseMemoryStrategy) (buffer : MemoryBuffer)
    (memorySize : Nat) (rmxRegisterMemory : MemRegion → Option Nat)
    (memRegions : List (Option Nat)) :
    let loop := registerLoop (fun i => rmxRegisterMemory (buffer, i)) memorySize
      (List.range s.numOfMemRegions) memRegions
    acquired buffer loop.registered = ((s.bufferRegions buffer memorySize).takeWhile
        fun region => (rmxRegisterMemory region).isSome).map .acquire ∧
      (loop.succeeded = true ↔
        ∀ region ∈ s.bufferRegions buffer memorySize, rmxRegisterMemory region ≠ none) := by
  dsimp only
  -- the regions of the buffer are its interfaces, unless it is empty
  rw [registerLoop_registered, registerLoop_succeeded, bufferRegions]
  by_cases hSize : memorySize = 0
  · simp [hSize, acquired]
  · rw [if_neg hSize, if_pos hSize, List.takeWhile_map, List.map_map]
    refine ⟨rfl, (or_iff_right hSize).trans ?_⟩
    rw [List.forall_mem_map]

/-- A region that is refused ends the series. -/
theorem takeWhile_append_of_neg {p : MemRegion → Bool} {a : List MemRegion}
    (h : ∃ region ∈ a, p region = false) (b : List MemRegion) :
    (a ++ b).takeWhile p = a.takeWhile p := by
  obtain ⟨region, hMem, hRefused⟩ := h
  -- otherwise all of `a` would have been taken
  rw [List.takeWhile_append, if_neg]
  intro hLength
  have hAll := (List.takeWhile_prefix p).eq_of_length hLength
  have hTaken := List.takeWhile_eq_self_iff.mp hAll region hMem
  exact Bool.false_ne_true (hRefused.symm.trans hTaken)

/-- A call that does not reach the library changes nothing. -/
theorem registerMemoryCall_of_not {s : RmaxBaseMemoryStrategy} (h : ¬ s.Registers)
    (rmxRegisterMemory : MemRegion → Option Nat) :
    (s.registerMemoryCall rmxRegisterMemory).strategy = s ∧
      (s.registerMemoryCall rmxRegisterMemory).events = [] := by
  unfold registerMemoryCall
  split_ifs with hDone hAllocated
  · exact ⟨rfl, rfl⟩
  · exact ⟨rfl, rfl⟩
  -- every other call reaches the library
  · exfalso
    refine h ?_
    simp only [not_or, Bool.not_eq_true, Bool.not_eq_false] at hDone hAllocated
    exact ⟨hDone.1, hDone.2.1, hDone.2.2, hAllocated.1, hAllocated.2⟩

theorem registerMemoryCall_spec {s : RmaxBaseMemoryStrategy} (h : s.Registers)
    (rmxRegisterMemory : MemRegion → Option Nat) :
    RegisterSpec rmxRegisterMemory s (s.registerMemoryCall rmxRegisterMemory) := by
  obtain ⟨hApp, hRegister, hNot, hAllocated, hPayload⟩ := h
  -- the header loop, and the payload loop if it is reached
  obtain ⟨hHeaderEvents, hHeader⟩ := registerLoop_buffer s .header s.headerMemorySize
    rmxRegisterMemory (resizeMemRegions s.headerMemRegions s.numOfMemRegions)
  obtain ⟨hPayloadEvents, hPayloadAll⟩ := registerLoop_buffer s .payload s.payloadMemorySize
    rmxRegisterMemory (resizeMemRegions s.payloadMemRegions s.numOfMemRegions)
  have hHeaderLength := (length_registerLoop (fun i => rmxRegisterMemory (.header, i))
    s.headerMemorySize (List.range s.numOfMemRegions) _).trans
      (length_resizeMemRegions s.headerMemRegions s.numOfMemRegions)
  have hPayloadLength := (length_registerLoop (fun i => rmxRegisterMemory (.payload, i))
    s.payloadMemorySize (List.range s.numOfMemRegions) _).trans
      (length_resizeMemRegions s.payloadMemRegions s.numOfMemRegions)
  unfold registerMemoryCall
  rw [if_neg (by simp [hApp, hRegister, hNot]), if_neg (by simp [hAllocated, hPayload])]
  dsimp only
  by_cases hHeaderOk : ∀ region ∈ s.bufferRegions .header s.headerMemorySize,
      rmxRegisterMemory region ≠ none
  · rw [if_neg (not_not_intro (hHeader.mpr hHeaderOk))]
    -- all header regions are registered, so the series goes on with the payload
    have hHeaderSome : ∀ region ∈ s.bufferRegions .header s.headerMemorySize,
        (rmxRegisterMemory region).isSome = true := fun region hMem =>
      Option.isSome_iff_ne_none.mpr (hHeaderOk region hMem)
    rw [List.takeWhile_eq_self_iff.mpr hHeaderSome] at hHeaderEvents
    have hWhole := @List.takeWhile_append_of_pos _ _ _
      (s.bufferRegions .payload s.payloadMemorySize) hHeaderSome
    have hRegions := congrArg (List.map Event.acquire) (memRegions_eq s ▸ hWhole)
    rw [List.map_append] at hRegions
    have hEvents := (congrArg₂ List.append hHeaderEvents hPayloadEvents).trans hRegions.symm
    -- what is left to ask is the payload
    have hAll : (∀ region ∈ s.memRegions, rmxRegisterMemory region ≠ none) ↔
        ∀ region ∈ s.bufferRegions .payload s.payloadMemorySize,
          rmxRegisterMemory region ≠ none := by
      rw [memRegions_eq, List.forall_mem_append]
      exact and_iff_right hHeaderOk
    split_ifs with hPayloadOk
    · refine ⟨⟨rfl, rfl, rfl, rfl, rfl, rfl, rfl, rfl⟩, hEvents, ?_, hHeaderLength,
        hPayloadLength⟩
      rw [hAll, ← hPayloadAll]
      exact iff_of_true rfl hPayloadOk
    · -- a payload region was refused
      refine ⟨⟨rfl, rfl, rfl, rfl, rfl, rfl, rfl, rfl⟩, hEvents, ?_, hHeaderLength,
        hPayloadLength⟩
      rw [hAll, ← hPayloadAll]
      exact iff_of_false (by simp [hNot]) hPayloadOk
  · -- a header region was refused, and the payload is not tried
    rw [if_pos (mt hHeader.mp hHeaderOk)]
    push Not at hHeaderOk
    obtain ⟨region, hMem, hRefused⟩ := hHeaderOk
    refine ⟨⟨rfl, rfl, rfl, rfl, rfl, rfl, rfl, rfl⟩, ?_, ?_, hHeaderLength,
      length_resizeMemRegions s.payloadMemRegions s.numOfMemRegions⟩
    -- the refused region ends the series, whatever the payload has
    · rw [hHeaderEvents, memRegions_eq, takeWhile_append_of_neg]
      exact ⟨region, hMem, by rw [hRefused]; rfl⟩
    · refine iff_of_false (by simp [hNot]) fun hAll => ?_
      exact hAll region (memRegions_eq s ▸ List.mem_append_left _ hMem) hRefused

/-! ## What is registered -/

/-- What `allocate_memory` leaves, whether it succeeds or not. -/
def afterAllocation (s : RmaxBaseMemoryStrategy) : RmaxBaseMemoryStrategy :=
  s.allocateMemory.getD s

/-- Allocated memory has payload bytes, and a header buffer if there are headers. -/
def BuffersReady (s : RmaxBaseMemoryStrategy) : Prop :=
  s.memoryAllocated = true →
    s.payloadMemorySize ≠ 0 ∧ (s.headerBuffer ≠ 0 ↔ s.headerMemorySize ≠ 0)

theorem buffersReady_afterAllocation {s : RmaxBaseMemoryStrategy}
    (hNew : s.memoryAllocated = false) : s.afterAllocation.BuffersReady := by
  -- where nothing was allocated there is nothing to ask
  have hOwn : s.BuffersReady := fun h => absurd h (by simp [hNew])
  unfold afterAllocation allocateMemory
  split_ifs with hDone hSize hHeader
  · exact hOwn
  · exact hOwn
  · dsimp only
    split_ifs with hSuccess
    · simp only [not_or] at hSize
      exact fun _ => ⟨hSize.2, iff_of_true (hSuccess.2.resolve_left hHeader) hHeader⟩
    · exact hOwn
  · dsimp only
    split_ifs with hSuccess
    · simp only [not_or] at hSize
      exact fun _ => ⟨hSize.2, iff_of_false (not_not_intro rfl) hHeader⟩
    · exact hOwn

theorem memoryRegistered_afterAllocation (s : RmaxBaseMemoryStrategy) :
    s.afterAllocation.memoryRegistered = s.memoryRegistered := by
  unfold afterAllocation allocateMemory
  dsimp only
  split_ifs <;> rfl

theorem SameBuffers.memRegions {s s' : RmaxBaseMemoryStrategy} (h : SameBuffers s s') :
    s'.memRegions = s.memRegions := by
  unfold RmaxBaseMemoryStrategy.memRegions
  rw [h.headerMemorySize, h.payloadMemorySize, h.numOfMemRegions]

theorem SameBuffers.buffersReady {s s' : RmaxBaseMemoryStrategy} (h : SameBuffers s s')
    (hReady : s.BuffersReady) : s'.BuffersReady := by
  unfold BuffersReady at *
  rwa [h.memoryAllocated, h.payloadMemorySize, h.headerBuffer, h.headerMemorySize]

theorem nodup_memRegions (s : RmaxBaseMemoryStrategy) : s.memRegions.Nodup := by
  have hBuffer : ∀ buffer size, (s.bufferRegions buffer size).Nodup := fun buffer size => by
    unfold bufferRegions
    split_ifs
    · exact List.nodup_range.map fun i j h => (Prod.mk.inj h).2
    · exact List.nodup_nil
  have hOf : ∀ buffer size, ∀ region ∈ s.bufferRegions buffer size, region.1 = buffer := by
    intro buffer size region hMem
    unfold bufferRegions at hMem
    split_ifs at hMem
    · obtain ⟨i, -, rfl⟩ := List.mem_map.mp hMem
      rfl
    · cases hMem
  -- a header region is no payload region
  refine List.Nodup.append (hBuffer _ _) (hBuffer _ _) fun region hHeader hPayload => ?_
  have hBoth := (hOf _ _ region hHeader).symm.trans (hOf _ _ region hPayload)
  cases hBoth

/-- Every region is registered, and has its entry. -/
structure AllRegistered (s : RmaxBaseMemoryStrategy) (held : Finset MemRegion) : Prop where
  appAllocatedMemory : s.appAllocatedMemory = true
  registerMemory : s.registerMemory = true
  memoryAllocated : s.memoryAllocated = true
  headerMemRegions : s.headerMemRegions.length = s.numOfMemRegions
  payloadMemRegions : s.payloadMemRegions.length = s.numOfMemRegions
  held : ∀ region, region ∈ held ↔ region ∈ s.memRegions

/-- The flag says whether the regions are registered, and nothing else is. -/
structure FlagTrue (s : RmaxBaseMemoryStrategy) (held : Finset MemRegion) : Prop where
  ready : s.BuffersReady
  flagged : s.memoryRegistered = true → s.AllRegistered held
  unflagged : s.memoryRegistered = false → held = ∅

/-- The flag is down, and the first region is registered all the same. -/
structure RegionLeft (s : RmaxBaseMemoryStrategy) (held : Finset MemRegion) : Prop where
  registers : s.Registers
  first : ∃ region ∈ s.memRegions.head?, region ∈ held

section Steps

variable {s : RmaxBaseMemoryStrategy} {held : Finset MemRegion}

theorem registers_of_same {s' : RmaxBaseMemoryStrategy} (hSame : SameBuffers s s')
    (h : s.Registers) (hNot : s'.memoryRegistered = false) : s'.Registers := by
  obtain ⟨hApp, hRegister, -, hAllocated, hPayload⟩ := h
  exact ⟨hSame.appAllocatedMemory.trans hApp, hSame.registerMemory.trans hRegister, hNot,
    hSame.memoryAllocated.trans hAllocated, hSame.payloadBuffer.symm ▸ hPayload⟩

/-- All regions or none: the flag stays true. -/
theorem FlagTrue.registerMemory (h : FlagTrue s held)
    {rmxRegisterMemory : MemRegion → Option Nat}
    (hWhole : s.Registers → AllOrNothing rmxRegisterMemory s.memRegions) :
    let call := s.registerMemoryCall rmxRegisterMemory
    Allowed held call.events ∧ FlagTrue call.strategy (after held call.events) := by
  dsimp only
  -- a call that is turned away changes nothing
  by_cases hReg : s.Registers
  · have hSpec := registerMemoryCall_spec hReg rmxRegisterMemory
    have hNone : held = ∅ := h.unflagged hReg.2.2.1
    subst hNone
    have hAllowed : Allowed ∅ (s.registerMemoryCall rmxRegisterMemory).events := by
      rw [hSpec.events]
      refine allowed_acquire _ ?_ fun region _ => Finset.notMem_empty region
      exact (nodup_memRegions s).sublist (List.takeWhile_sublist _)
    refine ⟨hAllowed, hSpec.same.buffersReady h.ready, fun hFlag => ?_, fun hFlag => ?_⟩
    -- the flag was set, so every region was taken
    · have hAll := hSpec.registered.mp hFlag
      obtain ⟨hApp, hRegister, -, hAllocated, -⟩ := hReg
      refine ⟨hSpec.same.appAllocatedMemory.trans hApp, hSpec.same.registerMemory.trans hRegister,
        hSpec.same.memoryAllocated.trans hAllocated, ?_, ?_, fun region => ?_⟩
      · rw [hSpec.headerMemRegions, hSpec.same.numOfMemRegions]
      · rw [hSpec.payloadMemRegions, hSpec.same.numOfMemRegions]
      · rw [hSpec.events, hSpec.same.memRegions, List.takeWhile_eq_self_iff.mpr,
          mem_after_acquire]
        · exact or_iff_right (Finset.notMem_empty region)
        · exact fun other hMem => Option.isSome_iff_ne_none.mpr (hAll other hMem)
    · -- not all, so the first was refused
      have hNotAll : ¬ ∀ region ∈ s.memRegions, rmxRegisterMemory region ≠ none := fun hAll =>
        Bool.false_ne_true (hFlag.symm.trans (hSpec.registered.mpr hAll))
      have hFirst := (hWhole hReg).resolve_left hNotAll
      rw [hSpec.events]
      cases hRegions : s.memRegions with
      | nil => rfl
      | cons region regions =>
        have hRefused : rmxRegisterMemory region = none :=
          hFirst region (by rw [hRegions]; rfl)
        rw [List.takeWhile_cons_of_neg (by simp [hRefused])]
        rfl
  · obtain ⟨hStrategy, hEvents⟩ := registerMemoryCall_of_not hReg rmxRegisterMemory
    rw [hStrategy, hEvents]
    exact ⟨trivial, h⟩

/-- The regions that `unregister_memory` hands to the library are those that were
registered. -/
theorem events_unregisterMemoryCall (h : s.AllRegistered held) (hReady : s.BuffersReady)
    (hFlag : s.memoryRegistered = true) :
    s.unregisterMemoryCall.events = s.memRegions.map .release := by
  obtain ⟨hPayload, hHeader⟩ := hReady h.memoryAllocated
  unfold unregisterMemoryCall RmaxBaseMemoryStrategy.memRegions released
  rw [if_neg (by simp [h.appAllocatedMemory, h.registerMemory, hFlag]), if_pos hPayload,
    List.map_append, h.headerMemRegions, h.payloadMemRegions, List.map_map]
  -- there is a header buffer exactly if there are headers
  by_cases hSize : s.headerMemorySize ≠ 0
  · rw [if_pos hSize]
    dsimp only
    rw [if_pos (hHeader.mpr hSize), List.map_map]
    rfl
  · rw [if_neg hSize]
    dsimp only
    rw [if_neg (mt hHeader.mp hSize)]
    rfl

/-- What a true flag says is undone. -/
theorem FlagTrue.unregisterMemory (h : FlagTrue s held) :
    let call := s.unregisterMemoryCall
    Allowed held call.events ∧ after held call.events = ∅ ∧
      FlagTrue call.strategy (after held call.events) := by
  dsimp only
  -- with the flag up all regions are held, with the flag down none
  by_cases hFlag : s.memoryRegistered = true
  · have hAll := h.flagged hFlag
    have hEvents := events_unregisterMemoryCall hAll h.ready hFlag
    have hEmpty : after held s.unregisterMemoryCall.events = ∅ := by
      refine Finset.eq_empty_of_forall_notMem fun region hMem => ?_
      rw [hEvents, mem_after_release] at hMem
      exact hMem.2 ((hAll.held region).mp hMem.1)
    refine ⟨?_, hEmpty, ?_⟩
    · rw [hEvents]
      exact allowed_release _ (nodup_memRegions s) fun region => (hAll.held region).mpr
    · rw [hEmpty]
      unfold unregisterMemoryCall
      rw [if_neg (by simp [hAll.appAllocatedMemory, hAll.registerMemory, hFlag])]
      exact ⟨h.ready, nofun, fun _ => rfl⟩
  · have hNone : held = ∅ := h.unflagged (Bool.not_eq_true _ ▸ hFlag)
    have hSkip : s.unregisterMemoryCall = { strategy := s } :=
      if_pos (Or.inr (Or.inr hFlag))
    rw [hSkip]
    exact ⟨trivial, hNone, h⟩

/-- A call that is refused behind its first region leaves that region. -/
theorem regionLeft_of_refused {rmxRegisterMemory : MemRegion → Option Nat} (hReg : s.Registers)
    (hBroken : ¬ AllOrNothing rmxRegisterMemory s.memRegions) :
    let call := s.registerMemoryCall rmxRegisterMemory
    RegionLeft call.strategy (after held call.events) := by
  have hSpec := registerMemoryCall_spec hReg rmxRegisterMemory
  rw [AllOrNothing, not_or] at hBroken
  -- some region is refused, but not the first
  obtain ⟨hNotAll, hFirst⟩ := hBroken
  have hNot : (s.registerMemoryCall rmxRegisterMemory).strategy.memoryRegistered = false :=
    Bool.eq_false_iff.mpr fun hFlag => hNotAll (hSpec.registered.mp hFlag)
  refine ⟨registers_of_same hSpec.same hReg hNot, ?_⟩
  rw [hSpec.same.memRegions, hSpec.events]
  cases hRegions : s.memRegions with
  | nil =>
    rw [hRegions] at hFirst
    exact absurd nofun hFirst
  | cons region regions =>
    rw [hRegions] at hFirst
    have hTaken : (rmxRegisterMemory region).isSome = true := by
      rw [Option.isSome_iff_ne_none]
      exact fun hRefused => hFirst fun other hOther => Option.some.inj hOther ▸ hRefused
    refine ⟨region, rfl, ?_⟩
    rw [mem_after_acquire, List.takeWhile_cons, if_pos hTaken]
    exact Or.inr List.mem_cons_self

/-- A region that is left stays, or is registered a second time. -/
theorem RegionLeft.registerMemory (h : RegionLeft s held)
    (rmxRegisterMemory : MemRegion → Option Nat) :
    let call := s.registerMemoryCall rmxRegisterMemory
    Allowed held call.events → RegionLeft call.strategy (after held call.events) := by
  intro call hAllowed
  have hSpec := registerMemoryCall_spec h.registers rmxRegisterMemory
  obtain ⟨region, hHead, hHeld⟩ := h.first
  obtain ⟨regions, hRegions⟩ := List.head?_eq_some_iff.mp hHead
  -- the first region is refused, or acquired while it is held
  cases hKey : rmxRegisterMemory region with
  | none =>
    have hNone : call.events = [] := by
      rw [hSpec.events, hRegions, List.takeWhile_cons_of_neg (by simp [hKey]), List.map_nil]
    have hNot : call.strategy.memoryRegistered = false :=
      Bool.eq_false_iff.mpr fun hFlag =>
        hSpec.registered.mp hFlag region (hRegions ▸ List.mem_cons_self) hKey
    refine ⟨registers_of_same hSpec.same h.registers hNot, region, ?_, ?_⟩
    · rw [hSpec.same.memRegions]
      exact hHead
    · rwa [hNone]
  | some mkey =>
    rw [hSpec.events, hRegions, List.takeWhile_cons_of_pos (by simp [hKey])] at hAllowed
    exact absurd hHeld hAllowed.1

end Steps

/-! ## Runs of calls -/

section Runs

variable {s : RmaxBaseMemoryStrategy} {held : Finset MemRegion}

/-- What is left is left at the end, where `unregister_memory` does nothing. -/
theorem RegionLeft.not_undone (h : RegionLeft s held) (calls : List MemoryCall) :
    ¬ RegistrationUndone s held (calls ++ [.unregisterMemory]) := by
  -- the flag is down, so the call returns at once
  have hSkip : ∀ s : RmaxBaseMemoryStrategy, s.Registers →
      s.unregisterMemoryCall = { strategy := s } := fun s hReg =>
    if_pos (Or.inr (Or.inr (by simp [hReg.2.2.1])))
  have hSome : ∀ {s held}, RegionLeft s held → held ≠ ∅ := fun h hEmpty => by
    obtain ⟨region, -, hMem⟩ := h.first
    exact Finset.notMem_empty region (hEmpty ▸ hMem)
  induction calls generalizing s held with
  | nil =>
    rintro ⟨-, hEmpty, -⟩
    dsimp only [MemoryCall.call] at hEmpty
    rw [hSkip s h.registers] at hEmpty
    exact hSome h hEmpty
  | cons call calls ih =>
    rintro ⟨hAllowed, hEmpty, hRest⟩
    cases call with
    | registerMemory rmxRegisterMemory =>
      exact ih (h.registerMemory rmxRegisterMemory hAllowed) hRest
    | unregisterMemory =>
      dsimp only [MemoryCall.call] at hEmpty
      rw [hSkip s h.registers] at hEmpty
      exact hSome h hEmpty

/-- As long as calls are whole, the flag is true. -/
theorem FlagTrue.undone_iff (h : FlagTrue s held) (calls : List MemoryCall) :
    RegistrationUndone s held (calls ++ [.unregisterMemory]) ↔ RegistrationsWhole s calls := by
  induction calls generalizing s held with
  | nil =>
    obtain ⟨hAllowed, hEmpty, -⟩ := h.unregisterMemory
    exact iff_of_true ⟨hAllowed, hEmpty, trivial⟩ trivial
  | cons call calls ih =>
    cases call with
    | unregisterMemory =>
      obtain ⟨hAllowed, hEmpty, hNext⟩ := h.unregisterMemory
      constructor
      · rintro ⟨-, -, hRest⟩
        exact ⟨trivial, (ih hNext).mp hRest⟩
      · rintro ⟨-, hRest⟩
        exact ⟨hAllowed, hEmpty, (ih hNext).mpr hRest⟩
    -- the first call that is not whole decides
    | registerMemory rmxRegisterMemory =>
      by_cases hWhole : s.Registers → AllOrNothing rmxRegisterMemory s.memRegions
      · obtain ⟨hAllowed, hNext⟩ := h.registerMemory hWhole
        constructor
        · rintro ⟨-, -, hRest⟩
          exact ⟨hWhole, (ih hNext).mp hRest⟩
        · rintro ⟨-, hRest⟩
          exact ⟨hAllowed, trivial, (ih hNext).mpr hRest⟩
      · push Not at hWhole
        obtain ⟨hReg, hBroken⟩ := hWhole
        refine iff_of_false ?_ fun hAll => hBroken (hAll.1 hReg)
        rintro ⟨-, -, hRest⟩
        exact (regionLeft_of_refused hReg hBroken).not_undone calls hRest

end Runs

/-- **Registration is undone.** For a strategy whose memory was allocated or not,
and every series of calls with every answers of the library: the calls and a last
`unregister_memory` keep the promise exactly if each call that reaches the library
registers all regions, or is refused the first one. -/
theorem registrationUndone_iff {s : RmaxBaseMemoryStrategy} (hNew : s.memoryAllocated = false)
    (hNone : s.memoryRegistered = false) (calls : List MemoryCall) :
    RegistrationUndone s.afterAllocation ∅ (calls ++ [.unregisterMemory]) ↔
      RegistrationsWhole s.afterAllocation calls := by
  have hFlag := (memoryRegistered_afterAllocation s).trans hNone
  refine FlagTrue.undone_iff ⟨buffersReady_afterAllocation hNew, fun h => ?_, fun _ => rfl⟩ calls
  exact absurd (hFlag.symm.trans h) Bool.false_ne_true

/-- Two buffers of a page, for two interfaces. -/
def pageStrategy : RmaxBaseMemoryStrategy :=
  { create { pageSize := 4096, allocate := fun _ => 4096 }
      { pageSize := 4096, allocate := fun _ => 65536 } 2 true true [] with
    memoryLayoutDetermined := true
    headerMemorySize := 4096
    payloadMemorySize := 8192 }

/-- A refusal of the first region, a call that succeeds, and a second one. -/
theorem registrationUndone_pageStrategy :
    RegistrationUndone pageStrategy.afterAllocation ∅
        ([.registerMemory fun _ => none, .registerMemory fun _ => some 1,
          .registerMemory fun _ => some 2] ++ [.unregisterMemory]) := by
  refine (registrationUndone_iff rfl rfl _).mpr ?_
  refine ⟨fun _ => .inr fun region _ => rfl, fun _ => .inl fun region _ => ?_, fun _ =>
    .inl fun region _ => ?_, trivial⟩
  · exact Option.some_ne_none 1
  · exact Option.some_ne_none 2

/-- The second interface refuses the payload, and three regions stay registered. -/
theorem regions_left_by_refused_payload :
    let refuse : MemRegion → Option Nat :=
      fun region => if region = (.payload, 1) then none else some 7
    let call := registerMemoryCall refuse pageStrategy.afterAllocation
    call.strategy.unregisterMemoryCall.events = [] ∧
      after ∅ call.events = {(.header, 0), (.header, 1), (.payload, 0)} ∧
      ¬ RegistrationUndone pageStrategy.afterAllocation ∅
        [.registerMemory refuse, .unregisterMemory] := by
  refine ⟨rfl, by decide, ?_⟩
  rintro ⟨-, -, -, hEmpty, -⟩
  -- three regions are left
  exact absurd hEmpty (by decide)

end RmaxBaseMemoryStrategy

end RivermaxDevKit
