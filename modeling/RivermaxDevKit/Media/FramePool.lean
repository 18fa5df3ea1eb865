import RivermaxDevKit.Lib.Custody
import RivermaxDevKit.Media.FileFrameProvider

/-!
# Frame pool

`MediaFramePool` (`media_frame_pool.cpp`): a block of memory cut into frames,
whose indices wait in a queue. A frame that was handed out comes back when the
last reference to it goes away.

* `Use.Owned.step` — every index waits or is out, whatever call comes next.
* `frames_partition_iff` — the frames are parts of the block, unless its size
  wraps.
* `sound_iff` — both over whole runs of a pool.

The lock makes each call a step of its own, and a blocked caller is a call that
waits. Pointers are addresses; what is added to one is a `size_t`.
-/

namespace RivermaxDevKit

structure MediaFramePool where
  memoryBlock : Nat
  frameSize : Nat
  frameCount : Nat
  totalMemorySize : Nat
  allFrames : List MediaFrame
  availableIndices : List Nat
  inDestruction : Bool := false
  stopped : Bool := false
  deriving DecidableEq

namespace MediaFramePool

/-! ## Construction -/

/-- Where the memory comes from. -/
inductive Source
  | allocator (memAllocator : MemoryAllocator)
  /-- External memory. -/
  | block (memoryBlock memorySize : Nat)

/-- The loop over the indices. -/
def cutFrames (memoryBlock frameCount frameSize : Nat) : List MediaFrame :=
  (List.range frameCount).map fun i => ⟨memoryBlock + sizeT (i * frameSize), frameSize⟩

/-- The members behind the checks of the constructors. -/
def ofMemory (frameCount frameSize totalMemorySize memoryBlock : Nat) : MediaFramePool where
  memoryBlock := memoryBlock
  frameSize := frameSize
  frameCount := frameCount
  totalMemorySize := totalMemorySize
  allFrames := cutFrames memoryBlock frameCount frameSize
  availableIndices := List.range frameCount

/-- The constructors, which throw in the case `none`; `reserves` tells for how
many frames there is memory to keep track of. -/
def create (reserves : Nat → Bool) (frameCount frameSize : Nat) :
    Source → Option MediaFramePool
  | .allocator a =>
    let totalMemorySize := a.alignLength (sizeT (frameCount * frameSize))
    let memoryBlock := a.allocateAligned totalMemorySize a.pageSize
    if memoryBlock = 0 then none
    else if reserves frameCount then
      some (ofMemory frameCount frameSize totalMemorySize memoryBlock)
    else none
  | .block memoryBlock memorySize =>
    let totalMemorySize := sizeT (frameCount * frameSize)
    if memoryBlock = 0 then none
    else if memorySize < totalMemorySize then none
    else if reserves frameCount then
      some (ofMemory frameCount frameSize totalMemorySize memoryBlock)
    else none

theorem create_allocator {reserves : Nat → Bool} {frameCount frameSize : Nat}
    {a : MemoryAllocator} {pool : MediaFramePool}
    (h : create reserves frameCount frameSize (.allocator a) = some pool) :
    pool = ofMemory frameCount frameSize (a.alignLength (sizeT (frameCount * frameSize)))
      (a.allocateAligned (a.alignLength (sizeT (frameCount * frameSize))) a.pageSize) := by
  simp only [create] at h
  split_ifs at h
  exact (Option.some.inj h).symm

theorem create_block {reserves : Nat → Bool} {frameCount frameSize memoryBlock memorySize : Nat}
    {pool : MediaFramePool}
    (h : create reserves frameCount frameSize (.block memoryBlock memorySize) = some pool) :
    sizeT (frameCount * frameSize) ≤ memorySize ∧
      pool = ofMemory frameCount frameSize (sizeT (frameCount * frameSize)) memoryBlock := by
  simp only [create] at h
  split_ifs at h with hNull hEnough hReserves
  exact ⟨not_lt.mp hEnough, (Option.some.inj h).symm⟩

/-! ## Calls -/

variable (p : MediaFramePool)

/-- The deleter of a frame that was handed out. -/
def returnFrameToPool (index : Nat) : MediaFramePool :=
  if p.inDestruction ∨ p.stopped then p
  else { p with availableIndices := p.availableIndices ++ [index] }

/-- The index of the frame that is returned; `none` is `nullptr`. -/
def getFrame : Option Nat × MediaFramePool :=
  match p.availableIndices with
  | [] => (none, p)
  | index :: rest =>
    if p.stopped then (none, p) else (some index, { p with availableIndices := rest })

/-- `none` as long as the caller is blocked. -/
def getFrameBlocking : Option (Option Nat × MediaFramePool) :=
  match p.availableIndices with
  | [] => if p.stopped then some (none, p) else none
  | index :: rest =>
    some (if p.stopped then (none, p) else (some index, { p with availableIndices := rest }))

def stop : MediaFramePool := { p with stopped := true }

/-! ## Runs -/

/-- A pool in use: the indices of the frames that are out, one for each `shared_ptr`
that came from it. -/
structure Use where
  pool : MediaFramePool
  outstanding : List Nat := []

inductive Event
  | getFrame
  | getFrameBlocking
  /-- The last reference to an outstanding frame goes away. -/
  | release (position : Nat)

namespace Use

/-- A frame, if there is one, goes out. -/
def handOut (u : Use) (result : Option Nat × MediaFramePool) : Use :=
  ⟨result.2, u.outstanding ++ result.1.toList⟩

def step (u : Use) : Event → Use
  | .getFrame => u.handOut u.pool.getFrame
  | .getFrameBlocking =>
    match u.pool.getFrameBlocking with
    | none => u
    | some result => u.handOut result
  | .release position =>
    match u.outstanding[position]? with
    | none => u
    | some index => ⟨u.pool.returnFrameToPool index, u.outstanding.eraseIdx position⟩

/-- The state behind each event of a run. -/
def run (u : Use) (events : List Event) : Use := events.foldl step u

/-- Every index waits exactly once or belongs to exactly one frame that is out,
and a request fails exactly if all are out. -/
structure Owned (u : Use) : Prop where
  once : ∀ i < u.pool.frameCount,
    u.pool.availableIndices.count i = 1 ∧ u.outstanding.count i = 0 ∨
      u.pool.availableIndices.count i = 0 ∧ u.outstanding.count i = 1
  lt : ∀ i, i ∈ u.pool.availableIndices ∨ i ∈ u.outstanding → i < u.pool.frameCount
  null : u.pool.getFrame.1 = none ↔ u.outstanding.length = u.pool.frameCount
  waits : u.pool.getFrameBlocking = none ↔ u.outstanding.length = u.pool.frameCount

end Use

/-- The memory of frame `i` is the `i`-th part of the block. -/
def frameMemory : List Region := p.allFrames.map fun f => ⟨f.data, f.size⟩

/-- The memory the frames may use: what the allocator gave, or the external block. -/
def Source.memory (frameCount frameSize : Nat) : Source → Region
  | .allocator a =>
    let length := sizeT (a.alignLength (sizeT (frameCount * frameSize)) + a.pageSize)
    ⟨a.allocate length, length⟩
  | .block memoryBlock memorySize => ⟨memoryBlock, memorySize⟩

/-- Indices have one owner each, and a memory of their own in the block. -/
structure Use.Sound (memory : Region) (u : Use) : Prop where
  owned : u.Owned
  frames : u.pool.frameMemory.length = u.pool.frameCount
  partition : Region.Partition memory u.pool.frameMemory

/-! ## Ownership -/

@[simp]
theorem returnFrameToPool_allFrames (p : MediaFramePool) (index : Nat) :
    (p.returnFrameToPool index).allFrames = p.allFrames := by
  unfold returnFrameToPool
  split <;> rfl

/-- What is fixed once the pool is constructed, and before it is stopped. -/
structure Serving (p q : MediaFramePool) : Prop where
  frameCount_eq : q.frameCount = p.frameCount
  allFrames_eq : q.allFrames = p.allFrames
  running : q.stopped = false
  alive : q.inDestruction = false

variable {p}

theorem getFrame_of_eq_nil (hEmpty : p.availableIndices = []) : p.getFrame = (none, p) := by
  rw [getFrame, hEmpty]

theorem getFrame_of_eq_cons {index : Nat} {rest : List Nat} (hRunning : p.stopped = false)
    (hNext : p.availableIndices = index :: rest) :
    p.getFrame = (some index, { p with availableIndices := rest }) := by
  rw [getFrame, hNext]
  simp [hRunning]

/-- While the pool runs, a request that blocks differs in that it waits. -/
theorem getFrameBlocking_eq (hRunning : p.stopped = false) :
    p.getFrameBlocking = if p.availableIndices = [] then none else some p.getFrame := by
  unfold getFrameBlocking getFrame
  cases p.availableIndices <;> simp [hRunning]

theorem getFrame_eq_none_iff (hRunning : p.stopped = false) :
    p.getFrame.1 = none ↔ p.availableIndices = [] := by
  unfold getFrame
  cases p.availableIndices <;> simp [hRunning]

namespace Use

/-- A pool in use since it was constructed as `p`. -/
structure Kept (p : MediaFramePool) (u : Use) : Prop where
  serving : Serving p u.pool
  custody : InCustody p.frameCount u.pool.availableIndices u.outstanding

theorem Kept.getFrame {u : Use} (h : Kept p u) : Kept p (u.handOut u.pool.getFrame) := by
  cases hNext : u.pool.availableIndices with
  | nil =>
    rw [getFrame_of_eq_nil hNext]
    exact ⟨h.serving, by simpa [handOut] using h.custody⟩
  | cons index rest =>
    rw [getFrame_of_eq_cons h.serving.running hNext]
    obtain ⟨hCount, hFrames, hRunning, hAlive⟩ := h.serving
    exact ⟨⟨hCount, hFrames, hRunning, hAlive⟩, (hNext ▸ h.custody).take⟩

theorem Kept.release {u : Use} (h : Kept p u) {position index : Nat}
    (hIndex : u.outstanding[position]? = some index) :
    Kept p ⟨u.pool.returnFrameToPool index, u.outstanding.eraseIdx position⟩ := by
  obtain ⟨hCount, hFrames, hRunning, hAlive⟩ := h.serving
  have hReturn : u.pool.returnFrameToPool index =
      { u.pool with availableIndices := u.pool.availableIndices ++ [index] } :=
    if_neg (by simp [hRunning, hAlive])
  rw [hReturn]
  exact ⟨⟨hCount, hFrames, hRunning, hAlive⟩, h.custody.put_eraseIdx hIndex⟩

theorem Kept.step {u : Use} (h : Kept p u) (event : Event) : Kept p (u.step event) := by
  cases event with
  | getFrame => exact h.getFrame
  | getFrameBlocking =>
    rw [Use.step, getFrameBlocking_eq h.serving.running]
    by_cases hEmpty : u.pool.availableIndices = []
    · rw [if_pos hEmpty]
      exact h
    · rw [if_neg hEmpty]
      exact h.getFrame
  | release position =>
    rw [Use.step]
    cases hIndex : u.outstanding[position]? with
    | none => exact h
    | some index => exact h.release hIndex

theorem Kept.run {u : Use} (h : Kept p u) (events : List Event) : Kept p (u.run events) := by
  induction events generalizing u with
  | nil => exact h
  | cons event events ih => exact ih (h.step event)

/-- Items in custody are owned. -/
theorem Kept.owned {u : Use} (h : Kept p u) : Owned u := by
  obtain ⟨⟨hCount, -, hRunning, -⟩, hCustody⟩ := h
  rw [← hCount] at hCustody
  have hNull : u.pool.availableIndices = [] ↔ u.outstanding.length = u.pool.frameCount :=
    hCustody.eq_nil_iff
  refine ⟨?_, fun i => hCustody.lt, (getFrame_eq_none_iff hRunning).trans hNull, ?_⟩
  · intro i hi
    have hOnce := hCustody.count_add_count hi
    omega
  · rw [getFrameBlocking_eq hRunning, ← hNull]
    split <;> simp_all

end Use

/-! ## Memory -/

theorem map_cutFrames {memoryBlock frameCount frameSize : Nat}
    (hFits : frameCount * frameSize < 2 ^ 64) :
    (cutFrames memoryBlock frameCount frameSize).map (fun f => ⟨f.data, f.size⟩) =
      Region.carve memoryBlock (List.replicate frameCount frameSize) := by
  rw [cutFrames, List.map_map, Region.carve_replicate]
  refine List.map_congr_left fun i hi => ?_
  have hLe := Nat.mul_le_mul_right frameSize (List.mem_range.mp hi).le
  rw [Function.comp_apply, sizeT_of_lt (by omega)]

/-- Frames that do not meet take up their sizes together. -/
theorem mul_le_of_partition {whole : Region} {memoryBlock frameCount frameSize : Nat}
    (h : Region.Partition whole
      ((cutFrames memoryBlock frameCount frameSize).map fun f => ⟨f.data, f.size⟩)) :
    frameCount * frameSize ≤ whole.length := by
  have hSum := h.sum_length_le
  have hSizes : ((cutFrames memoryBlock frameCount frameSize).map
      (fun f => (⟨f.data, f.size⟩ : Region))).map Region.length =
        List.replicate frameCount frameSize := by
    simp [cutFrames, Function.comp_def, List.map_const']
  rwa [hSizes, List.sum_replicate, Nat.nsmul_eq_mul] at hSum

/-- What the operating system gives: pages of a power of two, and memory below
the end of the address space. -/
structure Proper (a : MemoryAllocator) : Prop where
  pos : 0 < a.pageSize
  dvd : a.pageSize ∣ 2 ^ 64
  lt : a.pageSize < 2 ^ 64
  space : ∀ n, a.allocate n ≠ 0 → a.allocate n + n ≤ 2 ^ 64

theorem Proper.le_half {a : MemoryAllocator} (h : Proper a) : a.pageSize ≤ 2 ^ 63 := by
  obtain ⟨pages, hPages⟩ := h.dvd
  have hLt := h.lt
  -- there are two pages at least
  have hTwo : 2 ≤ pages := by
    rcases pages with - | - | pages
    · omega
    · omega
    · omega
  have hLe := Nat.mul_le_mul_left a.pageSize hTwo
  omega

/-- The pages of the frames, and one more to align them, can be asked for. -/
def Source.Fits (frameCount frameSize : Nat) : Source → Prop
  | .allocator a => alignUpPow2 (frameCount * frameSize) a.pageSize + a.pageSize < 2 ^ 64
  | .block _ _ => frameCount * frameSize < 2 ^ 64

def Source.Proper : Source → Prop
  | .allocator a => MediaFramePool.Proper a
  | .block _ memorySize => memorySize < 2 ^ 64

instance (frameCount frameSize : Nat) (source : Source) :
    Decidable (source.Fits frameCount frameSize) := by
  cases source <;> unfold Source.Fits <;> infer_instance

/-- Aligned memory lies within what was allocated. -/
theorem allocateAligned_inside {a : MemoryAllocator} (hProper : Proper a) {length : Nat}
    (hLength : length + a.pageSize < 2 ^ 64) :
    Region.Inside ⟨a.allocateAligned length a.pageSize, length⟩
      ⟨a.allocate (length + a.pageSize), length + a.pageSize⟩ := by
  have hRest := Nat.mod_lt (a.allocate (length + a.pageSize)) hProper.pos
  have hSpace := hProper.space (length + a.pageSize)
  -- it starts less than a page behind
  have hStart : a.allocate (length + a.pageSize) ≤ a.allocateAligned length a.pageSize ∧
      a.allocateAligned length a.pageSize ≤ a.allocate (length + a.pageSize) + a.pageSize := by
    unfold MemoryAllocator.allocateAligned
    rw [sizeT_of_lt hLength]
    dsimp only
    by_cases hAligned : a.allocate (length + a.pageSize) % a.pageSize = 0
    · rw [if_pos hAligned]
      omega
    · rw [if_neg hAligned]
      have hPtr : a.allocate (length + a.pageSize) ≠ 0 := by
        intro hZero
        rw [hZero, Nat.zero_mod] at hAligned
        exact hAligned rfl
      have hEnd := hSpace hPtr
      rw [sizeT_of_lt (by omega)]
      omega
  intro i hi
  have hLow := hi.1
  have hHigh := hi.2
  dsimp only at hLow hHigh
  exact ⟨by dsimp only; omega, by dsimp only; omega⟩

/-- Frames that were not fitted in take up more than what was allocated. -/
theorem lt_of_not_fits {a : MemoryAllocator} (hProper : Proper a) {frameCount frameSize : Nat}
    (hFits : ¬ (Source.allocator a).Fits frameCount frameSize) :
    ((Source.allocator a).memory frameCount frameSize).length < frameCount * frameSize := by
  have hHalf := hProper.le_half
  have hPage := hProper.pos
  show sizeT (a.alignLength (sizeT (frameCount * frameSize)) + a.pageSize) < _
  have hUp : 2 ^ 64 ≤ alignUpPow2 (frameCount * frameSize) a.pageSize + a.pageSize :=
    not_lt.mp hFits
  by_cases hProduct : frameCount * frameSize < 2 ^ 64
  swap
  · exact lt_of_lt_of_le (sizeT_lt _) (not_lt.mp hProduct)
  rw [sizeT_of_lt hProduct]
  by_cases hWrap : frameCount * frameSize + a.pageSize ≤ 2 ^ 64
  · -- rounding up ends where the last page starts, so that nothing is asked for
    rw [MemoryAllocator.alignLength_eq hPage hWrap]
    have hDown := Nat.div_mul_le_self (frameCount * frameSize + a.pageSize - 1) a.pageSize
    unfold alignUpPow2 at hUp
    obtain ⟨pages, hPages⟩ := hProper.dvd
    have hPositive : 0 < frameCount * frameSize := by
      by_contra hZero
      rw [Nat.eq_zero_of_not_pos hZero, Nat.zero_add, Nat.div_eq_of_lt (by omega)] at hUp
      omega
    have hLast : (frameCount * frameSize + a.pageSize - 1) / a.pageSize < pages := by
      apply Nat.lt_of_mul_lt_mul_right (a := a.pageSize)
      rw [Nat.mul_comm pages, ← hPages]
      omega
    have hNext := Nat.mul_le_mul_right a.pageSize (Nat.succ_le_of_lt hLast)
    rw [Nat.succ_mul, Nat.mul_comm pages, ← hPages] at hNext
    rw [Nat.le_antisymm hNext hUp]
    exact hPositive
  · rw [MemoryAllocator.alignLength_eq_zero hProper.dvd hProduct (by omega), Nat.zero_add,
      sizeT_of_lt hProper.lt]
    omega

/-- **Frames within the block.** The frames of a pool are parts of its memory
that do not meet exactly if their size, rounded up, does not wrap. -/
theorem frames_partition_iff {reserves : Nat → Bool} {frameCount frameSize : Nat}
    {source : Source} {pool : MediaFramePool}
    (hCreate : create reserves frameCount frameSize source = some pool)
    (hProper : source.Proper) :
    Region.Partition (source.memory frameCount frameSize) pool.frameMemory ↔
      source.Fits frameCount frameSize := by
  cases source with
  | allocator a =>
    rw [create_allocator hCreate, frameMemory]
    show Region.Partition _ ((cutFrames _ frameCount frameSize).map _) ↔ _
    constructor
    · intro hPartition
      by_contra hFits
      have hLe := mul_le_of_partition hPartition
      exact absurd (lt_of_not_fits hProper hFits) (not_lt.mpr hLe)
    · intro hFits
      have hPage : 0 < a.pageSize := hProper.pos
      have hUp : frameCount * frameSize ≤ alignUpPow2 (frameCount * frameSize) a.pageSize :=
        le_ceil_mul hPage
      have hRoom : alignUpPow2 (frameCount * frameSize) a.pageSize + a.pageSize < 2 ^ 64 := hFits
      have hAlign : a.alignLength (sizeT (frameCount * frameSize)) =
          alignUpPow2 (frameCount * frameSize) a.pageSize := by
        rw [sizeT_of_lt (by omega), MemoryAllocator.alignLength_eq hPage (by omega)]
        rfl
      have hMemory : (Source.allocator a).memory frameCount frameSize =
          ⟨a.allocate (alignUpPow2 (frameCount * frameSize) a.pageSize + a.pageSize),
            alignUpPow2 (frameCount * frameSize) a.pageSize + a.pageSize⟩ := by
        rw [Source.memory, hAlign, sizeT_of_lt hRoom]
      rw [hMemory, hAlign, map_cutFrames (by omega)]
      have hCut : Region.Partition
          ⟨a.allocateAligned (alignUpPow2 (frameCount * frameSize) a.pageSize) a.pageSize,
            alignUpPow2 (frameCount * frameSize) a.pageSize⟩
          (Region.carve (a.allocateAligned (alignUpPow2 (frameCount * frameSize) a.pageSize)
            a.pageSize) (List.replicate frameCount frameSize)) := by
        apply Region.partition_carve
        rw [List.sum_replicate, Nat.nsmul_eq_mul]
        exact hUp
      exact hCut.mono (allocateAligned_inside hProper hRoom)
  | block memoryBlock memorySize =>
    have hMemory : memorySize < 2 ^ 64 := hProper
    obtain ⟨hEnough, rfl⟩ := create_block hCreate
    rw [frameMemory]
    show Region.Partition _ ((cutFrames memoryBlock frameCount frameSize).map _) ↔ _
    constructor
    · intro hPartition
      exact lt_of_le_of_lt (mul_le_of_partition hPartition) hMemory
    · intro hFits
      have hProduct : frameCount * frameSize < 2 ^ 64 := hFits
      rw [sizeT_of_lt hProduct] at hEnough
      rw [map_cutFrames hProduct]
      apply @Region.partition_carve ⟨memoryBlock, memorySize⟩
      rw [List.sum_replicate, Nat.nsmul_eq_mul]
      exact hEnough

/-! ## Whole runs -/

theorem create_eq_ofMemory {reserves : Nat → Bool} {frameCount frameSize : Nat}
    {source : Source} {pool : MediaFramePool}
    (hCreate : create reserves frameCount frameSize source = some pool) :
    ∃ totalMemorySize memoryBlock,
      pool = ofMemory frameCount frameSize totalMemorySize memoryBlock := by
  cases source with
  | allocator a => exact ⟨_, _, create_allocator hCreate⟩
  | block memoryBlock memorySize => exact ⟨_, _, (create_block hCreate).2⟩

theorem kept_ofMemory (frameCount frameSize totalMemorySize memoryBlock : Nat) :
    Use.Kept (ofMemory frameCount frameSize totalMemorySize memoryBlock)
      ⟨ofMemory frameCount frameSize totalMemorySize memoryBlock, []⟩ where
  serving := ⟨rfl, rfl, rfl, rfl⟩
  custody := InCustody.range frameCount

/-- **Frame pool ownership.** Whatever is requested and released, every index
waits once or belongs to one frame that is out, in a memory of its own, exactly
if the size of the frames does not wrap. -/
theorem sound_iff {reserves : Nat → Bool} {frameCount frameSize : Nat} {source : Source}
    {pool : MediaFramePool} (hCreate : create reserves frameCount frameSize source = some pool)
    (hProper : source.Proper) :
    (∀ events, Use.Sound (source.memory frameCount frameSize) (Use.run ⟨pool, []⟩ events)) ↔
      source.Fits frameCount frameSize := by
  rw [← frames_partition_iff hCreate hProper]
  constructor
  · intro hSound
    exact (hSound []).partition
  · intro hPartition events
    obtain ⟨totalMemorySize, memoryBlock, rfl⟩ := create_eq_ofMemory hCreate
    have hKept := (kept_ofMemory frameCount frameSize totalMemorySize memoryBlock).run events
    obtain ⟨hCount, hFrames, -, -⟩ := hKept.serving
    -- the frames are still those of the constructor
    have hMemory : (Use.run ⟨ofMemory frameCount frameSize totalMemorySize memoryBlock, []⟩
        events).pool.frameMemory =
          (ofMemory frameCount frameSize totalMemorySize memoryBlock).frameMemory := by
      rw [frameMemory, hFrames]
      rfl
    refine ⟨hKept.owned, ?_, ?_⟩
    · rw [hMemory, hCount]
      simp [frameMemory, ofMemory, cutFrames]
    · rw [hMemory]
      exact hPartition

/-- Pages of 16 bytes, from address 64 on. -/
def smallAllocator : MemoryAllocator where
  pageSize := 16
  allocate := fun n => if n ≤ 1024 then 64 else 0

theorem proper_smallAllocator : Proper smallAllocator := by
  refine ⟨by decide, by decide, by decide, fun n hNull => ?_⟩
  simp only [smallAllocator] at hNull ⊢
  split at hNull
  · rw [if_pos ‹_›]
    omega
  · exact absurd rfl hNull

theorem sound_threeFrames :
    ∃ pool, create (fun _ => true) 3 20 (.allocator smallAllocator) = some pool ∧
      ∀ events, Use.Sound ((Source.allocator smallAllocator).memory 3 20)
        (Use.run ⟨pool, []⟩ events) := by
  have hCreate : create (fun _ => true) 3 20 (.allocator smallAllocator) =
      some (ofMemory 3 20 64 64) := by decide
  have hFits : (Source.allocator smallAllocator).Fits 3 20 := by decide
  exact ⟨_, hCreate, (sound_iff hCreate proper_smallAllocator).mpr hFits⟩

/-- Two frames of more than half the address space pass for one page. -/
theorem not_sound_twoFrames :
    ∃ pool, create (fun _ => true) 2 (2 ^ 63 + 2048) (.block 4096 4096) = some pool ∧
      ¬ Use.Sound ((Source.block 4096 4096).memory 2 (2 ^ 63 + 2048)) ⟨pool, []⟩ := by
  refine ⟨_, rfl, fun hSound => ?_⟩
  have hFirst : (⟨4096, 2 ^ 63 + 2048⟩ : Region) ∈
      (ofMemory 2 (2 ^ 63 + 2048) 4096 4096).frameMemory := by decide
  have hBehind := (hSound.partition.inside _ hFirst 8192 ⟨by decide, by decide⟩).2
  exact absurd hBehind (by decide)

end MediaFramePool

end RivermaxDevKit
