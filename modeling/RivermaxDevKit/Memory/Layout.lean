import RivermaxDevKit.Lib.Region
import RivermaxDevKit.Media.Settings

/-!
# Memory layout

Who asks for memory and how it is handed down: the strategy of the application
(`rmax_base_memory_strategy.cpp`), the IO nodes (`receiver_io_node_base.cpp`,
`media_sender_io_node.cpp`) and the receive streams (`receive_stream.cpp`,
`ipo_receive_stream.cpp`).

Sizes and pointers are `size_t`: every sum and product is taken modulo `2 ^ 64`,
and `0` is `nullptr`. A function that returns `ReturnStatus::failure` returns
`none`.
-/

namespace RivermaxDevKit

/-- What `size_t` keeps of a sum or a product. -/
def sizeT (n : Nat) : Nat := n % 2 ^ 64

theorem sizeT_of_lt {n : Nat} (h : n < 2 ^ 64) : sizeT n = n := Nat.mod_eq_of_lt h

theorem sizeT_lt (n : Nat) : sizeT n < 2 ^ 64 := Nat.mod_lt _ (by decide)

/-! ## Allocators -/

/-- A `MemoryAllocator`; `allocate` belongs to the operating system. -/
structure MemoryAllocator where
  pageSize : Nat
  allocate : Nat → Nat
  /-- The allocator is a `HugePagesMemoryAllocator`. -/
  hugePages : Bool := false

namespace MemoryAllocator

variable (a : MemoryAllocator)

def allocateAligned (length alignment : Nat) : Nat :=
  let ptr := a.allocate (sizeT (length + alignment))
  let remainder := ptr % alignment
  if remainder = 0 then ptr else sizeT (ptr + (alignment - remainder))

/-- `align_length`, and the override of `HugePagesMemoryAllocator`. -/
def alignLength (length : Nat) : Nat :=
  if a.hugePages then
    let factor := length / a.pageSize
    let factor := sizeT (factor + if length % a.pageSize > 0 then 1 else 0)
    sizeT (factor * a.pageSize)
  else
    sizeT (sizeT (length + a.pageSize - 1) / a.pageSize * a.pageSize)

/-- Rounding up to pages, unless it wraps. -/
theorem alignLength_eq {a : MemoryAllocator} {length : Nat} (hPage : 0 < a.pageSize)
    (hLt : length + a.pageSize ≤ 2 ^ 64) :
    a.alignLength length = (length + a.pageSize - 1) / a.pageSize * a.pageSize := by
  have hDown := Nat.div_mul_le_self (length + a.pageSize - 1) a.pageSize
  unfold alignLength
  split
  · -- huge pages are counted first
    have hFactor : length / a.pageSize + (if length % a.pageSize > 0 then 1 else 0) =
        (length + a.pageSize - 1) / a.pageSize := by
      have hSplit := Nat.div_add_mod length a.pageSize
      have hRest := Nat.mod_lt length hPage
      rw [eq_comm, Nat.div_eq_iff hPage, Nat.add_mul]
      rw [Nat.mul_comm] at hSplit
      split <;> omega
    have hCount := Nat.le_mul_of_pos_right ((length + a.pageSize - 1) / a.pageSize) hPage
    dsimp only
    rw [hFactor, sizeT_of_lt (show (length + a.pageSize - 1) / a.pageSize < 2 ^ 64 by omega),
      sizeT_of_lt (by omega)]
  -- other pages are rounded up in one step
  · rw [sizeT_of_lt (show length + a.pageSize - 1 < 2 ^ 64 by omega), sizeT_of_lt (by omega)]

/-- Rounding up takes nothing away. -/
theorem le_alignLength {a : MemoryAllocator} {length : Nat} (hPage : 0 < a.pageSize)
    (hLt : length + a.pageSize ≤ 2 ^ 64) : length ≤ a.alignLength length := by
  rw [alignLength_eq hPage hLt]
  exact le_ceil_mul hPage

/-- Rounding up past the last address leaves nothing. -/
theorem alignLength_eq_zero {a : MemoryAllocator} {length : Nat} (hPage : a.pageSize ∣ 2 ^ 64)
    (hLength : length < 2 ^ 64) (hWrap : 2 ^ 64 < length + a.pageSize) :
    a.alignLength length = 0 := by
  have hPos := Nat.pos_of_dvd_of_pos hPage (by decide)
  have hLe := Nat.le_of_dvd (by decide) hPage
  obtain ⟨pages, hPages⟩ := hPage
  unfold alignLength
  split
  · -- all pages are needed, and they are together `2 ^ 64`
    have hFactor : length / a.pageSize + (if length % a.pageSize > 0 then 1 else 0) = pages := by
      obtain ⟨before, rfl⟩ : ∃ before, pages = before + 1 :=
        Nat.exists_eq_succ_of_ne_zero (by rintro rfl; omega)
      rw [Nat.mul_succ] at hPages
      have hDiv : length / a.pageSize = before := by
        rw [Nat.div_eq_iff hPos, Nat.mul_comm]
        omega
      have hSplit := Nat.div_add_mod length a.pageSize
      rw [hDiv] at hSplit
      rw [hDiv, if_pos (by omega)]
    dsimp only
    rw [hFactor]
    show pages % 2 ^ 64 * a.pageSize % 2 ^ 64 = 0
    rw [Nat.mod_mul_mod, Nat.mul_comm, ← hPages, Nat.mod_self]
  · have hRest : sizeT (length + a.pageSize - 1) < a.pageSize := by
      unfold sizeT
      omega
    rw [Nat.div_eq_of_lt hRest, Nat.zero_mul]
    rfl

end MemoryAllocator

structure IONodeMemoryUtils where
  headerAllocator : MemoryAllocator
  payloadAllocator : MemoryAllocator

namespace IONodeMemoryUtils

variable (u : IONodeMemoryUtils)

def alignBufferSizes (sizes : Nat × Nat) : Nat × Nat :=
  (u.headerAllocator.alignLength sizes.1, u.payloadAllocator.alignLength sizes.2)

def getAlignedPayloadSize (size : Nat) : Nat := u.payloadAllocator.alignLength size

end IONodeMemoryUtils

/-- `HeaderPayloadMemoryLayout`: the memory a component is given. -/
structure HeaderPayloadMemoryLayout where
  headerMemoryPtr : Nat
  payloadMemoryPtr : Nat
  headerMemorySize : Nat
  payloadMemorySize : Nat
  registerMemory : Bool := false
  /-- `none` is `RMX_MKEY_INVALID`. -/
  headerMemoryKeys : List (Option Nat) := []
  payloadMemoryKeys : List (Option Nat) := []
  deriving Repr

/-- The memory a leaf ends up with: a receive stream, or a block of a send
stream, which without header-data split has no header region. -/
structure LeafMemory where
  requested : Nat × Nat
  header : Option Region
  payload : Region
  deriving DecidableEq, Repr

/-! ## Receive streams -/

/-- A `ReceiveStream` after `rmx_input_determine_mem_layout`: the lengths of its
memory blocks, which Rivermax determines. -/
structure ReceiveStream where
  headerBlock : Option Nat
  payloadBlock : Option Nat
  headerStrideSize : Nat := 0
  payloadStrideSize : Nat := 0

namespace ReceiveStream

variable (s : ReceiveStream)

def determineMemoryLayout : Option (Nat × Nat) :=
  match s.payloadBlock with
  | none => none
  | some payloadBufferSize => some (s.headerBlock.getD 0, payloadBufferSize)

def validateMemoryLayout (layout : HeaderPayloadMemoryLayout) : Option (Nat × Nat) :=
  if layout.registerMemory ∧
      (layout.headerMemoryKeys.length ≠ 1 ∨ layout.payloadMemoryKeys.length ≠ 1) then none
  else match s.determineMemoryLayout with
    | none => none
    | some sizes =>
      if layout.headerMemorySize < sizes.1 ∨ layout.payloadMemorySize < sizes.2 then none
      else some sizes

def applyMemoryLayout (layout : HeaderPayloadMemoryLayout) : Option LeafMemory :=
  match s.validateMemoryLayout layout with
  | none => none
  | some sizes =>
    some { requested := sizes
           header := some ⟨layout.headerMemoryPtr, layout.headerMemorySize⟩
           payload := ⟨layout.payloadMemoryPtr, layout.payloadMemorySize⟩ }

end ReceiveStream

/-- An `IPOReceiveStream`: its sub-streams, one for each path, receive the same
packets into the same memory. -/
structure IPOReceiveStream where
  streams : List ReceiveStream

namespace IPOReceiveStream

/-- `initialize_memory_layout`: the redundant streams have equal sizes. The
constructor throws where it fails. -/
def initializeMemoryLayout (s : IPOReceiveStream) : Option (Nat × Nat) :=
  match s.streams with
  | [] => some (0, 0)
  | first :: rest =>
    match first.determineMemoryLayout with
    | none => none
    | some sizes =>
      -- all the paths write into the memory of the first
      if rest.all fun stream => stream.determineMemoryLayout = some sizes ∧
          stream.headerStrideSize = first.headerStrideSize ∧
          stream.payloadStrideSize = first.payloadStrideSize
      then some sizes else none

def determineMemoryLayout (s : IPOReceiveStream) : Option (Nat × Nat) :=
  match s.initializeMemoryLayout with
  | none => none
  | some sizes => if sizes.2 = 0 then none else some sizes

def validateMemoryLayout (s : IPOReceiveStream) (layout : HeaderPayloadMemoryLayout) :
    Option (Nat × Nat) :=
  if layout.registerMemory ∧ (layout.headerMemoryKeys.length ≠ s.streams.length ∨
      layout.payloadMemoryKeys.length ≠ s.streams.length) then none
  else match s.determineMemoryLayout with
    | none => none
    | some sizes =>
      if layout.headerMemorySize < sizes.1 ∨ layout.payloadMemorySize < sizes.2 then none
      else some sizes

/-- The layout of sub-stream `i`: its own keys, the common memory. -/
def subStreamMemoryLayout (layout : HeaderPayloadMemoryLayout) (i : Nat) :
    HeaderPayloadMemoryLayout :=
  { layout with
    headerMemoryKeys := if layout.registerMemory then layout.headerMemoryKeys[i]?.toList else []
    payloadMemoryKeys :=
      if layout.registerMemory then layout.payloadMemoryKeys[i]?.toList else [] }

def applyMemoryLayout (s : IPOReceiveStream) (layout : HeaderPayloadMemoryLayout) :
    Option LeafMemory :=
  match s.validateMemoryLayout layout with
  | none => none
  | some sizes =>
    if s.streams.zipIdx.all fun stream =>
        (stream.1.applyMemoryLayout (subStreamMemoryLayout layout stream.2)).isSome
    then some { requested := sizes
                header := some ⟨layout.headerMemoryPtr, layout.headerMemorySize⟩
                payload := ⟨layout.payloadMemoryPtr, layout.payloadMemorySize⟩ }
    else none

end IPOReceiveStream

/-- `IReceiveStream`. -/
inductive IReceiveStream
  | single (stream : ReceiveStream)
  | ipo (stream : IPOReceiveStream)

namespace IReceiveStream

def determineMemoryLayout : IReceiveStream → Option (Nat × Nat)
  | single stream => stream.determineMemoryLayout
  | ipo stream => stream.determineMemoryLayout

def applyMemoryLayout (layout : HeaderPayloadMemoryLayout) : IReceiveStream → Option LeafMemory
  | single stream => stream.applyMemoryLayout layout
  | ipo stream => stream.applyMemoryLayout layout

end IReceiveStream

/-! ## Receiver IO node -/

structure ReceiverIONodeBase where
  streams : List IReceiveStream
  memoryUtils : IONodeMemoryUtils
  alignedHeaderPayloadBuffersSize : List (Nat × Nat) := []
  headerTotalMemorySize : Nat := 0
  payloadTotalMemorySize : Nat := 0

namespace ReceiverIONodeBase

/-- The loop of `initialize_memory_layout`: the aligned sizes of the streams and
their sums. -/
def initializeStreams (utils : IONodeMemoryUtils) :
    List IReceiveStream → (header payload : Nat) → Option (List (Nat × Nat) × Nat × Nat)
  | [], header, payload => some ([], header, payload)
  | stream :: streams, header, payload =>
    match stream.determineMemoryLayout with
    | none => none
    | some request =>
      -- each stream is aligned, and the sums are of aligned sizes
      let sizes := utils.alignBufferSizes request
      match initializeStreams utils streams (sizeT (header + sizes.1))
          (sizeT (payload + sizes.2)) with
      | none => none
      | some (rest, header, payload) => some (sizes :: rest, header, payload)

def initializeMemoryLayout (n : ReceiverIONodeBase) : Option ReceiverIONodeBase :=
  match initializeStreams n.memoryUtils n.streams 0 0 with
  | none => none
  | some (sizes, header, payload) =>
    some { n with
      alignedHeaderPayloadBuffersSize := sizes
      headerTotalMemorySize := header
      payloadTotalMemorySize := payload }

/-- `is_memory_layout_initialized`. -/
def isMemoryLayoutInitialized (n : ReceiverIONodeBase) : Bool := n.payloadTotalMemorySize > 0

def determineMemoryLayout (n : ReceiverIONodeBase) : Option (Nat × Nat) :=
  if n.isMemoryLayoutInitialized then some (n.headerTotalMemorySize, n.payloadTotalMemorySize)
  else none

def validateMemoryLayout (n : ReceiverIONodeBase) (layout : HeaderPayloadMemoryLayout) : Bool :=
  n.isMemoryLayoutInitialized ∧
    ¬ ((n.headerTotalMemorySize > 0 ∧ layout.headerMemoryPtr = 0) ∨
      layout.payloadMemoryPtr = 0) ∧
    ¬ (layout.payloadMemorySize < n.payloadTotalMemorySize ∨
      layout.headerMemorySize < n.headerTotalMemorySize)

/-- The layout `apply_memory_layout_for_subcomponent` gives a stream. A null
header buffer stays null. -/
def streamMemoryLayout (layout : HeaderPayloadMemoryLayout) (sizes : Nat × Nat)
    (headerOffset payloadOffset : Nat) : HeaderPayloadMemoryLayout :=
  { layout with
    headerMemoryPtr :=
      if layout.headerMemoryPtr ≠ 0 then sizeT (layout.headerMemoryPtr + headerOffset) else 0
    payloadMemoryPtr := sizeT (layout.payloadMemoryPtr + payloadOffset)
    headerMemorySize := sizes.1
    payloadMemorySize := sizes.2 }

/-- The loop of `apply_memory_layout`. -/
def applyStreams (layout : HeaderPayloadMemoryLayout) :
    List IReceiveStream → List (Nat × Nat) → (headerOffset payloadOffset : Nat) →
      Option (List LeafMemory)
  | [], _, _, _ => some []
  | _ :: _, [], _, _ => none
  | stream :: streams, sizes :: rest, headerOffset, payloadOffset =>
    match stream.applyMemoryLayout
        (streamMemoryLayout layout sizes headerOffset payloadOffset) with
    | none => none
    | some leaf =>
      -- the next stream begins where the aligned size of this one ends
      match applyStreams layout streams rest (sizeT (headerOffset + sizes.1))
          (sizeT (payloadOffset + sizes.2)) with
      | none => none
      | some leaves => some (leaf :: leaves)

def applyMemoryLayout (n : ReceiverIONodeBase) (layout : HeaderPayloadMemoryLayout) :
    Option (List LeafMemory) :=
  if n.validateMemoryLayout layout then
    applyStreams layout n.streams n.alignedHeaderPayloadBuffersSize 0 0
  else none

end ReceiverIONodeBase

/-! ## Media sender IO node -/

/-- A video file: what the file system says of it. -/
structure VideoFile where
  isOpen : Bool
  size : Nat
  /-- `fill_memblock_from_file` succeeds for memory block `i`. -/
  fills : Nat → Bool

/-- The members of `MediaSenderIONode` its memory layout reads and writes. -/
structure MediaSenderMemory where
  /-- `m_stream_packs.size()`. -/
  numOfStreams : Nat
  mediaSettings : MediaSettings
  /-- `m_video_file`, unless its name is empty. -/
  videoFile : Option VideoFile := none
  dynamicVideoFileLoad : Bool := false
  gpuEnabled : Bool := false
  packetHeaderSize : Nat
  packetPayloadSize : Nat
  numOfPacketsInChunk : Nat
  numOfChunksInMemBlock : Nat
  appHeaderStrideSize : Nat
  dataStrideSize : Nat
  memoryUtils : IONodeMemoryUtils
  /-- `DEFAULT_NUMBER_OF_MEM_BLOCKS`, until a file says otherwise. -/
  numOfMemoryBlocks : Nat := 1
  blockHeaderMemorySize : Nat := 0
  blockPayloadMemorySize : Nat := 0
  headerTotalMemorySize : Nat := 0
  payloadTotalMemorySize : Nat := 0

namespace MediaSenderMemory

variable (n : MediaSenderMemory)

def isHdsOn : Bool := n.packetHeaderSize ≠ 0

/-- The file that is loaded into the memory blocks when they are set up. -/
def staticVideoFile : Option VideoFile :=
  if n.dynamicVideoFileLoad then none else n.videoFile

def determineMemoryLayoutForSingleBlock : Nat × Nat :=
  let numOfStridesPerMemBlock := sizeT (n.numOfPacketsInChunk * n.numOfChunksInMemBlock)
  let payloadMemorySize := sizeT (n.dataStrideSize * numOfStridesPerMemBlock)
  let blockHeaderMemorySize :=
    if n.isHdsOn then sizeT (n.appHeaderStrideSize * numOfStridesPerMemBlock) else 0
  (blockHeaderMemorySize,
    -- only the payload is aligned, and only for a GPU
    if n.gpuEnabled then n.memoryUtils.getAlignedPayloadSize payloadMemorySize
    else payloadMemorySize)

/-- `get_number_of_mem_blocks_per_file`. With header-data split the first product
is a `uint32_t`. -/
def getNumberOfMemBlocksPerFile (file : VideoFile) : Option Nat :=
  let media := n.mediaSettings
  let memBlockPayloadSizeInBytes :=
    if n.isHdsOn then
      sizeT ((n.packetPayloadSize * media.packetsInFrameField) % 2 ^ 32 *
        media.framesFieldsInMemBlock)
    else
      sizeT (sizeT (n.packetPayloadSize + 2 ^ 64 - media.protocolHeaderSize) *
        media.packetsInFrameField * media.framesFieldsInMemBlock)
  -- a remainder of the file that fills no block is left out
  if ¬ file.isOpen ∨ memBlockPayloadSizeInBytes = 0 then none
  else some (file.size / memBlockPayloadSizeInBytes)

def initializeMemoryLayout : Option MediaSenderMemory :=
  let block := n.determineMemoryLayoutForSingleBlock
  let numOfMemoryBlocks := match n.staticVideoFile with
    | none => some n.numOfMemoryBlocks
    | some file => n.getNumberOfMemBlocksPerFile file
  match numOfMemoryBlocks with
  | none => none
  | some blocks =>
    some { n with
      blockHeaderMemorySize := block.1
      blockPayloadMemorySize := block.2
      numOfMemoryBlocks := blocks
      headerTotalMemorySize := sizeT (block.1 * blocks * n.numOfStreams)
      payloadTotalMemorySize := sizeT (block.2 * blocks * n.numOfStreams) }

def determineMemoryLayout : Option (Nat × Nat) :=
  if n.payloadTotalMemorySize = 0 then none
  else some (n.headerTotalMemorySize, n.payloadTotalMemorySize)

def isInternalAllocationRequested (layout : HeaderPayloadMemoryLayout) : Bool :=
  layout.headerMemorySize = 0 ∧ layout.payloadMemorySize = 0

def validateMemoryLayout (layout : HeaderPayloadMemoryLayout) : Bool :=
  n.payloadTotalMemorySize ≠ 0 ∧
    ¬ ((n.headerTotalMemorySize > 0 ∧ layout.headerMemoryPtr = 0) ∨
      layout.payloadMemoryPtr = 0) ∧
    ¬ (layout.headerMemorySize < n.headerTotalMemorySize ∨
      layout.payloadMemorySize < n.payloadTotalMemorySize)

/-- The loop of `initialize_mem_blockset` over `remaining` blocks from block `i`
on. A block filled from a file fails with the file. -/
def initializeMemBlockset :
    (remaining i headerMemoryPtr payloadMemoryPtr : Nat) → Option (List LeafMemory)
  | 0, _, _, _ => some []
  | remaining + 1, i, headerMemoryPtr, payloadMemoryPtr =>
    if n.staticVideoFile.all (fun file => file.isOpen && file.fills i) then
      let block : LeafMemory :=
        { requested := (n.blockHeaderMemorySize, n.blockPayloadMemorySize)
          header :=
            if n.isHdsOn then some ⟨headerMemoryPtr, n.blockHeaderMemorySize⟩ else none
          payload := ⟨payloadMemoryPtr, n.blockPayloadMemorySize⟩ }
      -- without header-data split there is no header memory to step over
      let headerMemoryPtr :=
        if n.isHdsOn then sizeT (headerMemoryPtr + n.blockHeaderMemorySize) else headerMemoryPtr
      match initializeMemBlockset remaining (i + 1) headerMemoryPtr
          (sizeT (payloadMemoryPtr + n.blockPayloadMemorySize)) with
      | none => none
      | some blocks => some (block :: blocks)
    else none

/-- The loop of `apply_memory_layout_to_subcomponents` over the streams. -/
def applyMemoryLayoutToSubcomponents :
    (streams headerMemoryPtr payloadMemoryPtr : Nat) → Option (List LeafMemory)
  | 0, _, _ => some []
  | streams + 1, headerMemoryPtr, payloadMemoryPtr =>
    match n.initializeMemBlockset n.numOfMemoryBlocks 0 headerMemoryPtr payloadMemoryPtr with
    | none => none
    | some blocks =>
      -- the next stream begins behind the blocks of this one
      match applyMemoryLayoutToSubcomponents streams
          (sizeT (headerMemoryPtr + sizeT (n.numOfMemoryBlocks * n.blockHeaderMemorySize)))
          (sizeT (payloadMemoryPtr + sizeT (n.numOfMemoryBlocks * n.blockPayloadMemorySize))) with
      | none => none
      | some rest => some (blocks ++ rest)

/-- `apply_memory_layout`. Where internal allocation is requested, Rivermax
allocates the blocks and nothing is handed out. -/
def applyMemoryLayout (layout : HeaderPayloadMemoryLayout) : Option (List LeafMemory) :=
  if isInternalAllocationRequested layout then some []
  else if n.validateMemoryLayout layout then
    n.applyMemoryLayoutToSubcomponents n.numOfStreams layout.headerMemoryPtr
      layout.payloadMemoryPtr
  else none

end MediaSenderMemory

/-! ## Strategy -/

/-- An `IHeaderPayloadMemoryLayoutComponent` of the strategy. -/
inductive MemorySubcomponent
  | receiver (node : ReceiverIONodeBase)
  | sender (node : MediaSenderMemory)

namespace MemorySubcomponent

def initializeMemoryLayout : MemorySubcomponent → Option MemorySubcomponent
  | receiver node => node.initializeMemoryLayout.map receiver
  | sender node => node.initializeMemoryLayout.map sender

def determineMemoryLayout : MemorySubcomponent → Option (Nat × Nat)
  | receiver node => node.determineMemoryLayout
  | sender node => node.determineMemoryLayout

def applyMemoryLayout (layout : HeaderPayloadMemoryLayout) :
    MemorySubcomponent → Option (List LeafMemory)
  | receiver node => node.applyMemoryLayout layout
  | sender node => node.applyMemoryLayout layout

end MemorySubcomponent

structure RmaxBaseMemoryStrategy where
  headerAllocator : MemoryAllocator
  payloadAllocator : MemoryAllocator
  numOfMemRegions : Nat := 1
  appAllocatedMemory : Bool := true
  registerMemory : Bool := false
  memorySubcomponents : List MemorySubcomponent
  memoryLayoutDetermined : Bool := false
  memoryAllocated : Bool := false
  memoryRegistered : Bool := false
  headerMemorySize : Nat := 0
  payloadMemorySize : Nat := 0
  headerPayloadSubcomponentsBufferSizes : List (Nat × Nat) := []
  headerBuffer : Nat := 0
  payloadBuffer : Nat := 0
  /-- The keys of `m_header_mem_regions` and `m_payload_mem_regions`. -/
  headerMemRegions : List (Option Nat) := []
  payloadMemRegions : List (Option Nat) := []

namespace RmaxBaseMemoryStrategy

/-- The constructor, after the calls of `add_memory_subcomponent`. -/
def create (headerAllocator payloadAllocator : MemoryAllocator) (numOfMemRegions : Nat)
    (appAllocatedMemory registerMemory : Bool) (memorySubcomponents : List MemorySubcomponent) :
    RmaxBaseMemoryStrategy :=
  { headerAllocator, payloadAllocator, numOfMemRegions, appAllocatedMemory, registerMemory,
    memorySubcomponents }

/-- The second loop of `determine_memory_layout`. -/
def determineSubcomponents :
    List MemorySubcomponent → (header payload : Nat) → Option (List (Nat × Nat) × Nat × Nat)
  | [], header, payload => some ([], header, payload)
  | subcomponent :: subcomponents, header, payload =>
    match subcomponent.determineMemoryLayout with
    | none => none
    | some sizes =>
      match determineSubcomponents subcomponents (sizeT (header + sizes.1))
          (sizeT (payload + sizes.2)) with
      | none => none
      | some (rest, header, payload) => some (sizes :: rest, header, payload)

def determineMemoryLayout (s : RmaxBaseMemoryStrategy) : Option RmaxBaseMemoryStrategy :=
  -- done once, whatever is added behind that
  if s.memoryLayoutDetermined then some s
  else match s.memorySubcomponents.mapM MemorySubcomponent.initializeMemoryLayout with
    | none => none
    | some subcomponents =>
      match determineSubcomponents subcomponents 0 0 with
      | none => none
      | some (sizes, header, payload) =>
        some { s with
          memorySubcomponents := subcomponents
          headerMemorySize := header
          payloadMemorySize := payload
          headerPayloadSubcomponentsBufferSizes := sizes
          memoryLayoutDetermined := true }

/-- `allocate_memory` and `allocate_aligned`: the header buffer is optional. -/
def allocateMemory (s : RmaxBaseMemoryStrategy) : Option RmaxBaseMemoryStrategy :=
  if ¬ s.appAllocatedMemory ∨ s.memoryAllocated then some s
  else if ¬ s.memoryLayoutDetermined ∨ s.payloadMemorySize = 0 then none
  else
    let headerPtr := if s.headerMemorySize ≠ 0 then
      s.headerAllocator.allocateAligned s.headerMemorySize s.headerAllocator.pageSize else 0
    let payloadPtr :=
      s.payloadAllocator.allocateAligned s.payloadMemorySize s.payloadAllocator.pageSize
    if payloadPtr ≠ 0 ∧ (s.headerMemorySize = 0 ∨ headerPtr ≠ 0) then
      some { s with
        headerBuffer := headerPtr
        payloadBuffer := payloadPtr
        memoryAllocated := true }
    else none

/-- The lambda of `register_memory`: a key for each interface, and
`RMX_MKEY_INVALID` where there is nothing to register. -/
def registerRegion (rmxRegisterMemory : Nat → Region → Option Nat) (region : Region)
    (numOfMemRegions : Nat) : Option (List (Option Nat)) :=
  (List.range numOfMemRegions).mapM fun i =>
    if region.length ≠ 0 then (rmxRegisterMemory i region).map some else some none

def registerMemoryRegions (rmxRegisterMemory : Nat → Region → Option Nat)
    (s : RmaxBaseMemoryStrategy) : Option RmaxBaseMemoryStrategy :=
  if ¬ s.appAllocatedMemory ∨ ¬ s.registerMemory ∨ s.memoryRegistered then some s
  else if ¬ s.memoryAllocated ∨ s.payloadBuffer = 0 then none
  else
    match registerRegion rmxRegisterMemory ⟨s.headerBuffer, s.headerMemorySize⟩
        s.numOfMemRegions,
      registerRegion rmxRegisterMemory ⟨s.payloadBuffer, s.payloadMemorySize⟩
        s.numOfMemRegions with
    | some headerKeys, some payloadKeys =>
      some { s with
        headerMemRegions := headerKeys
        payloadMemRegions := payloadKeys
        memoryRegistered := true }
    | _, _ => none

/-- `apply_memory_layout_helper`. It reads a key for each region, and there are
none before `register_memory`. -/
def applyMemoryLayoutHelper (s : RmaxBaseMemoryStrategy) (sizes : Nat × Nat)
    (headerPtr payloadPtr : Nat) (subcomponent : MemorySubcomponent) : Option (List LeafMemory) :=
  let numOfKeys := if s.registerMemory then s.numOfMemRegions else 0
  if s.headerMemRegions.length < numOfKeys ∨ s.payloadMemRegions.length < numOfKeys then none
  else subcomponent.applyMemoryLayout
    { headerMemoryPtr := headerPtr
      payloadMemoryPtr := payloadPtr
      headerMemorySize := sizes.1
      payloadMemorySize := sizes.2
      registerMemory := s.registerMemory
      headerMemoryKeys := s.headerMemRegions.take numOfKeys
      payloadMemoryKeys := s.payloadMemRegions.take numOfKeys }

/-- The loop of `apply_memory_layout`. The header pointer moves unless it is
null. -/
def applySubcomponents (s : RmaxBaseMemoryStrategy) :
    List MemorySubcomponent → List (Nat × Nat) → (headerPtr payloadPtr : Nat) →
      Option (List LeafMemory)
  | [], _, _, _ => some []
  | _ :: _, [], _, _ => none
  | subcomponent :: subcomponents, sizes :: rest, headerPtr, payloadPtr =>
    if s.appAllocatedMemory then
      match s.applyMemoryLayoutHelper sizes headerPtr payloadPtr subcomponent with
      | none => none
      | some leaves =>
        match applySubcomponents s subcomponents rest
            (if headerPtr ≠ 0 then sizeT (headerPtr + sizes.1) else headerPtr)
            (sizeT (payloadPtr + sizes.2)) with
        | none => none
        | some others => some (leaves ++ others)
    else
      -- Rivermax allocates: no sizes, null pointers
      match s.applyMemoryLayoutHelper (0, 0) 0 0 subcomponent with
      | none => none
      | some leaves =>
        match applySubcomponents s subcomponents rest headerPtr payloadPtr with
        | none => none
        | some others => some (leaves ++ others)

def applyMemoryLayout (s : RmaxBaseMemoryStrategy) : Option (List LeafMemory) :=
  s.applySubcomponents s.memorySubcomponents s.headerPayloadSubcomponentsBufferSizes
    s.headerBuffer s.payloadBuffer

end RmaxBaseMemoryStrategy

end RivermaxDevKit
