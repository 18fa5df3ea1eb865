import RivermaxDevKit.Core.GenericSendStream
import RivermaxDevKit.Memory.Layout

/-!
# Generic sender — memory

The application memory of the generic sender, handed down to the senders, to their
streams and to the sub-blocks of the packets (`generic_stream.cpp`,
`generic_sender_io_node.cpp`, `rmax_xstream_generic_sender.cpp`). Offsets and lengths
are `size_t`.

* `placeChunks_eq` — without overflow, the packets lie as `initializeChunks` says.
* `genericMemory_separated_iff` — what is handed out has memory of its own, and sums
  up to what was asked for, exactly if the sizes are together below `2 ^ 64`.
-/

namespace RivermaxDevKit

/-! ## The stream -/

namespace HeaderPayloadMemoryLayout

def headerRegion (layout : HeaderPayloadMemoryLayout) : Region :=
  ⟨layout.headerMemoryPtr, layout.headerMemorySize⟩

def payloadRegion (layout : HeaderPayloadMemoryLayout) : Region :=
  ⟨layout.payloadMemoryPtr, layout.payloadMemorySize⟩

end HeaderPayloadMemoryLayout

namespace GenericStreamSettings

variable (c : GenericStreamSettings)

/-- `get_header_memory_length`, as `initialize_memory_layout` sets it. -/
def getHeaderMemoryLength : Nat :=
  sizeT (sizeT (c.numOfRequestedChunks * c.numOfPacketsInChunk) * c.packetTypicalAppHeaderSize)

def getPayloadMemoryLength : Nat :=
  sizeT (sizeT (c.numOfRequestedChunks * c.numOfPacketsInChunk) * c.packetTypicalPayloadSize)

def getMemoryLength : Nat := sizeT (c.getHeaderMemoryLength + c.getPayloadMemoryLength)

/-- The IO vector of a packet, from an offset into the memory on. -/
def placeSubBlocks (addr : Nat) : List Nat → Nat → List Region × Nat
  | [], memOffset => ([], memOffset)
  | length :: lengths, memOffset =>
    let rest := placeSubBlocks addr lengths (sizeT (memOffset + length))
    (⟨sizeT (addr + memOffset), length⟩ :: rest.1, rest.2)

/-- The packets of a chunk. -/
def placePackets (addr : Nat) : (packets memOffset : Nat) → List (List Region) × Nat
  | 0, memOffset => ([], memOffset)
  | packets + 1, memOffset =>
    let packet := placeSubBlocks addr c.subBlockSizes memOffset
    let rest := placePackets addr packets packet.2
    (packet.1 :: rest.1, rest.2)

/-- `initialize_chunks` over one memory region. -/
def placeChunks (addr : Nat) : (chunks memOffset : Nat) → List (List (List Region)) × Nat
  | 0, memOffset => ([], memOffset)
  | chunks + 1, memOffset =>
    let chunk := c.placePackets addr c.numOfPacketsInChunk memOffset
    let rest := placeChunks addr chunks chunk.2
    (chunk.1 :: rest.1, rest.2)

/-- The packets of a chunk over two memory regions. -/
def placeSplitPackets (headerAddr payloadAddr : Nat) :
    (packets headerMemOffset payloadMemOffset : Nat) → List (List Region) × Nat × Nat
  | 0, headerMemOffset, payloadMemOffset => ([], headerMemOffset, payloadMemOffset)
  | packets + 1, headerMemOffset, payloadMemOffset =>
    let rest := placeSplitPackets headerAddr payloadAddr packets
      (sizeT (headerMemOffset + c.packetTypicalAppHeaderSize))
      (sizeT (payloadMemOffset + c.packetTypicalPayloadSize))
    ([⟨sizeT (headerAddr + headerMemOffset), c.packetTypicalAppHeaderSize⟩,
      ⟨sizeT (payloadAddr + payloadMemOffset), c.packetTypicalPayloadSize⟩] :: rest.1, rest.2)

/-- `initialize_chunks` over a header and a payload region. -/
def placeSplitChunks (headerAddr payloadAddr : Nat) :
    (chunks headerMemOffset payloadMemOffset : Nat) → List (List (List Region)) × Nat × Nat
  | 0, headerMemOffset, payloadMemOffset => ([], headerMemOffset, payloadMemOffset)
  | chunks + 1, headerMemOffset, payloadMemOffset =>
    let chunk := c.placeSplitPackets headerAddr payloadAddr c.numOfPacketsInChunk
      headerMemOffset payloadMemOffset
    let rest := placeSplitChunks headerAddr payloadAddr chunks chunk.2.1 chunk.2.2
    (chunk.1 :: rest.1, rest.2)

/-- The chunks of a stream in the region it was assigned. -/
def initializeRegion (memRegion : Region) : List (List (List Region)) :=
  (c.placeChunks memRegion.addr c.numOfRequestedChunks 0).1

/-- The chunks of a stream in a header and a payload region. -/
def initializeRegions (headerRegion payloadRegion : Region) : List (List (List Region)) :=
  (c.placeSplitChunks headerRegion.addr payloadRegion.addr c.numOfRequestedChunks 0 0).1

def validateMemoryLayout (layout : HeaderPayloadMemoryLayout) : Bool :=
  layout.registerMemory ∧ layout.headerMemoryKeys.length = 1 ∧
    layout.payloadMemoryKeys.length = 1 ∧
      if layout.headerMemorySize > 0 then
        ¬ (layout.headerMemorySize < c.getHeaderMemoryLength ∨
          layout.payloadMemorySize < c.getPayloadMemoryLength)
      else ¬ layout.payloadMemorySize < c.getMemoryLength

/-- `apply_memory_layout` of a stream that may not be created yet. -/
def applyMemoryLayout (streamCreated : Bool) (layout : HeaderPayloadMemoryLayout) :
    Option (List (List (List Region))) :=
  if ¬ c.validateMemoryLayout layout then none
  else if ¬ streamCreated then none
  else if layout.headerMemorySize > 0 then
    some (c.initializeRegions layout.headerRegion layout.payloadRegion)
  else some (c.initializeRegion layout.payloadRegion)

end GenericStreamSettings

/-! ## Senders and application -/

namespace GenericSenderIONode

/-- The length that `initialize_memory` adds up. -/
def memoryLength : List GenericStreamSettings → Nat → Nat
  | [], length => length
  | stream :: streams, length => memoryLength streams (sizeT (length + stream.getMemoryLength))

/-- `distribute_memory_for_streams`. -/
def distributeMemoryForStreams (addr : Nat) : List GenericStreamSettings → Nat → List Region
  | [], _ => []
  | stream :: streams, offset =>
    ⟨sizeT (addr + offset), stream.getMemoryLength⟩ ::
      distributeMemoryForStreams addr streams (sizeT (offset + stream.getMemoryLength))

/-- `initialize_memory`: the regions of the streams, and the length. -/
def initializeMemory (pointer : Nat) (streams : List GenericStreamSettings) : List Region × Nat :=
  (distributeMemoryForStreams pointer streams 0, memoryLength streams 0)

end GenericSenderIONode

namespace GenericSenderApp

/-- `get_memory_length`, over all streams of all senders. -/
def getMemoryLength (senders : List (List GenericStreamSettings)) : Nat :=
  senders.flatten.foldl (fun length stream => sizeT (length + stream.getMemoryLength)) 0

/-- `allocate_app_memory`; the registration only adds a key. -/
def allocateAppMemory (payloadAllocator : MemoryAllocator)
    (senders : List (List GenericStreamSettings)) : Option Region :=
  let length := payloadAllocator.alignLength (getMemoryLength senders)
  let addr := payloadAllocator.allocate length
  if addr = 0 then none else some ⟨addr, length⟩

/-- `distribute_memory_for_senders`. -/
def distributeMemoryForSenders (addr : Nat) :
    List (List GenericStreamSettings) → Nat → List (List Region)
  | [], _ => []
  | sender :: senders, offset =>
    let memory := GenericSenderIONode.initializeMemory (sizeT (addr + offset)) sender
    memory.1 :: distributeMemoryForSenders addr senders (sizeT (offset + memory.2))

/-- The regions of all streams. -/
def streamRegions (appMem : Region) (senders : List (List GenericStreamSettings)) : List Region :=
  (distributeMemoryForSenders appMem.addr senders 0).flatten

/-- The sub-blocks of all packets, stream by stream. -/
def subBlocks (appMem : Region) (senders : List (List GenericStreamSettings)) :
    List (List Region) :=
  List.zipWith (fun stream memRegion => (stream.initializeRegion memRegion).flatten.flatten)
    senders.flatten (streamRegions appMem senders)

/-- The sizes of all streams together, as numbers. -/
def exactLength (senders : List (List GenericStreamSettings)) : Nat :=
  (senders.flatten.map GenericStreamSettings.memoryLength).sum

end GenericSenderApp

/-! ## The promise -/

/-- The streams have regions of their own in the application memory, and the sub-blocks
of all packets memory of their own in these; the sizes add up to what was asked for. -/
structure GenericMemorySeparated (appMem : Region) (senders : List (List GenericStreamSettings)) :
    Prop where
  streams : Region.Partition appMem (GenericSenderApp.streamRegions appMem senders)
  packets : List.Forall₂ Region.Partition (GenericSenderApp.streamRegions appMem senders)
    (GenericSenderApp.subBlocks appMem senders)
  disjoint : (GenericSenderApp.subBlocks appMem senders).flatten.Pairwise Region.Disjoint
  total : ((GenericSenderApp.subBlocks appMem senders).flatten.map Region.length).sum =
    GenericSenderApp.getMemoryLength senders

/-- The same of one stream that is given a memory layout: headers and payloads lie in
their regions, or both in the payload region. -/
structure StreamMemorySeparated (c : GenericStreamSettings) (layout : HeaderPayloadMemoryLayout)
    (chunks : List (List (List Region))) : Prop where
  headers : layout.headerMemorySize > 0 →
    Region.Partition layout.headerRegion (chunks.flatten.filterMap List.head?)
  payloads : layout.headerMemorySize > 0 →
    Region.Partition layout.payloadRegion (chunks.flatten.filterMap List.getLast?)
  single : layout.headerMemorySize = 0 →
    Region.Partition layout.payloadRegion chunks.flatten.flatten
  disjoint : chunks.flatten.flatten.Pairwise Region.Disjoint
  total : (chunks.flatten.flatten.map Region.length).sum = c.getMemoryLength

/-! ## Sizes -/

namespace GenericStreamSettings

variable {c : GenericStreamSettings}

theorem getHeaderMemoryLength_eq : c.getHeaderMemoryLength =
    sizeT (c.numOfRequestedChunks * c.numOfPacketsInChunk * c.packetTypicalAppHeaderSize) :=
  Nat.mod_mul_mod _ _ _

theorem getPayloadMemoryLength_eq : c.getPayloadMemoryLength =
    sizeT (c.numOfRequestedChunks * c.numOfPacketsInChunk * c.packetTypicalPayloadSize) :=
  Nat.mod_mul_mod _ _ _

theorem getMemoryLength_eq : c.getMemoryLength = sizeT c.memoryLength := by
  unfold getMemoryLength
  rw [getHeaderMemoryLength_eq, getPayloadMemoryLength_eq]
  exact (Nat.add_mod _ _ _).symm

theorem memoryLength_eq : c.memoryLength =
    c.numOfRequestedChunks * c.numOfPacketsInChunk * c.subBlockSizes.sum := by
  rw [sum_subBlockSizes, Nat.mul_add]
  rfl

/-- The lengths of sub-blocks do not depend on where they lie. -/
theorem map_length_placeSubBlocks (addr : Nat) (lengths : List Nat) : ∀ memOffset,
    (placeSubBlocks addr lengths memOffset).1.map Region.length = lengths := by
  induction lengths with
  | nil => exact fun _ => rfl
  -- whatever the offset is
  | cons length lengths ih => exact fun memOffset => congrArg (length :: ·) (ih _)

theorem sum_length_placePackets (addr packets : Nat) : ∀ memOffset,
    ((c.placePackets addr packets memOffset).1.flatten.map Region.length).sum =
      packets * c.subBlockSizes.sum := by
  induction packets with
  | zero => exact fun _ => (Nat.zero_mul _).symm
  | succ packets ih =>
    intro memOffset
    -- the first packet, and the others from its end on
    have hPacket := map_length_placeSubBlocks addr c.subBlockSizes memOffset
    have hRest := ih (placeSubBlocks addr c.subBlockSizes memOffset).2
    simp only [placePackets, List.flatten_cons, List.map_append, List.sum_append, hPacket, hRest]
    rw [Nat.succ_mul, Nat.add_comm]

theorem sum_length_placeChunks (addr chunks : Nat) : ∀ memOffset,
    ((c.placeChunks addr chunks memOffset).1.flatten.flatten.map Region.length).sum =
      chunks * c.numOfPacketsInChunk * c.subBlockSizes.sum := by
  induction chunks with
  | zero => exact fun _ => by simp [placeChunks]
  | succ chunks ih =>
    intro memOffset
    have hChunk := sum_length_placePackets (c := c) addr c.numOfPacketsInChunk memOffset
    have hRest := ih (c.placePackets addr c.numOfPacketsInChunk memOffset).2
    simp only [placeChunks, List.flatten_cons, List.flatten_append, List.map_append,
      List.sum_append, hChunk, hRest]
    rw [Nat.succ_mul, Nat.add_mul, Nat.add_comm]

/-- The packets of a stream use what its settings ask for. -/
theorem sum_length_initializeRegion (memRegion : Region) :
    ((c.initializeRegion memRegion).flatten.flatten.map Region.length).sum = c.memoryLength := by
  rw [memoryLength_eq]
  exact sum_length_placeChunks memRegion.addr c.numOfRequestedChunks 0

/-! ## Places -/

theorem placeSubBlocks_eq (addr : Nat) (lengths : List Nat) : ∀ memOffset,
    addr + memOffset + lengths.sum < 2 ^ 64 → placeSubBlocks addr lengths memOffset =
      (Region.carve (addr + memOffset) lengths, memOffset + lengths.sum) := by
  induction lengths with
  | nil => exact fun _ _ => rfl
  | cons length lengths ih =>
    intro memOffset hEnd
    rw [List.sum_cons] at hEnd
    -- neither the next offset nor this address wraps
    have hOffset : sizeT (memOffset + length) = memOffset + length := sizeT_of_lt (by omega)
    have hAddr : sizeT (addr + memOffset) = addr + memOffset := sizeT_of_lt (by omega)
    have hRest := ih (memOffset + length) (by omega)
    simp only [placeSubBlocks, hOffset, hAddr, hRest, Region.carve, List.sum_cons, Nat.add_assoc]

theorem placePackets_eq (addr packets : Nat) : ∀ memOffset,
    addr + memOffset + packets * c.subBlockSizes.sum < 2 ^ 64 →
      c.placePackets addr packets memOffset =
        ((c.initializePackets packets (addr + memOffset)).1,
          memOffset + packets * c.subBlockSizes.sum) := by
  induction packets with
  | zero => exact fun memOffset _ => by simp [placePackets, initializePackets]
  | succ packets ih =>
    intro memOffset hEnd
    rw [Nat.succ_mul] at hEnd ⊢
    -- the packets behind the first one start where it ends
    have hPacket := placeSubBlocks_eq addr c.subBlockSizes memOffset (by omega)
    have hRest := ih (memOffset + c.subBlockSizes.sum) (by omega)
    simp only [placePackets, hPacket, hRest, initializePackets, Nat.add_assoc]
    rw [Nat.add_comm c.subBlockSizes.sum]

/-- Without overflow, the packets lie one behind the other. -/
theorem placeChunks_eq (addr chunks : Nat) : ∀ memOffset,
    addr + memOffset + chunks * c.numOfPacketsInChunk * c.subBlockSizes.sum < 2 ^ 64 →
      (c.placeChunks addr chunks memOffset).1 =
        (c.initializeChunks chunks (addr + memOffset)).1 := by
  induction chunks with
  | zero => exact fun _ _ => rfl
  | succ chunks ih =>
    intro memOffset hEnd
    rw [Nat.succ_mul, Nat.add_mul] at hEnd
    have hChunk := placePackets_eq (c := c) addr c.numOfPacketsInChunk memOffset (by omega)
    -- a chunk ends behind its last packet
    obtain ⟨-, hNext⟩ := initializePackets_eq (c := c) c.numOfPacketsInChunk (addr + memOffset)
    have hRest := ih (memOffset + c.numOfPacketsInChunk * c.subBlockSizes.sum) (by omega)
    simp only [placeChunks, hChunk, hRest, initializeChunks, hNext, Nat.add_assoc]

theorem partition_initializeRegion {memRegion : Region}
    (hLength : c.memoryLength ≤ memRegion.length)
    (hEnd : memRegion.addr + memRegion.length < 2 ^ 64) :
    Region.Partition memRegion (c.initializeRegion memRegion).flatten.flatten := by
  have hPlaced := placeChunks_eq (c := c) memRegion.addr c.numOfRequestedChunks 0
    (by rw [memoryLength_eq] at hLength; omega)
  show Region.Partition memRegion (c.placeChunks _ _ 0).1.flatten.flatten
  rw [hPlaced]
  exact partition_initializeChunks hLength

/-! ## Two regions -/

/-- Headers and payloads side by side are the headers and the payloads. -/
theorem perm_flatten_zipWith : ∀ {headers payloads : List Region},
    headers.length = payloads.length →
      (List.zipWith (fun header payload => [header, payload]) headers payloads).flatten.Perm
        (headers ++ payloads)
  | [], [], _ => .nil
  | header :: headers, payload :: payloads, hLength => by
    -- the payload goes behind the headers that follow
    have hRest := perm_flatten_zipWith (Nat.succ.inj hLength)
    refine .cons header (.trans (.cons payload hRest) ?_)
    exact List.perm_middle.symm

theorem filterMap_head_zipWith : ∀ {headers payloads : List Region},
    headers.length = payloads.length →
      (List.zipWith (fun header payload => [header, payload]) headers payloads).filterMap
        List.head? = headers
  | [], [], _ => rfl
  | header :: _, _ :: _, hLength =>
    congrArg (header :: ·) (filterMap_head_zipWith (Nat.succ.inj hLength))

theorem filterMap_getLast_zipWith : ∀ {headers payloads : List Region},
    headers.length = payloads.length →
      (List.zipWith (fun header payload => [header, payload]) headers payloads).filterMap
        List.getLast? = payloads
  | [], [], _ => rfl
  | _ :: _, payload :: _, hLength =>
    congrArg (payload :: ·) (filterMap_getLast_zipWith (Nat.succ.inj hLength))

/-- `packets` packets of a header and a payload each. -/
def splitPackets (headerAddr payloadAddr packets : Nat) : List (List Region) :=
  List.zipWith (fun header payload => [header, payload])
    (Region.carve headerAddr (List.replicate packets c.packetTypicalAppHeaderSize))
    (Region.carve payloadAddr (List.replicate packets c.packetTypicalPayloadSize))

theorem splitPackets_add (headerAddr payloadAddr m n : Nat) :
    c.splitPackets headerAddr payloadAddr (m + n) = c.splitPackets headerAddr payloadAddr m ++
      c.splitPackets (headerAddr + m * c.packetTypicalAppHeaderSize)
        (payloadAddr + m * c.packetTypicalPayloadSize) n := by
  -- both regions are carved at the same packet
  unfold splitPackets
  rw [List.replicate_add, List.replicate_add, Region.carve_append, Region.carve_append,
    List.zipWith_append (by simp [Region.length_carve]), List.sum_replicate,
    List.sum_replicate]
  rfl

theorem placeSplitPackets_eq (headerAddr payloadAddr packets : Nat) :
    ∀ headerMemOffset payloadMemOffset,
      headerAddr + headerMemOffset + packets * c.packetTypicalAppHeaderSize < 2 ^ 64 →
      payloadAddr + payloadMemOffset + packets * c.packetTypicalPayloadSize < 2 ^ 64 →
      c.placeSplitPackets headerAddr payloadAddr packets headerMemOffset payloadMemOffset =
        (c.splitPackets (headerAddr + headerMemOffset) (payloadAddr + payloadMemOffset) packets,
          headerMemOffset + packets * c.packetTypicalAppHeaderSize,
          payloadMemOffset + packets * c.packetTypicalPayloadSize) := by
  induction packets with
  | zero => exact fun _ _ _ _ => by simp [placeSplitPackets, splitPackets, Region.carve]
  | succ packets ih =>
    intro headerMemOffset payloadMemOffset hHeader hPayload
    rw [Nat.succ_mul] at hHeader hPayload
    rw [Nat.succ_mul, Nat.succ_mul]
    -- the other packets start one header and one payload later
    have hRest := ih (headerMemOffset + c.packetTypicalAppHeaderSize)
      (payloadMemOffset + c.packetTypicalPayloadSize) (by omega) (by omega)
    have hHeaderAddr : sizeT (headerAddr + headerMemOffset) = headerAddr + headerMemOffset :=
      sizeT_of_lt (by omega)
    have hPayloadAddr : sizeT (payloadAddr + payloadMemOffset) = payloadAddr + payloadMemOffset :=
      sizeT_of_lt (by omega)
    have hHeaderOffset : sizeT (headerMemOffset + c.packetTypicalAppHeaderSize) =
        headerMemOffset + c.packetTypicalAppHeaderSize := sizeT_of_lt (by omega)
    have hPayloadOffset : sizeT (payloadMemOffset + c.packetTypicalPayloadSize) =
        payloadMemOffset + c.packetTypicalPayloadSize := sizeT_of_lt (by omega)
    simp only [placeSplitPackets, hHeaderAddr, hPayloadAddr, hHeaderOffset, hPayloadOffset, hRest]
    -- the packets, and the two offsets behind them
    refine Prod.ext ?_ (Prod.ext ?_ ?_)
    · rw [← Nat.add_assoc, ← Nat.add_assoc]
      rfl
    · exact (Nat.add_assoc _ _ _).trans (congrArg _ (Nat.add_comm _ _))
    · exact (Nat.add_assoc _ _ _).trans (congrArg _ (Nat.add_comm _ _))

/-- Without overflow, headers lie behind headers and payloads behind payloads. -/
theorem placeSplitChunks_eq (headerAddr payloadAddr chunks : Nat) :
    ∀ headerMemOffset payloadMemOffset,
      headerAddr + headerMemOffset +
        chunks * c.numOfPacketsInChunk * c.packetTypicalAppHeaderSize < 2 ^ 64 →
      payloadAddr + payloadMemOffset +
        chunks * c.numOfPacketsInChunk * c.packetTypicalPayloadSize < 2 ^ 64 →
      (c.placeSplitChunks headerAddr payloadAddr chunks
        headerMemOffset payloadMemOffset).1.flatten =
          c.splitPackets (headerAddr + headerMemOffset) (payloadAddr + payloadMemOffset)
            (chunks * c.numOfPacketsInChunk) := by
  induction chunks with
  | zero => exact fun _ _ _ _ => by simp [placeSplitChunks, splitPackets, Region.carve]
  | succ chunks ih =>
    intro headerMemOffset payloadMemOffset hHeader hPayload
    rw [Nat.succ_mul, Nat.add_mul] at hHeader hPayload
    have hChunk := placeSplitPackets_eq (c := c) headerAddr payloadAddr c.numOfPacketsInChunk
      headerMemOffset payloadMemOffset (by omega) (by omega)
    -- the chunks that follow start behind this one in both regions
    have hRest := ih (headerMemOffset + c.numOfPacketsInChunk * c.packetTypicalAppHeaderSize)
      (payloadMemOffset + c.numOfPacketsInChunk * c.packetTypicalPayloadSize)
      (by omega) (by omega)
    rw [Nat.succ_mul, Nat.add_comm (chunks * _), splitPackets_add]
    simp only [placeSplitChunks, hChunk, List.flatten_cons, hRest, Nat.add_assoc]

theorem sum_length_placeSplitPackets (headerAddr payloadAddr packets : Nat) :
    ∀ headerMemOffset payloadMemOffset,
      ((c.placeSplitPackets headerAddr payloadAddr packets headerMemOffset
        payloadMemOffset).1.flatten.map Region.length).sum =
          packets * (c.packetTypicalAppHeaderSize + c.packetTypicalPayloadSize) := by
  induction packets with
  | zero => exact fun _ _ => (Nat.zero_mul _).symm
  | succ packets ih =>
    intro headerMemOffset payloadMemOffset
    have hRest := ih (sizeT (headerMemOffset + c.packetTypicalAppHeaderSize))
      (sizeT (payloadMemOffset + c.packetTypicalPayloadSize))
    simp only [placeSplitPackets, List.flatten_cons, List.map_append, List.sum_append, hRest]
    rw [Nat.succ_mul, Nat.add_comm]
    rfl

theorem sum_length_placeSplitChunks (headerAddr payloadAddr chunks : Nat) :
    ∀ headerMemOffset payloadMemOffset,
      ((c.placeSplitChunks headerAddr payloadAddr chunks headerMemOffset
        payloadMemOffset).1.flatten.flatten.map Region.length).sum =
          chunks * c.numOfPacketsInChunk *
            (c.packetTypicalAppHeaderSize + c.packetTypicalPayloadSize) := by
  induction chunks with
  | zero => exact fun _ _ => by simp [placeSplitChunks]
  | succ chunks ih =>
    intro headerMemOffset payloadMemOffset
    have hChunk := sum_length_placeSplitPackets (c := c) headerAddr payloadAddr
      c.numOfPacketsInChunk headerMemOffset payloadMemOffset
    simp only [placeSplitChunks, List.flatten_cons, List.flatten_append, List.map_append,
      List.sum_append, hChunk, ih]
    rw [Nat.succ_mul, Nat.add_mul, Nat.add_comm]

theorem sum_length_initializeRegions (headerRegion payloadRegion : Region) :
    ((c.initializeRegions headerRegion payloadRegion).flatten.flatten.map Region.length).sum =
      c.memoryLength := by
  rw [memoryLength_eq, sum_subBlockSizes]
  exact sum_length_placeSplitChunks headerRegion.addr payloadRegion.addr c.numOfRequestedChunks 0 0

/-- What `initialize_chunks` makes of two regions without overflow. -/
theorem initializeRegions_eq {headerRegion payloadRegion : Region}
    (hHeader : headerRegion.addr +
      c.numOfRequestedChunks * c.numOfPacketsInChunk * c.packetTypicalAppHeaderSize < 2 ^ 64)
    (hPayload : payloadRegion.addr +
      c.numOfRequestedChunks * c.numOfPacketsInChunk * c.packetTypicalPayloadSize < 2 ^ 64) :
    (c.initializeRegions headerRegion payloadRegion).flatten =
      c.splitPackets headerRegion.addr payloadRegion.addr
        (c.numOfRequestedChunks * c.numOfPacketsInChunk) :=
  placeSplitChunks_eq headerRegion.addr payloadRegion.addr c.numOfRequestedChunks 0 0 hHeader
    hPayload

/-- Headers in one region and payloads in another that does not meet it. -/
theorem separated_splitPackets {headerRegion payloadRegion : Region} {packets : Nat}
    (hHeader : packets * c.packetTypicalAppHeaderSize ≤ headerRegion.length)
    (hPayload : packets * c.packetTypicalPayloadSize ≤ payloadRegion.length)
    (hApart : headerRegion.Disjoint payloadRegion) :
    Region.Partition headerRegion
        ((c.splitPackets headerRegion.addr payloadRegion.addr packets).filterMap List.head?) ∧
      Region.Partition payloadRegion
        ((c.splitPackets headerRegion.addr payloadRegion.addr packets).filterMap List.getLast?) ∧
      (c.splitPackets headerRegion.addr payloadRegion.addr packets).flatten.Pairwise
        Region.Disjoint := by
  have hLengths : (Region.carve headerRegion.addr
      (List.replicate packets c.packetTypicalAppHeaderSize)).length =
        (Region.carve payloadRegion.addr
          (List.replicate packets c.packetTypicalPayloadSize)).length := by simp
  -- headers fill one region from its start, payloads the other
  have hHeaders : Region.Partition headerRegion (Region.carve headerRegion.addr
      (List.replicate packets c.packetTypicalAppHeaderSize)) :=
    Region.partition_carve (by simpa using hHeader)
  have hPayloads : Region.Partition payloadRegion (Region.carve payloadRegion.addr
      (List.replicate packets c.packetTypicalPayloadSize)) :=
    Region.partition_carve (by simpa using hPayload)
  unfold splitPackets
  rw [filterMap_head_zipWith hLengths, filterMap_getLast_zipWith hLengths]
  refine ⟨hHeaders, hPayloads, ?_⟩
  -- the order of the sub-blocks does not matter
  rw [(perm_flatten_zipWith hLengths).pairwise_iff Region.Disjoint.symm, List.pairwise_append]
  refine ⟨hHeaders.disjoint, hPayloads.disjoint, ?_⟩
  intro header hh payload hp
  exact hApart.of_inside (hHeaders.inside header hh) (hPayloads.inside payload hp)

/-- **Streams.** The packets of a stream that is given a memory layout have memory of
their own exactly if its sizes are below `2 ^ 64`. -/
theorem streamMemorySeparated_iff {streamCreated : Bool} {layout : HeaderPayloadMemoryLayout}
    {chunks : List (List (List Region))}
    (hApply : c.applyMemoryLayout streamCreated layout = some chunks)
    (hHeaderEnd : layout.headerMemoryPtr + layout.headerMemorySize < 2 ^ 64)
    (hPayloadEnd : layout.payloadMemoryPtr + layout.payloadMemorySize < 2 ^ 64)
    (hApart : layout.headerRegion.Disjoint layout.payloadRegion) :
    StreamMemorySeparated c layout chunks ↔ c.memoryLength < 2 ^ 64 := by
  -- with one region and with two the sizes used are those of the settings
  have hTotal : (chunks.flatten.flatten.map Region.length).sum = c.memoryLength := by
    unfold applyMemoryLayout at hApply
    split_ifs at hApply
    · cases hApply
      exact sum_length_initializeRegions _ _
    · cases hApply
      exact sum_length_initializeRegion _
  constructor
  · -- the sizes sum up to a `size_t`
    intro hSeparated
    rw [← hTotal, hSeparated.total, getMemoryLength_eq]
    exact sizeT_lt _
  · intro hFit
    -- the sizes that were asked for are exact
    have hLength : c.getMemoryLength = c.memoryLength := by
      rw [getMemoryLength_eq, sizeT_of_lt hFit]
    have hHeaderFit : c.getHeaderMemoryLength = c.numOfRequestedChunks * c.numOfPacketsInChunk *
        c.packetTypicalAppHeaderSize := by
      rw [getHeaderMemoryLength_eq, sizeT_of_lt (by unfold memoryLength at hFit; omega)]
    have hPayloadFit : c.getPayloadMemoryLength = c.numOfRequestedChunks * c.numOfPacketsInChunk *
        c.packetTypicalPayloadSize := by
      rw [getPayloadMemoryLength_eq, sizeT_of_lt (by unfold memoryLength at hFit; omega)]
    unfold applyMemoryLayout at hApply
    split_ifs at hApply with hValid hCreated hSplit
    · -- a header and a payload region
      cases hApply
      simp only [validateMemoryLayout, hSplit, if_true, decide_eq_true_eq, not_or,
        not_lt] at hValid
      obtain ⟨-, -, -, hHeaderLength, hPayloadLength⟩ := hValid
      rw [hHeaderFit] at hHeaderLength
      rw [hPayloadFit] at hPayloadLength
      obtain ⟨hHeaders, hPayloads, hDisjoint⟩ :=
        separated_splitPackets (c := c) hHeaderLength hPayloadLength hApart
      rw [← initializeRegions_eq (Nat.lt_of_le_of_lt (Nat.add_le_add_left hHeaderLength _)
        hHeaderEnd) (Nat.lt_of_le_of_lt (Nat.add_le_add_left hPayloadLength _) hPayloadEnd)]
        at hHeaders hPayloads hDisjoint
      exact ⟨fun _ => hHeaders, fun _ => hPayloads, fun hNone => absurd hNone (by omega),
        hDisjoint, hTotal.trans hLength.symm⟩
    · -- one region
      cases hApply
      simp only [validateMemoryLayout, hSplit, if_false, decide_eq_true_eq, not_lt,
        hLength] at hValid
      have hPartition : Region.Partition layout.payloadRegion
          (c.initializeRegion layout.payloadRegion).flatten.flatten :=
        partition_initializeRegion hValid.2.2.2 hPayloadEnd
      exact ⟨fun hSome => absurd hSome hSplit, fun hSome => absurd hSome hSplit,
        fun _ => hPartition, hPartition.disjoint, hTotal.trans hLength.symm⟩

end GenericStreamSettings

/-! ## The application -/

namespace GenericSenderIONode

theorem memoryLength_eq (streams : List GenericStreamSettings) : ∀ length,
    length + (streams.map GenericStreamSettings.memoryLength).sum < 2 ^ 64 →
      memoryLength streams length =
        length + (streams.map GenericStreamSettings.memoryLength).sum := by
  induction streams with
  | nil => exact fun _ _ => rfl
  | cons stream streams ih =>
    intro length hEnd
    rw [List.map_cons, List.sum_cons] at hEnd ⊢
    have hStream : stream.getMemoryLength = stream.memoryLength := by
      rw [GenericStreamSettings.getMemoryLength_eq, sizeT_of_lt (by omega)]
    rw [memoryLength, hStream, sizeT_of_lt (by omega), ih _ (by omega), Nat.add_assoc]

theorem distributeMemoryForStreams_eq (addr : Nat) (streams : List GenericStreamSettings) :
    ∀ offset, addr + offset + (streams.map GenericStreamSettings.memoryLength).sum < 2 ^ 64 →
      distributeMemoryForStreams addr streams offset =
        Region.carve (addr + offset) (streams.map GenericStreamSettings.memoryLength) := by
  induction streams with
  | nil => exact fun _ _ => rfl
  | cons stream streams ih =>
    intro offset hEnd
    rw [List.map_cons, List.sum_cons] at hEnd
    have hStream : stream.getMemoryLength = stream.memoryLength := by
      rw [GenericStreamSettings.getMemoryLength_eq, sizeT_of_lt (by omega)]
    have hAddr : sizeT (addr + offset) = addr + offset := sizeT_of_lt (by omega)
    have hOffset : sizeT (offset + stream.memoryLength) = offset + stream.memoryLength :=
      sizeT_of_lt (by omega)
    have hRest := ih (offset + stream.memoryLength) (by omega)
    rw [distributeMemoryForStreams, hStream, hAddr, hOffset, hRest, List.map_cons, Region.carve,
      Nat.add_assoc]

theorem length_distributeMemoryForStreams (addr : Nat) (streams : List GenericStreamSettings) :
    ∀ offset, (distributeMemoryForStreams addr streams offset).length = streams.length := by
  induction streams with
  | nil => exact fun _ => rfl
  | cons stream streams ih => exact fun offset => congrArg (· + 1) (ih _)

end GenericSenderIONode

namespace GenericSenderApp

theorem foldl_getMemoryLength (streams : List GenericStreamSettings) : ∀ length,
    sizeT (streams.foldl (fun length stream => sizeT (length + stream.getMemoryLength)) length) =
      sizeT (length + (streams.map GenericStreamSettings.memoryLength).sum) := by
  induction streams with
  | nil => exact fun _ => rfl
  | cons stream streams ih =>
    intro length
    rw [List.foldl_cons, ih, List.map_cons, List.sum_cons,
      GenericStreamSettings.getMemoryLength_eq, ← Nat.add_assoc]
    -- reducing a term of a sum makes no difference
    show ((length + stream.memoryLength % 2 ^ 64) % 2 ^ 64 + _) % 2 ^ 64 = _ % 2 ^ 64
    rw [Nat.mod_add_mod, Nat.add_right_comm, Nat.add_mod_mod, Nat.add_right_comm]

/-- The length that is asked for is the sum of all sizes, as far as `size_t` goes. -/
theorem getMemoryLength_eq (senders : List (List GenericStreamSettings)) :
    getMemoryLength senders = sizeT (exactLength senders) := by
  have hFold := foldl_getMemoryLength senders.flatten 0
  have hLt : getMemoryLength senders < 2 ^ 64 := by
    unfold getMemoryLength
    rw [List.foldl_eq_foldr_reverse]
    cases senders.flatten.reverse with
    | nil => decide
    | cons stream streams => exact sizeT_lt _
  rw [Nat.zero_add] at hFold
  exact (sizeT_of_lt hLt).symm.trans hFold

theorem length_streamRegions (appMem : Region) (senders : List (List GenericStreamSettings)) :
    (streamRegions appMem senders).length = senders.flatten.length := by
  -- the number of regions does not depend on the offset
  suffices hAll : ∀ offset,
      (distributeMemoryForSenders appMem.addr senders offset).flatten.length =
        senders.flatten.length from hAll 0
  induction senders with
  | nil => exact fun _ => rfl
  | cons sender senders ih =>
    intro offset
    rw [distributeMemoryForSenders, List.flatten_cons, List.flatten_cons, List.length_append,
      List.length_append, ih]
    exact congrArg (· + _) (GenericSenderIONode.length_distributeMemoryForStreams _ sender 0)

/-- The packets of all streams use what their settings ask for. -/
theorem sum_length_subBlocks (appMem : Region) (senders : List (List GenericStreamSettings)) :
    ((subBlocks appMem senders).flatten.map Region.length).sum = exactLength senders := by
  have hLength := length_streamRegions appMem senders
  unfold subBlocks exactLength
  generalize streamRegions appMem senders = regions at hLength ⊢
  generalize senders.flatten = streams at hLength ⊢
  -- stream by stream, each with its region
  induction streams generalizing regions with
  | nil => rfl
  | cons stream streams ih =>
    cases regions with
    | nil => exact absurd hLength (Nat.succ_ne_zero _).symm
    | cons memRegion regions =>
      rw [List.zipWith_cons_cons, List.flatten_cons, List.map_append, List.sum_append,
        GenericStreamSettings.sum_length_initializeRegion, ih regions (Nat.succ.inj hLength),
        List.map_cons, List.sum_cons]

/-- Without overflow, the streams of all senders lie one behind the other. -/
theorem streamRegions_eq {appMem : Region} {senders : List (List GenericStreamSettings)}
    (hEnd : appMem.addr + exactLength senders < 2 ^ 64) :
    streamRegions appMem senders = Region.carve appMem.addr
      (senders.flatten.map GenericStreamSettings.memoryLength) := by
  suffices hAll : ∀ offset, appMem.addr + offset + exactLength senders < 2 ^ 64 →
      (distributeMemoryForSenders appMem.addr senders offset).flatten =
        Region.carve (appMem.addr + offset)
          (senders.flatten.map GenericStreamSettings.memoryLength) from hAll 0 hEnd
  clear hEnd
  induction senders with
  | nil => exact fun _ _ => rfl
  | cons sender senders ih =>
    intro offset hEnd
    -- what the first sender takes, and the rest
    have hLength : exactLength (sender :: senders) =
        (sender.map GenericStreamSettings.memoryLength).sum + exactLength senders := by
      unfold exactLength
      rw [List.flatten_cons, List.map_append, List.sum_append]
    rw [hLength] at hEnd
    have hAddr : sizeT (appMem.addr + offset) = appMem.addr + offset := sizeT_of_lt (by omega)
    -- the first sender hands out its streams from its pointer on
    have hSender := GenericSenderIONode.distributeMemoryForStreams_eq (appMem.addr + offset)
      sender 0 (by omega)
    have hSenderLength := GenericSenderIONode.memoryLength_eq sender 0 (by omega)
    have hOffset : sizeT (offset + (sender.map GenericStreamSettings.memoryLength).sum) =
        offset + (sender.map GenericStreamSettings.memoryLength).sum := sizeT_of_lt (by omega)
    simp only [distributeMemoryForSenders, GenericSenderIONode.initializeMemory, hAddr, hSender,
      hSenderLength, Nat.zero_add, Nat.add_zero, hOffset, List.flatten_cons]
    rw [ih _ (by omega), List.map_append, Region.carve_append, Nat.add_assoc]

/-- Every stream fits into the region it was assigned. -/
theorem forall_partition_initializeRegion (streams : List GenericStreamSettings) : ∀ addr,
    addr + (streams.map GenericStreamSettings.memoryLength).sum < 2 ^ 64 →
      List.Forall₂ Region.Partition
        (Region.carve addr (streams.map GenericStreamSettings.memoryLength))
        (List.zipWith (fun stream memRegion => (stream.initializeRegion memRegion).flatten.flatten)
          streams (Region.carve addr (streams.map GenericStreamSettings.memoryLength))) := by
  induction streams with
  | nil => exact fun _ _ => .nil
  | cons stream streams ih =>
    intro addr hEnd
    rw [List.map_cons, List.sum_cons] at hEnd
    have hStream := @GenericStreamSettings.partition_initializeRegion stream
      ⟨addr, stream.memoryLength⟩ (Nat.le_refl _) (by dsimp only; omega)
    exact .cons hStream (ih _ (by omega))

theorem separated_of_le {appMem : Region} {senders : List (List GenericStreamSettings)}
    (hEnd : appMem.addr + appMem.length < 2 ^ 64) (hFit : exactLength senders ≤ appMem.length) :
    GenericMemorySeparated appMem senders := by
  -- streams are carved out of the memory, packets out of the streams
  have hRegions := streamRegions_eq (Nat.lt_of_le_of_lt (Nat.add_le_add_left hFit _) hEnd)
  have hStreams : Region.Partition appMem (streamRegions appMem senders) := by
    rw [hRegions]
    exact Region.partition_carve hFit
  have hPackets : List.Forall₂ Region.Partition (streamRegions appMem senders)
      (subBlocks appMem senders) := by
    unfold subBlocks
    rw [hRegions]
    exact forall_partition_initializeRegion senders.flatten appMem.addr
      (Nat.lt_of_le_of_lt (Nat.add_le_add_left hFit _) hEnd)
  refine ⟨hStreams, hPackets, (hStreams.flatten hPackets).disjoint, ?_⟩
  rw [sum_length_subBlocks, getMemoryLength_eq, sizeT_of_lt (by omega)]

/-- What is handed out can be no longer than what was allocated. -/
theorem le_of_separated {appMem : Region} {senders : List (List GenericStreamSettings)}
    (hSeparated : GenericMemorySeparated appMem senders) :
    exactLength senders ≤ appMem.length := by
  rw [← sum_length_subBlocks appMem senders]
  exact (hSeparated.streams.flatten hSeparated.packets).sum_length_le

end GenericSenderApp

/-- **Memory of the generic sender.** In the memory that was allocated for them, all
packets of all streams of all senders have memory of their own, exactly if the sizes and
one page of the allocator are together at most `2 ^ 64`; and so do the packets of a
stream that is given one or two regions, exactly if its own sizes are below `2 ^ 64`. -/
theorem genericMemory_separated_iff {payloadAllocator : MemoryAllocator}
    {senders : List (List GenericStreamSettings)} {appMem : Region}
    (hPage : payloadAllocator.pageSize ∣ 2 ^ 64)
    (hAllocate : GenericSenderApp.allocateAppMemory payloadAllocator senders = some appMem)
    (hEnd : appMem.addr + appMem.length < 2 ^ 64) :
    (GenericMemorySeparated appMem senders ↔
      GenericSenderApp.exactLength senders + payloadAllocator.pageSize ≤ 2 ^ 64) ∧
    ∀ (c : GenericStreamSettings) (streamCreated : Bool) (layout : HeaderPayloadMemoryLayout)
      (chunks : List (List (List Region))),
      c.applyMemoryLayout streamCreated layout = some chunks →
      layout.headerMemoryPtr + layout.headerMemorySize < 2 ^ 64 →
      layout.payloadMemoryPtr + layout.payloadMemorySize < 2 ^ 64 →
      layout.headerRegion.Disjoint layout.payloadRegion →
      (StreamMemorySeparated c layout chunks ↔ c.memoryLength < 2 ^ 64) := by
  refine ⟨?_, fun c streamCreated layout chunks hApply hHeaderEnd hPayloadEnd hApart =>
    GenericStreamSettings.streamMemorySeparated_iff hApply hHeaderEnd hPayloadEnd hApart⟩
  -- what is allocated is the reduced length, rounded up
  have hLength : appMem.length =
      payloadAllocator.alignLength (sizeT (GenericSenderApp.exactLength senders)) := by
    unfold GenericSenderApp.allocateAppMemory at hAllocate
    rw [GenericSenderApp.getMemoryLength_eq] at hAllocate
    dsimp only at hAllocate
    split_ifs at hAllocate
    cases hAllocate
    rfl
  constructor
  · intro hSeparated
    -- the sum that was asked for is the exact one
    have hTotal : GenericSenderApp.exactLength senders < 2 ^ 64 := by
      rw [← GenericSenderApp.sum_length_subBlocks appMem senders, hSeparated.total,
        GenericSenderApp.getMemoryLength_eq]
      exact sizeT_lt _
    by_contra hWrap
    -- rounding up to pages wraps, and nothing is allocated
    have hNone := MemoryAllocator.alignLength_eq_zero hPage hTotal (by omega)
    have hLe := GenericSenderApp.le_of_separated hSeparated
    have hPageLe := Nat.le_of_dvd (by decide) hPage
    rw [hLength, sizeT_of_lt hTotal, hNone] at hLe
    omega
  · intro hFit
    have hPos := Nat.pos_of_dvd_of_pos hPage (by decide)
    apply GenericSenderApp.separated_of_le hEnd
    rw [hLength, sizeT_of_lt (by omega)]
    exact MemoryAllocator.le_alignLength hPos hFit

/-- Two senders with three streams, in memory from `4096` on. -/
theorem genericMemory_separated_two :
    GenericMemorySeparated ⟨4096, 4096⟩ [[⟨2, 3, 100, 20⟩, ⟨1, 4, 10, 0⟩], [⟨1, 1, 7, 0⟩]] ∧
    StreamMemorySeparated ⟨1, 2, 100, 20⟩ ⟨64, 1024, 40, 200, true, [some 1], [some 2]⟩
      [[[⟨64, 20⟩, ⟨1024, 100⟩], [⟨84, 20⟩, ⟨1124, 100⟩]]] := by
  have hMemory := @genericMemory_separated_iff ⟨4096, fun _ => 4096, false⟩
    [[⟨2, 3, 100, 20⟩, ⟨1, 4, 10, 0⟩], [⟨1, 1, 7, 0⟩]] ⟨4096, 4096⟩ (by decide) (by decide)
    (by decide)
  refine ⟨hMemory.1.mpr (by decide), (hMemory.2 ⟨1, 2, 100, 20⟩ true _ _ (by decide) (by decide)
    (by decide) ?_).mpr (by decide)⟩
  -- the two regions do not meet
  rintro i ⟨-, hEnd⟩ ⟨hStart, -⟩
  dsimp only [HeaderPayloadMemoryLayout.headerRegion,
    HeaderPayloadMemoryLayout.payloadRegion] at hEnd hStart
  omega

/-- Chunks whose packets are more than a `size_t` can count: the memory that is asked
for is far too short. -/
theorem genericMemory_overflow :
    GenericSenderApp.allocateAppMemory ⟨4096, fun _ => 4096, false⟩
        [[⟨2 ^ 32, 2 ^ 32 + 1, 1, 0⟩]] = some ⟨4096, 2 ^ 32⟩ ∧
      ¬ GenericMemorySeparated ⟨4096, 2 ^ 32⟩ [[⟨2 ^ 32, 2 ^ 32 + 1, 1, 0⟩]] := by
  refine ⟨by decide, fun hSeparated => ?_⟩
  -- `2 ^ 64 + 2 ^ 32` bytes in `2 ^ 32`
  have hLe := GenericSenderApp.le_of_separated hSeparated
  revert hLe
  decide

end RivermaxDevKit
