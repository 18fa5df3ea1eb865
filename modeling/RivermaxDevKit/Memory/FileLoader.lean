import RivermaxDevKit.Lib.ByteStore
import RivermaxDevKit.Media.Tiling
import RivermaxDevKit.Memory.Layout

/-!
# Static video file

`MediaSenderIONode::initialize_mem_blockset` (`media_sender_io_node.cpp`) with a
video file: `fill_memblock_from_file` puts the packets of the file into the
strides of a memory block, one behind the other. The sending loop reads the
strides of a chunk at a time.

* `fillWrites_eq`, `loadBlocks_eq` — what the loader writes, and where.
* `read_loadedMemory` — the bytes of a stride afterwards.
* `loadedAsSent_iff` — the loop finds every packet where it looks for it, unless
  a memory block holds several frames that end within a chunk.

A file is the bytes that can be read from it. Pointers are addresses in the
payload memory of a stream.
-/

namespace RivermaxDevKit

open ByteStore

/-- One `read` of an `ifstream`: the bytes it gets. -/
def readFile (file : List UInt8) (position count : Nat) : List UInt8 :=
  (file.drop position).take count

/-- What the loader did for a memory block: the address of the block, and the
writes into the temporary buffer that was copied there. -/
structure LoadedBlock where
  payloadMemoryPtr : Nat
  writes : List (Nat × List UInt8)

namespace MediaSenderMemory

/-- The members the constructor takes from its settings. -/
def ofSettings (s : AppSettings) (numOfStreams cacheLineSize : Nat) (gpuEnabled : Bool)
    (memoryUtils : IONodeMemoryUtils) (fileSize : Nat) : MediaSenderMemory where
  numOfStreams := numOfStreams
  mediaSettings := s.media
  videoFile := some { isOpen := true, size := fileSize, fills := fun _ => true }
  gpuEnabled := gpuEnabled
  packetHeaderSize := s.packetAppHeaderSize
  packetPayloadSize := s.packetPayloadSize
  numOfPacketsInChunk := s.numOfPacketsInChunk
  numOfChunksInMemBlock := s.numOfChunksInMemBlock
  appHeaderStrideSize := alignUpPow2 s.packetAppHeaderSize cacheLineSize
  dataStrideSize := alignUpPow2 s.packetPayloadSize cacheLineSize
  memoryUtils := memoryUtils

variable (n : MediaSenderMemory)

/-! ## Loader -/

/-- `header_offset`. -/
def headerOffset : Nat := if n.isHdsOn then 0 else n.mediaSettings.protocolHeaderSize

/-- `packet_size` of `fill_memblock_from_file`. -/
def filePacketSize : Nat := n.packetPayloadSize - n.headerOffset

/-- `mem_block_payload_size_in_bytes`. -/
def memBlockPayloadSizeInBytes : Nat :=
  sizeT (n.filePacketSize * n.mediaSettings.packetsInFrameField *
    n.mediaSettings.framesFieldsInMemBlock)

/-- The loop of `fill_memblock_from_file`, of at most `fuel` turns: the writes
into the temporary buffer. -/
def fillLoop (file : List UInt8) : (fuel totalBytesRead curDataPtr position : Nat) →
    List (Nat × List UInt8)
  | 0, _, _, _ => []
  | fuel + 1, totalBytesRead, curDataPtr, position =>
    if totalBytesRead < n.memBlockPayloadSizeInBytes then
      let bytes := readFile file position n.filePacketSize
      -- at the end of the file, or for the rest of a packet
      if bytes.length < n.filePacketSize then [(curDataPtr, bytes)]
      else (curDataPtr, bytes) :: fillLoop file fuel (totalBytesRead + n.filePacketSize)
        (curDataPtr + n.dataStrideSize) (position + n.filePacketSize)
    else []

/-- `fill_memblock_from_file`: a turn reads a byte at least. -/
def fillWrites (file : List UInt8) (position : Nat) : List (Nat × List UInt8) :=
  n.fillLoop file n.memBlockPayloadSizeInBytes 0 n.headerOffset position

/-- The loop of `initialize_mem_blockset` over the blocks. -/
def loadBlocks (file : List UInt8) : (remaining payloadMemoryPtr position : Nat) →
    List LoadedBlock
  | 0, _, _ => []
  | remaining + 1, payloadMemoryPtr, position =>
    let writes := n.fillWrites file position
    ⟨payloadMemoryPtr, writes⟩ :: loadBlocks file remaining
      (payloadMemoryPtr + n.blockPayloadMemorySize)
      (position + (writes.map fun w => w.2.length).sum)

def loadedBlocks (file : List UInt8) (payloadMemoryPtr : Nat) : List LoadedBlock :=
  n.loadBlocks file n.numOfMemoryBlocks payloadMemoryPtr 0

/-- The temporary buffer, which starts out zeroed. -/
def tempBuffer (block : LoadedBlock) : Memory := writeAll block.writes fun _ => 0

/-- The payload memory once every temporary buffer was copied to its block. -/
def loadedMemory (file : List UInt8) (payloadMemoryPtr : Nat) (memory : Memory) : Memory :=
  writeAll ((n.loadedBlocks file payloadMemoryPtr).map fun block =>
    (block.payloadMemoryPtr, read (tempBuffer block) 0 n.blockPayloadMemorySize)) memory

/-! ## Sender -/

/-- Where the sending loop has packet `p` of frame `f` within a memory block:
stride `p mod num` of chunk `f * chunks + p / num`, behind the header. -/
def sentOffset (f p : Nat) : Nat :=
  ((f * n.mediaSettings.chunksInFrameField + p / n.numOfPacketsInChunk) * n.numOfPacketsInChunk +
    p % n.numOfPacketsInChunk) * n.dataStrideSize + n.headerOffset

/-- The memory blocks hold the packets of the file where the sending loop reads
them, and the loader kept to its blocks. -/
structure LoadedAsSent (file : List UInt8) (payloadMemoryPtr : Nat) (memory : Memory) :
    Prop where
  placed : ∀ b < n.numOfMemoryBlocks, ∀ f < n.mediaSettings.framesFieldsInMemBlock,
    ∀ p < n.mediaSettings.packetsInFrameField,
      read (n.loadedMemory file payloadMemoryPtr memory)
          (payloadMemoryPtr + b * n.blockPayloadMemorySize + n.sentOffset f p)
          n.mediaSettings.rawPacketPayloadSize =
        readFile file
          (((b * n.mediaSettings.framesFieldsInMemBlock + f) *
            n.mediaSettings.packetsInFrameField + p) * n.mediaSettings.rawPacketPayloadSize)
          n.mediaSettings.rawPacketPayloadSize
  complete : n.numOfMemoryBlocks * n.mediaSettings.framesFieldsInMemBlock *
    n.mediaSettings.packetsInFrameField * n.mediaSettings.rawPacketPayloadSize ≤ file.length
  within : ∀ block ∈ n.loadedBlocks file payloadMemoryPtr, ∀ w ∈ block.writes,
    w.1 + w.2.length ≤ n.blockPayloadMemorySize

/-! ## What the loader writes -/

/-- A node with blocks of `packets` packets of `raw` bytes, all in the file. -/
structure Loads (file : List UInt8) (raw packets : Nat) : Prop where
  raw_pos : 0 < raw
  packetSize : n.filePacketSize = raw
  size : n.memBlockPayloadSizeInBytes = packets * raw
  stride : n.headerOffset + raw ≤ n.dataStrideSize
  complete : n.numOfMemoryBlocks * (packets * raw) ≤ file.length

/-- The packets from a position of the file, a stride apart. -/
def packetWrites (file : List UInt8) (raw packets position : Nat) : List (Nat × List UInt8) :=
  (List.range packets).map fun j =>
    (n.headerOffset + j * n.dataStrideSize, readFile file (position + j * raw) raw)

variable {n} {file : List UInt8} {raw packets : Nat}

theorem length_readFile {position count : Nat} (h : position + count ≤ file.length) :
    (readFile file position count).length = count := by
  rw [readFile, List.length_take, List.length_drop]
  omega

theorem length_readFile_le (position count : Nat) :
    (readFile file position count).length ≤ count := by
  rw [readFile, List.length_take]
  exact Nat.min_le_left _ _

/-- With `remaining` packets to go, and the file to fill them. -/
theorem fillLoop_eq (hRaw : 0 < raw) (hSize : n.filePacketSize = raw) (remaining : Nat) :
    ∀ {fuel totalBytesRead : Nat} (curDataPtr : Nat) {position : Nat}, remaining ≤ fuel →
      n.memBlockPayloadSizeInBytes = totalBytesRead + remaining * raw →
      position + remaining * raw ≤ file.length →
        n.fillLoop file fuel totalBytesRead curDataPtr position =
          (List.range remaining).map fun j =>
            (curDataPtr + j * n.dataStrideSize, readFile file (position + j * raw) raw) := by
  induction remaining with
  | zero =>
    intro fuel totalBytesRead curDataPtr position _ hTotal _
    cases fuel with
    | zero => rfl
    | succ fuel =>
      -- the block is full
      rw [fillLoop, if_neg (by omega)]
      rfl
  | succ remaining ih =>
    intro fuel totalBytesRead curDataPtr position hFuel hTotal hFile
    rw [Nat.succ_mul] at hTotal hFile
    obtain ⟨fuel, rfl⟩ : ∃ k, fuel = k + 1 := ⟨fuel - 1, by omega⟩
    have hBytes : (readFile file position raw).length = raw := length_readFile (by omega)
    -- a whole packet is read, and the loop goes on behind it
    rw [fillLoop, if_pos (by omega), hSize]
    dsimp only
    rw [if_neg (by omega), ih (curDataPtr + n.dataStrideSize) (by omega) (by omega) (by omega),
      List.range_succ_eq_map, List.map_cons, List.map_map]
    refine congrArg₂ List.cons (by simp) (List.map_congr_left fun j _ => ?_)
    simp only [Function.comp_apply, Nat.succ_mul]
    rw [show position + (j * raw + raw) = position + raw + j * raw by omega,
      show curDataPtr + (j * n.dataStrideSize + n.dataStrideSize) =
        curDataPtr + n.dataStrideSize + j * n.dataStrideSize by omega]

theorem Loads.fillWrites_eq (h : n.Loads file raw packets) {position : Nat}
    (hFile : position + packets * raw ≤ file.length) :
    n.fillWrites file position = n.packetWrites file raw packets position := by
  -- a turn for each byte is enough, as a packet has some
  refine fillLoop_eq h.raw_pos h.packetSize packets n.headerOffset ?_ ?_ hFile
  · rw [h.size]
    exact Nat.le_mul_of_pos_right packets h.raw_pos
  · rw [h.size, Nat.zero_add]

/-- What a block took from the file. -/
theorem sum_packetWrites {position : Nat} (hFile : position + packets * raw ≤ file.length) :
    ((n.packetWrites file raw packets position).map fun w => w.2.length).sum = packets * raw := by
  have hLengths : (n.packetWrites file raw packets position).map (fun w => w.2.length) =
      List.replicate packets raw := by
    refine List.eq_replicate_iff.mpr ⟨by simp [packetWrites], fun len hLen => ?_⟩
    obtain ⟨w, hW, rfl⟩ := List.mem_map.mp hLen
    obtain ⟨j, hJ, rfl⟩ := List.mem_map.mp hW
    -- the file is long enough for each of the packets
    have hPacket : (j + 1) * raw ≤ packets * raw :=
      Nat.mul_le_mul_right raw (List.mem_range.mp hJ)
    rw [Nat.succ_mul] at hPacket
    exact length_readFile (by omega)
  rw [hLengths, List.sum_replicate_nat]

theorem Loads.loadBlocks_eq (h : n.Loads file raw packets) (remaining : Nat) :
    ∀ (payloadMemoryPtr : Nat) {position : Nat},
      position + remaining * (packets * raw) ≤ file.length →
        n.loadBlocks file remaining payloadMemoryPtr position =
          (List.range remaining).map fun b =>
            ⟨payloadMemoryPtr + b * n.blockPayloadMemorySize,
              n.packetWrites file raw packets (position + b * (packets * raw))⟩ := by
  induction remaining with
  | zero => exact fun _ _ _ => rfl
  | succ remaining ih =>
    intro payloadMemoryPtr position hFile
    rw [Nat.succ_mul] at hFile
    -- the first block is read here, the others from behind it
    have hBlock : position + packets * raw ≤ file.length := by omega
    rw [loadBlocks, h.fillWrites_eq hBlock, sum_packetWrites hBlock,
      ih (payloadMemoryPtr + n.blockPayloadMemorySize) (by omega), List.range_succ_eq_map,
      List.map_cons, List.map_map]
    refine congrArg₂ List.cons (by simp) (List.map_congr_left fun b _ => ?_)
    simp only [Function.comp_apply, Nat.succ_mul]
    rw [show position + (b * (packets * raw) + packets * raw) =
        position + packets * raw + b * (packets * raw) by omega,
      show payloadMemoryPtr + (b * n.blockPayloadMemorySize + n.blockPayloadMemorySize) =
        payloadMemoryPtr + n.blockPayloadMemorySize + b * n.blockPayloadMemorySize by omega]

/-! ## What is in the memory -/

theorem Loads.inSeries_packetWrites (h : n.Loads file raw packets) (position : Nat) :
    InSeries (n.packetWrites file raw packets position) := by
  refine List.pairwise_map.mpr (List.pairwise_lt_range.imp fun {j k} hJK => ?_)
  have hLength := @length_readFile_le file (position + j * raw) raw
  have hStride := h.stride
  -- a packet ends within its stride
  have hStrides : (j + 1) * n.dataStrideSize ≤ k * n.dataStrideSize :=
    Nat.mul_le_mul_right _ hJK
  rw [Nat.succ_mul] at hStrides
  dsimp only
  omega

/-- The temporary buffer: a packet in each stride, and zeros behind the last. -/
theorem Loads.read_packetWrites (h : n.Loads file raw packets) {position : Nat}
    (hFile : position + packets * raw ≤ file.length) (j : Nat) :
    read (writeAll (n.packetWrites file raw packets position) fun _ => 0)
        (n.headerOffset + j * n.dataStrideSize) raw =
      if j < packets then readFile file (position + j * raw) raw else List.replicate raw 0 := by
  split
  · rename_i hPacket
    -- one of the packets that were written
    have hMem : (n.headerOffset + j * n.dataStrideSize, readFile file (position + j * raw) raw) ∈
        n.packetWrites file raw packets position :=
      List.mem_map.mpr ⟨j, List.mem_range.mpr hPacket, rfl⟩
    have hRange : (j + 1) * raw ≤ packets * raw := Nat.mul_le_mul_right raw hPacket
    rw [Nat.succ_mul] at hRange
    have hRead := read_writeAll (h.inSeries_packetWrites position) hMem fun _ => 0
    rwa [length_readFile (by omega)] at hRead
  · rename_i hBehind
    rw [read_writeAll_of_disjoint, read_zeros]
    intro w hW
    obtain ⟨k, hK, rfl⟩ := List.mem_map.mp hW
    -- all writes end before the stride
    have hKJ : (k + 1) * n.dataStrideSize ≤ j * n.dataStrideSize :=
      Nat.mul_le_mul_right _ (by have := List.mem_range.mp hK; omega)
    have hLength := @length_readFile_le file (position + k * raw) raw
    have hStride := h.stride
    rw [Nat.succ_mul] at hKJ
    dsimp only
    omega

/-- The loader keeps to the temporary buffer, which is as long as a block. -/
theorem Loads.within (h : n.Loads file raw packets)
    (hRoom : (packets - 1) * n.dataStrideSize + (n.headerOffset + raw) ≤
      n.blockPayloadMemorySize) (payloadMemoryPtr : Nat) :
    ∀ block ∈ n.loadedBlocks file payloadMemoryPtr, ∀ w ∈ block.writes,
      w.1 + w.2.length ≤ n.blockPayloadMemorySize := by
  intro block hBlock w hW
  have hComplete := h.complete
  rw [loadedBlocks, h.loadBlocks_eq n.numOfMemoryBlocks payloadMemoryPtr (by omega)] at hBlock
  obtain ⟨b, -, rfl⟩ := List.mem_map.mp hBlock
  obtain ⟨j, hJ, rfl⟩ := List.mem_map.mp hW
  have hLength := @length_readFile_le file (0 + b * (packets * raw) + j * raw) raw
  -- no packet lies behind the last
  have hStrides : j * n.dataStrideSize ≤ (packets - 1) * n.dataStrideSize :=
    Nat.mul_le_mul_right _ (by have := List.mem_range.mp hJ; omega)
  dsimp only
  omega

/-- Stride `j` of block `b` after loading, if the block is that long. -/
theorem Loads.read_loadedMemory (h : n.Loads file raw packets) (payloadMemoryPtr : Nat)
    (memory : Memory) {b j : Nat} (hBlock : b < n.numOfMemoryBlocks)
    (hInside : j * n.dataStrideSize + (n.headerOffset + raw) ≤ n.blockPayloadMemorySize) :
    read (n.loadedMemory file payloadMemoryPtr memory)
        (payloadMemoryPtr + b * n.blockPayloadMemorySize +
          (j * n.dataStrideSize + n.headerOffset)) raw =
      if j < packets then readFile file ((b * packets + j) * raw) raw
      else List.replicate raw 0 := by
  have hComplete := h.complete
  have hFile : b * (packets * raw) + packets * raw ≤ file.length := by
    have hBlocks : (b + 1) * (packets * raw) ≤ n.numOfMemoryBlocks * (packets * raw) :=
      Nat.mul_le_mul_right _ hBlock
    rw [Nat.succ_mul] at hBlocks
    omega
  let block : LoadedBlock := ⟨payloadMemoryPtr + b * n.blockPayloadMemorySize,
    n.packetWrites file raw packets (0 + b * (packets * raw))⟩
  have hBlocks := h.loadBlocks_eq n.numOfMemoryBlocks payloadMemoryPtr
    (show 0 + n.numOfMemoryBlocks * (packets * raw) ≤ file.length by omega)
  -- the blocks are copied one behind the other
  have hSeries : InSeries ((n.loadedBlocks file payloadMemoryPtr).map fun block =>
      (block.payloadMemoryPtr, read (tempBuffer block) 0 n.blockPayloadMemorySize)) := by
    rw [loadedBlocks, hBlocks, List.map_map]
    refine List.pairwise_map.mpr (List.pairwise_lt_range.imp fun {i k} hIK => ?_)
    have hNext : (i + 1) * n.blockPayloadMemorySize ≤ k * n.blockPayloadMemorySize :=
      Nat.mul_le_mul_right _ hIK
    rw [Nat.succ_mul] at hNext
    dsimp only [Function.comp_apply]
    rw [length_read]
    omega
  have hMem : (block.payloadMemoryPtr, read (tempBuffer block) 0 n.blockPayloadMemorySize) ∈
      (n.loadedBlocks file payloadMemoryPtr).map fun block =>
        (block.payloadMemoryPtr, read (tempBuffer block) 0 n.blockPayloadMemorySize) := by
    refine List.mem_map_of_mem ?_
    rw [loadedBlocks, hBlocks]
    exact List.mem_map.mpr ⟨b, List.mem_range.mpr hBlock, rfl⟩
  have hCopied := read_writeAll hSeries hMem memory
  rw [length_read] at hCopied
  -- the stride is a part of its block, and that a copy of the buffer
  have hPart := read_part hCopied (show j * n.dataStrideSize + n.headerOffset + raw ≤ _ by omega)
  have hBuffer := read_part (show read (tempBuffer block) 0 n.blockPayloadMemorySize = _ from rfl)
    (show j * n.dataStrideSize + n.headerOffset + raw ≤ _ by omega)
  rw [loadedMemory, hPart, ← hBuffer, Nat.zero_add, Nat.add_comm (j * n.dataStrideSize)]
  have hStrideRead := h.read_packetWrites
    (show 0 + b * (packets * raw) + packets * raw ≤ _ by omega) j
  rw [show (b * packets + j) * raw = 0 + b * (packets * raw) + j * raw by ring]
  exact hStrideRead

/-- In a memory that was empty, a byte is zero or one of a packet of the file. -/
theorem Loads.byte_loadedMemory (h : n.Loads file raw packets) (payloadMemoryPtr : Nat) {a : Nat}
    (hByte : n.loadedMemory file payloadMemoryPtr (fun _ => 0) a ≠ 0) :
    ∃ b j i, j < packets ∧ i < raw ∧
      a = payloadMemoryPtr + b * n.blockPayloadMemorySize +
        (n.headerOffset + j * n.dataStrideSize + i) ∧
      file[(b * packets + j) * raw + i]? =
        some (n.loadedMemory file payloadMemoryPtr (fun _ => 0) a) := by
  have hComplete := h.complete
  rw [loadedMemory] at hByte ⊢
  generalize hLoaded : writeAll _ _ a = byte at hByte ⊢
  -- the byte was copied from a temporary buffer
  obtain ⟨copied, hCopied, k, rfl, hK⟩ := (writeAll_apply _ _ a).resolve_left
    (hLoaded ▸ hByte)
  rw [hLoaded] at hK
  obtain ⟨block, hBlock, rfl⟩ := List.mem_map.mp hCopied
  rw [loadedBlocks, h.loadBlocks_eq n.numOfMemoryBlocks payloadMemoryPtr (by omega)] at hBlock
  obtain ⟨b, -, rfl⟩ := List.mem_map.mp hBlock
  obtain ⟨hLength, hBuffer⟩ := List.getElem?_eq_some_iff.mp hK
  -- where it came from a packet
  rw [getElem_read, tempBuffer, Nat.zero_add, Nat.zero_add] at hBuffer
  obtain ⟨w, hW, i, rfl, hI⟩ := (writeAll_apply _ _ k).resolve_left (hBuffer ▸ hByte)
  rw [hBuffer] at hI
  obtain ⟨j, hJ, rfl⟩ := List.mem_map.mp hW
  have hShort := (List.getElem?_eq_some_iff.mp hI).1
  have hRaw := @length_readFile_le file (b * (packets * raw) + j * raw) raw
  dsimp only at hI hShort
  refine ⟨b, j, i, List.mem_range.mp hJ, by omega, rfl, ?_⟩
  rw [readFile, List.getElem?_take, if_pos (by omega), List.getElem?_drop] at hI
  rw [← hI, Nat.add_mul, Nat.mul_assoc]

/-! ## Nodes of initialized settings -/

theorem le_alignUpPow2 {a line : Nat} (hLine : 0 < line) : a ≤ alignUpPow2 a line :=
  le_ceil_mul hLine

/-- A block is never longer than a `size_t` can say. -/
theorem determineMemoryLayoutForSingleBlock_lt (n : MediaSenderMemory) :
    n.determineMemoryLayoutForSingleBlock.2 < 2 ^ 64 := by
  unfold determineMemoryLayoutForSingleBlock
  dsimp only
  split
  · unfold IONodeMemoryUtils.getAlignedPayloadSize MemoryAllocator.alignLength
    split
    · exact sizeT_lt _
    · exact sizeT_lt _
  · exact sizeT_lt _

/-- What the loader and the sending loop use of a node that was set up. -/
structure NodeOf (s' : AppSettings) (size : Nat) (n : MediaSenderMemory) : Prop where
  media : n.mediaSettings = s'.media
  chunk : n.numOfPacketsInChunk = s'.numOfPacketsInChunk
  chunk_pos : 0 < s'.numOfPacketsInChunk
  chunks : s'.media.chunksInFrameField =
    (s'.media.packetsInFrameField + s'.numOfPacketsInChunk - 1) / s'.numOfPacketsInChunk
  chunksInMemBlock : n.numOfChunksInMemBlock =
    s'.media.framesFieldsInMemBlock * s'.media.chunksInFrameField
  raw_pos : 0 < s'.media.rawPacketPayloadSize
  raw_lt : s'.media.rawPacketPayloadSize < 2 ^ 16
  payload : n.headerOffset + s'.media.rawPacketPayloadSize = n.packetPayloadSize
  stride : n.packetPayloadSize ≤ n.dataStrideSize
  field_lt : s'.media.rawPacketPayloadSize * s'.media.packetsInFrameField < 2 ^ 32
  block_lt : n.blockPayloadMemorySize < 2 ^ 64
  file : n.getNumberOfMemBlocksPerFile { isOpen := true, size := size, fills := fun _ => true } =
    some n.numOfMemoryBlocks

theorem rawPayloadSize_lt (sampling : VideoSampling) (bitDepth : ColorBitDepth) :
    rawPayloadSize sampling bitDepth < 2 ^ 16 := by
  unfold rawPayloadSize colorDepthToPayloadSize
  split <;> decide

theorem nodeOf_initializeMemoryLayout {s s' : AppSettings} {n : MediaSenderMemory}
    {numOfStreams cacheLineSize size : Nat} {gpuEnabled : Bool} {memoryUtils : IONodeMemoryUtils}
    (hInit : initializeCommonMediaSettings s = some s')
    (hMode : s.headerDataSplit = true ∨ s.packetAppHeaderSize = 0) (hLine : 0 < cacheLineSize)
    (hNode : (ofSettings s' numOfStreams cacheLineSize gpuEnabled memoryUtils
      size).initializeMemoryLayout = some n) : NodeOf s' size n := by
  obtain ⟨bytes, pixels, h⟩ := computed_of_eq_some hInit
  have hRaw : 0 < rawPayloadSize s.media.samplingType s.media.bitDepth := rawPayloadSize_pos h
  have hChunk := h.chunk_pos
  unfold initializeMemoryLayout at hNode
  dsimp only at hNode
  split at hNode
  · cases hNode
  rename_i blocks hBlocks
  obtain rfl := Option.some.inj hNode
  obtain rfl := h.settings
  refine ⟨rfl, rfl, hChunk, rfl, rfl, hRaw, rawPayloadSize_lt _ _, ?_, le_alignUpPow2 hLine, ?_,
    determineMemoryLayoutForSingleBlock_lt _, hBlocks⟩
  · -- both modes leave the raw payload behind the header offset
    show (if decide ((if s.headerDataSplit then RTP_ST_2110_20_SINGLE_SRD_HEADER_SIZE
        else s.packetAppHeaderSize) ≠ 0) then 0 else RTP_ST_2110_20_SINGLE_SRD_HEADER_SIZE) +
      rawPayloadSize s.media.samplingType s.media.bitDepth =
        if s.headerDataSplit then rawPayloadSize s.media.samplingType s.media.bitDepth
        else colorDepthToPayloadSize s.media.samplingType s.media.bitDepth
    cases hSplit : s.headerDataSplit with
    | true => exact Nat.zero_add _
    | false =>
      have hNone : s.packetAppHeaderSize = 0 := by simpa [hSplit] using hMode
      rw [hNone]
      show RTP_ST_2110_20_SINGLE_SRD_HEADER_SIZE + (_ - RTP_ST_2110_20_SINGLE_SRD_HEADER_SIZE) = _
      unfold rawPayloadSize at hRaw
      exact Nat.add_sub_of_le (by omega)
  · show rawPayloadSize s.media.samplingType s.media.bitDepth *
      ((s.media.resolution.width.toNat * s.media.resolution.height.toNat * bytes / pixels %
          2 ^ 32) / rawPayloadSize s.media.samplingType s.media.bitDepth /
        s.media.videoScanType.fields) < 2 ^ 32
    generalize s.media.resolution.width.toNat * s.media.resolution.height.toNat * bytes / pixels =
      frame
    generalize rawPayloadSize s.media.samplingType s.media.bitDepth = raw
    calc raw * (frame % 2 ^ 32 / raw / s.media.videoScanType.fields)
        ≤ raw * (frame % 2 ^ 32 / raw) := Nat.mul_le_mul_left raw (Nat.div_le_self _ _)
      _ ≤ frame % 2 ^ 32 := Nat.mul_div_le _ _
      _ < 2 ^ 32 := Nat.mod_lt _ (by decide)

/-- The bytes of the packets of a block. -/
def blockBytes (s' : AppSettings) : Nat :=
  s'.media.framesFieldsInMemBlock * s'.media.packetsInFrameField * s'.media.rawPacketPayloadSize

section Node

variable {s' : AppSettings} {size : Nat}

/-- The last packet of a block ends within it. -/
def HasRoom (n : MediaSenderMemory) : Prop :=
  (n.mediaSettings.framesFieldsInMemBlock * n.mediaSettings.packetsInFrameField - 1) *
    n.dataStrideSize + n.packetPayloadSize ≤ n.blockPayloadMemorySize

instance (n : MediaSenderMemory) : Decidable n.HasRoom := inferInstanceAs (Decidable (_ ≤ _))

theorem NodeOf.frame_le (h : NodeOf s' size n) :
    s'.media.packetsInFrameField ≤ s'.media.chunksInFrameField * s'.numOfPacketsInChunk := by
  rw [h.chunks]
  exact le_ceil_mul h.chunk_pos

/-- The last packet of a block, in a block that has room for it. -/
theorem NodeOf.room (h : NodeOf s' size n) (hRoom : n.HasRoom) :
    (s'.media.framesFieldsInMemBlock * s'.media.packetsInFrameField - 1) * n.dataStrideSize +
      (n.headerOffset + s'.media.rawPacketPayloadSize) ≤ n.blockPayloadMemorySize := by
  rw [HasRoom, h.media] at hRoom
  rwa [h.payload]

/-- The packets of a block that has room for them can be counted. -/
theorem NodeOf.blockBytes_lt (h : NodeOf s' size n) (hRoom : n.HasRoom) :
    blockBytes s' < 2 ^ 64 := by
  have hLast := (h.room hRoom).trans_lt h.block_lt
  have hStride : s'.media.rawPacketPayloadSize ≤ n.dataStrideSize := by
    have := h.payload
    have := h.stride
    omega
  rw [blockBytes]
  revert hLast
  cases s'.media.framesFieldsInMemBlock * s'.media.packetsInFrameField with
  | zero => simp
  | succ packets =>
    intro hLast
    have hPackets := Nat.mul_le_mul_left packets hStride
    rw [Nat.add_sub_cancel] at hLast
    rw [Nat.succ_mul]
    omega

/-- As many blocks as the file fills, by a count that may wrap. -/
theorem NodeOf.numOfMemoryBlocks_eq (h : NodeOf s' size n) :
    0 < sizeT (blockBytes s') ∧ n.numOfMemoryBlocks = size / sizeT (blockBytes s') := by
  have hBytes : (if n.isHdsOn = true then
      sizeT ((n.packetPayloadSize * n.mediaSettings.packetsInFrameField) % 2 ^ 32 *
        n.mediaSettings.framesFieldsInMemBlock)
    else
      sizeT (sizeT (n.packetPayloadSize + 2 ^ 64 - n.mediaSettings.protocolHeaderSize) *
        n.mediaSettings.packetsInFrameField * n.mediaSettings.framesFieldsInMemBlock)) =
      sizeT (blockBytes s') := by
    have hProduct : s'.media.rawPacketPayloadSize * s'.media.packetsInFrameField *
        s'.media.framesFieldsInMemBlock = blockBytes s' := by
      unfold blockBytes
      ring
    have hPayload := h.payload
    unfold headerOffset at hPayload
    split
    · rename_i hSplit
      rw [if_pos hSplit, Nat.zero_add] at hPayload
      -- the first product fits the `uint32_t` it is made in
      rw [← hPayload, h.media, Nat.mod_eq_of_lt h.field_lt, hProduct]
    · rename_i hCombined
      rw [if_neg hCombined] at hPayload
      -- the header that is taken off was part of the payload size
      have hRaw : sizeT (n.packetPayloadSize + 2 ^ 64 - n.mediaSettings.protocolHeaderSize) =
          s'.media.rawPacketPayloadSize := by
        have hLt := h.raw_lt
        rw [← hPayload, sizeT]
        omega
      rw [hRaw, h.media, hProduct]
  have hFile := h.file
  unfold getNumberOfMemBlocksPerFile at hFile
  dsimp only at hFile
  rw [hBytes] at hFile
  split at hFile
  · cases hFile
  · rename_i hPos
    exact ⟨by omega, (Option.some.inj hFile).symm⟩

theorem NodeOf.loads (h : NodeOf s' size n) (hBytes : blockBytes s' < 2 ^ 64)
    (hSize : file.length = size) :
    n.Loads file s'.media.rawPacketPayloadSize
      (s'.media.framesFieldsInMemBlock * s'.media.packetsInFrameField) := by
  have hStride := h.stride
  have hPayload := h.payload
  have hPacket : n.filePacketSize = s'.media.rawPacketPayloadSize := by
    rw [filePacketSize, ← hPayload, Nat.add_sub_cancel_left]
  refine ⟨h.raw_pos, hPacket, ?_, by omega, ?_⟩
  · rw [memBlockPayloadSizeInBytes, hPacket, h.media]
    refine (sizeT_of_lt ?_).trans ?_
    · refine lt_of_eq_of_lt ?_ hBytes
      unfold blockBytes
      ring
    · ring
  · rw [h.numOfMemoryBlocks_eq.2, hSize, sizeT_of_lt hBytes]
    exact Nat.div_mul_le_self size (blockBytes s')

/-- Where the sending loop reads, counted in strides. -/
theorem NodeOf.sentOffset_eq (h : NodeOf s' size n) (f p : Nat) :
    n.sentOffset f p =
      (f * (s'.media.chunksInFrameField * s'.numOfPacketsInChunk) + p) * n.dataStrideSize +
        n.headerOffset := by
  have hStride : (f * s'.media.chunksInFrameField + p / s'.numOfPacketsInChunk) *
      s'.numOfPacketsInChunk + p % s'.numOfPacketsInChunk =
        f * (s'.media.chunksInFrameField * s'.numOfPacketsInChunk) + p := by
    rw [Nat.add_mul, Nat.add_assoc, Nat.div_add_mod', Nat.mul_assoc]
  rw [sentOffset, h.media, h.chunk, hStride]

/-- A block has room for its packets, unless its size wraps. -/
theorem hasRoom_of_lt {s : AppSettings} {numOfStreams cacheLineSize : Nat} {gpuEnabled : Bool}
    {memoryUtils : IONodeMemoryUtils} (hInit : initializeCommonMediaSettings s = some s')
    (hMode : s.headerDataSplit = true ∨ s.packetAppHeaderSize = 0) (hLine : 0 < cacheLineSize)
    (hNode : (ofSettings s' numOfStreams cacheLineSize gpuEnabled memoryUtils
      size).initializeMemoryLayout = some n)
    (hPage : 0 < memoryUtils.payloadAllocator.pageSize)
    (hLt : n.dataStrideSize * (n.numOfPacketsInChunk * n.numOfChunksInMemBlock) +
      memoryUtils.payloadAllocator.pageSize ≤ 2 ^ 64) : n.HasRoom := by
  have h := nodeOf_initializeMemoryLayout hInit hMode hLine hNode
  have hBlock : n.dataStrideSize * (n.numOfPacketsInChunk * n.numOfChunksInMemBlock) ≤
      n.blockPayloadMemorySize := by
    have hStride : 0 < n.dataStrideSize := by
      have := h.raw_pos
      have := h.payload
      have := h.stride
      omega
    have hCount := Nat.le_mul_of_pos_left (n.numOfPacketsInChunk * n.numOfChunksInMemBlock) hStride
    -- the layout, with its products in `size_t`
    have hLayout : n.blockPayloadMemorySize =
        if gpuEnabled then memoryUtils.getAlignedPayloadSize (sizeT (n.dataStrideSize *
          sizeT (n.numOfPacketsInChunk * n.numOfChunksInMemBlock)))
        else sizeT (n.dataStrideSize *
          sizeT (n.numOfPacketsInChunk * n.numOfChunksInMemBlock)) := by
      unfold initializeMemoryLayout at hNode
      dsimp only at hNode
      split at hNode
      · cases hNode
      · obtain rfl := Option.some.inj hNode
        rfl
    have hStrides : n.numOfPacketsInChunk * n.numOfChunksInMemBlock < 2 ^ 64 := by omega
    rw [hLayout, sizeT_of_lt hStrides, sizeT_of_lt (by omega)]
    split
    · exact MemoryAllocator.le_alignLength hPage hLt
    · exact Nat.le_refl _
  -- every packet has a stride in the chunks of its frame
  have hPackets : 0 < s'.media.framesFieldsInMemBlock * s'.media.packetsInFrameField := by
    refine Nat.pos_of_ne_zero fun hZero => ?_
    have hPos := h.numOfMemoryBlocks_eq.1
    rw [blockBytes, hZero, Nat.zero_mul] at hPos
    exact absurd hPos (by decide)
  have hFrames := Nat.mul_le_mul_left s'.media.framesFieldsInMemBlock h.frame_le
  have hStrides := Nat.mul_le_mul_right n.dataStrideSize hFrames
  have hChunks : n.dataStrideSize * (n.numOfPacketsInChunk * n.numOfChunksInMemBlock) =
      s'.media.framesFieldsInMemBlock * (s'.media.chunksInFrameField * s'.numOfPacketsInChunk) *
        n.dataStrideSize := by
    rw [h.chunk, h.chunksInMemBlock]
    ring
  have hLast : (s'.media.framesFieldsInMemBlock * s'.media.packetsInFrameField - 1) *
      n.dataStrideSize + n.dataStrideSize =
        s'.media.framesFieldsInMemBlock * s'.media.packetsInFrameField * n.dataStrideSize := by
    rw [← Nat.succ_mul, Nat.succ_eq_add_one, Nat.sub_add_cancel hPackets]
  have hPayload := h.stride
  rw [HasRoom, h.media]
  omega

/-- Where no block fits into the file, nothing is loaded. -/
theorem NodeOf.loadedAsSent_of_short (h : NodeOf s' size n) (hShort : size < sizeT (blockBytes s'))
    (payloadMemoryPtr : Nat) (memory : Memory) :
    n.LoadedAsSent file payloadMemoryPtr memory := by
  have hBlocks : n.numOfMemoryBlocks = 0 := by
    rw [h.numOfMemoryBlocks_eq.2, Nat.div_eq_of_lt hShort]
  refine ⟨?_, ?_, ?_⟩
  · intro b hB
    omega
  · simp [hBlocks]
  · intro block hBlock
    rw [loadedBlocks, hBlocks] at hBlock
    cases hBlock

/-- With frames that end with a chunk, or one frame in a block, the two walks are
one. -/
theorem NodeOf.loadedAsSent (h : NodeOf s' size n) (hRoom : n.HasRoom)
    (hSize : file.length = size) (payloadMemoryPtr : Nat) (memory : Memory)
    (hWalks : s'.media.framesFieldsInMemBlock ≤ 1 ∨
      s'.numOfPacketsInChunk ∣ s'.media.packetsInFrameField) :
    n.LoadedAsSent file payloadMemoryPtr memory := by
  have hLoads := h.loads (h.blockBytes_lt hRoom) hSize
  refine ⟨?_, ?_, ?_⟩
  · intro b hB f hF p hP
    rw [h.media] at hF hP ⊢
    have hFrame : f * (s'.media.chunksInFrameField * s'.numOfPacketsInChunk) =
        f * s'.media.packetsInFrameField := by
      -- the strides before a frame are as many as its packets before
      rcases hWalks with hOne | hDvd
      · rw [show f = 0 by omega, Nat.zero_mul, Nat.zero_mul]
      · rw [h.chunks, (ceil_mul_eq_iff h.chunk_pos).mpr hDvd]
    have hFrames : (f + 1) * s'.media.packetsInFrameField ≤
        s'.media.framesFieldsInMemBlock * s'.media.packetsInFrameField :=
      Nat.mul_le_mul_right _ hF
    rw [Nat.succ_mul] at hFrames
    -- no packet is behind the last one
    have hInside : (f * s'.media.packetsInFrameField + p) * n.dataStrideSize +
        (n.headerOffset + s'.media.rawPacketPayloadSize) ≤ n.blockPayloadMemorySize :=
      (Nat.add_le_add_right (Nat.mul_le_mul_right _ (by omega)) _).trans (h.room hRoom)
    rw [h.sentOffset_eq, hFrame, hLoads.read_loadedMemory payloadMemoryPtr memory hB hInside,
      if_pos (by omega)]
    congr 1
    ring
  · rw [h.media]
    have hComplete := hLoads.complete
    rwa [← Nat.mul_assoc, ← Nat.mul_assoc] at hComplete
  · exact hLoads.within (h.room hRoom) payloadMemoryPtr

/-- A file that shows where its packet `packet` goes. -/
def markedFile (size raw packet : Nat) : List UInt8 :=
  (List.range size).map fun i => if packet * raw ≤ i ∧ i < (packet + 1) * raw then 1 else 0

@[simp] theorem length_markedFile (size raw packet : Nat) :
    (markedFile size raw packet).length = size := by
  simp [markedFile]

theorem getElem?_markedFile {size raw packet i : Nat} (hI : i < size) :
    (markedFile size raw packet)[i]? =
      some (if packet * raw ≤ i ∧ i < (packet + 1) * raw then 1 else 0) := by
  rw [markedFile, List.getElem?_map, List.getElem?_range hI]
  rfl

theorem marked_of_getElem? {size raw packet i : Nat}
    (h : (markedFile size raw packet)[i]? = some 1) :
    packet * raw ≤ i ∧ i < (packet + 1) * raw := by
  have hI := (List.getElem?_eq_some_iff.mp h).1
  rw [length_markedFile] at hI
  rw [getElem?_markedFile hI] at h
  by_contra hOutside
  rw [if_neg hOutside] at h
  cases h

/-- The mark is in no other packet. -/
theorem eq_of_marked {raw packet k i : Nat} (hI : i < raw)
    (h : packet * raw ≤ k * raw + i ∧ k * raw + i < (packet + 1) * raw) : k = packet := by
  have hLow : packet < k + 1 := Nat.lt_of_mul_lt_mul_right (a := raw) (by
    rw [Nat.succ_mul]
    omega)
  have hHigh : k < packet + 1 := Nat.lt_of_mul_lt_mul_right (a := raw) (by omega)
  omega

theorem head?_readFile {position count : Nat} (hCount : 0 < count) :
    (readFile file position count).head? = file[position]? := by
  rw [readFile, List.head?_take, if_neg (by omega), List.head?_drop]

/-- A loader that takes no more than the file has does not wrap. -/
theorem NodeOf.blockBytes_le (h : NodeOf s' size n) (hSize : file.length = size)
    (hLong : sizeT (blockBytes s') ≤ size) {payloadMemoryPtr : Nat} {memory : Memory}
    (hLoaded : n.LoadedAsSent file payloadMemoryPtr memory) : blockBytes s' ≤ size := by
  obtain ⟨hPos, hBlocks⟩ := h.numOfMemoryBlocks_eq
  have hComplete := hLoaded.complete
  rw [h.media, hSize, Nat.mul_assoc, Nat.mul_assoc,
    ← Nat.mul_assoc _ _ (MediaSettings.rawPacketPayloadSize _)] at hComplete
  -- there is a first block, and the file has its packets
  refine (Nat.le_mul_of_pos_left _ ?_).trans hComplete
  rw [hBlocks]
  exact Nat.div_pos hLong hPos

/-- A loader that keeps to its blocks has room for the last packet of one. -/
theorem NodeOf.hasRoom (h : NodeOf s' size n) (hSize : file.length = size)
    (hBytes : blockBytes s' < 2 ^ 64) (hLong : blockBytes s' ≤ size)
    {payloadMemoryPtr : Nat} {memory : Memory}
    (hLoaded : n.LoadedAsSent file payloadMemoryPtr memory) : n.HasRoom := by
  have hLoads := h.loads hBytes hSize
  obtain ⟨hPos, hBlocks⟩ := h.numOfMemoryBlocks_eq
  rw [sizeT_of_lt hBytes] at hPos hBlocks
  have hBlock : 0 < n.numOfMemoryBlocks := by
    rw [hBlocks]
    exact Nat.div_pos hLong hPos
  have hComplete := hLoads.complete
  have hPackets : 0 < s'.media.framesFieldsInMemBlock * s'.media.packetsInFrameField :=
    Nat.pos_of_mul_pos_right hPos
  have hFirst := hLoads.loadBlocks_eq n.numOfMemoryBlocks payloadMemoryPtr
    (show 0 + n.numOfMemoryBlocks * _ ≤ file.length by rwa [Nat.zero_add])
  -- the write of the last packet of the first block
  have hWithin := hLoaded.within _ (by
    rw [loadedBlocks, hFirst]
    exact List.mem_map.mpr ⟨0, List.mem_range.mpr hBlock, rfl⟩) _
    (List.mem_map.mpr ⟨_, List.mem_range.mpr (Nat.sub_lt hPackets Nat.one_pos), rfl⟩)
  have hLast : (s'.media.framesFieldsInMemBlock * s'.media.packetsInFrameField - 1) *
      s'.media.rawPacketPayloadSize + s'.media.rawPacketPayloadSize = blockBytes s' := by
    rw [← Nat.succ_mul, Nat.succ_eq_add_one, Nat.sub_add_cancel hPackets, blockBytes]
  rw [length_readFile (by omega)] at hWithin
  rw [HasRoom, h.media, ← h.payload]
  omega

/-- Where frames end within a chunk, the second frame of a block is not where the
sending loop looks for it. -/
theorem NodeOf.not_loadedAsSent (h : NodeOf s' size n) (payloadMemoryPtr : Nat)
    (hBytes : blockBytes s' < 2 ^ 64) (hLong : blockBytes s' ≤ size)
    (hFrames : 2 ≤ s'.media.framesFieldsInMemBlock)
    (hPartial : ¬s'.numOfPacketsInChunk ∣ s'.media.packetsInFrameField) :
    ¬n.LoadedAsSent
      (markedFile size s'.media.rawPacketPayloadSize s'.media.packetsInFrameField)
      payloadMemoryPtr fun _ => 0 := by
  intro hLoaded
  obtain ⟨hPos, hBlocks⟩ := h.numOfMemoryBlocks_eq
  rw [sizeT_of_lt hBytes] at hPos hBlocks
  have hRaw := h.raw_pos
  have hBlock : 0 < n.numOfMemoryBlocks := by
    rw [hBlocks]
    exact Nat.div_pos hLong hPos
  have hPacket : 0 < s'.media.packetsInFrameField :=
    Nat.pos_of_ne_zero fun hZero => hPartial (hZero ▸ Nat.dvd_zero _)
  have hPlaced := hLoaded.placed 0 hBlock 1 (by rw [h.media]; omega) 0 (by rwa [h.media])
  rw [h.media, h.sentOffset_eq, Nat.zero_mul, Nat.zero_mul, Nat.zero_add, Nat.one_mul,
    Nat.one_mul, Nat.add_zero, Nat.add_zero, Nat.add_zero] at hPlaced
  -- the file has its mark there
  have hSecond : 2 * s'.media.packetsInFrameField * s'.media.rawPacketPayloadSize ≤ size :=
    (Nat.mul_le_mul_right _ (Nat.mul_le_mul_right _ hFrames)).trans hLong
  have hFrame := Nat.mul_pos hPacket hRaw
  have hExpected : (readFile (markedFile size s'.media.rawPacketPayloadSize
      s'.media.packetsInFrameField) (s'.media.packetsInFrameField * s'.media.rawPacketPayloadSize)
      s'.media.rawPacketPayloadSize).head? = some 1 := by
    rw [Nat.mul_assoc, Nat.two_mul] at hSecond
    rw [head?_readFile hRaw, getElem?_markedFile (by omega), if_pos]
    rw [Nat.succ_mul]
    exact ⟨Nat.le_refl _, Nat.lt_add_of_pos_right hRaw⟩
  rw [← hPlaced, head?_read hRaw] at hExpected
  have hOne := Option.some.inj hExpected
  -- and the loader has the mark in the stride behind the first frame
  obtain ⟨b, j, i, hJ, hI, hAt, hFile⟩ :=
    (h.loads hBytes (length_markedFile _ _ _)).byte_loadedMemory payloadMemoryPtr
      (ne_of_eq_of_ne hOne (by decide))
  rw [hOne] at hFile
  have hPacketOf : b * (s'.media.framesFieldsInMemBlock * s'.media.packetsInFrameField) + j =
      s'.media.packetsInFrameField := eq_of_marked hI (marked_of_getElem? hFile)
  -- it is the first block that has it
  have hFirst : b = 0 := by
    by_contra hLater
    have hBlockOf : 2 * s'.media.packetsInFrameField ≤
        b * (s'.media.framesFieldsInMemBlock * s'.media.packetsInFrameField) :=
      (Nat.mul_le_mul_right _ hFrames).trans
        (Nat.le_mul_of_pos_left _ (Nat.pos_of_ne_zero hLater))
    omega
  obtain rfl := hFirst
  rw [Nat.zero_mul, Nat.zero_add] at hPacketOf
  -- but the loop looks a stride further at least
  have hBehind : (s'.media.packetsInFrameField + 1) * n.dataStrideSize ≤
      s'.media.chunksInFrameField * s'.numOfPacketsInChunk * n.dataStrideSize := by
    refine Nat.mul_le_mul_right _ (Nat.lt_of_le_of_ne h.frame_le fun hEq => hPartial ?_)
    rw [h.chunks, eq_comm] at hEq
    exact (ceil_mul_eq_iff h.chunk_pos).mp hEq
  have hStride := h.stride
  have hPayload := h.payload
  rw [hPacketOf, Nat.zero_mul] at hAt
  rw [Nat.succ_mul] at hBehind
  omega

end Node

/-- **Static video file.** In both modes, from any address, with any files of a
size: the loader puts every packet where the sending loop reads it, and keeps to
its blocks, exactly if no block fits into the file, or a block has room for its
last packet and either holds one frame or field, or chunks divide the frame or
field. -/
theorem loadedAsSent_iff {s s' : AppSettings} {n : MediaSenderMemory}
    {numOfStreams cacheLineSize size : Nat} {gpuEnabled : Bool} {memoryUtils : IONodeMemoryUtils}
    (hInit : initializeCommonMediaSettings s = some s')
    (hMode : s.headerDataSplit = true ∨ s.packetAppHeaderSize = 0) (hLine : 0 < cacheLineSize)
    (hFile : size < 2 ^ 64)
    (hNode : (ofSettings s' numOfStreams cacheLineSize gpuEnabled memoryUtils
      size).initializeMemoryLayout = some n) (payloadMemoryPtr : Nat) :
    (∀ file : List UInt8, file.length = size → ∀ memory,
      n.LoadedAsSent file payloadMemoryPtr memory) ↔
      size < sizeT (blockBytes s') ∨ (n.HasRoom ∧ (s'.media.framesFieldsInMemBlock ≤ 1 ∨
        s'.numOfPacketsInChunk ∣ s'.media.packetsInFrameField)) := by
  have h := nodeOf_initializeMemoryLayout hInit hMode hLine hNode
  constructor
  · intro hAll
    rw [or_iff_not_imp_left, Nat.not_lt]
    intro hFits
    -- one file tells: the marked one, in an empty memory
    have hMarked := hAll (markedFile size s'.media.rawPacketPayloadSize
      s'.media.packetsInFrameField) (length_markedFile _ _ _) fun _ => 0
    have hLong := h.blockBytes_le (length_markedFile _ _ _) hFits hMarked
    have hBytes := hLong.trans_lt hFile
    refine ⟨h.hasRoom (length_markedFile _ _ _) hBytes hLong hMarked, ?_⟩
    by_contra hDiffer
    rw [not_or] at hDiffer
    exact h.not_loadedAsSent payloadMemoryPtr hBytes hLong (by omega) hDiffer.2 hMarked
  · rintro (hShort | ⟨hRoom, hWalks⟩) file hSize memory
    · exact h.loadedAsSent_of_short hShort payloadMemoryPtr memory
    · exact h.loadedAsSent hRoom hSize payloadMemoryPtr memory hWalks

/-- Ordinary pages for both memories. -/
def pageMemoryUtils : IONodeMemoryUtils :=
  ⟨{ pageSize := 4096, allocate := fun _ => 4096 }, { pageSize := 4096, allocate := fun _ => 4096 }⟩

/-- A static file of `size` bytes in one stream. -/
def nodeOfFile (s : AppSettings) (size : Nat) : MediaSenderMemory :=
  let node := ofSettings s 1 64 false pageMemoryUtils size
  node.initializeMemoryLayout.getD node

/-- Two frames of full HD in a block, in chunks of 16 packets. -/
def twoFrames : AppSettings :=
  { fullHd ⟨25, 1⟩ .Progressive with
    media := { (fullHd ⟨25, 1⟩ .Progressive).media with framesFieldsInMemBlock := 2 } }

theorem loadedAsSent_twoFrames :
    (nodeOfFile (commonMediaSettings twoFrames 5 2) 10368000).LoadedAsSent
      (List.replicate 10368000 7) 4096 fun _ => 0 := by
  have hNode : (ofSettings (commonMediaSettings twoFrames 5 2) 1 64 false pageMemoryUtils
      10368000).initializeMemoryLayout =
        some (nodeOfFile (commonMediaSettings twoFrames 5 2) 10368000) := rfl
  have hIff := loadedAsSent_iff (s := twoFrames) rfl (.inr rfl) (by decide) (by decide) hNode 4096
  have hRoom := hasRoom_of_lt (s := twoFrames) rfl (.inr rfl) (by decide) hNode (by decide)
    (by decide +kernel)
  exact hIff.mpr (.inr ⟨hRoom, .inr (by decide +kernel)⟩) _ List.length_replicate _

/-- Two fields of an interlaced frame in a block, in chunks of 864 packets: the
third chunk of a field is used to the half. -/
def twoFields : AppSettings :=
  { fullHd ⟨25, 1⟩ .Interlaced with
    numOfPacketsInChunkSpecified := true
    numOfPacketsInChunk := 864
    media := { (fullHd ⟨25, 1⟩ .Interlaced).media with framesFieldsInMemBlock := 2 } }

/-- The second field is not where the sending loop reads it. -/
theorem second_field_displaced :
    ¬(nodeOfFile (commonMediaSettings twoFields 5 2) 5184000).LoadedAsSent
      (markedFile 5184000 1200 2160) 4096 fun _ => 0 := by
  have hNode : (ofSettings (commonMediaSettings twoFields 5 2) 1 64 false pageMemoryUtils
      5184000).initializeMemoryLayout =
        some (nodeOfFile (commonMediaSettings twoFields 5 2) 5184000) := rfl
  have h := nodeOf_initializeMemoryLayout (s := twoFields) rfl (.inr rfl) (by decide) hNode
  exact h.not_loadedAsSent 4096 (by decide +kernel) (by decide +kernel) (by decide +kernel)
    (by decide +kernel)

end MediaSenderMemory

end RivermaxDevKit
