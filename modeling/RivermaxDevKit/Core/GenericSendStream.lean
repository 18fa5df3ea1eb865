import RivermaxDevKit.Lib.Region

/-!
# Generic send stream — chunks

`GenericSendStream::initialize_chunks` (`generic_stream.cpp`) over one memory
region: the packets of all chunks lie one behind the other, each as one
sub-block, or as a header and a payload.

* `partition_initializeChunks` — in a region of the size the stream asks for,
  the sub-blocks of all packets of all chunks have memory of their own.
-/

namespace RivermaxDevKit

structure GenericStreamSettings where
  numOfRequestedChunks : Nat
  numOfPacketsInChunk : Nat
  packetTypicalPayloadSize : Nat
  packetTypicalAppHeaderSize : Nat := 0

namespace GenericStreamSettings

variable (c : GenericStreamSettings)

/-- The sub-blocks of a packet: with header-data split there are two. -/
def subBlockSizes : List Nat :=
  if c.packetTypicalAppHeaderSize ≠ 0 then
    [c.packetTypicalAppHeaderSize, c.packetTypicalPayloadSize]
  else [c.packetTypicalPayloadSize]

/-- The memory of the stream, as `initialize_memory_layout` computes it. -/
def memoryLength : Nat :=
  c.numOfRequestedChunks * c.numOfPacketsInChunk * c.packetTypicalAppHeaderSize +
    c.numOfRequestedChunks * c.numOfPacketsInChunk * c.packetTypicalPayloadSize

/-- The packets of one chunk from address `addr` on, and the address behind them. -/
def initializePackets : (packets addr : Nat) → List (List Region) × Nat
  | 0, addr => ([], addr)
  | packets + 1, addr =>
    let rest := initializePackets packets (addr + c.subBlockSizes.sum)
    (Region.carve addr c.subBlockSizes :: rest.1, rest.2)

/-- `initialize_chunks`: the packets of `chunks` chunks. -/
def initializeChunks : (chunks addr : Nat) → List (List (List Region)) × Nat
  | 0, addr => ([], addr)
  | chunks + 1, addr =>
    let chunk := c.initializePackets c.numOfPacketsInChunk addr
    let rest := initializeChunks chunks chunk.2
    (chunk.1 :: rest.1, rest.2)

variable {c}

theorem sum_subBlockSizes :
    c.subBlockSizes.sum = c.packetTypicalAppHeaderSize + c.packetTypicalPayloadSize := by
  unfold subBlockSizes
  split
  · simp
  · rename_i hNoHeader
    simp [not_not.mp hNoHeader]

theorem initializePackets_eq (packets : Nat) : ∀ addr,
    (c.initializePackets packets addr).1.flatten =
        Region.carve addr (List.replicate packets c.subBlockSizes).flatten ∧
      (c.initializePackets packets addr).2 = addr + packets * c.subBlockSizes.sum := by
  induction packets with
  | zero => exact fun addr => ⟨rfl, by simp [initializePackets]⟩
  | succ packets ih =>
    intro addr
    obtain ⟨hRest, hEnd⟩ := ih (addr + c.subBlockSizes.sum)
    refine ⟨?_, ?_⟩
    · rw [List.replicate_succ, List.flatten_cons, Region.carve_append]
      exact congrArg (_ ++ ·) hRest
    · rw [Nat.succ_mul]
      show (c.initializePackets packets _).2 = _
      omega

/-- The sub-blocks of all packets, one behind the other. -/
theorem initializeChunks_eq (chunks : Nat) : ∀ addr,
    (c.initializeChunks chunks addr).1.flatten.flatten =
      Region.carve addr
        (List.replicate (chunks * c.numOfPacketsInChunk) c.subBlockSizes).flatten := by
  induction chunks with
  | zero =>
    intro addr
    rw [Nat.zero_mul]
    rfl
  | succ chunks ih =>
    intro addr
    obtain ⟨hChunk, hEnd⟩ := initializePackets_eq (c := c) c.numOfPacketsInChunk addr
    have hSize : (List.replicate c.numOfPacketsInChunk c.subBlockSizes).flatten.sum =
        c.numOfPacketsInChunk * c.subBlockSizes.sum := by
      simp [List.sum_flatten]
    rw [Nat.succ_mul, Nat.add_comm (chunks * _), List.replicate_add, List.flatten_append,
      Region.carve_append, hSize, ← hEnd, ← ih, ← hChunk]
    exact List.flatten_append

/-- Every sub-block of every packet has memory of its own. -/
theorem partition_initializeChunks {memRegion : Region}
    (hLength : c.memoryLength ≤ memRegion.length) :
    Region.Partition memRegion
      (c.initializeChunks c.numOfRequestedChunks memRegion.addr).1.flatten.flatten := by
  rw [initializeChunks_eq]
  apply Region.partition_carve
  refine Nat.le_trans (Nat.le_of_eq ?_) hLength
  have hSum : (List.replicate (c.numOfRequestedChunks * c.numOfPacketsInChunk)
      c.subBlockSizes).flatten.sum =
        c.numOfRequestedChunks * c.numOfPacketsInChunk * c.subBlockSizes.sum := by
    simp [List.sum_flatten]
  rw [hSum, sum_subBlockSizes, Nat.mul_add]
  rfl

end GenericStreamSettings

end RivermaxDevKit
