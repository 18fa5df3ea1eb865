import Mathlib.Data.Finset.Max
import RivermaxDevKit.Lib.ByteStore
import RivermaxDevKit.Senders.GenericSender

/-!
# Checksum writer

`ChecksumBufferWriter::write_buffer` (`checksum_buffer_writer.cpp`) over the packets that
`initialize_chunks` laid out. Each element of the IO vector is filled with a random byte
from `iov_elem.addr + iov_elem.length` on, which is where the element ends.

* `writeBuffer_eq` — the writer is a series of writes.
* `exists_spill` — behind the last element something is written.
* `checksumLaw_iff` — a chunk is written as promised exactly if it has no packets.
-/

namespace RivermaxDevKit

open ByteStore

namespace ChecksumBufferWriter

/-- `sizeof(ChecksumHeader)`, and where its checksum lies. -/
def checksumHeaderSize : Nat := 8

def checksumOffset : Nat := 4

/-- What is written for one `iov_elem`, with `data_char`. -/
def writeElem (dataChar : Nat) (iovElem : Region) (m : Memory) : Memory :=
  let m := write (iovElem.addr + iovElem.length)
    (List.replicate iovElem.length (UInt8.ofNat dataChar)) m
  -- `htonl`
  let checksum := dataChar * (iovElem.length % 2 ^ 32) % 2 ^ 32
  write (iovElem.addr + checksumOffset) (bigEndian 4 checksum) m

/-- The elements of a packet; `rand` gives the value of each call of `rand()`. -/
def writePacket (rand : Nat → Nat) : List Region → (calls : Nat) → Memory → Nat × Memory
  | [], calls, m => (calls, m)
  | iovElem :: packet, calls, m =>
    writePacket rand packet (calls + 1) (writeElem (rand calls % 255) iovElem m)

/-- `write_buffer`. -/
def writeBuffer (rand : Nat → Nat) : List (List Region) → (calls : Nat) → Memory → Nat × Memory
  | [], calls, m => (calls, m)
  | packet :: chunk, calls, m =>
    let written := writePacket rand packet calls m
    writeBuffer rand chunk written.1 written.2

/-- The promise for a chunk whose packets lie in `regions`: nothing else is touched, and
the checksum of a region is that of the bytes behind its header. -/
structure ChecksumLaw (regions : List Region) (m m' : Memory) : Prop where
  outside : ∀ i, (∀ r ∈ regions, ¬ r.Contains i) → m' i = m i
  checksum : ∀ r ∈ regions, checksumHeaderSize ≤ r.length →
    ∀ i, r.addr + checksumHeaderSize ≤ i → i < r.addr + r.length →
      ofBigEndian (read m' (r.addr + checksumOffset) 4) = r.length * (m' i).toNat % 2 ^ 32

/-! ## A series of writes -/

/-- The writes of one element. -/
def elemWrites (dataChar : Nat) (iovElem : Region) : List (Nat × List UInt8) :=
  [(iovElem.addr + iovElem.length, List.replicate iovElem.length (UInt8.ofNat dataChar)),
    (iovElem.addr + checksumOffset,
      bigEndian 4 (dataChar * (iovElem.length % 2 ^ 32) % 2 ^ 32))]

def writes (rand : Nat → Nat) : List Region → Nat → List (Nat × List UInt8)
  | [], _ => []
  | iovElem :: rest, calls => elemWrites (rand calls % 255) iovElem ++ writes rand rest (calls + 1)

theorem writes_append (rand : Nat → Nat) (a b : List Region) : ∀ calls,
    writes rand (a ++ b) calls = writes rand a calls ++ writes rand b (calls + a.length) := by
  induction a with
  | nil => exact fun _ => rfl
  -- each element takes one call of `rand()`
  | cons iovElem a ih =>
    intro calls
    rw [List.cons_append, writes, ih, writes, List.append_assoc, List.length_cons,
      Nat.add_assoc, Nat.add_comm 1]

theorem writePacket_eq (rand : Nat → Nat) (packet : List Region) : ∀ calls m,
    writePacket rand packet calls m =
      (calls + packet.length, writeAll (writes rand packet calls) m) := by
  induction packet with
  | nil => exact fun _ _ => rfl
  | cons iovElem packet ih =>
    intro calls m
    rw [writePacket, ih, List.length_cons, Nat.add_assoc, Nat.add_comm 1]
    rfl

theorem writeBuffer_eq (rand : Nat → Nat) (chunk : List (List Region)) : ∀ calls m,
    writeBuffer rand chunk calls m =
      (calls + chunk.flatten.length, writeAll (writes rand chunk.flatten calls) m) := by
  induction chunk with
  | nil => exact fun _ _ => rfl
  | cons packet chunk ih =>
    intro calls m
    rw [writeBuffer, writePacket_eq, ih, List.flatten_cons, List.length_append, Nat.add_assoc,
      writes_append, writeAll_append]

/-- Every element of the chunk is written. -/
theorem exists_elemWrites (rand : Nat → Nat) {regions : List Region} {r : Region}
    (hMem : r ∈ regions) : ∀ calls, ∃ dataChar, ∀ w ∈ elemWrites dataChar r,
      w ∈ writes rand regions calls := by
  -- the element is written with the call it is due
  obtain ⟨before, after, rfl⟩ := List.append_of_mem hMem
  intro calls
  refine ⟨rand (calls + before.length) % 255, fun w hw => ?_⟩
  rw [writes_append]
  exact List.mem_append_right _ (List.mem_append_left _ hw)

/-! ## The spill -/

/-- Behind the last element something is written. -/
theorem exists_spill (rand : Nat → Nat) {regions : List Region} (hSome : regions ≠ [])
    (calls : Nat) : ∃ i, (∀ r ∈ regions, ¬ r.Contains i) ∧
      ∃ w ∈ writes rand regions calls, w.1 ≤ i ∧ i < w.1 + w.2.length := by
  -- the element that ends last
  obtain ⟨r, hMem, hLast⟩ := Finset.exists_max_image regions.toFinset
    (fun r => r.addr + r.length) (List.toFinset_nonempty_iff _ |>.mpr hSome)
  obtain ⟨dataChar, hWrites⟩ := exists_elemWrites rand (List.mem_toFinset.mp hMem) calls
  have hBehind : ∀ i, r.addr + r.length ≤ i → ∀ s ∈ regions, ¬ s.Contains i := by
    intro i hi s hs hContains
    have hLe := hLast s (List.mem_toFinset.mpr hs)
    have hLt := hContains.2
    omega
  rcases Nat.eq_zero_or_pos r.length with hEmpty | hLength
  · -- an element without bytes has no room for its checksum
    refine ⟨r.addr + checksumOffset, hBehind _ (by omega), _,
      hWrites _ (List.mem_cons_of_mem _ List.mem_cons_self), Nat.le_refl _, ?_⟩
    rw [length_bigEndian]
    omega
  -- its fill starts where it ends
  · refine ⟨r.addr + r.length, hBehind _ (Nat.le_refl _), _, hWrites _ List.mem_cons_self,
      Nat.le_refl _, ?_⟩
    rw [List.length_replicate]
    omega

theorem eq_nil_of_checksumLaw {rand : Nat → Nat} {chunk : List (List Region)} {calls : Nat}
    (hLaw : ∀ m, ChecksumLaw chunk.flatten m (writeBuffer rand chunk calls m).2) :
    chunk.flatten = [] := by
  by_contra hSome
  obtain ⟨i, hOutside, w, hMem, hLow, hHigh⟩ := exists_spill rand hSome calls
  -- what is written there does not depend on what was there
  have hSame := writeAll_congr_of_mem hMem hLow hHigh (fun _ => 0) (fun _ => 1)
  have hZero := (hLaw fun _ => 0).outside i hOutside
  have hOne := (hLaw fun _ => 1).outside i hOutside
  rw [writeBuffer_eq] at hZero hOne
  exact absurd (hZero.symm.trans (hSame.trans hOne)) (by decide)

/-! ## Chunks that were laid out -/

/-- The packets of a chunk, of which none is empty. -/
structure ChunkOf (c : GenericStreamSettings) (chunk : List (List Region)) : Prop where
  length : chunk.length = c.numOfPacketsInChunk
  elements : ∀ packet ∈ chunk, packet ≠ []

variable {c : GenericStreamSettings}

theorem chunkOf_placePackets (addr packets : Nat) : ∀ memOffset,
    (c.placePackets addr packets memOffset).1.length = packets ∧
      ∀ packet ∈ (c.placePackets addr packets memOffset).1, packet ≠ [] := by
  induction packets with
  | zero => exact fun _ => ⟨rfl, nofun⟩
  | succ packets ih =>
    intro memOffset
    obtain ⟨hLength, hElements⟩ :=
      ih (GenericStreamSettings.placeSubBlocks addr c.subBlockSizes memOffset).2
    refine ⟨congrArg (· + 1) hLength, List.forall_mem_cons.mpr ⟨?_, hElements⟩⟩
    -- with or without a header there is a payload
    unfold GenericStreamSettings.subBlockSizes
    split
    · exact List.cons_ne_nil _ _
    · exact List.cons_ne_nil _ _

theorem chunkOf_placeChunks (addr chunks : Nat) : ∀ memOffset,
    ∀ chunk ∈ (c.placeChunks addr chunks memOffset).1, ChunkOf c chunk := by
  induction chunks with
  | zero => exact fun _ _ h => absurd h List.not_mem_nil
  | succ chunks ih =>
    intro memOffset
    obtain ⟨hLength, hElements⟩ :=
      chunkOf_placePackets (c := c) addr c.numOfPacketsInChunk memOffset
    exact List.forall_mem_cons.mpr ⟨⟨hLength, hElements⟩, ih _⟩

theorem chunkOf_placeSplitPackets (headerAddr payloadAddr packets : Nat) :
    ∀ headerMemOffset payloadMemOffset,
      (c.placeSplitPackets headerAddr payloadAddr packets headerMemOffset
        payloadMemOffset).1.length = packets ∧
      ∀ packet ∈ (c.placeSplitPackets headerAddr payloadAddr packets headerMemOffset
        payloadMemOffset).1, packet ≠ [] := by
  induction packets with
  | zero => exact fun _ _ => ⟨rfl, nofun⟩
  | succ packets ih =>
    intro headerMemOffset payloadMemOffset
    obtain ⟨hLength, hElements⟩ := ih (sizeT (headerMemOffset + c.packetTypicalAppHeaderSize))
      (sizeT (payloadMemOffset + c.packetTypicalPayloadSize))
    exact ⟨congrArg (· + 1) hLength,
      List.forall_mem_cons.mpr ⟨List.cons_ne_nil _ _, hElements⟩⟩

theorem chunkOf_placeSplitChunks (headerAddr payloadAddr chunks : Nat) :
    ∀ headerMemOffset payloadMemOffset,
      ∀ chunk ∈ (c.placeSplitChunks headerAddr payloadAddr chunks headerMemOffset
        payloadMemOffset).1, ChunkOf c chunk := by
  induction chunks with
  | zero => exact fun _ _ _ h => absurd h List.not_mem_nil
  | succ chunks ih =>
    intro headerMemOffset payloadMemOffset
    obtain ⟨hLength, hElements⟩ := chunkOf_placeSplitPackets (c := c) headerAddr payloadAddr
      c.numOfPacketsInChunk headerMemOffset payloadMemOffset
    exact List.forall_mem_cons.mpr ⟨⟨hLength, hElements⟩, ih _ _⟩

/-- **Checksums.** A chunk that was laid out over one or two regions is written without
touching other memory, and with checksums of what lies behind the headers, exactly if it
has no packets. -/
theorem checksumLaw_iff {c : GenericStreamSettings} {memRegion headerRegion payloadRegion : Region}
    {chunk : List (List Region)}
    (hChunk : chunk ∈ c.initializeRegion memRegion ∨
      chunk ∈ c.initializeRegions headerRegion payloadRegion)
    (rand : Nat → Nat) (calls : Nat) :
    (∀ m, ChecksumLaw chunk.flatten m (writeBuffer rand chunk calls m).2) ↔
      c.numOfPacketsInChunk = 0 := by
  -- both layouts give a chunk its packets
  obtain ⟨hLength, hElements⟩ : ChunkOf c chunk := by
    rcases hChunk with hOne | hTwo
    · exact chunkOf_placeChunks _ _ _ chunk hOne
    · exact chunkOf_placeSplitChunks _ _ _ _ _ chunk hTwo
  rw [← hLength, List.length_eq_zero_iff]
  constructor
  · intro hLaw
    have hFlat := eq_nil_of_checksumLaw hLaw
    -- a packet has an element
    cases chunk with
    | nil => rfl
    | cons packet chunk =>
      obtain ⟨hPacket, -⟩ := List.append_eq_nil_iff.mp hFlat
      exact absurd hPacket (hElements packet List.mem_cons_self)
  · rintro rfl m
    exact ⟨fun _ _ => rfl, nofun⟩

/-- A packet of 8 and 100 bytes that lies from address 64 on. -/
theorem checksumLaw_onePacket :
    ¬ ∀ m, ChecksumLaw [⟨64, 8⟩, ⟨72, 100⟩] m
      (writeBuffer (fun _ => 7) [[⟨64, 8⟩, ⟨72, 100⟩]] 0 m).2 := by
  intro hLaw
  have hIff := @checksumLaw_iff ⟨1, 1, 100, 8⟩ ⟨64, 108⟩ ⟨0, 0⟩ ⟨0, 0⟩ [[⟨64, 8⟩, ⟨72, 100⟩]]
    (.inl (by decide)) (fun _ => 7) 0
  exact absurd (hIff.mp hLaw) (by decide)

/-- The byte behind the packet is overwritten. -/
theorem spill_onePacket : ¬ ChecksumLaw [⟨64, 8⟩, ⟨72, 100⟩] (fun _ => 0)
    (writeBuffer (fun _ => 7) [[⟨64, 8⟩, ⟨72, 100⟩]] 0 fun _ => 0).2 := by
  intro hLaw
  -- address 172 is the first behind the payload
  have hByte := hLaw.outside 172 (by unfold Region.Contains; decide)
  exact absurd hByte (by decide)

end ChecksumBufferWriter

end RivermaxDevKit
