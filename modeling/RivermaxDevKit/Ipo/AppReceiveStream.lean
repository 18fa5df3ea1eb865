import RivermaxDevKit.Ipo.Definitions

/-!
# Inline Packet Ordering — RTP sequence numbers

`AppIPOReceiveStream` (`ipo_receiver_io_node.cpp`) fixes the two virtual
functions of `IPOReceiveStream`: RTP sequence numbers of 16 bits, or of 32 bits
when the payload header carries the upper half.

* `rtpSequenceNumber` — `get_sequence_number`.
* `rtpConfig` — the configuration such a stream runs with.
-/

namespace RivermaxDevKit

/-- `AppIPOReceiveStream::get_sequence_number`. Only the first four bytes are
checked against the length. -/
def rtpSequenceNumber (isExtendedSequenceNumber : Bool) (header : Nat → UInt8) (length : Nat) :
    Option Nat :=
  if length < 4 ∨ header 0 &&& 0xC0 ≠ 0x80 then none
  else
    let sequenceNumber := (header 3).toNat ||| (header 2).toNat <<< 8
    if isExtendedSequenceNumber then
      let cc := 0x0F &&& (header 0).toNat
      let offset := cc * RTP_HEADER_CSRC_GRANULARITY_BYTES
      some (sequenceNumber |||
        ((header (offset + 12)).toNat <<< 24 ||| (header (offset + 13)).toNat <<< 16))
    else some sequenceNumber

theorem shiftLeft_byte_lt (b : UInt8) {shift bits : Nat} (h : shift + 8 ≤ bits) :
    b.toNat <<< shift < 2 ^ bits := by
  have hb : b.toNat < 2 ^ 8 := b.toNat_lt
  calc b.toNat <<< shift = b.toNat * 2 ^ shift := Nat.shiftLeft_eq _ _
    _ < 2 ^ 8 * 2 ^ shift := Nat.mul_lt_mul_of_pos_right hb (Nat.two_pow_pos shift)
    _ = 2 ^ (shift + 8) := by rw [← Nat.pow_add, Nat.add_comm]
    _ ≤ 2 ^ bits := Nat.pow_le_pow_right (by decide) h

/-- A parsed number never exceeds the mask of its format. -/
theorem rtpSequenceNumber_lt (ext : Bool) (header : Nat → UInt8) (length s : Nat)
    (h : rtpSequenceNumber ext header length = some s) :
    s < 2 ^ (if ext then 32 else 16) := by
  have hLow : ∀ {bits : Nat}, 16 ≤ bits →
      (header 3).toNat ||| (header 2).toNat <<< 8 < 2 ^ bits := by
    intro bits hBits
    have hb : (header 3).toNat < 2 ^ bits :=
      Nat.lt_of_lt_of_le (header 3).toNat_lt (Nat.pow_le_pow_right (by decide) (by omega))
    exact Nat.or_lt_two_pow hb (shiftLeft_byte_lt _ (by omega))
  unfold rtpSequenceNumber at h
  split at h
  · exact absurd h (by simp)
  · cases ext with
    | false =>
      obtain rfl := Option.some.inj h
      exact hLow (by decide)
    | true =>
      obtain rfl := Option.some.inj h
      exact Nat.or_lt_two_pow (hLow (by decide))
        (Nat.or_lt_two_pow (shiftLeft_byte_lt _ (by decide)) (shiftLeft_byte_lt _ (by decide)))

/-- The configuration of an `AppIPOReceiveStream` with `numOfPacketsInChunk`
buffer elements. -/
def rtpConfig (isExtendedSequenceNumber : Bool) (numOfPacketsInChunk : Nat)
    (hPackets : 0 < numOfPacketsInChunk) (maxPathDifferential : Int) : IpoConfig where
  sequenceNumberBits := if isExtendedSequenceNumber then 32 else 16
  bits_ge := by split <;> decide
  bits_le := by split <;> decide
  getSequenceNumber := rtpSequenceNumber isExtendedSequenceNumber
  seqn_lt := rtpSequenceNumber_lt isExtendedSequenceNumber
  numOfPacketsInChunk := numOfPacketsInChunk
  packets_pos := hPackets
  maxPathDifferential := maxPathDifferential

/-- The shortest packet that carries a 16-bit sequence number. -/
def rtpPacket (sequenceNumber : Nat) : ReceivedPacket where
  header := fun i =>
    match i with
    | 0 => 0x80
    | 2 => UInt8.ofNat (sequenceNumber >>> 8)
    | 3 => UInt8.ofNat sequenceNumber
    | _ => 0
  info := { subBlockSizes := [12] }

/-- The completion of path `path` with the given numbers. -/
def rtpPoll (path : Nat) (sequenceNumbers : List Nat) : PathPoll :=
  { path := path, result := .completion (sequenceNumbers.map rtpPacket) }

/-- A 16-bit stream with four slots and a path differential of 50 microseconds. -/
def fourSlots : IpoConfig := rtpConfig false 4 (by decide) 50000

example : rtpSequenceNumber false (rtpPacket 0xABCD).header 12 = some 0xABCD := by decide

end RivermaxDevKit
