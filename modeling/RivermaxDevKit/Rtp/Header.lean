import RivermaxDevKit.Lib.ByteStore

/-!
# ST 2110-20 header

The twenty bytes in front of a video payload, and the state both generators
keep to write them.

* `RtpHeader.bytes` — the header on the wire.
* `RtpHeader.row`, `RtpHeader.field`, … — what a receiver reads from its words.
-/

namespace RivermaxDevKit

open ByteStore

/-- The words of a header in network order. -/
structure RtpHeader where
  flags : Nat
  markerPayloadType : Nat
  sequence : Nat
  timestamp : Nat
  ssrc : Nat
  extendedSequence : Nat
  srdLength : Nat
  rowWord : Nat
  offsetWord : Nat
  deriving DecidableEq, Repr

namespace RtpHeader

def version (h : RtpHeader) : Nat := h.flags / 2 ^ 6
def marker (h : RtpHeader) : Bool := h.markerPayloadType / 2 ^ 7 = 1
def payloadType (h : RtpHeader) : Nat := h.markerPayloadType % 2 ^ 7
def field (h : RtpHeader) : Bool := h.rowWord / 2 ^ 15 = 1
def row (h : RtpHeader) : Nat := h.rowWord % 2 ^ 15
def offset (h : RtpHeader) : Nat := h.offsetWord % 2 ^ 15

/-- The sequence number over both its halves. -/
def fullSequence (h : RtpHeader) : Nat := h.extendedSequence * 2 ^ 16 + h.sequence

/-- The header as a generator leaves it in the buffer. -/
def bytes (h : RtpHeader) : List UInt8 :=
  bigEndian 1 h.flags ++ bigEndian 1 h.markerPayloadType ++ bigEndian 2 h.sequence ++
    bigEndian 4 h.timestamp ++ bigEndian 4 h.ssrc ++ bigEndian 2 h.extendedSequence ++
    bigEndian 2 h.srdLength ++ bigEndian 2 h.rowWord ++ bigEndian 2 h.offsetWord

@[simp] theorem length_bytes (h : RtpHeader) : h.bytes.length = 20 := by
  simp [bytes]

/-- A row word is the row and the bit on top of it. -/
theorem topBit_add {row : Nat} (h : row < 2 ^ 15) (bit : Bool) :
    decide ((bit.toNat * 2 ^ 15 + row) / 2 ^ 15 = 1) = bit ∧
      (bit.toNat * 2 ^ 15 + row) % 2 ^ 15 = row := by
  have hRow : row / 2 ^ 15 = 0 := Nat.div_eq_of_lt h
  constructor
  · rw [Nat.add_comm, Nat.add_mul_div_right _ _ (by decide), hRow]
    cases bit <;> rfl
  · rw [Nat.mul_add_mod_self_right, Nat.mod_eq_of_lt h]

end RtpHeader

/-! ## State of a generator -/

/-- `SendingStatistics`; `RTPStreamSendStats` has the same members. -/
structure SendingStatistics where
  packetCounter : Nat := 0
  rtpSequence : Nat := 0
  rtpTimestamp : Nat := 0
  rtpInterlaceFieldIndicator : Bool := false
  lineNumber : Nat := 0
  srdOffset : Nat := 0
  deriving DecidableEq, Repr

end RivermaxDevKit
