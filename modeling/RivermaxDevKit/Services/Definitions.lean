/-!
# Rivermax Dev Kit — shared service types

The status codes every operation of the kit returns, the constants of
`media_defs.h` and the macros of `defs.h` that more than one component uses.
-/

namespace RivermaxDevKit

/-- `ReturnStatus` of `return_status.h`. -/
inductive ReturnStatus
  | success
  | failure
  | successCliHelp
  | signalReceived
  | objInitSuccess
  | objInitFailure
  | hwSendQueueFull
  | memoryAllocationFailure
  | rmaxVersionIncompatible
  | rmaxVersionUnaligned
  | noFreeChunks
  | noCompletion
  | frameSendQueueFull
  deriving DecidableEq, Repr

/-! ## Constants -/

def NS_IN_SEC : Nat := 1000000000

/-- `RTP_SEQUENCE_NUMBER_MASK_16BIT` and `RTP_SEQUENCE_NUMBER_MASK_32BIT`. -/
def RTP_SEQUENCE_NUMBER_MASK_16BIT : Nat := 0xFFFF
def RTP_SEQUENCE_NUMBER_MASK_32BIT : Nat := 0xFFFFFFFF

def RTP_HEADER_CSRC_GRANULARITY_BYTES : Nat := 4

/-! ## Utilities -/

/-- `align_up_pow2`. -/
def alignUpPow2 (n alignment : Nat) : Nat := (n + alignment - 1) / alignment * alignment

theorem bind_eq_ok {ε α β : Type} {x : Except ε α} {f : α → Except ε β} {b : β}
    (hOk : x >>= f = .ok b) : ∃ a, x = .ok a ∧ f a = .ok b := by
  rcases x with _ | a
  · cases hOk
  · exact ⟨a, rfl, hOk⟩

end RivermaxDevKit
