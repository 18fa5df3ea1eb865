import RivermaxDevKit.Ipo.AppReceiveStream
import RivermaxDevKit.Ipo.Representation
import RivermaxDevKit.Lib.SerialNumber

/-!
# Inline Packet Ordering — the slot of a sequence number

`process_completion` places a packet in the slot of its number modulo
`m_sequence_number_wrap_around`. `create_stream` takes that size from the number
of packets, which the packets option checks only for being positive.

* `wrapAround_dvd_iff` — when the size divides the number space.
* `slots_in_step_iff` — exactly then the slots follow the numbers.
-/

namespace RivermaxDevKit

namespace IpoConfig

variable (c : IpoConfig)

/-- `index_in_dest_arr`, in a buffer of `bufferElements` elements. -/
def slotOf (bufferElements s : Nat) : Nat := s % c.getSequenceNumberWrapAround bufferElements

/-- The slots follow the numbers over their wrap, so numbers less than a buffer
apart do not meet in a slot. -/
structure SlotsInStep (bufferElements : Nat) : Prop where
  next : ∀ s < c.sequenceSpace, c.slotOf bufferElements ((s + 1) % c.sequenceSpace) =
    (c.slotOf bufferElements s + 1) % c.getSequenceNumberWrapAround bufferElements
  apart : ∀ a < c.sequenceSpace, ∀ b < c.sequenceSpace, a ≠ b →
    SerialNumber.dist c.sequenceSpace a b < c.getSequenceNumberWrapAround bufferElements →
      c.slotOf bufferElements a ≠ c.slotOf bufferElements b

variable {c}

/-- A size above the number space is cut to it, any other is kept. -/
theorem wrapAround_dvd_iff {bufferElements : Nat} :
    c.getSequenceNumberWrapAround bufferElements ∣ c.sequenceSpace ↔
      bufferElements ∣ c.sequenceSpace ∨ c.sequenceSpace ≤ bufferElements := by
  have hMask := getSequenceNumberMask_succ (c := c)
  show (if bufferElements ≤ c.getSequenceNumberMask then bufferElements
    else c.getSequenceNumberMask + 1) ∣ _ ↔ _
  split
  case isTrue hSmall =>
    exact ⟨Or.inl, fun h => h.resolve_right (by omega)⟩
  case isFalse hLarge =>
    rw [hMask]
    exact ⟨fun _ => Or.inr (by omega), fun _ => Nat.dvd_refl _⟩

theorem slotsInStep_iff {bufferElements : Nat} :
    c.SlotsInStep bufferElements ↔
      bufferElements ∣ c.sequenceSpace ∨ c.sequenceSpace ≤ bufferElements := by
  have hSpace : 0 < c.sequenceSpace := Nat.two_pow_pos _
  rw [← wrapAround_dvd_iff]
  constructor
  · intro h
    exact (SerialNumber.succ_in_step_iff hSpace).mp h.next
  · intro hDvd
    refine ⟨(SerialNumber.succ_in_step_iff hSpace).mpr hDvd, ?_⟩
    intro a ha b hb hNe hNear
    exact SerialNumber.mod_ne_of_dist hSpace hDvd (SerialNumber.dist_pos_of_ne hSpace ha hb hNe)
      hNear

end IpoConfig

/-- **Slots in step.** Of the sizes the packets option lets through, narrowed to
`uint32_t`, those keep the slots in step with the sequence numbers that divide
the number space or cover it. -/
theorem slots_in_step_iff (isExtendedSequenceNumber : Bool) (numOfPacketsInChunk : UInt64)
    (hPackets : 0 < numOfPacketsInChunk.toNat) (maxPathDifferential : Int) :
    (rtpConfig isExtendedSequenceNumber numOfPacketsInChunk.toNat hPackets
        maxPathDifferential).SlotsInStep numOfPacketsInChunk.toUInt32.toNat ↔
      numOfPacketsInChunk.toUInt32.toNat ∣ 2 ^ (if isExtendedSequenceNumber then 32 else 16) ∨
        2 ^ (if isExtendedSequenceNumber then 32 else 16) ≤ numOfPacketsInChunk.toUInt32.toNat :=
  IpoConfig.slotsInStep_iff

/-- The default size in the extended mode. -/
theorem slots_in_step_default :
    (rtpConfig true (262144 : UInt64).toNat (by decide) 50000).SlotsInStep
      (262144 : UInt64).toUInt32.toNat :=
  (slots_in_step_iff true 262144 (by decide) 50000).mpr (Or.inl (by decide))

/-- A thousand packets: 65535 and the number behind it are 465 slots apart. -/
theorem thousand_slots_out_of_step :
    ¬ (rtpConfig false (1000 : UInt64).toNat (by decide) 50000).SlotsInStep
      (1000 : UInt64).toUInt32.toNat := by
  intro h
  exact absurd (h.next 65535 (by decide)) (by decide)

end RivermaxDevKit
