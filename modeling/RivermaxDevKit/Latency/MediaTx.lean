import RivermaxDevKit.Rtp.SendTime

/-!
# Media transmit latency node

The schedule of `MediaTxIONode::send_receive` (`media_latency_io_node.cpp`): the
chunks it commits, in order.

* `calculateTrs_eq` — both computations of the packet spacing.
-/

namespace RivermaxDevKit

open RtpVideoSendStream

/-- `RtpVideoSendStream::calculate_trs`. -/
def RtpVideoSendStream.calculateTrs (c : MediaStreamSettings) : ℚ :=
  let media := c.mediaSettings
  let tFrameNs :=
    if media.videoScanType = .Progressive then media.frameFieldTimeIntervalNs
    else media.frameFieldTimeIntervalNs * 2
  let rActive : ℚ :=
    if media.videoScanType = .Progressive then 1080 / 1125
    else if FHD_HEIGHT ≤ media.resolution.height.toNat then 1080 / 1125
    else if 576 ≤ media.resolution.height.toNat then 576 / 625
    else 487 / 525
  let packetsInFrame :=
    if media.videoScanType = .Progressive then media.packetsInFrameField
    else media.packetsInFrameField * 2
  tFrameNs * rActive / packetsInFrame

/-- It is the spacing of `calculate_tro_trs`. -/
theorem RtpVideoSendStream.calculateTrs_eq (c : MediaStreamSettings) :
    calculateTrs c = (calculateTroTrs c.mediaSettings).2 := by
  unfold calculateTrs calculateTroTrs troTrsFactors
  by_cases hScan : c.mediaSettings.videoScanType = .Progressive
  · simp only [hScan, if_true, Nat.cast_one, mul_one]
  · simp only [hScan, if_false]
    split
    · rfl
    · split <;> rfl

/-- The counters of `send_receive`. -/
structure TxCounters where
  committedFrameFieldCounter : Nat := 0
  chunkInFieldCounter : Nat := 0
  deriving DecidableEq, Repr

namespace MediaTxIONode

variable (c : MediaStreamSettings) (numOfPacketsInChunk timeNowNs : Nat)

/-- `get_send_time_of_next_field_ns`, cast. -/
def scheduledNextFieldStartTimeNs (st : TxCounters) : Nat :=
  ⌊sendTimeNs c timeNowNs +
    c.mediaSettings.frameFieldTimeIntervalNs * st.committedFrameFieldCounter⌋₊

/-- `chunk_scheduled_time_ns`. -/
def chunkScheduledTimeNs (st : TxCounters) : Nat :=
  ⌊(scheduledNextFieldStartTimeNs c timeNowNs st : ℚ) +
    st.chunkInFieldCounter * numOfPacketsInChunk * calculateTrs c⌋₊

/-- The time of packet `j` of field `k`. -/
def scheduledPacketTimeNs (k j : Nat) : ℚ :=
  sendTimeNs c timeNowNs + k * c.mediaSettings.frameFieldTimeIntervalNs + j * calculateTrs c

end MediaTxIONode

end RivermaxDevKit
