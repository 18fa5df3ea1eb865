import RivermaxDevKit.Ipo.Lossless
import RivermaxDevKit.Rtp.DropCount

/-!
# Packet stream of a media sender

The headers `RTPVideoMockBufferWriter` writes over a run of calls, as the packets
of one stream, and what any receiver reads from such a packet.

* `mem_runCalls` — every header was built from a state of the writer.
* `Carries` — number, timestamp and marker of packet `k`.
* `carries_of_written` — every packet that starts with header `k` carries them.
-/

namespace RivermaxDevKit

open ByteStore

namespace RtpVideoBufferWriter

variable {m : MediaSettings}

/-! ## Headers of a run -/

/-- The words of the state fit 32 bits. -/
def InRange (st : SendingStatistics) : Prop := st.rtpSequence < 2 ^ 32 ∧ st.rtpTimestamp < 2 ^ 32

theorem InRange.updateInFrameState {st : SendingStatistics} (h : InRange st) :
    InRange (updateInFrameState m st) := by
  refine ⟨Nat.mod_lt _ (by decide), ?_⟩
  show (if _ then (_ % 2 ^ 32) else _) < _
  split
  · exact Nat.mod_lt _ (by decide)
  · exact h.2

theorem mem_writeBuffer (lengthInStrides : Nat) : ∀ {st : SendingStatistics}, InRange st →
    (∀ header ∈ (writeBuffer m lengthInStrides st).1,
      ∃ at', InRange at' ∧ header = buildRtpHeader m at') ∧
      InRange (writeBuffer m lengthInStrides st).2 := by
  induction lengthInStrides with
  | zero => exact fun h => ⟨fun _ hMem => absurd hMem List.not_mem_nil, h⟩
  | succ lengthInStrides ih =>
    intro st h
    unfold writeBuffer
    split
    · have hRest := ih (h.updateInFrameState (m := m))
      exact ⟨List.forall_mem_cons.mpr ⟨⟨st, h, rfl⟩, hRest.1⟩, hRest.2⟩
    · exact ⟨fun _ hMem => absurd hMem List.not_mem_nil, h⟩

/-- Every header of a run was built from a state of the writer. -/
theorem mem_runCalls (calls : List WriterCall) : ∀ {st : SendingStatistics}, InRange st →
    ∀ header ∈ (runCalls m calls st).1, ∃ at', InRange at' ∧ header = buildRtpHeader m at' := by
  induction calls with
  | nil => exact fun _ => nofun
  | cons call calls ih =>
    intro st h header hMem
    have hCall : (∀ header ∈ (runCall m call st).1,
        ∃ at', InRange at' ∧ header = buildRtpHeader m at') ∧ InRange (runCall m call st).2 := by
      cases call with
      | setNextFrame => exact ⟨nofun, h⟩
      | writeBuffer lengthInStrides => exact mem_writeBuffer lengthInStrides h
    rcases List.mem_append.mp hMem with hFirst | hRest
    · exact hCall.1 header hFirst
    · exact ih hCall.2 header hRest

/-- A run of `write_buffer` calls, and of `set_next_frame` between fields, of a
writer that starts with these numbers. -/
structure WriterRun (m : MediaSettings) where
  packets_pos : 0 < m.packetsInFrameField
  divisors : DivisorsPositive m
  sequence : UInt32
  timestamp : UInt32
  calls : List WriterCall
  atBoundaries : FramesAtBoundaries m calls
    { rtpSequence := sequence.toNat, rtpTimestamp := timestamp.toNat }

/-- The headers of the run, in order. -/
def WriterRun.headers (run : WriterRun m) : List RtpHeader :=
  (runCalls m run.calls
    { rtpSequence := run.sequence.toNat, rtpTimestamp := run.timestamp.toNat }).1

namespace WriterRun

variable (run : WriterRun m)

/-- The RTP timestamp of field `n`. -/
def fieldTimestamp (n : Nat) : Nat := (run.timestamp.toNat + n * ticks m) % 2 ^ 32

/-- What a receiver reads from packet `k` of the stream. -/
structure Carries (k : Nat) (packet : ReceivedPacket) : Prop where
  number : ∀ ext length, 20 ≤ length → rtpSequenceNumber ext packet.header length =
    some ((run.sequence.toNat + k) % rtpSequenceSpace ext)
  timestamped : ofBigEndian (read packet.header 4 4) =
    run.fieldTimestamp (k / m.packetsInFrameField)
  marked : decide (packet.header 1 &&& 0x80 ≠ 0) =
    decide (k % m.packetsInFrameField + 1 = m.packetsInFrameField)

variable {run}

theorem getElem?_headers {k : Nat} {header : RtpHeader} (hAt : run.headers[k]? = some header) :
    NumberLaw m run.sequence.toNat run.timestamp.toNat (k / m.packetsInFrameField)
      (k % m.packetsInFrameField) header := by
  have hLaw := ((numbered_keeps run.packets_pos run.sequence.toNat run.timestamp.toNat).runCalls
    run.calls (numbered_start m run.sequence run.timestamp) run.atBoundaries).2 k header hAt
  rwa [Nat.zero_add] at hLaw

/-- The marker as the receivers test it. -/
theorem marker_of_startsWith {buffer : Memory} {header : RtpHeader} (h : StartsWith buffer header)
    (hWell : WellFormed header) : decide (buffer 1 &&& 0x80 ≠ 0) = header.marker := by
  rw [(bytes_of_startsWith h).2.1, topBit_of_byte hWell.markerPayloadType]
  rfl

theorem carries_of_written {k : Nat} {header : RtpHeader} (hAt : run.headers[k]? = some header)
    {packet : ReceivedPacket} (hStarts : StartsWith packet.header header) :
    run.Carries k packet := by
  have hLaw := getElem?_headers hAt
  have hSum : k / m.packetsInFrameField * m.packetsInFrameField + k % m.packetsInFrameField = k :=
    Nat.div_add_mod' _ _
  have hInRange : InRange
      { rtpSequence := run.sequence.toNat, rtpTimestamp := run.timestamp.toNat } :=
    ⟨run.sequence.toNat_lt, run.timestamp.toNat_lt⟩
  obtain ⟨st, hst, hBuilt⟩ := mem_runCalls run.calls hInRange header (List.mem_of_getElem? hAt)
  have hWell : WellFormed header := hBuilt ▸ wellFormed_buildRtpHeader m hst.1 hst.2
  refine ⟨fun ext length hLength => ?_, ?_, ?_⟩
  · obtain ⟨hShort, hExtended⟩ := rtpSequenceNumber_of_startsWith hStarts hWell hLength
    cases ext with
    | false =>
      rw [hShort, hLaw.sequence, hSum]
      exact congrArg some (Nat.mod_mod_of_dvd _ (by decide))
    -- the two halves are quotient and remainder of the number
    | true =>
      rw [hExtended, RtpHeader.fullSequence, hLaw.sequence, hLaw.extendedSequence, hSum,
        Nat.div_add_mod']
      rfl
  · rw [(bytes_of_startsWith hStarts).2.2.2.2.2.2.2, ofBigEndian_bigEndian_of_lt hWell.timestamp]
    exact hLaw.timestamp
  · rw [marker_of_startsWith hStarts hWell]
    exact Bool.eq_iff_iff.mpr (hLaw.marker.trans decide_eq_true_iff.symm)

end WriterRun

end RtpVideoBufferWriter

end RivermaxDevKit
