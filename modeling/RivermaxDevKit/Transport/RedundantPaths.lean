import RivermaxDevKit.Transport.PacketStream

/-!
# Redundant paths

The packets of a media sender over several lossy paths into an
`AppIPOReceiveStream`.

* `stream_reconstructed` — what comes out of the receiver are the headers the
  writer wrote, from the first one on.
-/

namespace RivermaxDevKit

open RtpVideoBufferWriter Resequencing

/-- The sequence number of a header as a stream of this mode reads it. -/
def RtpHeader.numberRead (isExtendedSequenceNumber : Bool) (h : RtpHeader) : Nat :=
  if isExtendedSequenceNumber then h.fullSequence else h.sequence

section Numbers

variable {m : MediaSettings} {run : WriterRun m}

theorem numberRead_headers {k : Nat} {header : RtpHeader} (hAt : run.headers[k]? = some header)
    (ext : Bool) :
    header.numberRead ext = (run.sequence.toNat + k) % rtpSequenceSpace ext := by
  have hLaw := WriterRun.getElem?_headers hAt
  have hSum : k / m.packetsInFrameField * m.packetsInFrameField + k % m.packetsInFrameField = k :=
    Nat.div_add_mod' _ _
  cases ext with
  | false =>
    show header.sequence = _
    rw [hLaw.sequence, hSum]
    exact Nat.mod_mod_of_dvd _ (by decide)
  | true =>
    show header.extendedSequence * 2 ^ 16 + header.sequence = _
    rw [hLaw.sequence, hLaw.extendedSequence, hSum, Nat.div_add_mod']
    rfl

theorem map_take_headers {n : Nat} (hn : n ≤ run.headers.length) (ext : Bool) :
    (run.headers.take n).map (RtpHeader.numberRead ext) =
      (List.range n).map fun k => (run.sequence.toNat + k) % rtpSequenceSpace ext := by
  refine List.ext_getElem ?_ fun k hk _ => ?_
  · simp [hn]
  · rw [List.length_map, List.length_take] at hk
    rw [List.getElem_map, List.getElem_map, List.getElem_range, List.getElem_take]
    exact numberRead_headers (List.getElem?_eq_getElem (by omega)) ext

end Numbers

/-- The packets on the wire: packet `k` starts with the header the writer wrote for
it, and is long enough for one. -/
def OnTheWire {m : MediaSettings} (run : WriterRun m) (sent : Nat → ReceivedPacket) : Prop :=
  ∀ k header, run.headers[k]? = some header →
    StartsWith (sent k).header header ∧ 20 ≤ (sent k).info.getPacketSubBlockSize 0

/-- **Redundant paths.** For every run of the writer, in both sequence-number modes:
if all that comes in are its packets, within the path differential, and the stream
is polled on until it is empty, then it has handed out the headers of the writer
from the first on, in order and each once, up to the last that came in on any
path. -/
theorem stream_reconstructed {m : MediaSettings} (run : WriterRun m) {ext : Bool}
    {packets : Nat} {hPackets : 0 < packets} {d : Int}
    (hW : (rtpConfig ext packets hPackets d).sequenceNumberWrapAround ∣
      (rtpConfig ext packets hPackets d).sequenceSpace)
    {sent : Nat → ReceivedPacket} (hWire : OnTheWire run sent) {t0 : Int} {traffic idle : Feed}
    (hOwn : ∀ turn ∈ traffic.schedule, ∀ k ∈ turn.2, k < run.headers.length)
    (h : Undisturbed (rtpConfig ext packets hPackets d) sent t0 (traffic ++ idle))
    (hIdle : Drains d traffic idle)
    (hEnough : ∀ turn ∈ traffic.schedule, ∀ k ∈ turn.2, k < idle.length) :
    ∃ n, (handedOut (receive (rtpConfig ext packets hPackets d) sent t0
        (traffic ++ idle)).events).reverse =
          (run.headers.take n).map (RtpHeader.numberRead ext) ∧
      ∀ k, k < n ↔ ∃ turn ∈ traffic.schedule, k ∈ turn.2 := by
  have hSpace : (rtpConfig ext packets hPackets d).sequenceSpace = rtpSequenceSpace ext := by
    cases ext <;> rfl
  have hSent : SentBy (rtpConfig ext packets hPackets d) run.sequence.toNat sent
      (traffic ++ idle) := by
    intro turn hTurn k hk
    rw [Feed.schedule, List.map_append] at hTurn
    rcases List.mem_append.mp hTurn with hTraffic | hQuiet
    · obtain ⟨hStarts, hLength⟩ :=
        hWire k _ (List.getElem?_eq_getElem (hOwn turn hTraffic k hk))
      have hCarries := WriterRun.carries_of_written
        (List.getElem?_eq_getElem (hOwn turn hTraffic k hk)) hStarts
      rw [Readable, sentNumber, hSpace]
      exact hCarries.number ext _ hLength
    · rw [hIdle.none turn hQuiet] at hk
      cases hk
  obtain ⟨r, hStage, hAll⟩ := run_emptied hW hSent h hIdle hEnough
  refine ⟨r.next, ?_, hAll⟩
  -- only headers of the writer came in
  have hLe : r.next ≤ run.headers.length := by
    rcases Nat.eq_zero_or_pos r.next with hZero | hPos
    · omega
    · obtain ⟨turn, hTurn, hk⟩ := (hAll (r.next - 1)).mp (by omega)
      have := hOwn turn hTurn _ hk
      omega
  rw [hStage.out, List.reverse_reverse, map_take_headers hLe ext, ← hSpace]
  rfl

/-- Full HD in one call of five packets, started right before the numbers wrap. -/
def fullHdRun : WriterRun (commonMediaSettings (fullHd ⟨25, 1⟩ .Progressive) 5 2).media where
  packets_pos := by decide
  divisors := ⟨by decide, by decide, by decide⟩
  sequence := 65534
  timestamp := 0
  calls := [.writeBuffer 5]
  atBoundaries := ⟨nofun, trivial⟩

/-- Its packets, of 1220 bytes. -/
def fullHdPacket (k : Nat) : ReceivedPacket where
  header := ByteStore.write 0 ((fullHdRun.headers.map RtpHeader.bytes).getD k []) fun _ => 0
  info := { subBlockSizes := [1220] }

theorem onTheWire_fullHdPacket : OnTheWire fullHdRun fullHdPacket := by
  intro k header hAt
  refine ⟨?_, show 20 ≤ 1220 by decide⟩
  have hBytes : (fullHdRun.headers.map RtpHeader.bytes).getD k [] = header.bytes := by
    rw [List.getD_eq_getElem?_getD, List.getElem?_map, hAt]
    rfl
  rw [StartsWith, fullHdPacket, hBytes]
  exact ByteStore.read_write_same header.length_bytes.symm

theorem undisturbed_fullHdPacket : Undisturbed fourSlots fullHdPacket 0
    (lossyFeed ++ [(120001, []), (120002, []), (120003, []), (120004, [])]) :=
  ⟨⟨by decide, by decide, by decide +kernel⟩, by decide, by decide, by decide,
    by decide +kernel, by decide +kernel⟩

/-- The feed that lost a packet on each path, with the headers of the writer. -/
theorem stream_reconstructed_fullHd :
    ∃ n, (handedOut (receive fourSlots fullHdPacket 0
        (lossyFeed ++ [(120001, []), (120002, []), (120003, []), (120004, [])])).events).reverse =
          (fullHdRun.headers.take n).map (RtpHeader.numberRead false) ∧
      ∀ k, k < n ↔ ∃ turn ∈ lossyFeed.schedule, k ∈ turn.2 :=
  stream_reconstructed fullHdRun (by decide) onTheWire_fullHdPacket (by decide +kernel)
    undisturbed_fullHdPacket ⟨by decide, by decide⟩ (by decide)

end RivermaxDevKit
