import RivermaxDevKit.Lib.Reader
import RivermaxDevKit.Rtp.ReceiveStream

/-!
# Reads of the header parsers

The receivers' parsers once more, as readers: which bytes of a header they look
at, in the order of the source.

* `run_rtpSequenceNumberReader`, `run_processPacketHeaderReader` — the readers
  compute what the parsers do.
* `staysInside_iff` — they stay inside the packet unless the contributing sources
  or the timestamp it announces lie beyond its end.
-/

namespace RivermaxDevKit

open ByteStore Reader

/-! ## Readers -/

/-- `AppIPOReceiveStream::get_sequence_number`. -/
def rtpSequenceNumberReader (isExtendedSequenceNumber : Bool) (length : Nat) :
    Reader (Option Nat) :=
  -- the only check of the length
  if length < 4 then pure none
  else do
    let flags ← readByte 0
    if flags &&& 0xC0 ≠ 0x80 then pure none
    else do
      let low ← readByte 3
      let high ← readByte 2
      let sequenceNumber := low.toNat ||| high.toNat <<< 8
      if isExtendedSequenceNumber then do
        let cc := 0x0F &&& flags.toNat
        let offset := cc * RTP_HEADER_CSRC_GRANULARITY_BYTES
        -- behind the contributing sources, wherever that is
        let upper ← readByte (offset + 12)
        let lower ← readByte (offset + 13)
        pure (some (sequenceNumber ||| (upper.toNat <<< 24 ||| lower.toNat <<< 16)))
      else pure (some sequenceNumber)

/-- `AppRTPReceiveStream::get_sequence_number`: the text of
`AppIPOReceiveStream`. -/
def appRtpSequenceNumberReader : Bool → Nat → Reader (Option Nat) := rtpSequenceNumberReader

namespace AppRTPReceiveStream

def notifyFrameStartReader (info : ReceivePacketInfo) (app : AppRTPReceiveStream) :
    Reader AppRTPReceiveStream :=
  match app.frameNotifier with
  | none => pure app
  | some events => do
    let second ← readByte 1
    let mbit : Bool := second &&& 0x80 ≠ 0
    if !mbit && app.lastMbit then do
      -- the timestamp, last byte first
      let b7 ← readByte 7
      let b6 ← readByte 6
      let b5 ← readByte 5
      let b4 ← readByte 4
      pure
        { app with
          frameNotifier := some ((ofBigEndian [b4, b5, b6, b7], info.timestamp) :: events)
          lastMbit := mbit }
    else pure { app with frameNotifier := some events, lastMbit := mbit }

def processPacketHeaderReader (length : Nat) (info : ReceivePacketInfo)
    (app : AppRTPReceiveStream) : Reader AppRTPReceiveStream := do
  match ← appRtpSequenceNumberReader app.isExtendedSequenceNumber length with
  | none => pure app.countCorrupt
  | some sequenceNumber => (app.countDropped sequenceNumber).notifyFrameStartReader info

end AppRTPReceiveStream

theorem run_rtpSequenceNumberReader (ext : Bool) (header : Memory) (length : Nat) :
    (rtpSequenceNumberReader ext length).run header = rtpSequenceNumber ext header length := by
  unfold rtpSequenceNumberReader rtpSequenceNumber
  -- one check after the other, as the source makes them
  by_cases hShort : length < 4
  · simp [hShort]
  · by_cases hVersion : header 0 &&& 0xC0 = 0x80
    · cases ext <;> simp [hShort, hVersion]
    · simp [hShort, hVersion]

theorem AppRTPReceiveStream.run_notifyFrameStartReader (header : Memory)
    (info : ReceivePacketInfo) (app : AppRTPReceiveStream) :
    (app.notifyFrameStartReader info).run header = app.notifyFrameStart header info := by
  have hTimestamp : ByteStore.read header 4 4 = [header 4, header 5, header 6, header 7] := rfl
  unfold notifyFrameStartReader notifyFrameStart
  cases app.frameNotifier with
  | none => rfl
  | some events =>
    by_cases hMbit : header 1 &&& 0x80 = 0
    · cases hLast : app.lastMbit <;> simp [hMbit, hTimestamp]
    · simp [hMbit]

theorem AppRTPReceiveStream.run_processPacketHeaderReader (header : Memory) (length : Nat)
    (info : ReceivePacketInfo) (app : AppRTPReceiveStream) :
    (app.processPacketHeaderReader length info).run header =
      app.processPacketHeader header length info := by
  unfold processPacketHeaderReader processPacketHeader appRtpSequenceNumberReader
    appRtpSequenceNumber
  rw [run_bind, run_rtpSequenceNumberReader]
  cases rtpSequenceNumber app.isExtendedSequenceNumber header length with
  | none => rfl
  | some sequenceNumber =>
    exact run_notifyFrameStartReader header info (app.countDropped sequenceNumber)

/-! ## Bounds -/

/-- The bytes a sequence number is taken from end here. -/
def sequenceNumberEnd (isExtendedSequenceNumber : Bool) (header : Memory) : Nat :=
  if isExtendedSequenceNumber then
    (0x0F &&& (header 0).toNat) * RTP_HEADER_CSRC_GRANULARITY_BYTES + 14
  else 4

/-- What the parsers promise for a header of `length` bytes. -/
structure StaysInside (header : Memory) (length : Nat) (info : ReceivePacketInfo)
    (app : AppRTPReceiveStream) : Prop where
  app_rtp : ReadsBelow length
    (appRtpSequenceNumberReader app.isExtendedSequenceNumber length) header
  app_ipo : ReadsBelow length (rtpSequenceNumberReader app.isExtendedSequenceNumber length) header
  frame_start : ReadsBelow length (app.processPacketHeaderReader length info) header
  rejects : length < sequenceNumberEnd app.isExtendedSequenceNumber header →
    appRtpSequenceNumber app.isExtendedSequenceNumber header length = none ∧
      rtpSequenceNumber app.isExtendedSequenceNumber header length = none

/-- The header starts a frame, for a stream that notifies of it. -/
def StartsFrame (header : Memory) (app : AppRTPReceiveStream) : Prop :=
  app.frameNotifier.isSome = true ∧ app.lastMbit = true ∧ header 1 &&& 0x80 = 0

theorem readsBelow_rtpSequenceNumberReader (ext : Bool) (header : Memory) (length : Nat) :
    ReadsBelow length (rtpSequenceNumberReader ext length) header ↔
      length < 4 ∨ header 0 &&& 0xC0 ≠ 0x80 ∨ sequenceNumberEnd ext header ≤ length := by
  unfold rtpSequenceNumberReader sequenceNumberEnd
  by_cases hShort : length < 4
  · simp [hShort]
  · by_cases hVersion : header 0 &&& 0xC0 = 0x80
    -- the first four bytes are there, the number itself may not be
    · cases ext <;> simp [hShort, hVersion] <;> omega
    · simp [hShort, hVersion]
      omega

/-- With four bytes there, only the timestamp can lie beyond the end. -/
theorem AppRTPReceiveStream.readsBelow_notifyFrameStartReader {header : Memory} {length : Nat}
    (info : ReceivePacketInfo) (app : AppRTPReceiveStream) (hLength : 4 ≤ length) :
    ReadsBelow length (app.notifyFrameStartReader info) header ↔
      (StartsFrame header app → 8 ≤ length) := by
  unfold notifyFrameStartReader StartsFrame
  split
  · rename_i hNotifier
    simp [hNotifier]
  · rename_i events hNotifier
    by_cases hMbit : header 1 &&& 0x80 = 0
    · cases hLast : app.lastMbit
      · -- within a frame the marker byte is all that is read
        simp [hNotifier, hMbit]
        omega
      · -- at the start of one the timestamp is read too
        simp [hNotifier, hMbit]
        omega
    · simp [hMbit]
      omega

theorem AppRTPReceiveStream.readsBelow_processPacketHeaderReader (header : Memory) (length : Nat)
    (info : ReceivePacketInfo) (app : AppRTPReceiveStream) :
    ReadsBelow length (app.processPacketHeaderReader length info) header ↔
      length < 4 ∨ header 0 &&& 0xC0 ≠ 0x80 ∨
        (sequenceNumberEnd app.isExtendedSequenceNumber header ≤ length ∧
          (StartsFrame header app → 8 ≤ length)) := by
  have hParser := readsBelow_rtpSequenceNumberReader app.isExtendedSequenceNumber header length
  have hNone := rtpSequenceNumber_eq_none_iff app.isExtendedSequenceNumber header length
  unfold processPacketHeaderReader appRtpSequenceNumberReader
  rw [readsBelow_bind, run_rtpSequenceNumberReader]
  cases hValid : rtpSequenceNumber app.isExtendedSequenceNumber header length with
  | none =>
    -- a rejected header is read no further
    have hCorrupt := hNone.mp hValid
    refine iff_of_true ⟨hParser.mpr ?_, readsBelow_pure length _ header⟩ ?_
    · exact hCorrupt.imp_right .inl
    · exact hCorrupt.imp_right .inl
  | some sequenceNumber =>
    have hAccepted : ¬(length < 4 ∨ header 0 &&& 0xC0 ≠ 0x80) := by
      rw [← hNone, hValid]
      simp
    obtain ⟨hLength, hVersion⟩ := not_or.mp hAccepted
    -- counting the packet changes neither the notifier nor the last marker
    have hStart : ReadsBelow length
        ((app.countDropped sequenceNumber).notifyFrameStartReader info) header ↔
          (StartsFrame header app → 8 ≤ length) :=
      readsBelow_notifyFrameStartReader info _ (Nat.not_lt.mp hLength)
    rw [hParser, or_iff_right hLength, or_iff_right hVersion, or_iff_right hLength,
      or_iff_right hVersion]
    exact and_congr_right fun _ => hStart

/-- **Reads of the header parsers.** For every header, every length and both
formats of sequence numbers, in every state of the stream: the parsers stay
inside exactly if the length check or the version rejects the header, or the
sequence number and, at the start of a frame, the timestamp lie within it. -/
theorem staysInside_iff (header : Memory) (length : Nat) (info : ReceivePacketInfo)
    (app : AppRTPReceiveStream) :
    StaysInside header length info app ↔
      length < 4 ∨ header 0 &&& 0xC0 ≠ 0x80 ∨
        (sequenceNumberEnd app.isExtendedSequenceNumber header ≤ length ∧
          (StartsFrame header app → 8 ≤ length)) := by
  have hProcess := app.readsBelow_processPacketHeaderReader header length info
  constructor
  · exact fun h => hProcess.mp h.frame_start
  · intro h
    have hInside : ReadsBelow length
        (rtpSequenceNumberReader app.isExtendedSequenceNumber length) header :=
      (readsBelow_rtpSequenceNumberReader _ header length).mpr
        (h.imp_right fun h => h.imp_right And.left)
    refine ⟨hInside, hInside, hProcess.mpr h, fun hMissing => ?_⟩
    -- a header too short for its number is one of the rejected
    have hCorrupt := (rtpSequenceNumber_eq_none_iff app.isExtendedSequenceNumber header length).mpr
      (by
        rcases h with hShort | hVersion | ⟨hEnd, -⟩
        · exact .inl hShort
        · exact .inr hVersion
        · omega)
    exact ⟨hCorrupt, hCorrupt⟩

/-- A header that stays inside is processed alike, whatever follows it. -/
theorem StaysInside.processPacketHeader_congr {header header' : Memory} {length : Nat}
    {info : ReceivePacketInfo} {app : AppRTPReceiveStream} (h : StaysInside header length info app)
    (hAgree : ∀ a < length, header a = header' a) :
    app.processPacketHeader header length info = app.processPacketHeader header' length info := by
  rw [← AppRTPReceiveStream.run_processPacketHeaderReader,
    ← AppRTPReceiveStream.run_processPacketHeaderReader]
  exact (h.frame_start.run_congr hAgree).1

/-- Fifteen contributing sources in a packet of twelve bytes. -/
theorem csrc_count_reads_beyond :
    ¬StaysInside (fun a => if a = 0 then 0x8F else 0) 12 {}
      { isExtendedSequenceNumber := true, isHeaderDataSplit := false } := by
  intro h
  exact absurd h.app_rtp (by decide +kernel)

end RivermaxDevKit
