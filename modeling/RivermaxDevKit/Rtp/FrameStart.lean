import RivermaxDevKit.Rtp.DropCount

/-!
# Frame starts of the RTP receiver

The events `process_packet_header` reports to a frame handler: one for each
packet without a marker that follows a marker.

* `StartState.receiveFrames` — the events of a run, frame by frame.
* `frameStarts_iff` — they are one for each frame exactly if of each frame that
  is received some packet before the last arrives, and of each but the newest
  the last packet as well.
-/

namespace RivermaxDevKit

open ByteStore

/-! ## Frames with losses -/

/-- A packet of a frame, and whether it arrives. A stream with these settings
parses its header. -/
structure FramePacket (isExtendedSequenceNumber isHeaderDataSplit : Bool) (rtpTimestamp : Nat)
    (mbit : Bool) where
  packet : ReceivedPacket
  arrives : Bool
  parsed : AppRTPReceiveStream.verdict isExtendedSequenceNumber isHeaderDataSplit packet ≠ none
  timestamped : ofBigEndian (read packet.header 4 4) = rtpTimestamp
  marked : decide (packet.header 1 &&& 0x80 ≠ 0) = mbit

/-- A frame as it is sent: packets of one RTP timestamp, of which only the last
has the marker. -/
structure SentFrame (isExtendedSequenceNumber isHeaderDataSplit : Bool) where
  rtpTimestamp : Nat
  front : List (FramePacket isExtendedSequenceNumber isHeaderDataSplit rtpTimestamp false)
  last : FramePacket isExtendedSequenceNumber isHeaderDataSplit rtpTimestamp true

namespace SentFrame

variable {ext split : Bool}

/-- The packets before the last that arrive. -/
def receivedFront (f : SentFrame ext split) : List ReceivedPacket :=
  (f.front.filter (·.arrives)).map (·.packet)

def receivedLast (f : SentFrame ext split) : List ReceivedPacket :=
  if f.last.arrives then [f.last.packet] else []

/-- What arrives of the frame, in order. -/
def received (f : SentFrame ext split) : List ReceivedPacket := f.receivedFront ++ f.receivedLast

/-- The event a handler is promised: the frame's timestamp and the hardware time
of the first packet received. -/
def start (f : SentFrame ext split) : Option (Nat × Nat) :=
  f.received.head?.map fun packet => (f.rtpTimestamp, packet.info.timestamp)

end SentFrame

namespace AppRTPReceiveStream

/-- A run of `get_next_chunk` calls. -/
def getNextChunks (chunks : List (Memory × ReceiveChunk)) (app : AppRTPReceiveStream) :
    AppRTPReceiveStream :=
  chunks.foldl (fun app chunk => app.getNextChunk chunk.1 chunk.2) app

/-- The packets the stream walks over in such a run. -/
def receivedPackets : List (Memory × ReceiveChunk) → AppRTPReceiveStream → List ReceivedPacket
  | [], _ => []
  | chunk :: chunks, app =>
    app.headers chunk.1 chunk.2 ++ receivedPackets chunks (app.getNextChunk chunk.1 chunk.2)

/-- The calls of the frame handler, in order. -/
def rtpEvents (app : AppRTPReceiveStream) : List (Nat × Nat) :=
  (app.frameNotifier.getD []).reverse

end AppRTPReceiveStream

/-! ## One packet -/

/-- What the detection of frame starts depends on: the settings of the stream,
its events, newest first, and the last marker. -/
structure StartState (ext split : Bool) (events : List (Nat × Nat)) (lastMbit : Bool)
    (app : AppRTPReceiveStream) : Prop where
  extended : app.isExtendedSequenceNumber = ext
  hds : app.isHeaderDataSplit = split
  processing : app.isHeaderProcessingEnabled = true
  notified : app.frameNotifier = some events
  marker : app.lastMbit = lastMbit

section Step

variable {ext split lastMbit : Bool} {events : List (Nat × Nat)}
  {app : AppRTPReceiveStream}

/-- A packet without marker is an event if it follows a marker. -/
theorem StartState.receivePacket {ts : Nat} {mbit : Bool}
    (h : StartState ext split events lastMbit app) (p : FramePacket ext split ts mbit) :
    StartState ext split
      (if !mbit && lastMbit then (ts, p.packet.info.timestamp) :: events else events) mbit
      (app.receivePacket p.packet) := by
  obtain ⟨received, receivedTotals, hBytes⟩ :=
    AppRTPReceiveStream.countPacket_eq p.packet app
  obtain ⟨sequenceNumber, hParsed⟩ := Option.ne_none_iff_exists'.mp p.parsed
  -- the header is parsed with the length the stream passes on
  have hVerdict : appRtpSequenceNumber app.isExtendedSequenceNumber p.packet.header
      (app.headerLength p.packet.info) = some sequenceNumber := by
    rw [← hParsed, AppRTPReceiveStream.verdict, AppRTPReceiveStream.headerLength, h.extended, h.hds]
    cases split <;> rfl
  unfold AppRTPReceiveStream.receivePacket
  rw [if_pos h.processing, hBytes, AppRTPReceiveStream.processPacketHeader, hVerdict]
  dsimp only [AppRTPReceiveStream.countDropped, AppRTPReceiveStream.count]
  -- the handler is told of an unmarked packet behind a marker
  unfold AppRTPReceiveStream.notifyFrameStart
  rw [h.notified, h.marker, p.timestamped, p.marked]
  refine ⟨h.extended, h.hds, h.processing, ?_, rfl⟩
  cases mbit <;> cases lastMbit <;> rfl

/-- Of packets without marker only the first can be an event. -/
def startEvents (rtpTimestamp : Nat) (lastMbit : Bool) : List ReceivedPacket → List (Nat × Nat)
  | [] => []
  | packet :: _ => if lastMbit then [(rtpTimestamp, packet.info.timestamp)] else []

theorem StartState.receiveFront {ts : Nat}
    (h : StartState ext split events lastMbit app)
    (front : List (FramePacket ext split ts false)) :
    StartState ext split (startEvents ts lastMbit (front.map (·.packet)) ++ events)
      (if front = [] then lastMbit else false)
      ((front.map (·.packet)).foldl (fun app packet => app.receivePacket packet) app) := by
  -- from the end: the step is the packet received last
  induction front using List.reverseRecOn with
  | nil => exact h
  | append_singleton front p ih =>
    rw [List.map_append, List.foldl_append]
    have hStep := ih.receivePacket p
    cases front with
    | nil => cases lastMbit <;> exact hStep
    -- behind the first packet the last marker is unset
    | cons q front => exact hStep

end Step

/-! ## Frames in a row -/

namespace SentFrame

variable {ext split : Bool}

/-- The events of a frame behind a packet with this marker. -/
def events (f : SentFrame ext split) (lastMbit : Bool) : List (Nat × Nat) :=
  startEvents f.rtpTimestamp lastMbit f.receivedFront

/-- The marker of the last packet received up to the end of the frame. -/
def mbitAfter (f : SentFrame ext split) (lastMbit : Bool) : Bool :=
  if f.last.arrives then true else if f.receivedFront = [] then lastMbit else false

end SentFrame

/-- The events of frames in a row. -/
def frameEvents {ext split : Bool} : Bool → List (SentFrame ext split) → List (Nat × Nat)
  | _, [] => []
  | lastMbit, f :: frames => f.events lastMbit ++ frameEvents (f.mbitAfter lastMbit) frames

section Frames

variable {ext split : Bool}

theorem StartState.receiveFrame {lastMbit : Bool} {events : List (Nat × Nat)}
    {app : AppRTPReceiveStream} (h : StartState ext split events lastMbit app)
    (f : SentFrame ext split) :
    StartState ext split ((f.events lastMbit).reverse ++ events) (f.mbitAfter lastMbit)
      (f.received.foldl (fun app packet => app.receivePacket packet) app) := by
  have hFront := h.receiveFront (f.front.filter (·.arrives))
  -- the events are kept newest first, and a frame has one at most
  have hOne : (f.events lastMbit).reverse = f.events lastMbit := by
    unfold SentFrame.events startEvents
    split
    · rfl
    · split <;> rfl
  rw [hOne]
  unfold SentFrame.received SentFrame.mbitAfter SentFrame.receivedLast
  rw [List.foldl_append]
  unfold SentFrame.events SentFrame.receivedFront
  -- the last packet has the marker, and is never an event
  cases hLast : f.last.arrives with
  | true => exact hFront.receivePacket f.last
  | false =>
    simp only [Bool.false_eq_true, if_false, List.map_eq_nil_iff]
    exact hFront

theorem StartState.receiveFrames {lastMbit : Bool} {events : List (Nat × Nat)}
    {app : AppRTPReceiveStream} (h : StartState ext split events lastMbit app)
    (frames : List (SentFrame ext split)) :
    ∃ lastMbit', StartState ext split ((frameEvents lastMbit frames).reverse ++ events) lastMbit'
      ((frames.flatMap (·.received)).foldl (fun app packet => app.receivePacket packet) app) := by
  induction frames generalizing lastMbit events app with
  | nil => exact ⟨lastMbit, h⟩
  | cons f frames ih =>
    obtain ⟨lastMbit', hRest⟩ := ih (h.receiveFrame f)
    refine ⟨lastMbit', ?_⟩
    rw [List.flatMap_cons, List.foldl_append, frameEvents, List.reverse_append, List.append_assoc]
    exact hRest

end Frames

/-! ## Chunks -/

/-- Streams that differ in their counters only. -/
structure SameStart (app app' : AppRTPReceiveStream) : Prop where
  extended : app.isExtendedSequenceNumber = app'.isExtendedSequenceNumber
  hds : app.isHeaderDataSplit = app'.isHeaderDataSplit
  processing : app.isHeaderProcessingEnabled = app'.isHeaderProcessingEnabled
  notified : app.frameNotifier = app'.frameNotifier
  marker : app.lastMbit = app'.lastMbit

theorem SameStart.notifyFrameStart {app app' : AppRTPReceiveStream} (h : SameStart app app')
    (header : Memory) (info : ReceivePacketInfo) :
    SameStart (app.notifyFrameStart header info) (app'.notifyFrameStart header info) := by
  unfold AppRTPReceiveStream.notifyFrameStart
  rw [h.notified]
  cases hNotifier : app'.frameNotifier with
  | none => exact h
  | some events =>
    dsimp only
    rw [h.marker]
    exact ⟨h.extended, h.hds, h.processing, rfl, rfl⟩

theorem SameStart.processPacketHeader {app app' : AppRTPReceiveStream} (h : SameStart app app')
    (header : Memory) (length : Nat) (info : ReceivePacketInfo) :
    SameStart (app.processPacketHeader header length info)
      (app'.processPacketHeader header length info) := by
  unfold AppRTPReceiveStream.processPacketHeader
  rw [h.extended]
  cases appRtpSequenceNumber app'.isExtendedSequenceNumber header length with
  | none => exact ⟨h.extended, h.hds, h.processing, h.notified, h.marker⟩
  | some sequenceNumber =>
    have hCounted : SameStart (app.countDropped sequenceNumber)
        (app'.countDropped sequenceNumber) :=
      ⟨h.extended, h.hds, h.processing, h.notified, h.marker⟩
    exact hCounted.notifyFrameStart header info

theorem SameStart.receivePacket {app app' : AppRTPReceiveStream} (h : SameStart app app')
    (packet : ReceivedPacket) :
    SameStart (app.receivePacket packet) (app'.receivePacket packet) := by
  obtain ⟨received, receivedTotals, hBytes⟩ := AppRTPReceiveStream.countPacket_eq packet app
  obtain ⟨received', receivedTotals', hBytes'⟩ := AppRTPReceiveStream.countPacket_eq packet app'
  have hCounted : SameStart (app.countPacket packet) (app'.countPacket packet) := by
    rw [hBytes, hBytes']
    exact ⟨h.extended, h.hds, h.processing, h.notified, h.marker⟩
  have hLength : app.headerLength packet.info = app'.headerLength packet.info := by
    unfold AppRTPReceiveStream.headerLength
    rw [h.hds]
  unfold AppRTPReceiveStream.receivePacket
  rw [h.processing, hLength]
  split
  · exact hCounted.processPacketHeader _ _ _
  · exact hCounted

theorem SameStart.receivePackets {app app' : AppRTPReceiveStream} (h : SameStart app app')
    (packets : List ReceivedPacket) :
    SameStart (packets.foldl (fun app packet => app.receivePacket packet) app)
      (packets.foldl (fun app packet => app.receivePacket packet) app') := by
  induction packets generalizing app app' with
  | nil => exact h
  | cons packet packets ih => exact ih (h.receivePacket packet)

/-- How a run is cut into chunks does not matter to the handler. -/
theorem SameStart.getNextChunks (chunks : List (Memory × ReceiveChunk))
    {app app' : AppRTPReceiveStream} (h : SameStart app app') :
    SameStart (app.getNextChunks chunks)
      ((app.receivedPackets chunks).foldl (fun app packet => app.receivePacket packet) app') := by
  induction chunks generalizing app app' with
  | nil => exact h
  | cons chunk chunks ih =>
    rw [AppRTPReceiveStream.receivedPackets, List.foldl_append]
    -- the packet count of the chunk is no matter of the handler
    refine ih ?_
    unfold AppRTPReceiveStream.getNextChunk
    refine SameStart.receivePackets ?_ _
    exact ⟨h.extended, h.hds, h.processing, h.notified, h.marker⟩

/-! ## One event for each frame -/

section Promise

variable {ext split : Bool}

/-- Every frame of which something is received has one event, in order, and
there are no others. -/
def FrameStartsNotified (frames : List (SentFrame ext split)) (app : AppRTPReceiveStream) : Prop :=
  app.rtpEvents = frames.filterMap SentFrame.start

/-- The frames of which something is received. -/
def receivedFrames (frames : List (SentFrame ext split)) : List (SentFrame ext split) :=
  frames.filter fun f => f.received ≠ []

/-- Of every frame received a packet before the last arrives, and of every one
but the newest the last as well. -/
structure StartsVisible (frames : List (SentFrame ext split)) : Prop where
  front : ∀ f ∈ receivedFrames frames, f.receivedFront ≠ []
  last : ∀ f ∈ (receivedFrames frames).dropLast, f.last.arrives = true

/-- There is at most one event for each frame received. -/
theorem length_frameEvents_le (frames : List (SentFrame ext split)) (lastMbit : Bool) :
    (frameEvents lastMbit frames).length ≤ (frames.filterMap SentFrame.start).length := by
  induction frames generalizing lastMbit with
  | nil => exact le_rfl
  | cons f frames ih =>
    have hRest := ih (f.mbitAfter lastMbit)
    rw [frameEvents, List.length_append, List.filterMap_cons, SentFrame.events, SentFrame.start,
      SentFrame.received]
    cases f.receivedFront with
    | nil =>
      -- nothing before the last: no event
      cases f.receivedLast with
      | nil => simpa [startEvents] using hRest
      | cons packet rest =>
        simp only [startEvents, List.length_nil, List.nil_append, List.head?_cons, Option.map_some,
          List.length_cons]
        omega
    | cons packet front =>
      simp only [startEvents, List.cons_append, List.head?_cons, Option.map_some, List.length_cons]
      cases lastMbit <;> simp <;> omega

/-- Of a frame of which nothing arrives the stream notices nothing. -/
theorem SentFrame.unnoticed_of_lost {f : SentFrame ext split} (hNone : f.received = [])
    (lastMbit : Bool) : f.events lastMbit = [] ∧ f.mbitAfter lastMbit = lastMbit := by
  obtain ⟨hFront, hLast⟩ := List.append_eq_nil_iff.mp hNone
  have hLost : f.last.arrives = false := by
    by_contra hArrives
    simp [SentFrame.receivedLast, hArrives] at hLast
  constructor
  · rw [SentFrame.events, hFront, startEvents]
  · rw [SentFrame.mbitAfter, hLost, hFront]
    rfl

/-- A frame that is promised an event and has none is not made up for by the
frames behind it, which have at most one each. -/
theorem frameEvents_ne_of_events_nil {f : SentFrame ext split} (hSome : f.received ≠ [])
    {lastMbit : Bool} (hEvents : f.events lastMbit = []) (frames : List (SentFrame ext split)) :
    frameEvents lastMbit (f :: frames) ≠ (f :: frames).filterMap SentFrame.start := by
  intro hEq
  obtain ⟨packet, rest, hReceived⟩ := List.exists_cons_of_ne_nil hSome
  have hStart : f.start = some (f.rtpTimestamp, packet.info.timestamp) := by
    rw [SentFrame.start, hReceived]
    rfl
  have hLe := length_frameEvents_le frames (f.mbitAfter lastMbit)
  have hLength := congrArg List.length hEq
  rw [frameEvents, hEvents, List.nil_append, List.filterMap_cons_some hStart,
    List.length_cons] at hLength
  omega

theorem receivedFrames_cons_of_lost {f : SentFrame ext split} (hNone : f.received = [])
    (frames : List (SentFrame ext split)) : receivedFrames (f :: frames) = receivedFrames frames :=
  List.filter_cons_of_neg (by simpa using hNone)

theorem receivedFrames_cons {f : SentFrame ext split} (hSome : f.received ≠ [])
    (frames : List (SentFrame ext split)) :
    receivedFrames (f :: frames) = f :: receivedFrames frames :=
  List.filter_cons_of_pos (by simpa using hSome)

/-- A frame that is received is visible if its front is, and its last packet as
well if another frame is received behind it. -/
theorem startsVisible_cons_iff {f : SentFrame ext split} (hSome : f.received ≠ [])
    (frames : List (SentFrame ext split)) : StartsVisible (f :: frames) ↔
      f.receivedFront ≠ [] ∧ (receivedFrames frames ≠ [] → f.last.arrives = true) ∧
        StartsVisible frames := by
  have hFrames := receivedFrames_cons hSome frames
  constructor
  · rintro ⟨hFront, hLast⟩
    rw [hFrames, List.forall_mem_cons] at hFront
    rw [hFrames] at hLast
    refine ⟨hFront.1, fun hMore => ?_, ⟨hFront.2, fun g hg => ?_⟩⟩
    · rw [List.dropLast_cons_of_ne_nil hMore] at hLast
      exact (List.forall_mem_cons.mp hLast).1
    · -- a frame that is not the newest of the rest is not the newest of all
      have hMore : receivedFrames frames ≠ [] :=
        List.ne_nil_of_mem (List.dropLast_subset _ hg)
      rw [List.dropLast_cons_of_ne_nil hMore] at hLast
      exact (List.forall_mem_cons.mp hLast).2 g hg
  · rintro ⟨hFront, hLast, hVisible⟩
    refine ⟨?_, ?_⟩
    · rw [hFrames, List.forall_mem_cons]
      exact ⟨hFront, hVisible.front⟩
    · rw [hFrames]
      -- the newest frame is another one, or there is none to speak of
      by_cases hMore : receivedFrames frames = []
      · rw [hMore]
        exact nofun
      · rw [List.dropLast_cons_of_ne_nil hMore, List.forall_mem_cons]
        exact ⟨hLast hMore, hVisible.last⟩

/-- The events behind a marker, or behind none, against those promised. -/
theorem frameEvents_eq_iff (frames : List (SentFrame ext split)) (lastMbit : Bool) :
    frameEvents lastMbit frames = frames.filterMap SentFrame.start ↔
      (receivedFrames frames ≠ [] → lastMbit = true) ∧ StartsVisible frames := by
  induction frames generalizing lastMbit with
  | nil => exact ⟨fun _ => ⟨fun h => absurd rfl h, ⟨nofun, nofun⟩⟩, fun _ => rfl⟩
  | cons f frames ih =>
    by_cases hNone : f.received = []
    · -- nothing of the frame is received: it is no event and is promised none
      obtain ⟨hEvents, hMbit⟩ := SentFrame.unnoticed_of_lost hNone lastMbit
      have hFrames := receivedFrames_cons_of_lost hNone frames
      have hStart : f.start = none := by rw [SentFrame.start, hNone]; rfl
      rw [frameEvents, hEvents, hMbit, List.nil_append, List.filterMap_cons_none hStart, hFrames,
        ih lastMbit]
      exact and_congr_right fun _ => ⟨fun h => ⟨hFrames ▸ h.front, hFrames ▸ h.last⟩,
        fun h => ⟨hFrames ▸ h.front, hFrames ▸ h.last⟩⟩
    rw [startsVisible_cons_iff hNone]
    cases hFront : f.receivedFront with
    | nil =>
      -- only the last packet is received
      have hEvents : f.events lastMbit = [] := by rw [SentFrame.events, hFront, startEvents]
      exact iff_of_false (frameEvents_ne_of_events_nil hNone hEvents frames) fun h => h.2.1 rfl
    | cons packet front =>
      cases lastMbit with
      | false =>
        -- the frame before ended without its marker
        have hEvents : f.events false = [] := by rw [SentFrame.events, hFront]; rfl
        refine iff_of_false (frameEvents_ne_of_events_nil hNone hEvents frames) fun h => ?_
        have hMarker := h.1 (receivedFrames_cons hNone frames ▸ List.cons_ne_nil _ _)
        cases hMarker
      | true =>
        -- the frame has its event, and the rest depends on its own marker
        have hEvents : f.events true = [(f.rtpTimestamp, packet.info.timestamp)] := by
          rw [SentFrame.events, hFront]
          rfl
        have hStart : f.start = some (f.rtpTimestamp, packet.info.timestamp) := by
          rw [SentFrame.start, SentFrame.received, hFront]
          rfl
        have hMbit : f.mbitAfter true = f.last.arrives := by
          rw [SentFrame.mbitAfter, hFront]
          cases f.last.arrives <;> rfl
        rw [frameEvents, hEvents, List.filterMap_cons_some hStart, List.singleton_append,
          List.cons_inj_right, ih, hMbit]
        constructor
        · rintro hRest
          exact ⟨fun _ => rfl, List.cons_ne_nil _ _, hRest⟩
        · rintro ⟨-, -, hRest⟩
          exact hRest

/-- A stream with a frame handler, before its first chunk. -/
structure CreatedWithHandler (ext split : Bool) (app : AppRTPReceiveStream) : Prop where
  extended : app.isExtendedSequenceNumber = ext
  hds : app.isHeaderDataSplit = split
  processing : app.isHeaderProcessingEnabled = true
  notified : app.frameNotifier = some []
  marker : app.lastMbit = true

/-- **Frame starts.** For every run of frames in order, of one packet or more,
with any losses, cut into any chunks: the handler is told of every frame received
once, with its timestamp and the time of its first packet, exactly if of every
frame received a packet before the last arrives, and of every one but the newest
the last as well. -/
theorem frameStarts_iff {app : AppRTPReceiveStream} (hCreated : CreatedWithHandler ext split app)
    (frames : List (SentFrame ext split)) (chunks : List (Memory × ReceiveChunk))
    (hReceived : app.receivedPackets chunks = frames.flatMap (·.received)) :
    FrameStartsNotified frames (app.getNextChunks chunks) ↔ StartsVisible frames := by
  have hFresh : StartState ext split [] true app :=
    ⟨hCreated.extended, hCreated.hds, hCreated.processing, hCreated.notified, hCreated.marker⟩
  obtain ⟨lastMbit, hRun⟩ := hFresh.receiveFrames frames
  rw [← hReceived] at hRun
  have hSame : SameStart app app := ⟨rfl, rfl, rfl, rfl, rfl⟩
  -- the events of the chunks are those of the packets
  have hEvents : (app.getNextChunks chunks).rtpEvents = frameEvents true frames := by
    rw [AppRTPReceiveStream.rtpEvents, (hSame.getNextChunks chunks).notified, hRun.notified,
      List.append_nil]
    exact List.reverse_reverse _
  rw [FrameStartsNotified, hEvents, frameEvents_eq_iff]
  exact and_iff_right fun _ => rfl

end Promise

/-! ## Runs on fixed packets -/

/-- Strides of sixteen bytes, with the marker of packet `k` as given; the timestamp
goes up by one behind each. -/
def markedMemory (markers : List Bool) : Memory := fun i =>
  let mbit := markers.getD (i / 16) false
  match i % 16 with
  | 0 => 0x80
  | 1 => if mbit then 0xE0 else 0x60
  | 7 => 90 + UInt8.ofNat ((markers.take (i / 16)).count true)
  | _ => 0

/-- One chunk of such packets, each received at time 1000. -/
def markedChunk (markers : List Bool) : ReceiveChunk where
  hdsOn := false
  headerPtr := 0
  payloadPtr := 0
  packetInfos := markers.map fun _ => { timestamp := 1000, subBlockSizes := [16] }

def handledStream : AppRTPReceiveStream :=
  { createRtpReceiveStream false false (some []) with payloadStrideSize := 16 }

/-- Packet `k` of such a chunk. -/
def markedPacket (markers : List Bool) (k : Nat) : ReceivedPacket where
  header := fun i => markedMemory markers (0 + k * 16 + i)
  info := { timestamp := 1000, subBlockSizes := [16] }

/-- Two frames of three packets: the middle of the first is lost, and of the second
only the middle arrives. -/
def lossyFrames : List (SentFrame false false) :=
  [{ rtpTimestamp := 90
     front :=
      [⟨markedPacket [false, true, false] 0, true, by decide, by decide, by decide⟩,
        ⟨markedPacket [false, true, false] 0, false, by decide, by decide, by decide⟩]
     last := ⟨markedPacket [false, true, false] 1, true, by decide, by decide, by decide⟩ },
    { rtpTimestamp := 91
      front :=
        [⟨markedPacket [false, true, false] 2, false, by decide, by decide, by decide⟩,
          ⟨markedPacket [false, true, false] 2, true, by decide, by decide, by decide⟩]
      last := ⟨markedPacket [false, true, true] 2, false, by decide, by decide, by decide⟩ }]

/-- Of both frames a packet arrives before the last, and the last of the first. -/
theorem startsVisible_lossyFrames : StartsVisible lossyFrames where
  front := by
    intro f hf
    have hMem : f ∈ lossyFrames := List.mem_of_mem_filter hf
    simp only [lossyFrames, List.mem_cons, List.not_mem_nil, or_false] at hMem
    rcases hMem with rfl | rfl
    · exact List.cons_ne_nil (markedPacket [false, true, false] 0) []
    · exact List.cons_ne_nil (markedPacket [false, true, false] 2) []
  last := by
    intro f hf
    obtain rfl := List.mem_singleton.mp (show f ∈ [lossyFrames.head (List.cons_ne_nil _ _)] from hf)
    rfl

theorem frameStarts_lossyFrames :
    (handledStream.getNextChunks [(markedMemory [false, true, false],
        markedChunk [false, true, false])]).rtpEvents = [(90, 1000), (91, 1000)] ∧
      FrameStartsNotified lossyFrames (handledStream.getNextChunks
        [(markedMemory [false, true, false], markedChunk [false, true, false])]) := by
  have hCreated : CreatedWithHandler false false handledStream := ⟨rfl, rfl, rfl, rfl, rfl⟩
  refine ⟨by decide +kernel, ?_⟩
  exact (frameStarts_iff hCreated lossyFrames
    [(markedMemory [false, true, false], markedChunk [false, true, false])] rfl).mpr
      startsVisible_lossyFrames

/-- A frame of one packet, which arrives. -/
def singleFrame : SentFrame false false where
  rtpTimestamp := 90
  front := []
  last := ⟨markedPacket [true] 0, true, by decide, by decide, by decide⟩

/-- The handler is not told of a frame that is its own last packet. -/
theorem single_packet_frame_unnoticed :
    handledStream.receivedPackets [(markedMemory [true], markedChunk [true])] =
        [singleFrame].flatMap (·.received) ∧
      ¬FrameStartsNotified [singleFrame]
        (handledStream.getNextChunks [(markedMemory [true], markedChunk [true])]) := by
  refine ⟨rfl, fun h => ?_⟩
  have hNone : (handledStream.getNextChunks
      [(markedMemory [true], markedChunk [true])]).rtpEvents = [] := by decide +kernel
  rw [FrameStartsNotified, hNone] at h
  cases h

end RivermaxDevKit
