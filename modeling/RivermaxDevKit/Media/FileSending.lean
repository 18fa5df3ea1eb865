import RivermaxDevKit.Media.FileStreaming
import RivermaxDevKit.Rtp.PayloadWriter

/-!
# File sending

A `MediaFileStreamingProvider` reads a file on its own thread, a media sender takes
its frames (`MediaSenderIONode::process_frame`, `media_sender_io_node.cpp`), and the
`RTPVideoBufferWriter` (`rtp_video_buffer_writer.cpp`) copies them packet by packet
out of the memory of the pool. The writer lets go of a frame behind its last byte.

* `Sent.step` — what every step of the two threads keeps.
* `flatMap_block` — the blocks of a file, one behind the other.
* `payloads_are_file` — the payloads of the packets are the file.
-/

namespace RivermaxDevKit

open ByteStore RtpVideoBufferWriter Streaming

/-! ## Sender -/

/-- The sender takes frames and fills packets while the producer goes on. `sent`
has the payloads of the packets, frame by frame. -/
structure FileSender where
  streaming : Streaming
  dataLeftInFrame : Nat := 0
  sent : List (List (List UInt8)) := []

inductive FileSenderEvent
  | producer (deviceFails : Bool)
  | processFrame
  | fillPacket

namespace FileSender

variable (c : MediaFileStreamingProvider) (w : WriterSettings) (s : FileSender)

/-- The writer, and what its frame holds now. -/
def writer : VideoWriter where
  currentFrame := s.streaming.held.head?.map fun r => s.streaming.content r.1
  dataLeftInFrame := s.dataLeftInFrame

/-- `process_frame`, as far as the frame provider lets it. The frame before it goes
when `set_next_frame` puts another in its place. -/
def processFrame : FileSender :=
  match s.streaming.frameProvider.getFrameBlocking with
  | some (some frame, _) =>
    let taken := s.streaming.step c .getFrameBlocking
    { streaming := if s.streaming.held = [] then taken else taken.release 0
      dataLeftInFrame := (s.streaming.content frame).length
      sent := s.sent ++ [[]] }
  | _ => { s with streaming := s.streaming.step c .getFrameBlocking }

/-- A payload of the frame that was taken last. -/
def addPayload (payload : List UInt8) : List (List (List UInt8)) :=
  s.sent.dropLast ++ [s.sent.getLastD [] ++ [payload]]

/-- `fill_packet`. The reference goes with the last byte of the frame. -/
def fillPacket : FileSender :=
  if s.streaming.held = [] then s
  else
    let filled := RtpVideoBufferWriter.fillPacket w s.writer
    { streaming := if filled.2.currentFrame = none then s.streaming.release 0 else s.streaming
      dataLeftInFrame := filled.2.dataLeftInFrame
      sent := s.addPayload filled.1 }

def step : FileSenderEvent → FileSender
  | .producer deviceFails => { s with streaming := s.streaming.step c (.producer deviceFails) }
  | .processFrame => s.processFrame c
  | .fillPacket => s.fillPacket w

def run (events : List FileSenderEvent) : FileSender := events.foldl (step c w) s

/-! ## Slices -/

/-- The first slices of a frame, one for each packet. -/
def slices (raw : Nat) (frame : List UInt8) (k : Nat) : List (List UInt8) :=
  (List.range k).map fun i => (frame.drop (i * raw)).take raw

variable {c w s}

/-- What was sent of the frames, and where the writer is in the last one. -/
structure Sent (c : MediaFileStreamingProvider) (w : WriterSettings) (p : MediaFramePool)
    (s : FileSender) : Prop where
  inv : Inv c p s.streaming
  length_eq : s.sent.length = s.streaming.takenCount
  slices_eq : ∀ n payloads, s.sent[n]? = some payloads →
    payloads = slices w.media.rawPacketPayloadSize (due c n) payloads.length
  writing : s.streaming.held = [] ∨ ∃ frame front payloads,
    s.streaming.held = [(frame, front.length)] ∧ s.sent = front ++ [payloads] ∧
      Filled w (due c front.length) payloads.length s.writer

/-- A step of the producer is not seen by the writer. -/
theorem Sent.producer {p : MediaFramePool} (h : Sent c w p s) (hPool : PoolFrames c.frameSize p)
    (hFile : c.file ≠ []) (deviceFails : Bool) :
    Sent c w p { s with streaming := s.streaming.step c (.producer deviceFails) } := by
  have hInv := h.inv.step hPool hFile (.producer deviceFails)
  have hSame : (s.streaming.step c (.producer deviceFails)).held = s.streaming.held ∧
      (s.streaming.step c (.producer deviceFails)).takenCount = s.streaming.takenCount := by
    show (s.streaming.producer c deviceFails).held = _ ∧
      (s.streaming.producer c deviceFails).takenCount = _
    unfold Streaming.producer Streaming.readBlock
    repeat' split
    all_goals exact ⟨rfl, rfl⟩
  refine ⟨hInv, h.length_eq.trans hSame.2.symm, h.slices_eq, ?_⟩
  rcases h.writing with hNone | ⟨frame, front, payloads, hHeld, hSent, hFilled⟩
  · exact .inl (hSame.1.trans hNone)
  · refine .inr ⟨frame, front, payloads, hSame.1.trans hHeld, hSent, hFilled.dataLeft, ?_⟩
    -- the frame holds its block before and behind the step
    left
    have hMem : (frame, front.length) ∈ (s.streaming.step c (.producer deviceFails)).held := by
      rw [hSame.1, hHeld]
      exact List.mem_singleton_self _
    show ((s.streaming.step c (.producer deviceFails)).held.head?.map _) = _
    rw [hSame.1, hHeld]
    exact congrArg some (hInv.held _ hMem).1

theorem slices_succ (raw : Nat) (frame : List UInt8) (k : Nat) :
    slices raw frame (k + 1) = slices raw frame k ++ [(frame.drop (k * raw)).take raw] := by
  rw [slices, List.range_succ, List.map_append]
  rfl

theorem length_slices (raw : Nat) (frame : List UInt8) (k : Nat) :
    (slices raw frame k).length = k := by
  rw [slices, List.length_map, List.length_range]

/-- The first frame of those held goes. -/
theorem release_zero {r : Nat × Nat} {rest : List (Nat × Nat)} {streaming : Streaming}
    (hHeld : streaming.held = r :: rest) :
    (streaming.release 0).held = rest ∧
      (streaming.release 0).takenCount = streaming.takenCount ∧
        ∀ frame, (streaming.release 0).content frame = streaming.content frame := by
  unfold Streaming.release
  rw [hHeld]
  dsimp only [List.getElem?_cons_zero]
  exact ⟨rfl, rfl, content_congr (dropReference_allFrames _ _ _) rfl⟩

/-- The writer begins with a frame that was taken. -/
theorem Sent.processFrame {p : MediaFramePool} (h : Sent c w p s)
    (hPool : PoolFrames c.frameSize p) (hFile : c.file ≠ []) : Sent c w p (s.processFrame c) := by
  have hInv := h.inv.step hPool hFile .getFrameBlocking
  unfold FileSender.processFrame
  cases hQueue : s.streaming.frameProvider.frameQueue with
  | nil =>
    -- the sender waits, or the provider is stopped and has nothing
    have hGet : ∀ frame q, s.streaming.frameProvider.getFrameBlocking ≠ some (some frame, q) := by
      intro frame q
      unfold BufferedMediaFrameProvider.getFrameBlocking
      rw [hQueue]
      dsimp only
      split_ifs <;> simp
    have hSame : s.streaming.step c .getFrameBlocking = s.streaming := by
      unfold Streaming.step BufferedMediaFrameProvider.getFrameBlocking
      rw [hQueue]
      dsimp only
      split_ifs
      · rfl
      · rfl
    split
    · exact absurd (by assumption) (hGet _ _)
    · rw [hSame]
      exact h
  | cons frame rest =>
    have hGet : s.streaming.frameProvider.getFrameBlocking =
        some (some frame, { s.streaming.frameProvider with frameQueue := rest }) := by
      unfold BufferedMediaFrameProvider.getFrameBlocking
      rw [hQueue]
    have hTaken : s.streaming.step c .getFrameBlocking = s.streaming.taken
        (some frame, { s.streaming.frameProvider with frameQueue := rest }) := by
      unfold Streaming.step
      rw [hGet]
    have hContent : s.streaming.content frame = due c s.streaming.takenCount :=
      h.inv.queued 0 frame (by rw [hQueue]; rfl)
    rw [hGet]
    dsimp only
    -- of all frames the sender keeps the new one
    have hNext : ∃ streaming, (if s.streaming.held = [] then s.streaming.step c .getFrameBlocking
        else (s.streaming.step c .getFrameBlocking).release 0) = streaming ∧
        Inv c p streaming ∧ streaming.held = [(frame, s.streaming.takenCount)] ∧
          streaming.takenCount = s.streaming.takenCount + 1 ∧
            streaming.content frame = due c s.streaming.takenCount := by
      rcases h.writing with hNone | ⟨old, front, payloads, hHeld, -, -⟩
      · refine ⟨_, rfl, ?_⟩
        rw [if_pos hNone]
        refine ⟨hInv, ?_, ?_, ?_⟩
        · rw [hTaken]
          show s.streaming.held ++ [(frame, s.streaming.takenCount)] = _
          rw [hNone, List.nil_append]
        · rw [hTaken]
          rfl
        · rw [hTaken]
          exact hContent
      · refine ⟨_, rfl, ?_⟩
        rw [if_neg (by rw [hHeld]; exact List.cons_ne_nil _ _)]
        have hBoth : (s.streaming.step c .getFrameBlocking).held =
            (old, front.length) :: [(frame, s.streaming.takenCount)] := by
          rw [hTaken]
          show s.streaming.held ++ _ = _
          rw [hHeld]
          rfl
        obtain ⟨hRest, hCount, hSame⟩ := release_zero hBoth
        refine ⟨hInv.release 0, hRest, hCount.trans (by rw [hTaken]; rfl), ?_⟩
        rw [hSame, hTaken]
        exact hContent
    obtain ⟨streaming, hIs, hInv', hHeld, hCount, hSame⟩ := hNext
    rw [hIs]
    refine ⟨hInv', ?_, fun n payloads hAt => ?_, .inr ⟨frame, s.sent, [], ?_, rfl, ?_, .inl ?_⟩⟩
    · rw [hCount, List.length_append, h.length_eq]
      rfl
    · rcases Nat.lt_or_ge n s.sent.length with hLt | hGe
      · rw [List.getElem?_append_left hLt] at hAt
        exact h.slices_eq n payloads hAt
      · rw [List.getElem?_append_right hGe] at hAt
        obtain rfl := List.mem_singleton.mp (List.mem_of_getElem? hAt)
        rfl
    · rw [hHeld, h.length_eq]
    · show (s.streaming.content frame).length = _
      rw [hContent, h.length_eq]
      simp
    · show streaming.held.head?.map _ = _
      rw [hHeld, h.length_eq]
      exact congrArg some hSame

/-- A packet gets the next slice of the frame. -/
theorem Sent.fillPacket {p : MediaFramePool} (h : Sent c w p s)
    (hUtils : w.payloadMemUtils = true) : Sent c w p (s.fillPacket w) := by
  unfold FileSender.fillPacket
  rcases h.writing with hNone | ⟨frame, front, payloads, hHeld, hSent, hFilled⟩
  · rw [if_pos hNone]
    exact h
  rw [if_neg (by rw [hHeld]; exact List.cons_ne_nil _ _)]
  obtain ⟨hSlice, -, hNext⟩ := payload_of_packet hUtils hFilled
  have hOwn : payloads = slices w.media.rawPacketPayloadSize (due c front.length) payloads.length :=
    h.slices_eq front.length payloads (by rw [hSent, List.getElem?_concat_length])
  have hAdd : s.addPayload (RtpVideoBufferWriter.fillPacket w s.writer).1 =
      front ++ [payloads ++ [(RtpVideoBufferWriter.fillPacket w s.writer).1]] := by
    rw [addPayload, hSent, List.dropLast_concat, List.getLastD_concat]
  have hMore : payloads ++ [(RtpVideoBufferWriter.fillPacket w s.writer).1] =
      slices w.media.rawPacketPayloadSize (due c front.length) (payloads.length + 1) := by
    rw [slices_succ, hSlice, ← hOwn]
  have hContent : s.streaming.content frame = due c front.length :=
    (h.inv.held (frame, front.length) (by rw [hHeld]; exact List.mem_singleton_self _)).1
  obtain ⟨hRest, hCount, -⟩ := release_zero hHeld
  have hSlices : ∀ n others, (s.addPayload (RtpVideoBufferWriter.fillPacket w s.writer).1)[n]? =
      some others → others =
        slices w.media.rawPacketPayloadSize (due c n) others.length := by
    intro n others hAt
    rw [hAdd] at hAt
    rcases Nat.lt_trichotomy n front.length with hLt | rfl | hGt
    · rw [List.getElem?_append_left hLt] at hAt
      exact h.slices_eq n others (by rw [hSent, List.getElem?_append_left hLt]; exact hAt)
    · rw [List.getElem?_concat_length] at hAt
      obtain rfl := Option.some.inj hAt
      rw [hMore, length_slices]
    · rw [List.getElem?_eq_none (by simp; omega)] at hAt
      cases hAt
  have hLength : (s.addPayload (RtpVideoBufferWriter.fillPacket w s.writer).1).length =
      s.streaming.takenCount := by
    rw [hAdd, ← h.length_eq, hSent, List.length_append, List.length_append]
    rfl
  dsimp only
  split_ifs with hDone
  · exact ⟨h.inv.release 0, hLength.trans hCount.symm, hSlices, .inl hRest⟩
  · refine ⟨h.inv, hLength, hSlices, .inr ⟨frame, front, _, hHeld, hAdd, ?_, .inl ?_⟩⟩
    · rw [List.length_append, List.length_singleton]
      exact hNext.dataLeft
    · show s.streaming.held.head?.map _ = _
      rw [hHeld]
      exact congrArg some hContent

theorem Sent.step {p : MediaFramePool} (h : Sent c w p s) (hPool : PoolFrames c.frameSize p)
    (hFile : c.file ≠ []) (hUtils : w.payloadMemUtils = true) (event : FileSenderEvent) :
    Sent c w p (s.step c w event) := by
  cases event with
  | producer deviceFails => exact h.producer hPool hFile deviceFails
  | processFrame => exact h.processFrame hPool hFile
  | fillPacket => exact h.fillPacket hUtils

theorem Sent.run {p : MediaFramePool} (h : Sent c w p s) (hPool : PoolFrames c.frameSize p)
    (hFile : c.file ≠ []) (hUtils : w.payloadMemUtils = true) (events : List FileSenderEvent) :
    Sent c w p (s.run c w events) := by
  induction events generalizing s with
  | nil => exact h
  | cons event events ih => exact ih (h.step hPool hFile hUtils event)

/-! ## The file -/

/-- The first blocks of a file, one behind the other. -/
theorem flatMap_block (k : Nat) (hBegun : ∀ j < k, j * c.frameSize < c.file.length) :
    (List.range k).flatMap (block c) = c.file.take (k * c.frameSize) ++
      List.replicate (k * c.frameSize - c.file.length) 0 := by
  induction k with
  | zero => simp
  | succ k ih =>
    have hHere := hBegun k (Nat.lt_succ_self k)
    have hNone : k * c.frameSize - c.file.length = 0 := by omega
    rw [List.range_succ, List.flatMap_append, ih fun j hj => hBegun j (Nat.lt_succ_of_lt hj), hNone,
      List.flatMap_singleton, List.replicate_zero, List.append_nil, Nat.succ_mul, List.take_add]
    unfold block readFile
    dsimp only
    rw [List.append_assoc, List.length_take, List.length_drop]
    congr 3
    omega

theorem length_block (i : Nat) : (block c i).length = c.frameSize := by
  have hLe : (readFile c.file (i * c.frameSize) c.frameSize).length ≤ c.frameSize := by
    rw [readFile, List.length_take]
    exact Nat.min_le_left _ _
  unfold block
  dsimp only
  rw [List.length_append, List.length_replicate]
  omega

/-- A producer that starts has a pool with room for its frames. -/
theorem sent_start (c : MediaFileStreamingProvider) (w : WriterSettings)
    {reserves newBytes : Nat → Bool} {a : MemoryAllocator} (hPlatform : Platform newBytes a)
    {maxQueueSize : Nat} {memory : Memory} {streaming : Streaming}
    (hStart : Streaming.start c reserves newBytes a maxQueueSize memory = some streaming) :
    ∃ p, PoolFrames c.frameSize p ∧ Sent c w p { streaming := streaming } := by
  unfold Streaming.start at hStart
  cases hCreate : MediaFramePool.create reserves MEMORY_POOL_FRAME_COUNT c.frameSize
      (.allocator a) with
  | none =>
    rw [hCreate] at hStart
    cases hStart
  | some pool =>
    rw [hCreate] at hStart
    dsimp only at hStart
    split at hStart
    · rename_i hNew
      obtain rfl := Option.some.inj hStart
      refine ⟨pool, poolFrames_of_create hCreate hPlatform.allocator (hPlatform.fits hNew), ?_⟩
      exact ⟨inv_start c hCreate maxQueueSize memory, rfl, nofun, .inl rfl⟩
    · cases hStart

/-- **The packets carry the file.** However the two threads take turns, the payloads
of frame `n` are the next slices of the block that is due as number `n`. When the
file is read to its end and every frame was sent to its end, all payloads one behind
the other are the file, filled up with zeros to a whole frame. -/
theorem payloads_are_file (c : MediaFileStreamingProvider) (w : WriterSettings)
    (hFile : c.file ≠ []) (hSize : 0 < c.frameSize) (hUtils : w.payloadMemUtils = true)
    {reserves newBytes : Nat → Bool} {a : MemoryAllocator} (hPlatform : Platform newBytes a)
    {maxQueueSize : Nat} {memory : Memory} {streaming : Streaming}
    (hStart : Streaming.start c reserves newBytes a maxQueueSize memory = some streaming)
    (events : List FileSenderEvent) :
    let s := run c w { streaming := streaming } events
    s.sent.length = s.streaming.takenCount ∧
      (∀ n payloads, s.sent[n]? = some payloads → payloads.flatten =
        (due c n).take (payloads.length * w.media.rawPacketPayloadSize)) ∧
      (s.streaming.pc = .returned → s.streaming.readFailed = false →
        s.streaming.frameProvider.frameQueue = [] →
        (∀ payloads ∈ s.sent, c.frameSize ≤ payloads.length * w.media.rawPacketPayloadSize) →
          s.sent.flatten.flatten =
            c.file ++ List.replicate (blockCount c * c.frameSize - c.file.length) 0) := by
  obtain ⟨p, hPool, hBegin⟩ := sent_start c w hPlatform hStart
  have hSent := hBegin.run hPool hFile hUtils events
  generalize run c w { streaming := streaming } events = s at hSent
  have hSlices : ∀ n payloads, s.sent[n]? = some payloads → payloads.flatten =
      (due c n).take (payloads.length * w.media.rawPacketPayloadSize) := by
    intro n payloads hAt
    have hFlat := congrArg List.flatten (hSent.slices_eq n payloads hAt)
    exact hFlat.trans (flatten_slices _ _)
  refine ⟨hSent.length_eq, hSlices, fun hPc hRead hQueue hAll => ?_⟩
  obtain ⟨hLoop, hCount⟩ := hSent.inv.delivered.complete hPc hRead
  have hOnce := hSent.inv.delivered.once hLoop
  rw [hQueue, List.length_nil, Nat.add_zero] at hCount hOnce
  rw [hCount] at hOnce
  -- frame by frame, the payloads are the blocks
  have hBlocks : s.sent.map List.flatten = (List.range (blockCount c)).map (block c) := by
    refine List.ext_getElem ?_ fun n hn hn' => ?_
    · rw [List.length_map, List.length_map, List.length_range, hSent.length_eq, hCount]
    · rw [List.length_map] at hn
      have hDue : due c n = block c n := by
        rw [due, Playback.position, hLoop]
        rfl
      rw [List.getElem_map, List.getElem_map, List.getElem_range,
        hSlices n _ (List.getElem?_eq_getElem hn), hDue]
      refine List.take_of_length_le ?_
      rw [length_block]
      exact hAll _ (List.getElem_mem hn)
  have hWhole : c.file.length ≤ blockCount c * c.frameSize := by
    by_contra hLess
    exact absurd ((lt_blockCount hSize).mpr (not_le.mp hLess)) (lt_irrefl _)
  rw [List.flatten_flatten, hBlocks, ← List.flatMap_def, flatMap_block _ hOnce,
    List.take_of_length_le hWhole]

/-- Three bytes in frames of two, once, and packets of one byte. -/
def threeBytesOnce : MediaFileStreamingProvider := { threeBytes with loopFrames := false }

def oneBytePackets : WriterSettings where
  media := { (fullHd ⟨25, 1⟩ .Progressive).media with rawPacketPayloadSize := 1 }
  appHeaderStrideSize := 20
  dataStrideSize := 21

/-- The sender is late, and a frame waits for it in the queue. -/
def threeBytesEvents : List FileSenderEvent :=
  List.replicate 12 (.producer false) ++ [.processFrame, .fillPacket] ++
    List.replicate 8 (.producer false) ++ [.fillPacket, .processFrame, .fillPacket, .fillPacket]

theorem payloads_are_file_threeBytes :
    ∃ streaming, Streaming.start threeBytesOnce (fun _ => true) (· ≤ 1024)
        MediaFramePool.smallAllocator 0 (fun _ => 0) = some streaming ∧
      (run threeBytesOnce oneBytePackets { streaming := streaming }
        threeBytesEvents).sent.flatten.flatten = [1, 2, 3, 0] := by
  have hPlatform : Platform (· ≤ 1024) MediaFramePool.smallAllocator :=
    ⟨MediaFramePool.proper_smallAllocator, fun n hn => by simp at hn; omega, by decide⟩
  have hStart : Streaming.start threeBytesOnce (fun _ => true) (· ≤ 1024)
      MediaFramePool.smallAllocator 0 (fun _ => 0) = some _ := rfl
  refine ⟨_, hStart, ?_⟩
  exact (payloads_are_file threeBytesOnce oneBytePackets (by decide) (by decide) rfl hPlatform
    hStart threeBytesEvents).2.2 (by decide +kernel) (by decide +kernel) (by decide +kernel)
      (by decide +kernel)

end FileSender
end RivermaxDevKit
