import RivermaxDevKit.Rtp.BufferWriter

/-!
# RTP video buffer writer — payload

`RTPVideoBufferWriter` (`rtp_video_buffer_writer.cpp`): the mock writer's
headers, and behind each of them the next bytes of the current frame. The two
overloads of `write_buffer` differ in where a stride has its header and its
payload.

* `payload_of_packet` — packet `k` carries the `k`-th slice of the frame.
* `memory_runWrites` — memory is what the packets leave in it.
* `inMemory_run` — behind a call memory holds its headers and payloads.
* `payload_conserved` — the packets of a frame, over any cut into calls.
-/

namespace RivermaxDevKit

open ByteStore

namespace RtpVideoBufferWriter

/-! ## Writer -/

/-- What a writer is constructed with. -/
structure WriterSettings where
  media : MediaSettings
  appHeaderStrideSize : Nat
  dataStrideSize : Nat
  payloadMemUtils : Bool := true

/-- The members of `RTPVideoBufferWriter` that change. -/
structure VideoWriter where
  sendData : SendingStatistics := {}
  currentFrame : Option (List UInt8) := none
  dataLeftInFrame : Nat := 0

/-- A packet as it was written: its parts, and where they went. -/
structure WrittenPacket where
  header : RtpHeader
  headerAt : Nat
  payload : List UInt8
  payloadAt : Nat

variable (c : WriterSettings)

/-- `set_next_frame`. -/
def setNextFrame (frame : List UInt8) (w : VideoWriter) : VideoWriter where
  sendData := resetInFrameState w.sendData
  currentFrame := some frame
  dataLeftInFrame := frame.length

/-- `fill_packet`: the bytes it copies, and the writer behind it. -/
def fillPacket (w : VideoWriter) : List UInt8 × VideoWriter :=
  match w.currentFrame with
  | none => ([], w)
  | some frame =>
    if !c.payloadMemUtils then ([], w)
    else
      let rawPayloadSize :=
        if w.dataLeftInFrame < c.media.rawPacketPayloadSize then w.dataLeftInFrame
        else c.media.rawPacketPayloadSize
      let framePtr := frame.drop (frame.length - w.dataLeftInFrame)
      let dataLeft := w.dataLeftInFrame - rawPayloadSize
      (framePtr.take rawPayloadSize,
        { w with
          dataLeftInFrame := dataLeft
          -- a frame that is fully transmitted is dropped
          currentFrame := if dataLeft = 0 then none else some frame })

/-- Where a stride has its header and its payload. -/
abbrev StridePlace := Nat → Nat × Nat

/-- The loop of both overloads, over the strides from `stride` on. -/
def writeStrides (place : StridePlace) : (remaining stride : Nat) → VideoWriter → Memory →
    List WrittenPacket × VideoWriter × Memory
  | 0, _, w, mem => ([], w, mem)
  | remaining + 1, stride, w, mem =>
    -- the counter goes back to zero with the last packet of a field
    if w.sendData.packetCounter < c.media.packetsInFrameField then
      let header := buildRtpHeader c.media w.sendData
      let filled := fillPacket c w
      let packet : WrittenPacket :=
        { header := header, headerAt := (place stride).1
          payload := filled.1, payloadAt := (place stride).2 }
      let next := { filled.2 with sendData := updateInFrameState c.media filled.2.sendData }
      let mem' := write packet.payloadAt packet.payload (write packet.headerAt header.bytes mem)
      let rest := writeStrides place remaining (stride + 1) next mem'
      (packet :: rest.1, rest.2)
    else ([], w, mem)

/-- A call of one of the two overloads. -/
inductive WriteCall
  | together (payloadPtr lengthInStrides : Nat)
  | separate (headerPtr payloadPtr lengthInStrides : Nat)
  deriving DecidableEq, Repr

def WriteCall.lengthInStrides : WriteCall → Nat
  | .together _ n => n
  | .separate _ _ n => n

def WriteCall.place : WriteCall → StridePlace
  | .together payloadPtr _ => fun stride =>
    (payloadPtr + stride * c.dataStrideSize,
      payloadPtr + stride * c.dataStrideSize + c.media.protocolHeaderSize)
  | .separate headerPtr payloadPtr _ => fun stride =>
    (headerPtr + stride * c.appHeaderStrideSize, payloadPtr + stride * c.dataStrideSize)

/-- `write_buffer`. -/
def WriteCall.run (call : WriteCall) (w : VideoWriter) (mem : Memory) :
    List WrittenPacket × VideoWriter × Memory :=
  writeStrides c (call.place c) call.lengthInStrides 0 w mem

def runWrites : List WriteCall → VideoWriter → Memory → List WrittenPacket × VideoWriter × Memory
  | [], w, mem => ([], w, mem)
  | call :: calls, w, mem =>
    let first := call.run c w mem
    let rest := runWrites calls first.2.1 first.2.2
    (first.1 ++ rest.1, rest.2)

/-! ## Payload of a packet -/

/-- Behind `k` packets of `frame`. -/
structure Filled (frame : List UInt8) (k : Nat) (w : VideoWriter) : Prop where
  dataLeft : w.dataLeftInFrame = frame.length - k * c.media.rawPacketPayloadSize
  current : w.currentFrame = some frame ∨ w.currentFrame = none ∧ w.dataLeftInFrame = 0

section Payload

variable {c} {frame : List UInt8} {k : Nat} {w : VideoWriter}

/-- The slice `fill_packet` copies, and what it leaves. -/
theorem slice_of_dataLeft {raw left : Nat} (hLeft : left = frame.length - k * raw) :
    (frame.drop (frame.length - left)).take (if left < raw then left else raw) =
        (frame.drop (k * raw)).take raw ∧
      left - (if left < raw then left else raw) = frame.length - (k + 1) * raw := by
  rw [Nat.succ_mul]
  -- inside the frame, or behind its end
  rcases Nat.lt_or_ge (k * raw) frame.length with hInside | hBehind
  · have hStart : frame.length - left = k * raw := by omega
    have hLength : (frame.drop (k * raw)).length = left := by
      rw [List.length_drop, hLeft]
    rw [hStart]
    split
    · rw [List.take_of_length_le hLength.le, List.take_of_length_le (by omega)]
      exact ⟨rfl, by omega⟩
    · exact ⟨rfl, by omega⟩
  · have hZero : left = 0 := by omega
    rw [hZero, Nat.sub_zero, List.drop_length, List.drop_eq_nil_of_le hBehind, List.take_nil,
      List.take_nil]
    exact ⟨rfl, by omega⟩

/-- Packet `k` carries the `k`-th slice of the frame, be it whole, cut short by
the end of the frame, or empty behind it. -/
theorem payload_of_packet (hUtils : c.payloadMemUtils = true) (h : Filled c frame k w) :
    (fillPacket c w).1 =
        (frame.drop (k * c.media.rawPacketPayloadSize)).take c.media.rawPacketPayloadSize ∧
      (fillPacket c w).2.sendData = w.sendData ∧ Filled c frame (k + 1) (fillPacket c w).2 := by
  have hLeft := h.dataLeft
  unfold fillPacket
  rcases h.current with hSome | ⟨hNone, hZero⟩
  · obtain ⟨hSlice, hRest⟩ := slice_of_dataLeft hLeft
    rw [hSome, hUtils]
    refine ⟨hSlice, rfl, hRest, ?_⟩
    by_cases hDone : w.dataLeftInFrame - (if w.dataLeftInFrame < c.media.rawPacketPayloadSize then
        w.dataLeftInFrame else c.media.rawPacketPayloadSize) = 0
    · exact Or.inr ⟨if_pos hDone, hDone⟩
    · exact Or.inl (if_neg hDone)
  · rw [hNone]
    -- the frame was dropped, and packet k lies behind it
    have hBehind : frame.length ≤ k * c.media.rawPacketPayloadSize := by omega
    refine ⟨?_, rfl, ⟨?_, Or.inr ⟨hNone, hZero⟩⟩⟩
    · rw [List.drop_eq_nil_of_le hBehind, List.take_nil]
    · rw [hZero, Nat.succ_mul]
      omega

/-- `k` packets written, of which `k` fit the field. -/
structure FrameProgress (frame : List UInt8) (k : Nat) (w : VideoWriter) : Prop where
  filled : Filled c frame k w
  counter : w.sendData.packetCounter = k % c.media.packetsInFrameField

/-- The strides of a call that stays in the frame: one packet each, with the
next slices of the frame. -/
theorem packets_of_writeStrides (hUtils : c.payloadMemUtils = true) (place : StridePlace)
    (remaining : Nat) : ∀ (stride : Nat) {k : Nat} {w : VideoWriter} (mem : Memory),
      FrameProgress (c := c) frame k w → k + remaining ≤ c.media.packetsInFrameField →
      let written := writeStrides c place remaining stride w mem
      written.1.map WrittenPacket.payload = (List.range remaining).map (fun i =>
          (frame.drop ((k + i) * c.media.rawPacketPayloadSize)).take
            c.media.rawPacketPayloadSize) ∧
        FrameProgress (c := c) frame (k + remaining) written.2.1 := by
  induction remaining with
  | zero =>
    intro stride k w mem h _
    exact ⟨rfl, h⟩
  | succ remaining ih =>
    intro stride k w mem h hFits
    -- the call stays in the field, so the guard passes
    have hCounter : w.sendData.packetCounter < c.media.packetsInFrameField := by
      rw [h.counter, Nat.mod_eq_of_lt (by omega)]
      omega
    obtain ⟨hPayload, hStats, hFilled⟩ := payload_of_packet hUtils h.filled
    have hNext : FrameProgress (c := c) frame (k + 1)
        { (fillPacket c w).2 with
          sendData := updateInFrameState c.media (fillPacket c w).2.sendData } := by
      refine ⟨⟨hFilled.dataLeft, hFilled.current⟩, ?_⟩
      show (if (fillPacket c w).2.sendData.packetCounter + 1 = _ then 0 else _) = _
      rw [hStats, WrapCounter.succ_mod_eq (by rw [← h.counter]; exact hCounter), h.counter]
    unfold writeStrides
    rw [if_pos hCounter]
    obtain ⟨hRest, hFinal⟩ := ih (stride + 1)
      (write (place stride).2 (fillPacket c w).1
        (write (place stride).1 (buildRtpHeader c.media w.sendData).bytes mem)) hNext (by omega)
    refine ⟨?_, ?_⟩
    · rw [List.range_succ_eq_map, List.map_cons, List.map_cons, List.map_map]
      -- the rest counts from the next packet on
      refine congrArg₂ List.cons hPayload (hRest.trans ?_)
      apply List.map_congr_left
      intro i _
      show _ = (frame.drop ((k + (i + 1)) * _)).take _
      rw [Nat.add_comm i, ← Nat.add_assoc]
    · rw [Nat.add_comm remaining, ← Nat.add_assoc]
      exact hFinal

/-- The calls that stay in the frame, however they cut it. -/
theorem packets_of_runWrites (hUtils : c.payloadMemUtils = true) (calls : List WriteCall) :
    ∀ {k : Nat} {w : VideoWriter} (mem : Memory), FrameProgress (c := c) frame k w →
      k + (calls.map WriteCall.lengthInStrides).sum ≤ c.media.packetsInFrameField →
      (runWrites c calls w mem).1.map WrittenPacket.payload =
        (List.range (calls.map WriteCall.lengthInStrides).sum).map (fun i =>
          (frame.drop ((k + i) * c.media.rawPacketPayloadSize)).take
            c.media.rawPacketPayloadSize) := by
  induction calls with
  | nil =>
    intro k w mem _ _
    rfl
  | cons call calls ih =>
    intro k w mem h hFits
    rw [List.map_cons, List.sum_cons] at hFits ⊢
    -- the next call goes on with the slice behind the last packet
    obtain ⟨hFirst, hNext⟩ :=
      packets_of_writeStrides hUtils (call.place c) call.lengthInStrides 0 mem h (by omega)
    have hRest := ih (call.run c w mem).2.2 hNext (by omega)
    show ((call.run c w mem).1 ++ _).map _ = _
    rw [List.map_append, List.range_add, List.map_append, List.map_map]
    refine congrArg₂ (· ++ ·) hFirst (hRest.trans ?_)
    apply List.map_congr_left
    intro i _
    show _ = (frame.drop ((k + (call.lengthInStrides + i)) * _)).take _
    rw [Nat.add_assoc]

/-- Slices one behind the other make up the frame. -/
theorem flatten_slices (raw k : Nat) :
    ((List.range k).map fun i => (frame.drop (i * raw)).take raw).flatten =
      frame.take (k * raw) := by
  induction k with
  | zero => simp
  | succ k ih =>
    rw [List.range_succ, List.map_append, List.flatten_append, ih, Nat.succ_mul, List.take_add]
    simp

end Payload

/-! ## Places -/

section Places

variable {c}

/-- What was written, wherever it went. -/
def WrittenPacket.contents (p : WrittenPacket) : RtpHeader × List UInt8 := (p.header, p.payload)

/-- The places of a call do not reach the packets or the writer. -/
theorem contents_writeStrides (place place' : StridePlace) (remaining : Nat) :
    ∀ (stride stride' : Nat) (w : VideoWriter) (mem mem' : Memory),
      (writeStrides c place remaining stride w mem).1.map WrittenPacket.contents =
          (writeStrides c place' remaining stride' w mem').1.map WrittenPacket.contents ∧
        (writeStrides c place remaining stride w mem).2.1 =
          (writeStrides c place' remaining stride' w mem').2.1 := by
  induction remaining with
  | zero =>
    intro stride stride' w mem mem'
    exact ⟨rfl, rfl⟩
  | succ remaining ih =>
    intro stride stride' w mem mem'
    unfold writeStrides
    -- the guard looks at the statistics, which are those of both
    split
    · obtain ⟨hRest, hWriter⟩ := ih (stride + 1) (stride' + 1) _ _ _
      exact ⟨congrArg (List.cons _) hRest, hWriter⟩
    · exact ⟨rfl, rfl⟩

/-- Calls of the same lengths, of either overload, write the same packets and
leave the same writer. -/
theorem contents_runWrites (calls : List WriteCall) :
    ∀ (calls' : List WriteCall) (w : VideoWriter) (mem mem' : Memory),
      calls.map WriteCall.lengthInStrides = calls'.map WriteCall.lengthInStrides →
      (runWrites c calls w mem).1.map WrittenPacket.contents =
          (runWrites c calls' w mem').1.map WrittenPacket.contents ∧
        (runWrites c calls w mem).2.1 = (runWrites c calls' w mem').2.1 := by
  induction calls with
  | nil =>
    intro calls' w mem mem' hLengths
    obtain rfl := List.map_eq_nil_iff.mp hLengths.symm
    exact ⟨rfl, rfl⟩
  | cons call calls ih =>
    intro calls' w mem mem' hLengths
    cases calls' with
    | nil => simp at hLengths
    | cons call' calls' =>
      obtain ⟨hLength, hLengths⟩ := List.cons.inj hLengths
      have hFirst := contents_writeStrides (c := c) (call.place c) (call'.place c)
        call.lengthInStrides 0 0 w mem mem'
      obtain ⟨hPackets, hWriter⟩ := hFirst
      rw [show call.lengthInStrides = call'.lengthInStrides from hLength] at hPackets hWriter
      have hSame : (call.run c w mem).2.1 = (call'.run c w mem').2.1 := by
        unfold WriteCall.run
        rw [show call.lengthInStrides = call'.lengthInStrides from hLength]
        exact hWriter
      -- both runs go on from one writer
      obtain ⟨hRest, hFinal⟩ := ih calls' (call.run c w mem).2.1 (call.run c w mem).2.2
        (call'.run c w mem').2.2 hLengths
      rw [hSame] at hRest hFinal
      refine ⟨?_, ?_⟩
      · show ((call.run c w mem).1 ++ _).map _ = ((call'.run c w mem').1 ++ _).map _
        rw [List.map_append, List.map_append, ← hRest, hSame]
        refine congrArg (· ++ _) ?_
        unfold WriteCall.run
        rw [show call.lengthInStrides = call'.lengthInStrides from hLength]
        exact hPackets
      · show (runWrites c calls (call.run c w mem).2.1 _).2.1 = _
        rw [hSame]
        exact hFinal

/-- The header goes first. -/
def WrittenPacket.writes (p : WrittenPacket) : List (Nat × List UInt8) :=
  [(p.headerAt, p.header.bytes), (p.payloadAt, p.payload)]

/-- What the packets leave in memory. -/
def packetsInMemory (packets : List WrittenPacket) (mem : Memory) : Memory :=
  writeAll (packets.flatMap WrittenPacket.writes) mem

theorem memory_writeStrides (place : StridePlace) (remaining : Nat) :
    ∀ (stride : Nat) (w : VideoWriter) (mem : Memory),
      (writeStrides c place remaining stride w mem).2.2 =
        packetsInMemory (writeStrides c place remaining stride w mem).1 mem := by
  induction remaining with
  | zero =>
    intro stride w mem
    rfl
  | succ remaining ih =>
    intro stride w mem
    unfold writeStrides
    split
    · exact ih _ _ _
    · rfl

theorem memory_runWrites (calls : List WriteCall) : ∀ (w : VideoWriter) (mem : Memory),
    (runWrites c calls w mem).2.2 = packetsInMemory (runWrites c calls w mem).1 mem := by
  induction calls with
  | nil =>
    intro w mem
    rfl
  | cons call calls ih =>
    intro w mem
    show (runWrites c calls _ _).2.2 = packetsInMemory (_ ++ _) mem
    rw [ih, packetsInMemory, packetsInMemory, List.flatMap_append, writeAll_append]
    congr 1
    exact memory_writeStrides _ _ _ _ _

/-- Address `i` lies in neither part of the packet. -/
def WrittenPacket.Avoids (p : WrittenPacket) (i : Nat) : Prop :=
  ¬ (p.headerAt ≤ i ∧ i < p.headerAt + p.header.bytes.length) ∧
    ¬ (p.payloadAt ≤ i ∧ i < p.payloadAt + p.payload.length)

/-- Only the parts of the packets are written. -/
theorem packetsInMemory_of_avoids {i : Nat} (packets : List WrittenPacket) :
    ∀ (mem : Memory), (∀ p ∈ packets, p.Avoids i) → packetsInMemory packets mem i = mem i := by
  induction packets with
  | nil =>
    intro mem _
    rfl
  | cons p packets ih =>
    intro mem hAvoids
    obtain ⟨hHeader, hPayload⟩ := hAvoids p List.mem_cons_self
    show packetsInMemory packets _ i = mem i
    rw [ih _ fun q hq => hAvoids q (List.mem_cons_of_mem _ hq)]
    exact (write_of_outside hPayload).trans (write_of_outside hHeader)

/-- A header fits its stride, and a payload behind it or in a stride of its own. -/
def WriteCall.Fits (c : WriterSettings) : WriteCall → Prop
  | .together _ _ =>
    RTP_ST_2110_20_SINGLE_SRD_HEADER_SIZE ≤ c.media.protocolHeaderSize ∧
      c.media.protocolHeaderSize + c.media.rawPacketPayloadSize ≤ c.dataStrideSize
  | .separate _ _ _ =>
    RTP_ST_2110_20_SINGLE_SRD_HEADER_SIZE ≤ c.appHeaderStrideSize ∧
      c.media.rawPacketPayloadSize ≤ c.dataStrideSize

/-- The packet of stride `s` stays in the stride: header and payload one behind
the other, or each in a stride of its own. -/
def WriteCall.OwnStride (c : WriterSettings) (s : Nat) (p : WrittenPacket) : WriteCall → Prop
  | .together payloadPtr _ =>
    payloadPtr + s * c.dataStrideSize ≤ p.headerAt ∧
      p.headerAt + p.header.bytes.length ≤ p.payloadAt ∧
      p.payloadAt + p.payload.length ≤ payloadPtr + (s + 1) * c.dataStrideSize
  | .separate headerPtr payloadPtr _ =>
    headerPtr + s * c.appHeaderStrideSize ≤ p.headerAt ∧
      p.headerAt + p.header.bytes.length ≤ headerPtr + (s + 1) * c.appHeaderStrideSize ∧
      payloadPtr + s * c.dataStrideSize ≤ p.payloadAt ∧
      p.payloadAt + p.payload.length ≤ payloadPtr + (s + 1) * c.dataStrideSize

/-- A packet carries at most the raw payload size. -/
theorem length_fillPacket_le (w : VideoWriter) :
    (fillPacket c w).1.length ≤ c.media.rawPacketPayloadSize := by
  unfold fillPacket
  split
  · exact Nat.zero_le _
  · split
    · exact Nat.zero_le _
    · refine (List.length_take_le _ _).trans ?_
      split <;> omega

/-- Stride `s` of a loop is written at the place of stride `s`. -/
theorem place_of_writeStrides (place : StridePlace) (remaining : Nat) :
    ∀ (stride : Nat) (w : VideoWriter) (mem : Memory) (s : Nat) (p : WrittenPacket),
      (writeStrides c place remaining stride w mem).1[s]? = some p →
        (p.headerAt, p.payloadAt) = place (stride + s) ∧
          p.payload.length ≤ c.media.rawPacketPayloadSize := by
  induction remaining with
  | zero =>
    intro stride w mem s p hAt
    simp [writeStrides] at hAt
  | succ remaining ih =>
    intro stride w mem s p hAt
    unfold writeStrides at hAt
    split at hAt
    · cases s with
      | zero =>
        -- the stride at hand
        obtain rfl := Option.some.inj hAt
        exact ⟨rfl, length_fillPacket_le w⟩
      | succ s =>
        rw [Nat.add_comm s, ← Nat.add_assoc]
        exact ih (stride + 1) _ _ s p hAt
    · simp at hAt

/-- Every packet of a call whose parts fit stays in its own stride. -/
theorem ownStride_run {call : WriteCall} (hFits : call.Fits c) (w : VideoWriter) (mem : Memory)
    {s : Nat} {p : WrittenPacket} (hAt : (call.run c w mem).1[s]? = some p) :
    call.OwnStride c s p := by
  obtain ⟨hPlace, hLength⟩ := place_of_writeStrides _ _ 0 w mem s p hAt
  rw [Nat.zero_add] at hPlace
  have hHeader : p.header.bytes.length = RTP_ST_2110_20_SINGLE_SRD_HEADER_SIZE :=
    RtpHeader.length_bytes _
  cases call with
  | together payloadPtr n =>
    obtain ⟨hHeaderAt, hPayloadAt⟩ := Prod.mk.inj hPlace
    -- the payload begins behind the room that the header has
    obtain ⟨hProtocol, hStride⟩ := hFits
    unfold WriteCall.OwnStride
    rw [hHeaderAt, hPayloadAt, hHeader, Nat.succ_mul]
    omega
  | separate headerPtr payloadPtr n =>
    obtain ⟨hHeaderAt, hPayloadAt⟩ := Prod.mk.inj hPlace
    -- a stride for the header, and one for the payload
    obtain ⟨hAppHeader, hStride⟩ := hFits
    unfold WriteCall.OwnStride
    rw [hHeaderAt, hPayloadAt, hHeader, Nat.succ_mul, Nat.succ_mul]
    omega

/-- The strides of headers and those of payloads do not overlap. -/
def WriteCall.Apart (c : WriterSettings) : WriteCall → Prop
  | .together _ _ => True
  | .separate headerPtr payloadPtr n =>
    headerPtr + n * c.appHeaderStrideSize ≤ payloadPtr ∨
      payloadPtr + n * c.dataStrideSize ≤ headerPtr

/-- Packets in strides of their own do not reach each other. -/
theorem WriteCall.OwnStride.disjoint {call : WriteCall} {s s' : Nat} {p q : WrittenPacket}
    (hp : call.OwnStride c s p) (hq : call.OwnStride c s' q) (hApart : call.Apart c)
    (hOrder : s < s') (hIn : s' < call.lengthInStrides) :
    ∀ v ∈ p.writes, ∀ w ∈ q.writes, v.1 + v.2.length ≤ w.1 ∨ w.1 + w.2.length ≤ v.1 := by
  -- stride s ends where the next one begins, at the latest at stride s'
  have hStride {n : Nat} (hn : s' < n) (size : Nat) : (s + 1) * size ≤ s' * size ∧
      (s + 1) * size ≤ n * size ∧ (s' + 1) * size ≤ n * size :=
    ⟨Nat.mul_le_mul_right _ hOrder, Nat.mul_le_mul_right _ (by omega),
      Nat.mul_le_mul_right _ hn⟩
  simp only [WrittenPacket.writes, List.forall_mem_cons, List.not_mem_nil, false_implies,
    implies_true, and_true]
  cases call with
  | together payloadPtr n =>
    have hData := hStride hIn c.dataStrideSize
    unfold WriteCall.OwnStride at hp hq
    exact ⟨⟨by omega, by omega⟩, by omega, by omega⟩
  | separate headerPtr payloadPtr n =>
    have hData := hStride (n := n) hIn c.dataStrideSize
    have hHeader := hStride (n := n) hIn c.appHeaderStrideSize
    unfold WriteCall.OwnStride at hp hq
    unfold WriteCall.Apart at hApart
    exact ⟨⟨by omega, by omega⟩, by omega, by omega⟩

/-- Nor does a payload reach its header. -/
theorem WriteCall.OwnStride.header_apart {call : WriteCall} {s : Nat} {p : WrittenPacket}
    (hp : call.OwnStride c s p) (hApart : call.Apart c) (hIn : s < call.lengthInStrides) :
    p.headerAt + p.header.bytes.length ≤ p.payloadAt ∨
      p.payloadAt + p.payload.length ≤ p.headerAt := by
  cases call with
  | together payloadPtr n => exact Or.inl hp.2.1
  | separate headerPtr payloadPtr n =>
    have hData : (s + 1) * c.dataStrideSize ≤ n * c.dataStrideSize :=
      Nat.mul_le_mul_right _ hIn
    have hHeader : (s + 1) * c.appHeaderStrideSize ≤ n * c.appHeaderStrideSize :=
      Nat.mul_le_mul_right _ hIn
    unfold WriteCall.OwnStride at hp
    unfold WriteCall.Apart at hApart
    omega

theorem length_writeStrides_le (place : StridePlace) (remaining : Nat) :
    ∀ (stride : Nat) (w : VideoWriter) (mem : Memory),
      (writeStrides c place remaining stride w mem).1.length ≤ remaining := by
  induction remaining with
  | zero => exact fun _ _ _ => le_rfl
  | succ remaining ih =>
    intro stride w mem
    unfold writeStrides
    split
    · exact Nat.succ_le_succ (ih _ _ _)
    · exact Nat.zero_le _

/-- Behind a call memory holds the header and the payload of each of its packets. -/
theorem inMemory_run {call : WriteCall} (hFits : call.Fits c) (hApart : call.Apart c)
    (w : VideoWriter) (mem : Memory) {s : Nat} {p : WrittenPacket}
    (hAt : (call.run c w mem).1[s]? = some p) :
    read (call.run c w mem).2.2 p.headerAt p.header.bytes.length = p.header.bytes ∧
      read (call.run c w mem).2.2 p.payloadAt p.payload.length = p.payload := by
  have hOwn := ownStride_run hFits w mem hAt
  have hCount : (call.run c w mem).1.length ≤ call.lengthInStrides :=
    length_writeStrides_le _ _ _ _ _
  obtain ⟨hIn, hSelf⟩ := List.getElem?_eq_some_iff.mp hAt
  have hMemory : (call.run c w mem).2.2 = packetsInMemory (call.run c w mem).1 mem :=
    memory_writeStrides _ _ _ _ _
  -- the writes of the packet, those before it, and those of later packets
  have hSplit : (call.run c w mem).1 = (call.run c w mem).1.take s ++
      p :: (call.run c w mem).1.drop (s + 1) := by
    rw [← hSelf, List.cons_getElem_drop_succ, List.take_append_drop]
  have hLater : ∀ v ∈ p.writes, ∀ u ∈ ((call.run c w mem).1.drop (s + 1)).flatMap
      WrittenPacket.writes, v.1 + v.2.length ≤ u.1 ∨ u.1 + u.2.length ≤ v.1 := by
    intro v hv u hu
    obtain ⟨q, hq, huq⟩ := List.mem_flatMap.mp hu
    obtain ⟨i, hi, rfl⟩ := List.mem_iff_getElem.mp hq
    rw [List.length_drop] at hi
    have hNext : (call.run c w mem).1[s + 1 + i]? = some
        ((call.run c w mem).1.drop (s + 1))[i] := by
      rw [List.getElem_drop]
      exact List.getElem?_eq_getElem (by omega)
    exact hOwn.disjoint (ownStride_run hFits w mem hNext) hApart (by omega) (by omega) v hv u huq
  rw [hMemory, packetsInMemory, hSplit, List.flatMap_append, List.flatMap_cons]
  constructor
  · refine read_writeAll_of_later (w := (p.headerAt, p.header.bytes)) ?_ mem
    refine List.forall_mem_cons.mpr ⟨hOwn.header_apart hApart (by omega), ?_⟩
    exact hLater _ List.mem_cons_self
  · have hPayload := @read_writeAll_of_later
      (((call.run c w mem).1.take s).flatMap WrittenPacket.writes ++ [(p.headerAt, p.header.bytes)])
      _ (p.payloadAt, p.payload) (hLater _ (List.mem_cons_of_mem _ List.mem_cons_self)) mem
    rwa [List.append_assoc] at hPayload

end Places

/-! ## A frame -/

section Frame

variable {c}

theorem runWrites_concat (done : List WriteCall) (call : WriteCall) :
    ∀ (w : VideoWriter) (mem : Memory), (runWrites c (done ++ [call]) w mem).2.2 =
      (call.run c (runWrites c done w mem).2.1 (runWrites c done w mem).2.2).2.2 := by
  induction done with
  | nil => exact fun _ _ => rfl
  | cons first done ih => exact fun w mem => ih _ _

theorem frameProgress_setNextFrame (frame : List UInt8) (w : VideoWriter) :
    FrameProgress (c := c) frame 0 (setNextFrame frame w) where
  filled := ⟨by simp [setNextFrame], Or.inl rfl⟩
  counter := (Nat.zero_mod _).symm

/-- What holds of a frame that `calls` write. -/
structure FrameConserved (c : WriterSettings) (frame : List UInt8) (calls : List WriteCall)
    (w : VideoWriter) (mem : Memory) : Prop where
  packetCount : (runWrites c calls w mem).1.length = (calls.map WriteCall.lengthInStrides).sum
  /-- Any number of packets carries that part of the frame. -/
  payload : ∀ k ≤ (calls.map WriteCall.lengthInStrides).sum,
    (((runWrites c calls w mem).1.take k).map WrittenPacket.payload).flatten =
      frame.take (min (k * c.media.rawPacketPayloadSize) frame.length)
  /-- Every call keeps every packet in the stride of the packet. -/
  ownStrides : ∀ done call left, calls = done ++ call :: left →
    ∀ s p, (call.run c (runWrites c done w mem).2.1 (runWrites c done w mem).2.2).1[s]? = some p →
      call.OwnStride c s p
  /-- Memory is what the packets leave in it, one after the other. -/
  memory : (runWrites c calls w mem).2.2 = packetsInMemory (runWrites c calls w mem).1 mem
  /-- Behind every call it holds the header and the payload of each packet of the
  call, unless the call itself lets headers and payloads overlap. -/
  inMemory : ∀ done call left, calls = done ++ call :: left → call.Apart c →
    ∀ (s : Nat) (p : WrittenPacket), (call.run c (runWrites c done w mem).2.1
        (runWrites c done w mem).2.2).1[s]? = some p →
      let mem' := (runWrites c (done ++ [call]) w mem).2.2
      read mem' p.headerAt p.header.bytes.length = p.header.bytes ∧
        read mem' p.payloadAt p.payload.length = p.payload
  /-- Nothing is written outside the packets. -/
  untouched : ∀ i, (∀ p ∈ (runWrites c calls w mem).1, p.Avoids i) →
    (runWrites c calls w mem).2.2 i = mem i
  /-- Either overload does the same, wherever it writes. -/
  overloads : ∀ (calls' : List WriteCall) (mem' : Memory),
    calls.map WriteCall.lengthInStrides = calls'.map WriteCall.lengthInStrides →
      (runWrites c calls w mem).1.map WrittenPacket.contents =
          (runWrites c calls' w mem').1.map WrittenPacket.contents ∧
        (runWrites c calls w mem).2.1 = (runWrites c calls' w mem').2.1
  /-- No header divides by zero. -/
  divisors : DivisorsPositive c.media

/-- **A frame is conserved.** Over any cut of a field into calls of either
overload, the packets carry the frame from its first byte on, each in a stride
of its own, and memory holds what they carry. -/
theorem payload_conserved (c : WriterSettings) (frame : List UInt8) (calls : List WriteCall)
    (w : VideoWriter) (mem : Memory) (hDivisors : DivisorsPositive c.media)
    (hUtils : c.payloadMemUtils = true) (hFits : ∀ call ∈ calls, call.Fits c)
    (hField : (calls.map WriteCall.lengthInStrides).sum ≤ c.media.packetsInFrameField) :
    FrameConserved c frame calls (setNextFrame frame w) mem := by
  have hPackets := packets_of_runWrites hUtils calls mem
    (frameProgress_setNextFrame (c := c) frame w) (by omega)
  simp only [Nat.zero_add] at hPackets
  refine ⟨?_, ?_, ?_, memory_runWrites calls _ mem, ?_, ?_, ?_, hDivisors⟩
  · have hLength := congrArg List.length hPackets
    simpa using hLength
  · intro k hk
    rw [List.map_take, hPackets, ← List.map_take, List.take_range, Nat.min_eq_left hk,
      flatten_slices, ← List.take_eq_take_min]
  · intro done call left hCalls s p hAt
    exact ownStride_run (hFits call (by simp [hCalls])) _ _ hAt
  · intro done call left hCalls hApart s p hAt
    rw [runWrites_concat]
    exact inMemory_run (hFits call (by simp [hCalls])) hApart _ _ hAt
  · intro i hAvoids
    rw [memory_runWrites]
    exact packetsInMemory_of_avoids _ mem hAvoids
  · intro calls' mem' hLengths
    exact contents_runWrites calls calls' _ mem mem' hLengths

/-- A frame of two packets and a short one, the last two by the other overload. -/
theorem payload_conserved_fullHd :
    ∃ app', initializeCommonMediaSettings (fullHd ⟨25, 1⟩ .Progressive) = some app' ∧
      FrameConserved ⟨app'.media, 20, 1500, true⟩ (List.replicate 2500 7)
        [.together 0 1, .separate 4096 8192 2]
        (setNextFrame (List.replicate 2500 7) {}) (fun _ => 0) := by
  refine ⟨_, rfl, payload_conserved
    ⟨(commonMediaSettings (fullHd ⟨25, 1⟩ .Progressive) 5 2).media, 20, 1500, true⟩
    (List.replicate 2500 7) [.together 0 1, .separate 4096 8192 2] {} (fun _ => 0)
    ⟨by decide, by decide, by decide⟩ rfl ?_ (by decide +kernel)⟩
  intro call hCall
  obtain rfl | rfl : call = .together 0 1 ∨ call = .separate 4096 8192 2 := by simpa using hCall
  · exact ⟨by decide +kernel, by decide +kernel⟩
  · exact ⟨by decide +kernel, by decide +kernel⟩

end Frame

end RtpVideoBufferWriter

end RivermaxDevKit
