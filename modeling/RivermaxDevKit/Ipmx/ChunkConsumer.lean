import RivermaxDevKit.Ipmx.FrameClasses
import RivermaxDevKit.Ipo.Definitions

/-!
# RTCP chunk consumer

`RTCPChunkConsumer::consume_chunk` (`rmax_ipmx_receiver.cpp`): the packets of a
received chunk go to the trackers of their flows.

* `dispatchesOwn_iff` — every packet is dispatched with its own payload only in
  chunks of one packet, as the payload pointer does not move.

`stride_index` is a `uint32_t`, so the loop is given a bound on its turns and
may not come to an end.
-/

namespace RivermaxDevKit

open ByteStore

/-! ## The consumer -/

/-- What a packet of the chunk says of itself, with the tag of its flow. -/
structure FlowPacketInfo extends ReceivePacketInfo where
  flowTag : Nat
  deriving DecidableEq

/-- A received chunk: the address of its payload and its packets. -/
structure RtcpChunk where
  payloadPtr : Nat
  packetInfos : List FlowPacketInfo

/-- One call of `consume_rtcp_packet`. -/
structure TrackerInvocation where
  flowTag : Nat
  packetPtr : Nat
  info : FlowPacketInfo
  deriving DecidableEq

/-- The trackers, and the calls made of them so far. -/
structure ChunkConsumer where
  trackers : List IpmxStreamTimelineTracker
  invocations : List TrackerInvocation := []

def TrackerInvocation.call (memory : Memory) (v : TrackerInvocation) : TrackerCall :=
  .consumeRtcpPacket (fun i => memory (v.packetPtr + i)) (v.info.getPacketSubBlockSize 0)
    v.info.timestamp

def ChunkConsumer.invoke (memory : Memory) (c : ChunkConsumer) (v : TrackerInvocation) :
    ChunkConsumer where
  trackers := c.trackers.modify v.flowTag fun t => (v.call memory).apply t
  invocations := c.invocations ++ [v]

/-- The loop of `consume_chunk`, of at most `fuel` turns. -/
def consumeLoop (memory : Memory) (chunk : RtcpChunk) (packetPtr : Nat) :
    (fuel strideIndex : Nat) → ChunkConsumer → Option ChunkConsumer
  | 0, _, _ => none
  | fuel + 1, strideIndex, c =>
    match chunk.packetInfos[strideIndex]? with
    -- the index is at the end
    | none => some c
    | some info =>
      -- the index moves on, the pointer does not
      consumeLoop memory chunk packetPtr fuel ((strideIndex + 1) % 2 ^ 32)
        (c.invoke memory ⟨info.flowTag, packetPtr, info⟩)

/-- `consume_chunk`. The stride size of the stream is read, and not used. -/
def consumeChunk (memory : Memory) (chunk : RtcpChunk) (_payloadStrideSize fuel : Nat)
    (c : ChunkConsumer) : Option (ReturnStatus × Nat × ChunkConsumer) :=
  (consumeLoop memory chunk chunk.payloadPtr fuel 0 c).map fun c' =>
    (.success, chunk.packetInfos.length, c')

/-! ## What a chunk should lead to -/

/-- The calls of the packets tagged `flowTag`, each with its own stride. -/
def ownInvocations (chunk : RtcpChunk) (payloadStrideSize flowTag : Nat) :
    List TrackerInvocation :=
  (chunk.packetInfos.zipIdx.filter fun p => p.1.flowTag = flowTag).map fun p =>
    ⟨flowTag, chunk.payloadPtr + p.2 * payloadStrideSize, p.1⟩

/-- The chunk is consumed, and each tracker called for its own packets. -/
def DispatchesOwn (memory : Memory) (chunk : RtcpChunk) (payloadStrideSize : Nat)
    (trackers : List IpmxStreamTimelineTracker) : Prop :=
  ∃ fuel c, consumeChunk memory chunk payloadStrideSize fuel ⟨trackers, []⟩ =
      some (.success, chunk.packetInfos.length, c) ∧
    ∀ t < trackers.length,
      c.invocations.filter (fun v => v.flowTag = t) = ownInvocations chunk payloadStrideSize t

/-! ## The loop -/

section Loop

variable {memory : Memory} {chunk : RtcpChunk} {packetPtr : Nat}

/-- The calls of a run of packets, all with the same pointer. -/
def invocationsAt (packetPtr : Nat) (infos : List FlowPacketInfo) : List TrackerInvocation :=
  infos.map fun info => ⟨info.flowTag, packetPtr, info⟩

/-- In a chunk whose packets a `uint32_t` counts the loop takes every packet,
given a turn for each and one more. -/
theorem consumeLoop_eq (hLength : chunk.packetInfos.length < 2 ^ 32) :
    ∀ (fuel strideIndex : Nat) (c : ChunkConsumer), strideIndex ≤ chunk.packetInfos.length →
      consumeLoop memory chunk packetPtr fuel strideIndex c =
        if chunk.packetInfos.length < strideIndex + fuel then
          some ((invocationsAt packetPtr (chunk.packetInfos.drop strideIndex)).foldl
            (ChunkConsumer.invoke memory) c)
        else none := by
  -- on the turns left: the index may start over, so it says nothing
  intro fuel
  induction fuel with
  | zero =>
    intro strideIndex c hIndex
    -- a last turn is needed to see the end
    rw [if_neg (by omega)]
    rfl
  | succ fuel ih =>
    intro strideIndex c hIndex
    rcases Nat.lt_or_ge strideIndex chunk.packetInfos.length with hMore | hEnd
    · rw [consumeLoop, List.getElem?_eq_getElem hMore, List.drop_eq_getElem_cons hMore,
        Nat.mod_eq_of_lt (by omega)]
      dsimp only
      rw [ih (strideIndex + 1) _ hMore, Nat.add_right_comm, Nat.add_assoc strideIndex]
      rfl
    · rw [consumeLoop, List.getElem?_eq_none hEnd, List.drop_of_length_le hEnd,
        if_pos (by omega)]
      rfl

/-- In a longer chunk the index starts over and the loop does not end. -/
theorem consumeLoop_eq_none (hLength : 2 ^ 32 ≤ chunk.packetInfos.length) :
    ∀ (fuel strideIndex : Nat) (c : ChunkConsumer), strideIndex < 2 ^ 32 →
      consumeLoop memory chunk packetPtr fuel strideIndex c = none := by
  intro fuel
  induction fuel with
  | zero => intro _ _ _; rfl
  | succ fuel ih =>
    intro strideIndex c hIndex
    -- there is a packet for every value of the index
    rw [consumeLoop, List.getElem?_eq_getElem (hIndex.trans_le hLength)]
    exact ih _ _ (Nat.mod_lt _ (by decide))

theorem invocations_foldl_invoke (vs : List TrackerInvocation) (c : ChunkConsumer) :
    (vs.foldl (ChunkConsumer.invoke memory) c).invocations = c.invocations ++ vs := by
  induction vs generalizing c with
  | nil => simp
  | cons v vs ih => simp [ih, ChunkConsumer.invoke]

end Loop

/-! ## Dispatch -/

/-- The calls that are made, against those that should be. -/
theorem dispatchesOwn_iff_invocations (memory : Memory) (chunk : RtcpChunk)
    (payloadStrideSize : Nat) (trackers : List IpmxStreamTimelineTracker) :
    DispatchesOwn memory chunk payloadStrideSize trackers ↔
      chunk.packetInfos.length < 2 ^ 32 ∧
        ∀ t < trackers.length,
          (invocationsAt chunk.payloadPtr chunk.packetInfos).filter (fun v => v.flowTag = t) =
            ownInvocations chunk payloadStrideSize t := by
  unfold DispatchesOwn consumeChunk
  constructor
  · rintro ⟨fuel, c, hRun, hOwn⟩
    rcases Nat.lt_or_ge chunk.packetInfos.length (2 ^ 32) with hLength | hLong
    · rw [consumeLoop_eq hLength fuel 0 _ (Nat.zero_le _)] at hRun
      split at hRun
      · obtain rfl := congrArg (fun r => r.2.2) (Option.some.inj hRun)
        -- a run that ends made the calls of all packets
        refine ⟨hLength, fun t hT => ?_⟩
        have hCalls := hOwn t hT
        rwa [invocations_foldl_invoke, List.nil_append] at hCalls
      · simp at hRun
    · rw [consumeLoop_eq_none hLong fuel 0 _ (by decide)] at hRun
      simp at hRun
  · rintro ⟨hLength, hOwn⟩
    -- a turn for each packet and one more
    refine ⟨chunk.packetInfos.length + 1,
      (invocationsAt chunk.payloadPtr chunk.packetInfos).foldl (ChunkConsumer.invoke memory)
        ⟨trackers, []⟩, ?_, ?_⟩
    · rw [consumeLoop_eq hLength _ 0 _ (Nat.zero_le _), if_pos (by omega)]
      rfl
    · intro t hT
      rw [invocations_foldl_invoke, List.nil_append]
      exact hOwn t hT

/-- With one packet, or strides of no size, the pointer need not move. -/
theorem invocations_eq_own {chunk : RtcpChunk} {payloadStrideSize : Nat}
    (h : chunk.packetInfos.length ≤ 1 ∨ payloadStrideSize = 0) (t : Nat) :
    (invocationsAt chunk.payloadPtr chunk.packetInfos).filter (fun v => v.flowTag = t) =
      ownInvocations chunk payloadStrideSize t := by
  have hInfos : chunk.packetInfos = chunk.packetInfos.zipIdx.map Prod.fst := by
    rw [List.zipIdx_map_fst]
  unfold invocationsAt ownInvocations
  rw [hInfos, List.map_map, List.filter_map, ← hInfos]
  refine List.map_congr_left fun p hMem => ?_
  obtain ⟨hMem, hTag⟩ := List.mem_filter.mp hMem
  -- the offset of the packet is zero
  have hOffset : p.2 * payloadStrideSize = 0 := by
    have hIndex := (List.mem_zipIdx hMem).2.1
    rcases h with hOne | hZero
    · rw [show p.2 = 0 by omega, Nat.zero_mul]
    · rw [hZero, Nat.mul_zero]
  have hFlow : p.1.flowTag = t := by simpa using hTag
  rw [hOffset, ← hFlow]
  rfl

/-- **Dispatch of a chunk.** With the flow tags of its packets below the number
of trackers, a chunk is dispatched as it should be exactly if a `uint32_t` counts
its packets, and it has at most one or its strides have no size. -/
theorem dispatchesOwn_iff (memory : Memory) (chunk : RtcpChunk) (payloadStrideSize : Nat)
    (trackers : List IpmxStreamTimelineTracker)
    (hTags : ∀ info ∈ chunk.packetInfos, info.flowTag < trackers.length) :
    DispatchesOwn memory chunk payloadStrideSize trackers ↔
      chunk.packetInfos.length < 2 ^ 32 ∧
        (chunk.packetInfos.length ≤ 1 ∨ payloadStrideSize = 0) := by
  rw [dispatchesOwn_iff_invocations]
  refine and_congr_right fun _ => ⟨fun hOwn => ?_, fun h t _ => invocations_eq_own h t⟩
  by_contra hMoves
  push Not at hMoves
  obtain ⟨hTwo, hStride⟩ := hMoves
  -- the call of the second packet, as it should be
  let second := chunk.packetInfos[1]
  let own : TrackerInvocation :=
    ⟨second.flowTag, chunk.payloadPtr + 1 * payloadStrideSize, second⟩
  have hMem : own ∈ ownInvocations chunk payloadStrideSize second.flowTag := by
    refine List.mem_map.mpr ⟨(second, 1), List.mem_filter.mpr ⟨?_, by simp⟩, rfl⟩
    rw [List.mem_zipIdx_iff_getElem?]
    exact List.getElem?_eq_getElem hTwo
  -- it is not among those that are made, all with one pointer
  rw [← hOwn second.flowTag (hTags second (List.getElem_mem hTwo))] at hMem
  obtain ⟨info, -, hMade⟩ := List.mem_map.mp (List.mem_filter.mp hMem).1
  have hPtr : chunk.payloadPtr = chunk.payloadPtr + 1 * payloadStrideSize :=
    congrArg TrackerInvocation.packetPtr hMade
  omega

/-- A report of two flows, one packet each. -/
def twoFlows : RtcpChunk :=
  ⟨4096, [⟨⟨[232], 10⟩, 0⟩, ⟨⟨[232], 11⟩, 1⟩]⟩

/-- A chunk with a report of the second flow only. -/
theorem dispatchesOwn_one_packet :
    DispatchesOwn (fun _ => 0) ⟨4096, [⟨⟨[232], 10⟩, 1⟩]⟩ 512 [{}, {}] :=
  (dispatchesOwn_iff _ _ 512 [{}, {}] (by simp)).mpr ⟨by decide, .inl (by decide)⟩

/-- The second flow is handed the payload of the first. -/
theorem second_flow_gets_first_payload : ¬DispatchesOwn (fun _ => 0) twoFlows 512 [{}, {}] := by
  rw [dispatchesOwn_iff_invocations]
  rintro ⟨-, hOwn⟩
  exact absurd (hOwn 1 (by decide)) (by decide +kernel)

end RivermaxDevKit
