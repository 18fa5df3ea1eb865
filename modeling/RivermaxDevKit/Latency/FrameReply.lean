import Mathlib.Data.List.Basic
import Mathlib.Data.List.DropRight
import Mathlib.Data.UInt
import Mathlib.Tactic.Common
import RivermaxDevKit.Services.Definitions

/-!
# Frame latency reply

`FrameIONode::receive_send` (`generic_latency_io_node.cpp`): the server takes
chunks until one holds the last packet of a frame, and answers whether the frame
is valid.

* `valid_parseHeaders` — the parser looks at the numbers of one chunk, from the
  number that is due.
* `endsFrame_iff_leadsUp` — when the packets that came last are a frame.
* `reply_faithful_iff` — the reply is right about that exactly if the chunks before
  the last one hold no gap that the last one makes good, and nothing odd stands
  before a frame that lies in the last chunk.
-/

namespace RivermaxDevKit

/-! ## Packets and chunks -/

/-- `packet_header`, as `prepare_chunks` writes it. -/
structure PacketHeader where
  iterNum : UInt32
  pktNum : UInt32
  deriving DecidableEq, Repr

/-- A chunk of the receive stream: the headers, a stride apart, and the times of
its completion. `receiveTs` is when the server saw it. -/
structure FrameChunk where
  headers : List PacketHeader
  timestampFirst : Nat := 0
  timestampLast : Nat := 0
  receiveTs : Nat := 0
  deriving Repr

/-- `receive_timing`, the reply. -/
structure ReceiveTiming where
  firstRxTs : Nat
  lastRxTs : Nat
  softRxTs : Nat
  iterNum : UInt32
  valid : Bool
  deriving DecidableEq, Repr

/-- The members and locals of `receive_send` that a chunk changes. -/
structure FrameRx where
  rxNextPktNum : UInt32 := 0
  rxIteration : UInt32 := 0
  rxDropCnt : Nat := 0
  frameStart : Bool := true
  frameReceived : Bool := false
  valid : Bool := true
  firstPacketTs : Nat := 0
  lastPacketTs : Nat := 0
  receiveTs : Nat := 0
  deriving DecidableEq, Repr

namespace FrameIONode

/-! ## Parsing a chunk -/

variable (packetsInFrame : Nat)

/-- `pkt_num == packets_in_frame - 1`. A `size_t` of zero has no last packet: the
difference is no `uint32_t`. -/
def IsLast (header : PacketHeader) : Prop := header.pktNum.toNat + 1 = packetsInFrame

instance (header : PacketHeader) : Decidable (IsLast packetsInFrame header) :=
  inferInstanceAs (Decidable (_ = _))

/-- What a number that is not due adds to the drop count. -/
def droppedPackets (header : PacketHeader) (st : FrameRx) : Nat :=
  if header.pktNum > st.rxNextPktNum then (header.pktNum - st.rxNextPktNum).toNat
  else (packetsInFrame + header.pktNum.toNat + (2 ^ 64 - st.rxNextPktNum.toNat)) % 2 ^ 64

/-- One turn of the loop of `parse_packet_headers`; `isEnd` says that the header
is the last of its chunk. -/
def parseHeader (header : PacketHeader) (isEnd : Bool) (st : FrameRx) : FrameRx :=
  let st :=
    if header.pktNum ≠ st.rxNextPktNum then
      { st with
        valid := false
        rxDropCnt := (st.rxDropCnt + droppedPackets packetsInFrame header st) % 2 ^ 64 }
    else st
  let st := { st with rxNextPktNum := header.pktNum + 1 }
  if IsLast packetsInFrame header then
    { st with
      frameReceived := true
      rxIteration := header.iterNum
      rxNextPktNum := 0
      valid := st.valid && isEnd }
  else st

def parseHeaders : List PacketHeader → FrameRx → FrameRx
  | [], st => st
  | header :: headers, st =>
    parseHeaders headers (parseHeader packetsInFrame header headers.isEmpty st)

/-- `parse_packet_headers`. Every chunk starts out valid. -/
def parsePacketHeaders (headers : List PacketHeader) (st : FrameRx) : FrameRx :=
  parseHeaders packetsInFrame headers { st with valid := true }

/-! ## Receiving a frame -/

/-- The body of the inner loop, for a chunk that is not empty. -/
def receiveChunk (chunk : FrameChunk) (st : FrameRx) : FrameRx :=
  let st := parsePacketHeaders packetsInFrame chunk.headers { st with receiveTs := chunk.receiveTs }
  let st :=
    if st.frameStart then { st with firstPacketTs := chunk.timestampFirst, frameStart := false }
    else st
  if st.frameReceived then { st with lastPacketTs := chunk.timestampLast } else st

/-- The inner loop. A poll that fails ends the node, and so there is no reply;
nor is there one while the last packet is still to come. -/
def receiveFrame : List (ReturnStatus × FrameChunk) → FrameRx → Option FrameRx
  | [], _ => none
  | (rc, chunk) :: polls, st =>
    if rc ≠ .success then none
    else if chunk.headers = [] then receiveFrame polls { st with receiveTs := chunk.receiveTs }
    else
      let st := receiveChunk packetsInFrame chunk st
      if st.frameReceived then some st else receiveFrame polls st

/-- `compose_reply`. The same reply is committed until the queue takes it. -/
def composeReply (st : FrameRx) : ReceiveTiming where
  firstRxTs := st.firstPacketTs
  lastRxTs := st.lastPacketTs
  softRxTs := st.receiveTs
  iterNum := st.rxIteration
  valid := st.valid

/-- What one turn of `receive_send` takes over from the turn before. -/
def startFrame (st : FrameRx) : FrameRx := { receiveTs := st.receiveTs }

/-- One turn of `receive_send`, once there is a chunk for the reply. -/
def receiveSend (polls : List (ReturnStatus × FrameChunk)) (st : FrameRx) :
    Option ReceiveTiming :=
  (receiveFrame packetsInFrame polls (startFrame st)).map composeReply

/-! ## What a chunk proves -/

/-- Numbers that follow one another from `first` on, modulo `2 ^ 32`. -/
def Consecutive : UInt32 → List PacketHeader → Prop
  | _, [] => True
  | first, header :: headers => header.pktNum = first ∧ Consecutive (first + 1) headers

/-- The headers are in step with the number that is due, and the last packet of
the frame ends them. -/
structure EndsFrame (due : UInt32) (headers : List PacketHeader) : Prop where
  consecutive : Consecutive due headers
  nothingBehind : ∀ header ∈ headers.dropLast, ¬ IsLast packetsInFrame header

section Parser

variable {packetsInFrame : Nat}

theorem parseHeader_of_last {header : PacketHeader} (hLast : IsLast packetsInFrame header)
    (isEnd : Bool) (st : FrameRx) :
    let st' := parseHeader packetsInFrame header isEnd st
    st'.frameReceived = true ∧ st'.rxIteration = header.iterNum ∧ st'.rxNextPktNum = 0 ∧
      (st'.valid = true ↔ st.valid = true ∧ header.pktNum = st.rxNextPktNum ∧ isEnd = true) := by
  unfold parseHeader
  simp only [hLast, if_true, true_and]
  -- a number that is not due makes the chunk invalid
  by_cases hDue : header.pktNum = st.rxNextPktNum
  · simp [hDue]
  · simp [hDue]

theorem parseHeader_of_not_last {header : PacketHeader} (hLast : ¬ IsLast packetsInFrame header)
    (isEnd : Bool) (st : FrameRx) :
    let st' := parseHeader packetsInFrame header isEnd st
    st'.frameReceived = st.frameReceived ∧ st'.rxIteration = st.rxIteration ∧
      st'.rxNextPktNum = header.pktNum + 1 ∧
        (st'.valid = true ↔ st.valid = true ∧ header.pktNum = st.rxNextPktNum) := by
  unfold parseHeader
  simp only [hLast, if_false]
  by_cases hDue : header.pktNum = st.rxNextPktNum
  · simp [hDue]
  · simp [hDue]

/-- A chunk that was found invalid stays so. -/
theorem not_valid_parseHeaders (headers : List PacketHeader) {st : FrameRx}
    (h : st.valid = false) : (parseHeaders packetsInFrame headers st).valid = false := by
  induction headers generalizing st with
  | nil => exact h
  | cons header headers ih =>
    refine ih (Bool.eq_false_iff.mpr fun hValid => ?_)
    -- no header sets the flag again
    by_cases hLast : IsLast packetsInFrame header
    · have hStep := (parseHeader_of_last hLast headers.isEmpty st).2.2.2.mp hValid
      exact absurd hStep.1 (Bool.eq_false_iff.mp h)
    · have hStep := (parseHeader_of_not_last hLast headers.isEmpty st).2.2.2.mp hValid
      exact absurd hStep.1 (Bool.eq_false_iff.mp h)

/-- Without the last packet nothing ends, and the number behind the chunk is due. -/
theorem parseHeaders_of_no_last (headers : List PacketHeader)
    (hNone : ∀ header ∈ headers, ¬ IsLast packetsInFrame header) (st : FrameRx) :
    let st' := parseHeaders packetsInFrame headers st
    st'.frameReceived = st.frameReceived ∧
      st'.rxNextPktNum = (headers.getLast?.map fun header => header.pktNum + 1).getD
        st.rxNextPktNum := by
  induction headers generalizing st with
  | nil => exact ⟨rfl, rfl⟩
  | cons header headers ih =>
    obtain ⟨hHere, hRest⟩ := List.forall_mem_cons.mp hNone
    -- one header, and the rest from the number behind it
    obtain ⟨hReceived, -, hNext, -⟩ := parseHeader_of_not_last hHere headers.isEmpty st
    obtain ⟨hReceived', hNext'⟩ := ih hRest (parseHeader packetsInFrame header headers.isEmpty st)
    refine ⟨hReceived'.trans hReceived, ?_⟩
    rw [hNext] at hNext'
    refine hNext'.trans ?_
    cases headers with
    | nil => rfl
    | cons next headers => rfl

/-- A frame that was received stays so. -/
theorem frameReceived_parseHeaders (headers : List PacketHeader) {st : FrameRx}
    (h : st.frameReceived = true) :
    (parseHeaders packetsInFrame headers st).frameReceived = true := by
  induction headers generalizing st with
  | nil => exact h
  | cons header headers ih =>
    refine ih ?_
    by_cases hLast : IsLast packetsInFrame header
    · exact (parseHeader_of_last hLast headers.isEmpty st).1
    · exact (parseHeader_of_not_last hLast headers.isEmpty st).1.trans h

/-- With the last packet the frame is received, and valid if the chunk ends it. -/
theorem valid_parseHeaders (headers : List PacketHeader)
    (hSome : ∃ header ∈ headers, IsLast packetsInFrame header) (st : FrameRx) :
    let st' := parseHeaders packetsInFrame headers st
    st'.frameReceived = true ∧
      (st'.valid = true ↔ st.valid = true ∧ EndsFrame packetsInFrame st.rxNextPktNum headers) ∧
        (st'.valid = true → ∃ front header, headers = front ++ [header] ∧
          IsLast packetsInFrame header ∧ st'.rxIteration = header.iterNum) := by
  induction headers generalizing st with
  | nil =>
    obtain ⟨header, hMem, -⟩ := hSome
    cases hMem
  -- the last packet is here, or further on in the chunk
  | cons header headers ih =>
    by_cases hLast : IsLast packetsInFrame header
    · obtain ⟨hReceived, hIteration, -, hValid⟩ :=
        parseHeader_of_last hLast headers.isEmpty st
      cases headers with
      | nil =>
        refine ⟨hReceived, ?_, fun _ => ⟨[], header, rfl, hLast, hIteration⟩⟩
        refine hValid.trans (and_congr_right fun _ => ?_)
        exact ⟨fun h => ⟨⟨h.1, trivial⟩, nofun⟩, fun h => ⟨h.consecutive.1, rfl⟩⟩
      | cons next headers =>
        -- the chunk goes on behind the last packet
        have hBroken : (parseHeader packetsInFrame header false st).valid = false :=
          Bool.eq_false_iff.mpr fun h => Bool.false_ne_true (hValid.mp h).2.2
        have hInvalid := @not_valid_parseHeaders packetsInFrame (next :: headers) _ hBroken
        refine ⟨frameReceived_parseHeaders (next :: headers) hReceived, ?_, fun h => ?_⟩
        · refine iff_of_false (fun h => ?_) fun h => ?_
          · exact absurd h (Bool.eq_false_iff.mp hInvalid)
          · exact h.2.nothingBehind header List.mem_cons_self hLast
        · exact absurd h (Bool.eq_false_iff.mp hInvalid)
    · obtain ⟨-, -, hNext, hValid⟩ := parseHeader_of_not_last hLast headers.isEmpty st
      have hLater : ∃ header ∈ headers, IsLast packetsInFrame header := by
        obtain ⟨other, hMem, hOther⟩ := hSome
        rcases List.mem_cons.mp hMem with rfl | hMem
        · exact absurd hOther hLast
        · exact ⟨other, hMem, hOther⟩
      obtain ⟨hReceived', hValid', hEnd'⟩ :=
        ih hLater (parseHeader packetsInFrame header headers.isEmpty st)
      -- the last packet is still to come
      have hMore : headers ≠ [] := by
        rintro rfl
        obtain ⟨other, hMem, -⟩ := hLater
        cases hMem
      refine ⟨hReceived', ?_, fun h => ?_⟩
      · rw [hNext, hValid, and_assoc] at hValid'
        refine hValid'.trans (and_congr_right fun _ => ?_)
        constructor
        · rintro ⟨hDue, hRest⟩
          refine ⟨⟨hDue, hDue ▸ hRest.consecutive⟩, ?_⟩
          rw [List.dropLast_cons_of_ne_nil hMore, List.forall_mem_cons]
          exact ⟨hLast, hRest.nothingBehind⟩
        · rintro ⟨⟨hDue, hConsecutive⟩, hBehind⟩
          rw [List.dropLast_cons_of_ne_nil hMore, List.forall_mem_cons] at hBehind
          exact ⟨hDue, hDue ▸ hConsecutive, hBehind.2⟩
      · obtain ⟨front, last, rfl, hLastEnd, hIteration⟩ := hEnd' h
        exact ⟨header :: front, last, rfl, hLastEnd, hIteration⟩

end Parser

/-! ## Consecutive numbers -/

theorem consecutive_append (first : UInt32) (a b : List PacketHeader) :
    Consecutive first (a ++ b) ↔
      Consecutive first a ∧ Consecutive (first + UInt32.ofNat a.length) b := by
  induction a generalizing first with
  | nil => simp [Consecutive]
  | cons header a ih =>
    have hShift : first + 1 + UInt32.ofNat a.length = first + UInt32.ofNat (a.length + 1) := by
      rw [UInt32.ofNat_add, UInt32.add_assoc, UInt32.add_comm 1]
      rfl
    simp only [List.cons_append, Consecutive, ih, hShift, List.length_cons, and_assoc]

theorem consecutive_iff (first : UInt32) (headers : List PacketHeader) :
    Consecutive first headers ↔
      headers.map PacketHeader.pktNum =
        (List.range headers.length).map fun i => first + UInt32.ofNat i := by
  -- from the end: the last number is the length of what is before it
  induction headers using List.reverseRecOn with
  | nil => simp [Consecutive]
  | append_singleton headers header ih =>
    rw [consecutive_append, ih, List.map_append, List.length_append, List.length_singleton,
      List.range_succ, List.map_append]
    constructor
    · rintro ⟨hFront, hLast, -⟩
      rw [hFront, List.map_singleton, List.map_singleton, hLast]
    · intro h
      obtain ⟨hFront, hLast⟩ := List.append_inj' h rfl
      exact ⟨hFront, by simpa using hLast, trivial⟩

/-! ## Whole frames -/

/-- `prepare_chunks`: the packets of a client iteration. -/
def preparedFrame (packetsInFrame : Nat) (iteration : UInt32) : List PacketHeader :=
  (List.range packetsInFrame).map fun pktId => ⟨iteration, UInt32.ofNat pktId⟩

/-- The number that is due behind these packets. -/
def due (earlier : List PacketHeader) : UInt32 :=
  (earlier.getLast?.map fun header => header.pktNum + 1).getD 0

theorem due_of_consecutive {earlier : List PacketHeader} (h : Consecutive 0 earlier) :
    due earlier = UInt32.ofNat earlier.length := by
  -- nothing is due but the first packet, or what follows the last one seen
  rcases List.eq_nil_or_concat' earlier with rfl | ⟨front, header, rfl⟩
  · rfl
  · obtain ⟨-, hLast, -⟩ := (consecutive_append 0 front [header]).mp h
    rw [due, List.getLast?_concat, List.length_append, List.length_singleton, UInt32.ofNat_add]
    show header.pktNum + 1 = UInt32.ofNat front.length + 1
    rw [hLast, UInt32.zero_add]

/-- The packets before the last chunk are those before it of one iteration, and
the last chunk is of that iteration too. -/
structure FrontInOrder (iteration : UInt32) (earlier final : List PacketHeader) : Prop where
  consecutive : Consecutive 0 earlier
  iteration_eq : ∀ header ∈ earlier ++ final, header.iterNum = iteration

section Whole

variable {packetsInFrame : Nat} {iteration : UInt32} {earlier final : List PacketHeader}

/-- Consecutive packets of one iteration are those of a frame of their number. -/
theorem eq_preparedFrame {packets : List PacketHeader} (hConsecutive : Consecutive 0 packets)
    (hIteration : ∀ header ∈ packets, header.iterNum = iteration) :
    packets = preparedFrame packets.length iteration := by
  have hNumbers := (consecutive_iff 0 packets).mp hConsecutive
  -- a header is its iteration and its number
  have hOwn : packets = (packets.map PacketHeader.pktNum).map (PacketHeader.mk iteration) := by
    rw [List.map_map]
    refine (List.map_id'' (fun _ => rfl) packets).symm.trans (List.map_congr_left ?_)
    intro header hMem
    show header = PacketHeader.mk iteration header.pktNum
    rw [← hIteration header hMem]
  rw [hNumbers, List.map_map] at hOwn
  refine hOwn.trans (List.map_congr_left fun i _ => ?_)
  show PacketHeader.mk iteration (0 + UInt32.ofNat i) = _
  rw [UInt32.zero_add]

theorem preparedFrame_succ (n : Nat) (iteration : UInt32) :
    preparedFrame (n + 1) iteration =
      preparedFrame n iteration ++ [⟨iteration, UInt32.ofNat n⟩] := by
  rw [preparedFrame, List.range_succ, List.map_append]
  rfl

theorem consecutive_preparedFrame (n : Nat) (iteration : UInt32) :
    Consecutive 0 (preparedFrame n iteration) := by
  rw [consecutive_iff, preparedFrame, List.map_map, List.length_map, List.length_range]
  refine List.map_congr_left fun i _ => ?_
  exact (UInt32.zero_add _).symm

theorem iterNum_preparedFrame {n : Nat} {iteration : UInt32} :
    ∀ header ∈ preparedFrame n iteration, header.iterNum = iteration := by
  intro header hMem
  obtain ⟨i, -, rfl⟩ := List.mem_map.mp hMem
  rfl

/-- Packet `n` of a frame is the last of `n + 1`, and no other is. -/
theorem isLast_iff_of_mem {n i : Nat} (hi : i ≤ n) (hn : n < 2 ^ 32) :
    IsLast (n + 1) ⟨iteration, UInt32.ofNat i⟩ ↔ i = n := by
  -- the number does not wrap
  have hNumber : (UInt32.ofNat i).toNat = i := by
    rw [UInt32.toNat_ofNat']
    exact Nat.mod_eq_of_lt (by omega)
  show (UInt32.ofNat i).toNat + 1 = n + 1 ↔ i = n
  rw [hNumber]
  omega

/-- In a frame of `n + 1`, only the packet that ends it has the last number. -/
theorem not_isLast_of_front {n : Nat} (hn : n < 2 ^ 32) {front : List PacketHeader}
    (hFront : front = preparedFrame n iteration) :
    ∀ other ∈ front, ¬ IsLast (n + 1) other := by
  intro other hOther hIsLast
  rw [hFront] at hOther
  obtain ⟨i, hi, rfl⟩ := List.mem_map.mp hOther
  have hLt := List.mem_range.mp hi
  have hEq := (isLast_iff_of_mem hLt.le hn).mp hIsLast
  omega

/-- A run of packets whose last is packet `n`, and no other, has `n` packets before it. -/
theorem length_front {n : Nat} (hn : n < 2 ^ 32) {front : List PacketHeader}
    (hFront : front = preparedFrame front.length iteration)
    (hOthers : ∀ other ∈ front, ¬ IsLast (n + 1) other)
    (hLast : IsLast (n + 1) ⟨iteration, UInt32.ofNat front.length⟩) : front.length = n := by
  generalize front.length = k at hFront hLast
  rcases Nat.lt_trichotomy k n with hLess | hEq | hMore
  · exact (isLast_iff_of_mem hLess.le hn).mp hLast
  · exact hEq
  · -- a longer run had the last packet before its end
    have hOwn : IsLast (n + 1) ⟨iteration, UInt32.ofNat n⟩ :=
      (isLast_iff_of_mem (Nat.le_refl n) hn).mpr rfl
    have hMem : ⟨iteration, UInt32.ofNat n⟩ ∈ preparedFrame k iteration :=
      List.mem_map.mpr ⟨n, List.mem_range.mpr hMore, rfl⟩
    exact absurd hOwn (hOthers _ (hFront ▸ hMem))

/-- The frame is whole exactly if the packets in front are in order and the last chunk
goes on from there to its end. -/
theorem whole_iff (hNone : ∀ header ∈ earlier, ¬ IsLast packetsInFrame header)
    (hSome : ∃ header ∈ final, IsLast packetsInFrame header) :
    earlier ++ final = preparedFrame packetsInFrame iteration ↔
      FrontInOrder iteration earlier final ∧ EndsFrame packetsInFrame (due earlier) final := by
  obtain ⟨last, hLastMem, hLast⟩ := hSome
  -- there is a last packet, so the frame has packets
  obtain ⟨n, rfl⟩ : ∃ n, packetsInFrame = n + 1 := ⟨last.pktNum.toNat, hLast.symm⟩
  have hn : n < 2 ^ 32 := by
    have hEq : last.pktNum.toNat + 1 = n + 1 := hLast
    have hLt := last.pktNum.toNat_lt
    omega
  obtain ⟨front, header, rfl⟩ : ∃ front header, final = front ++ [header] := by
    rcases List.eq_nil_or_concat' final with rfl | h
    · cases hLastMem
    · exact h
  rw [← List.append_assoc]
  constructor
  · intro hWhole
    have hConsecutive := consecutive_preparedFrame (n + 1) iteration
    have hIteration := @iterNum_preparedFrame (n + 1) iteration
    rw [← hWhole, List.append_assoc] at hConsecutive hIteration
    obtain ⟨hEarlier, hFinal⟩ := (consecutive_append _ _ _).mp hConsecutive
    refine ⟨⟨hEarlier, hIteration⟩, ?_, ?_⟩
    · rw [due_of_consecutive hEarlier, ← UInt32.zero_add (UInt32.ofNat _)]
      exact hFinal
    · -- what stands before the last packet has a smaller number
      rw [preparedFrame_succ] at hWhole
      rw [List.dropLast_concat]
      intro other hOther
      exact not_isLast_of_front hn (List.append_inj_left' hWhole rfl) other
        (List.mem_append_right earlier hOther)
  · rintro ⟨⟨hEarlier, hIteration⟩, hFinal, hBehind⟩
    rw [due_of_consecutive hEarlier, ← UInt32.zero_add (UInt32.ofNat _)] at hFinal
    rw [List.dropLast_concat] at hBehind
    -- all packets follow one another from zero on
    have hAll : earlier ++ front ++ [header] =
        preparedFrame ((earlier ++ front).length + 1) iteration := by
      have hOwn := eq_preparedFrame ((consecutive_append _ _ _).mpr ⟨hEarlier, hFinal⟩) hIteration
      rw [← List.append_assoc] at hOwn
      rw [hOwn]
      simp [preparedFrame, Nat.add_assoc]
    rw [preparedFrame_succ] at hAll
    obtain ⟨hFront, hHeader⟩ := List.append_inj' hAll rfl
    obtain rfl : header = ⟨iteration, UInt32.ofNat (earlier ++ front).length⟩ := by
      simpa using hHeader
    have hOthers : ∀ other ∈ earlier ++ front, ¬ IsLast (n + 1) other := fun other hOther =>
      (List.mem_append.mp hOther).elim (hNone other) (hBehind other)
    have hLastIs : IsLast (n + 1) ⟨iteration, UInt32.ofNat (earlier ++ front).length⟩ := by
      rcases List.mem_append.mp hLastMem with hMem | hMem
      · exact absurd hLast (hBehind last hMem)
      · rwa [List.mem_singleton.mp hMem] at hLast
    have hLength := length_front hn hFront hOthers hLastIs
    rw [hLength] at hFront ⊢
    rw [hFront, ← preparedFrame_succ]

end Whole

/-! ## The reply -/

/-- The chunks that come before the one with the last packet, and that one. -/
def frameChunks (packetsInFrame : Nat) :
    List (ReturnStatus × FrameChunk) → Option (List FrameChunk × FrameChunk)
  | [] => none
  | (rc, chunk) :: polls =>
    if rc ≠ .success then none
    else if ∃ header ∈ chunk.headers, IsLast packetsInFrame header then some ([], chunk)
    else (frameChunks packetsInFrame polls).map fun chunks => (chunk :: chunks.1, chunks.2)

/-- The packets that these chunks hold. -/
def packetsOf (chunks : List FrameChunk) : List PacketHeader :=
  chunks.flatMap FrameChunk.headers

/-- The reply is valid exactly if the packets that came last are a whole frame, and
then names its iteration. -/
structure ReplyFaithful (packetsInFrame : Nat) (packets : List PacketHeader)
    (reply : ReceiveTiming) : Prop where
  valid_iff : reply.valid = true ↔ ∃ iteration, preparedFrame packetsInFrame iteration <:+ packets
  iterNum_eq : reply.valid = true → preparedFrame packetsInFrame reply.iterNum <:+ packets

/-! ## Frames at the end -/

/-- The rest of the frame came right before the last chunk, in order, and its packets
are of one iteration. -/
structure RestBefore (packetsInFrame : Nat) (earlier final : List PacketHeader) : Prop where
  rest : final.length < packetsInFrame → ∃ start, start <:+ earlier ∧
    start.length + final.length = packetsInFrame ∧ Consecutive 0 start
  oneIteration : ∃ iteration, ∀ header ∈ (earlier ++ final).rtake packetsInFrame,
    header.iterNum = iteration

/-- What stands in the last chunk before a frame is in step with the packet before
the chunk, holds no last packet, and leads up to packet zero. So it is if nothing
came before the frame; numbers are modulo `2 ^ 32`. -/
structure LeadsUp (packetsInFrame : Nat) (earlier before : List PacketHeader) : Prop where
  consecutive : Consecutive (due earlier) before
  zero : due earlier + UInt32.ofNat before.length = 0
  noLast : ∀ header ∈ before, ¬ IsLast packetsInFrame header

section Ends

variable {packetsInFrame : Nat} {iteration : UInt32} {earlier final : List PacketHeader}

theorem length_preparedFrame (n : Nat) (iteration : UInt32) :
    (preparedFrame n iteration).length = n := by
  simp [preparedFrame]

theorem rtake_of_suffix {l s : List PacketHeader} (h : s <:+ l) : l.rtake s.length = s := by
  obtain ⟨front, rfl⟩ := h
  rw [List.rtake, List.length_append, Nat.add_sub_cancel, List.drop_left]

/-- What is due depends on the last packet only. -/
theorem due_of_suffix {start : List PacketHeader} (h : start <:+ earlier) (hStart : start ≠ []) :
    due earlier = due start := by
  obtain ⟨front, rfl⟩ := h
  rw [due, due, List.getLast?_append_of_ne_nil _ hStart]

/-- The last packet of a chunk that ends a frame is the last of the frame. -/
theorem EndsFrame.exists_last {first : UInt32}
    (hSome : ∃ header ∈ final, IsLast packetsInFrame header)
    (h : EndsFrame packetsInFrame first final) :
    ∃ front header, final = front ++ [header] ∧ IsLast packetsInFrame header := by
  obtain ⟨last, hMem, hLast⟩ := hSome
  rcases List.eq_nil_or_concat' final with rfl | ⟨front, header, rfl⟩
  · cases hMem
  refine ⟨front, header, rfl, ?_⟩
  rcases List.mem_append.mp hMem with hFront | hEnd
  · exact absurd hLast (h.nothingBehind last (by rwa [List.dropLast_concat]))
  · rwa [← List.mem_singleton.mp hEnd]

/-- Numbers in step that end with the last of a frame begin with its first. -/
theorem first_eq_zero {first : UInt32} {n : Nat} {packets : List PacketHeader}
    (hConsecutive : Consecutive first packets) (hLength : packets.length = n)
    {front : List PacketHeader} {header : PacketHeader} (hSplit : packets = front ++ [header])
    (hLast : IsLast n header) : first = 0 := by
  subst hSplit
  obtain ⟨-, hNumber, -⟩ := (consecutive_append _ _ _).mp hConsecutive
  have hFront : header.pktNum = UInt32.ofNat front.length := by
    have hIs : header.pktNum.toNat + 1 = n := hLast
    rw [List.length_append, List.length_singleton] at hLength
    rw [show front.length = header.pktNum.toNat by omega, UInt32.ofNat_toNat]
  rw [hFront] at hNumber
  have hZero : 0 + UInt32.ofNat front.length = first + UInt32.ofNat front.length := by
    rw [UInt32.zero_add]
    exact hNumber
  exact ((UInt32.add_left_inj _).mp hZero).symm

/-- In step, with the rest before it: a frame ended. -/
theorem endsWith_of_restBefore (hSome : ∃ header ∈ final, IsLast packetsInFrame header)
    (hEnds : EndsFrame packetsInFrame (due earlier) final)
    (hRest : RestBefore packetsInFrame earlier final) :
    ∃ iteration, preparedFrame packetsInFrame iteration <:+ earlier ++ final := by
  obtain ⟨iteration, hIteration⟩ := hRest.oneIteration
  refine ⟨iteration, ?_⟩
  -- the last packets, as many as a frame has, in order
  have hFrame {frame : List PacketHeader} (hSuffix : frame <:+ earlier ++ final)
      (hLength : frame.length = packetsInFrame) (hOrder : Consecutive 0 frame) :
      preparedFrame packetsInFrame iteration <:+ earlier ++ final := by
    rw [← hLength, rtake_of_suffix hSuffix] at hIteration
    rw [← hLength, ← eq_preparedFrame hOrder hIteration]
    exact hSuffix
  rcases Nat.lt_or_ge final.length packetsInFrame with hShort | hLong
  · obtain ⟨start, hStart, hLength, hOrder⟩ := hRest.rest hShort
    have hMore : start ≠ [] := by
      rintro rfl
      simp only [List.length_nil] at hLength
      omega
    have hOn := hEnds.consecutive
    rw [due_of_suffix hStart hMore, due_of_consecutive hOrder,
      ← UInt32.zero_add (UInt32.ofNat _)] at hOn
    obtain ⟨front, rfl⟩ := hStart
    exact hFrame ⟨front, (List.append_assoc _ _ _).symm⟩
      (by rw [List.length_append]; exact hLength) ((consecutive_append _ _ _).mpr ⟨hOrder, hOn⟩)
  · -- the frame is the back of the last chunk
    obtain ⟨front, header, hSplit, hLast⟩ := hEnds.exists_last hSome
    have hSuffix : final.rtake packetsInFrame <:+ final := List.drop_suffix _ _
    have hLength : (final.rtake packetsInFrame).length = packetsInFrame := by
      rw [List.rtake, List.length_drop]
      omega
    refine hFrame (hSuffix.trans (List.suffix_append _ _)) hLength ?_
    have hOn := hEnds.consecutive
    rw [← List.take_append_drop (final.length - packetsInFrame) final] at hOn
    have hBack := ((consecutive_append _ _ _).mp hOn).2
    have hEnd : ∃ front', final.rtake packetsInFrame = front' ++ [header] := by
      refine ⟨front.drop (final.length - packetsInFrame), ?_⟩
      have hPos : 1 ≤ packetsInFrame := by
        have hIs : header.pktNum.toNat + 1 = packetsInFrame := hLast
        omega
      have hLe : final.length - packetsInFrame ≤ front.length := by
        have hFinal := congrArg List.length hSplit
        rw [List.length_append, List.length_singleton] at hFinal
        omega
      rw [List.rtake]
      generalize final.length - packetsInFrame = skipped at hLe ⊢
      rw [hSplit, List.drop_append_of_le_length hLe]
    obtain ⟨front', hFront'⟩ := hEnd
    have hZero := first_eq_zero hBack hLength hFront' hLast
    rw [hZero] at hBack
    exact hBack

/-- A frame that ended is in step, unless something odd stands before it in the last
chunk; its rest came before the chunk. -/
theorem restBefore_of_endsWith (hNone : ∀ header ∈ earlier, ¬ IsLast packetsInFrame header)
    (hSome : ∃ header ∈ final, IsLast packetsInFrame header)
    (h : preparedFrame packetsInFrame iteration <:+ earlier ++ final) :
    RestBefore packetsInFrame earlier final ∧
      (EndsFrame packetsInFrame (due earlier) final ∨
        preparedFrame packetsInFrame iteration <:+ final) := by
  have hTake : (earlier ++ final).rtake packetsInFrame =
      preparedFrame packetsInFrame iteration := by
    have hOwn := rtake_of_suffix h
    rwa [length_preparedFrame] at hOwn
  have hIteration : ∃ iteration, ∀ header ∈ (earlier ++ final).rtake packetsInFrame,
      header.iterNum = iteration := ⟨iteration, hTake ▸ iterNum_preparedFrame⟩
  rcases List.suffix_or_suffix_of_suffix h (List.suffix_append earlier final) with hIn | hOver
  · refine ⟨⟨fun hShort => ?_, hIteration⟩, Or.inr hIn⟩
    have hLe := hIn.length_le
    rw [length_preparedFrame] at hLe
    omega
  · obtain ⟨start, hFrame⟩ := hOver
    have hStart : start <:+ earlier := by
      rw [← hFrame] at h
      obtain ⟨front, hFront⟩ := h
      rw [← List.append_assoc] at hFront
      exact ⟨front, List.append_cancel_right hFront⟩
    obtain ⟨hFront, hEnds⟩ := (whole_iff (fun header hMem => hNone header (hStart.subset hMem))
      hSome).mp hFrame
    have hLength := congrArg List.length hFrame
    rw [List.length_append, length_preparedFrame] at hLength
    refine ⟨⟨fun _ => ⟨start, hStart, hLength, hFront.consecutive⟩, hIteration⟩, ?_⟩
    -- without a rest the frame lies in the chunk
    rcases List.eq_nil_or_concat' start with rfl | ⟨_, _, hMore⟩
    · exact Or.inr (hFrame ▸ List.suffix_refl _)
    · left
      rwa [due_of_suffix hStart (by simp [hMore])]

/-- A frame at the end of the last chunk is in step exactly if what stands before it
leads up to it. -/
theorem endsFrame_iff_leadsUp {n : Nat} (hn : n < 2 ^ 32) {before : List PacketHeader} :
    EndsFrame (n + 1) (due earlier) (before ++ preparedFrame (n + 1) iteration) ↔
      LeadsUp (n + 1) earlier before := by
  have hDrop : (before ++ preparedFrame (n + 1) iteration).dropLast =
      before ++ preparedFrame n iteration := by
    rw [preparedFrame_succ, ← List.append_assoc, List.dropLast_concat]
  constructor
  · rintro ⟨hConsecutive, hBehind⟩
    obtain ⟨hBefore, hFrame⟩ := (consecutive_append _ _ _).mp hConsecutive
    rw [hDrop] at hBehind
    refine ⟨hBefore, ?_, fun header hMem => hBehind header (List.mem_append_left _ hMem)⟩
    exact first_eq_zero hFrame (length_preparedFrame _ _) (preparedFrame_succ n iteration)
      ((isLast_iff_of_mem le_rfl hn).mpr rfl)
  · rintro ⟨hBefore, hZero, hNoLast⟩
    refine ⟨(consecutive_append _ _ _).mpr ⟨hBefore, ?_⟩, ?_⟩
    · rw [hZero]
      exact consecutive_preparedFrame _ _
    · rw [hDrop]
      intro header hMem
      rcases List.mem_append.mp hMem with hHere | hFront
      · exact hNoLast header hHere
      · exact not_isLast_of_front hn rfl header hFront

end Ends

/-! ## What a turn answers -/

section Reply

variable {packetsInFrame : Nat}

theorem receiveChunk_fields (chunk : FrameChunk) (st : FrameRx) :
    let parsed := parseHeaders packetsInFrame chunk.headers
      { st with receiveTs := chunk.receiveTs, valid := true }
    let st' := receiveChunk packetsInFrame chunk st
    st'.frameReceived = parsed.frameReceived ∧ st'.valid = parsed.valid ∧
      st'.rxIteration = parsed.rxIteration ∧ st'.rxNextPktNum = parsed.rxNextPktNum := by
  unfold receiveChunk parsePacketHeaders
  dsimp only
  split_ifs <;> exact ⟨rfl, rfl, rfl, rfl⟩

theorem getLast?_append_getD (first : UInt32) (a b : List PacketHeader) :
    (((a ++ b).getLast?).map fun header => header.pktNum + 1).getD first =
      ((b.getLast?).map fun header => header.pktNum + 1).getD
        (((a.getLast?).map fun header => header.pktNum + 1).getD first) := by
  rw [List.getLast?_append]
  cases b.getLast? <;> rfl

/-- The node reaches the chunk with the last packet, and what is due there is the
number behind the packets before. -/
theorem receiveFrame_eq {polls : List (ReturnStatus × FrameChunk)}
    {earlier : List FrameChunk} {final : FrameChunk} {st : FrameRx}
    (hFrame : frameChunks packetsInFrame polls = some (earlier, final))
    (hReceived : st.frameReceived = false) :
    ∃ before, receiveFrame packetsInFrame polls st =
        some (receiveChunk packetsInFrame final before) ∧
      before.rxNextPktNum = ((packetsOf earlier).getLast?.map fun header =>
        header.pktNum + 1).getD st.rxNextPktNum := by
  -- poll by poll; only the number that is due is carried over
  induction polls generalizing earlier st with
  | nil => cases hFrame
  | cons poll polls ih =>
    obtain ⟨rc, chunk⟩ := poll
    unfold frameChunks at hFrame
    unfold receiveFrame
    split_ifs at hFrame with hStatus hLast
    · obtain ⟨rfl, rfl⟩ : [] = earlier ∧ chunk = final := by simpa using hFrame
      have hMore : chunk.headers ≠ [] := by
        obtain ⟨header, hMem, -⟩ := hLast
        exact List.ne_nil_of_mem hMem
      -- the chunk with the last packet ends the loop
      have hEnds : (receiveChunk packetsInFrame chunk st).frameReceived = true :=
        (receiveChunk_fields chunk st).1.trans (valid_parseHeaders _ hLast _).1
      refine ⟨st, ?_, rfl⟩
      rw [if_neg hStatus, if_neg hMore]
      exact if_pos hEnds
    · obtain ⟨rest, hRest, hChunks⟩ := Option.map_eq_some_iff.mp hFrame
      obtain ⟨rfl, rfl⟩ : chunk :: rest.1 = earlier ∧ rest.2 = final := by simpa using hChunks
      rw [if_neg hStatus]
      by_cases hEmpty : chunk.headers = []
      · obtain ⟨before, hReply, hDue⟩ :=
          @ih rest.1 { st with receiveTs := chunk.receiveTs } hRest hReceived
        rw [if_pos hEmpty]
        refine ⟨before, hReply, hDue.trans ?_⟩
        rw [packetsOf, packetsOf, List.flatMap_cons, hEmpty, List.nil_append]
      · have hNone : ∀ header ∈ chunk.headers, ¬ IsLast packetsInFrame header :=
          fun header hMem hIs => hLast ⟨header, hMem, hIs⟩
        obtain ⟨hFirst, -, -, hNext⟩ := @receiveChunk_fields packetsInFrame chunk st
        obtain ⟨hSame, hBehind⟩ := parseHeaders_of_no_last chunk.headers hNone
          { st with receiveTs := chunk.receiveTs, valid := true }
        have hOn : (receiveChunk packetsInFrame chunk st).frameReceived = false :=
          hFirst.trans (hSame.trans hReceived)
        obtain ⟨before, hReply, hDue⟩ := ih hRest hOn
        rw [if_neg hEmpty]
        refine ⟨before, (if_neg (by simp [hOn])).trans hReply, hDue.trans ?_⟩
        rw [packetsOf, packetsOf, List.flatMap_cons, getLast?_append_getD, hNext.trans hBehind]

/-- Without a chunk that holds the last packet, before a poll fails, there is no
reply. -/
theorem receiveFrame_eq_none {polls : List (ReturnStatus × FrameChunk)} {st : FrameRx}
    (hFrame : frameChunks packetsInFrame polls = none) (hReceived : st.frameReceived = false) :
    receiveFrame packetsInFrame polls st = none := by
  induction polls generalizing st with
  | nil => rfl
  | cons poll polls ih =>
    obtain ⟨rc, chunk⟩ := poll
    unfold frameChunks at hFrame
    unfold receiveFrame
    split_ifs at hFrame with hStatus hLast
    · exact if_pos hStatus
    · have hRest := Option.map_eq_none_iff.mp hFrame
      rw [if_neg hStatus]
      -- an empty chunk only moves the time
      by_cases hEmpty : chunk.headers = []
      · rw [if_pos hEmpty]
        exact ih hRest hReceived
      · have hNone : ∀ header ∈ chunk.headers, ¬ IsLast packetsInFrame header :=
          fun header hMem hIs => hLast ⟨header, hMem, hIs⟩
        have hOn : (receiveChunk packetsInFrame chunk st).frameReceived = false :=
          (receiveChunk_fields chunk st).1.trans
            ((parseHeaders_of_no_last chunk.headers hNone _).1.trans hReceived)
        rw [if_neg hEmpty]
        exact (if_neg (by simp [hOn])).trans (ih hRest hOn)

theorem receiveSend_eq_none {polls : List (ReturnStatus × FrameChunk)}
    (hFrame : frameChunks packetsInFrame polls = none) (st : FrameRx) :
    receiveSend packetsInFrame polls st = none := by
  rw [receiveSend, receiveFrame_eq_none hFrame rfl, Option.map_none]

/-- The chunk that ends the frame is the first with the last packet. -/
theorem frameChunks_last {polls : List (ReturnStatus × FrameChunk)} {earlier : List FrameChunk}
    {final : FrameChunk} (hFrame : frameChunks packetsInFrame polls = some (earlier, final)) :
    (∀ header ∈ packetsOf earlier, ¬ IsLast packetsInFrame header) ∧
      ∃ header ∈ final.headers, IsLast packetsInFrame header := by
  induction polls generalizing earlier with
  | nil => cases hFrame
  | cons poll polls ih =>
    obtain ⟨rc, chunk⟩ := poll
    unfold frameChunks at hFrame
    split_ifs at hFrame with hStatus hLast
    · obtain ⟨rfl, rfl⟩ : [] = earlier ∧ chunk = final := by simpa using hFrame
      exact ⟨nofun, hLast⟩
    · obtain ⟨rest, hRest, hChunks⟩ := Option.map_eq_some_iff.mp hFrame
      obtain ⟨rfl, rfl⟩ : chunk :: rest.1 = earlier ∧ rest.2 = final := by simpa using hChunks
      obtain ⟨hEarlier, hFinal⟩ := ih hRest
      refine ⟨fun header hMem hIs => ?_, hFinal⟩
      -- this chunk was passed over, and so were those behind it
      rcases List.mem_append.mp hMem with hHere | hLater
      · exact hLast ⟨header, hHere, hIs⟩
      · exact hEarlier header hLater hIs

/-- The reply is what the last chunk says, from the number that is due there. -/
theorem receiveSend_eq_some {polls : List (ReturnStatus × FrameChunk)}
    {earlier : List FrameChunk} {final : FrameChunk}
    (hFrame : frameChunks packetsInFrame polls = some (earlier, final)) (st : FrameRx) :
    ∃ reply, receiveSend packetsInFrame polls st = some reply ∧
      (reply.valid = true ↔
        EndsFrame packetsInFrame (due (packetsOf earlier)) final.headers) ∧
      (reply.valid = true → ∃ front header, final.headers = front ++ [header] ∧
        IsLast packetsInFrame header ∧ reply.iterNum = header.iterNum) := by
  obtain ⟨before, hReply, hDue⟩ :=
    @receiveFrame_eq packetsInFrame polls earlier final (startFrame st) hFrame rfl
  -- the flag is set anew for every chunk, so only the last one counts
  obtain ⟨-, hValidField, hIteration, -⟩ :=
    @receiveChunk_fields packetsInFrame final before
  obtain ⟨-, hValid, hHeader⟩ := valid_parseHeaders final.headers (frameChunks_last hFrame).2
    { before with receiveTs := final.receiveTs, valid := true }
  refine ⟨composeReply (receiveChunk packetsInFrame final before), ?_, ?_, fun h => ?_⟩
  · rw [receiveSend, hReply, Option.map_some]
  · show (receiveChunk packetsInFrame final before).valid = true ↔ _
    rw [hValidField, hValid, hDue]
    exact ⟨fun h => h.2, fun h => ⟨rfl, h⟩⟩
  · obtain ⟨front, header, hSplit, hLast, hIs⟩ := hHeader (hValidField.symm.trans h)
    exact ⟨front, header, hSplit, hLast, hIteration.trans hIs⟩

end Reply

/-- **What a reply is worth.** A chunk with the last packet is answered. The reply
is right about the frame exactly if neither of these happens: the last chunk is in
step with the packet before it, but the chunks before it lost or mixed up packets,
or the iterations differ; or a whole frame ends the last chunk, and packets before
it were not in step with it. -/
theorem reply_faithful_iff {packetsInFrame : Nat} {polls : List (ReturnStatus × FrameChunk)}
    {earlier : List FrameChunk} {final : FrameChunk}
    (hFrame : frameChunks packetsInFrame polls = some (earlier, final)) (st : FrameRx) :
    ∃ reply, receiveSend packetsInFrame polls st = some reply ∧
      (ReplyFaithful packetsInFrame (packetsOf earlier ++ final.headers) reply ↔
        (EndsFrame packetsInFrame (due (packetsOf earlier)) final.headers →
          RestBefore packetsInFrame (packetsOf earlier) final.headers) ∧
        ∀ iteration before, final.headers = before ++ preparedFrame packetsInFrame iteration →
          LeadsUp packetsInFrame (packetsOf earlier) before) := by
  obtain ⟨hNone, hSome⟩ := frameChunks_last hFrame
  obtain ⟨reply, hReply, hValid, hHeader⟩ := receiveSend_eq_some hFrame st
  -- a frame has a last packet, whose number is below `2 ^ 32`
  obtain ⟨n, rfl, hn⟩ : ∃ n, packetsInFrame = n + 1 ∧ n < 2 ^ 32 := by
    obtain ⟨last, -, hLast⟩ := hSome
    exact ⟨last.pktNum.toNat, hLast.symm, last.pktNum.toNat_lt⟩
  refine ⟨reply, hReply, fun hFaithful => ⟨fun hEnds => ?_, fun iteration before hSplit => ?_⟩, ?_⟩
  · obtain ⟨iteration, hWhole⟩ := hFaithful.valid_iff.mp (hValid.mpr hEnds)
    exact (restBefore_of_endsWith hNone hSome hWhole).1
  · have hWhole : preparedFrame (n + 1) iteration <:+ packetsOf earlier ++ final.headers := by
      rw [hSplit, ← List.append_assoc]
      exact List.suffix_append _ _
    have hEnds := hValid.mp (hFaithful.valid_iff.mpr ⟨iteration, hWhole⟩)
    rw [hSplit] at hEnds
    exact (endsFrame_iff_leadsUp hn).mp hEnds
  · rintro ⟨hRest, hLeads⟩
    have hIff : reply.valid = true ↔
        ∃ iteration, preparedFrame (n + 1) iteration <:+ packetsOf earlier ++ final.headers := by
      rw [hValid]
      constructor
      · exact fun hEnds => endsWith_of_restBefore hSome hEnds (hRest hEnds)
      · rintro ⟨iteration, hWhole⟩
        rcases (restBefore_of_endsWith hNone hSome hWhole).2 with hEnds | ⟨before, hSplit⟩
        · exact hEnds
        · rw [← hSplit]
          exact (endsFrame_iff_leadsUp hn).mpr (hLeads iteration before hSplit.symm)
    refine ⟨hIff, fun h => ?_⟩
    obtain ⟨iteration, hWhole⟩ := hIff.mp h
    obtain ⟨front, header, hSplit, -, hIteration⟩ := hHeader h
    -- the reply takes the iteration of the last packet
    have hOwn : header.iterNum = iteration := by
      obtain ⟨before, hAll⟩ := hWhole
      rw [hSplit, preparedFrame_succ, ← List.append_assoc, ← List.append_assoc] at hAll
      obtain rfl : _ = header := by simpa using (List.append_inj' hAll rfl).2
      rfl
    rwa [hIteration, hOwn]

/-- A frame of four in two chunks, behind the start of another one. -/
theorem reply_faithful_whole :
    ∃ reply, receiveSend 4 [(.success, ⟨[⟨5, 0⟩, ⟨5, 1⟩, ⟨7, 0⟩, ⟨7, 1⟩], 10, 20, 25⟩),
        (.success, ⟨[⟨7, 2⟩, ⟨7, 3⟩], 30, 40, 45⟩)] {} = some reply ∧
      ReplyFaithful 4 [⟨5, 0⟩, ⟨5, 1⟩, ⟨7, 0⟩, ⟨7, 1⟩, ⟨7, 2⟩, ⟨7, 3⟩] reply := by
  have hFrame : frameChunks 4 [(.success, ⟨[⟨5, 0⟩, ⟨5, 1⟩, ⟨7, 0⟩, ⟨7, 1⟩], 10, 20, 25⟩),
      (.success, ⟨[⟨7, 2⟩, ⟨7, 3⟩], 30, 40, 45⟩)] =
      some ([⟨[⟨5, 0⟩, ⟨5, 1⟩, ⟨7, 0⟩, ⟨7, 1⟩], 10, 20, 25⟩],
        ⟨[⟨7, 2⟩, ⟨7, 3⟩], 30, 40, 45⟩) := rfl
  obtain ⟨reply, hReply, hIff⟩ := reply_faithful_iff hFrame {}
  refine ⟨reply, hReply, hIff.mpr ⟨fun _ => ⟨fun _ => ?_, 7, by decide⟩, ?_⟩⟩
  · exact ⟨[⟨7, 0⟩, ⟨7, 1⟩], by decide, rfl, rfl, rfl, trivial⟩
  · -- the last chunk is shorter than a frame
    intro iteration before hSplit
    have hLength := congrArg List.length hSplit
    rw [List.length_append, length_preparedFrame] at hLength
    exact absurd hLength (by simp only [List.length_cons, List.length_nil]; omega)

/-- Packet 1 is lost in the first chunk, and the reply says that all is well. -/
theorem gap_of_earlier_chunk_unnoticed :
    receiveSend 4 [(.success, ⟨[⟨7, 0⟩, ⟨7, 2⟩], 10, 20, 25⟩), (.success, ⟨[⟨7, 3⟩], 30, 40, 45⟩)]
        {} = some ⟨10, 40, 45, 7, true⟩ ∧
      ∀ iteration, ¬ preparedFrame 4 iteration <:+ [⟨7, 0⟩, ⟨7, 2⟩, ⟨7, 3⟩] := by
  refine ⟨by decide, fun iteration hWhole => ?_⟩
  -- three packets hold no frame of four
  have hLength := hWhole.length_le
  rw [length_preparedFrame] at hLength
  exact absurd hLength (by decide)

end FrameIONode

end RivermaxDevKit
