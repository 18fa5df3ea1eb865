import RivermaxDevKit.Ipo.Ordering
import RivermaxDevKit.Ipo.Readiness
import RivermaxDevKit.Lib.Resequencing
import RivermaxDevKit.Rtp.HeaderParsers

/-!
# Inline Packet Ordering — lossless reconstruction

What the redundant paths are for: as long as every packet comes in on one of the
paths, and no copy is later than the path differential, the stream hands out what
was sent, packet by packet and without a gap.

* `Tracks` — the buffer holds what a resequencer has seen and not let go.
* `Tracks.arrive`, `Tracks.reconstruct` — a packet, and the reconstruction behind
  the polls, are moves of the resequencer.
* `handsOut_whatWasSent` — the stream against what came in.
* `handsOut_everything` — polled on without packets it runs empty.
-/

namespace RivermaxDevKit

open Resequencing Resequencing.Resequencer SerialNumber SlotArray

/-! ## Feeds -/

/-- What the polls of successive calls return: at each reading of the clock, the
packets of each path, by their place in the stream of the sender. -/
abbrev Feed := List (Int × List (Nat × List Nat))

/-- What comes in, whatever the path. -/
def Feed.schedule (feed : Feed) : Schedule Int :=
  feed.map fun turn => (turn.1, turn.2.flatMap Prod.snd)

/-- The numbers handed to `complete_packet`, newest first. -/
def handedOut (events : List IpoEvent) : List Nat :=
  events.filterMap fun e =>
    match e with
    | .completePacket s => some s
    | _ => none

section Statement

variable (c : IpoConfig)

/-- The sequence number of packet `k` of a sender that starts with `s0`. -/
def sentNumber (s0 k : Nat) : Nat := (s0 + k) % c.sequenceSpace

/-- The receiver reads the sender's number from packet `k`. -/
def Readable (s0 : Nat) (sent : Nat → ReceivedPacket) (k : Nat) : Prop :=
  c.getSequenceNumber (sent k).header ((sent k).info.getPacketSubBlockSize 0) =
    some (sentNumber c s0 k)

/-- So it does from all packets that come in. -/
def SentBy (s0 : Nat) (sent : Nat → ReceivedPacket) (feed : Feed) : Prop :=
  ∀ turn ∈ feed.schedule, ∀ k ∈ turn.2, Readable c s0 sent k

variable (sent : Nat → ReceivedPacket)

def callOf (turn : Int × List (Nat × List Nat)) : IpoCall :=
  (turn.1, turn.2.map fun poll => ⟨poll.1, .completion (poll.2.map sent)⟩)

/-- The stream is started at time `t0`, and polled as the feed says. -/
def receive (t0 : Int) (feed : Feed) : IpoStream :=
  runCalls c (feed.map (callOf sent)) (start c t0 {})

/-- The network keeps to the path differential. The sender starts once the initial
synchronisation is over, and its first packet comes in first; the buffer is not
overrun, and the stream sees no restart of the sender. -/
structure Undisturbed (t0 : Int) (feed : Feed) : Prop where
  skew : SkewWithin c.maxPathDifferential feed.schedule
  started : ∀ turn ∈ feed.schedule, t0 ≤ turn.1
  first : ∀ k ∈ (feed.schedule.flatMap Prod.snd).head?, k = 0
  synced : ∀ turn ∈ feed.schedule, turn.2 ≠ [] → t0 + c.maxPathDifferential ≤ turn.1
  room : ∀ i, ∀ h : i < feed.schedule.length, ∀ k ∈ feed.schedule[i].2,
    k < (handedOut (receive c sent t0 (feed.take i)).events).length +
      min c.sequenceNumberWrapAround (c.sequenceSpace / 4)
  noRestart : .handleSenderRestart ∉ (receive c sent t0 feed).events

end Statement

variable {c : IpoConfig} {s0 : Nat} {sent : Nat → ReceivedPacket} {startTime : Int}

/-! ## Buffer and resequencer -/

/-- The slot of packet `k`. -/
def slotOf (c : IpoConfig) (s0 k : Nat) : Nat := (s0 + k) % c.sequenceNumberWrapAround

/-- The slot of packet `k` holds it since time `t`. -/
structure Kept (c : IpoConfig) (s0 : Nat) (st : IpoStream) (k : Nat) (t : Int) : Prop where
  valid : (st.extPacketInfoArr (slotOf c s0 k)).isValid = true
  number : (st.extPacketInfoArr (slotOf c s0 k)).sequenceNumber = sentNumber c s0 k
  time : (st.extPacketInfoArr (slotOf c s0 k)).timestamp = t

/-- The stream does what the resequencer does: everything up to `r.next` was
handed out in order, and the buffer holds what was seen of the rest. -/
structure Tracks (c : IpoConfig) (s0 : Nat) (startTime : Int) (r : Resequencer Int)
    (st : IpoStream) : Prop where
  started : st.state = .running ∨ st.state = .waiting
  index_eq : st.index = slotOf c s0 r.next
  last_lt : st.lastProcessedSequenceNumber < c.sequenceSpace
  ahead : 1 ≤ dist c.sequenceSpace st.lastProcessedSequenceNumber (s0 + r.next)
  near : dist c.sequenceSpace st.lastProcessedSequenceNumber (s0 + r.next) ≤ c.sequenceSpace / 4
  window : ∀ k t, r.firstSeen k = some t → k < r.next + c.sequenceNumberWrapAround
  kept : ∀ k t, r.next ≤ k → r.firstSeen k = some t → Kept c s0 st k t
  only : ∀ i < c.sequenceNumberWrapAround, (st.extPacketInfoArr i).isValid = true →
    ∃ k t, r.next ≤ k ∧ r.firstSeen k = some t ∧ i = slotOf c s0 k
  startTime_eq : st.startTime = startTime
  synced : ∀ k t, r.firstSeen k = some t → startTime ≤ t
  out : handedOut st.events = ((List.range r.next).map (sentNumber c s0)).reverse

/-- The stream before its first packet. -/
structure Idle (startTime : Int) (st : IpoStream) : Prop where
  state_eq : st.state = .waitFirstPacket
  events_eq : st.events = []
  empty : ∀ i, (st.extPacketInfoArr i).isValid = false
  startTime_eq : st.startTime = startTime

theorem slotOf_lt (k : Nat) : slotOf c s0 k < c.sequenceNumberWrapAround :=
  Nat.mod_lt _ wrapAround_pos

theorem sentNumber_lt (k : Nat) : sentNumber c s0 k < c.sequenceSpace :=
  Nat.mod_lt _ sequenceSpace_pos

/-- The stream finds a packet's slot from its sequence number. -/
theorem sentNumber_mod (hW : c.sequenceNumberWrapAround ∣ c.sequenceSpace) (k : Nat) :
    sentNumber c s0 k % c.sequenceNumberWrapAround = slotOf c s0 k :=
  Nat.mod_mod_of_dvd _ hW

theorem dist_sentNumber (a k : Nat) :
    dist c.sequenceSpace a (sentNumber c s0 k) = dist c.sequenceSpace a (s0 + k) := by
  unfold SerialNumber.dist sentNumber
  rw [Nat.mod_add_mod]

/-- Within a window no two packets share a slot. -/
theorem slotOf_inj {n j k : Nat} (hj : n ≤ j) (hj' : j < n + c.sequenceNumberWrapAround)
    (hk : n ≤ k) (hk' : k < n + c.sequenceNumberWrapAround)
    (h : slotOf c s0 j = slotOf c s0 k) : j = k := by
  obtain ⟨a, rfl⟩ := Nat.exists_eq_add_of_le hj
  obtain ⟨b, rfl⟩ := Nat.exists_eq_add_of_le hk
  unfold slotOf at h
  rw [← Nat.add_assoc, ← Nat.add_assoc] at h
  rw [mod_walk_inj (by omega) (by omega) h]

theorem slotOf_add (n g : Nat) :
    slotOf c s0 (n + g) = (slotOf c s0 n + g) % c.sequenceNumberWrapAround := by
  unfold slotOf
  rw [Nat.mod_add_mod, Nat.add_assoc]

theorem nextIndex_slotOf (n : Nat) : c.nextIndex (slotOf c s0 n) = slotOf c s0 (n + 1) := by
  rw [nextIndex_eq (slotOf_lt n), slotOf_add]

/-- A packet of the window lies less than half of the number space ahead. -/
theorem Tracks.dist_ahead {r : Resequencer Int} {st : IpoStream} (h : Tracks c s0 startTime r st)
    {k : Nat}
    (hNext : r.next ≤ k) (hRoom : k < r.next + c.sequenceSpace / 4) :
    1 ≤ dist c.sequenceSpace st.lastProcessedSequenceNumber (s0 + k) ∧
      dist c.sequenceSpace st.lastProcessedSequenceNumber (s0 + k) < c.sequenceSpace / 2 := by
  have hAhead := h.ahead
  have hNear := h.near
  obtain ⟨g, rfl⟩ := Nat.exists_eq_add_of_le hNext
  have h4 := four_le_sequenceSpace (c := c)
  -- from the last number to the next one, and `g` further
  have hStep : dist c.sequenceSpace (s0 + r.next) (s0 + (r.next + g)) = g :=
    dist_eq_of_add (by omega) (by rw [Nat.add_assoc])
  have hWay := dist_trans (M := c.sequenceSpace) sequenceSpace_pos
    (a := st.lastProcessedSequenceNumber) (b := s0 + r.next) (c := s0 + (r.next + g)) (by omega)
  omega

/-- Nothing that leaves buffer, numbers and deliveries alone is noticed. -/
theorem Tracks.of_same {r : Resequencer Int} {st st' : IpoStream} (h : Tracks c s0 startTime r st)
    (hState : st'.state = .running ∨ st'.state = .waiting) (hIndex : st'.index = st.index)
    (hLast : st'.lastProcessedSequenceNumber = st.lastProcessedSequenceNumber)
    (hArr : st'.extPacketInfoArr = st.extPacketInfoArr) (hStart : st'.startTime = st.startTime)
    (hOut : handedOut st'.events = handedOut st.events) : Tracks c s0 startTime r st' where
  started := hState
  index_eq := hIndex.trans h.index_eq
  last_lt := hLast ▸ h.last_lt
  ahead := hLast ▸ h.ahead
  near := hLast ▸ h.near
  window := h.window
  kept := by
    intro k t hNext hSeen
    have hKept := h.kept k t hNext hSeen
    exact ⟨hArr ▸ hKept.valid, hArr ▸ hKept.number, hArr ▸ hKept.time⟩
  only := hArr ▸ h.only
  startTime_eq := hStart.trans h.startTime_eq
  synced := h.synced
  out := hOut.trans h.out

/-! ## Packets -/

/-- The stream goes on when a packet comes in, unless it sees a restart. -/
theorem Tracks.switchState {r : Resequencer Int} {st : IpoStream} (h : Tracks c s0 startTime r st)
    (s : Nat)
    (hNoRestart : .handleSenderRestart ∉ (switchState c s st).events) :
    Tracks c s0 startTime r (switchState c s st) ∧ (switchState c s st).state = .running ∧
      (switchState c s st).now = st.now := by
  unfold RivermaxDevKit.switchState at hNoRestart ⊢
  rcases h.started with hRun | hWait
  · rw [hRun]
    exact ⟨h, hRun, rfl⟩
  · rw [hWait] at hNoRestart ⊢
    dsimp only at hNoRestart ⊢
    split
    · rename_i hLate
      rw [if_pos hLate] at hNoRestart
      exact absurd (by simp [resync]) hNoRestart
    · exact ⟨h.of_same (.inl rfl) rfl rfl rfl rfl rfl, rfl, rfl⟩

/-- A packet is stored, or is a copy of one that is there. -/
theorem Tracks.dispatchPacket {r : Resequencer Int} {st : IpoStream}
    (hW : c.sequenceNumberWrapAround ∣ c.sequenceSpace) (h : Tracks c s0 startTime r st)
    (hRun : st.state = .running) (hSynced : startTime ≤ st.now) (path : Nat)
    (info : ReceivePacketInfo) {k : Nat} (hNext : r.next ≤ k)
    (hRoom : k < r.next + min c.sequenceNumberWrapAround (c.sequenceSpace / 4)) :
    Tracks c s0 startTime (r.arrive st.now k)
      (dispatchPacket c path (sentNumber c s0 k) info st) := by
  obtain ⟨hAhead, hHalf⟩ := h.dist_ahead hNext (by omega)
  have hDelta : c.seqSub (sentNumber c s0 k) st.lastProcessedSequenceNumber =
      dist c.sequenceSpace st.lastProcessedSequenceNumber (s0 + k) := by
    rw [seqSub_eq_dist h.last_lt, dist_sentNumber]
  have hMsb := (msb_test (dist_lt (M := c.sequenceSpace) sequenceSpace_pos
    st.lastProcessedSequenceNumber (s0 + k))).mpr hHalf
  unfold RivermaxDevKit.dispatchPacket
  simp only [hDelta, hMsb, sentNumber_mod hW]
  rw [if_neg (by omega)]
  cases hSeen : r.firstSeen k with
  | some t =>
    -- a copy of a packet that is in its slot
    have hKept := h.kept k t hNext hSeen
    rw [if_neg (by simp [hKept.valid, hKept.number]), arrive_of_seen hSeen]
    exact h.of_same (.inl hRun) rfl rfl rfl rfl rfl
  | none =>
    -- the slot is free: what is in it would be this packet
    have hFree : (st.extPacketInfoArr (slotOf c s0 k)).isValid = false := by
      by_contra hValid
      obtain ⟨j, t, hj, hOther, hSlot⟩ := h.only _ (slotOf_lt k) (by simpa using hValid)
      have hSame : k = j := slotOf_inj hNext (by omega) hj (h.window j t hOther) hSlot
      rw [hSame, hOther] at hSeen
      cases hSeen
    rw [if_pos (by simp [hFree])]
    have hNew : (r.arrive st.now k).firstSeen k = some st.now := by
      rw [firstSeen_arrive_self, hSeen, Option.getD_none]
    have hOld {j : Nat} (hj : j ≠ k) := firstSeen_arrive_of_ne r st.now hj
    refine ⟨.inl hRun, h.index_eq, h.last_lt, h.ahead, h.near, ?_, ?_, ?_, h.startTime_eq, ?_,
      h.out⟩
    · intro j t hj
      by_cases hSame : j = k
      · subst hSame
        show j < r.next + _
        omega
      · exact h.window j t (hOld hSame ▸ hj)
    · intro j t hj hAt
      by_cases hSame : j = k
      · subst hSame
        obtain rfl := Option.some.inj (hNew.symm.trans hAt)
        constructor <;> simp [handlePacket, sentNumber_mod hW]
      · rw [hOld hSame] at hAt
        have hKept := h.kept j t hj hAt
        -- the packet lies in another slot
        have hSlot : slotOf c s0 j ≠ slotOf c s0 k := fun hEq =>
          hSame (slotOf_inj hj (h.window j t hAt) hNext
            (show k < r.next + c.sequenceNumberWrapAround by omega) hEq)
        constructor
        all_goals
          simp only [handlePacket, sentNumber_mod hW]
          rw [Function.update_of_ne hSlot]
        · exact hKept.valid
        · exact hKept.number
        · exact hKept.time
    · intro i hi hValid
      by_cases hSlot : i = slotOf c s0 k
      · exact ⟨k, st.now, hNext, hNew, hSlot⟩
      · simp only [handlePacket, sentNumber_mod hW] at hValid
        rw [Function.update_of_ne hSlot] at hValid
        obtain ⟨j, t, hj, hAt, rfl⟩ := h.only i hi hValid
        have hSame : j ≠ k := fun hEq => hSlot (hEq ▸ rfl)
        exact ⟨j, t, hj, (hOld hSame).trans hAt, rfl⟩
    · intro j t hj
      by_cases hSame : j = k
      · subst hSame
        obtain rfl := Option.some.inj (hNew.symm.trans hj)
        exact hSynced
      · exact h.synced j t (hOld hSame ▸ hj)

/-- The first packet sets position and numbers. -/
theorem Idle.dispatchPacket {st : IpoStream}
    (hW : c.sequenceNumberWrapAround ∣ c.sequenceSpace) (h : Idle startTime st)
    (hSynced : startTime ≤ st.now) (path : Nat) (info : ReceivePacketInfo) :
    let st' := dispatchPacket c path (sentNumber c s0 0) info
      (switchState c (sentNumber c s0 0) st)
    Tracks c s0 startTime (Resequencer.arrive {} st.now 0) st' ∧ st'.now = st.now := by
  have h4 := four_le_sequenceSpace (c := c)
  have hWrap := wrapAround_pos (c := c)
  -- the state behind the switch: running, at the packet's slot
  have hSwitch : switchState c (sentNumber c s0 0) st =
      { resync c (sentNumber c s0 0) st with state := .running, nextPacketTime := st.now } := by
    unfold switchState
    rw [h.state_eq]
  have hFresh : Fresh c (sentNumber c s0 0) (switchState c (sentNumber c s0 0) st) := by
    rw [hSwitch]
    refine ⟨?_, rfl, rfl, rfl, rfl, fun i _ => h.empty i⟩
    intro past hPast
    simp only [resync, h.events_eq] at hPast
    -- nothing was delivered before
    have hNone : delivered past = [] := by
      rw [List.mem_tails, List.suffix_cons_iff, List.suffix_nil] at hPast
      rcases hPast with rfl | rfl <;> rfl
    rw [hNone]
    exact List.isChain_nil
  rw [dispatchPacket_of_fresh hFresh, hSwitch]
  have hSeen : (Resequencer.arrive {} st.now 0).firstSeen 0 = some st.now :=
    firstSeen_arrive_self {} st.now 0
  have hNone {k : Nat} (hk : k ≠ 0) : (Resequencer.arrive {} st.now 0).firstSeen k = none :=
    firstSeen_arrive_of_ne {} st.now hk
  have hDist : dist c.sequenceSpace (c.seqSub (sentNumber c s0 0) c.sequenceNumberInitOffset)
      (s0 + 0) = c.sequenceSpace / 4 := by
    rw [← dist_sentNumber, dist_initOffset]
  refine ⟨⟨.inl rfl, sentNumber_mod hW 0, seqSub_lt _ _, ?_, ?_, ?_, ?_, ?_,
    h.startTime_eq, ?_, ?_⟩, rfl⟩
  · show 1 ≤ dist _ (c.seqSub _ _) (s0 + 0)
    rw [hDist]
    omega
  · exact hDist.le
  · intro k t hk
    by_cases hZero : k = 0
    · subst hZero
      show 0 < 0 + _
      omega
    · rw [hNone hZero] at hk
      cases hk
  · intro k t _ hk
    by_cases hZero : k = 0
    · subst hZero
      obtain rfl := Option.some.inj (hSeen.symm.trans hk)
      constructor <;> simp [handlePacket, resync, sentNumber_mod hW]
    · rw [hNone hZero] at hk
      cases hk
  · intro i _ hValid
    simp only [handlePacket, resync, sentNumber_mod hW] at hValid
    by_cases hSlot : i = slotOf c s0 0
    · exact ⟨0, st.now, Nat.le_refl 0, hSeen, hSlot⟩
    · rw [Function.update_of_ne hSlot, h.empty i] at hValid
      cases hValid
  · intro k t hk
    by_cases hZero : k = 0
    · subst hZero
      obtain rfl := Option.some.inj (hSeen.symm.trans hk)
      exact hSynced
    · rw [hNone hZero] at hk
      cases hk
  · show handedOut (_ :: _ :: st.events) = _
    rw [h.events_eq]
    rfl

/-! ## Reconstruction -/

/-- One packet is handed out: the resequencer lets it go. -/
theorem Tracks.transferPacket {r : Resequencer Int} {st : IpoStream}
    (h : Tracks c s0 startTime r st)
    (hRun : st.state = .running) {t : Int} (hSeen : r.firstSeen r.next = some t) :
    Tracks c s0 startTime { r with next := r.next + 1 } (transferPacket c st) := by
  have h4 := four_le_sequenceSpace (c := c)
  have hKept := h.kept r.next t (Nat.le_refl _) hSeen
  have hNumber : (st.extPacketInfoArr st.index).sequenceNumber = sentNumber c s0 r.next := by
    rw [h.index_eq]
    exact hKept.number
  -- the other packets lie in other slots
  have hOther {k : Nat} {u : Int} (hNext : r.next + 1 ≤ k) (hAt : r.firstSeen k = some u) :
      slotOf c s0 k ≠ st.index := by
    rw [h.index_eq]
    intro hEq
    have hSame := slotOf_inj (Nat.le_of_succ_le hNext) (h.window k u hAt) (Nat.le_refl _)
      (Nat.lt_add_of_pos_right wrapAround_pos) hEq
    omega
  have hDist : dist c.sequenceSpace (sentNumber c s0 r.next) (s0 + (r.next + 1)) = 1 := by
    refine dist_eq_of_add (by omega) ?_
    rw [sentNumber, Nat.mod_add_mod, Nat.add_assoc]
  refine ⟨.inl hRun, ?_, ?_, ?_, ?_, ?_, ?_, ?_, h.startTime_eq, h.synced, ?_⟩
  · show c.nextIndex st.index = _
    rw [h.index_eq, nextIndex_slotOf]
  · show (st.extPacketInfoArr st.index).sequenceNumber < _
    rw [hNumber]
    exact sentNumber_lt _
  · show 1 ≤ dist _ (st.extPacketInfoArr st.index).sequenceNumber _
    rw [hNumber, hDist]
  · show dist _ (st.extPacketInfoArr st.index).sequenceNumber _ ≤ _
    rw [hNumber, hDist]
    omega
  · intro k u hAt
    have := h.window k u hAt
    show k < r.next + 1 + _
    omega
  · intro k u hNext hAt
    have hStill := h.kept k u (Nat.le_of_succ_le hNext) hAt
    constructor
    all_goals
      simp only [RivermaxDevKit.transferPacket, completePacket, releaseSlot]
      rw [Function.update_of_ne (hOther hNext hAt)]
    · exact hStill.valid
    · exact hStill.number
    · exact hStill.time
  · intro i hi hValid
    simp only [RivermaxDevKit.transferPacket, completePacket, releaseSlot] at hValid
    by_cases hSlot : i = st.index
    · subst hSlot
      rw [Function.update_self] at hValid
      cases hValid
    · rw [Function.update_of_ne hSlot] at hValid
      obtain ⟨k, u, hNext, hAt, rfl⟩ := h.only i hi hValid
      refine ⟨k, u, Nat.lt_of_le_of_ne hNext fun hEq => hSlot ?_, hAt, rfl⟩
      rw [h.index_eq, hEq]
  · show handedOut (.completePacket _ :: st.events) = _
    rw [hNumber, List.range_succ, List.map_append, List.reverse_append, ← h.out]
    rfl

/-- A slot in use holds a packet that was seen; the slot at the position, the next
one. -/
theorem Tracks.seen_of_valid {r : Resequencer Int} {st : IpoStream} (h : Tracks c s0 startTime r st)
    (hValid : (st.extPacketInfoArr st.index).isValid = true) :
    r.firstSeen r.next = some (st.extPacketInfoArr st.index).timestamp := by
  rw [h.index_eq] at hValid ⊢
  obtain ⟨k, t, hNext, hAt, hSlot⟩ := h.only _ (slotOf_lt r.next) hValid
  have hSame := slotOf_inj (Nat.le_refl _) (Nat.lt_add_of_pos_right wrapAround_pos) hNext
    (h.window k t hAt) hSlot
  rw [← hSame] at hAt
  rw [hAt, (h.kept r.next t (Nat.le_refl _) hAt).time]

/-- The transfer loop lets packets go, one after the other. -/
theorem Tracks.transferContiguous (fuel : Nat) :
    ∀ {r : Resequencer Int} {st : IpoStream} {last size : Nat},
      Tracks c s0 startTime r st → st.state = .running → ∃ r',
        Releases c.maxPathDifferential st.now r r' ∧
          Tracks c s0 startTime r' (transferContiguous c fuel st last size).1 ∧
          ((transferContiguous c fuel st last size).1.state = .running) ∧
          (∀ t, 0 < fuel → r.firstSeen r.next = some t → t + c.maxPathDifferential < st.now →
            r.next < r'.next) := by
  induction fuel with
  | zero => exact fun h hRun => ⟨_, .refl, h, hRun, fun _ hZero => absurd hZero (by decide)⟩
  | succ fuel ih =>
    intro r st last size h hRun
    rw [transferContiguous_succ]
    split
    · rename_i hFree
      refine ⟨r, .refl, h, hRun, fun t _ hSeen _ => ?_⟩
      -- the next packet would be in the slot at the position
      have hValid := (h.kept r.next t (Nat.le_refl _) hSeen).valid
      rw [← h.index_eq, hFree] at hValid
      cases hValid
    rename_i hValid
    have hSeen := h.seen_of_valid (by simpa using hValid)
    split
    · rename_i hYoung
      refine ⟨r, .refl, h, hRun, fun t _ hAt hDue => ?_⟩
      obtain rfl := Option.some.inj (hSeen.symm.trans hAt)
      omega
    rename_i hRipe
    have hRelease : Release c.maxPathDifferential st.now r { r with next := r.next + 1 } :=
      .next hSeen (Int.not_le.mp hRipe)
    have hNext := h.transferPacket hRun hSeen
    split
    -- the chunk ends with the buffer, or goes on
    · exact ⟨_, .single hRelease, hNext, hRun, fun _ _ _ _ => Nat.lt_succ_self _⟩
    · obtain ⟨r', hReleases, hTracks, hRunning, -⟩ := @ih _ _
        (st.extPacketInfoArr st.index).hwTimestamp (size + 1) hNext hRun
      refine ⟨r', .head hRelease hReleases, hTracks, hRunning, fun _ _ _ _ => ?_⟩
      exact (firstSeen_of_releases hReleases).2

/-- The next packet, if it is there, is the first the search finds. -/
theorem Tracks.firstValid {r : Resequencer Int} {st : IpoStream} (h : Tracks c s0 startTime r st)
    {t : Int}
    (hSeen : r.firstSeen r.next = some t) : FirstValid c st st.index := by
  have hIndex : st.index < c.sequenceNumberWrapAround := h.index_eq ▸ slotOf_lt r.next
  refine ⟨0, wrapAround_pos, (Nat.mod_eq_of_lt hIndex).symm, ?_, fun _ hNone => ?_⟩
  · rw [h.index_eq]
    exact (h.kept r.next t (Nat.le_refl _) hSeen).valid
  · exact absurd hNone (Nat.not_lt_zero _)

/-- Whatever the search finds was seen. -/
theorem Tracks.seen_of_firstValid {r : Resequencer Int} {st : IpoStream}
    (h : Tracks c s0 startTime r st)
    {f : Nat} (hFirst : FirstValid c st f) :
    ∃ k, r.next ≤ k ∧ r.firstSeen k = some (st.extPacketInfoArr f).timestamp := by
  obtain ⟨k, -, hAt, hValid, -⟩ := hFirst
  obtain ⟨j, t, hNext, hSeen, rfl⟩ := h.only f (hAt ▸ Nat.mod_lt _ wrapAround_pos) hValid
  exact ⟨j, hNext, by rw [hSeen, (h.kept j t hNext hSeen).time]⟩

/-- The part of `get_next_chunk` behind the polls: the resequencer lets packets
go, and at least one if the next one is due. -/
theorem Tracks.reconstruct {r : Resequencer Int} {st : IpoStream} (h : Tracks c s0 startTime r st)
    (hRep : IpoInvariant c st) (hKept : NextPacketKept c st.now st)
    (hNext : ∀ k t, r.next ≤ k → r.firstSeen k = some t → t + c.maxPathDifferential < st.now →
      ∃ u, r.firstSeen r.next = some u) (chunk : IpoReceiveChunk) :
    ∃ r', Releases c.maxPathDifferential st.now r r' ∧
      Tracks c s0 startTime r' (reconstruct c st chunk).1 ∧
      (∀ t, r.firstSeen r.next = some t → t + c.maxPathDifferential < st.now →
        r.next < r'.next) := by
  have hSearch {f : Nat} : searchValid c st.extPacketInfoArr c.sequenceNumberWrapAround st.index =
      some f ↔ FirstValid c st f := searchValid_eq_some_iff hRep.index_lt
  unfold RivermaxDevKit.reconstruct
  split
  · -- a stream that does not run has nothing in its buffer
    rename_i hIdle
    refine ⟨r, .refl, h, fun t hSeen _ => ?_⟩
    obtain ⟨k, -, hAt, hValid, -⟩ := h.firstValid hSeen
    rw [hRep.idle_empty hIdle _ hRep.index_lt] at hValid
    cases hValid
  rename_i hRunning
  have hRun : st.state = .running := not_not.mp hRunning
  split
  · -- the cached time does not hold the next packet back
    rename_i hEarly
    refine ⟨r, .refl, h, fun t hSeen hDue => ?_⟩
    have hFirst := h.firstValid hSeen
    have hTime := h.seen_of_valid (hFirst.choose_spec.2.2.1)
    obtain rfl := Option.some.inj (hSeen.symm.trans hTime)
    rcases hKept.gate hRun with hRipe | hGate
    · omega
    · have := hGate _ hFirst (h.startTime_eq.trans_le (h.synced r.next _ hSeen))
      omega
  cases hFound : searchValid c st.extPacketInfoArr c.sequenceNumberWrapAround st.index with
  | none =>
    refine ⟨r, .refl, h.of_same (.inr rfl) rfl rfl rfl rfl rfl, fun t hSeen _ => ?_⟩
    rw [hSearch.mpr (h.firstValid hSeen)] at hFound
    cases hFound
  | some f =>
    have hFirst := hSearch.mp hFound
    obtain ⟨k, hLater, hSeen⟩ := h.seen_of_firstValid hFirst
    dsimp only
    split
    · rename_i hYoung
      refine ⟨r, .refl, h.of_same (.inl hRun) rfl rfl rfl rfl rfl, fun t hAt hDue => ?_⟩
      -- what was found is the next packet, which is due
      obtain rfl := firstValid_unique hFirst (h.firstValid hAt)
      have hTime := h.seen_of_valid (hFirst.choose_spec.2.2.1)
      obtain rfl := Option.some.inj (hAt.symm.trans hTime)
      omega
    · rename_i hRipe
      -- the network has brought the next packet as well, so nothing is passed over
      obtain ⟨u, hAt⟩ := hNext k _ hLater hSeen (Int.not_le.mp hRipe)
      obtain rfl := firstValid_unique hFirst (h.firstValid hAt)
      have hValid := hFirst.choose_spec.2.2.1
      have hSync : skipInitialSync c (c.sequenceNumberWrapAround + 1)
          { st with index := st.index } = (st, true) := by
        rw [skipInitialSync_succ, if_neg (by simp [hValid]),
          if_pos (h.startTime_eq.trans_le (h.synced r.next _ (h.seen_of_valid hValid)))]
      rw [hSync]
      obtain ⟨r', hReleases, hTracks, -, hProgress⟩ := @Tracks.transferContiguous c s0
        startTime c.sequenceNumberWrapAround r st chunk.timestampLast 0 h hRun
      exact ⟨r', hReleases, hTracks, fun t => hProgress t wrapAround_pos⟩

/-! ## Calls -/

theorem dispatchPacket_now (path s : Nat) (info : ReceivePacketInfo) (st : IpoStream) :
    (dispatchPacket c path s info st).now = st.now := by
  unfold dispatchPacket
  dsimp only
  split
  · rfl
  · split <;> rfl

/-- The stream and the resequencer, before and behind the first packet. -/
inductive Stage (c : IpoConfig) (s0 : Nat) (startTime : Int) : Resequencer Int → IpoStream → Prop
  | idle {st : IpoStream} (h : Idle startTime st) : Stage c s0 startTime {} st
  | running {r : Resequencer Int} {st : IpoStream} (h : Tracks c s0 startTime r st) :
      Stage c s0 startTime r st

theorem Stage.out {r : Resequencer Int} {st : IpoStream} (h : Stage c s0 startTime r st) :
    handedOut st.events = ((List.range r.next).map (sentNumber c s0)).reverse := by
  cases h with
  | idle h =>
    rw [h.events_eq]
    rfl
  | running h => exact h.out

/-- The packets of a turn in the order of the polls, with their paths. -/
def arrivalsOf (turn : Int × List (Nat × List Nat)) : List (Nat × Nat) :=
  turn.2.flatMap fun poll => poll.2.map fun k => (poll.1, k)

def receivePackets (c : IpoConfig) (sent : Nat → ReceivedPacket) (arrivals : List (Nat × Nat))
    (st : IpoStream) : IpoStream :=
  arrivals.foldl (fun st a => processPacket c a.1 (sent a.2) st) st

theorem receivePackets_append (a b : List (Nat × Nat)) (st : IpoStream) :
    receivePackets c sent (a ++ b) st = receivePackets c sent b (receivePackets c sent a st) :=
  List.foldl_append

theorem moves_receivePackets (arrivals : List (Nat × Nat)) (st : IpoStream) :
    IpoMoves c st (receivePackets c sent arrivals st) := by
  induction arrivals generalizing st with
  | nil => exact .refl
  | cons a arrivals ih => exact (moves_processPacket a.1 (sent a.2) st).trans (ih _)

/-- Polls that succeed process the packets of all paths. -/
theorem pollPaths_callOf (turn : Int × List (Nat × List Nat)) (st : IpoStream) :
    pollPaths c (callOf sent turn).2 st =
      (.success, receivePackets c sent (arrivalsOf turn) st) := by
  obtain ⟨now, polls⟩ := turn
  show pollPaths c (polls.map fun poll => ⟨poll.1, .completion (poll.2.map sent)⟩) st =
    (.success, receivePackets c sent (polls.flatMap fun poll => poll.2.map fun k => (poll.1, k)) st)
  induction polls generalizing st with
  | nil => rfl
  | cons poll polls ih =>
    rw [List.map_cons, List.flatMap_cons, receivePackets_append, ← ih]
    -- the packets of the first path
    have hPath : processCompletion c poll.1 (poll.2.map sent) st =
        receivePackets c sent (poll.2.map fun k => (poll.1, k)) st := by
      unfold processCompletion receivePackets
      rw [List.foldl_map, List.foldl_map]
    rw [← hPath]
    rfl

theorem map_snd_arrivalsOf (turn : Int × List (Nat × List Nat)) :
    (arrivalsOf turn).map Prod.snd = turn.2.flatMap Prod.snd := by
  unfold arrivalsOf
  rw [List.map_flatMap]
  simp only [List.map_map]
  congr 1
  funext poll
  exact List.map_id poll.2

/-- Every packet of a turn is an arrival at the resequencer. -/
theorem Stage.receiveAll (hW : c.sequenceNumberWrapAround ∣ c.sequenceSpace)
    (arrivals : List (Nat × Nat)) :
    ∀ {r : Resequencer Int} {st : IpoStream}, Stage c s0 startTime r st →
      (∀ a ∈ arrivals, Readable c s0 sent a.2 ∧ startTime ≤ st.now ∧ r.next ≤ a.2 ∧
        a.2 < r.next + min c.sequenceNumberWrapAround (c.sequenceSpace / 4)) →
      (Idle startTime st → ∀ a ∈ arrivals.head?, a.2 = 0) →
      .handleSenderRestart ∉ (receivePackets c sent arrivals st).events →
      Stage c s0 startTime (r.arriveAll st.now (arrivals.map Prod.snd))
          (receivePackets c sent arrivals st) := by
  induction arrivals with
  | nil => exact fun h _ _ _ => h
  | cons a arrivals ih =>
    intro r st h hRoom hFirst hNoRestart
    obtain ⟨⟨hSent, hSynced, hNext, hLt⟩, hRest⟩ := List.forall_mem_cons.mp hRoom
    -- the first packet is dispatched by its number
    have hStep : processPacket c a.1 (sent a.2) st = dispatchPacket c a.1 (sentNumber c s0 a.2)
        (sent a.2).info (switchState c (sentNumber c s0 a.2) st) := by
      rw [processPacket, hSent]
    have hTracks : Tracks c s0 startTime (r.arrive st.now a.2) (processPacket c a.1 (sent a.2) st) ∧
        (processPacket c a.1 (sent a.2) st).now = st.now := by
      rw [hStep]
      cases h with
      | idle h =>
        have hZero : a.2 = 0 := hFirst h a rfl
        rw [hZero]
        exact h.dispatchPacket hW hSynced a.1 _
      | running h =>
        -- a restart would show in the events at the end
        have hQuiet : .handleSenderRestart ∉
            (switchState c (sentNumber c s0 a.2) st).events := by
          intro hMem
          have hLater : IpoMoves c (processPacket c a.1 (sent a.2) st)
            (receivePackets c sent arrivals _) :=
            moves_receivePackets arrivals _
          have hNumber : sentNumber c s0 a.2 < c.sequenceSpace := sentNumber_lt a.2
          have hDispatch := moves_dispatchPacket a.1 hNumber (sent a.2).info
            (switchState c (sentNumber c s0 a.2) st)
          rw [← hStep] at hDispatch
          exact hNoRestart ((IpoMoves.events_suffix (hDispatch.trans hLater)).subset hMem)
        obtain ⟨hSwitched, hRun, hNow⟩ := h.switchState (sentNumber c s0 a.2) hQuiet
        rw [← hNow] at hSynced ⊢
        exact ⟨hSwitched.dispatchPacket hW hRun hSynced a.1 _ hNext hLt,
          dispatchPacket_now a.1 _ _ _⟩
    obtain ⟨hTracks, hNow⟩ := hTracks
    have hAll := ih (.running hTracks) (fun b hb => hNow ▸ hRest b hb)
      (fun hIdle => absurd hIdle.state_eq ?_) hNoRestart
    · rwa [hNow] at hAll
    · rcases hTracks.started with hState | hState <;> rw [hState] <;> decide

theorem Stage.begin {r : Resequencer Int} {st : IpoStream} (h : Stage c s0 startTime r st)
    (now : Int) : Stage c s0 startTime r (beginCall c now st) ∧ (beginCall c now st).now = now ∧
      (beginCall c now st).events = st.events ∧
      (Idle startTime (beginCall c now st) → Idle startTime st) := by
  have hStarted : st.state ≠ .notStarted := by
    cases h with
    | idle h =>
      rw [h.state_eq]
      decide
    | running h => rcases h.started with hState | hState <;> rw [hState] <;> decide
  unfold beginCall
  rw [if_neg hStarted]
  refine ⟨?_, rfl, rfl, fun h => ⟨h.state_eq, h.events_eq, h.empty, h.startTime_eq⟩⟩
  cases h with
  | idle h => exact .idle ⟨h.state_eq, h.events_eq, h.empty, h.startTime_eq⟩
  | running h => exact .running (h.of_same h.started rfl rfl rfl rfl rfl)

/-- What one call needs to know of the network. -/
structure CallUndisturbed (c : IpoConfig) (s0 : Nat) (sent : Nat → ReceivedPacket)
    (startTime : Int) (past : Schedule Int) (turn : Int × List (Nat × List Nat))
    (r : Resequencer Int) (st : IpoStream) : Prop where
  skew : SkewWithin c.maxPathDifferential (past ++ [(turn.1, turn.2.flatMap Prod.snd)])
  readable : ∀ k ∈ turn.2.flatMap Prod.snd, Readable c s0 sent k
  first : Idle startTime st → ∀ k ∈ (turn.2.flatMap Prod.snd).head?, k = 0
  synced : turn.2.flatMap Prod.snd ≠ [] → startTime ≤ turn.1
  room : ∀ k ∈ turn.2.flatMap Prod.snd,
    k < r.next + min c.sequenceNumberWrapAround (c.sequenceSpace / 4)
  noRestart : .handleSenderRestart ∉
    (nextState c (callOf sent turn).1 (callOf sent turn).2 st).events

/-- **One call.** The packets of the polls arrive at the resequencer, which lets go
what the call hands out. -/
theorem Stage.call (hW : c.sequenceNumberWrapAround ∣ c.sequenceSpace) {past : Schedule Int}
    {r : Resequencer Int} {st : IpoStream} {t : Int}
    {turn : Int × List (Nat × List Nat)} (h : Stage c s0 startTime r st)
    (hRun : Run c.maxPathDifferential past r) (hReach : ReachableBy c t st) (hClock : t ≤ turn.1)
    (hCall : CallUndisturbed c s0 sent startTime past turn r st) :
    let arrived := r.arriveAll turn.1 (turn.2.flatMap Prod.snd)
    ∃ r', Releases c.maxPathDifferential turn.1 arrived r' ∧
      Stage c s0 startTime r' (nextState c (callOf sent turn).1 (callOf sent turn).2 st) ∧
      (∀ u, arrived.firstSeen r.next = some u → u + c.maxPathDifferential < turn.1 →
        r.next < r'.next) := by
  intro arrived
  have hTurn := List.mem_append_right past
    (List.mem_singleton_self (turn.1, turn.2.flatMap Prod.snd))
  have hSound := hRun.sound.mono (turn.1, turn.2.flatMap Prod.snd)
  obtain ⟨hBegun, hNow, hEvents, hIdle⟩ := h.begin turn.1
  have hPolled := pollPaths_pollKept (callOf sent turn).2
    (beginCall_pollKept hReach.reachable (reachableBy_nextPacketKept hReach) hClock)
  -- a call whose polls succeed reconstructs from what they left
  have hState : nextState c (callOf sent turn).1 (callOf sent turn).2 st =
      (reconstruct c (receivePackets c sent (arrivalsOf turn)
        (beginCall c turn.1 st)) {}).1 := by
    rw [nextState_eq]
    show (if (pollPaths c (callOf sent turn).2 (beginCall c turn.1 st)).1 = .success then _
      else _) = _
    rw [pollPaths_callOf, if_pos rfl]
    show (reconstruct c
      (pollPaths c (callOf sent turn).2 (beginCall c turn.1 st)).2 {}).1 = _
    rw [pollPaths_callOf]
  rw [pollPaths_callOf] at hPolled
  obtain ⟨hRep, -, hPolledNow, hKept⟩ := hPolled
  have hArrived : Stage c s0 startTime (r.arriveAll (beginCall c turn.1 st).now
      ((arrivalsOf turn).map Prod.snd))
      (receivePackets c sent (arrivalsOf turn) (beginCall c turn.1 st)) := by
    refine hBegun.receiveAll hW _ (fun a ha => ?_) (fun hStill a ha => ?_) fun hMem => ?_
    · have hMem : a.2 ∈ turn.2.flatMap Prod.snd := by
        rw [← map_snd_arrivalsOf]
        exact List.mem_map_of_mem ha
      rw [hNow]
      exact ⟨hCall.readable _ hMem, hCall.synced (List.ne_nil_of_mem hMem),
        hSound.next_le hCall.skew hMem, hCall.room _ hMem⟩
    · refine hCall.first (hIdle hStill) a.2 ?_
      rw [← map_snd_arrivalsOf, List.head?_map, Option.mem_def.mp ha]
      rfl
    · refine hCall.noRestart ?_
      rw [hState]
      exact (IpoMoves.events_suffix (moves_reconstruct hRep)).subset hMem
  rw [map_snd_arrivalsOf, hNow] at hArrived
  rw [hState]
  generalize receivePackets c sent (arrivalsOf turn) (beginCall c turn.1 st) = polled
    at hArrived hRep hPolledNow hKept
  have hNext : arrived.next = r.next := next_arriveAll r turn.1 _
  have hComplete : Complete _ arrived := hRun.complete.turn turn.1 _
  have hArrivedSound : Sound c.maxPathDifferential _ arrived :=
    hSound.arriveAll hTurn _ fun _ hk => hk
  have hStage : Stage c s0 startTime arrived polled := hArrived
  rw [← hNext]
  clear hArrived
  clear_value arrived
  cases hStage with
  | idle hIdle =>
    -- before the first packet nothing is reconstructed
    have hSame : (reconstruct c polled {}).1 = polled := by
      unfold reconstruct
      rw [if_pos (by rw [hIdle.state_eq]; decide)]
    rw [hSame]
    exact ⟨{}, .refl, .idle hIdle, nofun⟩
  | running hTracks =>
    rw [← hPolledNow] at hKept
    obtain ⟨r', hReleases, hAfter, hProgress⟩ := hTracks.reconstruct hRep hKept
      (fun k t hLater hSeen hDue => hArrivedSound.next_seen hCall.skew hComplete hSeen
        (hPolledNow ▸ hDue) hLater) {}
    rw [hPolledNow] at hReleases hProgress
    exact ⟨r', hReleases, .running hAfter, hProgress⟩

/-! ## Runs -/

theorem Feed.schedule_append (past : Feed) (turn : Int × List (Nat × List Nat)) :
    Feed.schedule (past ++ [turn]) =
      past.schedule ++ [(turn.1, turn.2.flatMap Prod.snd)] :=
  List.map_append

theorem receive_append (t0 : Int) (past : Feed) (turn : Int × List (Nat × List Nat)) :
    receive c sent t0 (past ++ [turn]) =
      nextState c (callOf sent turn).1 (callOf sent turn).2 (receive c sent t0 past) := by
  unfold receive runCalls
  rw [List.map_append, List.foldl_append]
  rfl

theorem reachable_receive (t0 : Int) (feed : Feed) : Reachable c (receive c sent t0 feed) :=
  reachable_runCalls _ (.start t0 .created (.inl rfl))

/-- The clock of a run. -/
theorem reachableBy_receive {t0 : Int} (feed : Feed)
    (hClock : feed.schedule.Pairwise fun a b => a.1 ≤ b.1) :
    ∀ {now : Int}, (∀ turn ∈ feed.schedule, t0 ≤ turn.1) →
      (∀ turn ∈ feed.schedule, turn.1 ≤ now) → t0 ≤ now →
      ∃ t ≤ now, ReachableBy c t (receive c sent t0 feed) := by
  induction feed using List.reverseRecOn with
  | nil =>
    intro now _ _ hNow
    exact ⟨t0, hNow, .start t0 (.created t0) (Int.le_refl t0) (.inl rfl)⟩
  | append_singleton past turn ih =>
    intro now hStarted hBefore _
    rw [Feed.schedule_append] at hClock hStarted hBefore
    obtain ⟨hPast, -, hLast⟩ := List.pairwise_append.mp hClock
    -- the turns of the past come before this one
    obtain ⟨t, hLe, hReach⟩ : ∃ t ≤ turn.1, ReachableBy c t (receive c sent t0 past) :=
      ih hPast (fun a ha => hStarted a (List.mem_append_left _ ha))
        (fun a ha => hLast a ha _ (List.mem_singleton_self _))
        (hStarted _ (List.mem_append_right _ (List.mem_singleton_self _)))
    refine ⟨turn.1, hBefore _ (List.mem_append_right _ (List.mem_singleton_self _)), ?_⟩
    rw [receive_append]
    exact .getNextChunk turn.1 _ hReach hLe

theorem Undisturbed.reachableBy {t0 : Int} {past : Feed} {turn : Int × List (Nat × List Nat)}
    (h : Undisturbed c sent t0 (past ++ [turn])) :
    ∃ t ≤ turn.1, ReachableBy c t (receive c sent t0 past) := by
  have hClock := h.skew.clock
  have hStarted := h.started
  rw [Feed.schedule_append] at hClock hStarted
  obtain ⟨hPast, -, hLast⟩ := List.pairwise_append.mp hClock
  exact reachableBy_receive past hPast (fun a ha => hStarted a (List.mem_append_left _ ha))
    (fun a ha => hLast a ha _ (List.mem_singleton_self _))
    (hStarted _ (List.mem_append_right _ (List.mem_singleton_self _)))

theorem Undisturbed.of_append {t0 : Int} {past : Feed} {turn : Int × List (Nat × List Nat)}
    (h : Undisturbed c sent t0 (past ++ [turn])) : Undisturbed c sent t0 past := by
  have hSplit := Feed.schedule_append past turn
  have hMem {a : Int × List Nat} (ha : a ∈ past.schedule) : a ∈ Feed.schedule (past ++ [turn]) := by
    rw [hSplit]
    exact List.mem_append_left _ ha
  refine ⟨?_, fun a ha => h.started a (hMem ha), ?_, fun a ha => h.synced a (hMem ha), ?_, ?_⟩
  · have hSkew := h.skew
    rw [hSplit] at hSkew
    exact hSkew.of_append
  · intro k hk
    refine h.first k ?_
    rw [hSplit, List.flatMap_append, List.head?_append, Option.mem_def.mp hk]
    rfl
  · intro i hi k hk
    have hRoom := h.room i (by rw [hSplit, List.length_append]; omega) k
    have hLength : past.schedule.length = past.length := List.length_map _
    simp only [hSplit, List.getElem_append_left hi] at hRoom
    rw [List.take_append_of_le_length (by omega)] at hRoom
    exact hRoom hk
  · intro hRestart
    refine h.noRestart ?_
    have hReach : Reachable c (receive c sent t0 past) := reachable_receive t0 past
    have hMoves := moves_getNextChunk (callOf sent turn).1 (callOf sent turn).2 {}
      (reachable_invariant hReach)
    rw [receive_append]
    exact (IpoMoves.events_suffix hMoves).subset hRestart

/-- Before the first packet nothing has come in. -/
theorem Stage.none_arrived {r : Resequencer Int} {st : IpoStream} (h : Stage c s0 startTime r st)
    (hIdle : Idle startTime st) {past : Schedule Int} (hComplete : Complete past r) :
    past.flatMap Prod.snd = [] := by
  cases h with
  | idle =>
    rw [List.flatMap_eq_nil_iff]
    intro turn hTurn
    refine List.eq_nil_iff_forall_not_mem.mpr fun k hk => ?_
    have := hComplete turn hTurn k hk
    cases this
  | running h =>
    rcases h.started with hState | hState <;> rw [hIdle.state_eq] at hState <;> cases hState

theorem SentBy.of_append {past : Feed} {turn : Int × List (Nat × List Nat)}
    (h : SentBy c s0 sent (past ++ [turn])) : SentBy c s0 sent past := by
  intro a ha
  refine h a ?_
  rw [Feed.schedule_append]
  exact List.mem_append_left _ ha

theorem Undisturbed.call {t0 : Int} {past : Feed} {turn : Int × List (Nat × List Nat)}
    (h : Undisturbed c sent t0 (past ++ [turn])) (hSent : SentBy c s0 sent (past ++ [turn]))
    {r : Resequencer Int}
    (hRun : Run c.maxPathDifferential past.schedule r)
    (hStage : Stage c s0 (t0 + c.maxPathDifferential) r (receive c sent t0 past)) :
    CallUndisturbed c s0 sent (t0 + c.maxPathDifferential) past.schedule turn r
      (receive c sent t0 past) := by
  have hSplit := Feed.schedule_append past turn
  have hLast : (turn.1, turn.2.flatMap Prod.snd) ∈ Feed.schedule (past ++ [turn]) := by
    rw [hSplit]
    exact List.mem_append_right _ (List.mem_singleton_self _)
  refine ⟨hSplit ▸ h.skew, hSent _ hLast, ?_, h.synced _ hLast, ?_,
    receive_append t0 past turn ▸ h.noRestart⟩
  · intro hIdle k hk
    refine h.first k ?_
    -- nothing came in before this turn
    rw [hSplit, List.flatMap_append, hStage.none_arrived hIdle hRun.complete, List.nil_append,
      List.flatMap_singleton]
    exact hk
  · intro k hk
    have hLength : past.schedule.length = past.length := List.length_map _
    have hRoom := h.room past.length (by rw [hSplit, List.length_append]; simp [hLength]) k
    simp only [hSplit, ← hLength, List.getElem_concat_length] at hRoom
    rw [hLength, List.take_append_of_le_length (Nat.le_refl _), List.take_length, hStage.out,
      List.length_reverse, List.length_map, List.length_range] at hRoom
    exact hRoom hk

/-- **The stream is a resequencer.** What a feed brings are its arrivals, what the
stream hands out are the items it lets go. -/
theorem run_receive (hW : c.sequenceNumberWrapAround ∣ c.sequenceSpace) {t0 : Int} {feed : Feed}
    (hSent : SentBy c s0 sent feed) (h : Undisturbed c sent t0 feed) :
    ∃ r, Run c.maxPathDifferential feed.schedule r ∧
      Stage c s0 (t0 + c.maxPathDifferential) r (receive c sent t0 feed) := by
  induction feed using List.reverseRecOn with
  | nil => exact ⟨{}, .start, .idle ⟨rfl, rfl, fun _ => rfl, rfl⟩⟩
  | append_singleton past turn ih =>
    obtain ⟨r, hRun, hStage⟩ := ih hSent.of_append h.of_append
    obtain ⟨t, hClock, hReach⟩ := h.reachableBy
    obtain ⟨r', hReleases, hAfter, -⟩ := hStage.call hW hRun hReach hClock
      (h.call hSent hRun hStage)
    rw [Feed.schedule_append, receive_append]
    exact ⟨r', .turn turn.1 _ hRun hReleases, hAfter⟩

/-- **Lossless reconstruction.** While every packet comes in on one of the paths and
no copy is later than the path differential, the stream hands out the packets of
the sender from the first one on, in order and each once, only such as have come
in; and what has come in was handed out or is in the buffer. -/
theorem handsOut_whatWasSent (hW : c.sequenceNumberWrapAround ∣ c.sequenceSpace) {t0 : Int}
    {feed : Feed} (hSent : SentBy c s0 sent feed) (h : Undisturbed c sent t0 feed) :
    let st := receive c sent t0 feed
    ∃ n, (handedOut st.events).reverse = (List.range n).map (sentNumber c s0) ∧
      (∀ k < n, ∃ turn ∈ feed.schedule, k ∈ turn.2) ∧
      ∀ turn ∈ feed.schedule, ∀ k ∈ turn.2, n ≤ k →
        (st.extPacketInfoArr (slotOf c s0 k)).isValid = true ∧
          (st.extPacketInfoArr (slotOf c s0 k)).sequenceNumber = sentNumber c s0 k := by
  intro st
  obtain ⟨r, hRun, hStage⟩ := run_receive hW hSent h
  refine ⟨r.next, ?_, fun k hk => ?_, fun turn hTurn k hk hNext => ?_⟩
  · rw [hStage.out, List.reverse_reverse]
  · obtain ⟨t, hSeen, -⟩ := hRun.sound.due k hk
    obtain ⟨turn, hTurn, -, hMem⟩ := hRun.sound.seen k t hSeen
    exact ⟨turn, hTurn, hMem⟩
  · obtain ⟨t, hSeen⟩ := Option.isSome_iff_exists.mp (hRun.complete turn hTurn k hk)
    cases hStage with
    | idle => cases hSeen
    | running hTracks =>
      have hKept := hTracks.kept k t hNext hSeen
      exact ⟨hKept.valid, hKept.number⟩

/-- The test packets carry their number. -/
theorem rtpSequenceNumber_rtpPacket {s : Nat} (hs : s < 2 ^ 16) :
    rtpSequenceNumber false (rtpPacket s).header 12 = some s := by
  have hVersion : ¬(12 < 4 ∨ (rtpPacket s).header 0 &&& 0xC0 ≠ 0x80) := by
    show ¬(12 < 4 ∨ (0x80 : UInt8) &&& 0xC0 ≠ 0x80)
    decide
  rw [rtpSequenceNumber, if_neg hVersion]
  show some ((UInt8.ofNat s).toNat ||| (UInt8.ofNat (s >>> 8)).toNat <<< 8) = some s
  rw [Nat.shiftRight_eq_div_pow]
  exact congrArg some (halfWord_of_bytes hs)

/-- A stream that is about to wrap, in test packets. -/
def wrappingSender (k : Nat) : ReceivedPacket := rtpPacket (sentNumber fourSlots 65534 k)

theorem sentBy_wrappingSender (feed : Feed) : SentBy fourSlots 65534 wrappingSender feed :=
  fun _ _ _ _ => rtpSequenceNumber_rtpPacket (Nat.mod_lt _ (by decide))

/-- Path 0 loses packet 1 and overtakes with packet 2; path 1 loses packet 3. -/
def lossyFeed : Feed :=
  [(50000, [(0, [0, 2]), (1, [0])]), (60000, [(0, [3]), (1, [1, 2])])]

theorem undisturbed_lossyFeed (idle : Feed)
    (hIdle : idle = [] ∨ idle = [(120001, []), (120002, []), (120003, []), (120004, [])]) :
    Undisturbed fourSlots wrappingSender 0 (lossyFeed ++ idle) := by
  rcases hIdle with rfl | rfl
  all_goals
    exact ⟨⟨by decide, by decide, by decide +kernel⟩, by decide, by decide, by decide,
      by decide +kernel, by decide +kernel⟩

/-- Both losses are made good: the four packets are waiting, in order. -/
theorem handsOut_whatWasSent_lossyFeed :
    let st := receive fourSlots wrappingSender 0 lossyFeed
    ∃ n, (handedOut st.events).reverse = (List.range n).map (sentNumber fourSlots 65534) ∧
      (∀ k < n, ∃ turn ∈ lossyFeed.schedule, k ∈ turn.2) ∧
      ∀ turn ∈ lossyFeed.schedule, ∀ k ∈ turn.2, n ≤ k →
        (st.extPacketInfoArr (slotOf fourSlots 65534 k)).isValid = true ∧
          (st.extPacketInfoArr (slotOf fourSlots 65534 k)).sequenceNumber =
            sentNumber fourSlots 65534 k :=
  handsOut_whatWasSent (by decide) (sentBy_wrappingSender lossyFeed)
    (undisturbed_lossyFeed [] (.inl rfl))

/-! ## Running empty -/

/-- Calls that bring no packets, all of them later than the hold time of what came
in before. -/
structure Drains (d : Int) (traffic idle : Feed) : Prop where
  none : ∀ turn ∈ idle.schedule, turn.2 = []
  late : ∀ turn ∈ idle.schedule, ∀ early ∈ traffic.schedule, early.2 ≠ [] → early.1 + d < turn.1

theorem Drains.of_append {d : Int} {traffic idle : Feed} {turn : Int × List (Nat × List Nat)}
    (h : Drains d traffic (idle ++ [turn])) : Drains d traffic idle := by
  have hMem {a : Int × List Nat} (ha : a ∈ idle.schedule) : a ∈ Feed.schedule (idle ++ [turn]) := by
    rw [Feed.schedule_append]
    exact List.mem_append_left _ ha
  exact ⟨fun a ha => h.none a (hMem ha), fun a ha => h.late a (hMem ha)⟩

/-- With every such call a packet goes, until none is left. -/
theorem run_drains (hW : c.sequenceNumberWrapAround ∣ c.sequenceSpace) {t0 : Int}
    {traffic idle : Feed} (hSent : SentBy c s0 sent (traffic ++ idle))
    (h : Undisturbed c sent t0 (traffic ++ idle))
    (hIdle : Drains c.maxPathDifferential traffic idle) :
    ∃ r, Run c.maxPathDifferential (Feed.schedule (traffic ++ idle)) r ∧
      Stage c s0 (t0 + c.maxPathDifferential) r (receive c sent t0 (traffic ++ idle)) ∧
      ((∀ turn ∈ traffic.schedule, ∀ k ∈ turn.2, k < r.next) ∨ idle.length ≤ r.next) := by
  induction idle using List.reverseRecOn with
  | nil =>
    rw [List.append_nil] at hSent h ⊢
    obtain ⟨r, hRun, hStage⟩ := run_receive hW hSent h
    exact ⟨r, hRun, hStage, .inr (Nat.zero_le _)⟩
  | append_singleton idle turn ih =>
    rw [← List.append_assoc] at hSent h ⊢
    obtain ⟨r, hRun, hStage, hSoFar⟩ := ih hSent.of_append h.of_append hIdle.of_append
    obtain ⟨t, hClock, hReach⟩ := h.reachableBy
    have hCall := h.call hSent hRun hStage
    obtain ⟨r', hReleases, hAfter, hProgress⟩ := hStage.call hW hRun hReach hClock hCall
    have hLast : (turn.1, turn.2.flatMap Prod.snd) ∈ Feed.schedule (idle ++ [turn]) := by
      rw [Feed.schedule_append]
      exact List.mem_append_right _ (List.mem_singleton_self _)
    -- nothing comes in, so the resequencer only lets go
    have hNone : turn.2.flatMap Prod.snd = [] := hIdle.none _ hLast
    rw [Feed.schedule_append, receive_append]
    refine ⟨r', .turn turn.1 _ hRun hReleases, hAfter, ?_⟩
    rw [hNone] at hReleases hProgress
    have hMono : r.next ≤ r'.next := (firstSeen_of_releases hReleases).2
    by_cases hAll : ∀ early ∈ traffic.schedule, ∀ k ∈ early.2, k < r.next
    · exact .inl fun early hEarly k hk => Nat.lt_of_lt_of_le (hAll early hEarly k hk) hMono
    · push Not at hAll
      obtain ⟨early, hEarly, k, hk, hLeft⟩ := hAll
      -- a packet is left, and all that came in is due
      have hDueAll {j : Nat} {u : Int} (hSeen : r.firstSeen j = some u) :
          u + c.maxPathDifferential < turn.1 := by
        obtain ⟨at', hAt, rfl, hMem⟩ := hRun.sound.seen j u hSeen
        rw [Feed.schedule, List.map_append] at hAt
        rcases List.mem_append.mp hAt with hTraffic | hQuiet
        · exact hIdle.late _ hLast at' hTraffic (List.ne_nil_of_mem hMem)
        · rw [hIdle.of_append.none at' hQuiet] at hMem
          cases hMem
      have hMember : early ∈ Feed.schedule (traffic ++ idle) := by
        rw [Feed.schedule, List.map_append]
        exact List.mem_append_left _ hEarly
      obtain ⟨u, hSeen⟩ := Option.isSome_iff_exists.mp (hRun.complete early hMember k hk)
      have hComplete := hRun.complete.turn turn.1 (turn.2.flatMap Prod.snd)
      rw [hNone] at hComplete
      obtain ⟨v, hNext⟩ := (hRun.sound.mono (turn.1, [])).next_seen (hNone ▸ hCall.skew) hComplete
        hSeen (hDueAll hSeen) hLeft
      have hGoes : r.next < r'.next := hProgress v hNext (hDueAll hNext)
      rw [List.length_append, List.length_singleton]
      rcases hSoFar with hGone | hLength
      · have := hGone early hEarly k hk
        omega
      · exact .inr (by omega)

/-- After enough of these calls the resequencer has let everything go. -/
theorem run_emptied (hW : c.sequenceNumberWrapAround ∣ c.sequenceSpace) {t0 : Int}
    {traffic idle : Feed} (hSent : SentBy c s0 sent (traffic ++ idle))
    (h : Undisturbed c sent t0 (traffic ++ idle))
    (hIdle : Drains c.maxPathDifferential traffic idle)
    (hEnough : ∀ turn ∈ traffic.schedule, ∀ k ∈ turn.2, k < idle.length) :
    ∃ r, Stage c s0 (t0 + c.maxPathDifferential) r (receive c sent t0 (traffic ++ idle)) ∧
      ∀ k, k < r.next ↔ ∃ turn ∈ traffic.schedule, k ∈ turn.2 := by
  obtain ⟨r, hRun, hStage, hDone⟩ := run_drains hW hSent h hIdle
  refine ⟨r, hStage, fun k => ⟨fun hk => ?_, ?_⟩⟩
  · obtain ⟨t, hSeen, -⟩ := hRun.sound.due k hk
    obtain ⟨turn, hTurn, -, hMem⟩ := hRun.sound.seen k t hSeen
    rw [Feed.schedule, List.map_append] at hTurn
    rcases List.mem_append.mp hTurn with hTraffic | hQuiet
    · exact ⟨turn, hTraffic, hMem⟩
    · rw [hIdle.none turn hQuiet] at hMem
      cases hMem
  · rintro ⟨turn, hTurn, hk⟩
    rcases hDone with hGone | hLength
    · exact hGone turn hTurn k hk
    · exact Nat.lt_of_lt_of_le (hEnough turn hTurn k hk) hLength

/-- **Nothing is left behind.** Polled on for as many calls as packets were sent,
the stream hands out everything that came in, in order and each once. -/
theorem handsOut_everything (hW : c.sequenceNumberWrapAround ∣ c.sequenceSpace) {t0 : Int}
    {traffic idle : Feed} (hSent : SentBy c s0 sent (traffic ++ idle))
    (h : Undisturbed c sent t0 (traffic ++ idle))
    (hIdle : Drains c.maxPathDifferential traffic idle)
    (hEnough : ∀ turn ∈ traffic.schedule, ∀ k ∈ turn.2, k < idle.length) :
    ∃ n, (handedOut (receive c sent t0 (traffic ++ idle)).events).reverse =
        (List.range n).map (sentNumber c s0) ∧
      ∀ k, k < n ↔ ∃ turn ∈ traffic.schedule, k ∈ turn.2 := by
  obtain ⟨r, hStage, hAll⟩ := run_emptied hW hSent h hIdle hEnough
  exact ⟨r.next, by rw [hStage.out, List.reverse_reverse], hAll⟩

/-- Four calls later the stream has been handed out across the wrap. -/
theorem handsOut_everything_lossyFeed :
    ∃ n, (handedOut (receive fourSlots wrappingSender 0 (lossyFeed ++
        [(120001, []), (120002, []), (120003, []), (120004, [])])).events).reverse =
        (List.range n).map (sentNumber fourSlots 65534) ∧
      ∀ k, k < n ↔ ∃ turn ∈ lossyFeed.schedule, k ∈ turn.2 :=
  handsOut_everything (by decide) (sentBy_wrappingSender _)
    (undisturbed_lossyFeed _ (.inr rfl)) ⟨by decide, by decide⟩ (by decide)

end RivermaxDevKit
