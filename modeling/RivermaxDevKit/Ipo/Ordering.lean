import Mathlib.Data.Nat.Bitwise
import RivermaxDevKit.Ipo.Moves

/-!
# Inline Packet Ordering — delivery order

Between two resets the packets should come out in sequence-number order, each
at most once. The list of events is read backwards: `delivered` is what was
handed out since the last reset, `reference` the number the stream has reached.

* `seqSub_eq_dist` / `msb_test` — the masked `uint32_t` difference of the code
  is the forward distance, and the most-significant-bit test splits it in half.
* `InOrder` — the invariant: every kept packet lies strictly ahead of the last
  processed number, and its slot as far from the position as its number from
  the expected one.
* `deliveredInOrder_of_acceptedAhead` — the stream delivers in order as long as
  it accepts nothing it has already moved past.
* `deliveredInOrder_fails` — the skip of the initial synchronisation does not
  advance the last processed number, so the copy of a skipped packet that comes
  on the other path is accepted, and handed out after later packets.
-/

namespace RivermaxDevKit

open SerialNumber SlotArray

/-! ## What the events say -/

/-- The numbers handed to `complete_packet` since the last reset, newest first. -/
def delivered : List IpoEvent → List Nat
  | [] => []
  | .resync _ :: _ => []
  | .completePacket s :: rest => s :: delivered rest
  | _ :: rest => delivered rest

/-- Where the stream stands: the last number delivered or skipped since the
reset, or else the first packet accepted since then. -/
inductive Reference
  | unset
  | first (sequenceNumber : Nat)
  | moved (sequenceNumber : Nat)
  deriving DecidableEq, Repr

def reference : List IpoEvent → Reference
  | [] => .unset
  | .resync _ :: _ => .unset
  | .completePacket s :: _ => .moved s
  | .skipped s :: _ => .moved s
  | .handlePacket _ s _ :: rest =>
    match reference rest with
    | .unset => .first s
    | ref => ref
  | _ :: rest => reference rest

/-- The number accepted by the newest event, with the reference it met. -/
def accepted : List IpoEvent → Option (Reference × Nat)
  | .handlePacket _ s _ :: rest => some (reference rest, s)
  | _ => none

/-- `ok` holds of every number accepted so far at the time it was accepted. -/
def AcceptedAll (ok : Reference → Nat → Prop) (events : List IpoEvent) : Prop :=
  ∀ past ∈ events.tails, ∀ a ∈ accepted past, ok a.1 a.2

instance (ok : Reference → Nat → Prop) [∀ ref s, Decidable (ok ref s)]
    (events : List IpoEvent) : Decidable (AcceptedAll ok events) :=
  inferInstanceAs (Decidable (∀ past ∈ events.tails, ∀ a ∈ accepted past, ok a.1 a.2))

section Statement

variable (c : IpoConfig)

/-- Not `W` or more ahead of the reference. -/
def withinWindow : Reference → Nat → Prop
  | .unset, _ => True
  | .first x, s | .moved x, s =>
    dist c.sequenceSpace x s < c.sequenceSpace / 2 →
      dist c.sequenceSpace x s < c.sequenceNumberWrapAround

/-- Strictly ahead of what was delivered or skipped, and not behind the first
packet while nothing was. -/
def strictlyAhead : Reference → Nat → Prop
  | .unset, _ => True
  | .first x, s => dist c.sequenceSpace x s < c.sequenceSpace / 2
  | .moved x, s =>
    1 ≤ dist c.sequenceSpace x s ∧ dist c.sequenceSpace x s < c.sequenceSpace / 2

instance : ∀ ref s, Decidable (withinWindow c ref s)
  | .unset, _ => inferInstanceAs (Decidable True)
  | .first x, s | .moved x, s =>
    inferInstanceAs (Decidable (dist c.sequenceSpace x s < c.sequenceSpace / 2 →
      dist c.sequenceSpace x s < c.sequenceNumberWrapAround))

instance : ∀ ref s, Decidable (strictlyAhead c ref s)
  | .unset, _ => inferInstanceAs (Decidable True)
  | .first x, s =>
    inferInstanceAs (Decidable (dist c.sequenceSpace x s < c.sequenceSpace / 2))
  | .moved x, s =>
    inferInstanceAs (Decidable (1 ≤ dist c.sequenceSpace x s ∧
      dist c.sequenceSpace x s < c.sequenceSpace / 2))

def AcceptedWithinWindow (events : List IpoEvent) : Prop := AcceptedAll (withinWindow c) events

def AcceptedAhead (events : List IpoEvent) : Prop := AcceptedAll (strictlyAhead c) events

instance (events : List IpoEvent) : Decidable (AcceptedWithinWindow c events) :=
  inferInstanceAs (Decidable (AcceptedAll (withinWindow c) events))

instance (events : List IpoEvent) : Decidable (AcceptedAhead c events) :=
  inferInstanceAs (Decidable (AcceptedAll (strictlyAhead c) events))

/-- `newer` may be handed out right after `older`. -/
def Follows (newer older : Nat) : Prop :=
  1 ≤ dist c.sequenceSpace older newer ∧
    dist c.sequenceSpace older newer ≤ c.sequenceSpace / 2 - 1

instance (newer older : Nat) : Decidable (Follows c newer older) :=
  inferInstanceAs (Decidable (_ ∧ _))

/-- Since each reset, at any time: each number handed out follows the one
before it, and no stretch of less than a full turn of the number space hands
out a number twice. -/
structure DeliveredInOrder (events : List IpoEvent) : Prop where
  forward : ∀ past ∈ events.tails, (delivered past).IsChain (Follows c)
  once : ∀ past ∈ events.tails, ∀ first rest, (first :: rest) <:+: (delivered past).reverse →
    advance c.sequenceSpace first rest < c.sequenceSpace → (first :: rest).Nodup

end Statement

variable {c : IpoConfig}

/-! ## Masked differences -/

theorem sequenceSpace_pos : 0 < c.sequenceSpace := Nat.two_pow_pos _

theorem sequenceSpace_dvd : c.sequenceSpace ∣ 2 ^ 32 :=
  Nat.pow_dvd_pow 2 c.bits_le

theorem sequenceSpace_le : c.sequenceSpace ≤ 2 ^ 32 :=
  Nat.le_of_dvd (by decide) sequenceSpace_dvd

/-- Half of the number space is what the most significant bit stands for. -/
theorem sequenceSpace_half : c.sequenceSpace / 2 = 2 ^ (c.sequenceNumberBits - 1) := by
  have hBits := c.bits_ge
  unfold IpoConfig.sequenceSpace
  obtain ⟨n, hn⟩ : ∃ n, c.sequenceNumberBits = n + 1 := ⟨c.sequenceNumberBits - 1, by omega⟩
  rw [hn, Nat.pow_succ, Nat.mul_div_cancel _ (by decide), Nat.add_sub_cancel]

theorem seqSub_eq (a b : Nat) : c.seqSub a b = (a + (2 ^ 32 - b)) % c.sequenceSpace := by
  unfold IpoConfig.seqSub IpoConfig.getSequenceNumberMask
  rw [Nat.and_two_pow_sub_one_eq_mod, ← IpoConfig.sequenceSpace,
    Nat.mod_mod_of_dvd _ sequenceSpace_dvd]

theorem seqSub_lt (a b : Nat) : c.seqSub a b < c.sequenceSpace := by
  rw [seqSub_eq]
  exact Nat.mod_lt _ sequenceSpace_pos

/-- The masked difference from a number that wraps at 32 bits is its forward
distance. -/
theorem seqSub_mod (a b : Nat) : c.seqSub a (b % 2 ^ 32) = dist c.sequenceSpace b a := by
  symm
  apply dist_eq_of_add (seqSub_lt a _)
  -- the difference comes back to `a` after whole turns of 32 bits
  have hTurns : b + (a + (2 ^ 32 - b % 2 ^ 32)) = a + 2 ^ 32 * (b / 2 ^ 32 + 1) := by omega
  have hMultiple : c.sequenceSpace ∣ 2 ^ 32 * (b / 2 ^ 32 + 1) :=
    sequenceSpace_dvd.mul_right _
  rw [seqSub_eq, Nat.add_mod_mod, hTurns, Nat.add_mod, Nat.mod_eq_zero_of_dvd hMultiple,
    Nat.add_zero, Nat.mod_mod]

/-- The difference the code computes is the forward distance from `b` to `a`. -/
theorem seqSub_eq_dist {a b : Nat} (hb : b < c.sequenceSpace) :
    c.seqSub a b = dist c.sequenceSpace b a := by
  rw [← seqSub_mod, Nat.mod_eq_of_lt (hb.trans_le sequenceSpace_le)]

/-- A step forward counts the numbers it jumps over. -/
theorem seqSub_expected {s last : Nat} (hAhead : 1 ≤ dist c.sequenceSpace last s) :
    c.seqSub s ((last + 1) % 2 ^ 32) = dist c.sequenceSpace last s - 1 := by
  have hSucc := dist_succ_left sequenceSpace_pos hAhead
  rw [seqSub_mod, ← hSucc, SerialNumber.dist, SerialNumber.dist, Nat.mod_mod]

theorem sequenceNumberMsbMask_eq :
    c.sequenceNumberMsbMask = 2 ^ (c.sequenceNumberBits - 1) := by
  have hBits := c.bits_ge
  unfold IpoConfig.sequenceNumberMsbMask IpoConfig.getSequenceNumberMask
  obtain ⟨n, hn⟩ : ∃ n, c.sequenceNumberBits = n + 1 := ⟨c.sequenceNumberBits - 1, by omega⟩
  have hpos := Nat.two_pow_pos n
  rw [hn, Nat.add_sub_cancel, Nat.shiftRight_eq_div_pow, Nat.pow_succ]
  omega

/-- The bit test of `process_completion` on a difference. -/
theorem msb_test {delta : Nat} (hDelta : delta < c.sequenceSpace) :
    delta &&& c.sequenceNumberMsbMask = 0 ↔ delta < c.sequenceSpace / 2 := by
  have hBits := c.bits_ge
  rw [sequenceNumberMsbMask_eq, sequenceSpace_half, Nat.and_two_pow]
  obtain ⟨n, hn⟩ : ∃ n, c.sequenceNumberBits = n + 1 := ⟨c.sequenceNumberBits - 1, by omega⟩
  unfold IpoConfig.sequenceSpace at hDelta
  rw [hn] at hDelta ⊢
  rw [Nat.add_sub_cancel]
  have hpos := Nat.two_pow_pos n
  constructor
  · intro hBit
    -- a number from the half on has the bit, since it is below the whole
    by_contra hLe
    have : delta.testBit n = true := by
      rw [Nat.testBit_eq_decide_div_mod_eq]
      rw [Nat.pow_succ] at hDelta
      have hDiv : delta / 2 ^ n = 1 :=
        Nat.div_eq_of_lt_le (by omega) (by omega)
      simp [hDiv]
    rw [this, Bool.toNat_true] at hBit
    omega
  · intro hLt
    rw [Nat.testBit_lt_two_pow hLt, Bool.toNat_false, Nat.zero_mul]

/-! ## The invariant -/

/-- The number the position of the buffer stands for. -/
def expected (c : IpoConfig) : Reference → Option Nat
  | .unset => none
  | .first s => some s
  | .moved x => some ((x + 1) % c.sequenceSpace)

/-- A kept packet: ahead of the last processed number, and `offset` or more,
but less than the window, ahead of the expected one. -/
structure SlotAhead (c : IpoConfig) (last expectedNumber offset s : Nat) : Prop where
  lt_space : s < c.sequenceSpace
  offset_le : offset ≤ dist c.sequenceSpace expectedNumber s
  lt_window : dist c.sequenceSpace expectedNumber s < c.sequenceNumberWrapAround
  lt_half : dist c.sequenceSpace expectedNumber s < c.sequenceSpace / 2
  ahead : 1 ≤ dist c.sequenceSpace last s
  ahead_lt_half : dist c.sequenceSpace last s < c.sequenceSpace / 2

/-- The order invariant. `offset` is zero between calls; inside a call it is
the length of the gap that the position was moved over. -/
structure InOrder (c : IpoConfig) (offset : Nat) (st : IpoStream) : Prop where
  forward : ∀ past ∈ st.events.tails, (delivered past).IsChain (Follows c)
  last_lt : st.lastProcessedSequenceNumber < c.sequenceSpace
  last_delivered : ∀ p ∈ (delivered st.events).head?, st.lastProcessedSequenceNumber = p
  started : st.state = .running ∨ st.state = .waiting → reference st.events ≠ .unset
  position : ∀ e ∈ expected c (reference st.events),
    st.index = (e + offset) % c.sequenceNumberWrapAround
  slots : ∀ i < c.sequenceNumberWrapAround, (st.extPacketInfoArr i).isValid = true →
    ∃ e ∈ expected c (reference st.events),
      SlotAhead c st.lastProcessedSequenceNumber e offset (st.extPacketInfoArr i).sequenceNumber

/-- Both conditions on the packets accepted so far. -/
def Admitted (c : IpoConfig) (events : List IpoEvent) : Prop :=
  AcceptedWithinWindow c events ∧ AcceptedAhead c events

theorem acceptedAll_of_cons {ok : Reference → Nat → Prop} {e : IpoEvent} {events : List IpoEvent}
    (h : AcceptedAll ok (e :: events)) : AcceptedAll ok events := by
  intro past hPast
  apply h past
  rw [List.tails_cons]
  exact List.mem_cons_of_mem _ hPast

theorem Admitted.of_cons {e : IpoEvent} {events : List IpoEvent}
    (h : Admitted c (e :: events)) : Admitted c events :=
  ⟨acceptedAll_of_cons h.1, acceptedAll_of_cons h.2⟩

/-- What was accepted before stays accepted. -/
theorem Admitted.of_suffix {events events' : List IpoEvent} (h : Admitted c events')
    (hSuffix : events <:+ events') : Admitted c events := by
  obtain ⟨newer, rfl⟩ := hSuffix
  induction newer with
  | nil => exact h
  | cons e newer ih => exact ih h.of_cons

/-- What being admitted says about the packet accepted last. -/
theorem Admitted.newest {path s : Nat} {old : Option Nat} {events : List IpoEvent}
    (h : Admitted c (.handlePacket path s old :: events)) :
    withinWindow c (reference events) s ∧ strictlyAhead c (reference events) s := by
  have hMem : .handlePacket path s old :: events ∈
      (IpoEvent.handlePacket path s old :: events).tails := by
    rw [List.tails_cons]
    exact List.mem_cons_self
  exact ⟨h.1 _ hMem _ rfl, h.2 _ hMem _ rfl⟩

theorem forward_cons {e : IpoEvent} {events : List IpoEvent}
    (h : ∀ past ∈ events.tails, (delivered past).IsChain (Follows c))
    (hNew : (delivered (e :: events)).IsChain (Follows c)) :
    ∀ past ∈ (e :: events).tails, (delivered past).IsChain (Follows c) := by
  intro past hPast
  rw [List.tails_cons] at hPast
  rcases List.mem_cons.mp hPast with rfl | hOld
  · exact hNew
  · exact h past hOld

/-- An event that neither delivers, skips, accepts nor resets. -/
def PassiveEvent (e : IpoEvent) : Prop :=
  ∀ rest, delivered (e :: rest) = delivered rest ∧ reference (e :: rest) = reference rest

/-- An operation that touches neither the buffer nor the last processed number
keeps the order. -/
theorem inOrder_of_same_buffer {offset : Nat} {st st' : IpoStream} (h : InOrder c offset st)
    (hIndex : st'.index = st.index) (hArr : st'.extPacketInfoArr = st.extPacketInfoArr)
    (hLast : st'.lastProcessedSequenceNumber = st.lastProcessedSequenceNumber)
    (hState : st'.state = .running ∨ st'.state = .waiting →
      st.state = .running ∨ st.state = .waiting)
    (hEvents : st'.events = st.events ∨ ∃ e, st'.events = e :: st.events ∧ PassiveEvent e) :
    InOrder c offset st' := by
  -- the events say the same of what was delivered and reached
  have hSame : delivered st'.events = delivered st.events ∧
      reference st'.events = reference st.events := by
    rcases hEvents with hEq | ⟨e, hEq, hPassive⟩
    · rw [hEq]
      exact ⟨rfl, rfl⟩
    · rw [hEq]
      exact hPassive st.events
  refine ⟨?_, ?_, ?_, ?_, ?_, ?_⟩
  · rcases hEvents with hEq | ⟨e, hEq, hPassive⟩
    · rw [hEq]
      exact h.forward
    · rw [hEq]
      apply forward_cons h.forward
      rw [(hPassive st.events).1]
      exact h.forward _ (by simp)
  · rw [hLast]
    exact h.last_lt
  · rw [hLast, hSame.1]
    exact h.last_delivered
  · intro hRun
    rw [hSame.2]
    exact h.started (hState hRun)
  · rw [hIndex, hSame.2]
    exact h.position
  · rw [hArr, hLast, hSame.2]
    exact h.slots

/-! ### Taking a packet out -/

/-- The slot at the position holds the number the gap leads to. -/
theorem dist_expected_of_valid {offset e : Nat} {st : IpoStream}
    (hW : c.sequenceNumberWrapAround ∣ c.sequenceSpace) (hRep : IpoInvariant c st)
    (hPos : st.index = (e + offset) % c.sequenceNumberWrapAround) {i : Nat}
    (hi : i < c.sequenceNumberWrapAround) (hv : (st.extPacketInfoArr i).isValid = true)
    (hAhead : SlotAhead c st.lastProcessedSequenceNumber e offset
      (st.extPacketInfoArr i).sequenceNumber) :
    i = st.index ↔
      dist c.sequenceSpace e (st.extPacketInfoArr i).sequenceNumber = offset := by
  -- a packet sits where walking from the expected number leads
  have hSlot : (e + dist c.sequenceSpace e (st.extPacketInfoArr i).sequenceNumber) %
      c.sequenceNumberWrapAround = i := by
    rw [← Nat.mod_add_mod, mod_eq_of_dist sequenceSpace_pos hW, hRep.slot_mod i hi hv]
  have hOffset : offset < c.sequenceNumberWrapAround :=
    Nat.lt_of_le_of_lt hAhead.offset_le hAhead.lt_window
  constructor
  · intro hEq
    rw [hPos] at hEq
    exact mod_walk_inj hAhead.lt_window hOffset (hSlot.trans hEq)
  · intro hEq
    rw [hEq] at hSlot
    exact hSlot.symm.trans hPos.symm

theorem release_inOrder {offset : Nat} {st st' : IpoStream}
    (hW : c.sequenceNumberWrapAround ∣ c.sequenceSpace) (hRep : IpoInvariant c st)
    (h : InOrder c offset st) (hv : (st.extPacketInfoArr st.index).isValid = true)
    (hIndex : st'.index = c.nextIndex st.index)
    {slot : ExtPacketInfo} (hSlot : slot.isValid = false)
    (hArr : st'.extPacketInfoArr = Function.update st.extPacketInfoArr st.index slot)
    {s : Nat} (hs : s = (st.extPacketInfoArr st.index).sequenceNumber)
    {e : IpoEvent} (hEvents : st'.events = e :: st.events)
    (hOut : e = .skipped s ∧ st'.lastProcessedSequenceNumber = st.lastProcessedSequenceNumber ∨
      e = .completePacket s ∧ st'.lastProcessedSequenceNumber = s) :
    InOrder c 0 st' := by
  -- the packet at the position is the nearest: exactly `offset` ahead
  obtain ⟨x, hx, hHead⟩ := h.slots st.index hRep.index_lt hv
  have hOffset := (dist_expected_of_valid hW hRep (h.position x hx) hRep.index_lt hv hHead).mp rfl
  have hRef : reference st'.events = .moved s := by
    rw [hEvents]
    rcases hOut with ⟨rfl, -⟩ | ⟨rfl, -⟩ <;> rfl
  rw [← hs] at hHead hOffset
  -- what is kept lies strictly ahead of the packet taken out
  have hRest : ∀ i < c.sequenceNumberWrapAround, i ≠ st.index →
      (st.extPacketInfoArr i).isValid = true →
      1 ≤ dist c.sequenceSpace s (st.extPacketInfoArr i).sequenceNumber ∧
        SlotAhead c st.lastProcessedSequenceNumber x offset
          (st.extPacketInfoArr i).sequenceNumber ∧
        dist c.sequenceSpace s (st.extPacketInfoArr i).sequenceNumber ≤
          dist c.sequenceSpace x (st.extPacketInfoArr i).sequenceNumber := by
    intro i hi hne hvi
    obtain ⟨y, hy, hAhead⟩ := h.slots i hi hvi
    obtain rfl : x = y := Option.mem_unique hx hy
    have hne' := mt (dist_expected_of_valid hW hRep (h.position x hx) hi hvi hAhead).mpr hne
    have hle := hAhead.offset_le
    have hsub := dist_sub (M := c.sequenceSpace) sequenceSpace_pos (a := x) (b := s)
      (c := (st.extPacketInfoArr i).sequenceNumber) (by omega)
    exact ⟨by omega, hAhead, by omega⟩
  refine ⟨?_, ?_, ?_, ?_, ?_, ?_⟩
  · rw [hEvents]
    apply forward_cons h.forward
    have hOld := h.forward st.events (by simp)
    -- a skipped packet delivers nothing, another follows the last one delivered
    rcases hOut with ⟨rfl, -⟩ | ⟨rfl, -⟩
    · exact hOld
    · rw [delivered, List.isChain_cons]
      refine ⟨?_, hOld⟩
      intro p hp
      have hLast := h.last_delivered p hp
      have h1 := hHead.ahead
      have h2 := hHead.ahead_lt_half
      rw [hLast] at h1 h2
      exact ⟨h1, by omega⟩
  · rcases hOut with ⟨-, hLast⟩ | ⟨-, hLast⟩ <;> rw [hLast]
    · exact h.last_lt
    · exact hHead.lt_space
  · rw [hEvents]
    rcases hOut with ⟨rfl, hLast⟩ | ⟨rfl, hLast⟩
    · rw [hLast]
      exact h.last_delivered
    · intro p hp
      rw [delivered, List.head?_cons, Option.mem_some_iff] at hp
      rw [hLast, hp]
  · intro _
    rw [hRef]
    -- the stream has moved to the packet taken out
    exact Reference.noConfusion
  · rw [hRef]
    intro y hy
    obtain rfl := Option.mem_some_iff.mp hy
    -- the next slot is that of the next number
    rw [Nat.add_zero, Nat.mod_mod_of_dvd _ hW, hIndex, nextIndex_eq hRep.index_lt,
      ← hRep.slot_mod st.index hRep.index_lt hv, ← hs, Nat.mod_add_mod]
  · intro i hi hvi
    rw [hRef]
    refine ⟨_, rfl, ?_⟩
    rw [hArr] at hvi ⊢
    by_cases hEq : i = st.index
    · subst hEq
      -- the slot at the position is free now
      rw [Function.update_self, hSlot] at hvi
      exact absurd hvi (by decide)
    · rw [Function.update_of_ne hEq] at hvi ⊢
      -- the other packets are one nearer to the expected number
      obtain ⟨hPos, hAhead, hle⟩ := hRest i hi hEq hvi
      have hnext := dist_succ_left (M := c.sequenceSpace) sequenceSpace_pos hPos
      have hwin := hAhead.lt_window
      have hhalf := hAhead.lt_half
      refine ⟨hAhead.lt_space, Nat.zero_le _, by omega, by omega, ?_, ?_⟩
      · rcases hOut with ⟨-, hLast⟩ | ⟨-, hLast⟩ <;> rw [hLast]
        · exact hAhead.ahead
        · exact hPos
      · rcases hOut with ⟨-, hLast⟩ | ⟨-, hLast⟩ <;> rw [hLast]
        · exact hAhead.ahead_lt_half
        · omega

/-! ### Accepting a packet -/

theorem reference_handlePacket {path s : Nat} {old : Option Nat} {events : List IpoEvent}
    (h : reference events ≠ .unset) :
    reference (.handlePacket path s old :: events) = reference events := by
  rw [reference]
  cases hRef : reference events with
  | unset => exact absurd hRef h
  | first x => rfl
  | moved x => rfl

/-- An admitted packet belongs into the window that starts at the expected
number. -/
theorem dist_expected_of_admitted {ref : Reference} {x s : Nat} (hx : x ∈ expected c ref)
    (hWindow : withinWindow c ref s) (hAhead : strictlyAhead c ref s) :
    dist c.sequenceSpace x s < c.sequenceNumberWrapAround ∧
      dist c.sequenceSpace x s < c.sequenceSpace / 2 := by
  cases ref with
  | unset => cases hx
  | first y =>
    obtain rfl := Option.mem_some_iff.mp hx
    exact ⟨hWindow hAhead, hAhead⟩
  | moved y =>
    obtain rfl := Option.mem_some_iff.mp hx
    have hnext := dist_succ_left (M := c.sequenceSpace) sequenceSpace_pos hAhead.1
    have hwin := hWindow hAhead.2
    have hhalf := hAhead.2
    omega

theorem handlePacket_inOrder {path s : Nat} {info : ReceivePacketInfo} {st : IpoStream}
    (h : InOrder c 0 st) (hStarted : reference st.events ≠ .unset)
    (hs : s < c.sequenceSpace)
    (hPos : 1 ≤ dist c.sequenceSpace st.lastProcessedSequenceNumber s)
    (hHalf : dist c.sequenceSpace st.lastProcessedSequenceNumber s < c.sequenceSpace / 2)
    (hAdmitted : Admitted c (handlePacket c path s info st).events) :
    InOrder c 0 (handlePacket c path s info st) := by
  obtain ⟨hWindow, hAhead⟩ := hAdmitted.newest
  refine ⟨forward_cons h.forward (h.forward st.events (by simp)), h.last_lt, h.last_delivered,
    ?_, ?_, ?_⟩
  · intro _
    rw [handlePacket, reference_handlePacket hStarted]
    exact hStarted
  · intro x hx
    rw [handlePacket, reference_handlePacket hStarted] at hx
    exact h.position x hx
  · intro i hi hvi
    simp only [handlePacket, reference_handlePacket hStarted] at hvi ⊢
    by_cases hEq : i = s % c.sequenceNumberWrapAround
    · subst hEq
      -- the new packet lies in the window of the expected number
      rw [Function.update_self]
      obtain ⟨x, hx⟩ : ∃ x, x ∈ expected c (reference st.events) := by
        cases hRef : reference st.events with
        | unset => exact absurd hRef hStarted
        | first y => exact ⟨y, rfl⟩
        | moved y => exact ⟨_, rfl⟩
      obtain ⟨h1, h2⟩ := dist_expected_of_admitted hx hWindow hAhead
      exact ⟨x, hx, hs, Nat.zero_le _, h1, h2, hPos, hHalf⟩
    · rw [Function.update_of_ne hEq] at hvi ⊢
      -- the others stay where they are
      exact h.slots i hi hvi

/-- The state right after a resynchronisation with `s`, before the packet is
dispatched. -/
structure Fresh (c : IpoConfig) (s : Nat) (st : IpoStream) : Prop where
  forward : ∀ past ∈ st.events.tails, (delivered past).IsChain (Follows c)
  index_eq : st.index = s % c.sequenceNumberWrapAround
  last_eq : st.lastProcessedSequenceNumber = c.seqSub s c.sequenceNumberInitOffset
  no_reference : reference st.events = .unset
  none_delivered : delivered st.events = []
  empty : ∀ i < c.sequenceNumberWrapAround, (st.extPacketInfoArr i).isValid = false

/-- The initial offset is half of the largest distance that counts as ahead. -/
theorem dist_initOffset (s : Nat) :
    dist c.sequenceSpace (c.seqSub s c.sequenceNumberInitOffset) s = c.sequenceSpace / 4 := by
  have hLe := sequenceSpace_le (c := c)
  have hpos := sequenceSpace_pos (c := c)
  have hOffset : c.sequenceNumberInitOffset = c.sequenceSpace / 4 := by
    rw [IpoConfig.sequenceNumberInitOffset, getSequenceNumberMask_succ]
  apply dist_eq_of_add (Nat.div_lt_self hpos (by decide))
  rw [seqSub_eq, hOffset, Nat.mod_add_mod,
    show s + (2 ^ 32 - c.sequenceSpace / 4) + c.sequenceSpace / 4 = s + 2 ^ 32 by omega,
    Nat.add_mod, Nat.mod_eq_zero_of_dvd sequenceSpace_dvd, Nat.add_zero, Nat.mod_mod]

theorem four_le_sequenceSpace : 4 ≤ c.sequenceSpace :=
  Nat.pow_le_pow_right (n := 2) (by decide) c.bits_ge

/-- The packet that resynchronises the stream is itself accepted. -/
theorem dispatchPacket_of_fresh {path s : Nat} {info : ReceivePacketInfo} {st : IpoStream}
    (h : Fresh c s st) :
    dispatchPacket c path s info st = handlePacket c path s info st := by
  have h4 := four_le_sequenceSpace (c := c)
  -- the initial offset puts the packet a quarter of the space ahead
  have hDelta : c.seqSub s st.lastProcessedSequenceNumber = c.sequenceSpace / 4 := by
    rw [h.last_eq, seqSub_eq_dist (seqSub_lt _ _), dist_initOffset]
  have hQuarter : c.sequenceSpace / 4 < c.sequenceSpace := by omega
  have hMsb := (msb_test hQuarter).mpr (by omega)
  have hSlot := h.empty (s % c.sequenceNumberWrapAround) (Nat.mod_lt _ wrapAround_pos)
  unfold dispatchPacket
  simp only [hDelta, hMsb, hSlot]
  rw [if_neg (by simp; omega), if_pos (by simp)]

theorem handlePacket_fresh {path s : Nat} {info : ReceivePacketInfo} {st : IpoStream}
    (h : Fresh c s st) (hs : s < c.sequenceSpace) :
    InOrder c 0 (handlePacket c path s info st) := by
  have h4 := four_le_sequenceSpace (c := c)
  have hRef : reference (handlePacket c path s info st).events = .first s := by
    simp only [handlePacket, reference, h.no_reference]
  have hDelivered : delivered (handlePacket c path s info st).events = [] := h.none_delivered
  refine ⟨forward_cons h.forward (h.forward st.events (by simp)), ?_, ?_, ?_, ?_, ?_⟩
  · show st.lastProcessedSequenceNumber < _
    rw [h.last_eq]
    exact seqSub_lt _ _
  · rw [hDelivered]
    intro p hp
    cases hp
  · intro _
    rw [hRef]
    exact Reference.noConfusion
  · rw [hRef]
    intro x hx
    obtain rfl := Option.mem_some_iff.mp hx
    exact h.index_eq
  · intro i hi hvi
    rw [hRef]
    refine ⟨s, rfl, ?_⟩
    simp only [handlePacket] at hvi ⊢
    by_cases hEq : i = s % c.sequenceNumberWrapAround
    · subst hEq
      rw [Function.update_self, h.last_eq]
      -- the first packet is the expected one, a quarter ahead of the last number
      show SlotAhead c (c.seqSub s c.sequenceNumberInitOffset) s 0 s
      have hdist := dist_initOffset (c := c) s
      have hself := dist_self (M := c.sequenceSpace) sequenceSpace_pos s
      have hW := wrapAround_pos (c := c)
      exact ⟨hs, Nat.zero_le _, by omega, by omega, by omega, by omega⟩
    -- the buffer was empty
    · rw [Function.update_of_ne hEq, h.empty i hi] at hvi
      exact absurd hvi (by decide)

/-! ### Completions -/

theorem resync_fresh {offset s : Nat} {st : IpoStream} (hRep : IpoInvariant c st)
    (h : InOrder c offset st) (hIdle : st.state ≠ .running) : Fresh c s (resync c s st) := by
  refine ⟨forward_cons h.forward ?_, rfl, rfl, rfl, rfl, hRep.idle_empty hIdle⟩
  rw [delivered]
  exact List.isChain_nil

/-- A packet either finds the stream running in order, or resynchronises it. -/
theorem switchState_inOrder {s : Nat} {st : IpoStream} (hRep : IpoInvariant c st)
    (h : InOrder c 0 st) (hStarted : st.state ≠ .notStarted) :
    InOrder c 0 (switchState c s st) ∨ Fresh c s (switchState c s st) := by
  cases hState : st.state with
  | notStarted => exact absurd hState hStarted
  | running =>
    left
    simp only [switchState, hState]
    exact h
  | waitFirstPacket =>
    right
    have hFresh := resync_fresh (s := s) hRep h (by rw [hState]; decide)
    simp only [switchState, hState]
    exact ⟨hFresh.forward, hFresh.index_eq, hFresh.last_eq, hFresh.no_reference,
      hFresh.none_delivered, hFresh.empty⟩
  | waiting =>
    simp only [switchState, hState]
    split
    · right
      -- the sender has restarted after too long a gap
      have hRestarted : InOrder c 0 { st with events := .handleSenderRestart :: st.events } :=
        inOrder_of_same_buffer h rfl rfl rfl id (Or.inr ⟨_, rfl, fun _ => ⟨rfl, rfl⟩⟩)
      have hEmpty := hRep.idle_empty (by rw [hState]; decide)
      refine ⟨forward_cons hRestarted.forward ?_, rfl, rfl, rfl, rfl, hEmpty⟩
      rw [delivered]
      exact List.isChain_nil
    · left
      -- the wait was short: the stream goes on where it stands
      exact inOrder_of_same_buffer h rfl rfl rfl (fun _ => Or.inr hState) (Or.inl rfl)

theorem dispatchPacket_inOrder {path s : Nat} {info : ReceivePacketInfo} {st : IpoStream}
    (h : InOrder c 0 st) (hRun : st.state = .running) (hs : s < c.sequenceSpace)
    (hAdmitted : Admitted c (dispatchPacket c path s info st).events) :
    InOrder c 0 (dispatchPacket c path s info st) := by
  have hDelta := seqSub_eq_dist (c := c) (a := s) h.last_lt
  have hLt := seqSub_lt (c := c) s st.lastProcessedSequenceNumber
  unfold dispatchPacket at hAdmitted ⊢
  dsimp only at hAdmitted ⊢
  split
  · exact inOrder_of_same_buffer h rfl rfl rfl id (Or.inr ⟨_, rfl, fun _ => ⟨rfl, rfl⟩⟩)
  · rename_i hFit
    rw [if_neg hFit] at hAdmitted
    split
    · rename_i hNew
      rw [if_pos hNew] at hAdmitted
      rw [not_or, not_not] at hFit
      -- not late: the number lies in the half ahead
      have hHalf := (msb_test hLt).mp hFit.2
      exact handlePacket_inOrder h (h.started (Or.inl hRun)) hs (by omega) (by omega) hAdmitted
    · exact inOrder_of_same_buffer h rfl rfl rfl id (Or.inr ⟨_, rfl, fun _ => ⟨rfl, rfl⟩⟩)

/-- The order invariant for a state whose run kept to the conditions. -/
def Ordered (c : IpoConfig) (st : IpoStream) : Prop :=
  Admitted c st.events → InOrder c 0 st

theorem processPacket_ordered {path : Nat} {packet : ReceivedPacket} {st : IpoStream}
    (hRep : IpoInvariant c st) (hStarted : st.state ≠ .notStarted) (h : Ordered c st) :
    Ordered c (processPacket c path packet st) := by
  intro hAdmitted
  unfold processPacket at hAdmitted ⊢
  split
  · rename_i hParse
    rw [hParse] at hAdmitted
    -- a corrupted header only leaves an event
    exact inOrder_of_same_buffer (h hAdmitted.of_cons) rfl rfl rfl id
      (Or.inr ⟨_, rfl, fun _ => ⟨rfl, rfl⟩⟩)
  · rename_i s hParse
    rw [hParse] at hAdmitted
    have hs : s < c.sequenceSpace := c.seqn_lt _ _ s hParse
    have hMoves : IpoMoves c st (dispatchPacket c path s packet.info (switchState c s st)) :=
      (moves_switchState s st).trans (moves_dispatchPacket path hs packet.info _)
    -- what the packet accepted before was admitted as well
    have hOld := h (hAdmitted.of_suffix hMoves.events_suffix)
    rcases switchState_inOrder (s := s) hRep hOld hStarted with hSame | hFresh
    · exact dispatchPacket_inOrder hSame (switchState_running hStarted) hs hAdmitted
    · rw [dispatchPacket_of_fresh hFresh]
      exact handlePacket_fresh hFresh hs

theorem pollPaths_ordered (polls : List PathPoll) {st : IpoStream} (hRep : IpoInvariant c st)
    (hStarted : st.state ≠ .notStarted) (h : Ordered c st) :
    Ordered c (pollPaths c polls st).2 := by
  -- the packets keep the order of a stream that is started and well formed
  have hAll := pollPaths_keeps
    (P := fun st => (IpoInvariant c st ∧ st.state ≠ .notStarted) ∧ Ordered c st)
    (fun path packet _ h => ⟨processPacket_invariant path packet h.1.1 h.1.2,
      processPacket_ordered h.1.1 h.1.2 h.2⟩) polls ⟨⟨hRep, hStarted⟩, h⟩
  exact hAll.2

/-! ### Reconstruction -/

theorem skipPacket_inOrder {offset : Nat} {st : IpoStream}
    (hW : c.sequenceNumberWrapAround ∣ c.sequenceSpace) (hRep : IpoInvariant c st)
    (h : InOrder c offset st) (hv : (st.extPacketInfoArr st.index).isValid = true) :
    InOrder c 0 (skipPacket c st) :=
  release_inOrder hW hRep h hv rfl rfl rfl rfl rfl (Or.inl ⟨rfl, rfl⟩)

theorem transferPacket_inOrder {offset : Nat} {st : IpoStream}
    (hW : c.sequenceNumberWrapAround ∣ c.sequenceSpace) (hRep : IpoInvariant c st)
    (h : InOrder c offset st) (hv : (st.extPacketInfoArr st.index).isValid = true) :
    InOrder c 0 (transferPacket c st) :=
  release_inOrder hW hRep h hv rfl rfl rfl rfl rfl (Or.inr ⟨rfl, rfl⟩)

/-- The gap that was moved over closes with the first packet skipped; a skip
loop that skips nothing ends at the packet it started from. -/
theorem skipInitialSync_inOrder (fuel : Nat) {offset : Nat} {st : IpoStream}
    (hW : c.sequenceNumberWrapAround ∣ c.sequenceSpace) (hRep : IpoInvariant c st)
    (hRun : st.state = .running) (h : InOrder c offset st)
    (hFirst : offset = 0 ∨ 0 < fuel ∧ (st.extPacketInfoArr st.index).isValid = true) :
    InOrder c 0 (skipInitialSync c fuel st).1 ∨ skipInitialSync c fuel st = (st, true) := by
  induction fuel generalizing offset st with
  | zero =>
    rcases hFirst with rfl | ⟨hFuel, -⟩
    · exact Or.inl h
    · exact absurd hFuel (by decide)
  | succ fuel ih =>
    rw [skipInitialSync_succ]
    split
    · rename_i hv
      rcases hFirst with rfl | ⟨-, hValid⟩
      · exact Or.inl h
      · rw [hv] at hValid
        exact absurd hValid (by decide)
    · rename_i hv
      split
      -- nothing to skip: the position may stand behind the gap
      · exact Or.inr rfl
      · have hv' : (st.extPacketInfoArr st.index).isValid = true := by simpa using hv
        have hNext := skipPacket_inOrder hW hRep h hv'
        rcases ih (skipPacket_invariant hRep hv' hRun) hRun hNext (Or.inl rfl) with hDone | hSame
        · exact Or.inl hDone
        · rw [hSame]
          exact Or.inl hNext

/-- The position may stand behind a gap only if the first turn delivers. -/
theorem transferContiguous_inOrder {fuel offset : Nat} {st : IpoStream} {last size : Nat}
    (hW : c.sequenceNumberWrapAround ∣ c.sequenceSpace) (hRep : IpoInvariant c st)
    (hRun : st.state = .running) (h : InOrder c offset st)
    (hFirst : offset = 0 ∨ 0 < fuel ∧ (st.extPacketInfoArr st.index).isValid = true ∧
      ¬ st.now ≤ (st.extPacketInfoArr st.index).timestamp + c.maxPathDifferential) :
    InOrder c 0 (transferContiguous c fuel st last size).1 := by
  induction fuel generalizing offset st last size with
  | zero =>
    rcases hFirst with rfl | ⟨hFuel, -⟩
    · exact h
    · exact absurd hFuel (by decide)
  | succ fuel ih =>
    rw [transferContiguous_succ]
    split
    · rename_i hv
      rcases hFirst with rfl | ⟨-, hValid, -⟩
      · exact h
      · rw [hv] at hValid
        exact absurd hValid (by decide)
    · rename_i hv
      have hv' : (st.extPacketInfoArr st.index).isValid = true := by simpa using hv
      have hNext := transferPacket_inOrder hW hRep h hv'
      split
      · rename_i hEarly
        rcases hFirst with rfl | ⟨-, -, hRipe⟩
        · exact h
        -- the packet behind a gap is ripe, so the first turn delivers it
        · exact absurd hEarly hRipe
      · split
        · exact hNext
        · exact ih (transferPacket_invariant hRep hv' hRun) hRun hNext (Or.inl rfl)

/-- Moving the position to the end of a gap leaves no kept packet behind it. -/
theorem inOrder_moveIndex {startIdx : Nat} {st : IpoStream}
    (hW : c.sequenceNumberWrapAround ∣ c.sequenceSpace) (hRep : IpoInvariant c st)
    (h : InOrder c 0 st)
    (hSearch : searchValid c st.extPacketInfoArr c.sequenceNumberWrapAround st.index =
      some startIdx) :
    ∃ offset, InOrder c offset { st with index := startIdx } := by
  obtain ⟨k, hk, hIdx, -, hGap⟩ := searchValid_some hRep.index_lt hSearch
  refine ⟨k, h.forward, h.last_lt, h.last_delivered, h.started, ?_, ?_⟩
  · intro x hx
    have hPos := h.position x hx
    show startIdx = _
    rw [hIdx, hPos, Nat.add_zero, Nat.mod_add_mod]
  · intro i hi hvi
    obtain ⟨x, hx, hAhead⟩ := h.slots i hi hvi
    refine ⟨x, hx, hAhead.lt_space, ?_, hAhead.lt_window, hAhead.lt_half, hAhead.ahead,
      hAhead.ahead_lt_half⟩
    show k ≤ dist c.sequenceSpace x (st.extPacketInfoArr i).sequenceNumber
    -- a nearer packet would sit in the gap, which is empty
    by_contra hLess
    have hEmpty := hGap _ (Nat.lt_of_not_le hLess)
    have hSlot := mod_eq_of_dist (M := c.sequenceSpace) sequenceSpace_pos hW x
      (st.extPacketInfoArr i).sequenceNumber
    have hPos := h.position x hx
    rw [Nat.add_zero] at hPos
    rw [hPos, hSlot, hRep.slot_mod i hi hvi] at hEmpty
    rw [hEmpty] at hvi
    exact absurd hvi (by decide)

theorem reconstruct_inOrder {st : IpoStream} {chunk : IpoReceiveChunk}
    (hW : c.sequenceNumberWrapAround ∣ c.sequenceSpace) (hRep : IpoInvariant c st)
    (h : InOrder c 0 st) : InOrder c 0 (reconstruct c st chunk).1 := by
  have hDone := reconstructs (c := c) st chunk
  generalize reconstruct c st chunk = r at hDone ⊢
  cases hDone with
  | early => exact h
  | empty hRun => exact inOrder_of_same_buffer h rfl rfl rfl (fun _ => Or.inl hRun) (Or.inl rfl)
  | young => exact inOrder_of_same_buffer h rfl rfl rfl id (Or.inl rfl)
  | skipped hRun hSearch hSkip =>
    obtain ⟨-, -, -, hValid, -⟩ := searchValid_some hRep.index_lt hSearch
    have hMoved := invariant_of_searchValid hRep hSearch
    obtain ⟨offset, hGap⟩ := inOrder_moveIndex hW hRep h hSearch
    have hOrder := skipInitialSync_inOrder (c.sequenceNumberWrapAround + 1) hW hMoved hRun hGap
      (Or.inr ⟨Nat.succ_pos _, hValid⟩)
    rw [hSkip] at hOrder
    rcases hOrder with hKept | hSame
    · exact hKept
    -- a loop that skips nothing ends at a kept packet, and this one did not
    · exact absurd (congrArg Prod.snd hSame) (by simp)
  | delivered hRun _ hSearch hRipe hSkip =>
    obtain ⟨-, -, -, hValid, -⟩ := searchValid_some hRep.index_lt hSearch
    have hMoved := invariant_of_searchValid hRep hSearch
    obtain ⟨offset, hGap⟩ := inOrder_moveIndex hW hRep h hSearch
    have hOrder := skipInitialSync_inOrder (c.sequenceNumberWrapAround + 1) hW hMoved hRun hGap
      (Or.inr ⟨Nat.succ_pos _, hValid⟩)
    have hKept := skipInitialSync_invariant (c.sequenceNumberWrapAround + 1) hMoved hRun
    rw [hSkip] at hOrder hKept
    rcases hOrder with hSynced | hSame
    · exact transferContiguous_inOrder hW hKept.1 hKept.2 hSynced (Or.inl rfl)
    · -- nothing was skipped: the gap is closed by the first packet delivered
      obtain rfl := congrArg Prod.fst hSame
      exact transferContiguous_inOrder hW hMoved hRun hGap
        (Or.inr ⟨wrapAround_pos, hValid, hRipe⟩)

/-! ## Whole runs -/

theorem created_inOrder : InOrder c 0 {} where
  forward := by
    intro past hPast
    have hNil : past = [] := by simpa using hPast
    rw [hNil]
    exact List.isChain_nil
  last_lt := sequenceSpace_pos
  last_delivered := by
    intro p hp
    cases hp
  started := by
    intro hState
    rcases hState with h | h <;> cases h
  position := by
    intro x hx
    cases hx
  slots := by
    intro i _ hv
    cases hv

theorem beginCall_ordered {now : Int} {st : IpoStream} (h : Ordered c st) :
    Ordered c (beginCall c now st) := by
  intro hAdmitted
  unfold beginCall at hAdmitted ⊢
  split
  · rename_i hState
    rw [if_pos hState] at hAdmitted
    refine inOrder_of_same_buffer (h hAdmitted) rfl rfl rfl ?_ (Or.inl rfl)
    intro hRun
    -- the first call only waits for a packet
    rcases hRun with h | h <;> cases h
  · rename_i hState
    rw [if_neg hState] at hAdmitted
    exact inOrder_of_same_buffer (h hAdmitted) rfl rfl rfl id (Or.inl rfl)

theorem nextState_ordered {now : Int} {polls : List PathPoll} {st : IpoStream}
    (hW : c.sequenceNumberWrapAround ∣ c.sequenceSpace) (hRep : IpoInvariant c st)
    (h : Ordered c st) : Ordered c (nextState c now polls st) := by
  obtain ⟨hBegin, hStarted⟩ := beginCall_invariant now hRep
  have hPolled := pollPaths_ordered polls hBegin hStarted (beginCall_ordered h)
  have hPolledRep := pollPaths_invariant polls hBegin hStarted
  rw [nextState_eq]
  split
  · intro hAdmitted
    have hMoves : IpoMoves c _ (reconstruct c _ {}).1 := moves_reconstruct hPolledRep
    exact reconstruct_inOrder hW hPolledRep (hPolled (hAdmitted.of_suffix hMoves.events_suffix))
  · exact hPolled

theorem reachable_ordered {st : IpoStream}
    (hW : c.sequenceNumberWrapAround ∣ c.sequenceSpace) (hReach : Reachable c st) :
    Ordered c st := by
  induction hReach with
  | created => exact fun _ => created_inOrder
  | start now hReach hState ih =>
    intro hAdmitted
    refine inOrder_of_same_buffer (ih hAdmitted) rfl rfl rfl ?_ (Or.inl rfl)
    intro hRun
    rcases hRun with h | h <;> cases h
  | getNextChunk now polls hReach ih =>
    exact nextState_ordered hW (reachable_invariant hReach) ih

/-- A chain of numbers each of which follows the one before it repeats none
within a turn. -/
theorem once_of_forward {numbers : List Nat} (h : numbers.IsChain (Follows c)) {first : Nat}
    {rest : List Nat} (hStretch : (first :: rest) <:+: numbers.reverse)
    (hTurn : advance c.sequenceSpace first rest < c.sequenceSpace) : (first :: rest).Nodup := by
  have hRev : numbers.reverse.IsChain (fun older newer => Follows c newer older) :=
    List.isChain_reverse.mpr h
  apply nodup_of_advance_lt sequenceSpace_pos rest first hTurn
  -- each step of the stretch goes forward, and all together less than a turn
  have hInfix := List.IsChain.infix hRev hStretch
  exact hInfix.imp fun _ _ hFollows => hFollows.1

/-- **Delivery in order.** In every run whose buffer divides the number space,
that accepts no packet a window or more ahead, and that accepts only packets
strictly ahead of what it delivered or skipped, the packets come out in order
and at most once. -/
theorem deliveredInOrder_of_acceptedAhead {st : IpoStream} (hReach : Reachable c st)
    (hW : c.sequenceNumberWrapAround ∣ c.sequenceSpace)
    (hWindow : AcceptedWithinWindow c st.events) (hAhead : AcceptedAhead c st.events) :
    DeliveredInOrder c st.events := by
  have hInOrder := reachable_ordered hW hReach ⟨hWindow, hAhead⟩
  refine ⟨hInOrder.forward, ?_⟩
  intro past hPast first rest hStretch hTurn
  exact once_of_forward (hInOrder.forward past hPast) hStretch hTurn

/-- Two paths around the wrap of the number space. -/
def wrappingRun : List IpoCall :=
  [(0, [rtpPoll 0 [], rtpPoll 1 []]), (60000, [rtpPoll 0 [65534, 65535], rtpPoll 1 [65534]]),
    (70000, [rtpPoll 0 [0], rtpPoll 1 [65535, 0]]), (115000, [rtpPoll 0 [1], rtpPoll 1 []]),
    (180000, [rtpPoll 0 [], rtpPoll 1 [1]])]

theorem deliveredInOrder_of_acceptedAhead_wrappingRun :
    delivered (runCalls fourSlots wrappingRun {}).events = [1, 0, 65535, 65534] ∧
      DeliveredInOrder fourSlots (runCalls fourSlots wrappingRun {}).events := by
  have hReach : Reachable fourSlots (runCalls fourSlots wrappingRun {}) :=
    reachable_runCalls wrappingRun .created
  exact ⟨by decide +kernel, deliveredInOrder_of_acceptedAhead hReach (by decide +kernel)
    (by decide +kernel) (by decide +kernel)⟩

/-- Packet `100` is skipped during the initial synchronisation; its copy comes
on the other path with the next poll, together with `101`. -/
def lateCopyRun : List IpoCall :=
  [(0, [rtpPoll 0 [100], rtpPoll 1 []]), (51000, [rtpPoll 0 [], rtpPoll 1 []]),
    (52000, [rtpPoll 0 [101], rtpPoll 1 [100]]), (103000, [rtpPoll 0 [], rtpPoll 1 []]),
    (104000, [rtpPoll 0 [], rtpPoll 1 []]), (105000, [rtpPoll 0 [], rtpPoll 1 [101]]),
    (156000, [rtpPoll 0 [], rtpPoll 1 []])]

/-- **Out of order after an initial skip.** The copy of the skipped packet is
accepted and handed out after `101`, and then `101` a second time. -/
theorem deliveredInOrder_fails :
    Reachable fourSlots (runCalls fourSlots lateCopyRun {}) ∧
      fourSlots.sequenceNumberWrapAround ∣ fourSlots.sequenceSpace ∧
      (lateCopyRun.map Prod.fst).Pairwise (· ≤ ·) ∧
      AcceptedWithinWindow fourSlots (runCalls fourSlots lateCopyRun {}).events ∧
      delivered (runCalls fourSlots lateCopyRun {}).events = [101, 100, 101] ∧
      ¬ DeliveredInOrder fourSlots (runCalls fourSlots lateCopyRun {}).events := by
  refine ⟨reachable_runCalls lateCopyRun .created, by decide +kernel, by decide,
    by decide +kernel, by decide +kernel, ?_⟩
  intro h
  have hForward := h.forward
  revert hForward
  decide +kernel

end RivermaxDevKit
