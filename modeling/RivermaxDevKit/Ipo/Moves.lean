import Mathlib.Logic.Relation
import RivermaxDevKit.Ipo.Representation

/-!
# Inline Packet Ordering — moves

Everything a run does to the buffer and to the list of events, one change at a
time.

* `IpoMove` — the six kinds of change, with what the code knows when it makes
  them.
* `moves_getNextChunk` — every call is a sequence of moves; an invariant of moves
  holds of every reachable state.
-/

namespace RivermaxDevKit

variable {c : IpoConfig}

/-- Events that leave the buffer as it is. -/
def isMark : IpoEvent → Bool
  | .handleCorruptedPacket _ | .handleLatePacket _ _ | .handleSenderRestart | .resync _ => true
  | _ => false

inductive IpoMove (c : IpoConfig) : IpoStream → IpoStream → Prop
  | silent {st st' : IpoStream} (hArr : st'.extPacketInfoArr = st.extPacketInfoArr)
      (hEvents : st'.events = st.events) : IpoMove c st st'
  | mark {st st' : IpoStream} (e : IpoEvent) (hMark : isMark e = true)
      (hArr : st'.extPacketInfoArr = st.extPacketInfoArr)
      (hEvents : st'.events = e :: st.events) : IpoMove c st st'
  | store (path : Nat) {s : Nat} (hs : s < c.sequenceSpace) (info : ReceivePacketInfo)
      (st : IpoStream) : IpoMove c st (handlePacket c path s info st)
  | redundant {st : IpoStream} (path s : Nat)
      (hValid : (st.extPacketInfoArr (s % c.sequenceNumberWrapAround)).isValid = true)
      (hSame : (st.extPacketInfoArr (s % c.sequenceNumberWrapAround)).sequenceNumber = s) :
      IpoMove c st { st with events := .handleRedundantPacket path s :: st.events }
  | skip (st : IpoStream) : IpoMove c st (skipPacket c st)
  | transfer {st : IpoStream} (hValid : (st.extPacketInfoArr st.index).isValid = true)
      (hSlot : (st.extPacketInfoArr st.index).sequenceNumber % c.sequenceNumberWrapAround =
        st.index) :
      IpoMove c st (transferPacket c st)

abbrev IpoMoves (c : IpoConfig) : IpoStream → IpoStream → Prop := Relation.ReflTransGen (IpoMove c)

theorem IpoMove.moves {st st' : IpoStream} (h : IpoMove c st st') : IpoMoves c st st' :=
  Relation.ReflTransGen.single h

/-! ## Completions -/

theorem moves_switchState (s : Nat) (st : IpoStream) : IpoMoves c st (switchState c s st) := by
  unfold switchState
  split
  · exact .refl
  · exact .refl
  · exact .single (.mark (.resync s) rfl rfl rfl)
  · split
    · -- a restart is reported before the position is set again
      have hRestart : IpoMove c st { st with events := .handleSenderRestart :: st.events } :=
        .mark .handleSenderRestart rfl rfl rfl
      exact hRestart.moves.tail (.mark (.resync s) rfl rfl rfl)
    · exact .single (.silent rfl rfl)

theorem moves_dispatchPacket (path : Nat) {s : Nat} (hs : s < c.sequenceSpace)
    (info : ReceivePacketInfo) (st : IpoStream) :
    IpoMoves c st (dispatchPacket c path s info st) := by
  unfold dispatchPacket
  dsimp only
  split
  · exact .single (.mark (.handleLatePacket path s) rfl rfl rfl)
  · split
    · exact .single (.store path hs info st)
    · rename_i hKnown
      rw [not_or, Bool.not_eq_true', Bool.not_eq_false, not_not] at hKnown
      exact .single (.redundant path s hKnown.1 hKnown.2)

theorem moves_processPacket (path : Nat) (packet : ReceivedPacket) (st : IpoStream) :
    IpoMoves c st (processPacket c path packet st) := by
  unfold processPacket
  split
  · exact .single (.mark (.handleCorruptedPacket path) rfl rfl rfl)
  · rename_i s hParsed
    exact (moves_switchState s st).trans
      (moves_dispatchPacket path (c.seqn_lt _ _ s hParsed) packet.info _)

theorem moves_pollPaths (polls : List PathPoll) (st : IpoStream) :
    IpoMoves c st (pollPaths c polls st).2 :=
  pollPaths_keeps (P := IpoMoves c st)
    (fun path packet st' h => h.trans (moves_processPacket path packet st')) polls .refl

/-! ## Reconstruction -/

theorem moves_skipInitialSync (fuel : Nat) (st : IpoStream) :
    IpoMoves c st (skipInitialSync c fuel st).1 :=
  skipInitialSync_keeps (P := IpoMoves c st) (fun _ h => h.tail (.skip _)) fuel .refl

theorem moves_transferContiguous (fuel : Nat) {st : IpoStream} {last size : Nat}
    (h : IpoInvariant c st) (hRun : st.state = .running) :
    IpoMoves c st (transferContiguous c fuel st last size).1 := by
  -- the invariant says that a packet lies in its own slot
  have hAll := @transferContiguous_keeps c
    (fun st' => IpoMoves c st st' ∧ IpoInvariant c st' ∧ st'.state = .running)
    (fun hValid ⟨hMoves, hInv, hRunning⟩ =>
      ⟨hMoves.tail (.transfer hValid (hInv.slot_mod _ hInv.index_lt hValid)),
        transferPacket_invariant hInv hValid hRunning, hRunning⟩)
    fuel st last size ⟨.refl, h, hRun⟩
  exact hAll.1

theorem moves_reconstruct {st : IpoStream} {chunk : IpoReceiveChunk} (h : IpoInvariant c st) :
    IpoMoves c st (reconstruct c st chunk).1 := by
  have hDone := reconstructs (c := c) st chunk
  -- the position changes in silence, before the loops
  have hPosition (startIdx : Nat) : IpoMoves c st { st with index := startIdx } :=
    .single (.silent rfl rfl)
  generalize reconstruct c st chunk = r at hDone ⊢
  cases hDone with
  | early => exact .refl
  | empty => exact .single (.silent rfl rfl)
  | young => exact .single (.silent rfl rfl)
  | @skipped startIdx _ _ _ hSkip =>
    have hMoves := (hPosition startIdx).trans (moves_skipInitialSync (c := c)
      (c.sequenceNumberWrapAround + 1) { st with index := startIdx })
    rwa [hSkip] at hMoves
  | @delivered startIdx _ hRun _ hSearch _ hSkip =>
    have hMoves := (hPosition startIdx).trans (moves_skipInitialSync (c := c)
      (c.sequenceNumberWrapAround + 1) { st with index := startIdx })
    have hKept := skipInitialSync_invariant (c.sequenceNumberWrapAround + 1)
      (invariant_of_searchValid h hSearch) hRun
    rw [hSkip] at hMoves hKept
    exact hMoves.trans (moves_transferContiguous _ hKept.1 hKept.2)

/-! ## Runs -/

theorem moves_getNextChunk (now : Int) (polls : List PathPoll) {st : IpoStream}
    (chunk : IpoReceiveChunk) (h : IpoInvariant c st) :
    IpoMoves c st (getNextChunk c now polls st chunk).2.1 := by
  obtain ⟨hBegin, hStarted⟩ := beginCall_invariant now h
  have hPolled := pollPaths_invariant polls hBegin hStarted
  have hFirst : IpoMove c st (beginCall c now st) := by
    unfold beginCall
    split
    · exact .silent rfl rfl
    · exact .silent rfl rfl
  have hPollMoves := hFirst.moves.trans (moves_pollPaths polls _)
  unfold getNextChunk
  split
  · rename_i polled hEq
    rw [hEq] at hPolled hPollMoves
    exact hPollMoves.trans (moves_reconstruct hPolled)
  · rename_i hEq
    rw [hEq] at hPollMoves
    exact hPollMoves

/-- What holds at first, and is kept by every move, is kept by a run. -/
theorem invariant_of_moves {P : IpoStream → Prop}
    (hMove : ∀ {st st'}, IpoMove c st st' → P st → P st')
    {st st' : IpoStream} (h : IpoMoves c st st') (hFirst : P st) : P st' := by
  induction h with
  | refl => exact hFirst
  | tail _ hLast ih => exact hMove hLast ih

/-- Events are only added. -/
theorem IpoMove.events_suffix {st st' : IpoStream} (h : IpoMove c st st') :
    st.events <:+ st'.events := by
  cases h with
  | silent _ hEvents => exact hEvents ▸ List.suffix_rfl
  | mark e _ _ hEvents => exact hEvents ▸ List.suffix_cons e st.events
  | store path hs info => exact List.suffix_cons _ _
  | redundant path s _ _ => exact List.suffix_cons _ _
  | skip => exact List.suffix_cons _ _
  | transfer _ _ => exact List.suffix_cons _ _

theorem IpoMoves.events_suffix {st st' : IpoStream} (h : IpoMoves c st st') :
    st.events <:+ st'.events :=
  invariant_of_moves (fun hMove (hSuffix : _ <:+ _) => hSuffix.trans hMove.events_suffix) h
    List.suffix_rfl

end RivermaxDevKit
