import RivermaxDevKit.Ipo.Ordering
import RivermaxDevKit.Rtp.ReceiveStream

/-!
# Drop count of the RTP receiver

`process_packet_header` counts dropped packets by comparing each sequence number
with the one before it.

* `rxDropped_processHeaders` — the counter after every run, in any order.
* `dropsFaithful_iff` — it stays within the packets that never arrived exactly
  while each packet is ahead of the one before it.
-/

namespace RivermaxDevKit

open ByteStore SerialNumber

/-- The size of the sequence-number space of a stream. -/
def rtpSequenceSpace (isExtendedSequenceNumber : Bool) : Nat :=
  if isExtendedSequenceNumber then 2 ^ 32 else 2 ^ 16

/-- A header the stream accepts, with its sequence number less than half of the
space ahead of `base`. -/
structure Arrival (isExtendedSequenceNumber : Bool) (base : Nat) where
  header : Memory
  length : Nat
  info : ReceivePacketInfo
  ahead : Nat
  ahead_lt : ahead < rtpSequenceSpace isExtendedSequenceNumber / 2
  parsed : appRtpSequenceNumber isExtendedSequenceNumber header length =
    some ((base + ahead) % rtpSequenceSpace isExtendedSequenceNumber)

/-- How far ahead of `base` the numbers lie, in the order of arrival. -/
def aheads {ext : Bool} {base : Nat} (arrivals : List (Arrival ext base)) : List Nat :=
  arrivals.map Arrival.ahead

def processHeaders {ext : Bool} {base : Nat} (arrivals : List (Arrival ext base))
    (app : AppRTPReceiveStream) : AppRTPReceiveStream :=
  arrivals.foldl (fun app a => app.processPacketHeader a.header a.length a.info) app

/-- A stream that was just built, with a handler of frame starts or none. -/
def createRtpReceiveStream (isExtendedSequenceNumber isHeaderDataSplit : Bool)
    (frameNotifier : Option (List (Nat × Nat))) : AppRTPReceiveStream where
  isExtendedSequenceNumber := isExtendedSequenceNumber
  isHeaderDataSplit := isHeaderDataSplit
  frameNotifier := frameNotifier

/-- What is promised of the counter: no more than never arrived, and as many if
the numbers only grow. -/
structure DropsFaithful (numbers : List Nat) (s : RXStatistics) : Prop where
  bounded : s.rxDropped ≤ neverArrived numbers
  exact : numbers.Pairwise (· < ·) → s.rxDropped = neverArrived numbers

/-! ## One header -/

section Step

variable {ext : Bool} {base : Nat}

/-- The masked difference is the distance from the expected number. -/
theorem AppRTPReceiveStream.numDropped_eq_dist (app : AppRTPReceiveStream)
    (sequenceNumber : Nat) :
    app.numDropped sequenceNumber =
      dist (rtpSequenceSpace app.isExtendedSequenceNumber) (app.lastSequenceNumber + 1)
        sequenceNumber := by
  -- the difference of the redundant receiver, which is masked the same way
  have hDist := seqSub_mod (c := rtpConfig app.isExtendedSequenceNumber 1 (by decide) 0)
    sequenceNumber (app.lastSequenceNumber + 1)
  unfold numDropped sequenceNumberMask rtpSequenceSpace
  cases hExt : app.isExtendedSequenceNumber with
  | false =>
    rw [hExt] at hDist
    exact hDist
  | true =>
    rw [hExt] at hDist
    exact hDist

theorem rtpSequenceSpace_pos : 0 < rtpSequenceSpace ext := by
  cases ext <;> decide

theorem rtpSequenceSpace_le : rtpSequenceSpace ext ≤ 2 ^ 32 := by
  cases ext <;> decide

/-- The distances do not depend on the base. -/
theorem dist_of_aheads {M a b : Nat} (hM : 0 < M) :
    dist M ((base + a) % M + 1) ((base + b) % M) = dist M (a + 1) b := by
  -- from the expected number the distance leads to the new one
  refine dist_eq_of_add (dist_lt hM _ _) ?_
  have hAdd : a + 1 + dist M (a + 1) b ≡ b [MOD M] := add_dist hM (a + 1) b
  rw [Nat.mod_mod, Nat.add_assoc, Nat.mod_add_mod, show base + a + (1 + dist M (a + 1) b) =
    base + (a + 1 + dist M (a + 1) b) by omega]
  exact hAdd.add_left base

/-- The drop counters after headers with these numbers, and the last number. -/
structure DropState (ext : Bool) (base : Nat) (numbers : List Nat) (app : AppRTPReceiveStream) :
    Prop where
  extended : app.isExtendedSequenceNumber = ext
  dropped : app.statistic.rxDropped = skipped (rtpSequenceSpace ext) numbers % 2 ^ 64
  same : app.statisticTotals.rxDropped = app.statistic.rxDropped
  fresh : numbers = [] → app.initialized = false
  last : ∀ front a, numbers = front ++ [a] → app.initialized = true ∧
    app.lastSequenceNumber = (base + a) % rtpSequenceSpace ext

/-- What a valid header adds to the counter. -/
theorem DropState.added {numbers : List Nat} {app : AppRTPReceiveStream}
    (h : DropState ext base numbers app) (b : Nat) :
    (app.statistic.rxDropped + if app.initialized then
        app.numDropped ((base + b) % rtpSequenceSpace ext) else 0) % 2 ^ 64 =
      skipped (rtpSequenceSpace ext) (numbers ++ [b]) % 2 ^ 64 := by
  rcases List.eq_nil_or_concat' numbers with rfl | ⟨front, a, rfl⟩
  · -- the first header is compared with nothing
    rw [h.fresh rfl, h.dropped]
    simp [skipped]
  -- any later one with the header right before it
  · obtain ⟨hInitialized, hLast⟩ := h.last front a rfl
    rw [hInitialized, if_pos rfl, AppRTPReceiveStream.numDropped_eq_dist, h.extended, hLast,
      dist_of_aheads rtpSequenceSpace_pos, List.append_assoc, List.cons_append, List.nil_append,
      skipped_append, h.dropped, Nat.mod_add_mod]

/-- One header takes the state to that of one number more. -/
theorem DropState.processPacketHeader {numbers : List Nat} {app : AppRTPReceiveStream}
    (h : DropState ext base numbers app) (a : Arrival ext base) :
    DropState ext base (numbers ++ [a.ahead])
      (app.processPacketHeader a.header a.length a.info) := by
  have hAdded := h.added a.ahead
  have hSame := h.same
  unfold AppRTPReceiveStream.processPacketHeader
  rw [h.extended, a.parsed]
  dsimp only
  obtain ⟨frameNotifier, lastMbit, hNotified⟩ := AppRTPReceiveStream.notifyFrameStart_eq a.header
    a.info (app.countDropped ((base + a.ahead) % rtpSequenceSpace ext))
  -- the notifier touches no counter
  rw [hNotified]
  refine ⟨h.extended, hAdded, ?_, fun hNil => ?_, fun front b hLast => ?_⟩
  · show (app.statisticTotals.rxDropped + _) % 2 ^ 64 = (app.statistic.rxDropped + _) % 2 ^ 64
    rw [hSame]
  · simp at hNil
  -- the last number is the one just added
  · obtain ⟨-, hB⟩ := List.append_inj' hLast rfl
    obtain rfl : a.ahead = b := by simpa using hB
    exact ⟨rfl, rfl⟩

theorem dropState_create (split : Bool) (frameNotifier : Option (List (Nat × Nat))) :
    DropState ext base [] (createRtpReceiveStream ext split frameNotifier) :=
  ⟨rfl, rfl, rfl, fun _ => rfl, fun _ _ h => by simp at h⟩

theorem DropState.processHeaders {numbers : List Nat} {app : AppRTPReceiveStream}
    (h : DropState ext base numbers app) (arrivals : List (Arrival ext base)) :
    DropState ext base (numbers ++ aheads arrivals)
      (RivermaxDevKit.processHeaders arrivals app) := by
  induction arrivals generalizing numbers app with
  | nil =>
    rw [aheads, List.map_nil, List.append_nil]
    exact h
  | cons a arrivals ih =>
    -- the first header is a step, the others are a run from there
    have hRest := ih (h.processPacketHeader a)
    rwa [List.append_assoc] at hRest

/-- The counters after every run, in any order: what each number skips, from the
one before it. -/
theorem rxDropped_processHeaders (split : Bool) (frameNotifier : Option (List (Nat × Nat)))
    (arrivals : List (Arrival ext base)) :
    let app := processHeaders arrivals (createRtpReceiveStream ext split frameNotifier)
    app.statistic.rxDropped = skipped (rtpSequenceSpace ext) (aheads arrivals) % 2 ^ 64 ∧
      app.statisticTotals.rxDropped = app.statistic.rxDropped :=
  have h := (dropState_create split frameNotifier).processHeaders arrivals
  ⟨h.dropped, h.same⟩

end Step

/-! ## Runs -/

section Runs

variable {ext : Bool} {base : Nat}

theorem aheads_lt (arrivals : List (Arrival ext base)) :
    ∀ x ∈ aheads arrivals, x < rtpSequenceSpace ext / 2 := by
  intro x hx
  obtain ⟨a, -, rfl⟩ := List.mem_map.mp hx
  exact a.ahead_lt

/-- Numbers that only grow are counted as they should be. -/
theorem skipped_faithful {numbers : List Nat} (hBelow : ∀ x ∈ numbers, x < rtpSequenceSpace ext / 2)
    (hSorted : numbers.Pairwise (· < ·)) :
    skipped (rtpSequenceSpace ext) numbers % 2 ^ 64 = neverArrived numbers := by
  have hPos : 0 < rtpSequenceSpace ext / 2 := by cases ext <;> decide
  have hLe := @rtpSequenceSpace_le ext
  have hLt := neverArrived_lt hPos hBelow
  rw [skipped_of_increasing hSorted fun x hx => (hBelow x hx).trans (by omega)]
  exact Nat.mod_eq_of_lt (by omega)

/-- The first number that is not ahead makes the counter overshoot. -/
theorem skipped_overshoots {front : List Nat} {a b : Nat}
    (hBelow : ∀ x ∈ front ++ [a, b], x < rtpSequenceSpace ext / 2)
    (hSorted : (front ++ [a]).Pairwise (· < ·)) (hBack : b ≤ a) :
    neverArrived (front ++ [a, b]) < skipped (rtpSequenceSpace ext) (front ++ [a, b]) % 2 ^ 64 := by
  have hPos : 0 < rtpSequenceSpace ext / 2 := by cases ext <;> decide
  have hLe := @rtpSequenceSpace_le ext
  have hA : a < rtpSequenceSpace ext / 2 := hBelow a (by simp)
  have hFront : ∀ x ∈ front ++ [a], x < rtpSequenceSpace ext / 2 := fun x hx =>
    hBelow x (by simp at hx ⊢; tauto)
  have hArrived := neverArrived_lt hPos hBelow
  have hBefore := neverArrived_lt hPos hFront
  -- almost a full turn, while what never arrived stays below half of one
  have hStep := dist_succ_of_ge (M := rtpSequenceSpace ext) hBack (by omega)
  rw [skipped_append, skipped_of_increasing hSorted fun x hx => (hFront x hx).trans (by omega),
    hStep, Nat.mod_eq_of_lt (by omega)]
  omega

/-- A number that keeps the promise lies ahead of all before it. -/
theorem pairwise_append_of_bounded {numbers : List Nat} {b : Nat}
    (hBelow : ∀ x ∈ numbers ++ [b], x < rtpSequenceSpace ext / 2)
    (hSorted : numbers.Pairwise (· < ·))
    (hBounded : skipped (rtpSequenceSpace ext) (numbers ++ [b]) % 2 ^ 64 ≤
      neverArrived (numbers ++ [b])) :
    (numbers ++ [b]).Pairwise (· < ·) := by
  refine List.pairwise_append.mpr ⟨hSorted, List.pairwise_singleton _ b, ?_⟩
  rcases List.eq_nil_or_concat' numbers with rfl | ⟨front, a, rfl⟩
  · simp
  -- it is ahead of the last, or the counter would overshoot
  · have hStep : a < b := by
      by_contra hBack
      rw [List.append_assoc, List.cons_append, List.nil_append] at hBelow hBounded
      exact absurd (skipped_overshoots hBelow hSorted (Nat.not_lt.mp hBack))
        (Nat.not_lt.mpr hBounded)
    have hFront := (List.pairwise_append.mp hSorted).2.2
    intro x hx y hy
    obtain rfl : y = b := by simpa using hy
    rcases List.mem_append.mp hx with hx | hx
    · exact (hFront x hx a (by simp)).trans hStep
    · obtain rfl : x = a := by simpa using hx
      exact hStep

/-- **Drop count.** For every run of valid headers whose numbers lie less than
half of the space ahead of a base, with 16 and with 32 bits: the counters stay
as promised after every header exactly if the numbers strictly grow. -/
theorem dropsFaithful_iff (split : Bool) (frameNotifier : Option (List (Nat × Nat)))
    (arrivals : List (Arrival ext base)) :
    (∀ before, before <+: arrivals →
      let app := processHeaders before (createRtpReceiveStream ext split frameNotifier)
      DropsFaithful (aheads before) app.statistic ∧
        DropsFaithful (aheads before) app.statisticTotals) ↔
      (aheads arrivals).Pairwise (· < ·) := by
  constructor
  · induction arrivals using List.reverseRecOn with
    | nil => exact fun _ => List.Pairwise.nil
    | append_singleton arrivals c ih =>
      intro h
      -- the numbers before the last grow, by induction on the run
      have hSorted := ih fun before hPrefix => h before (hPrefix.trans (List.prefix_append _ _))
      have hBounded := (h (arrivals ++ [c]) List.prefix_rfl).1.bounded
      have hAheads : aheads (arrivals ++ [c]) = aheads arrivals ++ [c.ahead] := List.map_append
      have hBelow := aheads_lt (arrivals ++ [c])
      rw [(rxDropped_processHeaders split frameNotifier (arrivals ++ [c])).1] at hBounded
      rw [hAheads] at hBounded hBelow ⊢
      exact pairwise_append_of_bounded hBelow hSorted hBounded
  · intro hSorted before hPrefix
    -- a part of a run that grows does so too
    have hBefore : (aheads before).Pairwise (· < ·) :=
      hSorted.sublist (hPrefix.map Arrival.ahead).sublist
    obtain ⟨hDropped, hTotals⟩ := rxDropped_processHeaders split frameNotifier before
    have hExact := hDropped.trans (skipped_faithful (aheads_lt before) hBefore)
    exact ⟨⟨hExact.le, fun _ => hExact⟩, ⟨(hTotals.trans hExact).le, fun _ => hTotals.trans hExact⟩⟩

/-- The header of a packet that is the `n`-th after number `0xFFFF`. -/
def arrivalAfterWrap (n : Nat) (hn : n < 2 ^ 8) : Arrival false 0xFFFF where
  header := (rtpPacket ((0xFFFF + n) % 2 ^ 16)).header
  length := 12
  info := {}
  ahead := n
  ahead_lt := by
    show n < 2 ^ 16 / 2
    omega
  parsed := by
    -- the parser is run on each of the headers
    have hAll : ∀ n < 2 ^ 8, appRtpSequenceNumber false
        (rtpPacket ((0xFFFF + n) % 2 ^ 16)).header 12 = some ((0xFFFF + n) % 2 ^ 16) := by
      decide +kernel
    exact hAll n hn

/-- Two packets that change places across the wrap count as 65535 dropped, while
all arrived. -/
theorem swapped_packets_count_as_dropped :
    let arrivals := [arrivalAfterWrap 0 (by decide), arrivalAfterWrap 2 (by decide),
      arrivalAfterWrap 1 (by decide)]
    ¬DropsFaithful (aheads arrivals)
      (processHeaders arrivals (createRtpReceiveStream false false none)).statistic := by
  intro arrivals h
  exact absurd h.bounded (by decide +kernel)

end Runs

end RivermaxDevKit
