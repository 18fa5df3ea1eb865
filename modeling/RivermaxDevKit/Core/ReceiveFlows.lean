import RivermaxDevKit.Core.Flow
import RivermaxDevKit.Lib.Holdings
import RivermaxDevKit.Services.Definitions

/-!
# The flows of a receive stream

`ReceiveStream::attach_flow`, `detach_flow` and `detach_flows` against the flows
that the library holds attached. The set of the stream is a hash table of equal
flows; the library tells flows apart by their descriptors.

* `Sound.kept_iff` — a call keeps the promise exactly if it meets no flow of the
  same addresses but another tag or type, and `detach_flows` is not refused.
* `receiveFlowsKept_iff` — the same of runs.
-/

namespace RivermaxDevKit

open Holdings

/-- `rmx_status`, as far as the stream tells them apart. -/
inductive RmxStatus
  | ok
  | signal
  | error
  deriving DecidableEq, Repr

/-- The library no longer holds the flow. -/
def RmxStatus.Detached (status : RmxStatus) : Prop := status = .ok ∨ status = .signal

instance (status : RmxStatus) : Decidable status.Detached := inferInstanceAs (Decidable (_ ∨ _))

/-- The lookup of an `std::unordered_set`, whatever its buckets are at the time. It
finds equal elements only, and finds them in the bucket of the hash. -/
structure FlowLookup (std : StdHash) where
  find : List ReceiveFlow → ReceiveFlow → Option ReceiveFlow
  equal_of_find : ∀ {flows flow e}, find flows flow = some e → e ∈ flows ∧ e.eq flow = true
  find_of_equal : ∀ {flows flow e}, e ∈ flows → e.eq flow = true →
    e.hash std = flow.hash std → (find flows flow).isSome = true

/-- `m_stream_created` and `m_flows` of a `ReceiveStream`. -/
structure FlowBook where
  streamCreated : Bool
  flows : List ReceiveFlow
  deriving Repr

/-- What a call leaves, and what the library did. -/
structure FlowCall where
  book : FlowBook
  events : List (Event RmxInputFlow) := []
  status : ReturnStatus := .success

namespace FlowBook

variable {std : StdHash} (inetPton : InetPton)

/-! ## The calls -/

/-- `attach_flow`. `emplace` does nothing where the lookup finds an element. -/
def attachFlow (lookup : FlowLookup std) (rmxInputAttachFlow : RmxInputFlow → RmxStatus)
    (flow : ReceiveFlow) (s : FlowBook) : FlowCall :=
  if ¬ s.streamCreated then { book := s, status := .failure }
  else if rmxInputAttachFlow (flow.descriptor inetPton) ≠ .ok then
    { book := s, status := .failure }
  else
    { book := { s with
        flows := if (lookup.find s.flows flow).isSome then s.flows else flow :: s.flows }
      events := [.acquire (flow.descriptor inetPton)] }

/-- `detach_flow`. The descriptor is that of the element that is found. -/
def detachFlow (lookup : FlowLookup std) (rmxInputDetachFlow : RmxInputFlow → RmxStatus)
    (flow : ReceiveFlow) (s : FlowBook) : FlowCall :=
  if ¬ s.streamCreated then { book := s, status := .failure }
  else match lookup.find s.flows flow with
    | none => { book := s, status := .failure }
    | some stored =>
      let status := rmxInputDetachFlow (stored.descriptor inetPton)
      if status ≠ .ok ∧ status ≠ .signal then { book := s, status := .failure }
      else
        { book := { s with flows := s.flows.erase stored }
          events := [.release (stored.descriptor inetPton)] }

/-- The loop of `detach_flows`: the flows that the library let go, and the number of
those it did not. -/
def detachLoop (rmxInputDetachFlow : RmxInputFlow → RmxStatus) :
    List ReceiveFlow → Nat → List RmxInputFlow × Nat
  | [], failed => ([], failed)
  | flow :: flows, failed =>
    let descriptor := flow.descriptor inetPton
    let status := rmxInputDetachFlow descriptor
    if status ≠ .ok ∧ status ≠ .signal then detachLoop rmxInputDetachFlow flows (failed + 1)
    else
      let rest := detachLoop rmxInputDetachFlow flows failed
      (descriptor :: rest.1, rest.2)

/-- `detach_flows`. Every flow is erased, detached or not. -/
def detachFlows (rmxInputDetachFlow : RmxInputFlow → RmxStatus) (s : FlowBook) : FlowCall :=
  if ¬ s.streamCreated then { book := s, status := .failure }
  else
    let loop := detachLoop inetPton rmxInputDetachFlow s.flows 0
    { book := { s with flows := [] }
      events := loop.1.map .release
      status := if loop.2 > 0 then .failure else .success }

/-- A call, with the answer of the library and the buckets of the set. -/
inductive Operation (std : StdHash)
  | attachFlow (flow : ReceiveFlow) (status : RmxStatus) (lookup : FlowLookup std)
  | detachFlow (flow : ReceiveFlow) (status : RmxStatus) (lookup : FlowLookup std)
  | detachFlows (status : RmxInputFlow → RmxStatus)

/-- The call on a stream whose library holds these flows. The library rejects a
flow it has. -/
def Operation.call (s : FlowBook) (held : Finset RmxInputFlow) : Operation std → FlowCall
  | attachFlow flow status lookup =>
    s.attachFlow inetPton lookup
      (fun descriptor => if descriptor ∈ held then .error else status) flow
  | detachFlow flow status lookup => s.detachFlow inetPton lookup (fun _ => status) flow
  | detachFlows status => s.detachFlows inetPton status

/-! ## The promise -/

/-- The stored flows are those that the library holds, each once. -/
structure StoredIsAttached (flows : List ReceiveFlow) (held : Finset RmxInputFlow) : Prop where
  nodup : (flows.map (ReceiveFlow.descriptor inetPton)).Nodup
  mem_iff : ∀ descriptor, descriptor ∈ held ↔
    ∃ flow ∈ flows, flow.descriptor inetPton = descriptor

/-- Equality and hash agree on the flow, and the lookup finds it if it is stored. -/
structure LookupExact (lookup : FlowLookup std) (flows : List ReceiveFlow)
    (flow : ReceiveFlow) : Prop where
  agree : ∀ stored ∈ flows, stored.eq flow = true → stored.hash std = flow.hash std
  isSome_iff : (lookup.find flows flow).isSome = true ↔ ∃ stored ∈ flows, stored.SameFlow flow

/-- What the call promises of its lookup and of the flows that fail. -/
def Operation.Kept (s : FlowBook) (held : Finset RmxInputFlow) (operation : Operation std) : Prop :=
  let done := operation.call inetPton s held
  match operation with
  | attachFlow flow _ lookup | detachFlow flow _ lookup =>
    LookupExact lookup s.flows flow ∧ (done.status = .failure → done.book.flows = s.flows)
  | detachFlows status => ∀ flow ∈ s.flows,
    ¬ (status (flow.descriptor inetPton)).Detached → flow ∈ done.book.flows

/-- The promise at every point of a run. -/
def FlowsKept : FlowBook → Finset RmxInputFlow → List (Operation std) → Prop
  | s, held, [] => StoredIsAttached inetPton s.flows held
  | s, held, operation :: operations =>
    let done := operation.call inetPton s held
    StoredIsAttached inetPton s.flows held ∧ operation.Kept inetPton s held ∧
      FlowsKept done.book (after held done.events) operations

/-- The call meets no stored flow with its addresses but another tag or type, and
`detach_flows` is not refused. -/
def Operation.Unambiguous (s : FlowBook) : Operation std → Prop
  | attachFlow flow _ _ | detachFlow flow _ _ =>
    ∀ stored ∈ s.flows, stored.eq flow = true → stored.SameFlow flow
  | detachFlows status => ∀ flow ∈ s.flows, (status (flow.descriptor inetPton)).Detached

def FlowsUnambiguous : FlowBook → Finset RmxInputFlow → List (Operation std) → Prop
  | _, _, [] => True
  | s, held, operation :: operations =>
    let done := operation.call inetPton s held
    operation.Unambiguous inetPton s ∧
      FlowsUnambiguous done.book (after held done.events) operations

/-! ## One call -/

/-- A created stream that keeps the promise, and whose flows differ by address. -/
structure Sound (s : FlowBook) (held : Finset RmxInputFlow) : Prop where
  created : s.streamCreated = true
  attached : StoredIsAttached inetPton s.flows held
  distinct : ∀ a ∈ s.flows, ∀ b ∈ s.flows, a.eq b = true → a = b

section Steps

variable {inetPton} {s : FlowBook} {held : Finset RmxInputFlow}

/-- Of flows that differ by address, the lookup is exact where none has the address
of the flow but another tag or type. -/
theorem lookupExact_iff {flows : List ReceiveFlow}
    (hDistinct : ∀ a ∈ flows, ∀ b ∈ flows, a.eq b = true → a = b) (lookup : FlowLookup std)
    (flow : ReceiveFlow) : LookupExact lookup flows flow ↔
      ∀ stored ∈ flows, stored.eq flow = true → stored.SameFlow flow := by
  constructor
  · intro h stored hMem hEq
    -- equal with an equal hash: the lookup finds some flow that is the same
    have hFound := lookup.find_of_equal hMem hEq (h.agree stored hMem hEq)
    obtain ⟨other, hOther, hSame⟩ := h.isSome_iff.mp hFound
    -- the two are stored and equal, hence one
    rw [hDistinct stored hMem other hOther (ReceiveFlow.eq_trans_symm hEq hSame.1)]
    exact hSame
  · intro h
    -- the hash adds the tag to the addresses, and the tags are equal
    have hAgree : ∀ stored ∈ flows, stored.eq flow = true →
        stored.hash std = flow.hash std := fun stored hMem hEq =>
      (ReceiveFlow.hash_eq_iff std hEq).mpr (congrArg std.uint32 (h stored hMem hEq).2.1)
    refine ⟨hAgree, fun hFound => ?_, ?_⟩
    · obtain ⟨stored, hStored⟩ := Option.isSome_iff_exists.mp hFound
      obtain ⟨hMem, hEq⟩ := lookup.equal_of_find hStored
      exact ⟨stored, hMem, h stored hMem hEq⟩
    · rintro ⟨stored, hMem, hSame⟩
      exact lookup.find_of_equal hMem hSame.1 (hAgree stored hMem hSame.1)

theorem descriptor_eq_of_sameFlow {a b : ReceiveFlow} (h : a.SameFlow b) :
    a.descriptor inetPton = b.descriptor inetPton :=
  (ReceiveFlow.descriptor_eq_iff inetPton h.1).mpr h.2

/-- A flow that the library takes is new to the stream. -/
theorem Sound.attachFlow (h : Sound inetPton s held) {flow : ReceiveFlow} {status : RmxStatus}
    {lookup : FlowLookup std}
    (hClear : ∀ stored ∈ s.flows, stored.eq flow = true → stored.SameFlow flow) :
    let operation : Operation std := .attachFlow flow status lookup
    let done := operation.call inetPton s held
    operation.Kept inetPton s held ∧ Sound inetPton done.book (after held done.events) := by
  have hExact := (lookupExact_iff h.distinct lookup flow).mpr hClear
  dsimp only [Operation.Kept, Operation.call]
  unfold FlowBook.attachFlow
  rw [if_neg (not_not_intro h.created)]
  by_cases hHeld : flow.descriptor inetPton ∈ held
  -- the library has the flow and refuses it
  · rw [if_pos (by simp [hHeld])]
    exact ⟨⟨hExact, fun _ => rfl⟩, h⟩
  · simp only [if_neg hHeld]
    by_cases hStatus : status ≠ .ok
    -- refused for another reason
    · rw [if_pos hStatus]
      exact ⟨⟨hExact, fun _ => rfl⟩, h⟩
    · rw [if_neg hStatus]
      -- an equal flow would have the descriptor
      have hNew : ∀ stored ∈ s.flows, ¬ stored.eq flow = true := fun stored hMem hEq =>
        hHeld ((h.attached.mem_iff _).mpr
          ⟨stored, hMem, descriptor_eq_of_sameFlow (hClear stored hMem hEq)⟩)
      -- so nothing is found, and `emplace` stores the flow
      have hNone : ¬ (lookup.find s.flows flow).isSome = true := fun hFound => by
        obtain ⟨stored, hStored⟩ := Option.isSome_iff_exists.mp hFound
        obtain ⟨hMem, hEq⟩ := lookup.equal_of_find hStored
        exact hNew stored hMem hEq
      rw [if_neg hNone]
      refine ⟨⟨hExact, nofun⟩, h.created, ⟨?_, fun descriptor => ?_⟩, ?_⟩
      -- the descriptor is new to the library, hence to the set
      · rw [List.map_cons, List.nodup_cons]
        refine ⟨fun hMem => hHeld ?_, h.attached.nodup⟩
        exact (h.attached.mem_iff _).mpr (List.mem_map.mp hMem)
      · show descriptor ∈ insert _ held ↔ _
        rw [Finset.mem_insert, h.attached.mem_iff]
        simp only [List.mem_cons, exists_eq_or_imp]
        exact or_congr_left eq_comm
      -- the new flow differs by address from all others
      · intro a ha b hb hEq
        rcases List.mem_cons.mp ha with hFirst | haOld <;>
          rcases List.mem_cons.mp hb with hSecond | hbOld
        · exact hFirst.trans hSecond.symm
        · exact absurd (ReceiveFlow.eq_symm (hFirst ▸ hEq)) (hNew b hbOld)
        · exact absurd (hSecond ▸ hEq) (hNew a haOld)
        · exact h.distinct a haOld b hbOld hEq

/-- The flow that is found is the flow, and goes from both sets. -/
theorem Sound.detachFlow (h : Sound inetPton s held) {flow : ReceiveFlow} {status : RmxStatus}
    {lookup : FlowLookup std}
    (hClear : ∀ stored ∈ s.flows, stored.eq flow = true → stored.SameFlow flow) :
    let operation : Operation std := .detachFlow flow status lookup
    let done := operation.call inetPton s held
    operation.Kept inetPton s held ∧ Sound inetPton done.book (after held done.events) := by
  have hExact := (lookupExact_iff h.distinct lookup flow).mpr hClear
  dsimp only [Operation.Kept, Operation.call]
  unfold FlowBook.detachFlow
  rw [if_neg (not_not_intro h.created)]
  cases hFind : lookup.find s.flows flow with
  | none => exact ⟨⟨hExact, fun _ => rfl⟩, h⟩
  | some stored =>
    dsimp only
    split_ifs with hStatus
    · exact ⟨⟨hExact, fun _ => rfl⟩, h⟩
    -- the library lets the flow go, and it is erased
    · obtain ⟨hMem, -⟩ := lookup.equal_of_find hFind
      have hNodup := h.attached.nodup.of_map
      have hInj := List.inj_on_of_nodup_map h.attached.nodup
      refine ⟨⟨hExact, nofun⟩, h.created, ⟨?_, fun descriptor => ?_⟩, ?_⟩
      · exact h.attached.nodup.sublist ((List.erase_sublist).map _)
      · show descriptor ∈ held.erase _ ↔ _
        rw [Finset.mem_erase, h.attached.mem_iff]
        simp only [hNodup.mem_erase_iff]
        constructor
        -- flows of other descriptors are other flows,
        · rintro ⟨hOther, other, hOtherMem, rfl⟩
          exact ⟨other, ⟨fun hSame => hOther (hSame ▸ rfl), hOtherMem⟩, rfl⟩
        -- and other flows have other descriptors
        · rintro ⟨other, ⟨hOther, hOtherMem⟩, rfl⟩
          exact ⟨fun hSame => hOther (hInj hOtherMem hMem hSame), other, hOtherMem, rfl⟩
      · intro a ha b hb hEq
        exact h.distinct a (List.mem_of_mem_erase ha) b (List.mem_of_mem_erase hb) hEq

/-- Where no flow is refused, the library lets all flows go. -/
theorem detachLoop_of_detached {rmxInputDetachFlow : RmxInputFlow → RmxStatus}
    {flows : List ReceiveFlow}
    (hAll : ∀ flow ∈ flows, (rmxInputDetachFlow (flow.descriptor inetPton)).Detached)
    (failed : Nat) : detachLoop inetPton rmxInputDetachFlow flows failed =
      (flows.map (ReceiveFlow.descriptor inetPton), failed) := by
  induction flows with
  | nil => rfl
  | cons flow flows ih =>
    obtain ⟨hFlow, hFlows⟩ := List.forall_mem_cons.mp hAll
    unfold detachLoop
    dsimp only
    rw [if_neg, ih hFlows, List.map_cons]
    rw [← not_or]
    exact not_not_intro hFlow

theorem Sound.detachFlows (h : Sound inetPton s held) {status : RmxInputFlow → RmxStatus}
    (hAll : ∀ flow ∈ s.flows, (status (flow.descriptor inetPton)).Detached) :
    let operation : Operation std := .detachFlows status
    let done := operation.call inetPton s held
    operation.Kept inetPton s held ∧ Sound inetPton done.book (after held done.events) := by
  refine ⟨fun flow hMem hRefused => absurd (hAll flow hMem) hRefused, ?_⟩
  dsimp only [Operation.call]
  unfold FlowBook.detachFlows
  rw [if_neg (not_not_intro h.created), detachLoop_of_detached hAll]
  refine ⟨h.created, ⟨List.nodup_nil, fun descriptor => ?_⟩, nofun⟩
  dsimp only
  rw [mem_after_release, h.attached.mem_iff, List.mem_map]
  simp

/-- A flow that `detach_flows` could not detach is erased all the same. -/
theorem Sound.flows_detachFlows (h : Sound inetPton s held) (status : RmxInputFlow → RmxStatus) :
    (s.detachFlows inetPton status).book.flows = [] := by
  unfold FlowBook.detachFlows
  rw [if_neg (not_not_intro h.created)]

/-- **One call.** From a stream that keeps the promise, a call keeps it exactly if it
is unambiguous. -/
theorem Sound.kept_iff (h : Sound inetPton s held) (operation : Operation std) :
    operation.Kept inetPton s held ↔ operation.Unambiguous inetPton s := by
  cases operation with
  | attachFlow flow status lookup =>
    refine ⟨fun hKept => (lookupExact_iff h.distinct lookup flow).mp hKept.1, fun hClear => ?_⟩
    exact (h.attachFlow hClear).1
  | detachFlow flow status lookup =>
    refine ⟨fun hKept => (lookupExact_iff h.distinct lookup flow).mp hKept.1, fun hClear => ?_⟩
    exact (h.detachFlow hClear).1
  | detachFlows status =>
    refine ⟨fun hKept flow hMem => ?_, fun hAll => (h.detachFlows hAll).1⟩
    by_contra hRefused
    -- a flow that is refused would have to stay, but none does
    have hStays := hKept flow hMem hRefused
    rw [Operation.call, h.flows_detachFlows status] at hStays
    cases hStays

theorem Sound.step (h : Sound inetPton s held) {operation : Operation std}
    (hClear : operation.Unambiguous inetPton s) :
    let done := operation.call inetPton s held
    Sound inetPton done.book (after held done.events) := by
  cases operation with
  | attachFlow flow status lookup => exact (h.attachFlow hClear).2
  | detachFlow flow status lookup => exact (h.detachFlow hClear).2
  | detachFlows status => exact (h.detachFlows hClear).2

end Steps

/-! ## Runs -/

theorem Sound.flowsKept_iff {s : FlowBook} {held : Finset RmxInputFlow} (h : Sound inetPton s held)
    (operations : List (Operation std)) :
    FlowsKept inetPton s held operations ↔ FlowsUnambiguous inetPton s held operations := by
  induction operations generalizing s held with
  | nil => exact iff_of_true h.attached trivial
  | cons operation operations ih =>
    constructor
    · rintro ⟨-, hKept, hRest⟩
      have hClear := (h.kept_iff operation).mp hKept
      exact ⟨hClear, (ih (h.step hClear)).mp hRest⟩
    · rintro ⟨hClear, hRest⟩
      exact ⟨h.attached, (h.kept_iff operation).mpr hClear, (ih (h.step hClear)).mpr hRest⟩

/-- **Flow bookkeeping.** For every series of calls on a created stream, every answer
of the library and every layout of the hash table: the stored flows are those the
library holds at every point, failed calls keep them and lookups are exact, exactly
if no call meets a stored flow of its addresses with another tag or type and no flow
is refused to `detach_flows`. -/
theorem receiveFlowsKept_iff (std : StdHash) (inetPton : InetPton)
    (operations : List (Operation std)) :
    FlowsKept inetPton ⟨true, []⟩ ∅ operations ↔
      FlowsUnambiguous inetPton ⟨true, []⟩ ∅ operations := by
  have hNew : Sound inetPton ⟨true, []⟩ ∅ :=
    ⟨rfl, ⟨List.nodup_nil, by simp⟩, fun a ha => absurd ha List.not_mem_nil⟩
  exact hNew.flowsKept_iff inetPton operations

/-- A hash that keeps the numbers as they are. -/
def plainHash : StdHash := ⟨fun ip => ip.hash, UInt16.toUInt64, UInt32.toUInt64⟩

/-- One bucket for all flows. -/
def oneBucket : FlowLookup plainHash where
  find flows flow := flows.find? fun e => e.eq flow
  equal_of_find h := ⟨List.mem_of_find?_eq_some h, by simpa using List.find?_some h⟩
  find_of_equal hMem hEq _ := List.find?_isSome.mpr ⟨_, hMem, hEq⟩

/-- A destination without a source, under a tag. -/
def taggedFlow (tag : UInt32) : ReceiveFlow := .ofTwoTuple ⟨0, "224.0.0.1", 5000⟩ tag

/-- The library fails to detach a flow, and the stream forgets it. A flow of another
tag is equal to it, and has another hash. -/
theorem flow_forgotten_by_detachFlows :
    ¬ FlowsKept (fun _ => some 1) ⟨true, []⟩ ∅
        [.attachFlow (taggedFlow 0) .ok oneBucket, .detachFlows fun _ => .error] ∧
      (taggedFlow 0).eq (taggedFlow 1) = true ∧
      (taggedFlow 0).hash plainHash ≠ (taggedFlow 1).hash plainHash := by
  refine ⟨?_, rfl, fun h => ?_⟩
  · rintro ⟨-, -, -, hKept, -⟩
    have hStays := hKept (taggedFlow 0) List.mem_cons_self (by decide)
    exact List.not_mem_nil hStays
  · have hTags := (ReceiveFlow.hash_eq_iff plainHash rfl).mp h
    exact absurd hTags (by decide)

end FlowBook

end RivermaxDevKit
