import Mathlib.Data.UInt
import Mathlib.Tactic.Common

/-!
# Flows

`TwoTupleFlow`, `FourTupleFlow` and `ReceiveFlow`: addresses, equality, hash, and
the descriptor a receive flow hands to the library.

* `eqHashAgree_iff` — equal receive flows have equal hashes only if the tag does
  not count in the hash.
* `descriptor_eq_iff` — equal flows have one descriptor if their tags and types
  are equal.
-/

namespace RivermaxDevKit

structure TwoTupleFlow where
  id : Nat
  ip : String
  port : UInt16
  deriving DecidableEq, Repr

/-- `std::hash` of the types that a flow is made of. -/
structure StdHash where
  string : String → UInt64
  uint16 : UInt16 → UInt64
  uint32 : UInt32 → UInt64

/-- `inet_pton`: none is an address that is not well formed. -/
abbrev InetPton := String → Option UInt32

/-- What `set_socket_address` writes; the address of no host stays zero. -/
structure SockaddrIn where
  sinPort : UInt16
  sinAddr : UInt32
  deriving DecidableEq, Repr

namespace TwoTupleFlow

/-- `operator==`: the id does not count. -/
def eq (a b : TwoTupleFlow) : Bool := a.ip = b.ip ∧ a.port = b.port

def hash (std : StdHash) (a : TwoTupleFlow) : UInt64 := std.string a.ip ^^^ std.uint16 a.port <<< 1

def socketAddress (inetPton : InetPton) (a : TwoTupleFlow) : SockaddrIn :=
  ⟨a.port, (inetPton a.ip).getD 0⟩

end TwoTupleFlow

structure FourTupleFlow where
  sourceFlow : TwoTupleFlow
  destinationFlow : TwoTupleFlow
  deriving DecidableEq, Repr

namespace FourTupleFlow

def eq (a b : FourTupleFlow) : Bool :=
  a.sourceFlow.eq b.sourceFlow ∧ a.destinationFlow.eq b.destinationFlow

def hash (std : StdHash) (a : FourTupleFlow) : UInt64 :=
  a.sourceFlow.hash std ^^^ a.destinationFlow.hash std <<< 1

end FourTupleFlow

/-- `ReceiveFlow::Type`. -/
inductive ReceiveFlowType
  | twoTuple
  | fourTuple
  deriving DecidableEq, Repr

/-- A `ReceiveFlow`. Its constructors define the type. -/
structure ReceiveFlow extends FourTupleFlow where
  tag : UInt32 := 0
  flowType : ReceiveFlowType
  deriving DecidableEq, Repr

/-- `rmx_input_flow`, as `init_descriptor` fills it. -/
structure RmxInputFlow where
  localAddr : SockaddrIn
  remoteAddr : Option SockaddrIn
  tag : UInt32
  deriving DecidableEq, Repr

namespace ReceiveFlow

/-- The constructor with a destination only. -/
def ofTwoTuple (destinationFlow : TwoTupleFlow) (tag : UInt32) : ReceiveFlow :=
  { sourceFlow := ⟨0, "", 0⟩, destinationFlow, tag, flowType := .twoTuple }

/-- The equality of a `ReceiveFlow` is that of its base class. -/
def eq (a b : ReceiveFlow) : Bool := a.toFourTupleFlow.eq b.toFourTupleFlow

def hash (std : StdHash) (a : ReceiveFlow) : UInt64 :=
  a.toFourTupleFlow.hash std ^^^ std.uint32 a.tag

/-- `init_descriptor`. -/
def descriptor (inetPton : InetPton) (a : ReceiveFlow) : RmxInputFlow where
  localAddr := a.destinationFlow.socketAddress inetPton
  remoteAddr :=
    if a.flowType = .fourTuple then some (a.sourceFlow.socketAddress inetPton) else none
  tag := a.tag

/-- The library takes equal flows for one. -/
def SameFlow (a b : ReceiveFlow) : Prop :=
  a.eq b = true ∧ a.tag = b.tag ∧ a.flowType = b.flowType

instance (a b : ReceiveFlow) : Decidable (a.SameFlow b) := inferInstanceAs (Decidable (_ ∧ _))

/-! ## Equality and hash -/

section Identity

variable {a b : ReceiveFlow}

theorem eq_iff : a.eq b = true ↔
    (a.sourceFlow.ip = b.sourceFlow.ip ∧ a.sourceFlow.port = b.sourceFlow.port) ∧
      a.destinationFlow.ip = b.destinationFlow.ip ∧
        a.destinationFlow.port = b.destinationFlow.port := by
  simp [eq, FourTupleFlow.eq, TwoTupleFlow.eq]

theorem eq_symm (h : a.eq b = true) : b.eq a = true := by
  obtain ⟨⟨hSourceIp, hSourcePort⟩, hIp, hPort⟩ := eq_iff.mp h
  exact eq_iff.mpr ⟨⟨hSourceIp.symm, hSourcePort.symm⟩, hIp.symm, hPort.symm⟩

/-- Flows that equal the same flow are equal. -/
theorem eq_trans_symm {c : ReceiveFlow} (h : a.eq c = true) (h' : b.eq c = true) :
    a.eq b = true := by
  obtain ⟨⟨hSourceIp, hSourcePort⟩, hIp, hPort⟩ := eq_iff.mp h
  obtain ⟨⟨hSourceIp', hSourcePort'⟩, hIp', hPort'⟩ := eq_iff.mp h'
  exact eq_iff.mpr ⟨⟨hSourceIp.trans hSourceIp'.symm, hSourcePort.trans hSourcePort'.symm⟩,
    hIp.trans hIp'.symm, hPort.trans hPort'.symm⟩

theorem hash_eq_iff (std : StdHash) (h : a.eq b = true) :
    a.hash std = b.hash std ↔ std.uint32 a.tag = std.uint32 b.tag := by
  obtain ⟨⟨hSourceIp, hSourcePort⟩, hIp, hPort⟩ := eq_iff.mp h
  have hBase : a.toFourTupleFlow.hash std = b.toFourTupleFlow.hash std := by
    simp only [FourTupleFlow.hash, TwoTupleFlow.hash, hSourceIp, hSourcePort, hIp, hPort]
  rw [hash, hash, hBase]
  exact UInt64.xor_right_inj _

/-- Equal flows differ for the library by their tag or type only. -/
theorem descriptor_eq_iff (inetPton : InetPton) (h : a.eq b = true) :
    a.descriptor inetPton = b.descriptor inetPton ↔ a.tag = b.tag ∧ a.flowType = b.flowType := by
  obtain ⟨⟨hSourceIp, hSourcePort⟩, hIp, hPort⟩ := eq_iff.mp h
  unfold descriptor TwoTupleFlow.socketAddress
  rw [hSourceIp, hSourcePort, hIp, hPort, RmxInputFlow.mk.injEq]
  constructor
  · rintro ⟨-, hRemote, hTag⟩
    refine ⟨hTag, ?_⟩
    -- only a flow with a source has a remote address
    cases ha : a.flowType <;> cases hb : b.flowType <;> simp [ha, hb] at hRemote ⊢
  · rintro ⟨hTag, hType⟩
    rw [hType]
    exact ⟨rfl, rfl, hTag⟩

end Identity

/-- **Equality and hash.** They agree on all receive flows exactly if the tag does
not count in the hash, as it does not in the equality. -/
theorem eqHashAgree_iff (std : StdHash) :
    (∀ a b : ReceiveFlow, a.eq b = true → a.hash std = b.hash std) ↔
      ∀ tag tag', std.uint32 tag = std.uint32 tag' := by
  constructor
  · intro h tag tag'
    -- two flows that differ in their tag only
    have hEq : (ofTwoTuple ⟨0, "", 0⟩ tag).eq (ofTwoTuple ⟨0, "", 0⟩ tag') = true :=
      eq_iff.mpr ⟨⟨rfl, rfl⟩, rfl, rfl⟩
    exact (hash_eq_iff std hEq).mp (h _ _ hEq)
  · intro h a b hEq
    exact (hash_eq_iff std hEq).mpr (h _ _)

end ReceiveFlow

end RivermaxDevKit
