import RivermaxDevKit.Memory.Layout

/-!
# Memory partition

The request pass sums sizes and the apply pass sums pointers, at three levels.

* `Hands` — leaves whose regions are carved from two pointers; it composes
  (`Hands.append`), so each loop of the apply pass keeps it.
* `MemorySubcomponent.hands_applyMemoryLayout` — what one IO node hands out.
* `RmaxBaseMemoryStrategy.separated_iff` — when the leaves have memory of their
  own.
-/

namespace RivermaxDevKit

theorem sizeT_add_sizeT (a b : Nat) : sizeT (a + sizeT b) = sizeT (a + b) := Nat.add_mod_mod a b _

theorem sizeT_sizeT_add (a b : Nat) : sizeT (sizeT a + b) = sizeT (a + b) := Nat.mod_add_mod a _ b

/-! ## What leaves are handed -/

/-- The header regions of the leaves that have one. -/
def headerRegions (leaves : List LeafMemory) : List Region := leaves.filterMap LeafMemory.header

def payloadRegions (leaves : List LeafMemory) : List Region := leaves.map LeafMemory.payload

/-- The regions of a leaf are at least as large as it asked for. -/
structure LeafMemory.Enough (leaf : LeafMemory) : Prop where
  header : ∀ region, leaf.header = some region → leaf.requested.1 ≤ region.length
  payload : leaf.requested.2 ≤ leaf.payload.length

/-- Regions of the given sizes, carved from the two pointers unless an address
wraps around. From a null header pointer nothing is carved but empty regions. -/
structure Hands (headerPtr payloadPtr : Nat) (headerSizes payloadSizes : List Nat)
    (leaves : List LeafMemory) : Prop where
  headerLengths : (headerRegions leaves).map Region.length = headerSizes
  payloadLengths : (payloadRegions leaves).map Region.length = payloadSizes
  enough : ∀ leaf ∈ leaves, leaf.Enough
  headers : headerPtr + headerSizes.sum < 2 ^ 64 → (headerPtr = 0 → headerSizes.sum = 0) →
    headerRegions leaves = Region.carve headerPtr headerSizes
  payloads : payloadPtr + payloadSizes.sum < 2 ^ 64 →
    payloadRegions leaves = Region.carve payloadPtr payloadSizes

theorem hands_nil (headerPtr payloadPtr : Nat) : Hands headerPtr payloadPtr [] [] [] where
  headerLengths := rfl
  payloadLengths := rfl
  enough := nofun
  headers := fun _ _ => rfl
  payloads := fun _ => rfl

/-- **Composition.** The second pointers are where the first leaves end. -/
theorem Hands.append {h p h' p' : Nat} {hs ps hs' ps' : List Nat} {leaves leaves' : List LeafMemory}
    (hFirst : Hands h p hs ps leaves) (hSecond : Hands h' p' hs' ps' leaves')
    (hHeader : h + (hs.sum + hs'.sum) < 2 ^ 64 → (h = 0 → hs.sum + hs'.sum = 0) →
      h' = h + hs.sum)
    (hPayload : p + (ps.sum + ps'.sum) < 2 ^ 64 → p' = p + ps.sum) :
    Hands h p (hs ++ hs') (ps ++ ps') (leaves ++ leaves') where
  headerLengths := by
    rw [← hFirst.headerLengths, ← hSecond.headerLengths, ← List.map_append]
    exact congrArg _ List.filterMap_append
  payloadLengths := by
    rw [← hFirst.payloadLengths, ← hSecond.payloadLengths, ← List.map_append]
    exact congrArg _ List.map_append
  enough := by
    intro leaf hLeaf
    rcases List.mem_append.mp hLeaf with hLeft | hRight
    · exact hFirst.enough leaf hLeft
    · exact hSecond.enough leaf hRight
  headers := by
    rw [List.sum_append]
    intro hBound hNull
    have hPtr := hHeader hBound hNull
    rw [Region.carve_append, ← hPtr,
      ← hFirst.headers (by omega) (fun h0 => by have := hNull h0; omega),
      ← hSecond.headers (by omega) (fun h0 => by have := hNull (by omega); omega)]
    exact List.filterMap_append
  payloads := by
    rw [List.sum_append]
    intro hBound
    have hPtr := hPayload hBound
    -- the second regions are carved where the first end
    rw [Region.carve_append, ← hPtr, ← hFirst.payloads (by omega), ← hSecond.payloads (by omega)]
    exact List.map_append

/-- The pointers may be written another way. -/
theorem Hands.of_ptr {h p h' p' : Nat} {hs ps : List Nat} {leaves : List LeafMemory}
    (hHands : Hands h' p' hs ps leaves)
    (hHeader : h + hs.sum < 2 ^ 64 → (h = 0 → hs.sum = 0) → h' = h)
    (hPayload : p + ps.sum < 2 ^ 64 → p' = p) : Hands h p hs ps leaves := by
  -- no leaves in front, but other pointers
  refine (hands_nil h p).append hHands ?_ ?_
  · intro hBound hNull
    rw [List.sum_nil, Nat.zero_add] at hBound hNull
    exact hHeader hBound hNull
  · intro hBound
    rw [List.sum_nil, Nat.zero_add] at hBound
    exact hPayload hBound

/-- A leaf with a header region. -/
theorem hands_singleton {leaf : LeafMemory} {header : Region} (hHeader : leaf.header = some header)
    (hEnough : leaf.Enough) :
    Hands header.addr leaf.payload.addr [header.length] [leaf.payload.length] [leaf] where
  headerLengths := by simp [headerRegions, hHeader]
  payloadLengths := rfl
  enough := by
    intro other hOther
    rw [List.mem_singleton.mp hOther]
    exact hEnough
  headers := fun _ _ => by simp [headerRegions, hHeader, Region.carve]
  payloads := fun _ => rfl

/-- A leaf without one. -/
theorem hands_singleton_of_none {leaf : LeafMemory} (hHeader : leaf.header = none)
    (hEnough : leaf.Enough) (headerPtr : Nat) :
    Hands headerPtr leaf.payload.addr [] [leaf.payload.length] [leaf] where
  headerLengths := by simp [headerRegions, hHeader]
  payloadLengths := rfl
  enough := by
    intro other hOther
    rw [List.mem_singleton.mp hOther]
    exact hEnough
  headers := fun _ _ => by simp [headerRegions, hHeader, Region.carve]
  payloads := fun _ => rfl

/-! ## Receive streams -/

/-- Regions that are large enough for what was asked. -/
theorem enough_of_sizes {sizes : Nat × Nat} {layout : HeaderPayloadMemoryLayout}
    (hSizes : ¬ (layout.headerMemorySize < sizes.1 ∨ layout.payloadMemorySize < sizes.2)) :
    LeafMemory.Enough
      { requested := sizes
        header := some ⟨layout.headerMemoryPtr, layout.headerMemorySize⟩
        payload := ⟨layout.payloadMemoryPtr, layout.payloadMemorySize⟩ } where
  header := by
    intro region hRegion
    cases hRegion
    dsimp only
    omega
  payload := by
    dsimp only
    omega

theorem ReceiveStream.enough_of_applyMemoryLayout {stream : ReceiveStream}
    {layout : HeaderPayloadMemoryLayout} {leaf : LeafMemory}
    (hApply : stream.applyMemoryLayout layout = some leaf) :
    leaf.header = some ⟨layout.headerMemoryPtr, layout.headerMemorySize⟩ ∧
      leaf.payload = ⟨layout.payloadMemoryPtr, layout.payloadMemorySize⟩ ∧ leaf.Enough := by
  unfold ReceiveStream.applyMemoryLayout at hApply
  split at hApply
  · cases hApply
  rename_i sizes hValidate
  cases hApply
  unfold ReceiveStream.validateMemoryLayout at hValidate
  split at hValidate
  · cases hValidate
  split at hValidate
  · cases hValidate
  split at hValidate
  · cases hValidate
  rename_i hSizes
  cases hValidate
  exact ⟨rfl, rfl, enough_of_sizes hSizes⟩

theorem IPOReceiveStream.enough_of_applyMemoryLayout {stream : IPOReceiveStream}
    {layout : HeaderPayloadMemoryLayout} {leaf : LeafMemory}
    (hApply : stream.applyMemoryLayout layout = some leaf) :
    leaf.header = some ⟨layout.headerMemoryPtr, layout.headerMemorySize⟩ ∧
      leaf.payload = ⟨layout.payloadMemoryPtr, layout.payloadMemorySize⟩ ∧ leaf.Enough := by
  unfold IPOReceiveStream.applyMemoryLayout at hApply
  split at hApply
  · cases hApply
  rename_i sizes hValidate
  split at hApply
  swap
  · cases hApply
  cases hApply
  unfold IPOReceiveStream.validateMemoryLayout at hValidate
  split at hValidate
  · cases hValidate
  split at hValidate
  · cases hValidate
  split at hValidate
  · cases hValidate
  rename_i hSizes
  cases hValidate
  exact ⟨rfl, rfl, enough_of_sizes hSizes⟩

/-- A stream that accepts a layout takes the regions of the layout. -/
theorem IReceiveStream.hands_applyMemoryLayout {stream : IReceiveStream}
    {layout : HeaderPayloadMemoryLayout} {leaf : LeafMemory}
    (hApply : stream.applyMemoryLayout layout = some leaf) :
    Hands layout.headerMemoryPtr layout.payloadMemoryPtr [layout.headerMemorySize]
      [layout.payloadMemorySize] [leaf] := by
  obtain ⟨hHeader, hPayload, hEnough⟩ :
      leaf.header = some ⟨layout.headerMemoryPtr, layout.headerMemorySize⟩ ∧
        leaf.payload = ⟨layout.payloadMemoryPtr, layout.payloadMemorySize⟩ ∧ leaf.Enough := by
    cases stream with
    | single stream => exact ReceiveStream.enough_of_applyMemoryLayout hApply
    | ipo stream => exact IPOReceiveStream.enough_of_applyMemoryLayout hApply
  have hHands := hands_singleton hHeader hEnough
  rw [hPayload] at hHands
  exact hHands

/-! ## Receiver IO node -/

namespace ReceiverIONodeBase

/-- The request pass: one pair of sizes for each stream, and their sums. -/
theorem initializeStreams_eq_some {utils : IONodeMemoryUtils} {streams : List IReceiveStream}
    {sizes : List (Nat × Nat)} : ∀ {h p h' p' : Nat}, h < 2 ^ 64 → p < 2 ^ 64 →
      initializeStreams utils streams h p = some (sizes, h', p') →
      sizes.length = streams.length ∧ h' = sizeT (h + (sizes.map Prod.fst).sum) ∧
        p' = sizeT (p + (sizes.map Prod.snd).sum) := by
  induction streams generalizing sizes with
  | nil =>
    intro h p h' p' hh hp hInit
    cases hInit
    exact ⟨rfl, (sizeT_of_lt hh).symm, (sizeT_of_lt hp).symm⟩
  | cons stream streams ih =>
    intro h p h' p' hh hp hInit
    unfold initializeStreams at hInit
    split at hInit
    · cases hInit
    rename_i request hRequest
    dsimp only at hInit
    split at hInit
    · cases hInit
    rename_i rest header payload hRest
    cases hInit
    -- the sums of the other streams start where this one's end
    obtain ⟨hLength, hHeader, hPayload⟩ :=
      ih (sizeT_lt _) (sizeT_lt _) hRest
    refine ⟨congrArg (· + 1) hLength, ?_, ?_⟩
    · rw [hHeader, sizeT_sizeT_add, List.map_cons, List.sum_cons, Nat.add_assoc]
    · rw [hPayload, sizeT_sizeT_add, List.map_cons, List.sum_cons, Nat.add_assoc]

/-- The apply pass makes the same sums. -/
theorem hands_applyStreams {layout : HeaderPayloadMemoryLayout} {streams : List IReceiveStream} :
    ∀ {sizes : List (Nat × Nat)} {hOff pOff : Nat} {leaves : List LeafMemory},
      sizes.length = streams.length → applyStreams layout streams sizes hOff pOff = some leaves →
      Hands (streamMemoryLayout layout (0, 0) hOff pOff).headerMemoryPtr
        (streamMemoryLayout layout (0, 0) hOff pOff).payloadMemoryPtr
        (sizes.map Prod.fst) (sizes.map Prod.snd) leaves := by
  induction streams with
  | nil =>
    intro sizes hOff pOff leaves hLength hApply
    cases List.eq_nil_of_length_eq_zero hLength
    cases hApply
    exact hands_nil _ _
  | cons stream streams ih =>
    intro sizes hOff pOff leaves hLength hApply
    cases sizes with
    | nil => cases hLength
    | cons size sizes =>
      unfold applyStreams at hApply
      split at hApply
      · cases hApply
      rename_i leaf hLeaf
      split at hApply
      · cases hApply
      rename_i others hOthers
      cases hApply
      -- the offsets of the others are those of this stream and its sizes
      refine (IReceiveStream.hands_applyMemoryLayout hLeaf).append
        (ih (Nat.succ.inj hLength) hOthers) ?_ ?_
      · intro hBound hNull
        simp only [streamMemoryLayout, List.sum_cons, List.sum_nil, Nat.add_zero] at hBound hNull ⊢
        by_cases hPtr : layout.headerMemoryPtr = 0
        · -- a null header buffer stays null, and its streams have no header
          simp only [hPtr, ne_eq, not_true_eq_false, if_false] at hNull ⊢
          have := hNull trivial
          omega
        · simp only [hPtr, ne_eq, not_false_eq_true, if_true] at hBound ⊢
          rw [sizeT_add_sizeT, ← Nat.add_assoc, ← sizeT_sizeT_add]
          exact sizeT_of_lt (by omega)
      · intro hBound
        simp only [streamMemoryLayout, List.sum_cons, List.sum_nil, Nat.add_zero] at hBound ⊢
        rw [sizeT_add_sizeT, ← Nat.add_assoc, ← sizeT_sizeT_add]
        exact sizeT_of_lt (by omega)

end ReceiverIONodeBase

/-! ## Media sender IO node -/

namespace MediaSenderMemory

variable {n : MediaSenderMemory}

/-- The header regions of `blocks` memory blocks. -/
def headerSizes (n : MediaSenderMemory) (blocks : Nat) : List Nat :=
  if n.isHdsOn then List.replicate blocks n.blockHeaderMemorySize else []

theorem headerSizes_add (a b : Nat) :
    n.headerSizes (a + b) = n.headerSizes a ++ n.headerSizes b := by
  unfold headerSizes
  split
  · exact List.replicate_add ..
  · rfl

/-- Without header-data split a block asks for no header memory. -/
theorem sum_headerSizes (hBlock : n.isHdsOn = false → n.blockHeaderMemorySize = 0) (blocks : Nat) :
    (n.headerSizes blocks).sum = blocks * n.blockHeaderMemorySize := by
  unfold headerSizes
  split
  · exact List.sum_replicate_nat
  · rename_i hHds
    rw [hBlock (Bool.eq_false_iff.mpr hHds)]
    rfl

theorem hands_initializeMemBlockset (hBlock : n.isHdsOn = false → n.blockHeaderMemorySize = 0)
    (remaining : Nat) : ∀ {i h p : Nat} {leaves : List LeafMemory},
      n.initializeMemBlockset remaining i h p = some leaves →
      Hands h p (n.headerSizes remaining) (List.replicate remaining n.blockPayloadMemorySize)
        leaves := by
  induction remaining with
  | zero =>
    intro i h p leaves hInit
    cases hInit
    have hNone : n.headerSizes 0 = [] := by
      unfold headerSizes
      split <;> rfl
    rw [hNone]
    exact hands_nil h p
  | succ remaining ih =>
    intro i h p leaves hInit
    unfold initializeMemBlockset at hInit
    split at hInit
    swap
    · cases hInit
    dsimp only at hInit
    split at hInit
    · cases hInit
    rename_i blocks hBlocks
    cases hInit
    rw [Nat.add_comm remaining 1, headerSizes_add, List.replicate_add, ← List.singleton_append]
    have hOne := sum_headerSizes hBlock 1
    have hRest := sum_headerSizes hBlock remaining
    refine Hands.append ?_ (ih hBlocks) ?_ ?_
    · unfold headerSizes
      cases n.isHdsOn with
      | true =>
        -- a block with a header region
        refine @hands_singleton ⟨_, some ⟨h, _⟩, ⟨p, n.blockPayloadMemorySize⟩⟩ _ rfl ⟨?_, ?_⟩
        · intro region hRegion
          cases hRegion
          exact Nat.le_refl _
        · exact Nat.le_refl n.blockPayloadMemorySize
      | false =>
        -- a block without
        refine @hands_singleton_of_none ⟨_, none, ⟨p, n.blockPayloadMemorySize⟩⟩ rfl ⟨?_, ?_⟩ h
        · intro region hRegion
          cases hRegion
        · exact Nat.le_refl n.blockPayloadMemorySize
    · intro hBound _
      rw [hOne, Nat.one_mul] at *
      split
      · exact sizeT_of_lt (by omega)
      · rename_i hHds
        rw [hBlock (Bool.eq_false_iff.mpr hHds)]
        rfl
    · intro hBound
      exact sizeT_of_lt (by simpa using Nat.lt_of_le_of_lt (by simp) hBound)

theorem hands_applyMemoryLayoutToSubcomponents
    (hBlock : n.isHdsOn = false → n.blockHeaderMemorySize = 0) (streams : Nat) :
    ∀ {h p : Nat} {leaves : List LeafMemory},
      n.applyMemoryLayoutToSubcomponents streams h p = some leaves →
      Hands h p (n.headerSizes (streams * n.numOfMemoryBlocks))
        (List.replicate (streams * n.numOfMemoryBlocks) n.blockPayloadMemorySize) leaves := by
  induction streams with
  | zero =>
    intro h p leaves hApply
    cases hApply
    have hNone : n.headerSizes (0 * n.numOfMemoryBlocks) = [] := by
      unfold headerSizes
      rw [Nat.zero_mul]
      split <;> rfl
    rw [hNone, Nat.zero_mul]
    exact hands_nil h p
  | succ streams ih =>
    intro h p leaves hApply
    unfold applyMemoryLayoutToSubcomponents at hApply
    split at hApply
    · cases hApply
    rename_i blocks hBlocks
    split at hApply
    · cases hApply
    rename_i rest hRest
    cases hApply
    have hSplit : (streams + 1) * n.numOfMemoryBlocks =
        n.numOfMemoryBlocks + streams * n.numOfMemoryBlocks := by
      rw [Nat.succ_mul, Nat.add_comm]
    rw [hSplit, headerSizes_add, List.replicate_add]
    -- the blocks of the next stream start behind those of this one
    refine (hands_initializeMemBlockset hBlock _ hBlocks).append (ih hRest) ?_ ?_
    · intro hBound _
      rw [sum_headerSizes hBlock] at *
      rw [sizeT_add_sizeT]
      exact sizeT_of_lt (by omega)
    · intro hBound
      rw [List.sum_replicate_nat] at *
      rw [sizeT_add_sizeT]
      exact sizeT_of_lt (by omega)

end MediaSenderMemory

/-! ## Memory subcomponents -/

namespace MemorySubcomponent

/-- The sizes of the header regions a component hands out. -/
def headerSizes : MemorySubcomponent → List Nat
  | receiver node => node.alignedHeaderPayloadBuffersSize.map Prod.fst
  | sender node => node.headerSizes (node.numOfStreams * node.numOfMemoryBlocks)

def payloadSizes : MemorySubcomponent → List Nat
  | receiver node => node.alignedHeaderPayloadBuffersSize.map Prod.snd
  | sender node =>
    List.replicate (node.numOfStreams * node.numOfMemoryBlocks) node.blockPayloadMemorySize

/-- What a component asks for is the sum of what it hands out. -/
structure Initialized (c : MemorySubcomponent) : Prop where
  determine : ∀ sizes, c.determineMemoryLayout = some sizes →
    sizes = (sizeT c.headerSizes.sum, sizeT c.payloadSizes.sum) ∧ sizes.2 ≠ 0
  hands : ∀ layout leaves, layout.payloadMemorySize ≠ 0 →
    c.applyMemoryLayout layout = some leaves →
    Hands layout.headerMemoryPtr layout.payloadMemoryPtr c.headerSizes c.payloadSizes leaves

theorem initialized_receiver {node node' : ReceiverIONodeBase}
    (hInit : node.initializeMemoryLayout = some node') : (receiver node').Initialized := by
  unfold ReceiverIONodeBase.initializeMemoryLayout at hInit
  split at hInit
  · cases hInit
  rename_i sizes header payload hStreams
  cases hInit
  obtain ⟨hLength, hHeader, hPayload⟩ :=
    ReceiverIONodeBase.initializeStreams_eq_some (by decide) (by decide) hStreams
  rw [Nat.zero_add] at hHeader hPayload
  refine ⟨?_, ?_⟩
  · intro request hDetermine
    simp only [determineMemoryLayout, ReceiverIONodeBase.determineMemoryLayout,
      ReceiverIONodeBase.isMemoryLayoutInitialized, decide_eq_true_eq] at hDetermine
    split at hDetermine
    swap
    · cases hDetermine
    rename_i hPositive
    cases hDetermine
    exact ⟨Prod.ext hHeader hPayload, Nat.ne_of_gt hPositive⟩
  · intro layout leaves _ hApply
    simp only [applyMemoryLayout, ReceiverIONodeBase.applyMemoryLayout] at hApply
    split at hApply
    swap
    · cases hApply
    -- the first offsets are zero
    refine (ReceiverIONodeBase.hands_applyStreams hLength hApply).of_ptr ?_ ?_
    · intro hBound _
      by_cases hPtr : layout.headerMemoryPtr = 0
      · simp [ReceiverIONodeBase.streamMemoryLayout, hPtr]
      · simp only [ReceiverIONodeBase.streamMemoryLayout, hPtr, ne_eq, not_false_eq_true, if_true]
        exact sizeT_of_lt (by omega)
    · intro hBound
      exact sizeT_of_lt (by omega)

theorem initialized_sender {node node' : MediaSenderMemory}
    (hInit : node.initializeMemoryLayout = some node') : (sender node').Initialized := by
  unfold MediaSenderMemory.initializeMemoryLayout at hInit
  dsimp only at hInit
  split at hInit
  · cases hInit
  rename_i blocks hBlocks
  have hHds : node'.isHdsOn = node.isHdsOn := by
    cases hInit
    rfl
  have hBlock : node'.isHdsOn = false → node'.blockHeaderMemorySize = 0 := by
    intro hOff
    rw [hHds] at hOff
    cases hInit
    show (if node.isHdsOn then _ else 0) = 0
    rw [hOff]
    rfl
  -- both totals are blocks times size, in another order
  have hHeader : node'.headerTotalMemorySize =
      sizeT (node'.headerSizes (node'.numOfStreams * node'.numOfMemoryBlocks)).sum := by
    rw [MediaSenderMemory.sum_headerSizes hBlock]
    cases hInit
    refine congrArg sizeT ?_
    dsimp only
    ring
  have hPayload : node'.payloadTotalMemorySize = sizeT (List.replicate
      (node'.numOfStreams * node'.numOfMemoryBlocks) node'.blockPayloadMemorySize).sum := by
    rw [List.sum_replicate_nat]
    cases hInit
    refine congrArg sizeT ?_
    dsimp only
    ring
  refine ⟨?_, ?_⟩
  · intro request hDetermine
    simp only [determineMemoryLayout, MediaSenderMemory.determineMemoryLayout] at hDetermine
    split at hDetermine
    · cases hDetermine
    rename_i hPositive
    cases hDetermine
    exact ⟨Prod.ext hHeader hPayload, hPositive⟩
  · intro layout leaves hSize hApply
    simp only [applyMemoryLayout, MediaSenderMemory.applyMemoryLayout] at hApply
    split at hApply
    · rename_i hInternal
      simp [MediaSenderMemory.isInternalAllocationRequested, hSize] at hInternal
    split at hApply
    swap
    · cases hApply
    exact MediaSenderMemory.hands_applyMemoryLayoutToSubcomponents hBlock _ hApply

theorem initialized_of_initializeMemoryLayout {c c' : MemorySubcomponent}
    (hInit : c.initializeMemoryLayout = some c') : c'.Initialized := by
  cases c with
  | receiver node =>
    obtain ⟨node', hNode, rfl⟩ := Option.map_eq_some_iff.mp hInit
    exact initialized_receiver hNode
  | sender node =>
    obtain ⟨node', hNode, rfl⟩ := Option.map_eq_some_iff.mp hInit
    exact initialized_sender hNode

/-- The loop that initialises every subcomponent. -/
theorem initialized_of_mapM {subcomponents : List MemorySubcomponent} :
    ∀ {subcomponents' : List MemorySubcomponent},
      subcomponents.mapM initializeMemoryLayout = some subcomponents' →
      ∀ c ∈ subcomponents', c.Initialized := by
  induction subcomponents with
  | nil =>
    intro subcomponents' hInit
    rw [List.mapM_nil] at hInit
    cases hInit
    exact fun c hc => absurd hc List.not_mem_nil
  | cons first rest ih =>
    intro subcomponents' hInit c hc
    rw [List.mapM_cons] at hInit
    obtain ⟨first', hFirst, hInit⟩ := Option.bind_eq_some_iff.mp hInit
    obtain ⟨rest', hRest, hInit⟩ := Option.bind_eq_some_iff.mp hInit
    cases hInit
    rcases List.mem_cons.mp hc with rfl | hLater
    · exact initialized_of_initializeMemoryLayout hFirst
    · exact ih hRest c hLater

end MemorySubcomponent

/-! ## Strategy -/

namespace RmaxBaseMemoryStrategy

open MemorySubcomponent (Initialized)

/-- The sizes of all header regions, in the order they are handed out. -/
def headerSizes (s : RmaxBaseMemoryStrategy) : List Nat :=
  (s.memorySubcomponents.map MemorySubcomponent.headerSizes).flatten

def payloadSizes (s : RmaxBaseMemoryStrategy) : List Nat :=
  (s.memorySubcomponents.map MemorySubcomponent.payloadSizes).flatten

/-- What a subcomponent asks for, once it is initialised. -/
def requestOf (c : MemorySubcomponent) : Nat × Nat :=
  (sizeT c.headerSizes.sum, sizeT c.payloadSizes.sum)

theorem determineSubcomponents_eq_some {subcomponents : List MemorySubcomponent} :
    ∀ {h p h' p' : Nat} {sizes : List (Nat × Nat)}, (∀ c ∈ subcomponents, c.Initialized) →
      h < 2 ^ 64 → p < 2 ^ 64 → determineSubcomponents subcomponents h p = some (sizes, h', p') →
      sizes = subcomponents.map requestOf ∧ (∀ size ∈ sizes, size.2 ≠ 0) ∧
        h' = sizeT (h + (subcomponents.map MemorySubcomponent.headerSizes).flatten.sum) ∧
        p' = sizeT (p + (subcomponents.map MemorySubcomponent.payloadSizes).flatten.sum) := by
  induction subcomponents with
  | nil =>
    intro h p h' p' sizes _ hh hp hDetermine
    cases hDetermine
    exact ⟨rfl, nofun, (sizeT_of_lt hh).symm, (sizeT_of_lt hp).symm⟩
  | cons c subcomponents ih =>
    intro h p h' p' sizes hInit hh hp hDetermine
    obtain ⟨hFirst, hRest⟩ := List.forall_mem_cons.mp hInit
    unfold determineSubcomponents at hDetermine
    split at hDetermine
    · cases hDetermine
    rename_i request hRequest
    split at hDetermine
    · cases hDetermine
    rename_i rest header payload hOthers
    cases hDetermine
    -- a subcomponent asks for the sum of what it will hand out
    obtain ⟨hSize, hNonzero⟩ := hFirst.determine request hRequest
    obtain ⟨hSizes, hNonzeros, hHeader, hPayload⟩ := ih hRest (sizeT_lt _) (sizeT_lt _) hOthers
    refine ⟨?_, List.forall_mem_cons.mpr ⟨hNonzero, hNonzeros⟩, ?_, ?_⟩
    · rw [hSizes, hSize]
      rfl
    · rw [hHeader, hSize, sizeT_add_sizeT, sizeT_sizeT_add, List.map_cons, List.flatten_cons,
        List.sum_append, Nat.add_assoc]
    · rw [hPayload, hSize, sizeT_add_sizeT, sizeT_sizeT_add, List.map_cons, List.flatten_cons,
        List.sum_append, Nat.add_assoc]

/-- The apply pass over the subcomponents makes the same sums as the request
pass. -/
theorem hands_applySubcomponents {s : RmaxBaseMemoryStrategy} (hApp : s.appAllocatedMemory = true)
    {subcomponents : List MemorySubcomponent} :
    ∀ {h p : Nat} {leaves : List LeafMemory}, (∀ c ∈ subcomponents, c.Initialized) →
      (∀ c ∈ subcomponents, (requestOf c).2 ≠ 0) →
      s.applySubcomponents subcomponents (subcomponents.map requestOf) h p = some leaves →
      Hands h p (subcomponents.map MemorySubcomponent.headerSizes).flatten
        (subcomponents.map MemorySubcomponent.payloadSizes).flatten leaves := by
  induction subcomponents with
  | nil =>
    intro h p leaves _ _ hApply
    cases hApply
    exact hands_nil h p
  | cons c subcomponents ih =>
    intro h p leaves hInit hRequests hApply
    obtain ⟨hFirst, hRest⟩ := List.forall_mem_cons.mp hInit
    obtain ⟨hRequest, hOtherRequests⟩ := List.forall_mem_cons.mp hRequests
    rw [List.map_cons] at hApply
    unfold applySubcomponents at hApply
    rw [if_pos hApp] at hApply
    split at hApply
    · cases hApply
    rename_i own hOwn
    split at hApply
    · cases hApply
    rename_i others hOthers
    cases hApply
    unfold applyMemoryLayoutHelper at hOwn
    rw [Option.ite_none_left_eq_some] at hOwn
    obtain ⟨_, hOwn⟩ := hOwn
    refine (hFirst.hands _ own hRequest hOwn).append (ih hRest hOtherRequests hOthers) ?_ ?_
    · intro hBound hNull
      dsimp only at hBound hNull
      by_cases hPtr : h = 0
      · have := hNull hPtr
        -- a null header buffer stays null
        simp only [hPtr, ne_eq, not_true_eq_false, if_false]
        omega
      · simp only [hPtr, ne_eq, not_false_eq_true, if_true]
        show sizeT (h + sizeT _) = _
        rw [sizeT_add_sizeT]
        exact sizeT_of_lt (by omega)
    · intro hBound
      dsimp only at hBound
      show sizeT (p + sizeT _) = _
      rw [sizeT_add_sizeT]
      exact sizeT_of_lt (by omega)

/-- Nothing is handed out where Rivermax allocates: a receiver needs a payload
buffer, and a sender leaves its blocks to Rivermax. -/
theorem applySubcomponents_eq_nil {s : RmaxBaseMemoryStrategy} (hApp : s.appAllocatedMemory = false)
    {subcomponents : List MemorySubcomponent} :
    ∀ {sizes : List (Nat × Nat)} {h p : Nat} {leaves : List LeafMemory},
      s.applySubcomponents subcomponents sizes h p = some leaves → leaves = [] := by
  induction subcomponents with
  | nil =>
    intro sizes h p leaves hApply
    cases hApply
    rfl
  | cons c subcomponents ih =>
    intro sizes h p leaves hApply
    cases sizes with
    | nil => cases hApply
    | cons size sizes =>
      unfold applySubcomponents at hApply
      rw [if_neg (by simp [hApp])] at hApply
      split at hApply
      · cases hApply
      rename_i own hOwn
      split at hApply
      · cases hApply
      rename_i others hOthers
      cases hApply
      unfold applyMemoryLayoutHelper at hOwn
      rw [Option.ite_none_left_eq_some] at hOwn
      obtain ⟨_, hOwn⟩ := hOwn
      -- a receiver refuses a layout without buffer, a sender hands out nothing
      have hNone : own = [] := by
        cases c with
        | receiver node =>
          simp [MemorySubcomponent.applyMemoryLayout, ReceiverIONodeBase.applyMemoryLayout,
            ReceiverIONodeBase.validateMemoryLayout] at hOwn
        | sender node =>
          simp [MemorySubcomponent.applyMemoryLayout, MediaSenderMemory.applyMemoryLayout,
            MediaSenderMemory.isInternalAllocationRequested] at hOwn
          exact hOwn
      rw [hNone, ih hOthers]
      rfl

theorem applyMemoryLayout_eq_nil {s : RmaxBaseMemoryStrategy} (hApp : s.appAllocatedMemory = false)
    {leaves : List LeafMemory} (hApply : s.applyMemoryLayout = some leaves) : leaves = [] :=
  applySubcomponents_eq_nil hApp hApply

/-! ## The buffers -/

/-- The buffers `allocate_aligned` returns. -/
def headerBufferRegion (s : RmaxBaseMemoryStrategy) : Region := ⟨s.headerBuffer, s.headerMemorySize⟩

def payloadBufferRegion (s : RmaxBaseMemoryStrategy) : Region :=
  ⟨s.payloadBuffer, s.payloadMemorySize⟩

end RmaxBaseMemoryStrategy

/-- What `allocate_aligned` gets from `allocate`: nothing where nothing is asked. -/
def MemoryAllocator.allocation (a : MemoryAllocator) (length : Nat) : Region :=
  if length = 0 then ⟨0, 0⟩
  else ⟨a.allocate (sizeT (length + a.pageSize)), sizeT (length + a.pageSize)⟩

/-- What an operating system grants: an allocation ends inside the address
space, and two allocations do not meet. -/
structure LawfulAllocators (header payload : MemoryAllocator) : Prop where
  headerPage : header.pageSize < 2 ^ 64
  payloadPage : payload.pageSize < 2 ^ 64
  headerEnd : ∀ n, header.allocate n ≠ 0 → header.allocate n + n < 2 ^ 64
  payloadEnd : ∀ n, payload.allocate n ≠ 0 → payload.allocate n + n < 2 ^ 64
  apart : ∀ n m, header.allocate n ≠ 0 → payload.allocate m ≠ 0 →
    Region.Disjoint ⟨header.allocate n, n⟩ ⟨payload.allocate m, m⟩

/-- An address of an allocation that was made. -/
theorem MemoryAllocator.contains_allocate {a : MemoryAllocator} {length ptr : Nat}
    (hPtr : ptr = if length ≠ 0 then a.allocateAligned length a.pageSize else 0)
    (hNull : length = 0 ∨ ptr ≠ 0) {i : Nat} (hi : (a.allocation length).Contains i) :
    a.allocate (sizeT (length + a.pageSize)) ≠ 0 ∧
      Region.Contains
        ⟨a.allocate (sizeT (length + a.pageSize)), sizeT (length + a.pageSize)⟩ i := by
  unfold MemoryAllocator.allocation at hi
  split at hi
  · exact absurd hi.2 (Nat.not_lt_of_le hi.1)
  · rename_i hNonzero
    refine ⟨?_, hi⟩
    intro h0
    rw [if_pos hNonzero] at hPtr
    -- a null allocation is aligned to null
    have hZero : ptr = 0 := by
      rw [hPtr]
      unfold MemoryAllocator.allocateAligned
      simp [h0]
    exact (hNull.resolve_left hNonzero) hZero

/-- The aligned buffer lies in the allocation, if that is as long as it was
meant to be. -/
theorem MemoryAllocator.inside_allocation {a : MemoryAllocator} {length : Nat}
    (hEnd : ∀ n, a.allocate n ≠ 0 → a.allocate n + n < 2 ^ 64)
    (hLength : length + a.pageSize < 2 ^ 64) (hNonzero : length ≠ 0)
    (hPtr : a.allocateAligned length a.pageSize ≠ 0) :
    a.allocate (length + a.pageSize) ≠ 0 ∧
      Region.Inside ⟨a.allocateAligned length a.pageSize, length⟩ (a.allocation length) ∧
      a.allocateAligned length a.pageSize + length < 2 ^ 64 := by
  unfold MemoryAllocator.allocation
  rw [if_neg hNonzero]
  unfold MemoryAllocator.allocateAligned at *
  simp only [sizeT_of_lt hLength] at *
  -- the allocation was made, or the aligned pointer would be null
  have hAllocate : a.allocate (length + a.pageSize) ≠ 0 := by
    intro h0
    rw [h0, Nat.zero_mod] at hPtr
    exact hPtr rfl
  have hRange := hEnd _ hAllocate
  refine ⟨hAllocate, ?_⟩
  split
  · refine ⟨?_, by omega⟩
    intro i hi
    exact ⟨hi.1, by have := hi.2; dsimp only at this ⊢; omega⟩
  -- the pointer moves by less than the page that was asked for in addition
  · rw [sizeT_of_lt (by omega)]
    refine ⟨?_, by omega⟩
    intro i hi
    have hLow := hi.1
    have hHigh := hi.2
    dsimp only at hLow hHigh
    exact ⟨by dsimp only; omega, by dsimp only; omega⟩

/-- **One buffer.** Regions of the given sizes have memory of their own in it
exactly when its length, and one page, fit a `size_t`. -/
theorem partition_buffer_iff {a : MemoryAllocator} {sizes : List Nat} {regions : List Region}
    {ptr : Nat} (hPage : a.pageSize < 2 ^ 64)
    (hEnd : ∀ n, a.allocate n ≠ 0 → a.allocate n + n < 2 ^ 64)
    (hPtr : ptr = if sizeT sizes.sum ≠ 0 then a.allocateAligned (sizeT sizes.sum) a.pageSize else 0)
    (hNull : sizeT sizes.sum = 0 ∨ ptr ≠ 0)
    (hLengths : regions.map Region.length = sizes)
    (hCarve : ptr + sizes.sum < 2 ^ 64 → (ptr = 0 → sizes.sum = 0) →
      regions = Region.carve ptr sizes) :
    (Region.Partition ⟨ptr, sizeT sizes.sum⟩ regions ∧
      Region.Partition (a.allocation (sizeT sizes.sum)) regions) ↔
      sizes.sum + a.pageSize < 2 ^ 64 := by
  constructor
  · rintro ⟨hBuffer, hAllocation⟩
    -- regions that do not meet need as much room as they are long
    have hFits := hBuffer.sum_length_le
    have hRoom := hAllocation.sum_length_le
    rw [hLengths] at hFits hRoom
    dsimp only at hFits
    have hSum : sizeT sizes.sum = sizes.sum := sizeT_of_lt (Nat.lt_of_le_of_lt hFits (sizeT_lt _))
    unfold MemoryAllocator.allocation at hRoom
    rw [hSum] at hRoom
    split at hRoom
    · omega
    · by_contra hOver
      have hWrapped : sizeT (sizes.sum + a.pageSize) = sizes.sum + a.pageSize - 2 ^ 64 := by
        have := sizeT_lt sizes.sum
        rw [hSum] at this
        unfold sizeT
        omega
      dsimp only at hRoom
      rw [hWrapped] at hRoom
      omega
  · intro hFits
    have hSum : sizeT sizes.sum = sizes.sum := sizeT_of_lt (by omega)
    rw [hSum] at hPtr hNull ⊢
    by_cases hZero : sizes.sum = 0
    · -- no buffer was allocated, and every region is empty
      rw [if_neg (by simp [hZero])] at hPtr
      rw [hCarve (by omega) (fun _ => hZero)]
      have hPartition := @Region.partition_carve ⟨ptr, sizes.sum⟩ sizes (Nat.le_refl _)
      refine ⟨hPartition, ?_⟩
      unfold MemoryAllocator.allocation
      rw [if_pos hZero, ← hPtr]
      rw [hZero] at hPartition
      rw [hPtr] at hPartition ⊢
      exact hPartition
    · rw [if_pos hZero] at hPtr
      have hNonNull : ptr ≠ 0 := hNull.resolve_left hZero
      rw [hPtr] at hNonNull
      -- the buffer has the length of all regions, and lies in its allocation
      obtain ⟨_, hInside, hEndOfBuffer⟩ :=
        MemoryAllocator.inside_allocation hEnd hFits hZero hNonNull
      rw [← hPtr] at hNonNull hInside hEndOfBuffer
      rw [hCarve hEndOfBuffer (fun h0 => absurd h0 hNonNull)]
      have hPartition := @Region.partition_carve ⟨ptr, sizes.sum⟩ sizes (Nat.le_refl _)
      exact ⟨hPartition, hPartition.mono hInside⟩

namespace RmaxBaseMemoryStrategy

/-- The leaves have memory of their own, in the buffers and in the allocations
behind them, and enough of it. -/
structure Separated (s : RmaxBaseMemoryStrategy) (leaves : List LeafMemory) : Prop where
  header : s.headerBufferRegion.Partition (headerRegions leaves)
  headerAllocation :
    (s.headerAllocator.allocation s.headerMemorySize).Partition (headerRegions leaves)
  payload : s.payloadBufferRegion.Partition (payloadRegions leaves)
  payloadAllocation :
    (s.payloadAllocator.allocation s.payloadMemorySize).Partition (payloadRegions leaves)
  apart : ∀ header ∈ headerRegions leaves, ∀ payload ∈ payloadRegions leaves,
    header.Disjoint payload
  enough : ∀ leaf ∈ leaves, leaf.Enough

/-- The sums of what is asked for, and a page each, are `size_t` values. -/
def SizesFit (s : RmaxBaseMemoryStrategy) : Prop :=
  s.appAllocatedMemory = true →
    s.headerSizes.sum + s.headerAllocator.pageSize < 2 ^ 64 ∧
      s.payloadSizes.sum + s.payloadAllocator.pageSize < 2 ^ 64

/-- What `determine_memory_layout` leaves behind. -/
structure Determined (s : RmaxBaseMemoryStrategy) : Prop where
  initialized : ∀ c ∈ s.memorySubcomponents, c.Initialized
  requests : ∀ c ∈ s.memorySubcomponents, (requestOf c).2 ≠ 0
  sizes : s.headerPayloadSubcomponentsBufferSizes = s.memorySubcomponents.map requestOf
  headerSize : s.headerMemorySize = sizeT s.headerSizes.sum
  payloadSize : s.payloadMemorySize = sizeT s.payloadSizes.sum

/-- What `allocate_memory` adds. -/
structure Allocated (s : RmaxBaseMemoryStrategy) : Prop extends Determined s where
  headerPtr : s.headerBuffer = if sizeT s.headerSizes.sum ≠ 0 then
    s.headerAllocator.allocateAligned (sizeT s.headerSizes.sum) s.headerAllocator.pageSize else 0
  payloadPtr : s.payloadBuffer = if sizeT s.payloadSizes.sum ≠ 0 then
    s.payloadAllocator.allocateAligned (sizeT s.payloadSizes.sum) s.payloadAllocator.pageSize
      else 0
  headerNull : sizeT s.headerSizes.sum = 0 ∨ s.headerBuffer ≠ 0
  payloadNull : sizeT s.payloadSizes.sum = 0 ∨ s.payloadBuffer ≠ 0

theorem determined_of_determineMemoryLayout {s s' : RmaxBaseMemoryStrategy}
    (hFirst : s.memoryLayoutDetermined = false) (hDetermine : s.determineMemoryLayout = some s') :
    s'.Determined ∧ s'.memoryAllocated = s.memoryAllocated ∧
      s'.headerAllocator = s.headerAllocator ∧ s'.payloadAllocator = s.payloadAllocator := by
  unfold determineMemoryLayout at hDetermine
  rw [if_neg (by simp [hFirst])] at hDetermine
  split at hDetermine
  · cases hDetermine
  rename_i subcomponents hInitialize
  split at hDetermine
  · cases hDetermine
  rename_i sizes header payload hSizes
  cases hDetermine
  -- each subcomponent asks for what it will hand out
  have hInitialized := MemorySubcomponent.initialized_of_mapM hInitialize
  obtain ⟨hRequests, hNonzero, hHeader, hPayload⟩ :=
    determineSubcomponents_eq_some hInitialized (by decide) (by decide) hSizes
  rw [Nat.zero_add] at hHeader hPayload
  refine ⟨⟨hInitialized, ?_, hRequests, hHeader, hPayload⟩, rfl, rfl, rfl⟩
  intro c hc
  refine hNonzero _ ?_
  rw [hRequests]
  exact List.mem_map_of_mem hc

theorem Determined.allocated {s s' : RmaxBaseMemoryStrategy} (hDetermined : s.Determined)
    (hFirst : s.memoryAllocated = false) (hAllocate : s.allocateMemory = some s') :
    s'.appAllocatedMemory = s.appAllocatedMemory ∧ s'.headerAllocator = s.headerAllocator ∧
      s'.payloadAllocator = s.payloadAllocator ∧
      (s.appAllocatedMemory = true → s'.Allocated) := by
  unfold allocateMemory at hAllocate
  split at hAllocate
  · rename_i hSkip
    obtain rfl := Option.some.inj hAllocate
    refine ⟨rfl, rfl, rfl, ?_⟩
    intro hApp
    -- skipped only where Rivermax allocates
    simp [hApp, hFirst] at hSkip
  split at hAllocate
  · cases hAllocate
  rename_i hSizes
  rw [Option.ite_none_right_eq_some] at hAllocate
  obtain ⟨⟨hPayload, hHeader⟩, hState⟩ := hAllocate
  obtain rfl := Option.some.inj hState
  refine ⟨rfl, rfl, rfl, fun _ => ?_⟩
  have hHeaderSize := hDetermined.headerSize
  have hPayloadSize := hDetermined.payloadSize
  have hNonzero : s.payloadMemorySize ≠ 0 := fun h0 => hSizes (.inr h0)
  rw [hPayloadSize] at hNonzero hPayload
  rw [hHeaderSize] at hHeader
  refine ⟨⟨hDetermined.initialized, hDetermined.requests, hDetermined.sizes, hHeaderSize,
    hPayloadSize⟩, ?_, ?_, ?_, ?_⟩
  · show (if s.headerMemorySize ≠ 0 then _ else 0) = _
    rw [hHeaderSize]
    rfl
  · show s.payloadAllocator.allocateAligned s.payloadMemorySize _ = _
    rw [hPayloadSize]
    exact (if_pos hNonzero).symm
  · show _ ∨ (if s.headerMemorySize ≠ 0 then _ else 0) ≠ 0
    rw [hHeaderSize]
    exact hHeader
  · refine .inr ?_
    show s.payloadAllocator.allocateAligned s.payloadMemorySize _ ≠ 0
    rw [hPayloadSize]
    exact hPayload

/-- Registration touches nothing but the keys. -/
theorem registerMemoryRegions_eq_some {rmxRegisterMemory : Nat → Region → Option Nat}
    {s s' : RmaxBaseMemoryStrategy}
    (hRegister : s.registerMemoryRegions rmxRegisterMemory = some s') :
    ∃ headerKeys payloadKeys registered,
      s' = { s with
        headerMemRegions := headerKeys
        payloadMemRegions := payloadKeys
        memoryRegistered := registered } := by
  unfold registerMemoryRegions at hRegister
  split at hRegister
  · exact ⟨_, _, _, (Option.some.inj hRegister).symm⟩
  split at hRegister
  · cases hRegister
  split at hRegister
  · exact ⟨_, _, _, (Option.some.inj hRegister).symm⟩
  · cases hRegister

theorem Allocated.registered {s : RmaxBaseMemoryStrategy} (hAllocated : s.Allocated)
    (headerKeys payloadKeys : List (Option Nat)) (registered : Bool) :
    Allocated { s with
      headerMemRegions := headerKeys
      payloadMemRegions := payloadKeys
      memoryRegistered := registered } :=
  ⟨⟨hAllocated.initialized, hAllocated.requests, hAllocated.sizes, hAllocated.headerSize,
    hAllocated.payloadSize⟩, hAllocated.headerPtr, hAllocated.payloadPtr, hAllocated.headerNull,
    hAllocated.payloadNull⟩

/-- The apply pass over buffers of the application. -/
theorem Allocated.leaves_separated_iff {s : RmaxBaseMemoryStrategy} (hAllocated : s.Allocated)
    (hAllocators : LawfulAllocators s.headerAllocator s.payloadAllocator)
    (hApp : s.appAllocatedMemory = true) {leaves : List LeafMemory}
    (hApply : s.applyMemoryLayout = some leaves) : s.Separated leaves ↔ s.SizesFit := by
  unfold applyMemoryLayout at hApply
  rw [hAllocated.sizes] at hApply
  -- the leaves are carved from the two buffers, each in the order of its sizes
  have hHands := hands_applySubcomponents hApp hAllocated.initialized hAllocated.requests hApply
  have hHeaders := partition_buffer_iff hAllocators.headerPage hAllocators.headerEnd
    hAllocated.headerPtr hAllocated.headerNull hHands.headerLengths hHands.headers
  have hPayloads := partition_buffer_iff hAllocators.payloadPage hAllocators.payloadEnd
    hAllocated.payloadPtr hAllocated.payloadNull hHands.payloadLengths
    (fun hBound _ => hHands.payloads hBound)
  rw [← hAllocated.headerSize] at hHeaders
  rw [← hAllocated.payloadSize] at hPayloads
  constructor
  · intro hSeparated _
    exact ⟨hHeaders.mp ⟨hSeparated.header, hSeparated.headerAllocation⟩,
      hPayloads.mp ⟨hSeparated.payload, hSeparated.payloadAllocation⟩⟩
  · intro hFit
    obtain ⟨hHeader, hHeaderAllocation⟩ := hHeaders.mpr (hFit hApp).1
    obtain ⟨hPayload, hPayloadAllocation⟩ := hPayloads.mpr (hFit hApp).2
    refine ⟨hHeader, hHeaderAllocation, hPayload, hPayloadAllocation, ?_, hHands.enough⟩
    intro header hh payload hp
    -- the two allocations do not meet
    have hInHeader := hHeaderAllocation.inside header hh
    have hInPayload := hPayloadAllocation.inside payload hp
    intro i hi hi'
    rw [hAllocated.headerSize] at hInHeader
    rw [hAllocated.payloadSize] at hInPayload
    obtain ⟨hMade, hContains⟩ := MemoryAllocator.contains_allocate hAllocated.headerPtr
      hAllocated.headerNull (hInHeader i hi)
    obtain ⟨hMade', hContains'⟩ := MemoryAllocator.contains_allocate hAllocated.payloadPtr
      hAllocated.payloadNull (hInPayload i hi')
    exact hAllocators.apart _ _ hMade hMade' i hContains hContains'

/-- **Partition.** Once `determine_memory_layout`, `allocate_memory`,
`register_memory` and `apply_memory_layout` succeed, every leaf has memory of its
own, inside the buffers and their allocations and as large as it asked for,
exactly when the sums did not wrap around. -/
theorem separated_iff {headerAllocator payloadAllocator : MemoryAllocator}
    (hAllocators : LawfulAllocators headerAllocator payloadAllocator) {numOfMemRegions : Nat}
    {appAllocatedMemory registerMemory : Bool} {subcomponents : List MemorySubcomponent}
    {rmxRegisterMemory : Nat → Region → Option Nat}
    {determined allocated s : RmaxBaseMemoryStrategy}
    {leaves : List LeafMemory}
    (hDetermine : (create headerAllocator payloadAllocator numOfMemRegions appAllocatedMemory
      registerMemory subcomponents).determineMemoryLayout = some determined)
    (hAllocate : determined.allocateMemory = some allocated)
    (hRegister : allocated.registerMemoryRegions rmxRegisterMemory = some s)
    (hApply : s.applyMemoryLayout = some leaves) : s.Separated leaves ↔ s.SizesFit := by
  obtain ⟨hDetermined, hFirst, hHeader, hPayload⟩ :=
    determined_of_determineMemoryLayout rfl hDetermine
  obtain ⟨hApp, hHeader', hPayload', hAllocated⟩ := hDetermined.allocated hFirst hAllocate
  obtain ⟨headerKeys, payloadKeys, registered, rfl⟩ := registerMemoryRegions_eq_some hRegister
  rw [← hHeader'] at hHeader
  rw [← hPayload'] at hPayload
  cases hOwn : determined.appAllocatedMemory with
  | false =>
    rw [hOwn] at hApp
    -- Rivermax allocates: no leaf, and nothing to fit
    obtain rfl := applyMemoryLayout_eq_nil (by exact hApp) hApply
    constructor
    · intro _ hApp'
      exact absurd (hApp.symm.trans hApp') (by decide)
    · exact fun _ => ⟨Region.partition_nil _, Region.partition_nil _, Region.partition_nil _,
        Region.partition_nil _, nofun, nofun⟩
  | true =>
    refine ((hAllocated hOwn).registered headerKeys payloadKeys registered).leaves_separated_iff ?_
      (hApp.trans hOwn) hApply
    show LawfulAllocators allocated.headerAllocator allocated.payloadAllocator
    rw [hHeader, hPayload]
    exact hAllocators

/-- Memory that grants up to a gibibyte, not at a page boundary. -/
def demoHeaderAllocator : MemoryAllocator :=
  { pageSize := 4096, allocate := fun n => if n ≤ 2 ^ 30 then 2 ^ 33 + 16 else 0 }

def demoPayloadAllocator : MemoryAllocator :=
  { pageSize := 4096, allocate := fun n => if n ≤ 2 ^ 30 then 2 ^ 32 + 8 else 0 }

theorem lawful_demo : LawfulAllocators demoHeaderAllocator demoPayloadAllocator where
  headerPage := by decide
  payloadPage := by decide
  headerEnd := by
    intro n hMade
    by_cases hn : n ≤ 2 ^ 30
    · simp only [demoHeaderAllocator, if_pos hn]
      omega
    · exact absurd (if_neg hn) hMade
  payloadEnd := by
    intro n hMade
    by_cases hn : n ≤ 2 ^ 30
    · simp only [demoPayloadAllocator, if_pos hn]
      omega
    · exact absurd (if_neg hn) hMade
  apart := by
    intro n m hMade hMade' i hi hi'
    by_cases hn : n ≤ 2 ^ 30
    · by_cases hm : m ≤ 2 ^ 30
      · have hLow := hi.1
        have hHigh := hi'.2
        simp only [demoHeaderAllocator, demoPayloadAllocator, if_pos hn, if_pos hm] at hLow hHigh
        omega
      · exact hMade' (if_neg hm)
    · exact hMade (if_neg hn)

def demoUtils : IONodeMemoryUtils := ⟨demoHeaderAllocator, demoPayloadAllocator⟩

/-- A receiver of a stream with a header buffer and of one without, both over two
paths, and a sender of two streams with header-data split. -/
def demoSubcomponents : List MemorySubcomponent :=
  [.receiver
      { streams := [
          .ipo ⟨List.replicate 2 { headerBlock := some 100, payloadBlock := some 5000 }⟩,
          .ipo ⟨List.replicate 2 { headerBlock := none, payloadBlock := some 1200 }⟩]
        memoryUtils := demoUtils },
    .sender
      { numOfStreams := 2
        mediaSettings := { frameRate := ⟨60, 1⟩, resolution := ⟨1920, 1080⟩ }
        packetHeaderSize := 20
        packetPayloadSize := 1200
        numOfPacketsInChunk := 4
        numOfChunksInMemBlock := 2
        appHeaderStrideSize := 64
        dataStrideSize := 1216
        memoryUtils := demoUtils }]

/-- Two receivers whose streams together ask for `2 ^ 64` bytes and a page. -/
def demoOverflow : List MemorySubcomponent :=
  [.receiver
      { streams := [.single { headerBlock := none, payloadBlock := some (2 ^ 63) }]
        memoryUtils := demoUtils },
    .receiver
      { streams := [.single { headerBlock := none, payloadBlock := some (2 ^ 63 + 4096) }]
        memoryUtils := demoUtils }]

/-- The sums wrap around to one page, which is allocated and handed out. -/
theorem not_separated_demoOverflow :
    LawfulAllocators demoHeaderAllocator demoPayloadAllocator ∧
    ∃ determined allocated s leaves,
      (create demoHeaderAllocator demoPayloadAllocator 1 true false
        demoOverflow).determineMemoryLayout = some determined ∧
      determined.allocateMemory = some allocated ∧
      allocated.registerMemoryRegions (fun _ _ => none) = some s ∧
      s.applyMemoryLayout = some leaves ∧ leaves.length = 2 ∧ ¬ s.Separated leaves := by
  refine ⟨lawful_demo, _, _, _, _, rfl, rfl, rfl, rfl, by decide, ?_⟩
  intro hSeparated
  -- the first stream is given half of the address space
  have hInside := hSeparated.payload.inside ⟨2 ^ 32 + 4096, 2 ^ 63⟩ (by decide)
  have hLast := (hInside (2 ^ 32 + 2 ^ 62) ⟨by decide, by decide⟩).2
  exact absurd hLast (by decide)

theorem separated_demo :
    ∃ determined allocated s leaves,
      (create demoHeaderAllocator demoPayloadAllocator 2 true true
        demoSubcomponents).determineMemoryLayout = some determined ∧
      determined.allocateMemory = some allocated ∧
      allocated.registerMemoryRegions (fun i _ => some i) = some s ∧
      s.applyMemoryLayout = some leaves ∧ leaves.length = 4 ∧ s.Separated leaves := by
  refine ⟨_, _, _, _, rfl, rfl, rfl, rfl, by decide, ?_⟩
  refine (@separated_iff _ _ lawful_demo 2 true true demoSubcomponents (fun i _ => some i)
    _ _ _ _ rfl rfl rfl rfl).mpr ?_
  exact fun _ => ⟨by decide, by decide⟩

end RmaxBaseMemoryStrategy

end RivermaxDevKit
