import Mathlib.Data.List.Basic
import Mathlib.Data.List.Induction
import Mathlib.Logic.Function.Basic
import Mathlib.Tactic.Common

/-!
# Static RCU

`StaticRCU` (`static_rcu.h`): one writer hands a value to any number of readers
through `num_versions` buffers. A value is copied part by part, and the steps of
the threads come in any order.

* `RcuInv.step` — what holds of the buffers, the index and the readers at every
  step of a thread.
* `reads_one_version` — until `num_versions` updates have begun beyond the version
  published at `read()`, everything read through the reference is of that version;
  an update under way when the index is loaded counts too.

A step is one atomic load or store, or the copy of one part; the acquire and
release orders are taken for this interleaving.
-/

namespace RivermaxDevKit

/-! ## The class -/

/-- The members of a `StaticRCU`. A version is the buffer its pointer is to. -/
structure StaticRcu (W : Type) where
  buffer : Nat → Nat → W
  versions : Nat → Nat := id
  currentIndex : Nat := 0

def StaticRcu.setPart {W : Type} (m : StaticRcu W) (index part : Nat) (w : W) : StaticRcu W :=
  { m with buffer := Function.update m.buffer index (Function.update (m.buffer index) part w) }

/-- Where `update` stands: between calls, copying `new_data` with the parts in
`todo` still to come, or before the store of the new index. -/
inductive UpdateStep (W : Type)
  | idle
  | copying (newIndex : Nat) (newData : Nat → W) (todo : List Nat)
  | storeIndex (newIndex : Nat)

/-- A part read through the reference, and how many updates had begun then. -/
structure PartRead (W : Type) where
  part : Nat
  value : W
  begun : Nat

/-- Where a reader stands: before `read()`, between its two loads, or holding the
reference to a buffer. -/
inductive ReadStep (W : Type)
  | idle
  | indexed (index : Nat)
  | reading (index : Nat) (parts : List (PartRead W))

/-! ## The threads -/

/-- The writer and the readers. The last three fields are for the proofs: every
value so far, the initial one first, how many updates are published, and how many
were when a reader called `read()`. -/
structure RcuThreads (W ι : Type) where
  rcu : StaticRcu W
  writer : UpdateStep W := .idle
  readers : ι → ReadStep W := fun _ => .idle
  history : List (Nat → W)
  published : Nat := 0
  since : ι → Nat := fun _ => 0

namespace RcuThreads

variable {W ι : Type}

/-- A `StaticRCU` as constructed, with the initial value of its buffers. -/
def start (value : Nat → W) : RcuThreads W ι where
  rcu := { buffer := fun _ => value }
  history := [value]

/-- The updates that began so far. -/
def begun (s : RcuThreads W ι) : Nat := s.history.length - 1

variable (numVersions parts : Nat)

/-- The call of `update`. The parts of `new_data` are copied in the given order. -/
def update (newData : Nat → W) (order : List Nat) (s : RcuThreads W ι) :
    Option (RcuThreads W ι) :=
  match s.writer with
  | .idle =>
    -- the copy may go over a part twice, and leaves none out
    if ∀ k < parts, k ∈ order then
      some { s with
        writer := .copying ((s.rcu.currentIndex + 1) % numVersions) newData order
        history := s.history ++ [newData] }
    else none
  | _ => none

/-- The next step of `update`. -/
def writerStep (s : RcuThreads W ι) : Option (RcuThreads W ι) :=
  match s.writer with
  | .idle => none
  | .copying newIndex newData (k :: todo) =>
    some { s with
      rcu := s.rcu.setPart newIndex k (newData k)
      writer := .copying newIndex newData todo }
  -- the pointer is stored behind the last part
  | .copying newIndex _ [] =>
    some { s with
      rcu := { s.rcu with versions := Function.update s.rcu.versions newIndex newIndex }
      writer := .storeIndex newIndex }
  | .storeIndex newIndex =>
    some { s with
      rcu := { s.rcu with currentIndex := newIndex }
      writer := .idle
      published := s.published + 1 }

/-- The first load of `read()`. -/
def loadIndex [DecidableEq ι] (r : ι) (s : RcuThreads W ι) : RcuThreads W ι :=
  { s with
    readers := Function.update s.readers r (.indexed s.rcu.currentIndex)
    since := Function.update s.since r s.published }

/-- The second load of `read()`, which gives the reference. -/
def loadVersion [DecidableEq ι] (r : ι) (s : RcuThreads W ι) : Option (RcuThreads W ι) :=
  match s.readers r with
  | .indexed index =>
    some { s with
      readers := Function.update s.readers r (.reading (s.rcu.versions index) []) }
  | _ => none

/-- A part is read through the reference. -/
def readPart [DecidableEq ι] (r : ι) (part : Nat) (s : RcuThreads W ι) : Option (RcuThreads W ι) :=
  match s.readers r with
  | .reading index read =>
    if part < parts then
      some { s with
        -- the count of updates begun tells later whether the part was read in time
        readers := Function.update s.readers r
          (.reading index (⟨part, s.rcu.buffer index part, s.begun⟩ :: read)) }
    else none
  | _ => none

end RcuThreads

inductive RcuEvent (W ι : Type)
  | update (newData : Nat → W) (order : List Nat)
  | writerStep
  | loadIndex (r : ι)
  | loadVersion (r : ι)
  | readPart (r : ι) (part : Nat)

def RcuThreads.step {W ι : Type} [DecidableEq ι] (numVersions parts : Nat) (s : RcuThreads W ι) :
    RcuEvent W ι → Option (RcuThreads W ι)
  | .update newData order => s.update numVersions parts newData order
  | .writerStep => s.writerStep
  | .loadIndex r => some (s.loadIndex r)
  | .loadVersion r => s.loadVersion r
  | .readPart r part => s.readPart parts r part

/-- The threads after the steps, in this order, of an initial value. -/
def runRcu {W ι : Type} [DecidableEq ι] (numVersions parts : Nat) (value : Nat → W)
    (events : List (RcuEvent W ι)) : Option (RcuThreads W ι) :=
  events.foldlM (RcuThreads.step numVersions parts) (.start value)

/-! ## What a step can do -/

namespace RcuThreads

variable {W ι : Type} {numVersions parts : Nat} {s s' : RcuThreads W ι}

theorem update_eq_some {newData : Nat → W} {order : List Nat}
    (h : s.update numVersions parts newData order = some s') :
    s.writer = .idle ∧ (∀ k < parts, k ∈ order) ∧
      s' = { s with
        writer := .copying ((s.rcu.currentIndex + 1) % numVersions) newData order
        history := s.history ++ [newData] } := by
  unfold RcuThreads.update at h
  split at h
  case h_1 hIdle =>
    split at h
    case isTrue hOrder => exact ⟨hIdle, hOrder, (Option.some.inj h).symm⟩
    case isFalse => cases h
  case h_2 => cases h

theorem writerStep_eq_some (h : s.writerStep = some s') :
    (∃ newIndex newData k todo, s.writer = .copying newIndex newData (k :: todo) ∧
      s' = { s with
        rcu := s.rcu.setPart newIndex k (newData k)
        writer := .copying newIndex newData todo }) ∨
    (∃ newIndex newData, s.writer = .copying newIndex newData [] ∧
      s' = { s with
        rcu := { s.rcu with versions := Function.update s.rcu.versions newIndex newIndex }
        writer := .storeIndex newIndex }) ∨
    ∃ newIndex, s.writer = .storeIndex newIndex ∧
      s' = { s with
        rcu := { s.rcu with currentIndex := newIndex }
        writer := .idle
        published := s.published + 1 } := by
  unfold RcuThreads.writerStep at h
  split at h
  case h_1 => cases h
  case h_2 newIndex newData k todo hWriter =>
    exact Or.inl ⟨newIndex, newData, k, todo, hWriter, (Option.some.inj h).symm⟩
  case h_3 newIndex newData hWriter =>
    exact Or.inr (Or.inl ⟨newIndex, newData, hWriter, (Option.some.inj h).symm⟩)
  case h_4 newIndex hWriter =>
    exact Or.inr (Or.inr ⟨newIndex, hWriter, (Option.some.inj h).symm⟩)

theorem loadVersion_eq_some [DecidableEq ι] {r : ι} (h : s.loadVersion r = some s') :
    ∃ index, s.readers r = .indexed index ∧
      s' = { s with
        readers := Function.update s.readers r (.reading (s.rcu.versions index) []) } := by
  unfold RcuThreads.loadVersion at h
  split at h
  case h_1 index hReader => exact ⟨index, hReader, (Option.some.inj h).symm⟩
  case h_2 => cases h

theorem readPart_eq_some [DecidableEq ι] {r : ι} {part : Nat}
    (h : s.readPart parts r part = some s') :
    ∃ index read, s.readers r = .reading index read ∧ part < parts ∧
      s' = { s with
        readers := Function.update s.readers r
          (.reading index (⟨part, s.rcu.buffer index part, s.begun⟩ :: read)) } := by
  unfold RcuThreads.readPart at h
  split at h
  case h_1 index read hReader =>
    split at h
    case isTrue hPart => exact ⟨index, read, hReader, hPart, (Option.some.inj h).symm⟩
    case isFalse => cases h
  case h_2 => cases h

end RcuThreads

/-! ## What the steps keep -/

/-- What the writer has done of its call: the new version is the one behind the
published one, and the parts that are not to come are in its buffer. -/
def WriterInv {W ι : Type} (numVersions parts : Nat) (s : RcuThreads W ι) : Prop :=
  match s.writer with
  | .idle => s.history.length = s.published + 1
  | .copying newIndex newData todo =>
    newIndex = (s.published + 1) % numVersions ∧ s.history.length = s.published + 2 ∧
      s.history[s.published + 1]? = some newData ∧
        ∀ k < parts, k ∈ todo ∨ s.rcu.buffer newIndex k = newData k
  | .storeIndex newIndex =>
    newIndex = (s.published + 1) % numVersions ∧ s.history.length = s.published + 2 ∧
      ∃ newData, s.history[s.published + 1]? = some newData ∧
        ∀ k < parts, s.rcu.buffer newIndex k = newData k

/-- A reader is at the buffer of the version it was given, and what it read while
that buffer was left alone is that version. -/
def ReaderInv {W ι : Type} (numVersions : Nat) (s : RcuThreads W ι) (r : ι) : Prop :=
  match s.readers r with
  | .idle => True
  | .indexed index => index = s.since r % numVersions
  | .reading index read =>
    index = s.since r % numVersions ∧
      ∀ p ∈ read, p.begun < s.since r + numVersions →
        ∀ d, s.history[s.since r]? = some d → p.value = d p.part

/-- The invariant of the threads. A published version stays in its buffer until
`num_versions` updates have begun behind it. -/
structure RcuInv {W ι : Type} (numVersions parts : Nat) (s : RcuThreads W ι) : Prop where
  versions_eq : ∀ i < numVersions, s.rcu.versions i = i
  index_eq : s.rcu.currentIndex = s.published % numVersions
  writer : WriterInv numVersions parts s
  kept : ∀ v ≤ s.published, s.history.length ≤ v + numVersions →
    ∀ d, s.history[v]? = some d → ∀ k < parts, s.rcu.buffer (v % numVersions) k = d k
  since_le : ∀ r, s.since r ≤ s.published
  reader : ∀ r, ReaderInv numVersions s r

/-- Versions less than a turn apart are in different buffers. -/
theorem mod_ne_of_lt_turn {v q n : Nat} (hLt : v < q) (hTurn : q < v + n) : v % n ≠ q % n := by
  intro hEq
  have hZero : (q - v) % n = 0 := Nat.sub_mod_eq_zero_of_mod_eq hEq.symm
  rw [Nat.mod_eq_of_lt (by omega)] at hZero
  omega

namespace RcuInv

variable {W ι : Type} {numVersions parts : Nat} {s s' : RcuThreads W ι}

theorem published_lt (h : RcuInv numVersions parts s) : s.published < s.history.length := by
  have hWriter := h.writer
  unfold WriterInv at hWriter
  split at hWriter <;> omega

/-- A step of the writer leaves what the readers have read. -/
theorem reader_of_eq (h : RcuInv numVersions parts s) {r : ι}
    (hReader : s'.readers r = s.readers r) (hSince : s'.since r = s.since r)
    (hHistory : s'.history[s.since r]? = s.history[s.since r]?) :
    ReaderInv numVersions s' r := by
  have hr := h.reader r
  unfold ReaderInv at hr ⊢
  rw [hReader, hSince, hHistory]
  exact hr

theorem update {newData : Nat → W} {order : List Nat}
    (h : RcuInv numVersions parts s)
    (hStep : s.update numVersions parts newData order = some s') :
    RcuInv numVersions parts s' := by
  have hPublished := h.published_lt
  have hWriter := h.writer
  obtain ⟨hIdle, hOrder, rfl⟩ := RcuThreads.update_eq_some hStep
  rw [WriterInv, hIdle] at hWriter
  refine { h with writer := ?_, kept := ?_, reader := ?_ }
  · -- every part is still to come
    refine ⟨?_, ?_, ?_, fun k hk => Or.inl (hOrder k hk)⟩
    · rw [h.index_eq, Nat.mod_add_mod]
    · simp only [List.length_append, List.length_singleton]
      omega
    · rw [← hWriter]
      exact List.getElem?_concat_length
  · -- with one more update begun, fewer versions count as kept
    intro v (hv : v ≤ s.published) hTurn d hd
    rw [List.getElem?_append_left (by omega)] at hd
    simp only [List.length_append, List.length_singleton] at hTurn
    exact h.kept v hv (by omega) d hd
  · intro r
    have hSince := h.since_le r
    exact h.reader_of_eq rfl rfl (List.getElem?_append_left (by omega))

theorem writerStep (h : RcuInv numVersions parts s) (hStep : s.writerStep = some s') :
    RcuInv numVersions parts s' := by
  have hWriter := h.writer
  rcases RcuThreads.writerStep_eq_some hStep with
    ⟨newIndex, newData, k, todo, hCopying, rfl⟩ | ⟨newIndex, newData, hCopying, rfl⟩ |
      ⟨newIndex, hStoring, rfl⟩
  · -- the copy of a part
    rw [WriterInv, hCopying] at hWriter
    obtain ⟨hIndex, hLength, hNew, hParts⟩ := hWriter
    refine { h with writer := ?_, kept := ?_, reader := fun r => h.reader_of_eq rfl rfl rfl }
    · refine ⟨hIndex, hLength, hNew, fun j hj => ?_⟩
      -- the part just copied is in the buffer, the others were or are to come
      rcases eq_or_ne j k with rfl | hNe
      · right
        simp [StaticRcu.setPart]
      · rcases hParts j hj with hTodo | hDone
        · exact Or.inl ((List.mem_cons.mp hTodo).resolve_left hNe)
        · right
          simpa [StaticRcu.setPart, hNe] using hDone
    · intro v (hv : v ≤ s.published) (hTurn : s.history.length ≤ v + numVersions) d hd j hj
      -- the versions that count are not in that buffer
      have hNe : v % numVersions ≠ newIndex := by
        rw [hIndex]
        exact mod_ne_of_lt_turn (by omega) (by omega)
      simpa [StaticRcu.setPart, hNe] using h.kept v hv hTurn d hd j hj
  · -- the store of the pointer
    rw [WriterInv, hCopying] at hWriter
    obtain ⟨hIndex, hLength, hNew, hParts⟩ := hWriter
    refine { h with versions_eq := ?_, writer := ?_, reader := fun r => h.reader_of_eq rfl rfl rfl }
    · intro i hi
      rcases eq_or_ne i newIndex with rfl | hNe
      · simp
      · simpa [hNe] using h.versions_eq i hi
    · exact ⟨hIndex, hLength, newData, hNew, fun k hk =>
        (hParts k hk).resolve_left List.not_mem_nil⟩
  · -- the store of the index: the version is published
    rw [WriterInv, hStoring] at hWriter
    obtain ⟨hIndex, hLength, newData, hNew, hParts⟩ := hWriter
    refine { h with
      index_eq := hIndex, writer := hLength, kept := ?_
      since_le := fun r => Nat.le_succ_of_le (h.since_le r)
      reader := fun r => h.reader_of_eq rfl rfl rfl }
    intro v hv hTurn d hd k hk
    -- the new version has all its parts, the older ones are kept as before
    rcases Nat.lt_or_ge s.published v with hLast | hBefore
    · obtain rfl : v = s.published + 1 := Nat.le_antisymm hv hLast
      obtain rfl : newData = d := Option.some.inj (hNew.symm.trans hd)
      rw [← hIndex]
      exact hParts k hk
    · exact h.kept v hBefore hTurn d hd k hk

theorem loadIndex [DecidableEq ι] (h : RcuInv numVersions parts s) (r : ι) :
    RcuInv numVersions parts (s.loadIndex r) := by
  refine { h with since_le := ?_, reader := ?_ }
  · intro q
    rcases eq_or_ne q r with rfl | hNe
    · simp [RcuThreads.loadIndex]
    · simpa [RcuThreads.loadIndex, hNe] using h.since_le q
  · intro q
    rcases eq_or_ne q r with rfl | hNe
    · -- the index loaded is that of the version published last
      simp [ReaderInv, RcuThreads.loadIndex, h.index_eq]
    · exact h.reader_of_eq (by simp [RcuThreads.loadIndex, hNe])
        (by simp [RcuThreads.loadIndex, hNe]) rfl

theorem loadVersion [DecidableEq ι] {r : ι} (hVersions : 0 < numVersions)
    (h : RcuInv numVersions parts s) (hStep : s.loadVersion r = some s') :
    RcuInv numVersions parts s' := by
  have hReader := h.reader r
  obtain ⟨index, hIndexed, rfl⟩ := RcuThreads.loadVersion_eq_some hStep
  rw [ReaderInv, hIndexed] at hReader
  refine { h with reader := fun q => ?_ }
  rcases eq_or_ne q r with rfl | hNe
  · -- the pointer is to the buffer of its index
    simp only [ReaderInv, Function.update_self]
    refine ⟨?_, fun p hp => absurd hp List.not_mem_nil⟩
    rw [hReader]
    exact h.versions_eq _ (Nat.mod_lt _ hVersions)
  · exact h.reader_of_eq (by simp [hNe]) rfl rfl

theorem readPart [DecidableEq ι] {r : ι} {part : Nat} (h : RcuInv numVersions parts s)
    (hStep : s.readPart parts r part = some s') : RcuInv numVersions parts s' := by
  have hPublished := h.published_lt
  have hReader := h.reader r
  obtain ⟨index, read, hReading, hPart, rfl⟩ := RcuThreads.readPart_eq_some hStep
  rw [ReaderInv, hReading] at hReader
  obtain ⟨hIndex, hRead⟩ := hReader
  refine { h with reader := fun q => ?_ }
  rcases eq_or_ne q r with rfl | hNe
  · simp only [ReaderInv, Function.update_self]
    refine ⟨hIndex, fun p hp hFresh d hd => ?_⟩
    rcases List.mem_cons.mp hp with rfl | hOld
    · -- the buffer is still that of the version
      have hTurn : s.history.length ≤ s.since q + numVersions := by
        have : s.history.length - 1 < s.since q + numVersions := hFresh
        omega
      rw [hIndex]
      exact h.kept _ (h.since_le q) hTurn d hd part hPart
    · exact hRead p hOld hFresh d hd
  · exact h.reader_of_eq (by simp [hNe]) rfl rfl

/-- Every step of a thread keeps the invariant. -/
theorem step [DecidableEq ι] (hVersions : 0 < numVersions) (h : RcuInv numVersions parts s)
    {event : RcuEvent W ι} (hStep : s.step numVersions parts event = some s') :
    RcuInv numVersions parts s' := by
  cases event with
  | update newData order => exact h.update hStep
  | writerStep => exact h.writerStep hStep
  | loadIndex r =>
    obtain rfl := Option.some.inj hStep
    exact h.loadIndex r
  | loadVersion r => exact h.loadVersion hVersions hStep
  | readPart r part => exact h.readPart hStep

theorem start (value : Nat → W) :
    RcuInv numVersions parts (RcuThreads.start value : RcuThreads W ι) where
  versions_eq _ _ := rfl
  index_eq := (Nat.zero_mod numVersions).symm
  writer := rfl
  kept v hv _ d hd k _ := by
    obtain rfl : v = 0 := Nat.le_zero.mp hv
    exact congrFun (Option.some.inj hd) k
  since_le _ := Nat.le_refl 0
  reader _ := trivial

end RcuInv

/-! ## Runs -/

/-- The values given to `update`. -/
def updatesOf {W ι : Type} (events : List (RcuEvent W ι)) : List (Nat → W) :=
  events.filterMap fun
    | .update newData _ => some newData
    | _ => none

def RcuEvent.IsReadOf {W ι : Type} (r : ι) : RcuEvent W ι → Prop
  | .loadIndex q => q = r
  | _ => False

section Runs

variable {W ι : Type} [DecidableEq ι] {numVersions parts : Nat} {value : Nat → W}

theorem runRcu_inv (hVersions : 0 < numVersions) {events : List (RcuEvent W ι)}
    {s : RcuThreads W ι} (hRun : runRcu numVersions parts value events = some s) :
    RcuInv numVersions parts s := by
  induction events using List.reverseRecOn generalizing s with
  | nil =>
    obtain rfl := Option.some.inj hRun
    exact .start value
  | append_singleton events event ih =>
    rw [runRcu, List.foldlM_append] at hRun
    obtain ⟨before, hBefore, hLast⟩ := Option.bind_eq_some_iff.mp hRun
    simp only [List.foldlM_cons, List.foldlM_nil, bind_pure] at hLast
    exact (ih hBefore).step hVersions hLast

theorem history_step {s s' : RcuThreads W ι} {event : RcuEvent W ι}
    (hStep : s.step numVersions parts event = some s') :
    s'.history = s.history ++ updatesOf [event] := by
  cases event with
  | update newData order =>
    obtain ⟨-, -, rfl⟩ := RcuThreads.update_eq_some hStep
    rfl
  | writerStep =>
    rcases RcuThreads.writerStep_eq_some hStep with
      ⟨_, _, _, _, -, rfl⟩ | ⟨_, _, -, rfl⟩ | ⟨_, -, rfl⟩ <;>
    exact (List.append_nil _).symm
  | loadIndex r =>
    obtain rfl := Option.some.inj hStep
    exact (List.append_nil _).symm
  | loadVersion r =>
    obtain ⟨_, -, rfl⟩ := RcuThreads.loadVersion_eq_some hStep
    exact (List.append_nil _).symm
  | readPart r part =>
    obtain ⟨_, _, -, -, rfl⟩ := RcuThreads.readPart_eq_some hStep
    exact (List.append_nil _).symm

/-- A reader keeps its version until its next `read()`. -/
theorem since_step {s s' : RcuThreads W ι} {event : RcuEvent W ι} {r : ι}
    (hStep : s.step numVersions parts event = some s') (hSame : ¬event.IsReadOf r) :
    s'.since r = s.since r := by
  cases event with
  | update newData order =>
    obtain ⟨-, -, rfl⟩ := RcuThreads.update_eq_some hStep
    rfl
  | writerStep =>
    rcases RcuThreads.writerStep_eq_some hStep with
      ⟨_, _, _, _, -, rfl⟩ | ⟨_, _, -, rfl⟩ | ⟨_, -, rfl⟩ <;>
    rfl
  | loadIndex q =>
    obtain rfl := Option.some.inj hStep
    have hNe : r ≠ q := fun hEq => hSame hEq.symm
    exact Function.update_of_ne hNe _ _
  | loadVersion q =>
    obtain ⟨_, -, rfl⟩ := RcuThreads.loadVersion_eq_some hStep
    rfl
  | readPart q part =>
    obtain ⟨_, _, -, -, rfl⟩ := RcuThreads.readPart_eq_some hStep
    rfl

theorem published_le_step {s s' : RcuThreads W ι} {event : RcuEvent W ι}
    (hStep : s.step numVersions parts event = some s') : s.published ≤ s'.published := by
  cases event with
  | update newData order =>
    obtain ⟨-, -, rfl⟩ := RcuThreads.update_eq_some hStep
    exact Nat.le_refl _
  | writerStep =>
    rcases RcuThreads.writerStep_eq_some hStep with
      ⟨_, _, _, _, -, rfl⟩ | ⟨_, _, -, rfl⟩ | ⟨_, -, rfl⟩
    · exact Nat.le_refl _
    · exact Nat.le_refl _
    · exact Nat.le_succ _
  | loadIndex r =>
    obtain rfl := Option.some.inj hStep
    exact Nat.le_refl _
  | loadVersion r =>
    obtain ⟨_, -, rfl⟩ := RcuThreads.loadVersion_eq_some hStep
    exact Nat.le_refl _
  | readPart r part =>
    obtain ⟨_, _, -, -, rfl⟩ := RcuThreads.readPart_eq_some hStep
    exact Nat.le_refl _

theorem history_foldlM {events : List (RcuEvent W ι)} {s s' : RcuThreads W ι}
    (hRun : events.foldlM (RcuThreads.step numVersions parts) s = some s') :
    s'.history = s.history ++ updatesOf events := by
  induction events generalizing s with
  | nil =>
    obtain rfl := Option.some.inj hRun
    exact (List.append_nil _).symm
  | cons event events ih =>
    rw [List.foldlM_cons] at hRun
    obtain ⟨next, hFirst, hRest⟩ := Option.bind_eq_some_iff.mp hRun
    rw [ih hRest, history_step hFirst, List.append_assoc]
    congr 1
    exact (List.filterMap_append (l := [event])).symm

theorem since_foldlM {events : List (RcuEvent W ι)} {s s' : RcuThreads W ι} {r : ι}
    (hRun : events.foldlM (RcuThreads.step numVersions parts) s = some s')
    (hSame : ∀ event ∈ events, ¬event.IsReadOf r) : s'.since r = s.since r := by
  induction events generalizing s with
  | nil =>
    obtain rfl := Option.some.inj hRun
    rfl
  | cons event events ih =>
    rw [List.foldlM_cons] at hRun
    obtain ⟨next, hFirst, hRest⟩ := Option.bind_eq_some_iff.mp hRun
    rw [ih hRest fun e he => hSame e (List.mem_cons_of_mem _ he),
      since_step hFirst (hSame event List.mem_cons_self)]

/-- **No reader sees half of an update.** The reference that `read()` returns is to
the value last published when the index was loaded, and every part read through it
before `num_versions` more updates have begun is of that value. -/
theorem reads_one_version {before after : List (RcuEvent W ι)} {r : ι} {s : RcuThreads W ι}
    (hVersions : 0 < numVersions)
    (hRun : runRcu numVersions parts value (before ++ .loadIndex r :: after) = some s)
    (hSame : ∀ event ∈ after, ¬event.IsReadOf r) :
    ∃ s₀ version, runRcu numVersions parts value before = some s₀ ∧
      (value :: updatesOf before)[s₀.published]? = some version ∧
        ∀ index read, s.readers r = .reading index read →
          ∀ p ∈ read, p.begun < s₀.published + numVersions → p.value = version p.part := by
  have hInv := runRcu_inv hVersions hRun
  rw [runRcu, List.foldlM_append] at hRun
  obtain ⟨s₀, hBefore, hRest⟩ := Option.bind_eq_some_iff.mp hRun
  rw [List.foldlM_cons] at hRest
  have hAfter : after.foldlM (RcuThreads.step numVersions parts) (s₀.loadIndex r) = some s := hRest
  -- the version is there when the index is loaded
  have hInv₀ : RcuInv numVersions parts s₀ := runRcu_inv hVersions hBefore
  have hHistory₀ : s₀.history = value :: updatesOf before := history_foldlM hBefore
  have hVersion := List.getElem?_eq_getElem hInv₀.published_lt
  refine ⟨s₀, _, hBefore, by rw [← hHistory₀]; exact hVersion, ?_⟩
  intro index read hReading p hp hFresh
  -- and the reader is still at it
  have hSince : s.since r = s₀.published := by
    rw [since_foldlM hAfter hSame]
    exact Function.update_self ..
  have hHistory : s.history = (s₀.loadIndex r).history ++ updatesOf after :=
    history_foldlM hAfter
  have hReader := hInv.reader r
  rw [ReaderInv, hReading] at hReader
  refine hReader.2 p hp (by rw [hSince]; exact hFresh) _ ?_
  rw [hSince, hHistory]
  exact (List.getElem?_append_left hInv₀.published_lt).trans hVersion

end Runs

/-- A whole call of `update` for a value of two parts. -/
def updateEvents (newData : Nat → Nat) : List (RcuEvent Nat Unit) :=
  .update newData [0, 1] :: List.replicate 4 .writerStep

/-- The reader holds the reference while three updates begin. -/
def threeUpdates : List (RcuEvent Nat Unit) :=
  updateEvents (fun _ => 6) ++ .loadVersion () :: .readPart () 0 ::
    (updateEvents (fun _ => 7) ++ [.update (fun _ => 8) [0, 1], .readPart () 1])

theorem reads_one_version_threeUpdates :
    ∃ s s₀ : RcuThreads Nat Unit, ∃ version,
      runRcu 4 2 (fun _ => 0) (updateEvents (fun _ => 5) ++ .loadIndex () :: threeUpdates) =
        some s ∧
      runRcu 4 2 (fun _ => 0) (updateEvents fun _ => 5) = some s₀ ∧
      ((fun _ => 0) :: updatesOf (updateEvents fun _ => 5))[s₀.published]? = some version ∧
      ∀ index read, s.readers () = .reading index read →
        ∀ p ∈ read, p.begun < s₀.published + 4 → p.value = version p.part := by
  have hRuns : (runRcu 4 2 (fun _ => 0)
      (updateEvents (fun _ => 5) ++ .loadIndex () :: threeUpdates)).isSome := by decide
  obtain ⟨s, hRun⟩ := Option.isSome_iff_exists.mp hRuns
  obtain ⟨s₀, version, h⟩ := reads_one_version (by decide) hRun
    (by simp [threeUpdates, updateEvents, RcuEvent.IsReadOf])
  exact ⟨s, s₀, version, hRun, h⟩

/-- With the fourth update under way both values are read. -/
example :
    ((runRcu 4 2 (fun _ => 0) (.loadIndex () :: .loadVersion () ::
        ((List.replicate 3 (updateEvents fun _ => 1)).flatten ++
          [.update (fun _ => 1) [0, 1], .writerStep, .readPart () 0, .readPart () 1]))).map
      fun s => match s.readers () with
        | .reading _ read => read.map PartRead.value
        | _ => []) = some [0, 1] := by
  decide

end RivermaxDevKit
