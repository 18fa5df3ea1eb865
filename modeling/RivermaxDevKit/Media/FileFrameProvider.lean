import RivermaxDevKit.Lib.Playback
import RivermaxDevKit.Memory.FileLoader
import RivermaxDevKit.Services.Definitions

/-!
# File frame provider

`MediaFileFrameProvider` (`media_frame_provider.cpp`): `load_frames` puts the
frames of a file into a queue, from which `get_frame_blocking` and
`get_frame_not_blocking` serve them, once or in a loop.

* `loadFrames_cases` — a load that is well served does all of its work or none.
* `Standing.step` — where a run stands behind each call.
* `serves_of_admissible` — the frames are served in file order, as long as
  nobody waits for a frame when all of them are gone.

The lock makes each call a step of its own. A blocked caller is a call that
waits, and is made again once it is woken up.
-/

namespace RivermaxDevKit

open ByteStore

/-- `MediaFrame`: its memory. -/
structure MediaFrame where
  data : Nat
  size : Nat
  deriving DecidableEq, Repr

def MediaFrame.content (f : MediaFrame) (memory : Memory) : List UInt8 :=
  read memory f.data f.size

/-- The members, and the memory the frames lie in. -/
structure MediaFileFrameProvider where
  file : List UInt8
  frameSize : Nat
  loopFrames : Bool
  stopped : Bool := false
  framesLoaded : Bool := false
  inputFileIsOpen : Bool := false
  frameQueue : List MediaFrame := []
  memory : Memory

namespace MediaFileFrameProvider

/-- What `load_frames` meets outside: whether the file can be opened, the
allocator as it answers this time, whether it has memory utils, whether there is
memory for the temporary buffer, and how many bytes of the file can be read
before the device fails. -/
structure Surroundings where
  fileOpens : Bool := true
  memAllocator : MemoryAllocator
  memoryUtils : Bool := true
  tempBuffer : Bool := true
  readable : Nat

inductive Call
  | loadFrames (around : Surroundings)
  | getFrameBlocking
  | getFrameNotBlocking
  | stop

/-- How a call ends. -/
inductive Answer
  | status (rc : ReturnStatus)
  | frame (frame : Option MediaFrame)
  | done
  /-- The caller is blocked. -/
  | waits
  | badAlloc
  | dividesByZero
  /-- `front` and `pop` of an empty queue. -/
  | takesFromEmpty
  deriving DecidableEq, Repr

/-- The program does not get behind the call. -/
def Answer.traps : Answer → Bool
  | dividesByZero | takesFromEmpty => true
  | _ => false

variable (p : MediaFileFrameProvider)

/-! ## Loading -/

/-- `m_input_file.read`: `none` if the device fails, which leaves no byte. -/
def readInput (readable position : Nat) : Option (List UInt8) :=
  if readable < min (position + p.frameSize) p.file.length then none
  else some (readFile p.file position p.frameSize)

/-- A frame is copied to its place and queued. -/
def pushFrame (curFramePtr : Nat) (bytes : List UInt8) : MediaFileFrameProvider :=
  { p with
    memory := write curFramePtr bytes p.memory
    frameQueue := p.frameQueue ++ [⟨curFramePtr, p.frameSize⟩] }

/-- The loop of `read_frames`, of at most `fuel` turns. -/
def readLoop (readable : Nat) : (fuel position curFramePtr : Nat) → MediaFileFrameProvider →
    ReturnStatus × MediaFileFrameProvider
  | 0, _, _, p => (.failure, p)
  | fuel + 1, position, curFramePtr, p =>
    match p.readInput readable position with
    | none => (.failure, p)
    | some bytes =>
      -- at the end of the file, or at the rest of a frame
      if bytes.length < p.frameSize then (.success, p)
      else readLoop readable fuel (position + p.frameSize) (curFramePtr + p.frameSize)
        (p.pushFrame curFramePtr bytes)

/-- `read_frames`: a turn that goes on has read a byte at least. -/
def readFrames (readable fileMemoryBuffer : Nat) : ReturnStatus × MediaFileFrameProvider :=
  readLoop readable (p.file.length + 1) 0 fileMemoryBuffer p

/-- `allocate_frames_memory`. -/
def allocateFramesMemory (memAllocator : MemoryAllocator) : Nat :=
  let numFrames := p.file.length / p.frameSize
  let requiredMemorySize := memAllocator.alignLength (sizeT (numFrames * p.frameSize))
  memAllocator.allocateAligned requiredMemorySize memAllocator.pageSize

def loadFrames (around : Surroundings) : Answer × MediaFileFrameProvider :=
  if p.framesLoaded then (.status .success, p)
  -- opening it again fails, but it is still open
  else if ¬ (p.inputFileIsOpen ∨ around.fileOpens) then (.status .failure, p)
  else
    let p := { p with inputFileIsOpen := true }
    if p.frameSize = 0 then (.dividesByZero, p)
    else
      let fileMemoryBuffer := p.allocateFramesMemory around.memAllocator
      if fileMemoryBuffer = 0 then (.status .failure, p)
      else if ¬ around.tempBuffer then (.badAlloc, p)
      else if ¬ around.memoryUtils then (.status .failure, p)
      else
        match p.readFrames around.readable fileMemoryBuffer with
        | (.success, p) => (.status .success, { p with framesLoaded := true })
        | (rc, p) => (.status rc, p)

/-! ## Serving -/

/-- `front`, `pop` and `handle_looping_frame`. -/
def takeFrame : Answer × MediaFileFrameProvider :=
  match p.frameQueue with
  | [] => (.takesFromEmpty, p)
  | frame :: later =>
    (.frame (some frame),
      { p with frameQueue := if p.loopFrames then later ++ [frame] else later })

def getFrameBlocking : Answer × MediaFileFrameProvider :=
  -- the wait is over
  if p.frameQueue ≠ [] ∨ p.framesLoaded ∨ p.stopped then
    if p.stopped ∧ p.frameQueue = [] then (.frame none, p) else p.takeFrame
  else (.waits, p)

def getFrameNotBlocking : Answer × MediaFileFrameProvider :=
  if p.frameQueue = [] then (.frame none, p) else p.takeFrame

def step : Call → Answer × MediaFileFrameProvider
  | .loadFrames around => p.loadFrames around
  | .getFrameBlocking => p.getFrameBlocking
  | .getFrameNotBlocking => p.getFrameNotBlocking
  | .stop => (.done, { p with stopped := true })

/-! ## Runs -/

/-- A call of a run: the provider before and after it. -/
structure Turn where
  before : MediaFileFrameProvider
  call : Call
  answer : Answer
  after : MediaFileFrameProvider

/-- The turn of a call. -/
def turn (call : Call) : Turn := ⟨p, call, (p.step call).1, (p.step call).2⟩

/-- The turns of a run, up to one that traps. -/
def run (p : MediaFileFrameProvider) : List Call → List Turn
  | [] => []
  | call :: calls =>
    let t := p.turn call
    t :: if t.answer.traps then [] else run t.after calls

/-- The frame a turn returned, `nullptr` included, as the caller reads it. -/
def Turn.returned (t : Turn) : Option (Option (List UInt8)) :=
  match t.answer with
  | .frame frame => some (frame.map fun f => f.content t.after.memory)
  | _ => none

/-- What was returned before, or after, the file was loaded. -/
def returned (loaded : Bool) (turns : List Turn) : List (Option (List UInt8)) :=
  (turns.filter fun t => t.before.framesLoaded = loaded).filterMap Turn.returned

/-- The complete frames of a file. -/
def framesOf (file : List UInt8) (frameSize : Nat) : List (List UInt8) :=
  (List.range (file.length / frameSize)).map fun i => readFile file (i * frameSize) frameSize

/-- Nothing is taken from an empty queue, and the frames that are returned are
those of the file, in order. A load with a frame size of zero divides by it and
cuts the run off: what came before it is served. -/
structure Serves (file : List UInt8) (frameSize : Nat) (loopFrames : Bool) (turns : List Turn) :
    Prop where
  not_empty : ∀ t ∈ turns, t.answer ≠ .takesFromEmpty
  answered : ∀ t ∈ turns, t.before.framesLoaded → t.answer ≠ .waits
  unloaded : ∀ frame ∈ returned false turns, frame = none
  loaded : returned true turns =
    (List.range (returned true turns).length).map
      (Playback.item loopFrames (framesOf file frameSize))

/-- The provider as it is constructed. -/
def create (file : List UInt8) (frameSize : Nat) (loopFrames : Bool) (memory : Memory) :
    MediaFileFrameProvider where
  file := file
  frameSize := frameSize
  loopFrames := loopFrames
  memory := memory

/-- A call that is well served: nobody waits for a frame when all are gone, and
the device does not fail behind the first frame. -/
def Admits : Call → Prop
  | .loadFrames around =>
    p.framesLoaded ∨ around.readable < p.frameSize ∨ p.file.length ≤ around.readable
  | .getFrameBlocking => ¬ (p.frameQueue = [] ∧ p.framesLoaded ∧ ¬ p.stopped)
  | _ => True

instance (call : Call) : Decidable (p.Admits call) := by
  cases call <;> unfold Admits <;> infer_instance

/-- A run whose calls are all well served. -/
def Admissible (calls : List Call) : Prop := ∀ t ∈ p.run calls, t.before.Admits t.call

instance (calls : List Call) : Decidable (p.Admissible calls) :=
  inferInstanceAs (Decidable (∀ t ∈ p.run calls, t.before.Admits t.call))

/-! ## What a load leaves -/

/-- Frames one behind the other. -/
def framesAt (frameSize start count : Nat) : List MediaFrame :=
  (List.range count).map fun i => ⟨start + i * frameSize, frameSize⟩

/-- The frames from a position of the file, copied one behind the other. -/
def frameWrites (file : List UInt8) (frameSize start position count : Nat) :
    List (Nat × List UInt8) :=
  (List.range count).map fun i =>
    (start + i * frameSize, readFile file (position + i * frameSize) frameSize)

/-- What was copied is found in the frames. -/
theorem map_content_framesAt {file : List UInt8} {frameSize position count : Nat}
    (hFile : position + count * frameSize ≤ file.length) (start : Nat) (memory : Memory) :
    (framesAt frameSize start count).map
        (·.content (writeAll (frameWrites file frameSize start position count) memory)) =
      (List.range count).map fun i => readFile file (position + i * frameSize) frameSize := by
  have hLength : ∀ i < count,
      (readFile file (position + i * frameSize) frameSize).length = frameSize := by
    intro i hi
    have hLe := Nat.mul_le_mul_right frameSize (Nat.succ_le_of_lt hi)
    rw [Nat.succ_mul] at hLe
    exact MediaSenderMemory.length_readFile (by omega)
  have hSeries : InSeries (frameWrites file frameSize start position count) := by
    refine List.pairwise_map.mpr (List.Pairwise.imp_of_mem ?_ List.pairwise_lt_range)
    intro i j hi _ hLt
    have hLe := Nat.mul_le_mul_right frameSize (Nat.succ_le_of_lt hLt)
    rw [Nat.succ_mul] at hLe
    rw [hLength i (List.mem_range.mp hi)]
    omega
  rw [framesAt, List.map_map]
  refine List.map_congr_left fun i hi => ?_
  have hWrite := read_writeAll hSeries (List.mem_map_of_mem (f := fun i =>
    (start + i * frameSize, readFile file (position + i * frameSize) frameSize)) hi) memory
  rw [hLength i (List.mem_range.mp hi)] at hWrite
  exact hWrite

/-- With `remaining` complete frames to go in a file that can be read. -/
theorem readLoop_eq {readable : Nat} (remaining : Nat) :
    ∀ {fuel position : Nat} (curFramePtr : Nat) {p : MediaFileFrameProvider},
      p.file.length ≤ readable → remaining < fuel →
      position + remaining * p.frameSize ≤ p.file.length →
      p.file.length < position + remaining * p.frameSize + p.frameSize →
        readLoop readable fuel position curFramePtr p =
          (.success, { p with
            memory := writeAll
              (frameWrites p.file p.frameSize curFramePtr position remaining) p.memory
            frameQueue := p.frameQueue ++ framesAt p.frameSize curFramePtr remaining }) := by
  induction remaining with
  | zero =>
    intro fuel position curFramePtr p hReadable hFuel hFrom hTo
    obtain ⟨fuel, rfl⟩ : ∃ k, fuel = k + 1 := ⟨fuel - 1, by omega⟩
    have hShort : (readFile p.file position p.frameSize).length < p.frameSize := by
      rw [readFile, List.length_take, List.length_drop]
      omega
    rw [readLoop, readInput, if_neg (by omega)]
    simp [hShort, frameWrites, framesAt, writeAll]
  | succ remaining ih =>
    intro fuel position curFramePtr p hReadable hFuel hFrom hTo
    obtain ⟨fuel, rfl⟩ : ∃ k, fuel = k + 1 := ⟨fuel - 1, by omega⟩
    rw [Nat.succ_mul] at hFrom hTo
    have hBytes : (readFile p.file position p.frameSize).length = p.frameSize :=
      MediaSenderMemory.length_readFile (by omega)
    rw [readLoop, readInput, if_neg (by omega)]
    dsimp only
    have hRest := @ih fuel (position + p.frameSize) (curFramePtr + p.frameSize)
      (p.pushFrame curFramePtr (readFile p.file position p.frameSize)) hReadable (by omega)
      (by show position + p.frameSize + remaining * p.frameSize ≤ p.file.length; omega)
      (by show p.file.length < position + p.frameSize + remaining * p.frameSize + p.frameSize
          omega)
    have hFrames : framesAt p.frameSize curFramePtr (remaining + 1) =
        ⟨curFramePtr, p.frameSize⟩ ::
          framesAt p.frameSize (curFramePtr + p.frameSize) remaining := by
      simp [framesAt, List.range_succ_eq_map, Function.comp_def, Nat.succ_mul, Nat.add_assoc,
        Nat.add_comm]
    have hWrites : frameWrites p.file p.frameSize curFramePtr position (remaining + 1) =
        (curFramePtr, readFile p.file position p.frameSize) ::
          frameWrites p.file p.frameSize (curFramePtr + p.frameSize)
            (position + p.frameSize) remaining := by
      simp [frameWrites, List.range_succ_eq_map, Function.comp_def, Nat.succ_mul, Nat.add_assoc,
        Nat.add_comm]
    rw [if_neg (by omega), hRest, hFrames, hWrites]
    simp [writeAll, pushFrame]

/-- A file that can be read is read up to the rest behind its last frame. -/
theorem readFrames_eq {p : MediaFileFrameProvider} {readable : Nat} (hSize : p.frameSize ≠ 0)
    (hReadable : p.file.length ≤ readable) (fileMemoryBuffer : Nat) :
    ∃ frames memory, frames.map (·.content memory) = framesOf p.file p.frameSize ∧
      p.readFrames readable fileMemoryBuffer =
        (.success, { p with memory := memory, frameQueue := p.frameQueue ++ frames }) := by
  have hDown := Nat.div_mul_le_self p.file.length p.frameSize
  have hUp := Nat.lt_div_mul_add (Nat.pos_of_ne_zero hSize) (a := p.file.length)
  have hTurns := Nat.div_le_self p.file.length p.frameSize
  refine ⟨_, _, ?_, readLoop_eq (p.file.length / p.frameSize) fileMemoryBuffer hReadable
    (by omega) (by omega) (by omega)⟩
  rw [map_content_framesAt (by omega)]
  simp [framesOf]

/-- A device that fails within the first frame leaves no frame. -/
theorem readFrames_of_fault {p : MediaFileFrameProvider} {readable : Nat}
    (hFault : readable < min p.frameSize p.file.length) (fileMemoryBuffer : Nat) :
    p.readFrames readable fileMemoryBuffer = (.failure, p) := by
  rw [readFrames, readLoop, readInput, if_pos (by omega)]

/-- What a load does that is well served: nothing but open the file, or all of
its work. -/
theorem loadFrames_cases {p : MediaFileFrameProvider} {around : Surroundings}
    (hAdmits : p.Admits (.loadFrames around)) :
    (∃ isOpen, (p.loadFrames around).2 = { p with inputFileIsOpen := isOpen }) ∨
      p.framesLoaded = false ∧ ∃ frames memory,
        frames.map (·.content memory) = framesOf p.file p.frameSize ∧
        (p.loadFrames around).2 = { p with
          inputFileIsOpen := true, framesLoaded := true, memory := memory
          frameQueue := p.frameQueue ++ frames } := by
  unfold loadFrames
  by_cases hLoaded : p.framesLoaded = true
  · rw [if_pos hLoaded]
    exact .inl ⟨p.inputFileIsOpen, rfl⟩
  rw [if_neg hLoaded]
  by_cases hOpen : p.inputFileIsOpen ∨ around.fileOpens
  swap
  · rw [if_pos hOpen]
    exact .inl ⟨p.inputFileIsOpen, rfl⟩
  rw [if_neg (not_not.mpr hOpen)]
  dsimp only
  by_cases hSize : p.frameSize = 0
  · rw [if_pos hSize]
    exact .inl ⟨true, rfl⟩
  rw [if_neg hSize]
  split
  · exact .inl ⟨true, rfl⟩
  split
  · exact .inl ⟨true, rfl⟩
  split
  · exact .inl ⟨true, rfl⟩
  -- the file is read, or the device fails at once
  by_cases hReadable : p.file.length ≤ around.readable
  swap
  · have hFault : around.readable < p.frameSize := by
      rcases hAdmits with hAgain | hFault | hAll
      · exact absurd hAgain hLoaded
      · exact hFault
      · exact absurd hAll hReadable
    rw [readFrames_of_fault (by dsimp only; omega)]
    exact .inl ⟨true, rfl⟩
  · obtain ⟨frames, memory, hContent, hRead⟩ :=
      readFrames_eq (p := { p with inputFileIsOpen := true }) hSize hReadable
        (allocateFramesMemory { p with inputFileIsOpen := true } around.memAllocator)
    rw [hRead]
    exact .inr ⟨by simpa using hLoaded, frames, memory, hContent, rfl⟩

theorem loadFrames_answer (p : MediaFileFrameProvider) (around : Surroundings) :
    (∃ rc, (p.loadFrames around).1 = .status rc) ∨ (p.loadFrames around).1 = .badAlloc ∨
      (p.loadFrames around).1 = .dividesByZero := by
  unfold loadFrames
  dsimp only
  split
  · exact .inl ⟨_, rfl⟩
  split
  · exact .inl ⟨_, rfl⟩
  split
  · exact .inr (.inr rfl)
  split
  · exact .inl ⟨_, rfl⟩
  split
  · exact .inr (.inl rfl)
  split
  · exact .inl ⟨_, rfl⟩
  split
  · exact .inl ⟨_, rfl⟩
  · exact .inl ⟨_, rfl⟩

/-! ## Where a run stands -/

/-- Behind `n` requests for a frame of the loaded file. -/
structure Standing (file : List UInt8) (frameSize : Nat) (loopFrames : Bool)
    (p : MediaFileFrameProvider) (n : Nat) : Prop where
  file_eq : p.file = file
  frameSize_eq : p.frameSize = frameSize
  loopFrames_eq : p.loopFrames = loopFrames
  unloaded : p.framesLoaded = false → p.frameQueue = [] ∧ n = 0
  loaded : p.framesLoaded = true → ∃ frames : List MediaFrame,
    frames.map (·.content p.memory) = framesOf file frameSize ∧
      p.frameQueue = Playback.rest loopFrames frames n

variable {file : List UInt8} {frameSize : Nat} {loopFrames : Bool}

theorem Standing.create (file : List UInt8) (frameSize : Nat) (loopFrames : Bool)
    (memory : Memory) :
    Standing file frameSize loopFrames (create file frameSize loopFrames memory) 0 where
  file_eq := rfl
  frameSize_eq := rfl
  loopFrames_eq := rfl
  unloaded := fun _ => ⟨rfl, rfl⟩
  loaded := fun h => absurd h (by simp [MediaFileFrameProvider.create])

/-- What a turn gives its caller, behind `n` requests, and how many there are
afterwards. -/
structure Given (file : List UInt8) (frameSize : Nat) (loopFrames : Bool) (t : Turn)
    (n n' : Nat) : Prop where
  not_empty : t.answer ≠ .takesFromEmpty
  answered : t.before.framesLoaded → t.answer ≠ .waits
  nothing : t.returned = none → n' = n
  unloaded : ∀ frame, t.returned = some frame → t.before.framesLoaded = false →
    frame = none ∧ n' = n
  loaded : ∀ frame, t.returned = some frame → t.before.framesLoaded = true →
    frame = Playback.item loopFrames (framesOf file frameSize) n ∧ n' = n + 1

namespace Standing

variable {p : MediaFileFrameProvider} {n : Nat}

theorem loadFrames (h : Standing file frameSize loopFrames p n) {around : Surroundings}
    (hAdmits : p.Admits (.loadFrames around)) :
    Standing file frameSize loopFrames (p.turn (.loadFrames around)).after n ∧
      Given file frameSize loopFrames (p.turn (.loadFrames around)) n n := by
  refine ⟨?_, ?_⟩
  · show Standing file frameSize loopFrames (p.loadFrames around).2 n
    rcases loadFrames_cases hAdmits with ⟨isOpen, hAfter⟩ |
      ⟨hLoaded, frames, memory, hContent, hAfter⟩
    · rw [hAfter]
      exact ⟨h.file_eq, h.frameSize_eq, h.loopFrames_eq, h.unloaded, h.loaded⟩
    · obtain ⟨hQueue, rfl⟩ := h.unloaded hLoaded
      rw [hAfter]
      refine ⟨h.file_eq, h.frameSize_eq, h.loopFrames_eq, fun hNot => absurd hNot (by simp), ?_⟩
      intro _
      refine ⟨frames, ?_, ?_⟩
      · rw [hContent, h.file_eq, h.frameSize_eq]
      · rw [hQueue, List.nil_append, Playback.rest_zero]
  · -- no frame is returned
    have hReturned : (p.turn (.loadFrames around)).returned = none ∧
        (p.turn (.loadFrames around)).answer ≠ .takesFromEmpty ∧
        (p.turn (.loadFrames around)).answer ≠ .waits := by
      have hStep : (p.turn (.loadFrames around)).answer = (p.loadFrames around).1 := rfl
      unfold Turn.returned
      rw [hStep]
      rcases loadFrames_answer p around with ⟨rc, hRc⟩ | hBad | hZero
      · rw [hRc]
        simp
      · rw [hBad]
        simp
      · rw [hZero]
        simp
    obtain ⟨hNone, hEmpty, hWaits⟩ := hReturned
    exact ⟨hEmpty, fun _ => hWaits, fun _ => rfl, by simp [hNone], by simp [hNone]⟩

/-- Before the file is loaded there is no frame. -/
theorem serve_unloaded (h : Standing file frameSize loopFrames p n) {t : Turn}
    (hBefore : t.before = p) (hLoaded : p.framesLoaded = false) (hAfter : t.after = p)
    (hAnswer : t.answer = .frame none ∨ t.answer = .waits) :
    Standing file frameSize loopFrames t.after n ∧ Given file frameSize loopFrames t n n := by
  refine ⟨hAfter ▸ h, ?_⟩
  subst hBefore
  rcases hAnswer with hNull | hWaits
  · have hReturned : t.returned = some none := by simp [Turn.returned, hNull]
    exact ⟨by simp [hNull], by simp [hNull], by simp [hReturned], by simp [hReturned],
      by simp [hLoaded]⟩
  · have hReturned : t.returned = none := by simp [Turn.returned, hWaits]
    exact ⟨by simp [hWaits], by simp [hLoaded], fun _ => rfl, by simp [hReturned],
      by simp [hReturned]⟩

/-- Afterwards a request takes the first frame that is left. -/
theorem serve_loaded (h : Standing file frameSize loopFrames p n) {t : Turn}
    (hBefore : t.before = p) (hLoaded : p.framesLoaded = true)
    (hNull : p.frameQueue = [] → t.answer = .frame none ∧ t.after = p)
    (hTake : p.frameQueue ≠ [] → t.answer = p.takeFrame.1 ∧ t.after = p.takeFrame.2) :
    Standing file frameSize loopFrames t.after (n + 1) ∧
      Given file frameSize loopFrames t n (n + 1) := by
  obtain ⟨frames, hContent, hQueue⟩ := h.loaded hLoaded
  have hItem : Playback.item loopFrames (framesOf file frameSize) n =
      p.frameQueue.head?.map (·.content p.memory) := by
    rw [← hContent, Playback.item_map, hQueue, Playback.head?_rest]
  subst hBefore
  cases hNext : t.before.frameQueue with
  | nil =>
    obtain ⟨hAnswer, hAfter⟩ := hNull hNext
    have hReturned : t.returned = some none := by simp [Turn.returned, hAnswer]
    refine ⟨?_, ?_⟩
    · rw [hAfter]
      refine ⟨h.file_eq, h.frameSize_eq, h.loopFrames_eq, by simp [hLoaded], fun _ => ?_⟩
      refine ⟨frames, hContent, ?_⟩
      rw [hNext, Playback.rest_of_eq_nil (hQueue.symm.trans hNext)]
    · rw [hNext] at hItem
      exact ⟨by simp [hAnswer], by simp [hAnswer], by simp [hReturned], by simp [hLoaded],
        by simp [hReturned, hItem]⟩
  | cons frame later =>
    obtain ⟨hAnswer, hAfter⟩ := hTake (by simp [hNext])
    have hTaken : t.before.takeFrame = (.frame (some frame), { t.before with
        frameQueue := if t.before.loopFrames then later ++ [frame] else later }) := by
      rw [takeFrame, hNext]
    rw [hTaken] at hAnswer hAfter
    dsimp only at hAnswer hAfter
    have hReturned : t.returned = some (some (frame.content t.before.memory)) := by
      simp [Turn.returned, hAnswer, hAfter]
    refine ⟨?_, ?_⟩
    · rw [hAfter]
      refine ⟨h.file_eq, h.frameSize_eq, h.loopFrames_eq, by simp [hLoaded], fun _ => ?_⟩
      refine ⟨frames, hContent, ?_⟩
      rw [Playback.rest_succ (hQueue.symm.trans hNext), h.loopFrames_eq]
    · rw [hNext] at hItem
      exact ⟨by simp [hAnswer], by simp [hAnswer], by simp [hReturned], by simp [hLoaded],
        by simp [hReturned, hItem]⟩

theorem getFrameNotBlocking (h : Standing file frameSize loopFrames p n) :
    ∃ n', Standing file frameSize loopFrames (p.turn .getFrameNotBlocking).after n' ∧
      Given file frameSize loopFrames (p.turn .getFrameNotBlocking) n n' := by
  have hNull : p.frameQueue = [] → p.getFrameNotBlocking = (.frame none, p) :=
    fun hEmpty => if_pos hEmpty
  have hTake : p.frameQueue ≠ [] → p.getFrameNotBlocking = p.takeFrame :=
    fun hNext => if_neg hNext
  cases hLoaded : p.framesLoaded with
  | false =>
    have hEmpty := hNull (h.unloaded hLoaded).1
    exact ⟨n, h.serve_unloaded rfl hLoaded (congrArg Prod.snd hEmpty)
      (.inl (congrArg Prod.fst hEmpty))⟩
  | true =>
    exact ⟨n + 1, h.serve_loaded rfl hLoaded
      (fun hEmpty => ⟨congrArg Prod.fst (hNull hEmpty), congrArg Prod.snd (hNull hEmpty)⟩)
      (fun hNext => ⟨congrArg Prod.fst (hTake hNext), congrArg Prod.snd (hTake hNext)⟩)⟩

theorem getFrameBlocking (h : Standing file frameSize loopFrames p n)
    (hAdmits : p.Admits .getFrameBlocking) :
    ∃ n', Standing file frameSize loopFrames (p.turn .getFrameBlocking).after n' ∧
      Given file frameSize loopFrames (p.turn .getFrameBlocking) n n' := by
  cases hLoaded : p.framesLoaded with
  | false =>
    obtain ⟨hEmpty, -⟩ := h.unloaded hLoaded
    have hStep : p.getFrameBlocking = if p.stopped then (.frame none, p) else (.waits, p) := by
      unfold MediaFileFrameProvider.getFrameBlocking
      cases p.stopped <;> simp [hEmpty, hLoaded]
    refine ⟨n, h.serve_unloaded rfl hLoaded ?_ ?_⟩
    · show p.getFrameBlocking.2 = p
      rw [hStep]
      split <;> rfl
    · show p.getFrameBlocking.1 = _ ∨ p.getFrameBlocking.1 = _
      rw [hStep]
      split
      · exact .inl rfl
      · exact .inr rfl
  | true =>
    -- it is checked for a stop only, and the run has none but that
    have hNull : p.frameQueue = [] → p.getFrameBlocking = (.frame none, p) := by
      intro hEmpty
      have hStopped : p.stopped = true := by
        by_contra hRunning
        exact hAdmits ⟨hEmpty, hLoaded, hRunning⟩
      rw [MediaFileFrameProvider.getFrameBlocking, if_pos (.inr (.inl hLoaded)),
        if_pos ⟨hStopped, hEmpty⟩]
    have hTake : p.frameQueue ≠ [] → p.getFrameBlocking = p.takeFrame := by
      intro hNext
      rw [MediaFileFrameProvider.getFrameBlocking, if_pos (.inl hNext),
        if_neg fun hBoth => hNext hBoth.2]
    exact ⟨n + 1, h.serve_loaded rfl hLoaded
      (fun hEmpty => ⟨congrArg Prod.fst (hNull hEmpty), congrArg Prod.snd (hNull hEmpty)⟩)
      (fun hNext => ⟨congrArg Prod.fst (hTake hNext), congrArg Prod.snd (hTake hNext)⟩)⟩

/-- Every call that is well served gives what is due, and leaves a run standing. -/
theorem step (h : Standing file frameSize loopFrames p n) {call : Call}
    (hAdmits : p.Admits call) :
    ∃ n', Standing file frameSize loopFrames (p.turn call).after n' ∧
      Given file frameSize loopFrames (p.turn call) n n' := by
  cases call with
  | loadFrames around => exact ⟨n, h.loadFrames hAdmits⟩
  | getFrameBlocking => exact h.getFrameBlocking hAdmits
  | getFrameNotBlocking => exact h.getFrameNotBlocking
  | stop =>
    refine ⟨n, ⟨h.file_eq, h.frameSize_eq, h.loopFrames_eq, h.unloaded, h.loaded⟩, ?_⟩
    have hReturned : (p.turn .stop).returned = none := rfl
    exact ⟨nofun, fun _ => nofun, fun _ => rfl, by simp [hReturned], by simp [hReturned]⟩

end Standing

/-! ## Whole runs -/

theorem returned_cons (loaded : Bool) (t : Turn) (turns : List Turn) :
    returned loaded (t :: turns) =
      (if t.before.framesLoaded = loaded then t.returned.toList else []) ++
        returned loaded turns := by
  unfold returned
  by_cases hLoaded : t.before.framesLoaded = loaded
  · rw [List.filter_cons_of_pos (by simpa using hLoaded), if_pos hLoaded, List.filterMap_cons]
    cases t.returned <;> rfl
  · rw [List.filter_cons_of_neg (by simpa using hLoaded), if_neg hLoaded]
    rfl

/-- What a run gives behind `n` requests. -/
structure ServesFrom (file : List UInt8) (frameSize : Nat) (loopFrames : Bool) (n : Nat)
    (turns : List Turn) : Prop where
  not_empty : ∀ t ∈ turns, t.answer ≠ .takesFromEmpty
  answered : ∀ t ∈ turns, t.before.framesLoaded → t.answer ≠ .waits
  unloaded : ∀ frame ∈ returned false turns, frame = none
  loaded : ∃ k, returned true turns =
    (List.range k).map fun i => Playback.item loopFrames (framesOf file frameSize) (n + i)

theorem ServesFrom.nil (n : Nat) : ServesFrom file frameSize loopFrames n [] :=
  ⟨by simp, by simp, by simp [returned], 0, rfl⟩

/-- What is due at a turn and what is due behind it make what is due. -/
theorem ServesFrom.cons {t : Turn} {turns : List Turn} {n n' : Nat}
    (hGiven : Given file frameSize loopFrames t n n')
    (hLater : ServesFrom file frameSize loopFrames n' turns) :
    ServesFrom file frameSize loopFrames n (t :: turns) where
  not_empty := List.forall_mem_cons.mpr ⟨hGiven.not_empty, hLater.not_empty⟩
  answered := List.forall_mem_cons.mpr ⟨hGiven.answered, hLater.answered⟩
  unloaded := by
    intro frame hFrame
    rw [returned_cons, List.mem_append] at hFrame
    rcases hFrame with hHere | hThere
    · split at hHere
      · rename_i hUnloaded
        exact (hGiven.unloaded frame (Option.mem_toList.mp hHere) hUnloaded).1
      · cases hHere
    · exact hLater.unloaded frame hThere
  loaded := by
    obtain ⟨k, hReturned⟩ := hLater.loaded
    rw [returned_cons, hReturned]
    cases hFrame : t.returned with
    | none =>
      -- nothing was returned
      rw [hGiven.nothing hFrame]
      exact ⟨k, by simp⟩
    | some frame =>
      cases hLoaded : t.before.framesLoaded with
      | false =>
        rw [(hGiven.unloaded frame hFrame hLoaded).2]
        exact ⟨k, by simp⟩
      | true =>
        obtain ⟨rfl, rfl⟩ := hGiven.loaded frame hFrame hLoaded
        refine ⟨k + 1, ?_⟩
        simp [List.range_succ_eq_map, Function.comp_def, Nat.add_assoc, Nat.add_comm 1]

theorem Standing.run {p : MediaFileFrameProvider} {n : Nat}
    (h : Standing file frameSize loopFrames p n) (calls : List Call)
    (hAdmissible : p.Admissible calls) :
    ServesFrom file frameSize loopFrames n (p.run calls) := by
  induction calls generalizing p n with
  | nil => exact .nil n
  | cons call calls ih =>
    obtain ⟨hHere, hLater⟩ := List.forall_mem_cons.mp hAdmissible
    obtain ⟨n', hStanding, hGiven⟩ := h.step hHere
    refine .cons hGiven ?_
    split
    · exact .nil n'
    · rename_i hGoes
      rw [if_neg hGoes] at hLater
      exact ih hStanding hLater

/-- **The file is served in order.** In every run in which nobody waits for a
frame when all are gone and the provider was not stopped, and no load fails
behind its first frame, no frame is taken from an empty queue and the frames of
the file are returned in order, once or in a loop. -/
theorem serves_of_admissible (file : List UInt8) (frameSize : Nat) (loopFrames : Bool)
    (memory : Memory) (calls : List Call)
    (hAdmissible : (create file frameSize loopFrames memory).Admissible calls) :
    Serves file frameSize loopFrames ((create file frameSize loopFrames memory).run calls) := by
  obtain ⟨hEmpty, hAnswered, hUnloaded, k, hReturned⟩ :=
    (Standing.create file frameSize loopFrames memory).run calls hAdmissible
  refine ⟨hEmpty, hAnswered, hUnloaded, ?_⟩
  have hLength := congrArg List.length hReturned
  rw [List.length_map, List.length_range] at hLength
  rw [hLength, hReturned]
  simp

/-- Pages of 16 bytes, at address 64. -/
def smallSurroundings : Surroundings where
  memAllocator := { pageSize := 16, allocate := fun _ => 64 }
  readable := 16

/-- Five bytes in frames of two, played in a loop across a stop. -/
theorem serves_twoFrames :
    Serves [1, 2, 3, 4, 5] 2 true ((create [1, 2, 3, 4, 5] 2 true fun _ => 0).run
      [.getFrameBlocking, .loadFrames smallSurroundings, .getFrameBlocking, .getFrameNotBlocking,
        .stop, .getFrameBlocking]) :=
  serves_of_admissible _ _ _ _ _ (by decide)

/-- Who waits for a frame when all are gone takes it from an empty queue. -/
theorem getFrameBlocking_of_not_admits {p : MediaFileFrameProvider}
    (h : ¬ p.Admits .getFrameBlocking) : p.getFrameBlocking = (.takesFromEmpty, p) := by
  obtain ⟨hEmpty, hLoaded, hRunning⟩ : p.frameQueue = [] ∧ p.framesLoaded ∧ ¬ p.stopped :=
    not_not.mp h
  rw [getFrameBlocking, if_pos (.inr (.inl hLoaded)), if_neg fun hBoth => hRunning hBoth.1,
    takeFrame, hEmpty]

/-- So the condition is needed for every wait of a run. -/
theorem not_serves_of_not_admits {p : MediaFileFrameProvider} {calls : List Call} {t : Turn}
    (hTurn : t ∈ p.run calls) (hCall : t.call = .getFrameBlocking)
    (hAdmits : ¬ t.before.Admits t.call) : ¬ Serves file frameSize loopFrames (p.run calls) := by
  have hMade : t = t.before.turn t.call := by
    clear hCall hAdmits
    induction calls generalizing p with
    | nil => cases hTurn
    | cons call calls ih =>
      rcases List.mem_cons.mp hTurn with rfl | hLater
      · rfl
      · split at hLater
        · cases hLater
        · exact ih hLater
  intro hServes
  apply hServes.not_empty t hTurn
  rw [hCall] at hMade hAdmits
  rw [hMade]
  exact congrArg Prod.fst (getFrameBlocking_of_not_admits hAdmits)

/-- The second wait for the only frame of a file finds the queue empty. -/
theorem not_serves_oneFrame :
    ¬ Serves [7] 1 false ((create [7] 1 false fun _ => 0).run
      [.loadFrames smallSurroundings, .getFrameBlocking, .getFrameBlocking]) := by
  intro hServes
  have hTakes : ∃ t ∈ (create [7] 1 false fun _ => 0).run
      [.loadFrames smallSurroundings, .getFrameBlocking, .getFrameBlocking],
      t.answer = .takesFromEmpty := by decide
  obtain ⟨t, hTurn, hAnswer⟩ := hTakes
  exact hServes.not_empty t hTurn hAnswer

end MediaFileFrameProvider

end RivermaxDevKit
