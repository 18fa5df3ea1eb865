import RivermaxDevKit.Media.FramePool

/-!
# File streaming

`MediaFileStreamingProvider` (`media_file_streaming_provider.cpp`) reads a file
block by block into frames of its pool, and hands them to a
`BufferedMediaFrameProvider` (`media_frame_provider.cpp`), from which a consumer
takes them and lets go of them later.

* `Cursor.read_block`, `Cursor.read_end` — where the file stands behind a read.
* `Custody` — whose every frame is: a frame is written only while nobody else
  has it.
* `Inv.step` — what every step of the two sides keeps.
* `delivers` — the frames that were taken hold the blocks of the file in order.

The producer goes from one call to the next, and the consumer may come in
between. Neither a stop nor a signal is modelled.
-/

namespace RivermaxDevKit

open ByteStore

def MEMORY_POOL_FRAME_COUNT : Nat := 15

/-! ## Buffered provider -/

/-- The queue of frames, by their indices in the pool. -/
structure BufferedMediaFrameProvider where
  maxQueueSize : Nat
  frameQueue : List Nat := []
  stopped : Bool := false

namespace BufferedMediaFrameProvider

variable (q : BufferedMediaFrameProvider)

def addFrame : Option Nat → ReturnStatus × BufferedMediaFrameProvider
  | none => (.failure, q)
  | some frame =>
    if q.maxQueueSize > 0 ∧ q.frameQueue.length ≥ q.maxQueueSize then (.frameSendQueueFull, q)
    else (.success, { q with frameQueue := q.frameQueue ++ [frame] })

/-- `none` as long as the caller is blocked. -/
def getFrameBlocking : Option (Option Nat × BufferedMediaFrameProvider) :=
  match q.frameQueue with
  | [] => if q.stopped then some (none, q) else none
  | frame :: rest => some (some frame, { q with frameQueue := rest })

def getFrameNotBlocking : Option Nat × BufferedMediaFrameProvider :=
  match q.frameQueue with
  | [] => (none, q)
  | frame :: rest => (some frame, { q with frameQueue := rest })

def stop : BufferedMediaFrameProvider := { q with stopped := true }

end BufferedMediaFrameProvider

/-! ## Producer and consumer -/

structure MediaFileStreamingProvider where
  file : List UInt8
  frameSize : Nat
  loopFrames : Bool

/-- Where `operator()` is, with the frame it has in its hands. -/
inductive Pc
  | getFrame
  | read (frame : Nat)
  | memoryCopy (frame : Nat) (tempBuffer : List UInt8)
  | memorySet (frame bytesRead : Nat)
  | addFrame (frame : Nat)
  /-- The end of a turn, where the frame goes out of scope. -/
  | endOfTurn (frame : Nat) (again : Bool)
  | stopFrameProvider
  | stopFramePool
  | returned
  deriving DecidableEq, Repr

/-- The frame of the turn. -/
def Pc.frame : Pc → Option Nat
  | read frame | memoryCopy frame _ | memorySet frame _ | addFrame frame
  | endOfTurn frame _ => some frame
  | _ => none

/-- The turn has not given its frame away yet. -/
def Pc.owns : Pc → Bool
  | read _ | memoryCopy _ _ | memorySet _ _ | addFrame _ => true
  | _ => false

/-- A block was read, and is not in the queue yet. -/
def Pc.inFlight : Pc → Nat
  | memoryCopy _ _ | memorySet _ _ | addFrame _ => 1
  | _ => 0

/-- The producer is done with the file. -/
def Pc.over : Pc → Bool
  | endOfTurn _ false | stopFrameProvider | stopFramePool | returned => true
  | _ => false

structure Streaming where
  pool : MediaFramePool
  memory : Memory
  frameProvider : BufferedMediaFrameProvider
  pc : Pc := .getFrame
  /-- The position of `m_input_file`, and its `eofbit`. -/
  position : Nat := 0
  eof : Bool := false
  /-- The message that the file cannot be read was written. -/
  readFailed : Bool := false
  /-- The frames the consumer has, each with its number as the consumer counts. -/
  held : List (Nat × Nat) := []
  takenCount : Nat := 0

inductive StreamingEvent
  /-- A step of the producer; the device may fail to read. -/
  | producer (deviceFails : Bool)
  | getFrameBlocking
  | getFrameNotBlocking
  /-- The consumer lets go of a frame. -/
  | release (position : Nat)

/-- The memory of a frame of the pool. -/
def MediaFramePool.frame (p : MediaFramePool) (index : Nat) : MediaFrame :=
  p.allFrames.getD index ⟨0, 0⟩

theorem MediaFramePool.frame_congr {p q : MediaFramePool} (h : q.allFrames = p.allFrames)
    (index : Nat) : q.frame index = p.frame index := by
  rw [frame, frame, h]

namespace Streaming

variable (c : MediaFileStreamingProvider) (s : Streaming)

/-- The frames others than the producer have. -/
def given : List Nat := s.frameProvider.frameQueue ++ s.held.map Prod.fst

/-- A reference goes away, behind which `others` are left. -/
def dropReference (frame : Nat) (others : List Nat) : MediaFramePool :=
  if frame ∈ others then s.pool else s.pool.returnFrameToPool frame

/-- `m_input_file.read`: there is nothing to read behind the end. -/
def inputBytes : List UInt8 := if s.eof then [] else readFile c.file s.position c.frameSize

/-- `m_input_file.eof()` behind the read. -/
def inputEof : Bool := s.eof ∨ (s.inputBytes c).length < c.frameSize

/-- The read, and what is made of the bytes it got. -/
def readBlock (frame : Nat) (deviceFails : Bool) : Streaming :=
  -- the read fails without the end of the file: a message, and the loop ends
  if deviceFails ∧ ¬ s.eof then { s with readFailed := true, pc := .endOfTurn frame false }
  else if (s.inputBytes c).length = 0 ∧ s.inputEof c then
    -- clear and seekg: the frame of the turn goes back to the pool
    if c.loopFrames then { s with position := 0, eof := false, pc := .endOfTurn frame true }
    else { s with eof := true, pc := .endOfTurn frame false }
  else
    { s with
      position := s.position + (s.inputBytes c).length
      eof := s.inputEof c
      pc := .memoryCopy frame (s.inputBytes c) }

def producer (deviceFails : Bool) : Streaming :=
  match s.pc with
  | .getFrame =>
    match s.pool.getFrame with
    | (none, pool) => { s with pool := pool }
    | (some frame, pool) => { s with pool := pool, pc := .read frame }
  | .read frame => s.readBlock c frame deviceFails
  | .memoryCopy frame tempBuffer =>
    { s with
      memory := write (s.pool.frame frame).data tempBuffer s.memory
      pc := if tempBuffer.length < c.frameSize then .memorySet frame tempBuffer.length
        else .addFrame frame }
  | .memorySet frame bytesRead =>
    { s with
      memory := write ((s.pool.frame frame).data + bytesRead)
        (List.replicate (c.frameSize - bytesRead) 0) s.memory
      pc := .addFrame frame }
  | .addFrame frame =>
    match s.frameProvider.addFrame (some frame) with
    | (.success, q) => { s with frameProvider := q, pc := .endOfTurn frame true }
    -- the producer sleeps, and tries again
    | (_, q) => { s with frameProvider := q }
  | .endOfTurn frame again =>
    { s with
      pool := s.dropReference frame s.given
      pc := if again then .getFrame else .stopFrameProvider }
  | .stopFrameProvider => { s with frameProvider := s.frameProvider.stop, pc := .stopFramePool }
  | .stopFramePool => { s with pool := s.pool.stop, pc := .returned }
  | .returned => s

/-- The consumer gets a frame, or `nullptr`. -/
def taken : Option Nat × BufferedMediaFrameProvider → Streaming
  | (none, q) => { s with frameProvider := q }
  | (some frame, q) =>
    { s with
      frameProvider := q
      held := s.held ++ [(frame, s.takenCount)]
      takenCount := s.takenCount + 1 }

def release (position : Nat) : Streaming :=
  match s.held[position]? with
  | none => s
  | some (frame, _) =>
    let left := { s with held := s.held.eraseIdx position }
    { left with pool := left.dropReference frame (left.given ++ left.pc.frame.toList) }

def step : StreamingEvent → Streaming
  | .producer deviceFails => s.producer c deviceFails
  | .getFrameBlocking =>
    match s.frameProvider.getFrameBlocking with
    | none => s
    | some result => s.taken result
  | .getFrameNotBlocking => s.taken s.frameProvider.getFrameNotBlocking
  | .release position => s.release position

def run (events : List StreamingEvent) : Streaming := events.foldl (step c) s

/-- The constructor, `initialize` and the start of `operator()`, which throw in the
case `none`; `newBytes` tells how many bytes there is memory for. -/
def start (reserves newBytes : Nat → Bool) (a : MemoryAllocator) (maxQueueSize : Nat)
    (memory : Memory) : Option Streaming :=
  match MediaFramePool.create reserves MEMORY_POOL_FRAME_COUNT c.frameSize (.allocator a) with
  | none => none
  | some pool =>
    if newBytes c.frameSize then
      some { pool, memory, frameProvider := { maxQueueSize } }
    else none

/-! ## What is due -/

/-- The blocks of the file. -/
def blockCount : Nat := (c.file.length + c.frameSize - 1) / c.frameSize

/-- Block `i` of the file, filled up with zeros. -/
def block (i : Nat) : List UInt8 :=
  let bytes := readFile c.file (i * c.frameSize) c.frameSize
  bytes ++ List.replicate (c.frameSize - bytes.length) 0

/-- The block that is due as number `n`. -/
def due (n : Nat) : List UInt8 := block c (Playback.position c.loopFrames (blockCount c) n)

/-- What a frame of the pool holds. -/
def content (index : Nat) : List UInt8 := (s.pool.frame index).content s.memory

/-- The frames the consumer has hold the blocks of the file in the order in
which they were taken, once per pass; and what was read and not taken waits. -/
structure Delivers : Prop where
  held : ∀ r ∈ s.held, s.content r.1 = due c r.2 ∧ r.2 < s.takenCount
  queued : ∀ (i frame : Nat), s.frameProvider.frameQueue[i]? = some frame →
    s.content frame = due c (s.takenCount + i)
  once : c.loopFrames = false →
    ∀ n < s.takenCount + s.frameProvider.frameQueue.length, n * c.frameSize < c.file.length
  complete : s.pc = .returned → s.readFailed = false →
    c.loopFrames = false ∧ s.takenCount + s.frameProvider.frameQueue.length = blockCount c

/-! ## The file -/

/-- The file stands behind `i` blocks of a pass, and behind `k` blocks in all. -/
structure Cursor (position : Nat) (eof : Bool) (i k : Nat) : Prop where
  position_eq : position = min (i * c.frameSize) c.file.length
  eof_eq : eof = decide (c.file.length < i * c.frameSize)
  begun : ∀ j < i, j * c.frameSize < c.file.length
  pass : if c.loopFrames then k % blockCount c = i % blockCount c else k = i

variable {c s}

theorem cursor_start : Cursor c 0 false 0 0 where
  position_eq := by simp
  eof_eq := by simp
  begun := by simp
  pass := by simp

/-- All blocks begin within the file. -/
theorem lt_blockCount {i : Nat} (hSize : 0 < c.frameSize) :
    i < blockCount c ↔ i * c.frameSize < c.file.length := by
  rw [blockCount, Nat.lt_div_iff_mul_lt hSize]
  omega

/-- In front of a block, the next read gets it. -/
theorem Cursor.read_block {i k : Nat} (h : Cursor c s.position s.eof i k)
    (hNext : i * c.frameSize < c.file.length) :
    ¬ ((s.inputBytes c).length = 0 ∧ s.inputEof c) ∧
      s.inputBytes c ++ List.replicate (c.frameSize - (s.inputBytes c).length) 0 = due c k ∧
      Cursor c (s.position + (s.inputBytes c).length) (s.inputEof c) (i + 1) (k + 1) := by
  obtain ⟨hPosition, hEof, hBegun, hPass⟩ := h
  have hFile : s.eof = false := by
    rw [hEof]
    exact decide_eq_false (by omega)
  have hBytes : s.inputBytes c = readFile c.file (i * c.frameSize) c.frameSize := by
    rw [inputBytes, hFile, hPosition, Nat.min_eq_left hNext.le]
    rfl
  -- a whole block, or what is left of the file
  have hLength : (s.inputBytes c).length = min c.frameSize (c.file.length - i * c.frameSize) := by
    rw [hBytes, readFile, List.length_take, List.length_drop]
  have hEnd : s.inputEof c = decide ((s.inputBytes c).length < c.frameSize) := by
    rw [inputEof, hFile]
    simp
  -- the block is the one that is due, or all are empty
  have hDue : Playback.position c.loopFrames (blockCount c) k = i ∨ c.frameSize = 0 := by
    rcases Nat.eq_zero_or_pos c.frameSize with hZero | hSize
    · exact .inr hZero
    left
    unfold Playback.position
    cases hLoop : c.loopFrames with
    | false => simpa [hLoop] using hPass
    | true =>
      have hSame : k % blockCount c = i % blockCount c := by simpa [hLoop] using hPass
      simpa [Nat.mod_eq_of_lt ((lt_blockCount hSize).mpr hNext)] using hSame
  have hTurn : (i + 1) * c.frameSize = i * c.frameSize + c.frameSize := Nat.succ_mul _ _
  refine ⟨?_, ?_, ?_, ?_, ?_, ?_⟩
  · rintro ⟨hNone, hAtEnd⟩
    rw [hEnd, decide_eq_true_eq] at hAtEnd
    omega
  · rw [hBytes, due, block]
    rcases hDue with hHere | hZero
    · rw [hHere]
    · simp [hZero, readFile]
  · rw [hPosition]
    omega
  · rw [hEnd]
    exact decide_eq_decide.mpr (by omega)
  · -- one more block was begun
    intro j hj
    rcases Nat.lt_succ_iff_lt_or_eq.mp hj with hBefore | rfl
    · exact hBegun j hBefore
    · exact hNext
  · cases hLoop : c.loopFrames with
    | false => simpa [hLoop] using hPass
    | true =>
      rw [hLoop, if_pos rfl] at hPass
      exact Nat.ModEq.add_right 1 hPass

/-- Behind the last block there is nothing to read. -/
theorem Cursor.read_end {i k : Nat} (h : Cursor c s.position s.eof i k) (hFile : c.file ≠ [])
    (hEnd : ¬ i * c.frameSize < c.file.length) :
    ((s.inputBytes c).length = 0 ∧ s.inputEof c) ∧ i = blockCount c := by
  obtain ⟨hPosition, hEof, hBegun, -⟩ := h
  have hPositive : 0 < c.file.length := List.length_pos_iff.mpr hFile
  have hSize : 0 < c.frameSize := by
    by_contra hZero
    rw [Nat.eq_zero_of_not_pos hZero, Nat.mul_zero] at hEnd
    exact hEnd hPositive
  -- the end was noticed before, or the position is there
  have hNone : s.inputBytes c = [] := by
    unfold inputBytes
    split
    · rfl
    · rw [hPosition, Nat.min_eq_right (not_lt.mp hEnd), readFile, List.drop_length, List.take_nil]
  refine ⟨⟨by rw [hNone]; rfl, ?_⟩, ?_⟩
  · simp [inputEof, hNone, hSize]
  · -- the last block that was read is the last block
    have hLe : blockCount c ≤ i := not_lt.mp fun hLt => hEnd ((lt_blockCount hSize).mp hLt)
    by_contra hNe
    have hLast := hBegun (blockCount c) (by omega)
    exact absurd ((lt_blockCount hSize).mpr hLast) (lt_irrefl _)

/-! ## Custody -/

/-- The frames that are out of the pool: those others have, and that of the turn. -/
def out (s : Streaming) : List Nat :=
  s.given ++ s.pc.frame.toList.filter (· ∉ s.given)

/-- Before the pool is stopped, every frame waits in the pool or is out, and the
turn has its frame for itself until it gives it away. -/
structure Custody (p : MediaFramePool) (s : Streaming) : Prop where
  serving : MediaFramePool.Serving p s.pool
  custody : InCustody p.frameCount s.pool.availableIndices s.out
  fresh : s.pc.owns = true → ∀ frame ∈ s.pc.frame, frame ∉ s.given

variable {p : MediaFramePool}

theorem mem_out {frame : Nat} : frame ∈ s.out ↔ frame ∈ s.given ∨ s.pc.frame = some frame := by
  simp only [out, List.mem_append, List.mem_filter, Option.mem_toList]
  constructor
  · rintro (hGiven | ⟨hTurn, -⟩)
    · exact .inl hGiven
    · exact .inr hTurn
  · rintro (hGiven | hTurn)
    · exact .inl hGiven
    · by_cases hGiven : frame ∈ s.given
      · exact .inl hGiven
      · exact .inr ⟨hTurn, by simpa using hGiven⟩

/-- The order in which others have their frames does not matter. -/
theorem out_perm {s' : Streaming} (hGiven : s.given.Perm s'.given)
    (hFrame : s'.pc.frame = s.pc.frame) : s.out.Perm s'.out := by
  unfold out
  rw [hFrame]
  refine hGiven.append (List.Perm.of_eq (List.filter_congr fun frame _ => ?_))
  exact decide_eq_decide.mpr (not_congr hGiven.mem_iff)

theorem returnFrameToPool_eq {q : MediaFramePool} (h : MediaFramePool.Serving p q) (frame : Nat) :
    q.returnFrameToPool frame = { q with availableIndices := q.availableIndices ++ [frame] } :=
  if_neg (by simp [h.running, h.alive])

/-- A frame comes out of the pool into the hands of a turn. -/
theorem Custody.getFrame (h : Custody p s) (hPc : s.pc = .getFrame) {frame : Nat}
    {rest : List Nat} (hNext : s.pool.availableIndices = frame :: rest) :
    Custody p { s with
      pool := { s.pool with availableIndices := rest }, pc := .read frame } := by
  obtain ⟨⟨hCount, hFrames, hRunning, hAlive⟩, hCustody, -⟩ := h
  have hOut : s.out = s.given := by simp [out, hPc, Pc.frame]
  rw [hOut, hNext] at hCustody
  -- a frame that waits in the pool is with nobody
  have hFresh : frame ∉ s.given := by
    have hNodup := hCustody.nodup
    rw [List.cons_append, List.nodup_cons, List.mem_append, not_or] at hNodup
    exact hNodup.1.2
  refine ⟨⟨hCount, hFrames, hRunning, hAlive⟩, ?_, ?_⟩
  · have hTaken := hCustody.take
    have hOut' : Streaming.out { s with
        pool := { s.pool with availableIndices := rest }, pc := .read frame } =
          s.given ++ [frame] := by
      show s.given ++ [frame].filter (· ∉ s.given) = _
      simp [hFresh]
    rw [hOut']
    exact hTaken
  · rintro - other hOther
    obtain rfl : frame = other := by simpa [Pc.frame] using hOther
    exact hFresh

/-- A step that takes no frame out of the pool and puts none in. -/
theorem Custody.keep (h : Custody p s) {s' : Streaming} (hPool : s'.pool = s.pool)
    (hGiven : s.given.Perm s'.given) (hFrame : s'.pc.frame = s.pc.frame)
    (hOwns : s'.pc.owns = true → s.pc.owns = true) : Custody p s' := by
  -- only who has which frame may change
  refine ⟨hPool ▸ h.serving, ?_, ?_⟩
  · rw [hPool]
    exact h.custody.out_perm (out_perm hGiven hFrame)
  · intro hPc frame hMem hOther
    rw [hFrame] at hMem
    exact h.fresh (hOwns hPc) frame hMem (hGiven.mem_iff.mpr hOther)

/-- The turn gives its frame away. -/
theorem Custody.give (h : Custody p s) {frame : Nat} (hPc : s.pc = .addFrame frame) :
    Custody p { s with
      frameProvider :=
        { s.frameProvider with frameQueue := s.frameProvider.frameQueue ++ [frame] }
      pc := .endOfTurn frame true } := by
  have hFresh : frame ∉ s.given := h.fresh (by rw [hPc]; rfl) frame (by rw [hPc]; rfl)
  refine ⟨h.serving, ?_, fun hOwns => absurd hOwns (by simp [Pc.owns])⟩
  refine h.custody.out_perm ?_
  have hOut : s.out = s.given ++ [frame] := by
    simp [out, hPc, Pc.frame, hFresh]
  rw [hOut]
  unfold out given
  simp only [Pc.frame, Option.toList_some, List.append_assoc]
  rw [List.filter_cons_of_neg (by simp), List.filter_nil, List.append_nil]
  exact List.Perm.append_left _ List.perm_append_comm

/-- A reference of the turn goes away, and its frame back to the pool if nobody
else has it. -/
theorem Custody.endOfTurn (h : Custody p s) {frame : Nat} {again : Bool}
    (hPc : s.pc = .endOfTurn frame again) {pc : Pc} (hFrame : pc.frame = none)
    (hOwns : pc.owns = false) :
    Custody p { s with pool := s.dropReference frame s.given, pc := pc } := by
  have hOut' : Streaming.out { s with pool := s.dropReference frame s.given, pc := pc } =
      s.given := by
    show s.given ++ pc.frame.toList.filter _ = _
    simp [hFrame]
  have hCustody := h.custody
  obtain ⟨hCount, hFrames, hRunning, hAlive⟩ := h.serving
  unfold dropReference at hOut' ⊢
  -- the queue or the consumer may have it, and it goes back only if neither has
  by_cases hGiven : frame ∈ s.given
  · have hOut : s.out = s.given := by simp [out, hPc, Pc.frame, hGiven]
    rw [if_pos hGiven] at hOut' ⊢
    refine ⟨h.serving, ?_, fun hYes => absurd hYes (by simp [hOwns])⟩
    rw [hOut']
    exact hOut ▸ hCustody
  · have hOut : s.out = s.given ++ [frame] := by simp [out, hPc, Pc.frame, hGiven]
    rw [if_neg hGiven, returnFrameToPool_eq h.serving] at hOut' ⊢
    refine ⟨⟨hCount, hFrames, hRunning, hAlive⟩, ?_, fun hYes => absurd hYes (by simp [hOwns])⟩
    rw [hOut']
    rw [hOut] at hCustody
    exact (hCustody.out_perm List.perm_append_comm).put

/-- So for a reference of the consumer. -/
theorem Custody.release (h : Custody p s) {position frame n : Nat}
    (hHeld : s.held[position]? = some (frame, n)) : Custody p (s.release position) := by
  have hCustody := h.custody
  obtain ⟨hCount, hFrames, hRunning, hAlive⟩ := h.serving
  -- what others have is the frame, and what is left
  have hPerm : s.given.Perm
      (frame :: Streaming.given { s with held := s.held.eraseIdx position }) := by
    obtain ⟨hLt, hAt⟩ := List.getElem?_eq_some_iff.mp hHeld
    have hSplit := (List.getElem_cons_eraseIdx_perm hLt).symm.map Prod.fst
    rw [hAt] at hSplit
    exact (hSplit.append_left _).trans List.perm_middle
  have hNodup : (frame :: Streaming.given { s with held := s.held.eraseIdx position }).Nodup :=
    hPerm.nodup_iff.mp (hCustody.nodup.of_append_right.of_append_left)
  have hLeft : frame ∉ Streaming.given { s with held := s.held.eraseIdx position } :=
    (List.nodup_cons.mp hNodup).1
  have hMem : frame ∈ s.given := hPerm.mem_iff.mpr List.mem_cons_self
  rw [Streaming.release, hHeld]
  dsimp only
  unfold dropReference
  by_cases hTurn : s.pc.frame = some frame
  · -- the turn has a reference to it still
    have hMine : frame ∈ Streaming.given { s with held := s.held.eraseIdx position } ++
        s.pc.frame.toList := by
      rw [hTurn]
      simp
    rw [if_pos hMine]
    refine ⟨h.serving, hCustody.out_perm ?_, ?_⟩
    · unfold out
      rw [hTurn]
      show (s.given ++ [frame].filter (· ∉ s.given)).Perm (_ ++ [frame].filter _)
      rw [List.filter_cons_of_neg (by simp [hMem]), List.filter_cons_of_pos (by simpa using hLeft),
        List.filter_nil, List.append_nil]
      exact hPerm.trans (List.perm_append_singleton _ _).symm
    · intro hOwns
      exact absurd hMem (h.fresh hOwns frame hTurn)
  · -- it goes back
    have hNobody : frame ∉ Streaming.given { s with held := s.held.eraseIdx position } ++
        s.pc.frame.toList := by
      rw [List.mem_append, not_or]
      exact ⟨hLeft, by simpa using hTurn⟩
    rw [if_neg hNobody, returnFrameToPool_eq h.serving]
    have hOther : ∀ other ∈ s.pc.frame.toList, (other ∈ s.given ↔
        other ∈ Streaming.given { s with held := s.held.eraseIdx position }) := by
      intro other hOther
      have hNe : other ≠ frame := by
        rintro rfl
        exact hTurn (by simpa using hOther)
      rw [hPerm.mem_iff, List.mem_cons, or_iff_right hNe]
    refine ⟨⟨hCount, hFrames, hRunning, hAlive⟩, (hCustody.out_perm ?_).put, ?_⟩
    · refine (hPerm.append (List.Perm.of_eq (List.filter_congr fun other hMem' => ?_))).trans
        (List.Perm.of_eq (List.cons_append ..))
      exact decide_eq_decide.mpr (not_congr (hOther other hMem'))
    · intro hOwns other hTurn' hGiven
      have hTurn'' : other ∈ s.pc.frame := hTurn'
      exact h.fresh hOwns other hTurn''
        ((hOther other (Option.mem_toList.mpr hTurn'')).mpr hGiven)

/-! ## What the frames hold -/

/-- Frames of one size that do not meet. -/
structure PoolFrames (frameSize : Nat) (p : MediaFramePool) : Prop where
  length_eq : p.allFrames.length = p.frameCount
  size_eq : ∀ f ∈ p.allFrames, f.size = frameSize
  apart : p.frameMemory.Pairwise Region.Disjoint

namespace PoolFrames

variable {frameSize : Nat}

theorem frame_size (h : PoolFrames frameSize p) {i : Nat} (hi : i < p.frameCount) :
    (p.frame i).size = frameSize := by
  have hLt : i < p.allFrames.length := h.length_eq ▸ hi
  rw [MediaFramePool.frame, List.getD_eq_getElem _ _ hLt]
  exact h.size_eq _ (List.getElem_mem hLt)

theorem frame_apart (h : PoolFrames frameSize p) {i j : Nat} (hi : i < p.frameCount)
    (hj : j < p.frameCount) (hNe : i ≠ j) :
    Region.Disjoint ⟨(p.frame i).data, frameSize⟩ ⟨(p.frame j).data, frameSize⟩ := by
  have hMemory : ∀ {k : Nat} (hk : k < p.frameMemory.length),
      p.frameMemory[k] = ⟨(p.frame k).data, frameSize⟩ := by
    intro k hk
    have hLt : k < p.allFrames.length := by simpa [MediaFramePool.frameMemory] using hk
    have hSize := h.frame_size (h.length_eq ▸ hLt)
    simp only [MediaFramePool.frameMemory, List.getElem_map, MediaFramePool.frame,
      List.getD_eq_getElem _ _ hLt] at hSize ⊢
    rw [hSize]
  have hLength : p.frameMemory.length = p.frameCount := by
    simp [MediaFramePool.frameMemory, h.length_eq]
  have hOrdered := List.pairwise_iff_getElem.mp h.apart
  -- the pairs of the list are ordered
  rcases Nat.lt_or_gt_of_ne hNe with hLt | hGt
  · have hHere := hOrdered i j (hLength ▸ hi) (hLength ▸ hj) hLt
    rwa [hMemory, hMemory] at hHere
  · have hHere := hOrdered j i (hLength ▸ hj) (hLength ▸ hi) hGt
    rw [hMemory, hMemory] at hHere
    exact hHere.symm

/-- What is written into a frame does not reach the others. -/
theorem content_write (h : PoolFrames frameSize p) {i j : Nat} (hi : i < p.frameCount)
    (hj : j < p.frameCount) (hNe : i ≠ j) {a : Nat} {bytes : List UInt8}
    (hLow : (p.frame i).data ≤ a) (hHigh : a + bytes.length ≤ (p.frame i).data + frameSize)
    (memory : Memory) :
    (p.frame j).content (write a bytes memory) = (p.frame j).content memory := by
  unfold MediaFrame.content
  rw [h.frame_size hj]
  apply read_congr
  intro x hFrom hTo
  apply write_of_outside
  -- an address in both frames
  rintro ⟨hIn, hOut⟩
  exact h.frame_apart hi hj hNe x ⟨by dsimp only; omega, by dsimp only; omega⟩ ⟨hFrom, hTo⟩

end PoolFrames

/-- How many blocks were passed on. -/
def passedOn (s : Streaming) : Nat := s.takenCount + s.frameProvider.frameQueue.length

/-- The block the turn is about is the next one that is due. -/
def Flight (c : MediaFileStreamingProvider) (s : Streaming) : Pc → Prop
  | .memoryCopy _ tempBuffer =>
    tempBuffer.length ≤ c.frameSize ∧
      tempBuffer ++ List.replicate (c.frameSize - tempBuffer.length) 0 = due c s.passedOn
  | .memorySet frame bytesRead =>
    bytesRead ≤ c.frameSize ∧
      read s.memory (s.pool.frame frame).data bytesRead ++
        List.replicate (c.frameSize - bytesRead) 0 = due c s.passedOn
  | .addFrame frame => s.content frame = due c s.passedOn
  | _ => True

/-- What holds between the steps. -/
structure Inv (c : MediaFileStreamingProvider) (p : MediaFramePool) (s : Streaming) : Prop where
  allFrames_eq : s.pool.allFrames = p.allFrames
  custody : s.pc ≠ .returned → Custody p s
  held : ∀ r ∈ s.held, s.content r.1 = due c r.2 ∧ r.2 < s.takenCount
  queued : ∀ i frame, s.frameProvider.frameQueue[i]? = some frame →
    s.content frame = due c (s.takenCount + i)
  flight : Flight c s s.pc
  once : c.loopFrames = false →
    ∀ n < s.passedOn + s.pc.inFlight, n * c.frameSize < c.file.length
  cursor : s.pc.over = false → ∃ i, Cursor c s.position s.eof i (s.passedOn + s.pc.inFlight)
  ended : s.pc.over = true → s.readFailed = false →
    c.loopFrames = false ∧ s.passedOn = blockCount c

/-- The invariant says what is delivered. -/
theorem Inv.delivered (h : Inv c p s) : Delivers c s where
  held := h.held
  queued := h.queued
  once := fun hLoop n hn => h.once hLoop n (Nat.lt_add_right _ hn)
  complete := fun hPc => h.ended (by rw [hPc]; rfl)

/-! ## Steps of the producer -/

/-- The frames others have are frames of the pool, and not that of a turn that
owns its frame. -/
theorem Inv.apart (h : Inv c p s) {frame : Nat} (hOwns : s.pc.owns = true)
    (hFrame : s.pc.frame = some frame) :
    frame < p.frameCount ∧ ∀ other ∈ s.given, other < p.frameCount ∧ frame ≠ other := by
  have hCustody := h.custody (by rintro hPc; rw [hPc] at hOwns; cases hOwns)
  have hLt : ∀ other ∈ s.out, other < p.frameCount :=
    fun other hOther => hCustody.custody.lt (.inr hOther)
  -- the frame of the turn is out, and fresh
  refine ⟨hLt frame (mem_out.mpr (.inr hFrame)), fun other hOther => ?_⟩
  refine ⟨hLt other (mem_out.mpr (.inl hOther)), ?_⟩
  rintro rfl
  exact hCustody.fresh hOwns frame hFrame hOther

/-- A write into the frame of a turn that owns it: nobody else sees it. -/
theorem Inv.write (h : Inv c p s) (hPool : PoolFrames c.frameSize p) {frame : Nat} {pc : Pc}
    (hOwns : s.pc.owns = true) (hFrame : s.pc.frame = some frame) (hFlight : s.pc.inFlight = 1)
    (hOwns' : pc.owns = true) (hFrame' : pc.frame = some frame) (hFlight' : pc.inFlight = 1)
    {a : Nat} {bytes : List UInt8} (hLow : (s.pool.frame frame).data ≤ a)
    (hHigh : a + bytes.length ≤ (s.pool.frame frame).data + c.frameSize)
    (hDue : Flight c { s with memory := ByteStore.write a bytes s.memory, pc := pc } pc) :
    Inv c p { s with memory := ByteStore.write a bytes s.memory, pc := pc } := by
  obtain ⟨hLt, hApart⟩ := h.apart hOwns hFrame
  have hSame : ∀ i, s.pool.frame i = p.frame i := by
    intro i
    rw [MediaFramePool.frame, h.allFrames_eq]
    rfl
  rw [hSame] at hLow hHigh
  have hContent : ∀ other ∈ s.given,
      content { s with memory := ByteStore.write a bytes s.memory, pc := pc } other =
        s.content other := by
    intro other hOther
    obtain ⟨hOtherLt, hNe⟩ := hApart other hOther
    show (s.pool.frame other).content _ = (s.pool.frame other).content _
    rw [hSame]
    exact hPool.content_write hLt hOtherLt hNe hLow hHigh s.memory
  have hOver : ∀ {q : Pc}, q.owns = true → q.over = false := by
    intro q hq
    cases q <;> first | rfl | cases hq
  refine ⟨h.allFrames_eq, ?_, ?_, ?_, hDue, ?_, ?_, ?_⟩
  · intro _
    have hActive : s.pc ≠ .returned := by rintro hPc; rw [hPc] at hOwns; cases hOwns
    exact (h.custody hActive).keep rfl (List.Perm.refl _) (hFrame'.trans hFrame.symm)
      fun _ => hOwns
  · intro r hr
    rw [hContent r.1 (List.mem_append_right _ (List.mem_map_of_mem hr))]
    exact h.held r hr
  · intro i other hOther
    rw [hContent other (List.mem_append_left _ (List.mem_of_getElem? hOther))]
    exact h.queued i other hOther
  · intro hLoop n hn
    have hn' : n < s.passedOn + pc.inFlight := hn
    exact h.once hLoop n (by omega)
  · intro _
    show ∃ i, Cursor c s.position s.eof i (s.passedOn + pc.inFlight)
    rw [hFlight', ← hFlight]
    exact h.cursor (hOver hOwns)
  · intro hYes
    exact absurd hYes (by simp [hOver hOwns'])

theorem Inv.memoryCopy (h : Inv c p s) (hPool : PoolFrames c.frameSize p) {frame : Nat}
    {tempBuffer : List UInt8} (hPc : s.pc = .memoryCopy frame tempBuffer) :
    Inv c p { s with
      memory := ByteStore.write (s.pool.frame frame).data tempBuffer s.memory
      pc := if tempBuffer.length < c.frameSize then .memorySet frame tempBuffer.length
        else .addFrame frame } := by
  have hFlight := h.flight
  rw [hPc] at hFlight
  obtain ⟨hLength, hDue⟩ := hFlight
  have hOwns : s.pc.owns = true := by rw [hPc]; rfl
  have hFrame : s.pc.frame = some frame := by rw [hPc]; rfl
  obtain ⟨hLt, -⟩ := h.apart hOwns hFrame
  -- what was copied is there
  have hRead : read (ByteStore.write (s.pool.frame frame).data tempBuffer s.memory)
      (s.pool.frame frame).data tempBuffer.length = tempBuffer := read_write_same rfl
  refine h.write hPool hOwns hFrame (by rw [hPc]; rfl) ?_ ?_ ?_ le_rfl (by omega) ?_
  · split <;> rfl
  · split <;> rfl
  · split <;> rfl
  · by_cases hShort : tempBuffer.length < c.frameSize
    · rw [if_pos hShort]
      exact ⟨hLength, by rw [hRead]; exact hDue⟩
    · -- a whole block
      rw [if_neg hShort]
      have hSize : (s.pool.frame frame).size = tempBuffer.length := by
        rw [MediaFramePool.frame, h.allFrames_eq]
        exact (hPool.frame_size hLt).trans (by omega)
      show read _ (s.pool.frame frame).data (s.pool.frame frame).size = _
      rw [hSize, hRead]
      rw [show c.frameSize - tempBuffer.length = 0 by omega, List.replicate_zero,
        List.append_nil] at hDue
      exact hDue

theorem Inv.memorySet (h : Inv c p s) (hPool : PoolFrames c.frameSize p) {frame bytesRead : Nat}
    (hPc : s.pc = .memorySet frame bytesRead) :
    Inv c p { s with
      memory := ByteStore.write ((s.pool.frame frame).data + bytesRead)
        (List.replicate (c.frameSize - bytesRead) 0) s.memory
      pc := .addFrame frame } := by
  have hFlight := h.flight
  rw [hPc] at hFlight
  obtain ⟨hLength, hDue⟩ := hFlight
  have hOwns : s.pc.owns = true := by rw [hPc]; rfl
  have hFrame : s.pc.frame = some frame := by rw [hPc]; rfl
  obtain ⟨hLt, -⟩ := h.apart hOwns hFrame
  refine h.write hPool hOwns hFrame (by rw [hPc]; rfl) rfl rfl rfl (Nat.le_add_right _ _)
    (by rw [List.length_replicate]; omega) ?_
  have hSize : (s.pool.frame frame).size = bytesRead + (c.frameSize - bytesRead) := by
    rw [MediaFramePool.frame, h.allFrames_eq]
    exact (hPool.frame_size hLt).trans (by omega)
  show read _ (s.pool.frame frame).data (s.pool.frame frame).size = _
  -- the bytes that were copied, and the zeros behind them
  rw [hSize, read_append, read_write_same List.length_replicate,
    read_write_of_disjoint (.inl le_rfl)]
  exact hDue

theorem length_inputBytes_le (c : MediaFileStreamingProvider) (s : Streaming) :
    (s.inputBytes c).length ≤ c.frameSize := by
  unfold inputBytes
  split
  · exact Nat.zero_le _
  · exact MediaSenderMemory.length_readFile_le _ _

theorem Inv.readBlock (h : Inv c p s) (hFile : c.file ≠ []) {frame : Nat}
    (hPc : s.pc = .read frame) (deviceFails : Bool) :
    Inv c p (s.readBlock c frame deviceFails) := by
  have hCustody := h.custody (by rw [hPc]; nofun)
  have hFrame : s.pc.frame = some frame := by rw [hPc]; rfl
  have hOwns : s.pc.owns = true := by rw [hPc]; rfl
  obtain ⟨i, hCursor⟩ := h.cursor (by rw [hPc]; rfl)
  have hOnce := h.once
  rw [hPc] at hCursor hOnce
  rw [Streaming.readBlock]
  by_cases hFails : deviceFails ∧ ¬ s.eof
  · -- the turn is the last one
    rw [if_pos hFails]
    exact ⟨h.allFrames_eq, fun _ => hCustody.keep rfl (List.Perm.refl _) hFrame.symm fun _ => hOwns,
      h.held, h.queued, trivial, hOnce, fun hOver => absurd hOver (by simp [Pc.over]),
      fun _ hNot => absurd hNot (by simp)⟩
  rw [if_neg hFails]
  by_cases hNext : i * c.frameSize < c.file.length
  · obtain ⟨hGot, hDue, hCursor'⟩ := hCursor.read_block hNext
    rw [if_neg hGot]
    refine ⟨h.allFrames_eq,
      fun _ => hCustody.keep rfl (List.Perm.refl _) hFrame.symm fun _ => hOwns,
      h.held, h.queued, ⟨length_inputBytes_le c s, hDue⟩, ?_, fun _ => ⟨i + 1, hCursor'⟩,
      fun hOver => absurd hOver (by simp [Pc.over])⟩
    intro hLoop n hn
    -- without a loop the passes are not counted: block by block
    have hCount : s.passedOn = i := by
      have hPass := hCursor.pass
      rwa [hLoop, if_neg (by simp)] at hPass
    rcases Nat.lt_succ_iff_lt_or_eq.mp (show n < s.passedOn + 1 from hn) with hBefore | rfl
    · exact hOnce hLoop n hBefore
    · rwa [hCount]
  · obtain ⟨hEnd, rfl⟩ := hCursor.read_end hFile hNext
    rw [if_pos hEnd]
    have hPass := hCursor.pass
    cases hLoop : c.loopFrames with
    | true =>
      -- the file starts over
      rw [if_pos rfl]
      refine ⟨h.allFrames_eq,
        fun _ => hCustody.keep rfl (List.Perm.refl _) hFrame.symm fun _ => hOwns, h.held,
        h.queued, trivial, hOnce, fun _ => ⟨0, by simp, by simp, by simp, ?_⟩,
        fun hOver => absurd hOver (by simp [Pc.over])⟩
      rw [hLoop, if_pos rfl, Nat.mod_self] at hPass
      rw [hLoop, if_pos rfl, Nat.zero_mod]
      exact hPass
    | false =>
      rw [if_neg (by simp)]
      refine ⟨h.allFrames_eq,
        fun _ => hCustody.keep rfl (List.Perm.refl _) hFrame.symm fun _ => hOwns, h.held,
        h.queued, trivial, hOnce, fun hOver => absurd hOver (by simp [Pc.over]), fun _ _ => ?_⟩
      rw [hLoop, if_neg (by simp)] at hPass
      exact ⟨hLoop, hPass⟩

theorem producer_of_getFrame (hPc : s.pc = .getFrame) (deviceFails : Bool) :
    s.producer c deviceFails =
      match s.pool.getFrame with
      | (none, pool) => { s with pool := pool }
      | (some frame, pool) => { s with pool := pool, pc := .read frame } := by
  rw [producer, hPc]

theorem producer_of_addFrame {frame : Nat} (hPc : s.pc = .addFrame frame) (deviceFails : Bool) :
    s.producer c deviceFails =
      match s.frameProvider.addFrame (some frame) with
      | (.success, q) => { s with frameProvider := q, pc := .endOfTurn frame true }
      | (_, q) => { s with frameProvider := q } := by
  rw [producer, hPc]

theorem Inv.getFrame (h : Inv c p s) (hPc : s.pc = .getFrame) (deviceFails : Bool) :
    Inv c p (s.producer c deviceFails) := by
  have hCustody := h.custody (by rw [hPc]; nofun)
  have hOnce := h.once
  have hCursor := h.cursor
  rw [hPc] at hOnce hCursor
  rw [producer_of_getFrame hPc]
  cases hNext : s.pool.availableIndices with
  | nil =>
    -- no frame is free, and the producer sleeps
    rw [MediaFramePool.getFrame_of_eq_nil hNext]
    exact h
  | cons frame rest =>
    rw [MediaFramePool.getFrame_of_eq_cons hCustody.serving.running hNext]
    exact ⟨h.allFrames_eq, fun _ => hCustody.getFrame hPc hNext, h.held, h.queued, trivial, hOnce,
      hCursor, fun hOver => absurd hOver (by simp [Pc.over])⟩

theorem Inv.addFrame (h : Inv c p s) {frame : Nat} (hPc : s.pc = .addFrame frame)
    (deviceFails : Bool) : Inv c p (s.producer c deviceFails) := by
  have hCustody := h.custody (by rw [hPc]; nofun)
  have hFlight := h.flight
  have hOnce := h.once
  have hCursor := h.cursor
  rw [hPc] at hFlight hOnce hCursor
  rw [producer_of_addFrame hPc]
  dsimp only [BufferedMediaFrameProvider.addFrame]
  by_cases hFull : s.frameProvider.maxQueueSize > 0 ∧
      s.frameProvider.frameQueue.length ≥ s.frameProvider.maxQueueSize
  · -- the queue is full, and the producer sleeps
    rw [if_pos hFull]
    exact h
  rw [if_neg hFull]
  -- one more block is passed on
  have hPassed : passedOn { s with
      frameProvider :=
        { s.frameProvider with frameQueue := s.frameProvider.frameQueue ++ [frame] }
      pc := .endOfTurn frame true } = s.passedOn + 1 := by
    simp [passedOn, Nat.add_assoc]
  refine ⟨h.allFrames_eq, fun _ => hCustody.give hPc, h.held, ?_, trivial, ?_, ?_,
    fun hOver => absurd hOver (by simp [Pc.over])⟩
  · intro i other hOther
    have hOther' : (s.frameProvider.frameQueue ++ [frame])[i]? = some other := hOther
    rcases Nat.lt_trichotomy i s.frameProvider.frameQueue.length with hLt | rfl | hGt
    · rw [List.getElem?_append_left hLt] at hOther'
      exact h.queued i other hOther'
    · -- the last one is the block of this turn
      rw [List.getElem?_append_right le_rfl, Nat.sub_self] at hOther'
      obtain rfl : frame = other := Option.some.inj hOther'
      exact hFlight
    · rw [List.getElem?_append_right hGt.le, List.getElem?_eq_none (by simp; omega)] at hOther'
      cases hOther'
  · rw [hPassed]
    exact hOnce
  · rw [hPassed]
    exact hCursor

@[simp]
theorem dropReference_allFrames (s : Streaming) (frame : Nat) (others : List Nat) :
    (s.dropReference frame others).allFrames = s.pool.allFrames := by
  unfold dropReference
  split
  · rfl
  · exact MediaFramePool.returnFrameToPool_allFrames _ _

/-- What a frame holds does not depend on who has it. -/
theorem content_congr {s' : Streaming} (hFrames : s'.pool.allFrames = s.pool.allFrames)
    (hMemory : s'.memory = s.memory) (frame : Nat) : s'.content frame = s.content frame := by
  rw [content, content, MediaFramePool.frame_congr hFrames, hMemory]

theorem Flight.congr {s' : Streaming} {pc : Pc} (h : Flight c s pc)
    (hFrames : s'.pool.allFrames = s.pool.allFrames) (hMemory : s'.memory = s.memory)
    (hPassed : s'.passedOn = s.passedOn) : Flight c s' pc := by
  cases pc with
  | memoryCopy frame tempBuffer =>
    rw [Flight, hPassed]
    exact h
  | memorySet frame bytesRead =>
    rw [Flight, hPassed, hMemory, MediaFramePool.frame_congr hFrames]
    exact h
  | addFrame frame =>
    rw [Flight, hPassed, content_congr hFrames hMemory]
    exact h
  | _ => trivial

theorem Inv.endOfTurn (h : Inv c p s) {frame : Nat} {again : Bool}
    (hPc : s.pc = .endOfTurn frame again) :
    Inv c p { s with
      pool := s.dropReference frame s.given
      pc := if again then .getFrame else .stopFrameProvider } := by
  have hCustody := h.custody (by rw [hPc]; nofun)
  have hOnce := h.once
  have hCursor := h.cursor
  have hOver := h.ended
  rw [hPc] at hOnce hCursor hOver
  -- frames come and go, and keep what they hold
  have hContent : ∀ other, content { s with
      pool := s.dropReference frame s.given
      pc := if again then .getFrame else .stopFrameProvider } other = s.content other :=
    content_congr (dropReference_allFrames s frame s.given) rfl
  refine ⟨(dropReference_allFrames s frame s.given).trans h.allFrames_eq, fun _ => ?_, ?_, ?_,
    ?_, ?_, ?_, ?_⟩
  · cases again
    · exact hCustody.endOfTurn hPc rfl rfl
    · exact hCustody.endOfTurn hPc rfl rfl
  · intro r hr
    rw [hContent]
    exact h.held r hr
  · intro i other hOther
    rw [hContent]
    exact h.queued i other hOther
  · cases again <;> trivial
  · cases again <;> exact hOnce
  · cases again
    · exact fun hNot => absurd hNot (by simp [Pc.over])
    · exact hCursor
  · cases again
    · exact hOver
    · exact fun hYes => absurd hYes (by simp [Pc.over])

/-- The steps behind the loop. -/
theorem Inv.behindLoop (h : Inv c p s) (hPc : s.pc = .stopFrameProvider ∨ s.pc = .stopFramePool ∨
    s.pc = .returned) (deviceFails : Bool) : Inv c p (s.producer c deviceFails) := by
  have hOnce := h.once
  have hOver := h.ended
  rcases hPc with hPc | hPc | hPc
  · have hCustody := h.custody (by rw [hPc]; nofun)
    rw [hPc] at hOnce hOver
    rw [producer, hPc]
    exact ⟨h.allFrames_eq, fun _ => hCustody.keep rfl (List.Perm.refl _) (by rw [hPc]; rfl) nofun,
      h.held, h.queued, trivial, hOnce, nofun, hOver⟩
  · rw [hPc] at hOnce hOver
    rw [producer, hPc]
    exact ⟨h.allFrames_eq, fun hNot => absurd rfl hNot, h.held, h.queued, trivial, hOnce, nofun,
      hOver⟩
  · -- nothing is left to do
    have hStays : s.producer c deviceFails = s := by rw [producer, hPc]
    rw [hStays]
    exact h

/-- **Producer.** Whatever the producer does next keeps the invariant. -/
theorem Inv.producer (h : Inv c p s) (hPool : PoolFrames c.frameSize p) (hFile : c.file ≠ [])
    (deviceFails : Bool) : Inv c p (s.producer c deviceFails) := by
  cases hPc : s.pc with
  | getFrame => exact h.getFrame hPc deviceFails
  | read frame =>
    rw [Streaming.producer, hPc]
    exact h.readBlock hFile hPc deviceFails
  | memoryCopy frame tempBuffer =>
    rw [Streaming.producer, hPc]
    exact h.memoryCopy hPool hPc
  | memorySet frame bytesRead =>
    rw [Streaming.producer, hPc]
    exact h.memorySet hPool hPc
  | addFrame frame => exact h.addFrame hPc deviceFails
  | endOfTurn frame again =>
    rw [Streaming.producer, hPc]
    exact h.endOfTurn hPc
  | stopFrameProvider => exact h.behindLoop (.inl hPc) deviceFails
  | stopFramePool => exact h.behindLoop (.inr (.inl hPc)) deviceFails
  | returned => exact h.behindLoop (.inr (.inr hPc)) deviceFails

/-! ## Steps of the consumer -/

/-- The first frame of the queue goes over to the consumer. -/
theorem Inv.take (h : Inv c p s) {frame : Nat} {rest : List Nat}
    (hQueue : s.frameProvider.frameQueue = frame :: rest) :
    Inv c p (s.taken (some frame, { s.frameProvider with frameQueue := rest })) := by
  -- a block in the queue counts as passed on already
  have hPassed : (s.taken (some frame, { s.frameProvider with frameQueue := rest })).passedOn =
      s.passedOn := by
    simp only [passedOn, taken, hQueue, List.length_cons]
    omega
  have hFirst := h.queued 0 frame (by rw [hQueue]; rfl)
  refine ⟨h.allFrames_eq, fun hPc => ?_, ?_, ?_, ?_, ?_, ?_, ?_⟩
  · refine (h.custody hPc).keep rfl ?_ rfl id
    show (s.frameProvider.frameQueue ++ s.held.map Prod.fst).Perm
      (rest ++ (s.held ++ [(frame, s.takenCount)]).map Prod.fst)
    rw [hQueue, List.map_append, ← List.append_assoc]
    exact (List.perm_append_singleton frame (rest ++ s.held.map Prod.fst)).symm
  · intro r hr
    rcases List.mem_append.mp hr with hOld | hNew
    · obtain ⟨hContent, hLt⟩ := h.held r hOld
      exact ⟨hContent, Nat.lt_succ_of_lt hLt⟩
    · obtain rfl := List.mem_singleton.mp hNew
      exact ⟨hFirst, Nat.lt_succ_self _⟩
  · intro i other hOther
    -- the numbers of the others stay
    have hLater := h.queued (i + 1) other (by rw [hQueue]; exact hOther)
    rw [show s.takenCount + (i + 1) = s.takenCount + 1 + i by omega] at hLater
    exact hLater
  · exact h.flight.congr rfl rfl hPassed
  · rw [hPassed]
    exact h.once
  · rw [hPassed]
    exact h.cursor
  · rw [hPassed]
    exact h.ended

theorem Inv.getFrameNotBlocking (h : Inv c p s) :
    Inv c p (s.taken s.frameProvider.getFrameNotBlocking) := by
  unfold BufferedMediaFrameProvider.getFrameNotBlocking
  cases hQueue : s.frameProvider.frameQueue with
  | nil => exact h
  | cons frame rest => exact h.take hQueue

theorem Inv.getFrameBlocking (h : Inv c p s) : Inv c p (s.step c .getFrameBlocking) := by
  unfold step BufferedMediaFrameProvider.getFrameBlocking
  cases hQueue : s.frameProvider.frameQueue with
  | nil =>
    dsimp only
    cases s.frameProvider.stopped with
    | false => exact h
    | true => exact h
  | cons frame rest => exact h.take hQueue

theorem Inv.release (h : Inv c p s) (position : Nat) : Inv c p (s.release position) := by
  cases hHeld : s.held[position]? with
  | none =>
    rw [Streaming.release, hHeld]
    exact h
  | some r =>
    -- the pool gets the frame back, or not
    obtain ⟨pool, hFrames, hRelease⟩ : ∃ pool : MediaFramePool,
        pool.allFrames = s.pool.allFrames ∧
          s.release position = { s with held := s.held.eraseIdx position, pool := pool } := by
      rw [Streaming.release, hHeld]
      exact ⟨_, dropReference_allFrames _ _ _, rfl⟩
    have hCustody : s.pc ≠ .returned → Custody p (s.release position) :=
      fun hPc => (h.custody hPc).release hHeld
    rw [hRelease] at hCustody ⊢
    have hContent : ∀ frame, content { s with
        held := s.held.eraseIdx position, pool := pool } frame = s.content frame :=
      content_congr hFrames rfl
    refine ⟨hFrames.trans h.allFrames_eq, hCustody, ?_, ?_, h.flight.congr hFrames rfl rfl,
      h.once, h.cursor, h.ended⟩
    · intro r hr
      rw [hContent]
      exact h.held r (List.mem_of_mem_eraseIdx hr)
    · intro i other hOther
      rw [hContent]
      exact h.queued i other hOther

/-! ## Runs -/

/-- What every step keeps. -/
theorem Inv.step (h : Inv c p s) (hPool : PoolFrames c.frameSize p) (hFile : c.file ≠ [])
    (event : StreamingEvent) : Inv c p (s.step c event) := by
  cases event with
  | producer deviceFails => exact h.producer hPool hFile deviceFails
  | getFrameBlocking => exact h.getFrameBlocking
  | getFrameNotBlocking => exact h.getFrameNotBlocking
  | release position => exact h.release position

theorem Inv.run (h : Inv c p s) (hPool : PoolFrames c.frameSize p) (hFile : c.file ≠ [])
    (events : List StreamingEvent) : Inv c p (s.run c events) := by
  induction events generalizing s with
  | nil => exact h
  | cons event events ih => exact ih (h.step hPool hFile event)

/-- The frames of a pool that has room for them. -/
theorem poolFrames_of_create {reserves : Nat → Bool} {frameCount frameSize : Nat}
    {source : MediaFramePool.Source}
    (hCreate : MediaFramePool.create reserves frameCount frameSize source = some p)
    (hProper : source.Proper) (hFits : source.Fits frameCount frameSize) :
    PoolFrames frameSize p := by
  have hPartition := (MediaFramePool.frames_partition_iff hCreate hProper).mpr hFits
  obtain ⟨totalMemorySize, memoryBlock, rfl⟩ := MediaFramePool.create_eq_ofMemory hCreate
  refine ⟨?_, ?_, hPartition.disjoint⟩
  · simp [MediaFramePool.ofMemory, MediaFramePool.cutFrames]
  · intro f hf
    obtain ⟨i, -, rfl⟩ := List.mem_map.mp hf
    rfl

theorem inv_start (c : MediaFileStreamingProvider) {reserves : Nat → Bool} {frameCount : Nat}
    {source : MediaFramePool.Source} {pool : MediaFramePool}
    (hCreate : MediaFramePool.create reserves frameCount c.frameSize source = some pool)
    (maxQueueSize : Nat) (memory : Memory) :
    Inv c pool { pool, memory, frameProvider := { maxQueueSize } } := by
  obtain ⟨totalMemorySize, memoryBlock, rfl⟩ := MediaFramePool.create_eq_ofMemory hCreate
  have hKept := MediaFramePool.kept_ofMemory frameCount c.frameSize totalMemorySize memoryBlock
  exact ⟨rfl, fun _ => ⟨hKept.serving, hKept.custody, nofun⟩, nofun, nofun, trivial, nofun,
    fun _ => ⟨0, cursor_start⟩, nofun⟩

/-- What the platform is relied upon for: an array and a page lie in an address
space of at most 57 bits. -/
structure Platform (newBytes : Nat → Bool) (a : MemoryAllocator) : Prop where
  allocator : MediaFramePool.Proper a
  newBytes_lt : ∀ n, newBytes n = true → n < 2 ^ 57
  pageSize_lt : a.pageSize < 2 ^ 57

/-- A pool of frames of which one can be had besides has room for all. -/
theorem Platform.fits {newBytes : Nat → Bool} {a : MemoryAllocator} (h : Platform newBytes a)
    {frameSize : Nat} (hNew : newBytes frameSize = true) :
    (MediaFramePool.Source.allocator a).Fits MEMORY_POOL_FRAME_COUNT frameSize := by
  have hSize := h.newBytes_lt frameSize hNew
  have hPage := h.pageSize_lt
  have hUp := Nat.div_mul_le_self (MEMORY_POOL_FRAME_COUNT * frameSize + a.pageSize - 1) a.pageSize
  show alignUpPow2 (MEMORY_POOL_FRAME_COUNT * frameSize) a.pageSize + a.pageSize < 2 ^ 64
  unfold alignUpPow2 MEMORY_POOL_FRAME_COUNT at *
  omega

/-- **The file is streamed in order.** However the producer and the consumer take
turns, the frames the consumer has taken and not let go of hold the blocks of the
file in order, each once per pass, and nothing is lost on the way. -/
theorem delivers (c : MediaFileStreamingProvider) (hFile : c.file ≠ [])
    {reserves newBytes : Nat → Bool} {a : MemoryAllocator} (hPlatform : Platform newBytes a)
    {maxQueueSize : Nat} {memory : Memory} {s : Streaming}
    (hStart : start c reserves newBytes a maxQueueSize memory = some s)
    (events : List StreamingEvent) : Delivers c (s.run c events) := by
  unfold start at hStart
  cases hCreate : MediaFramePool.create reserves MEMORY_POOL_FRAME_COUNT c.frameSize
      (.allocator a) with
  | none =>
    rw [hCreate] at hStart
    cases hStart
  | some pool =>
    rw [hCreate] at hStart
    dsimp only at hStart
    split at hStart
    · rename_i hNew
      obtain rfl := Option.some.inj hStart
      have hPool := poolFrames_of_create hCreate hPlatform.allocator (hPlatform.fits hNew)
      exact ((inv_start c hCreate maxQueueSize memory).run hPool hFile events).delivered
    · cases hStart

/-- Three bytes in blocks of two, in a loop. -/
def threeBytes : MediaFileStreamingProvider where
  file := [1, 2, 3]
  frameSize := 2
  loopFrames := true

/-- A queue of one frame, of which the consumer takes two. -/
theorem delivers_threeBytes :
    ∃ s, start threeBytes (fun _ => true) (· ≤ 1024) MediaFramePool.smallAllocator 1
        (fun _ => 0) = some s ∧
      Delivers threeBytes (s.run threeBytes
        (List.replicate 12 (.producer false) ++ [.getFrameBlocking] ++
          List.replicate 12 (.producer false) ++ [.release 0, .getFrameNotBlocking])) := by
  have hPlatform : Platform (· ≤ 1024) MediaFramePool.smallAllocator :=
    ⟨MediaFramePool.proper_smallAllocator, fun n hn => by simp at hn; omega, by decide⟩
  have hStart : start threeBytes (fun _ => true) (· ≤ 1024) MediaFramePool.smallAllocator 1
      (fun _ => 0) = some _ := rfl
  exact ⟨_, hStart, delivers threeBytes (by decide) hPlatform hStart _⟩

end Streaming

end RivermaxDevKit
