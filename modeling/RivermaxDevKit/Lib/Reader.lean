import RivermaxDevKit.Lib.ByteStore

/-!
# Readers

A computation on a memory it reads byte by byte. Which byte it reads next, and
what it returns, depends on the bytes it has read and on nothing else, so its
reads are part of its meaning.

* `run_congr` — memories that agree on the bytes read give the same result, after
  the same reads.
* `ReadsBelow.run_congr` — a reader that stays below a bound uses no more than
  the bytes below it.
-/

open ByteStore

universe u

/-- `byte a next` reads address `a` and goes on with what it finds. -/
inductive Reader (α : Type u)
  | done (a : α)
  | byte (address : Nat) (next : UInt8 → Reader α)

namespace Reader

variable {α β : Type u}

def run : Reader α → Memory → α
  | done a, _ => a
  | byte address next, m => (next (m address)).run m

/-- The addresses read, in order. -/
def reads : Reader α → Memory → List Nat
  | done _, _ => []
  | byte address next, m => address :: (next (m address)).reads m

def bind : Reader α → (α → Reader β) → Reader β
  | done a, f => f a
  | byte address next, f => byte address fun b => (next b).bind f

instance : Monad Reader where
  pure := done
  bind := bind

@[simp] theorem run_done (a : α) (m : Memory) : (done a).run m = a := rfl

@[simp] theorem reads_done (a : α) (m : Memory) : (done a).reads m = [] := rfl

@[simp] theorem run_pure (a : α) (m : Memory) : (pure a : Reader α).run m = a := rfl

@[simp] theorem reads_pure (a : α) (m : Memory) : (pure a : Reader α).reads m = [] := rfl

@[simp] theorem run_bind (r : Reader α) (f : α → Reader β) (m : Memory) :
    (r >>= f).run m = (f (r.run m)).run m := by
  show (r.bind f).run m = _
  induction r with
  | done a => rfl
  | byte address next ih => exact ih (m address)

@[simp] theorem reads_bind (r : Reader α) (f : α → Reader β) (m : Memory) :
    (r >>= f).reads m = r.reads m ++ (f (r.run m)).reads m := by
  show (r.bind f).reads m = _
  induction r with
  | done a => rfl
  | byte address next ih => exact congrArg (address :: ·) (ih (m address))

/-- **What is not read does not matter.** -/
theorem run_congr {r : Reader α} {m m' : Memory} (h : ∀ a ∈ r.reads m, m a = m' a) :
    r.run m = r.run m' ∧ r.reads m = r.reads m' := by
  induction r with
  | done a => exact ⟨rfl, rfl⟩
  | byte address next ih =>
    have hFirst : m address = m' address := h address List.mem_cons_self
    obtain ⟨hRun, hReads⟩ := ih (m address) fun a ha => h a (List.mem_cons_of_mem _ ha)
    simp only [run, reads, ← hFirst]
    exact ⟨hRun, congrArg (address :: ·) hReads⟩

/-! ## Bytes -/

def readByte (address : Nat) : Reader UInt8 := byte address done

@[simp] theorem run_readByte (address : Nat) (m : Memory) :
    (readByte address).run m = m address := rfl

@[simp] theorem reads_readByte (address : Nat) (m : Memory) :
    (readByte address).reads m = [address] := rfl

/-- `memcpy`: the `n` bytes from `address` on. -/
def readBytes (address : Nat) : Nat → Reader (List UInt8)
  | 0 => done []
  | n + 1 => byte address fun b => (readBytes (address + 1) n).bind fun rest => done (b :: rest)

theorem run_readBytes (n : Nat) (m : Memory) :
    ∀ address, (readBytes address n).run m = read m address n := by
  induction n with
  | zero => exact fun _ => rfl
  | succ n ih =>
    intro address
    have hRest := run_bind (readBytes (address + 1) n) (fun rest => done (m address :: rest)) m
    have hHead : read m address (n + 1) = m address :: read m (address + 1) n := by
      rw [Nat.add_comm n 1, read_append]
      rfl
    rw [hHead, ← ih]
    exact hRest

theorem reads_readBytes (n : Nat) (m : Memory) :
    ∀ address, (readBytes address n).reads m = List.range' address n := by
  induction n with
  | zero => exact fun _ => rfl
  | succ n ih =>
    intro address
    have hRest := reads_bind (readBytes (address + 1) n) (fun rest => done (m address :: rest)) m
    rw [List.range'_succ, ← ih, ← List.append_nil ((readBytes (address + 1) n).reads m)]
    exact congrArg (address :: ·) hRest

/-! ## Bounds -/

/-- On `m`, no address at or beyond `length` is read. -/
def ReadsBelow (length : Nat) (r : Reader α) (m : Memory) : Prop := ∀ a ∈ r.reads m, a < length

instance (length : Nat) (r : Reader α) (m : Memory) : Decidable (ReadsBelow length r m) :=
  inferInstanceAs (Decidable (∀ a ∈ r.reads m, a < length))

/-- **Only the first bytes.** Memories that agree below the bound are read
alike. -/
theorem ReadsBelow.run_congr {length : Nat} {r : Reader α} {m m' : Memory}
    (h : ReadsBelow length r m) (hAgree : ∀ a < length, m a = m' a) :
    r.run m = r.run m' ∧ ReadsBelow length r m' := by
  obtain ⟨hRun, hReads⟩ := Reader.run_congr fun a ha => hAgree a (h a ha)
  refine ⟨hRun, ?_⟩
  intro a ha
  rw [← hReads] at ha
  exact h a ha

@[simp] theorem readsBelow_pure (length : Nat) (a : α) (m : Memory) :
    ReadsBelow length (pure a) m := nofun

@[simp] theorem readsBelow_bind {length : Nat} {r : Reader α} {f : α → Reader β} {m : Memory} :
    ReadsBelow length (r >>= f) m ↔
      ReadsBelow length r m ∧ ReadsBelow length (f (r.run m)) m := by
  simp [ReadsBelow, or_imp, forall_and]

@[simp] theorem readsBelow_readByte {length address : Nat} {m : Memory} :
    ReadsBelow length (readByte address) m ↔ address < length := by
  simp [ReadsBelow]

theorem readsBelow_readBytes {length address n : Nat} {m : Memory} (hn : 0 < n) :
    ReadsBelow length (readBytes address n) m ↔ address + n ≤ length := by
  simp only [ReadsBelow, reads_readBytes, List.mem_range'_1]
  constructor
  · intro h
    have := h (address + (n - 1)) ⟨by omega, by omega⟩
    omega
  · intro h a ha
    omega

end Reader
