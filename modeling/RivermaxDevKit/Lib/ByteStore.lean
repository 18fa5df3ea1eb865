import Mathlib.Algebra.Ring.Nat
import Mathlib.Data.List.GetD
import Mathlib.Data.List.TakeWhile
import Mathlib.Data.List.Induction
import Mathlib.Tactic.Common

/-!
# Byte stores

A byte-addressed memory, big-endian numbers in it, and C strings: what
`strncpy` writes, and what a reader makes of a `char` array.

* `read_write_same` / `read_write_of_disjoint` — a region reads back what was
  written to it last; writes elsewhere do not matter.
* `read_writeAll` — of writes in series each is read back.
* `ofBigEndian_bigEndian` — a number of `n` bytes survives modulo `256 ^ n`.
* `cString_strncpy` — a copied string is the source up to its first NUL, cut
  at the bound of the copy.
-/

namespace ByteStore

abbrev Memory := Nat → UInt8

/-! ## Regions -/

/-- The `n` bytes at address `a`. -/
def read (m : Memory) (a n : Nat) : List UInt8 := (List.range n).map fun i => m (a + i)

/-- Overwrite the bytes from address `a` on. -/
def write (a : Nat) (bytes : List UInt8) (m : Memory) : Memory := fun i =>
  if a ≤ i ∧ i < a + bytes.length then bytes.getD (i - a) 0 else m i

theorem write_of_outside {m : Memory} {a i : Nat} {bytes : List UInt8}
    (h : ¬ (a ≤ i ∧ i < a + bytes.length)) : write a bytes m i = m i := if_neg h

@[simp] theorem length_read (m : Memory) (a n : Nat) : (read m a n).length = n := by
  simp [read]

@[simp] theorem getElem_read {m : Memory} {a n i : Nat} (h : i < (read m a n).length) :
    (read m a n)[i] = m (a + i) := by
  simp [read]

theorem head?_read {m : Memory} {a n : Nat} (hn : 0 < n) : (read m a n).head? = some (m a) := by
  rw [read, List.head?_map, List.head?_range, if_neg (by omega)]
  rfl

theorem read_zeros (a n : Nat) : read (fun _ => 0) a n = List.replicate n 0 := by
  simp [read, List.map_const']

theorem read_congr {m m' : Memory} {a n : Nat} (h : ∀ i, a ≤ i → i < a + n → m i = m' i) :
    read m a n = read m' a n := by
  unfold read
  apply List.map_congr_left
  intro i hi
  have hlt := List.mem_range.mp hi
  exact h (a + i) (by omega) (by omega)

theorem read_write_same {m : Memory} {a : Nat} {bytes : List UInt8} {n : Nat}
    (h : bytes.length = n) : read (write a bytes m) a n = bytes := by
  apply List.ext_getElem
  · rw [length_read, h]
  · intro i hi hi'
    simp only [read, write, List.getElem_map, List.getElem_range]
    rw [if_pos ⟨by omega, by omega⟩, Nat.add_sub_cancel_left, List.getD_eq_getElem _ _ hi']

/-- A region disjoint from what is written reads as before. -/
theorem read_write_of_disjoint {m : Memory} {a b n : Nat} {bytes : List UInt8}
    (h : b + n ≤ a ∨ a + bytes.length ≤ b) : read (write a bytes m) b n = read m b n := by
  apply read_congr
  intro i hb hn
  unfold write
  rw [if_neg (by omega)]

/-- Reading fewer bytes gives a prefix. -/
theorem take_read (m : Memory) (a : Nat) {k n : Nat} (h : k ≤ n) :
    (read m a n).take k = read m a k := by
  unfold read
  rw [← List.map_take, List.take_range, Nat.min_eq_left h]

/-! ## Big-endian numbers -/

def bigEndian : (n v : Nat) → List UInt8
  | 0, _ => []
  | n + 1, v => bigEndian n (v / 256) ++ [UInt8.ofNat v]

def ofBigEndian (bytes : List UInt8) : Nat := bytes.foldl (fun acc b => acc * 256 + b.toNat) 0

@[simp] theorem length_bigEndian (n v : Nat) : (bigEndian n v).length = n := by
  induction n generalizing v with
  | zero => rfl
  | succ n ih => simp [bigEndian, ih]

theorem ofBigEndian_append_singleton (bytes : List UInt8) (b : UInt8) :
    ofBigEndian (bytes ++ [b]) = ofBigEndian bytes * 256 + b.toNat := by
  simp [ofBigEndian, List.foldl_append]

theorem ofBigEndian_lt (bytes : List UInt8) : ofBigEndian bytes < 256 ^ bytes.length := by
  induction bytes using List.reverseRecOn with
  | nil => simp [ofBigEndian]
  | append_singleton bytes b ih =>
    have hByte : b.toNat < 256 := b.toNat_lt
    rw [ofBigEndian_append_singleton, List.length_append, List.length_singleton, Nat.pow_succ]
    omega

theorem ofBigEndian_bigEndian (n v : Nat) : ofBigEndian (bigEndian n v) = v % 256 ^ n := by
  induction n generalizing v with
  | zero => simp [bigEndian, ofBigEndian, Nat.mod_one]
  | succ n ih =>
    have hByte : (UInt8.ofNat v).toNat = v % 256 := UInt8.toNat_ofNat'
    -- the last byte is the rest by 256, those in front the quotient
    have hSplit : v % (256 * 256 ^ n) = v % 256 + 256 * (v / 256 % 256 ^ n) := Nat.mod_mul
    rw [bigEndian, ofBigEndian_append_singleton, ih, hByte, Nat.pow_succ, Nat.mul_comm (256 ^ n),
      hSplit]
    omega

theorem ofBigEndian_bigEndian_of_lt {n v : Nat} (h : v < 256 ^ n) :
    ofBigEndian (bigEndian n v) = v := by
  rw [ofBigEndian_bigEndian, Nat.mod_eq_of_lt h]

/-- The bytes of a number are those of its remainder. -/
theorem bigEndian_congr {n v w : Nat} (h : v % 256 ^ n = w % 256 ^ n) :
    bigEndian n v = bigEndian n w := by
  induction n generalizing v w with
  | zero => rfl
  | succ n ih =>
    rw [Nat.pow_succ, Nat.mul_comm, Nat.mod_mul, Nat.mod_mul] at h
    have hLast : v % 256 = w % 256 := by omega
    have hByte : UInt8.ofNat v = UInt8.ofNat w := by
      rw [← UInt8.toNat_inj, UInt8.toNat_ofNat', UInt8.toNat_ofNat']
      exact hLast
    have hFront : v / 256 % 256 ^ n = w / 256 % 256 ^ n := by omega
    rw [bigEndian, bigEndian, hByte, ih hFront]

/-- Or-ing a shifted number onto a smaller one adds it. -/
theorem or_shiftLeft_eq_add {lo shift : Nat} (hLo : lo < 2 ^ shift) (hi : Nat) :
    lo ||| hi <<< shift = hi * 2 ^ shift + lo := by
  rw [Nat.or_comm, ← Nat.shiftLeft_add_eq_or_of_lt hLo, Nat.shiftLeft_eq]

/-! ## C strings -/

/-- The string a `char` array holds: its bytes before the first NUL. -/
def cString (bytes : List UInt8) : List UInt8 := bytes.takeWhile (· ≠ 0)

/-- What `strncpy` writes: at most `n` characters of the source, padded with
NULs to `n`. -/
def strncpy (source : List UInt8) (n : Nat) : List UInt8 :=
  let copied := (cString source).take n
  copied ++ List.replicate (n - copied.length) 0

@[simp] theorem length_strncpy (source : List UInt8) (n : Nat) : (strncpy source n).length = n := by
  simp only [strncpy, List.length_append, List.length_replicate, List.length_take]
  omega

theorem cString_eq_self {bytes : List UInt8} (h : ∀ b ∈ bytes, b ≠ 0) : cString bytes = bytes :=
  List.takeWhile_eq_self_iff.mpr fun b hb => by simpa using h b hb

theorem ne_zero_of_mem_cString {bytes : List UInt8} {b : UInt8} (h : b ∈ cString bytes) :
    b ≠ 0 := by
  simpa using List.mem_takeWhile_imp h

theorem cString_append_zeros {bytes : List UInt8} (h : ∀ b ∈ bytes, b ≠ 0) (k : Nat) :
    cString (bytes ++ List.replicate k 0) = bytes := by
  unfold cString
  rw [List.takeWhile_append_of_pos fun b hb => by simpa using h b hb]
  cases k with
  | zero => simp
  | succ k => simp [List.replicate_succ]

/-- A copied string reads as the source, cut at the bound of the copy. -/
theorem cString_strncpy (source : List UInt8) (n : Nat) :
    cString (strncpy source n) = (cString source).take n :=
  cString_append_zeros (fun _ hb => ne_zero_of_mem_cString (List.mem_of_mem_take hb)) _

/-- The string is the whole source exactly when nothing cuts it short. -/
theorem cString_strncpy_eq_iff {source : List UInt8} {n : Nat} :
    cString (strncpy source n) = source ↔ source.length ≤ n ∧ ∀ b ∈ source, b ≠ 0 := by
  rw [cString_strncpy]
  constructor
  · intro h
    have hLength := congrArg List.length h
    -- a source that is cut short would be longer than the string
    have hLe : (cString source).length ≤ source.length :=
      (List.takeWhile_prefix _).length_le
    rw [List.length_take] at hLength
    refine ⟨by omega, ?_⟩
    intro b hb
    rw [← h] at hb
    exact ne_zero_of_mem_cString (List.mem_of_mem_take hb)
  · rintro ⟨hLength, hNul⟩
    rw [cString_eq_self hNul, List.take_of_length_le hLength]

/-- A terminated string: what stands behind the terminator does not matter. -/
theorem cString_append_cons_zero {front : List UInt8} (rest : List UInt8) :
    cString (front ++ 0 :: rest) = cString front := by
  induction front with
  | nil => rfl
  | cons b front ih =>
    by_cases hb : b = 0
    · simp [cString, hb]
    · simpa [cString, hb] using ih

/-- So does a string that is copied in front of old bytes and terminated. -/
theorem cString_append_set_zero (front rest : List UInt8) :
    cString ((front ++ rest).set front.length 0) = cString front := by
  cases rest with
  | nil => rw [List.append_nil, List.set_eq_of_length_le le_rfl]
  | cons b rest =>
    rw [List.set_append_right _ _ le_rfl, Nat.sub_self, List.set_cons_zero,
      cString_append_cons_zero]

theorem cString_take (bytes : List UInt8) (k : Nat) :
    cString (bytes.take k) = (cString bytes).take k := by
  induction bytes generalizing k with
  | nil => simp [cString]
  | cons b bytes ih =>
    cases k with
    | zero => rfl
    | succ k =>
      by_cases hb : b = 0
      · simp [cString, hb]
      · simpa [cString, hb] using ih k

theorem read_append (m : Memory) (a k n : Nat) :
    read m a (k + n) = read m a k ++ read m (a + k) n := by
  simp [read, List.range_add, List.map_append, Function.comp_def, Nat.add_assoc]

/-- A field that holds a copied string, and a NUL behind it, reads as that
string however many bytes more the reader takes. -/
theorem cString_read_of_strncpy {m : Memory} {a k n : Nat} {source : List UInt8}
    (hField : read m a k = strncpy source k) (hNul : read m (a + k) 1 = [0]) (hn : k < n) :
    cString (read m a n) = (cString source).take k := by
  obtain ⟨j, rfl⟩ := Nat.exists_eq_add_of_lt hn
  -- the NUL behind the field ends the string
  have hSplit : read m a (k + j + 1) = read m a k ++ 0 :: read m (a + k + 1) j := by
    rw [Nat.add_assoc, read_append, Nat.add_comm j 1, read_append m (a + k), hNul]
    rfl
  rw [hSplit, cString_append_cons_zero, hField, cString_strncpy]

/-- The terminator a reader puts into the last byte of its copy does not matter
to a string that ends before. -/
theorem cString_set_zero {bytes : List UInt8} {i : Nat} (h : (cString bytes).length ≤ i) :
    cString (bytes.set i 0) = cString bytes := by
  induction bytes generalizing i with
  | nil => rfl
  | cons b bytes ih =>
    by_cases hb : b = 0
    · cases i <;> simp [cString, hb]
    · cases i with
      | zero => simp [cString, hb] at h
      | succ i =>
        -- the string goes on with the bytes behind
        have hTail : (cString bytes).length ≤ i := by simpa [cString, hb] using h
        simpa [cString, hb] using ih hTail

/-! ## Series of writes -/

/-- Writes of `(address, bytes)`, the first first. -/
def writeAll (writes : List (Nat × List UInt8)) (m : Memory) : Memory :=
  writes.foldl (fun m w => write w.1 w.2 m) m

/-- Each write ends before the next ones start. -/
def InSeries (writes : List (Nat × List UInt8)) : Prop :=
  writes.Pairwise fun v w => v.1 + v.2.length ≤ w.1

/-- A region no write reaches reads as before. -/
theorem read_writeAll_of_disjoint {writes : List (Nat × List UInt8)} {b n : Nat}
    (h : ∀ w ∈ writes, b + n ≤ w.1 ∨ w.1 + w.2.length ≤ b) (m : Memory) :
    read (writeAll writes m) b n = read m b n := by
  induction writes generalizing m with
  | nil => rfl
  | cons w writes ih =>
    have hRest := ih (fun v hv => h v (List.mem_cons_of_mem w hv)) (write w.1 w.2 m)
    exact hRest.trans (read_write_of_disjoint (h w List.mem_cons_self))

theorem writeAll_append (v w : List (Nat × List UInt8)) (m : Memory) :
    writeAll (v ++ w) m = writeAll w (writeAll v m) := List.foldl_append

theorem writeAll_congr {m m' : Memory} {i : Nat} (h : m i = m' i)
    (writes : List (Nat × List UInt8)) : writeAll writes m i = writeAll writes m' i := by
  induction writes generalizing m m' with
  | nil => exact h
  | cons w writes ih =>
    show writeAll writes (write w.1 w.2 m) i = writeAll writes (write w.1 w.2 m') i
    refine ih ?_
    unfold write
    rw [h]

/-- Where something is written, it does not matter what was there. -/
theorem writeAll_congr_of_mem {writes : List (Nat × List UInt8)} {w : Nat × List UInt8}
    (hMem : w ∈ writes) {i : Nat} (hLow : w.1 ≤ i) (hHigh : i < w.1 + w.2.length)
    (m m' : Memory) : writeAll writes m i = writeAll writes m' i := by
  obtain ⟨before, after, rfl⟩ := List.append_of_mem hMem
  rw [writeAll_append, writeAll_append]
  have hInside : w.1 ≤ i ∧ i < w.1 + w.2.length := ⟨hLow, hHigh⟩
  -- the last write to the address decides
  have hHere : ∀ m, write w.1 w.2 m i = w.2.getD (i - w.1) 0 := fun _ => if_pos hInside
  exact writeAll_congr ((hHere _).trans (hHere _).symm) after

/-- A byte is an old one, or comes from one of the writes. -/
theorem writeAll_apply (writes : List (Nat × List UInt8)) (m : Memory) (a : Nat) :
    writeAll writes m a = m a ∨
      ∃ w ∈ writes, ∃ i, a = w.1 + i ∧ w.2[i]? = some (writeAll writes m a) := by
  induction writes generalizing m with
  | nil => exact .inl rfl
  | cons v writes ih =>
    have hSplit : writeAll (v :: writes) m = writeAll writes (write v.1 v.2 m) := rfl
    rw [hSplit]
    -- the later writes decide, or the first one, or none
    rcases ih (write v.1 v.2 m) with hOld | ⟨w, hW, i, hAt, hByte⟩
    · rw [hOld]
      by_cases hInside : v.1 ≤ a ∧ a < v.1 + v.2.length
      · refine .inr ⟨v, List.mem_cons_self, a - v.1, by omega, ?_⟩
        rw [write, if_pos hInside, List.getD_eq_getElem _ _ (by omega),
          List.getElem?_eq_getElem (by omega)]
      · exact .inl (write_of_outside hInside)
    · exact .inr ⟨w, List.mem_cons_of_mem v hW, i, hAt, hByte⟩

/-- What no later write reaches is read back. -/
theorem read_writeAll_of_later {before after : List (Nat × List UInt8)} {w : Nat × List UInt8}
    (h : ∀ v ∈ after, w.1 + w.2.length ≤ v.1 ∨ v.1 + v.2.length ≤ w.1) (m : Memory) :
    read (writeAll (before ++ w :: after) m) w.1 w.2.length = w.2 := by
  rw [writeAll_append]
  have hKept := read_writeAll_of_disjoint h (write w.1 w.2 (writeAll before m))
  exact hKept.trans (read_write_same rfl)

/-- Of writes in series, each is read back. -/
theorem read_writeAll {writes : List (Nat × List UInt8)} (hSeries : InSeries writes)
    {w : Nat × List UInt8} (hMem : w ∈ writes) (m : Memory) :
    read (writeAll writes m) w.1 w.2.length = w.2 := by
  obtain ⟨before, after, rfl⟩ := List.append_of_mem hMem
  -- the later writes lie behind it
  have hLater := (List.pairwise_cons.mp (List.pairwise_append.mp hSeries).2.1).1
  exact read_writeAll_of_later (fun v hv => Or.inl (hLater v hv)) m

/-- A part of a region. -/
theorem read_part {m : Memory} {a n k j : Nat} {bytes : List UInt8} (h : read m a n = bytes)
    (hPart : k + j ≤ n) : read m (a + k) j = (bytes.drop k).take j := by
  obtain ⟨rest, rfl⟩ := Nat.exists_eq_add_of_le hPart
  rw [← h, Nat.add_assoc, read_append, List.drop_left' (length_read m a k), read_append,
    List.take_left' (length_read m (a + k) j)]

end ByteStore
