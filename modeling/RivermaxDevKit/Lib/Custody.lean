import Mathlib.Data.List.Nodup
import Mathlib.Data.List.Perm.Basic
import Mathlib.Data.List.Range
import Mathlib.Tactic.Common

/-!
# Custody

Items `0, …, n - 1`, each of which waits in a queue or is out, and never both.

* `InCustody.take`, `InCustody.put` — an item goes out, and comes back.
* `InCustody.count_add_count` — every item is in one of the two places, once.
* `InCustody.eq_nil_iff` — the queue is empty when all items are out.
-/

/-- The `n` items are queued or out. -/
structure InCustody (n : Nat) (queue out : List Nat) : Prop where
  perm : (queue ++ out).Perm (List.range n)

namespace InCustody

variable {n : Nat} {queue out : List Nat}

/-- At first all items wait. -/
theorem range (n : Nat) : InCustody n (List.range n) [] where
  perm := by rw [List.append_nil]

theorem out_perm (h : InCustody n queue out) {out' : List Nat} (hOut : out.Perm out') :
    InCustody n queue out' where
  perm := ((hOut.append_left queue).symm).trans h.perm

/-- The first item of the queue goes out. -/
theorem take {item : Nat} {rest : List Nat} (h : InCustody n (item :: rest) out) :
    InCustody n rest (out ++ [item]) where
  perm := by
    refine List.Perm.trans ?_ h.perm
    rw [← List.append_assoc]
    exact List.perm_append_singleton item (rest ++ out)

/-- An item that is out comes back to the end of the queue. -/
theorem put {item : Nat} (h : InCustody n queue (item :: out)) :
    InCustody n (queue ++ [item]) out where
  perm := by
    refine List.Perm.trans ?_ h.perm
    rw [List.append_assoc]
    rfl

theorem put_eraseIdx {item k : Nat} (h : InCustody n queue out) (hItem : out[k]? = some item) :
    InCustody n (queue ++ [item]) (out.eraseIdx k) := by
  obtain ⟨hk, rfl⟩ := List.getElem?_eq_some_iff.mp hItem
  exact (h.out_perm (List.getElem_cons_eraseIdx_perm hk).symm).put

theorem count_add_count (h : InCustody n queue out) {item : Nat} (hItem : item < n) :
    queue.count item + out.count item = 1 := by
  rw [← List.count_append, h.perm.count_eq]
  exact List.count_eq_one_of_mem List.nodup_range (List.mem_range.mpr hItem)

theorem lt (h : InCustody n queue out) {item : Nat} (hMem : item ∈ queue ∨ item ∈ out) :
    item < n :=
  List.mem_range.mp (h.perm.mem_iff.mp (List.mem_append.mpr hMem))

theorem nodup (h : InCustody n queue out) : (queue ++ out).Nodup :=
  h.perm.nodup_iff.mpr List.nodup_range

theorem length_add_length (h : InCustody n queue out) : queue.length + out.length = n := by
  rw [← List.length_append, h.perm.length_eq, List.length_range]

theorem eq_nil_iff (h : InCustody n queue out) : queue = [] ↔ out.length = n := by
  have hLength := h.length_add_length
  rw [← List.length_eq_zero_iff]
  omega

end InCustody
