import Mathlib.Data.List.Rotate
import Mathlib.Tactic.Common

/-!
# Playing a list

A list that is played item by item, once or over and over: which item comes as
number `n`, and what is still to come behind `n` items.

* `head?_rest` — the next item is the first of those to come.
* `rest_succ` — it goes away when it is played, or to the end in a loop.
-/

namespace Playback

variable {α : Type*}

/-- The position that is played as number `n` of a list of `length` items. -/
def position (loop : Bool) (length n : Nat) : Nat := if loop then n % length else n

/-- Item number `n`, if there is one. -/
def item (loop : Bool) (items : List α) (n : Nat) : Option α :=
  items[position loop items.length n]?

/-- What is to come behind `n` items. -/
def rest (loop : Bool) (items : List α) (n : Nat) : List α :=
  if loop then items.rotate n else items.drop n

@[simp]
theorem rest_zero (loop : Bool) (items : List α) : rest loop items 0 = items := by
  cases loop <;> simp [rest]

theorem item_map {β : Type*} (f : α → β) (loop : Bool) (items : List α) (n : Nat) :
    item loop (items.map f) n = (item loop items n).map f := by
  simp [item]

theorem head?_rest (loop : Bool) (items : List α) (n : Nat) :
    (rest loop items n).head? = item loop items n := by
  cases loop with
  | false => exact List.head?_drop
  | true =>
    rcases items.eq_nil_or_concat with rfl | ⟨front, last, rfl⟩
    · simp [rest, item]
    · -- a turn of the whole list changes nothing
      have hLt : n % (front.concat last).length < (front.concat last).length :=
        Nat.mod_lt _ (by simp)
      show ((front.concat last).rotate n).head? = _
      rw [← List.rotate_mod, List.head?_rotate hLt]
      rfl

/-- The item that is played leaves, and comes back at the end of a loop. -/
theorem rest_succ {loop : Bool} {items later : List α} {n : Nat} {a : α}
    (h : rest loop items n = a :: later) :
    rest loop items (n + 1) = if loop then later ++ [a] else later := by
  cases loop with
  | false =>
    have hDrop : items.drop n = a :: later := h
    show items.drop (n + 1) = later
    rw [← List.drop_drop, hDrop]
    rfl
  | true =>
    have hRotate : items.rotate n = a :: later := h
    show items.rotate (n + 1) = later ++ [a]
    rw [← List.rotate_rotate, hRotate]
    simp

theorem rest_of_eq_nil {loop : Bool} {items : List α} {n : Nat} (h : rest loop items n = []) :
    rest loop items (n + 1) = [] := by
  cases loop with
  | false =>
    have hDrop : items.drop n = [] := h
    show items.drop (n + 1) = []
    rw [← List.drop_drop, hDrop]
    rfl
  | true =>
    have hNil : items = [] := List.rotate_eq_nil_iff.mp h
    exact List.rotate_eq_nil_iff.mpr hNil

end Playback
