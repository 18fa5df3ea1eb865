import Mathlib.Data.List.Perm.Basic
import Mathlib.Tactic.Common

/-!
# Observations

A `view` of a state keeps what later steps depend on and forgets the rest.
An operation *respects* the view when its view is determined by the view of
the state it starts from. Runs of such operations agree as soon as their
starting views do, and a run may be reordered when its steps commute up to the
view.

* `Respects.foldl` — folds of operations that respect a view respect it.
* `foldl_perm` — a fold is independent of the order of its list when any two
  steps commute up to the view, in every state of an invariant.
-/

namespace Observation

variable {σ τ α : Type*}

/-- What `view` sees of `f s` depends only on what it sees of `s`. -/
def Respects (view : σ → τ) (f : σ → σ) : Prop :=
  ∀ {s s' : σ}, view s = view s' → view (f s) = view (f s')

theorem Respects.foldl {view : σ → τ} {f : σ → α → σ}
    (h : ∀ a, Respects view fun s => f s a) (l : List α) :
    Respects view fun s => l.foldl f s := by
  induction l with
  | nil => exact fun hView => hView
  | cons a rest ih => exact fun hView => ih (h a hView)

/-- **Reordering.** Steps that commute up to the view, in every state the
invariant holds of, may be taken in any order. -/
theorem foldl_perm {view : σ → τ} {f : σ → α → σ} (inv : σ → Prop) {l l' : List α}
    (hResp : ∀ a, Respects view fun s => f s a)
    (hInv : ∀ s a, inv s → inv (f s a))
    (hComm : ∀ a ∈ l, ∀ b ∈ l, ∀ s, inv s → view (f (f s a) b) = view (f (f s b) a))
    (hPerm : l.Perm l') {s : σ} (hs : inv s) :
    view (l.foldl f s) = view (l'.foldl f s) := by
  induction hPerm generalizing s with
  | nil => rfl
  | cons a _ ih =>
    apply ih _ (hInv s a hs)
    intro x hx y hy
    exact hComm x (List.mem_cons_of_mem a hx) y (List.mem_cons_of_mem a hy)
  | swap a b rest =>
    exact Respects.foldl hResp rest (hComm b (by simp) a (by simp) s hs)
  | trans hFirst _ ih₁ ih₂ =>
    rw [ih₁ hComm hs]
    apply ih₂ _ hs
    intro x hx y hy
    exact hComm x (hFirst.mem_iff.mpr hx) y (hFirst.mem_iff.mpr hy)

end Observation
