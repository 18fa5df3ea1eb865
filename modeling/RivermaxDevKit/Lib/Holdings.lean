import Mathlib.Data.Finset.Basic
import Mathlib.Tactic.Common

/-!
# Holdings

What a component holds of somebody else, by the events of acquiring and
releasing, and when these events make sense: nothing is acquired that is held,
and nothing released that is not.
-/

namespace Holdings

/-- An acquisition or a release that took place. -/
inductive Event (α : Type*)
  | acquire (a : α)
  | release (a : α)
  deriving Repr

variable {α : Type*} [DecidableEq α]

namespace Event

def apply : Event α → Finset α → Finset α
  | acquire a, held => insert a held
  | release a, held => held.erase a

/-- The event makes sense. -/
def Allowed : Event α → Finset α → Prop
  | acquire a, held => a ∉ held
  | release a, held => a ∈ held

instance (event : Event α) (held : Finset α) : Decidable (event.Allowed held) :=
  match event with
  | acquire a => inferInstanceAs (Decidable (a ∉ held))
  | release a => inferInstanceAs (Decidable (a ∈ held))

end Event

/-- What is held behind the events. -/
def after (held : Finset α) : List (Event α) → Finset α
  | [] => held
  | event :: events => after (event.apply held) events

/-- Every event of the list makes sense where it stands. -/
def Allowed (held : Finset α) : List (Event α) → Prop
  | [] => True
  | event :: events => event.Allowed held ∧ Allowed (event.apply held) events

section Series

variable (held : Finset α)

@[simp]
theorem after_nil : after held [] = held := rfl

/-! ## One by one -/

theorem mem_after_acquire (items : List α) {a : α} :
    a ∈ after held (items.map .acquire) ↔ a ∈ held ∨ a ∈ items := by
  induction items generalizing held with
  | nil => simp
  | cons item items ih =>
    refine (ih (insert item held)).trans ?_
    rw [Finset.mem_insert, List.mem_cons]
    tauto

theorem mem_after_release (items : List α) {a : α} :
    a ∈ after held (items.map .release) ↔ a ∈ held ∧ a ∉ items := by
  induction items generalizing held with
  | nil => simp
  | cons item items ih =>
    refine (ih (held.erase item)).trans ?_
    rw [Finset.mem_erase, List.mem_cons]
    tauto

/-- Items are acquired one by one if they are different and free. -/
theorem allowed_acquire {items : List α} (hNodup : items.Nodup)
    (hFree : ∀ item ∈ items, item ∉ held) : Allowed held (items.map .acquire) := by
  induction items generalizing held with
  | nil => trivial
  | cons item items ih =>
    obtain ⟨hItem, hItems⟩ := List.nodup_cons.mp hNodup
    refine ⟨hFree item List.mem_cons_self, ih (insert item held) hItems fun other hOther => ?_⟩
    -- the others stay free, since they are different from this one
    rw [Finset.mem_insert, not_or]
    refine ⟨?_, hFree other (List.mem_cons_of_mem item hOther)⟩
    rintro rfl
    exact hItem hOther

/-- Items are released one by one if they are different and held. -/
theorem allowed_release {items : List α} (hNodup : items.Nodup)
    (hHeld : ∀ item ∈ items, item ∈ held) : Allowed held (items.map .release) := by
  induction items generalizing held with
  | nil => trivial
  | cons item items ih =>
    obtain ⟨hItem, hItems⟩ := List.nodup_cons.mp hNodup
    refine ⟨hHeld item List.mem_cons_self, ih (held.erase item) hItems fun other hOther => ?_⟩
    -- the others stay held, since they are different from this one
    rw [Finset.mem_erase]
    refine ⟨?_, hHeld other (List.mem_cons_of_mem item hOther)⟩
    rintro rfl
    exact hItem hOther

end Series

end Holdings
