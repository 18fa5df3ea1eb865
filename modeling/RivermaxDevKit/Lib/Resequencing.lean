import Mathlib.Logic.Function.Basic
import Mathlib.Logic.Relation
import Mathlib.Order.Lattice
import Mathlib.Tactic.Common

/-!
# Resequencing

Numbered items come in out of order, and some of them more than once. A
resequencer lets them go again from number 0 on; it lets an item go when a hold
time has passed since it first came in.

* `SkewWithin` — how far apart the items may come in.
* `Sound.next_le` — nothing comes in that was let go already.
* `Sound.next_seen` — when any item is due, the next one is there.
* `Run` — the resequencer turn by turn; `Run.sound` and `Run.complete` are kept
  by every turn.
-/

namespace Resequencing

variable {T : Type*}

/-- What comes in, turn by turn and oldest first: the time, and the numbers. -/
abbrev Schedule (T : Type*) := List (T × List Nat)

section Skew

variable [LE T] [LT T] [Add T]

/-- The clock does not go back. No item comes in more than `d` after itself or a
later number, and when more than `d` has passed since an item came in, so have
all numbers before it. -/
structure SkewWithin (d : T) (schedule : Schedule T) : Prop where
  clock : schedule.Pairwise fun a b => a.1 ≤ b.1
  noLater : ∀ late ∈ schedule, ∀ k ∈ late.2, ∀ early ∈ schedule, ∀ j ∈ early.2, k ≤ j →
    late.1 ≤ early.1 + d
  complete : ∀ i, ∀ h : i < schedule.length, ∀ early ∈ schedule.take (i + 1),
    early.1 + d < schedule[i].1 → ∀ j ∈ early.2, ∀ k < j,
      ∃ other ∈ schedule.take (i + 1), k ∈ other.2

theorem SkewWithin.of_append {d : T} {past rest : Schedule T}
    (h : SkewWithin d (past ++ rest)) : SkewWithin d past where
  clock := (List.pairwise_append.mp h.clock).1
  noLater := fun late hLate k hk early hEarly =>
    h.noLater late (List.mem_append_left rest hLate) k hk early (List.mem_append_left rest hEarly)
  complete := by
    intro i hi
    have hBoth := h.complete i (by rw [List.length_append]; omega)
    -- the first turns are those of the part
    rwa [List.take_append_of_le_length (by omega), List.getElem_append_left hi] at hBoth

/-- What `complete` says at the last turn. -/
theorem SkewWithin.complete_last {d : T} {past : Schedule T} {turn : T × List Nat}
    (h : SkewWithin d (past ++ [turn])) {early : T × List Nat} (hEarly : early ∈ past ++ [turn])
    (hDue : early.1 + d < turn.1) {j k : Nat} (hj : j ∈ early.2) (hk : k < j) :
    ∃ other ∈ past ++ [turn], k ∈ other.2 := by
  have hLast := h.complete past.length (by simp)
  rw [List.take_of_length_le (by simp), List.getElem_concat_length rfl] at hLast
  exact hLast early hEarly hDue j hj k hk

end Skew

/-! ## The resequencer -/

/-- The number that is to go next, and when each number first came in. -/
structure Resequencer (T : Type*) where
  next : Nat := 0
  firstSeen : Nat → Option T := fun _ => none

namespace Resequencer

/-- A copy of item `k` comes in. -/
def arrive (r : Resequencer T) (now : T) (k : Nat) : Resequencer T :=
  { r with firstSeen := Function.update r.firstSeen k (some ((r.firstSeen k).getD now)) }

def arriveAll (r : Resequencer T) (now : T) (items : List Nat) : Resequencer T :=
  items.foldl (fun r k => r.arrive now k) r

/-- The next item goes: it came in more than `d` ago. -/
inductive Release [LT T] [Add T] (d now : T) (r : Resequencer T) : Resequencer T → Prop
  | next {t : T} (hSeen : r.firstSeen r.next = some t) (hDue : t + d < now) :
      Release d now r { r with next := r.next + 1 }

abbrev Releases [LT T] [Add T] (d now : T) : Resequencer T → Resequencer T → Prop :=
  Relation.ReflTransGen (Release d now)

@[simp] theorem next_arriveAll (r : Resequencer T) (now : T) (items : List Nat) :
    (r.arriveAll now items).next = r.next := by
  induction items generalizing r with
  | nil => rfl
  | cons k items ih => exact ih (r.arrive now k)

theorem firstSeen_arrive_self (r : Resequencer T) (now : T) (k : Nat) :
    (r.arrive now k).firstSeen k = some ((r.firstSeen k).getD now) :=
  Function.update_self ..

theorem firstSeen_arrive_of_ne (r : Resequencer T) (now : T) {j k : Nat} (h : j ≠ k) :
    (r.arrive now k).firstSeen j = r.firstSeen j :=
  Function.update_of_ne h ..

/-- A copy of what is there already changes nothing. -/
theorem arrive_of_seen {r : Resequencer T} {t : T} {k : Nat} (h : r.firstSeen k = some t)
    (now : T) : r.arrive now k = r := by
  unfold arrive
  rw [h, Option.getD_some, ← h, Function.update_eq_self]

theorem isSome_arrive {r : Resequencer T} {j : Nat} (h : (r.firstSeen j).isSome) (now : T)
    (k : Nat) : ((r.arrive now k).firstSeen j).isSome := by
  by_cases hSame : j = k
  · rw [hSame, firstSeen_arrive_self]
    rfl
  · rwa [firstSeen_arrive_of_ne r now hSame]

theorem isSome_arriveAll {r : Resequencer T} {j : Nat} (now : T) (items : List Nat)
    (h : (r.firstSeen j).isSome ∨ j ∈ items) : ((r.arriveAll now items).firstSeen j).isSome := by
  induction items generalizing r with
  | nil => exact h.resolve_right List.not_mem_nil
  | cons k items ih =>
    refine ih ?_
    rcases h with hSeen | hMem
    · exact .inl (isSome_arrive hSeen now k)
    · rcases List.mem_cons.mp hMem with rfl | hRest
      · exact .inl (by rw [firstSeen_arrive_self]; rfl)
      · exact .inr hRest

theorem firstSeen_of_releases [LT T] [Add T] {d now : T} {r r' : Resequencer T}
    (h : Releases d now r r') : r'.firstSeen = r.firstSeen ∧ r.next ≤ r'.next := by
  induction h with
  | refl => exact ⟨rfl, Nat.le_refl _⟩
  | tail _ hLast ih =>
    cases hLast
    exact ⟨ih.1, Nat.le_succ_of_le ih.2⟩

end Resequencer

/-! ## Runs -/

open Resequencer

/-- Whatever came in, the resequencer knows. -/
def Complete (schedule : Schedule T) (r : Resequencer T) : Prop :=
  ∀ turn ∈ schedule, ∀ k ∈ turn.2, (r.firstSeen k).isSome

theorem Complete.turn {past : Schedule T} {r : Resequencer T} (h : Complete past r) (now : T)
    (items : List Nat) :
    Complete (past ++ [(now, items)]) (r.arriveAll now items) := by
  intro turn hTurn k hk
  refine isSome_arriveAll now items ?_
  rcases List.mem_append.mp hTurn with hPast | hNow
  · exact .inl (h turn hPast k hk)
  · rw [List.mem_singleton.mp hNow] at hk
    exact .inr hk

section Sound

variable [LinearOrder T] [Add T] {d : T} {schedule : Schedule T} {r : Resequencer T}

/-- What the resequencer knows came in, and what it let go was due. -/
structure Sound (d : T) (schedule : Schedule T) (r : Resequencer T) : Prop where
  seen : ∀ k t, r.firstSeen k = some t → ∃ turn ∈ schedule, turn.1 = t ∧ k ∈ turn.2
  due : ∀ k < r.next, ∃ t, r.firstSeen k = some t ∧ ∃ turn ∈ schedule, t + d < turn.1

theorem Sound.mono (h : Sound d schedule r) (turn : T × List Nat) :
    Sound d (schedule ++ [turn]) r where
  seen := by
    intro k t hSeen
    obtain ⟨old, hOld, hAt⟩ := h.seen k t hSeen
    exact ⟨old, List.mem_append_left _ hOld, hAt⟩
  due := by
    intro k hk
    obtain ⟨t, hSeen, old, hOld, hDue⟩ := h.due k hk
    exact ⟨t, hSeen, old, List.mem_append_left _ hOld, hDue⟩

theorem Sound.arrive {turn : T × List Nat} {k : Nat} (h : Sound d schedule r)
    (hTurn : turn ∈ schedule) (hk : k ∈ turn.2) : Sound d schedule (r.arrive turn.1 k) where
  seen := by
    intro j t hSeen
    by_cases hSame : j = k
    · subst hSame
      rw [firstSeen_arrive_self] at hSeen
      -- the first copy, or one more of them
      cases hOld : r.firstSeen j with
      | none =>
        rw [hOld, Option.getD_none] at hSeen
        exact ⟨turn, hTurn, Option.some.inj hSeen, hk⟩
      | some u =>
        rw [hOld, Option.getD_some] at hSeen
        exact h.seen j t (hOld.trans hSeen)
    · rw [firstSeen_arrive_of_ne r _ hSame] at hSeen
      exact h.seen j t hSeen
  due := by
    intro j hj
    obtain ⟨t, hSeen, hDue⟩ := h.due j hj
    by_cases hSame : j = k
    · subst hSame
      exact ⟨t, by rw [firstSeen_arrive_self, hSeen]; rfl, hDue⟩
    · exact ⟨t, by rwa [firstSeen_arrive_of_ne r _ hSame], hDue⟩

theorem Sound.arriveAll {turn : T × List Nat} (hTurn : turn ∈ schedule) (items : List Nat)
    (hItems : ∀ k ∈ items, k ∈ turn.2) (h : Sound d schedule r) :
    Sound d schedule (r.arriveAll turn.1 items) := by
  induction items generalizing r with
  | nil => exact h
  | cons k items ih =>
    exact ih (fun j hj => hItems j (List.mem_cons_of_mem k hj))
      (h.arrive hTurn (hItems k List.mem_cons_self))

theorem Sound.releases {turn : T × List Nat} (hTurn : turn ∈ schedule) {r' : Resequencer T}
    (h : Sound d schedule r) (hReleases : Releases d turn.1 r r') : Sound d schedule r' := by
  induction hReleases with
  | refl => exact h
  | tail _ hLast ih =>
    cases hLast with
    | @next t hSeen hDue =>
      refine ⟨ih.seen, fun k hk => ?_⟩
      -- an item that was let go before, or the one that goes now
      rcases Nat.lt_succ_iff_lt_or_eq.mp hk with hOld | rfl
      · exact ih.due k hOld
      · exact ⟨t, hSeen, turn, hTurn, hDue⟩

/-- **Nothing comes back.** What comes in has not been let go. -/
theorem Sound.next_le {past : Schedule T} {turn : T × List Nat}
    (hSkew : SkewWithin d (past ++ [turn])) (h : Sound d (past ++ [turn]) r) {k : Nat}
    (hk : k ∈ turn.2) : r.next ≤ k := by
  by_contra hGone
  obtain ⟨t, hSeen, out, hOut, hDue⟩ := h.due k (Nat.lt_of_not_le hGone)
  obtain ⟨early, hEarly, rfl, hCopy⟩ := h.seen k t hSeen
  -- its copy comes in no later than the hold time allows
  have hLate := hSkew.noLater turn (by simp) k hk early hEarly k hCopy (Nat.le_refl k)
  have hClock : out.1 ≤ turn.1 := by
    rcases List.mem_append.mp hOut with hPast | hNow
    · exact (List.pairwise_append.mp hSkew.clock).2.2 out hPast turn List.mem_cons_self
    · exact (congrArg Prod.fst (List.mem_singleton.mp hNow)).le
  exact absurd (lt_of_lt_of_le hDue hClock) (not_lt.mpr hLate)

/-- **Nothing is missing.** When an item is due, the next one has come in. -/
theorem Sound.next_seen {past : Schedule T} {turn : T × List Nat}
    (hSkew : SkewWithin d (past ++ [turn])) (h : Sound d (past ++ [turn]) r)
    (hComplete : Complete (past ++ [turn]) r) {j : Nat} {u : T} (hSeen : r.firstSeen j = some u)
    (hDue : u + d < turn.1) (hj : r.next ≤ j) : ∃ t, r.firstSeen r.next = some t := by
  rcases Nat.eq_or_lt_of_le hj with hNext | hLater
  · exact ⟨u, hNext ▸ hSeen⟩
  · obtain ⟨early, hEarly, rfl, hCopy⟩ := h.seen j u hSeen
    obtain ⟨other, hOther, hk⟩ := hSkew.complete_last hEarly hDue hCopy hLater
    exact Option.isSome_iff_exists.mp (hComplete other hOther r.next hk)

/-- The resequencer turn by turn: what comes in, and what it lets go then. -/
inductive Run (d : T) : Schedule T → Resequencer T → Prop
  | start : Run d [] {}
  | turn {past : Schedule T} {r r' : Resequencer T} (now : T) (items : List Nat)
      (hPast : Run d past r) (hReleases : Releases d now (r.arriveAll now items) r') :
      Run d (past ++ [(now, items)]) r'

theorem Run.sound (h : Run d schedule r) : Sound d schedule r := by
  induction h with
  | start => exact ⟨nofun, nofun⟩
  | @turn past r r' now items _ hReleases ih =>
    have hTurn := List.mem_append_right past (List.mem_singleton_self (now, items))
    exact ((ih.mono (now, items)).arriveAll hTurn items fun _ hk => hk).releases hTurn hReleases

theorem Run.complete (h : Run d schedule r) : Complete schedule r := by
  induction h with
  | start => exact nofun
  | turn now items _ hReleases ih =>
    intro turn hTurn k hk
    rw [(firstSeen_of_releases hReleases).1]
    exact ih.turn now items turn hTurn k hk

end Sound

end Resequencing
