import Mathlib.Data.List.Basic
import Mathlib.Order.Basic
import Mathlib.Tactic.Common

/-!
# Stop and wait

A client opens one round after the other. Somebody answers rounds that were
opened, as often and as late as he likes; the client takes at most one answer to
a round, before it opens the next one.

* `Session.Orderly` — answers come after their rounds, the answers taken lie
  within their rounds, and no round is taken twice.
* `Moves.orderly` — every session from the start is orderly.
-/

namespace StopAndWait

/-- An answer that was taken: its round, when it was given, and when the client
took it. -/
structure Taken (T : Type*) where
  round : Nat
  answeredAt : T
  takenAt : T

/-- What has happened so far. `opened` holds when the rounds were opened. -/
structure Session (T : Type*) where
  clock : T
  opened : List T
  answers : List (Nat × T)
  taken : List (Taken T)

variable {T : Type*}

namespace Session

def start (t : T) : Session T := ⟨t, [], [], []⟩

def openRound (s : Session T) (t : T) : Session T :=
  { s with clock := t, opened := s.opened ++ [t] }

def answer (s : Session T) (k : Nat) (t : T) : Session T :=
  { s with clock := t, answers := s.answers ++ [(k, t)] }

def take (s : Session T) (a : Taken T) : Session T :=
  { s with clock := a.takenAt, taken := s.taken ++ [a] }

def wait (s : Session T) (t : T) : Session T := { s with clock := t }

end Session

section Moves

variable [LE T]

/-- One thing that happens. -/
inductive Move : Session T → Session T → Prop
  | wait {s : Session T} {t : T} (hClock : s.clock ≤ t) : Move s (s.wait t)
  | openRound {s : Session T} {t : T} (hClock : s.clock ≤ t) : Move s (s.openRound t)
  | answer {s : Session T} {k : Nat} {t : T} (hClock : s.clock ≤ t)
      (hOpened : k < s.opened.length) : Move s (s.answer k t)
  | take {s : Session T} {a : Taken T} (hClock : s.clock ≤ a.takenAt)
      (hAnswer : (a.round, a.answeredAt) ∈ s.answers) (hLast : a.round + 1 = s.opened.length)
      (hFresh : ∀ b ∈ s.taken, b.round ≠ a.round) : Move s (s.take a)

/-- Any number of moves. -/
inductive Moves (s₀ : Session T) : Session T → Prop
  | refl : Moves s₀ s₀
  | tail {s s' : Session T} (h : Moves s₀ s) (hMove : Move s s') : Moves s₀ s'

theorem Moves.single {s s' : Session T} (h : Move s s') : Moves s s' := .tail .refl h

theorem Moves.trans {s₁ s₂ s₃ : Session T} (h₁ : Moves s₁ s₂) (h₂ : Moves s₂ s₃) :
    Moves s₁ s₃ := by
  induction h₂ with
  | refl => exact h₁
  | tail _ hMove ih => exact .tail ih hMove

/-- An answer that was taken lies between the opening of its round and the
opening of the next. -/
structure WithinRound (s : Session T) (a : Taken T) : Prop where
  answered : (a.round, a.answeredAt) ∈ s.answers
  inTime : a.answeredAt ≤ a.takenAt
  past : a.takenAt ≤ s.clock
  beforeNext : ∀ next, s.opened[a.round + 1]? = some next → a.takenAt ≤ next

/-- The history makes sense. -/
structure Session.Orderly (s : Session T) : Prop where
  openedPast : ∀ t ∈ s.opened, t ≤ s.clock
  answers : ∀ k t, (k, t) ∈ s.answers → ∃ t₀, s.opened[k]? = some t₀ ∧ t₀ ≤ t ∧ t ≤ s.clock
  taken : ∀ a ∈ s.taken, WithinRound s a
  ascending : s.taken.Pairwise fun a b => a.round < b.round

end Moves

variable [Preorder T]

theorem Session.orderly_start (t : T) : (Session.start t).Orderly where
  openedPast := nofun
  answers := nofun
  taken := nofun
  ascending := .nil

namespace Session.Orderly

variable {s : Session T}

theorem round_lt (h : s.Orderly) {a : Taken T} (ha : a ∈ s.taken) : a.round < s.opened.length := by
  obtain ⟨t₀, hAt, -⟩ := h.answers _ _ (h.taken a ha).answered
  exact (List.getElem?_eq_some_iff.mp hAt).1

theorem wait (h : s.Orderly) {t : T} (hClock : s.clock ≤ t) : (s.wait t).Orderly where
  openedPast := fun t₀ hMem => (h.openedPast t₀ hMem).trans hClock
  answers := fun k t' hMem => by
    obtain ⟨t₀, hAt, hLe, hPast⟩ := h.answers k t' hMem
    exact ⟨t₀, hAt, hLe, hPast.trans hClock⟩
  taken := fun a ha => by
    have hWithin := h.taken a ha
    exact ⟨hWithin.answered, hWithin.inTime, hWithin.past.trans hClock, hWithin.beforeNext⟩
  ascending := h.ascending

theorem openRound (h : s.Orderly) {t : T} (hClock : s.clock ≤ t) : (s.openRound t).Orderly where
  openedPast := fun t₀ hMem => by
    rcases List.mem_append.mp hMem with hBefore | hNew
    · exact (h.openedPast t₀ hBefore).trans hClock
    · exact (List.mem_singleton.mp hNew).le
  answers := fun k t' hMem => by
    obtain ⟨t₀, hAt, hLe, hPast⟩ := h.answers k t' hMem
    refine ⟨t₀, ?_, hLe, hPast.trans hClock⟩
    exact (List.getElem?_append_left (List.getElem?_eq_some_iff.mp hAt).1).trans hAt
  taken := fun a ha => by
    have hWithin := h.taken a ha
    refine ⟨hWithin.answered, hWithin.inTime, hWithin.past.trans hClock, fun next hNext => ?_⟩
    -- the next round is an old one, or the one that opens now
    rcases Nat.lt_or_ge (a.round + 1) s.opened.length with hLt | hGe
    · rw [Session.openRound, List.getElem?_append_left hLt] at hNext
      exact hWithin.beforeNext next hNext
    · have hMem := List.mem_of_getElem? hNext
      rw [Session.openRound, List.getElem?_append_right hGe] at hNext
      rw [List.mem_singleton.mp (List.mem_of_getElem? hNext)]
      exact hWithin.past.trans hClock
  ascending := h.ascending

theorem answer (h : s.Orderly) {k : Nat} {t : T} (hClock : s.clock ≤ t)
    (hOpened : k < s.opened.length) : (s.answer k t).Orderly where
  openedPast := fun t₀ hMem => (h.openedPast t₀ hMem).trans hClock
  answers := fun k' t' hMem => by
    rcases List.mem_append.mp hMem with hBefore | hNew
    · obtain ⟨t₀, hAt, hLe, hPast⟩ := h.answers k' t' hBefore
      exact ⟨t₀, hAt, hLe, hPast.trans hClock⟩
    · obtain ⟨rfl, rfl⟩ := Prod.mk.inj (List.mem_singleton.mp hNew)
      refine ⟨s.opened[k'], List.getElem?_eq_getElem hOpened, ?_, le_refl _⟩
      exact (h.openedPast _ (List.getElem_mem hOpened)).trans hClock
  taken := fun a ha => by
    have hWithin := h.taken a ha
    exact ⟨List.mem_append_left _ hWithin.answered, hWithin.inTime, hWithin.past.trans hClock,
      hWithin.beforeNext⟩
  ascending := h.ascending

theorem take (h : s.Orderly) {a : Taken T} (hClock : s.clock ≤ a.takenAt)
    (hAnswer : (a.round, a.answeredAt) ∈ s.answers) (hLast : a.round + 1 = s.opened.length)
    (hFresh : ∀ b ∈ s.taken, b.round ≠ a.round) : (s.take a).Orderly where
  openedPast := fun t₀ hMem => (h.openedPast t₀ hMem).trans hClock
  answers := fun k t' hMem => by
    obtain ⟨t₀, hAt, hLe, hPast⟩ := h.answers k t' hMem
    exact ⟨t₀, hAt, hLe, hPast.trans hClock⟩
  taken := fun b hb => by
    rcases List.mem_append.mp hb with hBefore | hNew
    · have hWithin := h.taken b hBefore
      exact ⟨hWithin.answered, hWithin.inTime, hWithin.past.trans hClock, hWithin.beforeNext⟩
    · obtain rfl := List.mem_singleton.mp hNew
      obtain ⟨t₀, -, -, hPast⟩ := h.answers _ _ hAnswer
      refine ⟨hAnswer, hPast.trans hClock, le_refl _, fun next hNext => ?_⟩
      -- the last round has no next one
      exact absurd (List.getElem?_eq_some_iff.mp hNext).1 (by simp [Session.take, hLast])
  ascending := by
    refine List.pairwise_append.mpr ⟨h.ascending, List.pairwise_singleton _ _, fun b hb c hc => ?_⟩
    obtain rfl := List.mem_singleton.mp hc
    have hLt := h.round_lt hb
    have hNe := hFresh b hb
    omega

end Session.Orderly

/-- One move keeps the order. -/
theorem Move.orderly {s s' : Session T} (h : Move s s') (hOrderly : s.Orderly) : s'.Orderly := by
  cases h with
  | wait hClock => exact hOrderly.wait hClock
  | openRound hClock => exact hOrderly.openRound hClock
  | answer hClock hOpened => exact hOrderly.answer hClock hOpened
  | take hClock hAnswer hLast hFresh => exact hOrderly.take hClock hAnswer hLast hFresh

theorem Moves.orderly {s s' : Session T} (h : Moves s s') (hOrderly : s.Orderly) : s'.Orderly := by
  induction h with
  | refl => exact hOrderly
  | tail _ hMove ih => exact hMove.orderly ih

/-- The openings come one after the other. -/
theorem Moves.opened_sorted {s s' : Session T} (h : Moves s s') (hOrderly : s.Orderly)
    (hSorted : s.opened.Pairwise (· ≤ ·)) : s'.opened.Pairwise (· ≤ ·) := by
  induction h with
  | refl => exact hSorted
  | tail hBefore hMove ih =>
    cases hMove with
    | openRound hClock =>
      refine List.pairwise_append.mpr ⟨ih, List.pairwise_singleton _ _, fun t₀ h₀ t₁ h₁ => ?_⟩
      rw [List.mem_singleton.mp h₁]
      exact ((hBefore.orderly hOrderly).openedPast t₀ h₀).trans hClock
    | wait => exact ih
    | answer => exact ih
    | take => exact ih

end StopAndWait
