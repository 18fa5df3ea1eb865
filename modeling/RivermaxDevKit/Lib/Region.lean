import Mathlib.Algebra.Order.Ring.Nat
import Mathlib.Data.List.Basic
import Mathlib.Order.Interval.Finset.Nat
import Mathlib.Tactic.Common

/-!
# Regions

Stretches of addresses, and how one is cut into several.

* `carve` — the regions of given sizes, one behind the other.
* `Partition` — parts that lie in a whole and do not meet; `partition_carve`
  makes one, `Partition.flatten` cuts its parts again, and
  `Partition.sum_length_le` bounds their lengths.
-/

/-- `length` addresses from `addr` on. -/
structure Region where
  addr : Nat
  length : Nat
  deriving DecidableEq, Repr

namespace Region

def Contains (r : Region) (i : Nat) : Prop := r.addr ≤ i ∧ i < r.addr + r.length

/-- No address lies in both. -/
def Disjoint (a b : Region) : Prop := ∀ i, a.Contains i → ¬ b.Contains i

def Inside (a b : Region) : Prop := ∀ i, a.Contains i → b.Contains i

theorem Disjoint.symm {a b : Region} (h : a.Disjoint b) : b.Disjoint a :=
  fun i hb ha => h i ha hb

theorem Inside.trans {a b c : Region} (hab : a.Inside b) (hbc : b.Inside c) : a.Inside c :=
  fun i ha => hbc i (hab i ha)

theorem Disjoint.of_inside {a b a' b' : Region} (h : a.Disjoint b) (ha : a'.Inside a)
    (hb : b'.Inside b) : a'.Disjoint b' :=
  fun i hi hi' => h i (ha i hi) (hb i hi')

/-- A region that holds anything meets itself. -/
theorem not_disjoint_self {r : Region} (h : 0 < r.length) : ¬ r.Disjoint r := by
  intro hDisjoint
  have hFirst : r.Contains r.addr := ⟨Nat.le_refl _, by omega⟩
  exact hDisjoint _ hFirst hFirst

/-! ## Carving -/

/-- Regions of the given sizes, one behind the other. -/
def carve : Nat → List Nat → List Region
  | _, [] => []
  | addr, size :: sizes => ⟨addr, size⟩ :: carve (addr + size) sizes

theorem carve_append (addr : Nat) (a b : List Nat) :
    carve addr (a ++ b) = carve addr a ++ carve (addr + a.sum) b := by
  induction a generalizing addr with
  | nil => rfl
  | cons size a ih =>
    rw [List.sum_cons, ← Nat.add_assoc]
    exact congrArg (_ :: ·) (ih _)

theorem carve_replicate (addr n size : Nat) :
    carve addr (List.replicate n size) = (List.range n).map fun i => ⟨addr + i * size, size⟩ := by
  induction n generalizing addr with
  | zero => rfl
  | succ n ih =>
    rw [List.replicate_succ, carve, ih, List.range_succ_eq_map, List.map_cons, List.map_map]
    refine congrArg₂ List.cons (by simp) (List.map_congr_left fun i _ => ?_)
    simp only [Function.comp_apply, Nat.succ_mul]
    rw [show addr + (i * size + size) = addr + size + i * size by omega]

@[simp]
theorem length_carve (addr : Nat) (sizes : List Nat) :
    (carve addr sizes).length = sizes.length := by
  induction sizes generalizing addr with
  | nil => rfl
  | cons size sizes ih => exact congrArg (· + 1) (ih _)

theorem inside_of_mem_carve {addr : Nat} {sizes : List Nat} {r : Region}
    (h : r ∈ carve addr sizes) : r.Inside ⟨addr, sizes.sum⟩ := by
  induction sizes generalizing addr with
  | nil => cases h
  | cons size sizes ih =>
    intro i hi
    show addr ≤ i ∧ i < addr + (size :: sizes).sum
    rw [List.sum_cons]
    rcases List.mem_cons.mp h with rfl | hRest
    · exact ⟨hi.1, by have := hi.2; dsimp only at this; omega⟩
    · obtain ⟨hLow, hHigh⟩ := ih hRest i hi
      dsimp only at hLow hHigh
      omega

/-- Parts of `whole` that do not meet. -/
structure Partition (whole : Region) (parts : List Region) : Prop where
  inside : ∀ part ∈ parts, part.Inside whole
  disjoint : parts.Pairwise Disjoint

theorem partition_nil (whole : Region) : Partition whole [] where
  inside := nofun
  disjoint := .nil

theorem Partition.mono {whole whole' : Region} {parts : List Region} (h : Partition whole parts)
    (hInside : whole.Inside whole') : Partition whole' parts where
  inside := fun part hPart => (h.inside part hPart).trans hInside
  disjoint := h.disjoint

/-- What is carved from the start of a region that is large enough partitions it. -/
theorem partition_carve {whole : Region} {sizes : List Nat} (h : sizes.sum ≤ whole.length) :
    Partition whole (carve whole.addr sizes) where
  inside := by
    intro part hPart i hi
    obtain ⟨hLow, hHigh⟩ := inside_of_mem_carve hPart i hi
    exact ⟨hLow, by dsimp only at hHigh; omega⟩
  disjoint := by
    suffices hAll : ∀ addr, (carve addr sizes).Pairwise Disjoint from hAll _
    clear h
    induction sizes with
    | nil => exact fun _ => .nil
    | cons size sizes ih =>
      intro addr
      refine .cons ?_ (ih _)
      intro r hr i hi hi'
      -- the rest starts where the first region ends
      have hLow := (inside_of_mem_carve hr i hi').1
      have hHigh := hi.2
      dsimp only at hLow hHigh
      omega

/-- Addresses of regions that do not meet are counted once. -/
theorem exists_addresses {parts : List Region} (h : parts.Pairwise Disjoint) :
    ∃ addresses : Finset Nat, addresses.card = (parts.map Region.length).sum ∧
      ∀ i ∈ addresses, ∃ part ∈ parts, part.Contains i := by
  induction parts with
  | nil => exact ⟨∅, rfl, nofun⟩
  | cons part parts ih =>
    obtain ⟨hFirst, hRest⟩ := List.pairwise_cons.mp h
    obtain ⟨addresses, hCard, hFrom⟩ := ih hRest
    have hOwn : ∀ i ∈ Finset.Ico part.addr (part.addr + part.length), part.Contains i :=
      fun i hi => Finset.mem_Ico.mp hi
    have hApart : ∀ ⦃i⦄, i ∈ Finset.Ico part.addr (part.addr + part.length) → i ∉ addresses := by
      intro i hi hi'
      obtain ⟨other, hOther, hContains⟩ := hFrom i hi'
      exact hFirst other hOther i (hOwn i hi) hContains
    refine ⟨(Finset.Ico _ _).disjUnion addresses (Finset.disjoint_left.mpr hApart), ?_, ?_⟩
    · rw [Finset.card_disjUnion, hCard, Nat.card_Ico, List.map_cons, List.sum_cons]
      omega
    · intro i hi
      rcases Finset.mem_disjUnion.mp hi with hHere | hThere
      · exact ⟨part, List.mem_cons_self, hOwn i hHere⟩
      · obtain ⟨other, hOther, hContains⟩ := hFrom i hThere
        exact ⟨other, List.mem_cons_of_mem _ hOther, hContains⟩

/-- The parts are together no longer than the whole. -/
theorem Partition.sum_length_le {whole : Region} {parts : List Region}
    (h : Partition whole parts) : (parts.map Region.length).sum ≤ whole.length := by
  obtain ⟨addresses, hCard, hFrom⟩ := exists_addresses h.disjoint
  have hSubset : addresses ⊆ Finset.Ico whole.addr (whole.addr + whole.length) := by
    intro i hi
    obtain ⟨part, hPart, hContains⟩ := hFrom i hi
    exact Finset.mem_Ico.mpr (h.inside part hPart i hContains)
  have hLe := Finset.card_le_card hSubset
  rw [hCard, Nat.card_Ico] at hLe
  omega

/-- Cutting every part of a partition again. -/
theorem Partition.flatten {whole : Region} {parts : List Region} {pieces : List (List Region)}
    (h : Partition whole parts) (hPieces : List.Forall₂ Partition parts pieces) :
    Partition whole pieces.flatten := by
  induction hPieces with
  | nil => exact partition_nil whole
  | @cons part cut parts pieces hCut hPieces ih =>
    obtain ⟨hInside, hDisjoint⟩ := h
    rw [List.forall_mem_cons] at hInside
    obtain ⟨hFirst, hRest⟩ := List.pairwise_cons.mp hDisjoint
    have hTail := ih ⟨hInside.2, hRest⟩
    refine ⟨?_, ?_⟩
    · intro piece hPiece
      rw [List.flatten_cons, List.mem_append] at hPiece
      rcases hPiece with hCutPiece | hOther
      · exact (hCut.inside piece hCutPiece).trans hInside.1
      · exact hTail.inside piece hOther
    · rw [List.flatten_cons, List.pairwise_append]
      refine ⟨hCut.disjoint, hTail.disjoint, ?_⟩
      intro a ha b hb
      obtain ⟨cut', hCut', hb'⟩ := List.mem_flatten.mp hb
      obtain ⟨part', hPart', hIn⟩ : ∃ part' ∈ parts, Partition part' cut' := by
        clear ih hTail hRest hDisjoint hFirst hInside hb
        induction hPieces with
        | nil => cases hCut'
        | cons hHead _ ih =>
          rcases List.mem_cons.mp hCut' with rfl | hLater
          · exact ⟨_, List.mem_cons_self, hHead⟩
          · obtain ⟨part', hMem, hIn⟩ := ih hLater
            exact ⟨part', List.mem_cons_of_mem _ hMem, hIn⟩
      exact (hFirst part' hPart').of_inside (hCut.inside a ha) (hIn.inside b hb')

end Region
