import Mathlib.Data.List.Infix
import Mathlib.Tactic.Common

/-!
# Searching a text

Occurrences of a pattern in a list, the first of them, and the fields a text
has between a prefix and the next suffix.

* `findFirst_eq_some_iff`, `findFirst_eq_none_iff` — the search by positions.
* `findFirst_append` — what is put in front without an occurrence shifts it.
* `exists_fields` — every text is cut into fields and what is around them.
-/

namespace TextSearch

variable {α : Type} {pat a s : List α} {i j : ℕ}

/-! ## Occurrences -/

/-- The pattern stands at position `i`. -/
def Occurs (pat s : List α) (i : ℕ) : Prop := pat <+: s.drop i

instance [DecidableEq α] (pat s : List α) (i : ℕ) : Decidable (Occurs pat s i) := by
  unfold Occurs
  infer_instance

/-- It stands there for the first time. -/
def FirstAt (pat s : List α) (i : ℕ) : Prop := Occurs pat s i ∧ ∀ j < i, ¬ Occurs pat s j

theorem Occurs.le_length (hOccurs : Occurs pat s i) (hPat : pat ≠ []) :
    i + pat.length ≤ s.length := by
  have hLength := hOccurs.length_le
  have hPos := List.length_pos_of_ne_nil hPat
  rw [List.length_drop] at hLength
  omega

theorem occurs_zero : Occurs pat s 0 ↔ pat <+: s := by
  rw [Occurs, List.drop_zero]

theorem occurs_succ (c : α) : Occurs pat (c :: s) (i + 1) ↔ Occurs pat s i := by
  rw [Occurs, List.drop_succ_cons, Occurs]

theorem occurs_append (a s : List α) : Occurs pat (a ++ s) (a.length + i) ↔ Occurs pat s i := by
  rw [Occurs, ← List.drop_drop, List.drop_left, Occurs]

theorem occurs_append_length (a s : List α) : Occurs pat (a ++ s) a.length ↔ pat <+: s := by
  rw [Occurs, List.drop_left]

theorem Occurs.append_left (hOccurs : Occurs pat s i) (a : List α) :
    Occurs pat (a ++ s) (a.length + i) := (occurs_append a s).mpr hOccurs

theorem occurs_drop : Occurs pat (s.drop i) j ↔ Occurs pat s (i + j) := by
  rw [Occurs, List.drop_drop, Occurs]

/-- The first character of the pattern stands at the position. -/
theorem Occurs.head {c : α} (hOccurs : Occurs (c :: pat) s i) : s[i]? = some c := by
  obtain ⟨tail, hTail⟩ := hOccurs
  rw [← Nat.add_zero i, ← List.getElem?_drop, ← hTail]
  rfl

/-- An occurrence inside the first part does not look at the second. -/
theorem occurs_append_of_le (s : List α) (hLe : i + pat.length ≤ a.length) :
    Occurs pat (a ++ s) i ↔ Occurs pat a i := by
  rw [Occurs, Occurs, List.drop_append_of_le_length (by omega)]
  constructor
  · intro hPrefix
    refine List.prefix_of_prefix_length_le hPrefix (List.prefix_append _ _) ?_
    rw [List.length_drop]
    omega
  · exact List.prefix_append_of_prefix

theorem FirstAt.unique (hI : FirstAt pat s i) (hJ : FirstAt pat s j) : i = j := by
  rcases lt_trichotomy i j with hLt | hEq | hGt
  · exact absurd hI.1 (hJ.2 i hLt)
  · exact hEq
  · exact absurd hJ.1 (hI.2 j hGt)

/-- What is in front of the first occurrence, and what is behind it. -/
theorem FirstAt.split (hFirst : FirstAt pat s i) (hPat : pat ≠ []) :
    ∃ before after, s = before ++ (pat ++ after) ∧ before.length = i := by
  have hLe := hFirst.1.le_length hPat
  obtain ⟨after, hAfter⟩ := hFirst.1
  refine ⟨s.take i, after, ?_, ?_⟩
  · rw [hAfter, List.take_append_drop]
  · rw [List.length_take]
    omega

/-! ## Search -/

section

variable [DecidableEq α]

/-- The position of the first occurrence. -/
def findFirst (pat : List α) : List α → Option ℕ
  | [] => if pat = [] then some 0 else none
  | c :: cs => if pat.isPrefixOf (c :: cs) then some 0 else (findFirst pat cs).map (· + 1)

theorem findFirst_eq_none_iff : findFirst pat s = none ↔ ∀ i, ¬ Occurs pat s i := by
  induction s with
  | nil =>
    simp [findFirst, Occurs]
  | cons c cs ih =>
    unfold findFirst
    split_ifs with hHere
    · rw [List.isPrefixOf_iff_prefix] at hHere
      exact iff_of_false (by simp) fun hNone => hNone 0 (occurs_zero.mpr hHere)
    · rw [List.isPrefixOf_iff_prefix] at hHere
      rw [Option.map_eq_none_iff, ih]
      constructor
      · rintro hNone (_ | i)
        · rwa [occurs_zero]
        · rw [occurs_succ]
          exact hNone i
      · intro hNone i
        rw [← occurs_succ c]
        exact hNone (i + 1)

theorem findFirst_firstAt (hFind : findFirst pat s = some i) : FirstAt pat s i := by
  induction s generalizing i with
  | nil =>
    unfold findFirst at hFind
    split_ifs at hFind with hPat
    obtain rfl := Option.some.inj hFind
    exact ⟨by simp [Occurs, hPat], fun j hj => absurd hj (Nat.not_lt_zero j)⟩
  | cons c cs ih =>
    unfold findFirst at hFind
    split_ifs at hFind with hHere
    · rw [List.isPrefixOf_iff_prefix] at hHere
      obtain rfl := Option.some.inj hFind
      exact ⟨occurs_zero.mpr hHere, fun j hj => absurd hj (Nat.not_lt_zero j)⟩
    · rw [List.isPrefixOf_iff_prefix] at hHere
      obtain ⟨k, hTail, rfl⟩ := Option.map_eq_some_iff.mp hFind
      obtain ⟨hOccurs, hFirst⟩ := ih hTail
      refine ⟨(occurs_succ c).mpr hOccurs, ?_⟩
      rintro (_ | j) hj
      · rwa [occurs_zero]
      · rw [occurs_succ]
        exact hFirst j (by omega)

/-- **The search finds the first occurrence.** -/
theorem findFirst_eq_some_iff : findFirst pat s = some i ↔ FirstAt pat s i := by
  refine ⟨findFirst_firstAt, fun hFirst => ?_⟩
  rcases hFind : findFirst pat s with _ | j
  · exact absurd hFirst.1 (findFirst_eq_none_iff.mp hFind i)
  · rw [hFirst.unique (findFirst_firstAt hFind)]

/-- **Shift.** In front of the text, a part where nothing occurs. -/
theorem findFirst_append (hNone : ∀ j < a.length, ¬ Occurs pat (a ++ s) j) :
    findFirst pat (a ++ s) = (findFirst pat s).map (a.length + ·) := by
  rcases hFind : findFirst pat s with _ | i
  · rw [findFirst_eq_none_iff] at hFind
    rw [Option.map_none, findFirst_eq_none_iff]
    intro j hOccurs
    by_cases hj : j < a.length
    · exact hNone j hj hOccurs
    · obtain ⟨k, rfl⟩ := Nat.exists_eq_add_of_le (Nat.le_of_not_lt hj)
      exact hFind k ((occurs_append a s).mp hOccurs)
  · obtain ⟨hOccurs, hFirst⟩ := findFirst_firstAt hFind
    rw [Option.map_some, findFirst_eq_some_iff]
    refine ⟨(occurs_append a s).mpr hOccurs, fun j hj hOccurs' => ?_⟩
    by_cases hLt : j < a.length
    · exact hNone j hLt hOccurs'
    · obtain ⟨k, rfl⟩ := Nat.exists_eq_add_of_le (Nat.le_of_not_lt hLt)
      exact hFirst k (by omega) ((occurs_append a s).mp hOccurs')

end

/-! ## Fields -/

variable {p q field kept rest last : List α} {segs : List (List α × List α)}

/-- A text cut into fields: each kept part ends with the first prefix, and its
field is what stands in front of the first suffix after it. The search goes on
at that suffix. No field is left in the last part. -/
inductive Fields (p q : List α) : List α → List (List α × List α) → List α → Prop
  | last {s : List α} (hNone : ∀ k, FirstAt p s k → ∀ i, k + p.length ≤ i → ¬ Occurs q s i) :
      Fields p q s [] s
  | field {kept field rest : List α} {segs : List (List α × List α)} {last : List α}
      (hPrefix : FirstAt p (kept ++ (p ++ (field ++ rest))) kept.length)
      (hSuffix : FirstAt q (field ++ rest) field.length) (hRest : Fields p q rest segs last) :
      Fields p q (kept ++ (p ++ (field ++ rest))) ((kept ++ p, field) :: segs) last

/-- The text of kept parts, fields and last part. -/
def join (segs : List (List α × List α)) (last : List α) : List α :=
  segs.foldr (fun seg rest => seg.1 ++ (seg.2 ++ rest)) last

/-- Every field becomes `new`. -/
def refill (new : List α) (segs : List (List α × List α)) : List (List α × List α) :=
  segs.map fun seg => (seg.1, new)

@[simp]
theorem join_nil (last : List α) : join [] last = last := rfl

@[simp]
theorem join_cons (seg : List α × List α) (segs : List (List α × List α)) (last : List α) :
    join (seg :: segs) last = seg.1 ++ (seg.2 ++ join segs last) := rfl

@[simp]
theorem refill_nil (new : List α) : refill new [] = [] := rfl

@[simp]
theorem refill_cons (new : List α) (seg : List α × List α) (segs : List (List α × List α)) :
    refill new (seg :: segs) = (seg.1, new) :: refill new segs := rfl

theorem refill_refill (new : List α) (segs : List (List α × List α)) :
    refill new (refill new segs) = refill new segs := by
  simp [refill]

theorem Fields.join_eq (hFields : Fields p q s segs last) : join segs last = s := by
  induction hFields with
  | last => rfl
  | field _ _ _ ih => rw [join_cons, ih, List.append_assoc]

/-- **Every text has its fields.** -/
theorem exists_fields [DecidableEq α] (hP : p ≠ []) (hQ : q ≠ []) (s : List α) :
    ∃ segs last, Fields p q s segs last := by
  have hPos := List.length_pos_of_ne_nil hP
  induction hLength : s.length using Nat.strong_induction_on generalizing s with
  | _ n ih =>
    rcases hPrefix : findFirst p s with _ | k
    · rw [findFirst_eq_none_iff] at hPrefix
      exact ⟨[], s, .last fun k hFirst => absurd hFirst.1 (hPrefix k)⟩
    · rw [findFirst_eq_some_iff] at hPrefix
      obtain ⟨kept, after, rfl, rfl⟩ := hPrefix.split hP
      rcases hSuffix : findFirst q after with _ | i
      · rw [findFirst_eq_none_iff] at hSuffix
        refine ⟨[], _, .last fun k hFirst i hLe hOccurs => ?_⟩
        obtain rfl := hFirst.unique hPrefix
        obtain ⟨m, rfl⟩ := Nat.exists_eq_add_of_le hLe
        rw [Nat.add_assoc, occurs_append, occurs_append] at hOccurs
        exact hSuffix m hOccurs
      · rw [findFirst_eq_some_iff] at hSuffix
        obtain ⟨field, tail, rfl, rfl⟩ := hSuffix.split hQ
        obtain ⟨segs, last, hRest⟩ := ih (q ++ tail).length
          (by simp only [List.length_append] at hLength ⊢; omega) (q ++ tail) rfl
        exact ⟨_, _, .field hPrefix hSuffix hRest⟩

/-! ## What follows a field -/

/-- A field ends at `i`: the first suffix after an occurrence of the prefix. -/
def EndsField (p q s : List α) (i : ℕ) : Prop :=
  ∃ k, Occurs p s k ∧ k + p.length ≤ i ∧ Occurs q s i ∧
    ∀ m, k + p.length ≤ m → m < i → ¬ Occurs q s m

/-- `P` holds of the text from the end of each field on. -/
def Rests (P : List α → Prop) : List (List α × List α) → List α → Prop
  | [], _ => True
  | _ :: segs, last => P (join segs last) ∧ Rests P segs last

theorem EndsField.append {i : ℕ} (hEnds : EndsField p q s i) (a : List α) :
    EndsField p q (a ++ s) (a.length + i) := by
  obtain ⟨k, hP, hLe, hQ, hFirst⟩ := hEnds
  refine ⟨a.length + k, hP.append_left a, by omega, hQ.append_left a, fun m hm hLt hOccurs => ?_⟩
  obtain ⟨m, rfl⟩ := Nat.exists_eq_add_of_le (show a.length ≤ m by omega)
  exact hFirst m (by omega) (by omega) ((occurs_append a s).mp hOccurs)

/-- What holds behind every field of the text holds behind those it is cut
into. -/
theorem Fields.rests {P : List α → Prop} (hFields : Fields p q s segs last)
    (hEnds : ∀ i, EndsField p q s i → P (s.drop i)) : Rests P segs last := by
  induction hFields with
  | last => trivial
  | @field kept field rest segs last hPrefix hSuffix hRest ih =>
    have hBehind : ∀ i, (kept ++ (p ++ (field ++ rest))).drop
        (kept.length + (p.length + (field.length + i))) = rest.drop i := by
      intro i
      rw [← List.drop_drop, List.drop_left, ← List.drop_drop, List.drop_left, ← List.drop_drop,
        List.drop_left]
    refine ⟨?_, ih fun i hEnd => ?_⟩
    · rw [hRest.join_eq, ← List.drop_zero (l := rest), ← hBehind 0]
      refine hEnds _ ⟨kept.length, hPrefix.1, by omega, ?_, fun m hm hLt hOccurs => ?_⟩
      · exact (hSuffix.1.append_left p).append_left kept
      · obtain ⟨m, rfl⟩ := Nat.exists_eq_add_of_le hm
        rw [Nat.add_assoc, occurs_append, occurs_append] at hOccurs
        exact hSuffix.2 m (by omega) hOccurs
    · rw [← hBehind i]
      exact hEnds _ (((hEnd.append field).append p).append kept)

/-- Nothing of the prefix in `new` or across its right border. -/
def NoPrefixIn (p new rest : List α) : Prop := ∀ j < new.length, ¬ Occurs p (new ++ rest) j

/-- No prefix starts inside the suffix that ends the field. -/
def SuffixClear (p q rest : List α) : Prop := ∀ j < q.length, ¬ Occurs p rest j

/-- No prefix where its first character is missing. -/
theorem noPrefixIn_of_notMem {c : α} {new : List α} (hNew : c ∉ new) (rest : List α) :
    NoPrefixIn (c :: p) new rest := by
  intro j hj hOccurs
  have hHead := hOccurs.head
  rw [List.getElem?_append_left hj] at hHead
  exact hNew (List.mem_of_getElem? hHead)

/-- A suffix of one character holds no prefix that starts with another. -/
theorem suffixClear_singleton {c d : α} (hNe : c ≠ d) (hRest : Occurs [d] rest 0) :
    SuffixClear (c :: p) [d] rest := by
  intro j hj hOccurs
  obtain rfl : j = 0 := by simpa using hj
  exact hNe (Option.some.inj (hOccurs.head.symm.trans hRest.head))

/-! ## Refilled fields -/

variable {new : List α}

/-- The text behind a field and the refilled one agree as far as the next
prefix. -/
theorem noPrefixIn_refill (hRest : Fields p q rest segs last)
    (hClear : NoPrefixIn p new (join segs last)) :
    NoPrefixIn p new (join (refill new segs) last) := by
  cases hRest with
  | last => exact hClear
  | @field kept field rest segs last hPrefix hSuffix hRest =>
    intro j hj hOccurs
    refine hClear j hj ?_
    have hInside : j + p.length ≤ (new ++ (kept ++ p)).length := by
      simp only [List.length_append]
      omega
    rw [join_cons, ← List.append_assoc, occurs_append_of_le _ hInside]
    rwa [refill, List.map_cons, join_cons, ← List.append_assoc,
      occurs_append_of_le _ hInside] at hOccurs

theorem rests_refill (hFields : Fields p q s segs last)
    (hClear : Rests (NoPrefixIn p new) segs last) :
    Rests (NoPrefixIn p new) (refill new segs) last := by
  induction hFields with
  | last => trivial
  | field _ _ hRest ih => exact ⟨noPrefixIn_refill hRest hClear.1, ih hClear.2⟩

/-- The suffix behind a field stays: the next prefix starts behind it. -/
theorem suffix_refill (hRest : Fields p q rest segs last) (hClear : SuffixClear p q rest)
    (hSuffix : q <+: rest) : q <+: join (refill new segs) last := by
  cases hRest with
  | last => exact hSuffix
  | @field kept field rest segs last hPrefix _ hRest =>
    have hLe : q.length ≤ kept.length := by
      by_contra hLt
      exact hClear kept.length (by omega) hPrefix.1
    have hKept : q <+: kept :=
      List.prefix_of_prefix_length_le hSuffix (List.prefix_append _ _) hLe
    rw [refill, List.map_cons, join_cons, List.append_assoc]
    exact List.prefix_append_of_prefix hKept

/-- The first prefix does not see what follows it. -/
theorem FirstAt.replace_right {before after : List α}
    (hFirst : FirstAt p (before ++ (p ++ after)) before.length) (t : List α) :
    FirstAt p (before ++ (p ++ t)) before.length := by
  refine ⟨(occurs_append_length before _).mpr (List.prefix_append _ _), fun j hj hOccurs => ?_⟩
  have hInside : j + p.length ≤ (before ++ p).length := by
    simp only [List.length_append]
    omega
  refine hFirst.2 j hj ?_
  rw [← List.append_assoc, occurs_append_of_le _ hInside] at hOccurs ⊢
  exact hOccurs

/-- **A refilled text has the refilled fields**, if the replacement brings no
suffix of its own and no prefix starts inside a suffix. -/
theorem Fields.refill (hFields : Fields p q s segs last)
    (hApart : Rests (SuffixClear p q) segs last)
    (hNew : ∀ j < new.length, ¬ Occurs q (new ++ q) j) :
    Fields p q (join (refill new segs) last) (TextSearch.refill new segs) last := by
  induction hFields with
  | last hNone => exact .last hNone
  | @field kept field rest segs last hPrefix hSuffix hRest ih =>
    have hBehind : q <+: join (TextSearch.refill new segs) last := by
      refine suffix_refill hRest (hRest.join_eq ▸ hApart.1) ?_
      exact (occurs_append_length field rest).mp hSuffix.1
    have hFirst : FirstAt q (new ++ join (TextSearch.refill new segs) last) new.length := by
      refine ⟨(occurs_append_length new _).mpr hBehind, fun j hj hOccurs => ?_⟩
      obtain ⟨tail, hTail⟩ := hBehind
      have hInside : j + q.length ≤ (new ++ q).length := by
        simp only [List.length_append]
        omega
      rw [← hTail, ← List.append_assoc, occurs_append_of_le _ hInside] at hOccurs
      exact hNew j hj hOccurs
    have hWhole := Fields.field (hPrefix.replace_right
      (new ++ join (TextSearch.refill new segs) last)) hFirst (ih hApart.2)
    rwa [← List.append_assoc] at hWhole

end TextSearch
