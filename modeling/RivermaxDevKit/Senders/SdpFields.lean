import RivermaxDevKit.Lib.TextSearch

/-!
# Rewriting SDP fields

Two versions of one edit: `replace_all` of `media_sender_io_node.cpp`, a loop of
searches over the string it changes, and `modify_sdp_field` of
`ipmx_sender_io_node.cpp`, a `std::regex_replace` of `prefix.*?suffix`.

A `std::string` is the list of its characters. The loop runs on fuel; `none` is
a run that has used it up. Of ECMAScript expressions the model reads
characters, the dot and the lazy star, and of format strings those without an
escape; on the rest `modifySdpField` has no answer.

* `replaceAllLoop_eq` — the loop refills the fields of the text.
* `regexReplace_eq` — so does the regular expression, field by field.
-/

namespace RivermaxDevKit

open TextSearch

/-! ## Strings -/

/-- `std::string::find`. -/
def StdString.find (str pat : List Char) (pos : Nat) : Option Nat :=
  if pos ≤ str.length then (findFirst pat (str.drop pos)).map (pos + ·) else none

/-- `std::string::replace`. -/
def StdString.replace (str : List Char) (pos len : Nat) (new : List Char) : List Char :=
  str.take pos ++ new ++ str.drop (pos + len)

/-! ## The loop -/

/-- The loop of `replace_all` from position `n` on. -/
def replaceAllLoop (outerPrefix innerPrefix new suffix : List Char) :
    Nat → List Char → Nat → Option (List Char)
  | 0, _, _ => none
  | fuel + 1, source, n =>
    match StdString.find source outerPrefix n with
    | none => some source
    | some n =>
      match StdString.find source innerPrefix (n + outerPrefix.length) with
      | none => some source
      | some n =>
        match StdString.find source suffix (n + innerPrefix.length) with
        | none => some source
        | some n2 =>
          replaceAllLoop outerPrefix innerPrefix new suffix fuel
            (StdString.replace source (n + innerPrefix.length) (n2 - (n + innerPrefix.length)) new)
            (n + innerPrefix.length)

/-- `replace_all` of one prefix, from the start of the text, with fuel for a
round at every character. -/
def replaceAll (source prefixStr new suffix : List Char) : Option (List Char) :=
  replaceAllLoop prefixStr [] new suffix (source.length + 1) source 0

/-! ## The regular expression -/

/-- What an expression is made of here. -/
inductive RegexItem
  | character (c : Char)
  | any
  | lazyAny
  deriving DecidableEq, Repr

/-- The characters ECMAScript gives a meaning. -/
def SYNTAX_CHARACTERS : List Char :=
  ['^', '$', '\\', '.', '*', '+', '?', '(', ')', '[', ']', '\x7b', '\x7d', '|']

/-- The expression a pattern stands for. -/
def parseRegex : List Char → Option (List RegexItem)
  | [] => some []
  | '.' :: '*' :: '?' :: rest => (parseRegex rest).map (.lazyAny :: ·)
  | '.' :: rest => (parseRegex rest).map (.any :: ·)
  | c :: rest =>
    if c ∈ SYNTAX_CHARACTERS then none else (parseRegex rest).map (.character c :: ·)

/-- What the dot does not match. -/
def isLineTerminator (c : Char) : Bool := c = '\n' ∨ c = '\r'

/-- A lazy star: as few characters as let the rest of the expression match. -/
def matchLazy (continuation : List Char → Option (List Char)) : List Char → Option (List Char)
  | [] => continuation []
  | c :: rest =>
    match continuation (c :: rest) with
    | some tail => some tail
    | none => if isLineTerminator c then none else matchLazy continuation rest

/-- A match at the start of a text, and what it leaves. -/
def matchItems : List RegexItem → List Char → Option (List Char)
  | [], text => some text
  | .character c :: items, text =>
    match text with
    | [] => none
    | x :: rest => if x = c then matchItems items rest else none
  | .any :: items, text =>
    match text with
    | [] => none
    | x :: rest => if isLineTerminator x then none else matchItems items rest
  | .lazyAny :: items, text => matchLazy (matchItems items) text

/-- `std::regex_replace`: every match, from left to right, the next one behind
the last. `skip` counts the characters of the last match that are still to
pass. An empty match is passed over: an expression that starts with a character
has none. -/
def regexReplace (items : List RegexItem) (format : List Char) : Nat → List Char → List Char
  | _, [] => []
  | skip + 1, _ :: rest => regexReplace items format skip rest
  | 0, c :: rest =>
    match matchItems items (c :: rest) with
    | none => c :: regexReplace items format 0 rest
    | some tail =>
      if rest.length < tail.length then c :: regexReplace items format 0 rest
      else format ++ regexReplace items format (rest.length - tail.length) rest

/-- `modify_sdp_field`. -/
def modifySdpField (sdpContents prefixStr replacement suffix : List Char) : Option (List Char) :=
  match parseRegex (prefixStr ++ ['.', '*', '?'] ++ suffix) with
  | none => none
  | some items =>
    if '$' ∈ prefixStr ++ replacement ++ suffix then none
    else some (regexReplace items (prefixStr ++ replacement ++ suffix) 0 sdpContents)

example : (replaceAll "c=IN IP4 1.2.3.4/32 c=IN IP4 5/6".toList "c=IN IP4 ".toList "9.9".toList
    "/".toList) = some "c=IN IP4 9.9/32 c=IN IP4 9.9/6".toList := by decide
example : (modifySdpField "c=IN IP4 1.2.3.4/32 c=IN IP4 5/6".toList "c=IN IP4 ".toList
    "9.9".toList "/".toList) = some "c=IN IP4 9.9/32 c=IN IP4 9.9/6".toList := by decide

/-! ## The loop and the fields -/

section

variable {p q new a t s : List Char} {kept field rest : List Char}
  {segs : List (List Char × List Char)} {last : List Char}

theorem find_append (a t pat : List Char) :
    StdString.find (a ++ t) pat a.length = (findFirst pat t).map (a.length + ·) := by
  rw [StdString.find, if_pos (by simp), List.drop_left]

/-- The empty inner prefix is found where it is looked for. -/
theorem find_nil (a t : List Char) : StdString.find (a ++ t) [] a.length = some a.length := by
  rw [find_append]
  cases t <;> simp [findFirst]

theorem replace_append (a b t new : List Char) :
    StdString.replace (a ++ (b ++ t)) a.length b.length new = a ++ new ++ t := by
  rw [StdString.replace, List.take_left, ← List.drop_drop, List.drop_left, List.drop_left]

/-- One round: the field of the first prefix is replaced, and the search goes on
in front of the replacement. -/
theorem replaceAllLoop_field (fuel : Nat)
    (hPrefix : FirstAt p (kept ++ (p ++ (field ++ rest))) kept.length)
    (hSuffix : FirstAt q (field ++ rest) field.length) :
    replaceAllLoop p [] new q (fuel + 1) (a ++ (kept ++ (p ++ (field ++ rest)))) a.length =
      replaceAllLoop p [] new q fuel (a ++ (kept ++ p) ++ (new ++ rest))
        (a ++ (kept ++ p)).length := by
  have hOuter : StdString.find (a ++ (kept ++ (p ++ (field ++ rest)))) p a.length =
      some (a.length + kept.length) := by
    rw [find_append, findFirst_eq_some_iff.mpr hPrefix, Option.map_some]
  have hText : a ++ (kept ++ (p ++ (field ++ rest))) = a ++ (kept ++ p) ++ (field ++ rest) := by
    simp only [List.append_assoc]
  have hPos : a.length + kept.length + p.length = (a ++ (kept ++ p)).length := by
    simp only [List.length_append]
    omega
  rw [hText] at hOuter ⊢
  rw [replaceAllLoop, hOuter]
  simp only [hPos, find_nil, List.length_nil, Nat.add_zero]
  rw [find_append, findFirst_eq_some_iff.mpr hSuffix, Option.map_some]
  simp only [Nat.add_sub_cancel_left]
  rw [replace_append, List.append_assoc (a ++ (kept ++ p))]

/-- The last round finds no prefix, or no suffix behind it. -/
theorem replaceAllLoop_last (fuel : Nat)
    (hNone : ∀ k, FirstAt p t k → ∀ i, k + p.length ≤ i → ¬ Occurs q t i) (hP : p ≠ []) :
    replaceAllLoop p [] new q (fuel + 1) (a ++ t) a.length = some (a ++ t) := by
  rw [replaceAllLoop, find_append]
  rcases hPrefix : findFirst p t with _ | k
  · rfl
  · rw [findFirst_eq_some_iff] at hPrefix
    obtain ⟨before, after, rfl, rfl⟩ := hPrefix.split hP
    have hText : a ++ (before ++ (p ++ after)) = a ++ (before ++ p) ++ after := by
      simp only [List.append_assoc]
    have hPos : a.length + before.length + p.length = (a ++ (before ++ p)).length := by
      simp only [List.length_append]
      omega
    have hSuffix : findFirst q after = none := by
      rw [findFirst_eq_none_iff]
      intro i hOccurs
      exact hNone _ hPrefix _ (by omega) ((hOccurs.append_left p).append_left before)
    simp only [Option.map_some, hText, hPos, find_nil, List.length_nil, Nat.add_zero]
    rw [find_append, hSuffix]
    rfl

/-- **The loop refills the fields.** `w` is the replacement the search starts
in front of, and finds nothing in. -/
theorem replaceAllLoop_eq (hP : p ≠ []) (hFields : Fields p q s segs last)
    (hClear : Rests (NoPrefixIn p new) segs last) (fuel : Nat) (hFuel : s.length < fuel)
    (a w : List Char) (hW : NoPrefixIn p w s) :
    replaceAllLoop p [] new q fuel (a ++ (w ++ s)) a.length =
      some (a ++ (w ++ join (refill new segs) last)) := by
  induction hFields generalizing fuel a w with
  | @last s hNone =>
    obtain ⟨fuel, rfl⟩ := Nat.exists_eq_add_of_lt hFuel
    rw [refill_nil, join_nil]
    refine replaceAllLoop_last _ (fun k hFirst i hLe hOccurs => ?_) hP
    -- the first prefix is behind `w`, and so is a suffix after it
    have hShift := findFirst_append hW
    rw [findFirst_eq_some_iff.mpr hFirst] at hShift
    obtain ⟨k, hK, rfl⟩ := Option.map_eq_some_iff.mp hShift.symm
    obtain ⟨i, rfl⟩ := Nat.exists_eq_add_of_le (show w.length ≤ i by omega)
    exact hNone k (findFirst_eq_some_iff.mp hK) i (by omega) ((occurs_append w s).mp hOccurs)
  | @field kept field rest segs last hPrefix hSuffix hRest ih =>
    obtain ⟨fuel, rfl⟩ := Nat.exists_eq_succ_of_ne_zero (show fuel ≠ 0 by omega)
    have hShift := findFirst_append hW
    rw [findFirst_eq_some_iff.mpr hPrefix, Option.map_some, findFirst_eq_some_iff,
      ← List.length_append, ← List.append_assoc] at hShift
    rw [← List.append_assoc w, replaceAllLoop_field fuel hShift hSuffix]
    have hLength : rest.length < fuel := by
      have hPos := List.length_pos_of_ne_nil hP
      simp only [List.length_append] at hFuel
      omega
    rw [ih hClear.2 fuel hLength _ new (hRest.join_eq ▸ hClear.1), refill_cons, join_cons]
    simp only [List.append_assoc]

/-! ## The expression and the fields -/

/-- No character of the pattern means anything but itself. -/
def PlainPattern (pat : List Char) : Prop := ∀ c ∈ pat, c ∉ SYNTAX_CHARACTERS

instance (pat : List Char) : Decidable (PlainPattern pat) :=
  List.decidableBAll (fun c => c ∉ SYNTAX_CHARACTERS) pat

/-- Every prefix is followed by a suffix on its line. -/
def SuffixOnLine (p q s : List Char) : Prop :=
  ∀ k, Occurs p s k → ∃ i, k + p.length ≤ i ∧ Occurs q s i ∧
    ∀ m, k + p.length ≤ m → m < i → ∀ c, s[m]? = some c → isLineTerminator c = false

theorem parseRegex_cons {c : Char} (hPlain : c ∉ SYNTAX_CHARACTERS) (rest : List Char) :
    parseRegex (c :: rest) = (parseRegex rest).map (.character c :: ·) := by
  have hDot : c ≠ '.' := by
    rintro rfl
    exact hPlain (by decide)
  rw [parseRegex, if_neg hPlain]
  · exact fun _ hEq _ => hDot hEq
  · exact fun hEq => hDot hEq

theorem parseRegex_append {pat : List Char} (hPlain : PlainPattern pat) (rest : List Char) :
    parseRegex (pat ++ rest) = (parseRegex rest).map (pat.map .character ++ ·) := by
  induction pat with
  | nil => simp
  | cons c pat ih =>
    rw [List.cons_append, parseRegex_cons (hPlain c (by simp)),
      ih fun x hx => hPlain x (by simp [hx]), Option.map_map]
    rfl

/-- The expression of a field. -/
theorem parseRegex_field (hP : PlainPattern p) (hQ : PlainPattern q) :
    parseRegex (p ++ ['.', '*', '?'] ++ q) =
      some (p.map .character ++ .lazyAny :: q.map .character) := by
  have hEnd : parseRegex q = some (q.map .character) := by
    have hAll := parseRegex_append hQ []
    rwa [List.append_nil, parseRegex, Option.map_some, List.append_nil] at hAll
  rw [List.append_assoc, parseRegex_append hP]
  change ((parseRegex ('.' :: '*' :: '?' :: q)).map _) = _
  rw [parseRegex, hEnd]
  rfl

theorem matchItems_characters (pat : List Char) (items : List RegexItem) (t : List Char) :
    matchItems (pat.map .character ++ items) (pat ++ t) = matchItems items t := by
  induction pat with
  | nil => rfl
  | cons c pat ih =>
    rw [List.map_cons, List.cons_append, List.cons_append, matchItems, if_pos rfl, ih]

theorem matchItems_characters_none {pat : List Char} (items : List RegexItem) {t : List Char}
    (hNot : ¬ pat <+: t) : matchItems (pat.map .character ++ items) t = none := by
  induction pat generalizing t with
  | nil => exact absurd (List.nil_prefix) hNot
  | cons c pat ih =>
    rw [List.map_cons, List.cons_append]
    cases t with
    | nil => rfl
    | cons x t =>
      rw [matchItems]
      split_ifs with hEq
      · refine ih fun hPrefix => hNot ?_
        rw [hEq, List.prefix_cons_inj]
        exact hPrefix
      · rfl

/-- The lazy star stops in front of the first suffix. -/
theorem matchLazy_eq (hQ : FirstAt q (field ++ (q ++ t)) field.length)
    (hLine : ∀ c ∈ field, isLineTerminator c = false) :
    matchLazy (matchItems (q.map .character)) (field ++ (q ++ t)) = some t := by
  have hHere : ∀ t, matchItems (q.map .character) (q ++ t) = some t := by
    intro t
    have hAll := matchItems_characters q [] t
    rwa [List.append_nil, matchItems] at hAll
  have hStop : ∀ t, matchLazy (matchItems (q.map .character)) (q ++ t) = some t := by
    intro t
    rcases hText : q ++ t with _ | ⟨c, rest⟩
    · rw [matchLazy, ← hText, hHere]
    · rw [matchLazy, ← hText, hHere]
  induction field with
  | nil => exact hStop t
  | cons c field ih =>
    have hNot : ¬ q <+: c :: (field ++ (q ++ t)) := fun hPrefix =>
      hQ.2 0 (by simp) (occurs_zero.mpr hPrefix)
    have hNone := matchItems_characters_none [] hNot
    rw [List.append_nil] at hNone
    rw [List.cons_append, matchLazy, hNone, hLine c (by simp)]
    refine ih ⟨(occurs_succ c).mp hQ.1, fun j hj hOccurs => ?_⟩ fun x hx => hLine x (by simp [hx])
    exact hQ.2 (j + 1) (by simpa using hj) ((occurs_succ c).mpr hOccurs)

theorem regexReplace_skip (items : List RegexItem) (format u t : List Char) :
    regexReplace items format u.length (u ++ t) = regexReplace items format 0 t := by
  induction u with
  | nil => rfl
  | cons c u ih => rw [List.length_cons, List.cons_append, regexReplace, ih]

/-- Text in which the expression does not start is copied. -/
theorem regexReplace_append {items : List RegexItem} (format a t : List Char)
    (hNone : ∀ j < a.length, ¬ Occurs p (a ++ t) j) :
    regexReplace (p.map .character ++ items) format 0 (a ++ t) =
      a ++ regexReplace (p.map .character ++ items) format 0 t := by
  induction a with
  | nil => rfl
  | cons c a ih =>
    have hNot : ¬ p <+: c :: (a ++ t) := fun hPrefix =>
      hNone 0 (by simp) (occurs_zero.mpr hPrefix)
    rw [List.cons_append, regexReplace, matchItems_characters_none items hNot]
    refine congrArg (c :: ·) (ih fun j hj hOccurs => ?_)
    exact hNone (j + 1) (by simpa using hj) ((occurs_succ c).mpr hOccurs)

/-- A match is replaced, and the search goes on behind it. -/
theorem regexReplace_match (format : List Char) (hP : p ≠ [])
    (hQ : FirstAt q (field ++ (q ++ t)) field.length)
    (hLine : ∀ c ∈ field, isLineTerminator c = false) :
    regexReplace (p.map .character ++ .lazyAny :: q.map .character) format 0
        (p ++ (field ++ (q ++ t))) =
      format ++ regexReplace (p.map .character ++ .lazyAny :: q.map .character) format 0 t := by
  obtain ⟨c, rest, rfl⟩ := List.exists_cons_of_ne_nil hP
  have hMatch := matchItems_characters (c :: rest) (.lazyAny :: q.map .character)
    (field ++ (q ++ t))
  rw [matchItems, matchLazy_eq hQ hLine] at hMatch
  have hSkip := regexReplace_skip ((c :: rest).map .character ++ .lazyAny :: q.map .character)
    format (rest ++ (field ++ q)) t
  have hText : rest ++ (field ++ q) ++ t = rest ++ (field ++ (q ++ t)) := by
    simp only [List.append_assoc]
  have hLength : (rest ++ (field ++ (q ++ t))).length - t.length =
      (rest ++ (field ++ q)).length := by
    simp only [List.length_append]
    omega
  have hLe : ¬ (rest ++ (field ++ (q ++ t))).length < t.length := by
    simp only [List.length_append]
    omega
  rw [List.cons_append, regexReplace, ← List.cons_append, hMatch]
  simp only
  rw [if_neg hLe, hLength, ← hText, hSkip]

theorem SuffixOnLine.behind (hLine : SuffixOnLine p q (a ++ t)) : SuffixOnLine p q t := by
  intro k hOccurs
  obtain ⟨i, hLe, hQ, hText⟩ := hLine (a.length + k) (hOccurs.append_left a)
  obtain ⟨i, rfl⟩ := Nat.exists_eq_add_of_le (show a.length ≤ i by omega)
  refine ⟨i, by omega, (occurs_append a t).mp hQ, fun m hm hLt c hc => ?_⟩
  refine hText (a.length + m) (by omega) (by omega) c ?_
  rwa [List.getElem?_append_right (by omega), Nat.add_sub_cancel_left]

/-- The field of a prefix with a suffix on its line is on that line. -/
theorem SuffixOnLine.on_field (hLine : SuffixOnLine p q (kept ++ (p ++ (field ++ rest))))
    (hPrefix : FirstAt p (kept ++ (p ++ (field ++ rest))) kept.length)
    (hSuffix : FirstAt q (field ++ rest) field.length) :
    ∀ c ∈ field, isLineTerminator c = false := by
  intro c hc
  obtain ⟨i, hLe, hQ, hText⟩ := hLine kept.length hPrefix.1
  obtain ⟨i, rfl⟩ := Nat.exists_eq_add_of_le hLe
  rw [Nat.add_assoc, occurs_append, occurs_append] at hQ
  have hFirst : field.length ≤ i := by
    by_contra hLt
    exact hSuffix.2 i (by omega) hQ
  obtain ⟨m, hm, rfl⟩ := List.mem_iff_getElem.mp hc
  refine hText (kept.length + p.length + m) (by omega) (by omega) _ ?_
  rw [List.getElem?_append_right (by omega), List.getElem?_append_right (by omega),
    List.getElem?_append_left (by omega)]
  have hIndex : kept.length + p.length + m - kept.length - p.length = m := by omega
  rw [hIndex, List.getElem?_eq_getElem hm]

/-- **The expression refills the same fields**, where no prefix starts inside a
suffix and no field runs over a line. -/
theorem regexReplace_eq (hP : p ≠ []) (hFields : Fields p q s segs last)
    (hApart : Rests (SuffixClear p q) segs last) (hLine : SuffixOnLine p q s) :
    regexReplace (p.map .character ++ .lazyAny :: q.map .character) (p ++ new ++ q) 0 s =
      join (refill new segs) last := by
  induction hFields with
  | @last s hNone =>
    -- a prefix would have a suffix
    have hNowhere : ∀ j, ¬ Occurs p s j := by
      intro j hOccurs
      rcases hFirst : findFirst p s with _ | k
      · exact findFirst_eq_none_iff.mp hFirst j hOccurs
      · rw [findFirst_eq_some_iff] at hFirst
        obtain ⟨i, hLe, hQ, -⟩ := hLine k hFirst.1
        exact hNone k hFirst i hLe hQ
    have hCopied : regexReplace (p.map .character ++ .lazyAny :: q.map .character)
        (p ++ new ++ q) 0 (s ++ []) = s ++ regexReplace
          (p.map .character ++ .lazyAny :: q.map .character) (p ++ new ++ q) 0 [] := by
      refine regexReplace_append _ s [] fun j _ => ?_
      rw [List.append_nil]
      exact hNowhere j
    rwa [List.append_nil, regexReplace, List.append_nil] at hCopied
  | @field kept field rest segs last hPrefix hSuffix hRest ih =>
    obtain ⟨tail, rfl⟩ := (occurs_append_length field rest).mp hSuffix.1
    have hClear : SuffixClear p q (q ++ tail) := hRest.join_eq ▸ hApart.1
    have hBehind := ih hApart.2 (hLine.behind (a := kept)).behind.behind
    rw [regexReplace_append _ q tail hClear] at hBehind
    rw [regexReplace_append _ kept _ hPrefix.2,
      regexReplace_match _ hP hSuffix (hLine.on_field hPrefix hSuffix), refill_cons, join_cons,
      ← hBehind]
    simp only [List.append_assoc]

/-! ## The two versions -/

/-- The replacement brings no prefix, in itself or across its right border. -/
def NoNewPrefix (p q new s : List Char) : Prop :=
  ∀ i, EndsField p q s i → NoPrefixIn p new (s.drop i)

/-- The replacement and a suffix behind it hold no suffix but that one. -/
def NoNewSuffix (q new : List Char) : Prop := ∀ j < new.length, ¬ Occurs q (new ++ q) j

/-- No prefix starts inside the suffix that ends a field. -/
def PrefixesApart (p q s : List Char) : Prop :=
  ∀ i, EndsField p q s i → SuffixClear p q (s.drop i)

/-- **Rewriting fields.** The loop ends, and refills the fields of the text;
done again it changes nothing; and the regular expression does the same. -/
theorem replaceAll_eq (hP : p ≠ []) (hQ : q ≠ []) (hNew : NoNewPrefix p q new s) :
    ∃ result,
      (∀ fuel, s.length < fuel → replaceAllLoop p [] new q fuel s 0 = some result) ∧
      (∃ segs last, Fields p q s segs last ∧ join segs last = s ∧
        join (refill new segs) last = result) ∧
      (NoNewSuffix q new → PrefixesApart p q s →
        ∀ fuel, result.length < fuel → replaceAllLoop p [] new q fuel result 0 = some result) ∧
      (PlainPattern p → PlainPattern q → '$' ∉ new → PrefixesApart p q s → SuffixOnLine p q s →
        modifySdpField s p new q = some result) := by
  obtain ⟨segs, last, hFields⟩ := exists_fields hP hQ s
  have hClear := hFields.rests hNew
  have hNothing : ∀ t, NoPrefixIn p [] t := fun t j hj => absurd hj (Nat.not_lt_zero j)
  refine ⟨join (refill new segs) last, fun fuel hFuel => ?_, ⟨segs, last, hFields,
    hFields.join_eq, rfl⟩, fun hSuffix hApart fuel hFuel => ?_,
    fun hPlainP hPlainQ hDollar hApart hLine => ?_⟩
  · exact replaceAllLoop_eq hP hFields hClear fuel hFuel [] [] (hNothing s)
  · have hAgain := replaceAllLoop_eq hP (hFields.refill (hFields.rests hApart) hSuffix)
      (rests_refill hFields hClear) fuel hFuel [] [] (hNothing _)
    rwa [refill_refill] at hAgain
  · have hFormat : '$' ∉ p ++ new ++ q := by
      simp only [List.mem_append, not_or]
      exact ⟨⟨fun hMem => hPlainP _ hMem (by decide), hDollar⟩,
        fun hMem => hPlainQ _ hMem (by decide)⟩
    rw [modifySdpField, parseRegex_field hPlainP hPlainQ]
    simp only
    rw [if_neg hFormat, regexReplace_eq hP hFields (hFields.rests hApart) hLine]

end

/-! ## Conditions on the first characters -/

section

variable {c d : Char} {p q new s : List Char}

theorem noNewPrefix_of_notMem (hNew : c ∉ new) : NoNewPrefix (c :: p) q new s :=
  fun _ _ => noPrefixIn_of_notMem hNew _

theorem prefixesApart_singleton (hNe : c ≠ d) : PrefixesApart (c :: p) [d] s := by
  rintro i ⟨-, -, -, hSuffix, -⟩
  refine suffixClear_singleton hNe ?_
  rwa [occurs_drop, Nat.add_zero]

theorem noNewSuffix_singleton (hNew : d ∉ new) : NoNewSuffix [d] new :=
  noPrefixIn_of_notMem hNew [d]

/-- A check of the text's own positions. -/
theorem suffixOnLine_of_positions (hP : p ≠ [])
    (hText : ∀ k < s.length, Occurs p s k → ∃ i < s.length, k + p.length ≤ i ∧ Occurs q s i ∧
      ∀ m < i, k + p.length ≤ m → s[m]?.all (fun c => !isLineTerminator c)) :
    SuffixOnLine p q s := by
  intro k hOccurs
  have hPos := List.length_pos_of_ne_nil hP
  have hLength := hOccurs.le_length hP
  obtain ⟨i, -, hLe, hQ, hLine⟩ := hText k (by omega) hOccurs
  refine ⟨i, hLe, hQ, fun m hm hLt c hc => ?_⟩
  have hChecked := hLine m hLt hm
  rw [hc] at hChecked
  simpa using hChecked

end

/-- A description of two media. -/
def twoAddresses : List Char := "c=IN IP4 1.2/3\nc=IN IP4 4/5".toList

/-- Both connection addresses of a description, done once by either version and
twice by the loop. -/
theorem replaceAll_eq_address :
    ∃ result,
      replaceAll twoAddresses "c=IN IP4 ".toList "9.9".toList "/".toList = some result ∧
      modifySdpField twoAddresses "c=IN IP4 ".toList "9.9".toList "/".toList = some result ∧
      replaceAll result "c=IN IP4 ".toList "9.9".toList "/".toList = some result := by
  have hApart : PrefixesApart "c=IN IP4 ".toList "/".toList twoAddresses :=
    prefixesApart_singleton (by decide)
  have hLine : SuffixOnLine "c=IN IP4 ".toList "/".toList twoAddresses :=
    suffixOnLine_of_positions (by decide) (by decide +kernel)
  have hNew : NoNewPrefix "c=IN IP4 ".toList "/".toList "9.9".toList twoAddresses :=
    noNewPrefix_of_notMem (by decide)
  obtain ⟨result, hLoop, -, hAgain, hSame⟩ := replaceAll_eq (by decide) (by decide) hNew
  exact ⟨result, hLoop _ (Nat.lt_succ_self _),
    hSame (by decide) (by decide) (by decide) hApart hLine,
    hAgain (noNewSuffix_singleton (by decide)) hApart _ (Nat.lt_succ_self _)⟩

/-- Both fields are done. -/
example : replaceAll twoAddresses "c=IN IP4 ".toList "9.9".toList "/".toList =
    some "c=IN IP4 9.9/3\nc=IN IP4 9.9/5".toList := by decide +kernel

/-- **What the replacement alone does not rule out.** A suffix of two
characters across the border makes the loop grow the text again; a prefix
inside a suffix is a field to the loop and not to the expression; and the
characters of a prefix may mean others to the expression. -/
theorem not_replaceAll_eq :
    (NoNewPrefix "P".toList "//".toList "x/".toList "Pa//b".toList ∧
      ¬ "//".toList <:+: "x/".toList ∧
      replaceAll "Pa//b".toList "P".toList "x/".toList "//".toList = some "Px///b".toList ∧
      replaceAll "Px///b".toList "P".toList "x/".toList "//".toList = some "Px////b".toList) ∧
    (NoNewPrefix "b=".toList " b".toList "x".toList "b=1 b=2 b".toList ∧
      ¬ " b".toList <:+: "x".toList ∧
      SuffixOnLine "b=".toList " b".toList "b=1 b=2 b".toList ∧
      replaceAll "b=1 b=2 b".toList "b=".toList "x".toList " b".toList =
        some "b=x b=x b".toList ∧
      modifySdpField "b=1 b=2 b".toList "b=".toList "x".toList " b".toList =
        some "b=x b=2 b".toList) ∧
    (NoNewPrefix "a.b".toList "/".toList "z".toList "axb1/".toList ∧
      ¬ "/".toList <:+: "z".toList ∧ SuffixOnLine "a.b".toList "/".toList "axb1/".toList ∧
      replaceAll "axb1/".toList "a.b".toList "z".toList "/".toList = some "axb1/".toList ∧
      modifySdpField "axb1/".toList "a.b".toList "z".toList "/".toList =
        some "a.bz/".toList) := by
  refine ⟨⟨noNewPrefix_of_notMem (by decide), by decide, by decide, by decide⟩,
    ⟨noNewPrefix_of_notMem (by decide), by decide,
      suffixOnLine_of_positions (by decide) (by decide), by decide, by decide⟩,
    ⟨noNewPrefix_of_notMem (by decide), by decide,
      suffixOnLine_of_positions (by decide) (by decide), by decide, by decide⟩⟩

end RivermaxDevKit
