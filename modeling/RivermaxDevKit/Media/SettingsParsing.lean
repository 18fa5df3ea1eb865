import Mathlib.Data.List.TakeWhile
import RivermaxDevKit.Media.Settings

/-!
# Parsing of media settings

The string constructors of `FrameRate` and `Resolution` (`media_defs.h`), their
string forms, and the two validators of `validators.cpp` that run the
constructors on a command line argument.

A `std::string` is the list of its characters. `std::stoi` is modelled whole,
blanks and signs included; the constructors only call it on digits, of which
there may be none. A field is sixteen bits wide and `std::stoi` returns an
`int`, so the cast between the two can lose the upper half.

* `stoi_eq_ok_iff` — what `std::stoi` answers on digits.
* `FrameRate.ofString_eq_ok_iff`, `Resolution.ofString_eq_ok_iff` — the texts
  the constructors accept, and the fields they build.
* `FrameRate.ofString_toChars`, `Resolution.ofString_toChars` — a printed value
  is read back.
-/

namespace RivermaxDevKit

/-! ## Conversions of the standard library -/

/-- The two exceptions `std::stoi` throws. -/
inductive StdException
  | invalidArgument (what : String)
  | outOfRange (what : String)
  deriving DecidableEq, Repr

def INT_MAX : Int := 2147483647
def INT_MIN : Int := -2147483648

/-- `std::isspace` in the classic locale. -/
def isSpace (c : Char) : Bool := c = ' ' ∨ '\t' ≤ c ∧ c ≤ '\r'

/-- The sign in front of a number, and what follows it. -/
def signOf : List Char → Int × List Char
  | '-' :: digits => (-1, digits)
  | '+' :: digits => (1, digits)
  | digits => (1, digits)

/-- `std::stoi`. What follows the digits is not read. -/
def stoi (str : List Char) : Except StdException Int :=
  let (sign, rest) := signOf (str.dropWhile isSpace)
  let digits := rest.takeWhile Char.isDigit
  let value := sign * Nat.ofDigitChars 10 digits 0
  if digits = [] then .error (.invalidArgument "stoi")
  else if value < INT_MIN ∨ INT_MAX < value then .error (.outOfRange "stoi")
  else .ok value

/-- `std::to_string` of a field. -/
def toDecimal (value : UInt16) : List Char := Nat.toDigits 10 value.toNat

/-! ## Constructors -/

/-- The `is_number` both constructors declare: no character that is not a
digit, so the empty string passes. -/
def isNumber (str : List Char) : Bool := str.all Char.isDigit

/-- The branch of a constructor that has found its separator: both parts are
numbers and become the fields, or the format is refused. -/
def numbersAround (str : List Char) (position : Nat) (format : String) :
    Except StdException (UInt16 × UInt16) :=
  let first := str.take position
  let second := str.drop (position + 1)
  if isNumber first ∧ isNumber second then do
    let a ← stoi first
    let b ← stoi second
    return (UInt16.ofInt a, UInt16.ofInt b)
  else .error (.invalidArgument format)

def FrameRate.format : String :=
  "Invalid frame rate format. Expected <numerator>/<denominator> or <integer>"

def Resolution.format : String := "Invalid resolution format. Expected <width>x<height>"

/-- `FrameRate(const std::string& frame_rate)`. -/
def FrameRate.ofString (frameRate : List Char) : Except StdException FrameRate :=
  match frameRate.findIdx? (· = '/') with
  | some slashPosition => do
    let (num, denom) ← numbersAround frameRate slashPosition FrameRate.format
    return { num, denom }
  | none =>
    if isNumber frameRate then do
      let num ← stoi frameRate
      return { num := UInt16.ofInt num, denom := 1 }
    else .error (.invalidArgument FrameRate.format)

/-- `Resolution(const std::string& resolution)`. -/
def Resolution.ofString (resolution : List Char) : Except StdException Resolution :=
  match resolution.findIdx? (· = 'x') with
  | some xPosition => do
    let (width, height) ← numbersAround resolution xPosition Resolution.format
    return { width, height }
  | none => .error (.invalidArgument Resolution.format)

/-- `FrameRate::operator std::string`. -/
def FrameRate.toChars (rate : FrameRate) : List Char :=
  if rate.denom = 1 then toDecimal rate.num
  else toDecimal rate.num ++ '/' :: toDecimal rate.denom

/-- `Resolution::operator std::string`. -/
def Resolution.toChars (resolution : Resolution) : List Char :=
  toDecimal resolution.width ++ 'x' :: toDecimal resolution.height

/-! ## Validators -/

/-- `VideoResolutionValidator`: an empty text accepts the argument. -/
def videoResolutionText (resolutionStr : List Char) : String :=
  match Resolution.ofString resolutionStr with
  | .ok resolution =>
    if resolution.width = 0 ∨ resolution.height = 0 then
      "Video resolution width and height must be positive integers."
    else ""
  | .error _ => "Invalid video resolution format. Expected <width>x<height>"

/-- `VideoFrameRateValidator`. -/
def videoFrameRateText (frameRateStr : List Char) : String :=
  match FrameRate.ofString frameRateStr with
  | .ok rate =>
    if rate.num = 0 ∨ rate.denom = 0 then
      "Video frame rate numerator and denominator must be positive integers."
    else ""
  | .error _ => "Invalid video frame rate format. Expected <numerator>/<denominator> or <integer>"

/-! ## The texts of the format -/

/-- `str` is a decimal integer, and `n` is the integer. -/
def Decimal (str : List Char) (n : Nat) : Prop :=
  str ≠ [] ∧ (∀ c ∈ str, c.isDigit) ∧ Nat.ofDigitChars 10 str 0 = n

/-- Two decimal integers joined by one separator. -/
def Joined (separator : Char) (str : List Char) (m n : Nat) : Prop :=
  ∃ a b, str = a ++ separator :: b ∧ Decimal a m ∧ Decimal b n

/-- The frame rates `<numerator>/<denominator>` and `<integer>`. -/
def SpellsRate (str : List Char) (num denom : Nat) : Prop :=
  Joined '/' str num denom ∨ Decimal str num ∧ denom = 1

/-- The resolutions `<width>x<height>`. -/
def SpellsResolution (str : List Char) (width height : Nat) : Prop :=
  Joined 'x' str width height

/-- The spelled numbers fit an `int`, and one of them does not fit its field. -/
def Narrowed (spells : List Char → Nat → Nat → Prop) (str : List Char) : Prop :=
  ∃ m n, spells str m n ∧ m < 2 ^ 31 ∧ n < 2 ^ 31 ∧ ¬(m < 2 ^ 16 ∧ n < 2 ^ 16)

/-- **Exact parsing of one text.** The constructor accepts what the format
spells in the fields' width, with the fields spelled; it throws on anything
else, which the validator then refuses; and an accepted value survives being
printed. -/
structure ParsesExactly {α : Type} (parse : List Char → Except StdException α)
    (print : α → List Char) (validate : List Char → String)
    (spells : List Char → Nat → Nat → Prop) (fields : α → UInt16 × UInt16)
    (str : List Char) : Prop where
  accepts : ∀ v, parse str = .ok v ↔ spells str (fields v).1.toNat (fields v).2.toNat
  rejects : (¬ ∃ v, spells str (fields v).1.toNat (fields v).2.toNat) →
    (∃ e, parse str = .error e) ∧ validate str ≠ ""
  roundTrip : ∀ v, parse str = .ok v → parse (print v) = .ok v

def FrameRate.fields (rate : FrameRate) : UInt16 × UInt16 := (rate.num, rate.denom)

def Resolution.fields (resolution : Resolution) : UInt16 × UInt16 :=
  (resolution.width, resolution.height)

/-- `ParsesExactly` of `FrameRate`. -/
def FrameRate.ParsesExactly (str : List Char) : Prop :=
  RivermaxDevKit.ParsesExactly FrameRate.ofString FrameRate.toChars videoFrameRateText SpellsRate
    FrameRate.fields str

/-- `ParsesExactly` of `Resolution`. -/
def Resolution.ParsesExactly (str : List Char) : Prop :=
  RivermaxDevKit.ParsesExactly Resolution.ofString Resolution.toChars videoResolutionText
    SpellsResolution Resolution.fields str

/-! ## Digits -/

theorem isSpace_of_isDigit {c : Char} (hDigit : c.isDigit) : isSpace c = false := by
  simp only [Char.isDigit, Bool.and_eq_true, decide_eq_true_eq] at hDigit
  simp only [isSpace, Char.le_def, decide_eq_false_iff_not, not_or, not_and]
  refine ⟨?_, ?_⟩
  · rintro rfl
    exact absurd hDigit.1 (by decide)
  · intro _ hLe
    exact absurd (UInt32.le_trans hDigit.1 hLe) (by decide)

theorem signOf_of_isDigit {str : List Char} (hDigits : ∀ c ∈ str, c.isDigit) :
    signOf str = (1, str) := by
  rcases str with _ | ⟨c, rest⟩
  · rfl
  · have hDigit := hDigits c (by simp)
    unfold signOf
    split
    · rename_i heq
      obtain ⟨rfl, -⟩ := List.cons.inj heq
      exact absurd hDigit (by decide)
    · rename_i heq
      obtain ⟨rfl, -⟩ := List.cons.inj heq
      exact absurd hDigit (by decide)
    · rfl

/-- On digits `std::stoi` reads the whole text; only an empty one and one that
does not fit an `int` make it throw. -/
theorem stoi_of_isDigit {str : List Char} (hDigits : ∀ c ∈ str, c.isDigit) :
    stoi str =
      if str = [] then .error (.invalidArgument "stoi")
      else if INT_MAX < Nat.ofDigitChars 10 str 0 then .error (.outOfRange "stoi")
      else .ok (Nat.ofDigitChars 10 str 0 : Nat) := by
  have hDrop : str.dropWhile isSpace = str := by
    rcases str with _ | ⟨c, rest⟩
    · rfl
    · rw [List.dropWhile_cons_of_neg (by simp [isSpace_of_isDigit (hDigits c (by simp))])]
  have hTake : str.takeWhile Char.isDigit = str := List.takeWhile_eq_self_iff.mpr hDigits
  have hMin : ¬ ((Nat.ofDigitChars 10 str 0 : Nat) : Int) < INT_MIN := by
    simp only [INT_MIN]
    omega
  simp only [stoi, hDrop, signOf_of_isDigit hDigits, hTake, one_mul, hMin, false_or]

theorem stoi_eq_ok_iff {str : List Char} (hDigits : ∀ c ∈ str, c.isDigit) {value : Int} :
    stoi str = .ok value ↔ ∃ n, Decimal str n ∧ n < 2 ^ 31 ∧ value = n := by
  rw [stoi_of_isDigit hDigits]
  constructor
  · intro hOk
    split_ifs at hOk with hEmpty hRange
    refine ⟨Nat.ofDigitChars 10 str 0, ⟨hEmpty, hDigits, rfl⟩, ?_, ?_⟩
    · simp only [INT_MAX] at hRange
      omega
    · exact (Except.ok.inj hOk).symm
  · rintro ⟨n, ⟨hEmpty, -, rfl⟩, hBound, rfl⟩
    rw [if_neg hEmpty, if_neg (by simp only [INT_MAX]; omega)]

/-- The cast of a number that is not negative keeps its lower sixteen bits. -/
theorem ofInt_natCast (n : Nat) : UInt16.ofInt n = UInt16.ofNat n := by
  rw [← UInt16.toNat_inj, UInt16.ofInt, UInt16.toNat_ofNat', UInt16.toNat_ofNat']
  omega

theorem isNumber_iff {str : List Char} : isNumber str ↔ ∀ c ∈ str, c.isDigit := by
  simp [isNumber]

theorem decimal_toDecimal (value : UInt16) : Decimal (toDecimal value) value.toNat :=
  ⟨Nat.toDigits_ne_nil, fun _ hMem => Nat.isDigit_of_mem_toDigits (by omega) (by omega) hMem,
    Nat.ofDigitChars_ten_toDigits⟩

theorem Decimal.unique {str : List Char} {m n : Nat} (hM : Decimal str m) (hN : Decimal str n) :
    m = n := hM.2.2.symm.trans hN.2.2

theorem Decimal.notMem {str : List Char} {n : Nat} (hDecimal : Decimal str n) {c : Char}
    (hNot : ¬ c.isDigit) : c ∉ str :=
  fun hMem => hNot (hDecimal.2.1 c hMem)

/-! ## Around the separator -/

theorem findIdx?_append_cons {separator : Char} {a b : List Char} (hNot : separator ∉ a) :
    (a ++ separator :: b).findIdx? (· = separator) = some a.length := by
  have hFirst : a.findIdx? (· = separator) = none := by
    rw [List.findIdx?_eq_none_iff]
    intro c hMem
    simpa using fun hEq : c = separator => hNot (hEq ▸ hMem)
  rw [List.findIdx?_append, hFirst, List.findIdx?_cons]
  simp

theorem findIdx?_of_notMem {separator : Char} {str : List Char} (hNot : separator ∉ str) :
    str.findIdx? (· = separator) = none := by
  rw [List.findIdx?_eq_none_iff]
  intro c hMem
  simpa using fun hEq : c = separator => hNot (hEq ▸ hMem)

theorem Joined.separator_mem {separator : Char} {str : List Char} {m n : Nat}
    (hJoined : Joined separator str m n) : separator ∈ str := by
  obtain ⟨a, b, rfl, -⟩ := hJoined
  simp

/-- The first separator of the text is the one that joins. -/
theorem Joined.parts {separator : Char} {a b : List Char} {m n : Nat}
    (hJoined : Joined separator (a ++ separator :: b) m n) (hNot : separator ∉ a)
    (hSep : ¬ separator.isDigit) : Decimal a m ∧ Decimal b n := by
  obtain ⟨a', b', hEq, hA, hB⟩ := hJoined
  have hIdx := findIdx?_append_cons (b := b) hNot
  rw [hEq, findIdx?_append_cons (hA.notMem hSep)] at hIdx
  obtain ⟨rfl, hRight⟩ := List.append_inj hEq (Option.some.inj hIdx).symm
  obtain ⟨-, rfl⟩ := List.cons.inj hRight
  exact ⟨hA, hB⟩

theorem Joined.unique {separator : Char} (hSep : ¬ separator.isDigit) {str : List Char}
    {m n m' n' : Nat} (hJoined : Joined separator str m n)
    (hJoined' : Joined separator str m' n') : m = m' ∧ n = n' := by
  obtain ⟨a, b, rfl, hA, hB⟩ := hJoined
  obtain ⟨hA', hB'⟩ := hJoined'.parts (hA.notMem hSep) hSep
  exact ⟨hA.unique hA', hB.unique hB'⟩

theorem numbersAround_eq_ok_iff {separator : Char} {a b : List Char} {format : String}
    {x y : UInt16} :
    numbersAround (a ++ separator :: b) a.length format = .ok (x, y) ↔
      ∃ m n, Decimal a m ∧ Decimal b n ∧ m < 2 ^ 31 ∧ n < 2 ^ 31 ∧
        x = UInt16.ofNat m ∧ y = UInt16.ofNat n := by
  have hDrop : (a ++ separator :: b).drop (a.length + 1) = b := by
    rw [← List.drop_drop, List.drop_left]
    rfl
  simp only [numbersAround, List.take_left, hDrop]
  by_cases hNumbers : isNumber a ∧ isNumber b
  · have hA := isNumber_iff.mp hNumbers.1
    have hB := isNumber_iff.mp hNumbers.2
    rw [if_pos hNumbers]
    constructor
    · intro hOk
      obtain ⟨u, hU, hOk⟩ := bind_eq_ok hOk
      obtain ⟨v, hV, hOk⟩ := bind_eq_ok hOk
      obtain ⟨m, hM, hMBound, rfl⟩ := (stoi_eq_ok_iff hA).mp hU
      obtain ⟨n, hN, hNBound, rfl⟩ := (stoi_eq_ok_iff hB).mp hV
      obtain ⟨rfl, rfl⟩ := Prod.mk.inj (Except.ok.inj hOk)
      exact ⟨m, n, hM, hN, hMBound, hNBound, ofInt_natCast m, ofInt_natCast n⟩
    · rintro ⟨m, n, hM, hN, hMBound, hNBound, rfl, rfl⟩
      rw [(stoi_eq_ok_iff hA).mpr ⟨m, hM, hMBound, rfl⟩,
        (stoi_eq_ok_iff hB).mpr ⟨n, hN, hNBound, rfl⟩]
      exact congrArg Except.ok (Prod.ext (ofInt_natCast m) (ofInt_natCast n))
  · rw [if_neg hNumbers]
    constructor
    · intro hOk
      cases hOk
    · rintro ⟨m, n, hM, hN, -⟩
      exact absurd ⟨isNumber_iff.mpr hM.2.1, isNumber_iff.mpr hN.2.1⟩ hNumbers

/-! ## The constructors -/

/-- **Accepted frame rates.** The spelled numbers fit an `int`; the fields are
what is left of them. -/
theorem FrameRate.ofString_eq_ok_iff {str : List Char} {rate : FrameRate} :
    FrameRate.ofString str = .ok rate ↔
      ∃ m n, SpellsRate str m n ∧ m < 2 ^ 31 ∧ n < 2 ^ 31 ∧
        rate = { num := UInt16.ofNat m, denom := UInt16.ofNat n } := by
  by_cases hSlash : '/' ∈ str
  · obtain ⟨a, b, rfl, hNot⟩ := List.eq_append_cons_of_mem hSlash
    have hRead : FrameRate.ofString (a ++ '/' :: b) = do
        let (num, denom) ← numbersAround (a ++ '/' :: b) a.length FrameRate.format
        return { num, denom } := by
      rw [FrameRate.ofString, findIdx?_append_cons hNot]
    rw [hRead]
    constructor
    · intro hOk
      obtain ⟨⟨x, y⟩, hNumbers, hOk⟩ := bind_eq_ok hOk
      obtain ⟨m, n, hM, hN, hMBound, hNBound, rfl, rfl⟩ := numbersAround_eq_ok_iff.mp hNumbers
      exact ⟨m, n, .inl ⟨a, b, rfl, hM, hN⟩, hMBound, hNBound, (Except.ok.inj hOk).symm⟩
    · rintro ⟨m, n, hJoined | ⟨hWhole, -⟩, hMBound, hNBound, rfl⟩
      · obtain ⟨hM, hN⟩ := hJoined.parts hNot (by decide)
        rw [numbersAround_eq_ok_iff.mpr ⟨m, n, hM, hN, hMBound, hNBound, rfl, rfl⟩]
        rfl
      · exact absurd hSlash (hWhole.notMem (by decide))
  · have hRead : FrameRate.ofString str =
        if isNumber str then do
          let num ← stoi str
          return { num := UInt16.ofInt num, denom := 1 }
        else .error (.invalidArgument FrameRate.format) := by
      rw [FrameRate.ofString, findIdx?_of_notMem hSlash]
    rw [hRead]
    constructor
    · intro hOk
      split_ifs at hOk with hNumber
      obtain ⟨value, hValue, hOk⟩ := bind_eq_ok hOk
      obtain ⟨m, hM, hMBound, rfl⟩ := (stoi_eq_ok_iff (isNumber_iff.mp hNumber)).mp hValue
      refine ⟨m, 1, .inr ⟨hM, rfl⟩, hMBound, by omega, ?_⟩
      rw [← Except.ok.inj hOk, ofInt_natCast]
      rfl
    · rintro ⟨m, n, hJoined | ⟨hWhole, rfl⟩, hMBound, -, rfl⟩
      · exact absurd hJoined.separator_mem hSlash
      · rw [if_pos (isNumber_iff.mpr hWhole.2.1),
          (stoi_eq_ok_iff hWhole.2.1).mpr ⟨m, hWhole, hMBound, rfl⟩, ← ofInt_natCast m]
        rfl

/-- **Accepted resolutions.** -/
theorem Resolution.ofString_eq_ok_iff {str : List Char} {resolution : Resolution} :
    Resolution.ofString str = .ok resolution ↔
      ∃ m n, SpellsResolution str m n ∧ m < 2 ^ 31 ∧ n < 2 ^ 31 ∧
        resolution = { width := UInt16.ofNat m, height := UInt16.ofNat n } := by
  by_cases hX : 'x' ∈ str
  · obtain ⟨a, b, rfl, hNot⟩ := List.eq_append_cons_of_mem hX
    have hRead : Resolution.ofString (a ++ 'x' :: b) = do
        let (width, height) ← numbersAround (a ++ 'x' :: b) a.length Resolution.format
        return { width, height } := by
      rw [Resolution.ofString, findIdx?_append_cons hNot]
    rw [hRead]
    constructor
    · intro hOk
      obtain ⟨⟨x, y⟩, hNumbers, hOk⟩ := bind_eq_ok hOk
      obtain ⟨m, n, hM, hN, hMBound, hNBound, rfl, rfl⟩ := numbersAround_eq_ok_iff.mp hNumbers
      exact ⟨m, n, ⟨a, b, rfl, hM, hN⟩, hMBound, hNBound, (Except.ok.inj hOk).symm⟩
    · rintro ⟨m, n, hJoined, hMBound, hNBound, rfl⟩
      obtain ⟨hM, hN⟩ := hJoined.parts hNot (by decide)
      rw [numbersAround_eq_ok_iff.mpr ⟨m, n, hM, hN, hMBound, hNBound, rfl, rfl⟩]
      rfl
  · have hRead : Resolution.ofString str = .error (.invalidArgument Resolution.format) := by
      rw [Resolution.ofString, findIdx?_of_notMem hX]
    rw [hRead]
    constructor
    · intro hOk
      cases hOk
    · rintro ⟨m, n, hJoined, -⟩
      exact absurd hJoined.separator_mem hX

theorem SpellsRate.unique {str : List Char} {m n m' n' : Nat} (hSpells : SpellsRate str m n)
    (hSpells' : SpellsRate str m' n') : m = m' ∧ n = n' := by
  rcases hSpells with hJoined | ⟨hWhole, rfl⟩ <;> rcases hSpells' with hJoined' | ⟨hWhole', rfl⟩
  · exact hJoined.unique (by decide) hJoined'
  · exact absurd hJoined.separator_mem (hWhole'.notMem (by decide))
  · exact absurd hJoined'.separator_mem (hWhole.notMem (by decide))
  · exact ⟨hWhole.unique hWhole', rfl⟩

/-! ## Printed values -/

theorem FrameRate.spells_toChars (rate : FrameRate) :
    SpellsRate rate.toChars rate.num.toNat rate.denom.toNat := by
  unfold FrameRate.toChars
  split_ifs with hWhole
  · exact .inr ⟨decimal_toDecimal rate.num, by rw [hWhole]; rfl⟩
  · exact .inl ⟨_, _, rfl, decimal_toDecimal rate.num, decimal_toDecimal rate.denom⟩

theorem Resolution.spells_toChars (resolution : Resolution) :
    SpellsResolution resolution.toChars resolution.width.toNat resolution.height.toNat :=
  ⟨_, _, rfl, decimal_toDecimal resolution.width, decimal_toDecimal resolution.height⟩

theorem toNat_lt_int (value : UInt16) : value.toNat < 2 ^ 31 :=
  value.toNat_lt.trans (by decide)

/-- **Round trip of a frame rate.** Every value, `0/0` among them. -/
theorem FrameRate.ofString_toChars (rate : FrameRate) :
    FrameRate.ofString rate.toChars = .ok rate := by
  refine FrameRate.ofString_eq_ok_iff.mpr
    ⟨_, _, rate.spells_toChars, toNat_lt_int _, toNat_lt_int _, ?_⟩
  rw [UInt16.ofNat_toNat, UInt16.ofNat_toNat]

/-- **Round trip of a resolution.** -/
theorem Resolution.ofString_toChars (resolution : Resolution) :
    Resolution.ofString resolution.toChars = .ok resolution := by
  refine Resolution.ofString_eq_ok_iff.mpr
    ⟨_, _, resolution.spells_toChars, toNat_lt_int _, toNat_lt_int _, ?_⟩
  rw [UInt16.ofNat_toNat, UInt16.ofNat_toNat]

/-! ## Validators -/

/-- The validator passes what the constructor builds with no zero field. -/
theorem videoFrameRateText_eq_empty_iff (str : List Char) :
    videoFrameRateText str = "" ↔
      ∃ rate, FrameRate.ofString str = .ok rate ∧ videoFrameRateValidator rate := by
  unfold videoFrameRateText videoFrameRateValidator
  rcases hParse : FrameRate.ofString str with e | rate
  · simp
  · by_cases hZero : rate.num = 0 ∨ rate.denom = 0
    · simp [hZero]
      tauto
    · push Not at hZero
      simp [hZero]

theorem videoResolutionText_eq_empty_iff (str : List Char) :
    videoResolutionText str = "" ↔
      ∃ resolution, Resolution.ofString str = .ok resolution ∧
        resolution.width ≠ 0 ∧ resolution.height ≠ 0 := by
  unfold videoResolutionText
  rcases hParse : Resolution.ofString str with e | resolution
  · simp
  · by_cases hZero : resolution.width = 0 ∨ resolution.height = 0
    · simp [hZero]
      tauto
    · push Not at hZero
      simp [hZero]

/-! ## Exact parsing -/

section

variable {α : Type} {parse : List Char → Except StdException α} {print : α → List Char}
  {validate : List Char → String} {spells : List Char → Nat → Nat → Prop}
  {fields : α → UInt16 × UInt16}

/-- A constructor that keeps the lower half of numbers that fit an `int` is
exact on a text unless the upper half of a number of it is lost. -/
theorem parsesExactly_iff (make : UInt16 → UInt16 → α)
    (hFields : ∀ x y, fields (make x y) = (x, y))
    (hMake : ∀ v, make (fields v).1 (fields v).2 = v)
    (hParse : ∀ str v, parse str = .ok v ↔ ∃ m n, spells str m n ∧ m < 2 ^ 31 ∧ n < 2 ^ 31 ∧
      v = make (UInt16.ofNat m) (UInt16.ofNat n))
    (hUnique : ∀ str m n m' n', spells str m n → spells str m' n' → m = m' ∧ n = n')
    (hPrint : ∀ v, parse (print v) = .ok v)
    (hValidate : ∀ str e, parse str = .error e → validate str ≠ "") (str : List Char) :
    ParsesExactly parse print validate spells fields str ↔ ¬ Narrowed spells str := by
  constructor
  · rintro hExact ⟨m, n, hSpells, hM, hN, hWide⟩
    -- the narrowed value is accepted, so it is spelled: the fields hold `m` and `n`
    have hOk := (hParse str _).mpr ⟨m, n, hSpells, hM, hN, rfl⟩
    obtain ⟨hFirst, hSecond⟩ :=
      hUnique _ _ _ _ _ hSpells ((hExact.accepts _).mp hOk)
    rw [hFields] at hFirst hSecond
    refine hWide ⟨?_, ?_⟩
    · rw [hFirst]
      exact UInt16.toNat_lt _
    · rw [hSecond]
      exact UInt16.toNat_lt _
  · intro hNot
    have hAccepts : ∀ v, parse str = .ok v ↔
        spells str (fields v).1.toNat (fields v).2.toNat := by
      intro v
      rw [hParse]
      constructor
      · rintro ⟨m, n, hSpells, hM, hN, rfl⟩
        have hFit : m < 2 ^ 16 ∧ n < 2 ^ 16 := by
          by_contra hWide
          exact hNot ⟨m, n, hSpells, hM, hN, hWide⟩
        rw [hFields, UInt16.toNat_ofNat_of_lt' hFit.1, UInt16.toNat_ofNat_of_lt' hFit.2]
        exact hSpells
      · intro hSpells
        refine ⟨_, _, hSpells, toNat_lt_int _, toNat_lt_int _, ?_⟩
        rw [UInt16.ofNat_toNat, UInt16.ofNat_toNat, hMake]
    refine ⟨hAccepts, fun hNone => ?_, fun v _ => hPrint v⟩
    rcases hResult : parse str with e | v
    · exact ⟨⟨e, rfl⟩, hValidate str e hResult⟩
    · exact absurd ⟨v, (hAccepts v).mp hResult⟩ hNone

end

theorem FrameRate.parsesExactly_iff (str : List Char) :
    FrameRate.ParsesExactly str ↔ ¬ Narrowed SpellsRate str := by
  refine RivermaxDevKit.parsesExactly_iff FrameRate.mk (fun _ _ => rfl) (fun _ => rfl)
    (fun _ _ => FrameRate.ofString_eq_ok_iff) (fun _ _ _ _ _ => SpellsRate.unique)
    FrameRate.ofString_toChars (fun str e hThrow => ?_) str
  simp [videoFrameRateText, hThrow]

theorem Resolution.parsesExactly_iff (str : List Char) :
    Resolution.ParsesExactly str ↔ ¬ Narrowed SpellsResolution str := by
  refine RivermaxDevKit.parsesExactly_iff Resolution.mk (fun _ _ => rfl) (fun _ => rfl)
    (fun _ _ => Resolution.ofString_eq_ok_iff)
    (fun _ _ _ _ _ => Joined.unique (by decide))
    Resolution.ofString_toChars (fun str e hThrow => ?_) str
  simp [videoResolutionText, hThrow]

/-- **Parsing is exact unless a number is narrowed.** Of every text: the two
constructors meet their format exactly when no number of it lies between the
field's width and the width of an `int`. -/
theorem mediaSettings_parsesExactly_iff (str : List Char) :
    (FrameRate.ParsesExactly str ↔ ¬ Narrowed SpellsRate str) ∧
      (Resolution.ParsesExactly str ↔ ¬ Narrowed SpellsResolution str) :=
  ⟨FrameRate.parsesExactly_iff str, Resolution.parsesExactly_iff str⟩

/-- `65560` is accepted as the frame rate 24, and `65560x1080` as a resolution
24 pixels wide. -/
theorem not_parsesExactly_65560 :
    ¬ FrameRate.ParsesExactly "65560".toList ∧
      ¬ Resolution.ParsesExactly "65560x1080".toList := by
  refine ⟨fun hExact => ?_, fun hExact => ?_⟩
  · have hSpells := (hExact.accepts { num := 24, denom := 1 }).mp (by decide)
    rcases hSpells with hJoined | ⟨hWhole, -⟩
    · exact absurd hJoined.separator_mem (by decide)
    · exact absurd hWhole.2.2 (by decide)
  · have hSpells := (hExact.accepts { width := 24, height := 1080 }).mp (by decide)
    have hParts := Joined.parts (a := "65560".toList) (b := "1080".toList) hSpells
      (by decide) (by decide)
    exact absurd hParts.1.2.2 (by decide)

end RivermaxDevKit
