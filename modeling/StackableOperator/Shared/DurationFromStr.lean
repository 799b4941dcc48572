import Mathlib
import StackableOperator.RustStd.CharIndices
import StackableOperator.RustStd.ParseUnsigned
import StackableOperator.Shared.Duration

/-!
# Parsing durations

`Duration.fromStr` reads fragments such as `15d` and `2m` one after the other. `IsDurationText` is
the grammar: numbers with units that get smaller from fragment to fragment, each of them with at
most `u64::MAX` milliseconds. `Duration.fromStr_accepts_iff` says that the parser accepts exactly
this grammar, never panics, and returns the sum of the fragments.
-/

namespace StackableOperator

/-! ### The model of the source -/

/-- The units, from the greatest to the smallest one. -/
inductive DurationUnit : Type
  | days
  | hours
  | minutes
  | seconds
  | milliseconds
  deriving DecidableEq, Repr

namespace DurationUnit

def asRef : DurationUnit → String
  | days => "d"
  | hours => "h"
  | minutes => "m"
  | seconds => "s"
  | milliseconds => "ms"

def millis : DurationUnit → ℕ
  | days => 24 * (60 * (60 * 1000))
  | hours => 60 * (60 * 1000)
  | minutes => 60 * 1000
  | seconds => 1000
  | milliseconds => 1

def all : List DurationUnit := [days, hours, minutes, seconds, milliseconds]

/-- The position of a unit in their order. -/
def rank : DurationUnit → ℕ
  | days => 0
  | hours => 1
  | minutes => 2
  | seconds => 3
  | milliseconds => 4

def fromStr (s : List Char) : Option DurationUnit := all.find? fun unit => unit.asRef.toList = s

end DurationUnit

inductive DurationParseError : Type
  | emptyInput
  | unexpectedCharacter (chr : Char)
  | noUnit (value : ℕ)
  | invalidUnitOrdering (previous current : DurationUnit)
  | duplicateUnit (unit : DurationUnit)
  | parseUnitError (unit : String)
  | parseIntError (source : IntErrorKind)
  | overflow (unit : DurationUnit) (input : String) (value : ℕ)
  deriving DecidableEq

/-- `char::is_numeric` and `char::is_alphabetic`. Their ASCII members are known. -/
structure CharClasses where
  isNumeric : Char → Bool
  isAlphabetic : Char → Bool
  isNumeric_ascii : ∀ c : Char, c.toNat < 128 → isNumeric c = c.isDigit
  isAlphabetic_ascii : ∀ c : Char, c.toNat < 128 → isAlphabetic c = c.isAlpha

instance : Inhabited CharClasses where
  default :=
    { isNumeric := Char.isDigit
      isAlphabetic := Char.isAlpha
      isNumeric_ascii := fun _ _ => rfl
      isAlphabetic_ascii := fun _ _ => rfl }

def u64Max : ℕ := 2 ^ 64 - 1

def u128Size : ℕ := 2 ^ 128

namespace Duration

def zero : Duration where
  secs := 0
  nanos := 0
  secs_lt := zero_lt_secs
  nanos_lt := zero_lt_nanos

def fromMillis (millis : ℕ) (h : millis ≤ u64Max) : Duration where
  secs := millis / 1000
  nanos := millis % 1000 * 10 ^ 6
  secs_lt := by
    have hle : millis / 1000 ≤ millis := Nat.div_le_self millis 1000
    have hmax : u64Max < 2 ^ 64 := by decide
    omega
  nanos_lt := by
    have hlt : millis % 1000 < 1000 := Nat.mod_lt millis (by decide)
    omega

def checkedAdd (self rhs : Duration) : Option Duration :=
  let carry := (self.nanos + rhs.nanos) / 10 ^ 9
  if h : self.secs + rhs.secs + carry < 2 ^ 64 then
    some
      { secs := self.secs + rhs.secs + carry
        nanos := (self.nanos + rhs.nanos) % 10 ^ 9
        secs_lt := h
        nanos_lt := Nat.mod_lt _ (by decide) }
  else none

section FromStr

variable (classes : CharClasses) (input : List Char)

/-- Read the number and the unit of a fragment. There is none at the end of the input. -/
def readFragment (chars : List (ℕ × Char)) :
    Option (Except DurationParseError (Option ((ℕ × DurationUnit) × List (ℕ × Char)))) :=
  match takeGroup input classes.isNumeric chars with
  | none => none
  | some (none, []) => some (.ok none)
  | some (none, (_, chr) :: _) => some (.error (.unexpectedCharacter chr))
  | some (some value, chars) =>
    match parseUnsigned u128Size value with
    | .error source => some (.error (.parseIntError source))
    | .ok value =>
      match takeGroup input classes.isAlphabetic chars with
      | none => none
      | some (none, []) => some (.error (.noUnit value))
      | some (none, (_, chr) :: _) => some (.error (.unexpectedCharacter chr))
      | some (some unit, chars) =>
        match DurationUnit.fromStr unit with
        | none => some (.error (.parseUnitError (String.ofList unit)))
        | some unit => some (.ok (some ((value, unit), chars)))

/-- Units must get smaller. -/
def checkUnit (lastUnit : Option DurationUnit) (unit : DurationUnit) :
    Except DurationParseError Unit :=
  match lastUnit with
  | none => .ok ()
  | some lastUnit =>
    match compare unit.rank lastUnit.rank with
    | .lt => .error (.invalidUnitOrdering lastUnit unit)
    | .eq => .error (.duplicateUnit unit)
    | .gt => .ok ()

/-- Add a fragment. The product must fit into `u128` and then into `u64`. -/
def addFragment (duration : Duration) (value : ℕ) (unit : DurationUnit) :
    Except DurationParseError Duration :=
  let overflow := DurationParseError.overflow unit (String.ofList input) value
  if u128Size ≤ value * unit.millis then .error overflow
  else if h : value * unit.millis ≤ u64Max then
    match duration.checkedAdd (fromMillis (value * unit.millis) h) with
    | some duration => .ok duration
    | none => .error overflow
  else .error overflow

/-- Read at most `fuel` fragments. -/
def readFragments : ℕ → List (ℕ × Char) → Duration → Option DurationUnit →
    Option (Except DurationParseError Duration)
  | 0, _, _, _ => none
  | fuel + 1, chars, duration, lastUnit =>
    match readFragment classes input chars with
    | none => none
    | some (.error e) => some (.error e)
    | some (.ok none) => some (.ok duration)
    | some (.ok (some ((value, unit), chars))) =>
      match checkUnit lastUnit unit with
      | .error e => some (.error e)
      | .ok () =>
        match addFragment input duration value unit with
        | .error e => some (.error e)
        | .ok duration => readFragments fuel chars duration (some unit)

end FromStr

/-- Parse a duration. Every fragment takes some characters of the input. -/
def fromStr (classes : CharClasses) (input : String) :
    Option (Except DurationParseError Duration) :=
  if input.isEmpty then some (.error .emptyInput)
  else readFragments classes input.toList (input.toList.length + 1) (charIndices input.toList 0)
    zero none

end Duration

/-! ### The grammar -/

/-- The digits and the unit of a fragment. -/
@[ext]
structure Fragment where
  digits : List Char
  unit : DurationUnit

namespace Fragment

def text (fragment : Fragment) : List Char := fragment.digits ++ fragment.unit.asRef.toList

/-- The number in front of the unit. -/
def value (fragment : Fragment) : ℕ := Nat.ofDigitChars 10 fragment.digits 0

def millis (fragment : Fragment) : ℕ := fragment.value * fragment.unit.millis

/-- The fragment is a decimal number with a unit. -/
def IsDecimal (fragment : Fragment) : Prop :=
  StackableOperator.IsDecimal fragment.digits fragment.value

end Fragment

def fragmentsText (fragments : List Fragment) : List Char := (fragments.map Fragment.text).flatten

/-- The milliseconds of all fragments. -/
def totalMillis (fragments : List Fragment) : ℕ := (fragments.map Fragment.millis).sum

/-- A sequence of fragments with units that get smaller. -/
structure IsDurationText (text : List Char) (fragments : List Fragment) : Prop where
  ne_nil : fragments ≠ []
  text_eq : text = fragmentsText fragments
  isDecimal : ∀ fragment ∈ fragments, fragment.IsDecimal
  decreasing : (fragments.map fun fragment => fragment.unit.millis).Pairwise (· > ·)
  millis_le : ∀ fragment ∈ fragments, fragment.millis ≤ u64Max

/-! ### Units -/

namespace DurationUnit

theorem rank_lt_rank_iff {a b : DurationUnit} : a.rank < b.rank ↔ b.millis < a.millis := by
  cases a <;> cases b <;> decide

theorem rank_le (unit : DurationUnit) : unit.rank ≤ 4 := by
  cases unit <;> decide

theorem fromStr_asRef (unit : DurationUnit) : fromStr unit.asRef.toList = some unit := by
  cases unit <;> simp [fromStr, all, asRef]

theorem asRef_of_fromStr {s : List Char} {unit : DurationUnit} (h : fromStr s = some unit) :
    unit.asRef.toList = s := by
  simpa using List.find?_some h

theorem isAlpha_asRef (unit : DurationUnit) :
    ∀ c ∈ unit.asRef.toList, c.toNat < 128 ∧ c.isAlpha = true ∧ c.isDigit = false := by
  have hall : (unit.asRef.toList.all fun c =>
      decide (c.toNat < 128 ∧ c.isAlpha = true ∧ c.isDigit = false)) = true := by
    cases unit <;> decide
  intro c hc
  exact of_decide_eq_true (List.all_eq_true.mp hall c hc)

theorem asRef_ne_nil (unit : DurationUnit) : unit.asRef.toList ≠ [] := by
  cases unit <;> decide

end DurationUnit

namespace CharClasses

variable (classes : CharClasses)

theorem toNat_lt_of_isDigit {c : Char} (h : c.isDigit = true) : c.toNat < 128 := by
  have hle : c.toNat ≤ 57 := (Char.isDigit_iff_toNat.mp h).2
  omega

theorem isAlpha_of_isDigit {c : Char} (h : c.isDigit = true) : c.isAlpha = false := by
  have hle : c.val.toNat ≤ 57 := (Char.isDigit_iff_toNat.mp h).2
  simp only [Char.isAlpha, Char.isUpper, Char.isLower, ge_iff_le, UInt32.le_iff_toNat_le,
    Bool.or_eq_false_iff, Bool.and_eq_false_iff, decide_eq_false_iff_not]
  exact ⟨fun hupper => absurd (hupper.1.trans hle) (by decide),
    Or.inl fun hlower => absurd (hlower.trans hle) (by decide)⟩

theorem isNumeric_of_isDigit {c : Char} (h : c.isDigit = true) : classes.isNumeric c = true := by
  rw [classes.isNumeric_ascii c (toNat_lt_of_isDigit h), h]

theorem isAlphabetic_of_isDigit {c : Char} (h : c.isDigit = true) :
    classes.isAlphabetic c = false := by
  rw [classes.isAlphabetic_ascii c (toNat_lt_of_isDigit h), isAlpha_of_isDigit h]

theorem isAlphabetic_asRef (unit : DurationUnit) :
    ∀ c ∈ unit.asRef.toList, classes.isAlphabetic c = true := by
  intro c hc
  obtain ⟨hascii, halpha, -⟩ := unit.isAlpha_asRef c hc
  rw [classes.isAlphabetic_ascii c hascii, halpha]

theorem isNumeric_asRef (unit : DurationUnit) :
    ∀ c ∈ unit.asRef.toList, classes.isNumeric c = false := by
  intro c hc
  obtain ⟨hascii, -, hdigit⟩ := unit.isAlpha_asRef c hc
  rw [classes.isNumeric_ascii c hascii, hdigit]

theorem head?_ne_plus {cs : List Char} (h : ∀ c ∈ cs, classes.isNumeric c = true) :
    cs.head? ≠ some '+' := by
  intro hhead
  have hplus := h '+' (List.mem_of_mem_head? hhead)
  rw [classes.isNumeric_ascii '+' (by decide)] at hplus
  exact absurd hplus (by decide)

end CharClasses

/-! ### Texts of fragments -/

/-- What remains of a text after a fragment with the unit `lastUnit`. -/
structure Continues (lastUnit : Option DurationUnit) (rest : List Char)
    (fragments : List Fragment) : Prop where
  text_eq : rest = fragmentsText fragments
  isDecimal : ∀ fragment ∈ fragments, fragment.IsDecimal
  decreasing : (lastUnit.toList ++ fragments.map Fragment.unit).Pairwise
    fun unit next => next.millis < unit.millis
  millis_le : ∀ fragment ∈ fragments, fragment.millis ≤ u64Max

theorem isDurationText_iff {text : List Char} {fragments : List Fragment} :
    IsDurationText text fragments ↔ fragments ≠ [] ∧ Continues none text fragments := by
  have hdecreasing : (fragments.map fun fragment => fragment.unit.millis).Pairwise (· > ·) ↔
      (fragments.map Fragment.unit).Pairwise fun unit next => next.millis < unit.millis := by
    rw [List.pairwise_map, List.pairwise_map]
  constructor
  · intro h
    exact ⟨h.ne_nil, h.text_eq, h.isDecimal, hdecreasing.mp h.decreasing, h.millis_le⟩
  · rintro ⟨hne, h⟩
    exact ⟨hne, h.text_eq, h.isDecimal, hdecreasing.mpr h.decreasing, h.millis_le⟩

theorem Fragment.IsDecimal.text_ne_nil {fragment : Fragment} (h : fragment.IsDecimal) :
    fragment.text ≠ [] :=
  List.append_ne_nil_of_left_ne_nil h.ne_nil _

theorem continues_nil_iff {lastUnit : Option DurationUnit} {fragments : List Fragment} :
    Continues lastUnit [] fragments ↔ fragments = [] := by
  constructor
  · intro h
    match fragments with
    | [] => rfl
    | fragment :: fragments =>
      have htext := h.text_eq.symm
      rw [fragmentsText, List.map_cons, List.flatten_cons, List.append_eq_nil_iff] at htext
      exact absurd htext.1 (h.isDecimal fragment List.mem_cons_self).text_ne_nil
  · rintro rfl
    refine ⟨rfl, by simp, ?_, by simp⟩
    cases lastUnit <;> simp

theorem continues_cons_iff {lastUnit : Option DurationUnit} {digits rest : List Char}
    {unit : DurationUnit} {fragments : List Fragment} :
    Continues lastUnit (digits ++ (unit.asRef.toList ++ rest)) (⟨digits, unit⟩ :: fragments) ↔
      Fragment.IsDecimal ⟨digits, unit⟩ ∧ Fragment.millis ⟨digits, unit⟩ ≤ u64Max ∧
        (∀ last ∈ lastUnit, unit.millis < last.millis) ∧ Continues (some unit) rest fragments := by
  have htext : digits ++ (unit.asRef.toList ++ rest) = fragmentsText (⟨digits, unit⟩ :: fragments) ↔
      rest = fragmentsText fragments := by
    rw [fragmentsText, List.map_cons, List.flatten_cons, Fragment.text, List.append_assoc,
      List.append_cancel_left_eq, List.append_cancel_left_eq]
    rfl
  constructor
  · rintro ⟨hrest, hdecimal, hdecreasing, hmillis⟩
    rw [List.forall_mem_cons] at hdecimal hmillis
    rw [List.map_cons] at hdecreasing
    refine ⟨hdecimal.1, hmillis.1, ?_, htext.mp hrest, hdecimal.2,
      hdecreasing.sublist (List.sublist_append_right _ _), hmillis.2⟩
    rintro last rfl
    exact (List.pairwise_append.mp hdecreasing).2.2 last (by simp) unit List.mem_cons_self
  · rintro ⟨hdecimal, hmillis, hlast, h⟩
    refine ⟨htext.mpr h.text_eq, List.forall_mem_cons.mpr ⟨hdecimal, h.isDecimal⟩, ?_,
      List.forall_mem_cons.mpr ⟨hmillis, h.millis_le⟩⟩
    rw [List.map_cons]
    refine List.pairwise_append.mpr ⟨by cases lastUnit <;> simp, h.decreasing, ?_⟩
    intro last hmem next hnext
    have hlt := hlast last (Option.mem_toList.mp hmem)
    obtain rfl | hnext := List.mem_cons.mp hnext
    · exact hlt
    · exact ((List.pairwise_cons.mp h.decreasing).1 next hnext).trans hlt

/-- No fragment begins with a letter. -/
theorem Continues.head?_not_alphabetic (classes : CharClasses) {lastUnit : Option DurationUnit}
    {rest : List Char} {fragments : List Fragment} (h : Continues lastUnit rest fragments) :
    ∀ c ∈ rest.head?, classes.isAlphabetic c = false := by
  intro c hc
  rw [h.text_eq] at hc
  match fragments, h with
  | [], _ => simp [fragmentsText] at hc
  | fragment :: fragments, h =>
    have hdecimal := h.isDecimal fragment List.mem_cons_self
    rw [fragmentsText, List.map_cons, List.flatten_cons, Fragment.text, List.append_assoc,
      List.head?_append_of_ne_nil _ hdecimal.ne_nil] at hc
    exact classes.isAlphabetic_of_isDigit (hdecimal.isDigit c (List.mem_of_mem_head? hc))

/-- The first fragment of a text is determined. -/
theorem fragment_append_inj (classes : CharClasses) {digits digits' rest rest' : List Char}
    {unit unit' : DurationUnit} {value value' : ℕ} (hdigits : IsDecimal digits value)
    (hdigits' : IsDecimal digits' value') (hrest : ∀ c ∈ rest.head?, classes.isAlphabetic c = false)
    (hrest' : ∀ c ∈ rest'.head?, classes.isAlphabetic c = false)
    (h : digits ++ (unit.asRef.toList ++ rest) = digits' ++ (unit'.asRef.toList ++ rest')) :
    digits = digits' ∧ unit = unit' ∧ rest = rest' := by
  have hhead (unit : DurationUnit) (rest : List Char) :
      ∀ c ∈ (unit.asRef.toList ++ rest).head?, c.isDigit = false := by
    intro c hc
    rw [List.head?_append_of_ne_nil _ unit.asRef_ne_nil] at hc
    exact (unit.isAlpha_asRef c (List.mem_of_mem_head? hc)).2.2
  have htake := congrArg (List.takeWhile Char.isDigit) h
  rw [hdigits.takeWhile_append (hhead unit rest),
    hdigits'.takeWhile_append (hhead unit' rest')] at htake
  subst htake
  have htail := List.append_cancel_left h
  have hunits := congrArg (List.takeWhile classes.isAlphabetic) htail
  rw [takeWhile_append_of_head? (classes.isAlphabetic_asRef unit) hrest,
    takeWhile_append_of_head? (classes.isAlphabetic_asRef unit') hrest'] at hunits
  have hfromStr := congrArg DurationUnit.fromStr hunits
  rw [DurationUnit.fromStr_asRef, DurationUnit.fromStr_asRef] at hfromStr
  obtain rfl := Option.some.inj hfromStr
  exact ⟨rfl, rfl, List.append_cancel_left htail⟩

/-! ### Arithmetic -/

namespace Duration

theorem asNanos_injective : Function.Injective asNanos := by
  rintro ⟨secs, nanos, hsecs, hnanos⟩ ⟨secs', nanos', hsecs', hnanos'⟩ h
  simp only [asNanos] at h
  obtain rfl : secs = secs' := by omega
  obtain rfl : nanos = nanos' := by omega
  rfl

theorem asNanos_fromMillis {millis : ℕ} (h : millis ≤ u64Max) :
    (fromMillis millis h).asNanos = millis * 10 ^ 6 := by
  simp only [asNanos, fromMillis]
  omega

theorem exists_checkedAdd {a b : Duration} (h : a.asNanos + b.asNanos < 2 ^ 64 * 10 ^ 9) :
    ∃ r, a.checkedAdd b = some r ∧ r.asNanos = a.asNanos + b.asNanos := by
  simp only [asNanos] at h
  have hfits : a.secs + b.secs + (a.nanos + b.nanos) / 10 ^ 9 < 2 ^ 64 := by omega
  refine ⟨_, dif_pos hfits, ?_⟩
  simp only [asNanos]
  omega

theorem exists_addFragment (input : List Char) {duration : Duration} {value : ℕ}
    {unit : DurationUnit} (hduration : duration.asNanos ≤ 4 * (u64Max * 10 ^ 6))
    (h : value * unit.millis ≤ u64Max) :
    ∃ r, addFragment input duration value unit = .ok r ∧
      r.asNanos = duration.asNanos + value * unit.millis * 10 ^ 6 := by
  have hmax : u64Max = 2 ^ 64 - 1 := rfl
  have hsize : ¬u128Size ≤ value * unit.millis := by
    have hu128 : u128Size = 2 ^ 128 := rfl
    omega
  obtain ⟨r, hr, hnanos⟩ := exists_checkedAdd (a := duration) (b := fromMillis _ h) (by
    rw [asNanos_fromMillis]
    omega)
  refine ⟨r, ?_, by rw [hnanos, asNanos_fromMillis]⟩
  unfold addFragment
  dsimp only
  rw [if_neg hsize, dif_pos h, hr]

/-- Fragments with too many milliseconds are rejected. -/
theorem millis_le_of_addFragment {input : List Char} {duration r : Duration} {value : ℕ}
    {unit : DurationUnit} (h : addFragment input duration value unit = .ok r) :
    value * unit.millis ≤ u64Max := by
  unfold addFragment at h
  dsimp only at h
  split_ifs at h with hsize hmax
  exact hmax

theorem checkUnit_eq_ok_iff {lastUnit : Option DurationUnit} {unit : DurationUnit} :
    checkUnit lastUnit unit = .ok () ↔ ∀ last ∈ lastUnit, unit.millis < last.millis := by
  match lastUnit with
  | none => simp [checkUnit]
  | some last =>
    simp only [Option.mem_some_iff, forall_eq', ← DurationUnit.rank_lt_rank_iff]
    rw [← compare_gt_iff_gt, checkUnit]
    cases compare unit.rank last.rank <;> simp

/-! ### One fragment -/

variable (classes : CharClasses)

/-- A number with a unit is read as a fragment, if its number fits into `u128`. -/
theorem readFragment_of_isDecimal {front digits rest : List Char} {value : ℕ} {unit : DurationUnit}
    (hdigits : IsDecimal digits value) (hvalue : value < u128Size)
    (hrest : ∀ c ∈ rest.head?, classes.isAlphabetic c = false) :
    readFragment classes (front ++ (digits ++ (unit.asRef.toList ++ rest)))
        (charIndices (digits ++ (unit.asRef.toList ++ rest)) (utf8Size front)) =
      some (.ok (some ((value, unit),
        charIndices rest (utf8Size (front ++ (digits ++ unit.asRef.toList)))))) := by
  have hnumeric : ∀ c ∈ digits, classes.isNumeric c = true := fun c hc =>
    classes.isNumeric_of_isDigit (hdigits.isDigit c hc)
  have hunit : ∀ c ∈ (unit.asRef.toList ++ rest).head?, classes.isNumeric c = false := by
    intro c hc
    rw [List.head?_append_of_ne_nil _ unit.asRef_ne_nil] at hc
    exact classes.isNumeric_asRef unit c (List.mem_of_mem_head? hc)
  have hgroup := takeGroup_charIndices classes.isAlphabetic (front ++ digits) unit.asRef.toList
    rest (classes.isAlphabetic_asRef unit) hrest
  rw [List.append_assoc front] at hgroup
  rw [readFragment, takeGroup_charIndices _ _ _ _ hnumeric hunit, if_neg hdigits.ne_nil]
  simp only [(parseUnsigned_eq_ok_iff hdigits.head?_ne).mpr ⟨hdigits, hvalue⟩, hgroup,
    if_neg unit.asRef_ne_nil, DurationUnit.fromStr_asRef, List.append_assoc]

/-- Reading a fragment never panics, and says what was read. -/
theorem exists_readFragment (front rest : List Char) :
    ∃ r, readFragment classes (front ++ rest) (charIndices rest (utf8Size front)) = some r ∧
      (r = .ok none → rest = []) ∧
      ∀ value unit chars, r = .ok (some ((value, unit), chars)) →
        ∃ digits rest', rest = digits ++ (unit.asRef.toList ++ rest') ∧ IsDecimal digits value ∧
          (∀ c ∈ rest'.head?, classes.isAlphabetic c = false) ∧
          chars = charIndices rest' (utf8Size (front ++ (digits ++ unit.asRef.toList))) := by
  -- the group of digits in front
  obtain ⟨digits, tail, rfl, hdigits, htail⟩ : ∃ digits tail, rest = digits ++ tail ∧
      (∀ c ∈ digits, classes.isNumeric c = true) ∧
        ∀ c ∈ tail.head?, classes.isNumeric c = false :=
    ⟨rest.takeWhile classes.isNumeric, rest.dropWhile classes.isNumeric,
      List.takeWhile_append_dropWhile.symm, fun c hc => List.mem_takeWhile_imp hc,
      head?_dropWhile_eq_false _ _⟩
  rw [readFragment, takeGroup_charIndices _ _ _ _ hdigits htail]
  by_cases hnil : digits = []
  · rw [if_pos hnil]
    match tail with
    | [] => exact ⟨.ok none, rfl, fun _ => by rw [hnil, List.append_nil], by simp⟩
    | c :: tail => exact ⟨.error (.unexpectedCharacter c), rfl, by simp, by simp⟩
  · rw [if_neg hnil]
    dsimp only
    match hvalue : parseUnsigned u128Size digits with
    | .error e => exact ⟨.error (.parseIntError e), rfl, by simp, by simp⟩
    | .ok value =>
      -- and the group of letters after it
      obtain ⟨hdecimal, -⟩ := (parseUnsigned_eq_ok_iff (classes.head?_ne_plus hdigits)).mp hvalue
      obtain ⟨group, tail', rfl, hgroup, htail'⟩ : ∃ group tail', tail = group ++ tail' ∧
          (∀ c ∈ group, classes.isAlphabetic c = true) ∧
            ∀ c ∈ tail'.head?, classes.isAlphabetic c = false :=
        ⟨tail.takeWhile classes.isAlphabetic, tail.dropWhile classes.isAlphabetic,
          List.takeWhile_append_dropWhile.symm, fun c hc => List.mem_takeWhile_imp hc,
          head?_dropWhile_eq_false _ _⟩
      have htake := takeGroup_charIndices classes.isAlphabetic (front ++ digits) group tail' hgroup
        htail'
      rw [List.append_assoc front] at htake
      dsimp only
      rw [htake]
      by_cases hgroupNil : group = []
      · rw [if_pos hgroupNil]
        match tail' with
        | [] => exact ⟨.error (.noUnit value), rfl, by simp, by simp⟩
        | c :: tail' => exact ⟨.error (.unexpectedCharacter c), rfl, by simp, by simp⟩
      · rw [if_neg hgroupNil]
        dsimp only
        match hunit : DurationUnit.fromStr group with
        | none => exact ⟨.error (.parseUnitError (String.ofList group)), rfl, by simp, by simp⟩
        | some unit =>
          refine ⟨_, rfl, by simp, ?_⟩
          intro value' unit' chars heq
          simp only [Except.ok.injEq, Option.some.injEq, Prod.mk.injEq] at heq
          obtain ⟨⟨rfl, rfl⟩, rfl⟩ := heq
          rw [DurationUnit.asRef_of_fromStr hunit]
          exact ⟨digits, tail', rfl, hdecimal, htail', by rw [List.append_assoc front]⟩

/-! ### The loop -/

/-- The units up to the last one. -/
def unitsUpTo : Option DurationUnit → ℕ
  | none => 0
  | some unit => unit.rank + 1

theorem unitsUpTo_le_rank {lastUnit : Option DurationUnit} {unit : DurationUnit}
    (h : ∀ last ∈ lastUnit, unit.millis < last.millis) : unitsUpTo lastUnit ≤ unit.rank := by
  match lastUnit with
  | none => exact Nat.zero_le _
  | some last => exact DurationUnit.rank_lt_rank_iff.mpr (h last rfl)

/-- The fragments of a text lead from some nanoseconds to a duration. -/
def Gives (lastUnit : Option DurationUnit) (rest : List Char) (nanos : ℕ) (d : Duration) : Prop :=
  ∃ fragments, Continues lastUnit rest fragments ∧
    d.asNanos = nanos + totalMillis fragments * 10 ^ 6

theorem gives_nil_iff {lastUnit : Option DurationUnit} {duration d : Duration} :
    Gives lastUnit [] duration.asNanos d ↔ duration = d := by
  constructor
  · rintro ⟨fragments, h, hnanos⟩
    obtain rfl := continues_nil_iff.mp h
    exact asNanos_injective (by simpa [totalMillis] using hnanos.symm)
  · rintro rfl
    exact ⟨[], continues_nil_iff.mpr rfl, by simp [totalMillis]⟩

/-- The fragments of a text that begins with a number and a unit. -/
theorem exists_eq_cons_of_continues {lastUnit : Option DurationUnit} {digits rest : List Char}
    {value : ℕ} {unit : DurationUnit} {fragments : List Fragment} (hdigits : IsDecimal digits value)
    (hrest : ∀ c ∈ rest.head?, classes.isAlphabetic c = false)
    (h : Continues lastUnit (digits ++ (unit.asRef.toList ++ rest)) fragments) :
    ∃ tail, fragments = ⟨digits, unit⟩ :: tail := by
  have htext := h.text_eq
  cases fragments with
  | nil =>
    rw [fragmentsText, List.map_nil, List.flatten_nil, List.append_eq_nil_iff] at htext
    exact absurd htext.1 hdigits.ne_nil
  | cons fragment fragments =>
    obtain ⟨digits', unit'⟩ := fragment
    rw [fragmentsText, List.map_cons, List.flatten_cons, Fragment.text, List.append_assoc,
      ← fragmentsText] at htext
    have hcontinues := h
    rw [htext, continues_cons_iff] at hcontinues
    obtain ⟨hdecimal', -, -, htail⟩ := hcontinues
    obtain ⟨rfl, rfl, -⟩ := fragment_append_inj classes hdigits hdecimal' hrest
      (htail.head?_not_alphabetic classes) htext
    exact ⟨fragments, rfl⟩

theorem totalMillis_cons (fragment : Fragment) (fragments : List Fragment) :
    totalMillis (fragment :: fragments) = fragment.millis + totalMillis fragments := by
  rw [totalMillis, List.map_cons, List.sum_cons, totalMillis]

/-- The first fragment of a text that begins with a number and a unit. -/
theorem gives_append_iff {lastUnit : Option DurationUnit} {digits rest : List Char}
    {value nanos : ℕ} {unit : DurationUnit} {d : Duration} (hdigits : IsDecimal digits value)
    (hrest : ∀ c ∈ rest.head?, classes.isAlphabetic c = false) :
    Gives lastUnit (digits ++ (unit.asRef.toList ++ rest)) nanos d ↔
      (∀ last ∈ lastUnit, unit.millis < last.millis) ∧ value * unit.millis ≤ u64Max ∧
        Gives (some unit) rest (nanos + value * unit.millis * 10 ^ 6) d := by
  have hvalue : Fragment.value ⟨digits, unit⟩ = value := hdigits.value
  have hdecimal : Fragment.IsDecimal ⟨digits, unit⟩ := by
    rw [Fragment.IsDecimal, hvalue]
    exact hdigits
  have hmillis : Fragment.millis ⟨digits, unit⟩ = value * unit.millis := by
    rw [Fragment.millis, hvalue]
  have hsum (total : ℕ) : nanos + (value * unit.millis + total) * 10 ^ 6 =
      nanos + value * unit.millis * 10 ^ 6 + total * 10 ^ 6 := by ring
  constructor
  · rintro ⟨fragments, h, hnanos⟩
    obtain ⟨tail, rfl⟩ := exists_eq_cons_of_continues classes hdigits hrest h
    obtain ⟨-, hle, hlast, hcontinues⟩ := continues_cons_iff.mp h
    rw [hmillis] at hle
    rw [totalMillis_cons, hmillis, hsum] at hnanos
    exact ⟨hlast, hle, tail, hcontinues, hnanos⟩
  · rintro ⟨hlast, hle, fragments, hcontinues, hnanos⟩
    refine ⟨⟨digits, unit⟩ :: fragments,
      continues_cons_iff.mpr ⟨hdecimal, hmillis.trans_le hle, hlast, hcontinues⟩, ?_⟩
    rw [totalMillis_cons, hmillis, hsum, hnanos]

/-- Where no fragment can be read there is none. -/
theorem not_gives_of_error {lastUnit : Option DurationUnit} {front rest : List Char} {nanos : ℕ}
    {d : Duration} {e : DurationParseError}
    (he : readFragment classes (front ++ rest) (charIndices rest (utf8Size front)) =
      some (.error e)) : ¬Gives lastUnit rest nanos d := by
  rintro ⟨fragments, h, -⟩
  match fragments with
  | [] =>
    obtain rfl : rest = [] := h.text_eq
    simp [readFragment, takeGroup, charIndices] at he
  | ⟨digits, unit⟩ :: fragments =>
    have htext : rest = digits ++ (unit.asRef.toList ++ fragmentsText fragments) := by
      rw [h.text_eq, fragmentsText, List.map_cons, List.flatten_cons, Fragment.text,
        List.append_assoc]
      rfl
    rw [htext, continues_cons_iff] at h
    obtain ⟨hdecimal, hmillis, -, hcontinues⟩ := h
    have hvalue : Fragment.value ⟨digits, unit⟩ < u128Size := by
      have hpos : 1 ≤ unit.millis := by cases unit <;> decide
      have hle := Nat.le_mul_of_pos_right (Fragment.value ⟨digits, unit⟩) hpos
      have hsize : u64Max < u128Size := by decide
      exact (hle.trans hmillis).trans_lt hsize
    rw [htext, readFragment_of_isDecimal classes hdecimal hvalue
      (hcontinues.head?_not_alphabetic classes)] at he
    simp at he

/-- **The loop** never panics, and returns what the fragments of the text give. -/
theorem exists_readFragments (fuel : ℕ) (front : List Char) {rest : List Char}
    {duration : Duration} {lastUnit : Option DurationUnit} (hfuel : rest.length < fuel)
    (hbound : duration.asNanos ≤ unitsUpTo lastUnit * (u64Max * 10 ^ 6)) :
    ∃ r, readFragments classes (front ++ rest) fuel (charIndices rest (utf8Size front)) duration
        lastUnit = some r ∧ ∀ d, r = .ok d ↔ Gives lastUnit rest duration.asNanos d := by
  induction fuel generalizing front rest duration lastUnit with
  | zero => exact absurd hfuel (Nat.not_lt_zero _)
  | succ fuel ih =>
    -- one fragment: none left, an error, or its value and unit
    obtain ⟨r, hr, hnone, hsome⟩ := exists_readFragment classes front rest
    rw [readFragments, hr]
    match r with
    | .ok none =>
      obtain rfl := hnone rfl
      exact ⟨.ok duration, rfl, fun d => by rw [gives_nil_iff, Except.ok.injEq]⟩
    | .error e =>
      exact ⟨.error e, rfl, fun d => iff_of_false (by simp) (not_gives_of_error classes hr)⟩
    | .ok (some ((value, unit), chars)) =>
      obtain ⟨digits, rest', rfl, hdigits, hrest', rfl⟩ := hsome value unit chars rfl
      dsimp only
      match hunit : checkUnit lastUnit unit with
      | .error e =>
        refine ⟨.error e, rfl, fun d => iff_of_false (by simp) ?_⟩
        rw [gives_append_iff classes hdigits hrest']
        rintro ⟨hlast, -⟩
        rw [checkUnit_eq_ok_iff.mpr hlast] at hunit
        exact absurd hunit (by simp)
      | .ok () =>
        -- the unit is smaller than the last, so the sum cannot overflow
        have hlast := checkUnit_eq_ok_iff.mp hunit
        have hrank := Nat.mul_le_mul_right (u64Max * 10 ^ 6) (unitsUpTo_le_rank hlast)
        have hduration := hbound.trans (hrank.trans (Nat.mul_le_mul_right _ unit.rank_le))
        dsimp only
        match hadd : addFragment (front ++ (digits ++ (unit.asRef.toList ++ rest'))) duration value
            unit with
        | .error e =>
          refine ⟨.error e, rfl, fun d => iff_of_false (by simp) ?_⟩
          rw [gives_append_iff classes hdigits hrest']
          rintro ⟨-, hmillis, -⟩
          obtain ⟨next, hnext, -⟩ := exists_addFragment
            (front ++ (digits ++ (unit.asRef.toList ++ rest'))) hduration hmillis
          rw [hnext] at hadd
          exact absurd hadd (by simp)
        | .ok next =>
          have hmillis := millis_le_of_addFragment hadd
          obtain ⟨next', hnext', hnanos⟩ := exists_addFragment
            (front ++ (digits ++ (unit.asRef.toList ++ rest'))) hduration hmillis
          obtain rfl := Except.ok.inj (hadd.symm.trans hnext')
          -- the rest is shorter and keeps the bound
          have hshorter : rest'.length < fuel := by
            have hpos := List.length_pos_of_ne_nil hdigits.ne_nil
            rw [List.length_append, List.length_append] at hfuel
            omega
          have hnextBound : next.asNanos ≤ unitsUpTo (some unit) * (u64Max * 10 ^ 6) := by
            rw [hnanos, unitsUpTo, Nat.add_mul, one_mul]
            exact Nat.add_le_add (hbound.trans hrank) (Nat.mul_le_mul_right _ hmillis)
          obtain ⟨result, hresult, hgives⟩ :=
            ih (front ++ (digits ++ unit.asRef.toList)) hshorter hnextBound
          have hinput : front ++ (digits ++ (unit.asRef.toList ++ rest')) =
              front ++ (digits ++ unit.asRef.toList) ++ rest' := by
            simp only [List.append_assoc]
          refine ⟨result, by rw [hinput]; exact hresult, fun d => (hgives d).trans ?_⟩
          rw [gives_append_iff classes hdigits hrest', hnanos]
          exact ⟨fun h => ⟨hlast, hmillis, h⟩, fun h => h.2.2⟩

/-- What the parser returns for a text that is not empty. -/
theorem exists_fromStr (input : String) :
    ∃ r, fromStr classes input = some r ∧
      ∀ d, r = .ok d ↔ input.toList ≠ [] ∧ Gives none input.toList 0 d := by
  rw [fromStr]
  by_cases hempty : input.isEmpty = true
  · have hnil : input.toList = [] := by simpa using hempty
    exact ⟨.error .emptyInput, if_pos hempty, fun d => iff_of_false (by simp) fun h => h.1 hnil⟩
  · have hne : input.toList ≠ [] := by simpa using hempty
    have hzero : zero.asNanos ≤ unitsUpTo none * (u64Max * 10 ^ 6) := Nat.zero_le _
    obtain ⟨r, hr, hgives⟩ := exists_readFragments classes (input.toList.length + 1) []
      (Nat.lt_succ_self input.toList.length) hzero
    rw [if_neg hempty]
    exact ⟨r, hr, fun d => (hgives d).trans (iff_and_self.mpr fun _ => hne)⟩

theorem gives_none_iff {text : List Char} {d : Duration} :
    text ≠ [] ∧ Gives none text 0 d ↔
      ∃ fragments, IsDurationText text fragments ∧ d.asNanos = totalMillis fragments * 10 ^ 6 := by
  constructor
  · rintro ⟨hne, fragments, hcontinues, hnanos⟩
    refine ⟨fragments, isDurationText_iff.mpr ⟨?_, hcontinues⟩, by rw [hnanos, Nat.zero_add]⟩
    rintro rfl
    exact hne hcontinues.text_eq
  · rintro ⟨fragments, h, hnanos⟩
    obtain ⟨hne, hcontinues⟩ := isDurationText_iff.mp h
    refine ⟨?_, fragments, hcontinues, by rw [hnanos, Nat.zero_add]⟩
    rintro rfl
    exact hne (continues_nil_iff.mp hcontinues)

/-- Every unit occurs once at most. -/
theorem totalMillis_le {text : List Char} {fragments : List Fragment}
    (h : IsDurationText text fragments) : totalMillis fragments ≤ 5 * u64Max := by
  obtain ⟨-, hcontinues⟩ := isDurationText_iff.mp h
  have hnodup : (fragments.map Fragment.unit).Nodup :=
    hcontinues.decreasing.imp fun hlt heq => absurd (heq ▸ hlt) (lt_irrefl _)
  have hsubset : fragments.map Fragment.unit ⊆ DurationUnit.all := by
    intro unit _
    cases unit <;> decide
  have hlength := (hnodup.subperm hsubset).length_le
  rw [List.length_map] at hlength
  have hsum := List.sum_le_card_nsmul (fragments.map Fragment.millis) u64Max
    (by simpa using h.millis_le)
  rw [List.length_map, smul_eq_mul] at hsum
  exact hsum.trans (Nat.mul_le_mul_right _ hlength)

/-- The sum of the fragments of a text is a duration. -/
theorem exists_asNanos_eq {text : List Char} {fragments : List Fragment}
    (h : IsDurationText text fragments) :
    ∃ d : Duration, d.asNanos = totalMillis fragments * 10 ^ 6 := by
  have hle := totalMillis_le h
  have hmax : u64Max = 2 ^ 64 - 1 := rfl
  refine ⟨⟨totalMillis fragments / 1000, totalMillis fragments % 1000 * 10 ^ 6, ?_, ?_⟩, ?_⟩
  · omega
  · omega
  · simp only [asNanos]
    omega

/-- **The parser accepts exactly its grammar**: it never panics, it returns a duration iff the
text is a sequence of fragments, and this duration is the sum of the fragments. -/
theorem fromStr_accepts_iff (input : String) :
    ∃ r, fromStr classes input = some r ∧
      ((∃ d, r = .ok d) ↔ ∃ fragments, IsDurationText input.toList fragments) ∧
        ∀ d fragments, r = .ok d → IsDurationText input.toList fragments →
          d.asNanos = totalMillis fragments * 10 ^ 6 := by
  obtain ⟨r, hr, hgives⟩ := exists_fromStr classes input
  refine ⟨r, hr, ⟨?_, ?_⟩, ?_⟩
  · rintro ⟨d, hd⟩
    obtain ⟨fragments, h, -⟩ := gives_none_iff.mp ((hgives d).mp hd)
    exact ⟨fragments, h⟩
  · rintro ⟨fragments, h⟩
    obtain ⟨d, hd⟩ := exists_asNanos_eq h
    exact ⟨d, (hgives d).mpr (gives_none_iff.mpr ⟨fragments, h, hd⟩)⟩
  · intro d fragments hd h
    obtain ⟨d', hd'⟩ := exists_asNanos_eq h
    have hok := (hgives d').mpr (gives_none_iff.mpr ⟨fragments, h, hd'⟩)
    obtain rfl := Except.ok.inj (hd.symm.trans hok)
    exact hd'

end Duration

end StackableOperator
