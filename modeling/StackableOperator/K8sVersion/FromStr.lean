import Mathlib
import StackableOperator.RustStd.ParseUnsigned
import StackableOperator.ForMathlib.RegularExpression
import StackableOperator.K8sVersion
import StackableOperator.K8sVersion.Group

/-!
# Parsing versions

`Level.fromStr` and `Version.fromStr` read a text with a regular expression and its captures, and
the numbers in it as `u64`. Their expressions have the class `\d`, which contains the decimal
digits of every script; the numbers are read with the ASCII ones only.

`Version.fromStr_display` says that the text of a version is read as this version.
-/

namespace StackableOperator

open RegularExpression

def u64Size : ℕ := 2 ^ 64

/-- `str::parse::<u64>` -/
def parseU64 (src : List Char) : Except IntErrorKind ℕ := parseUnsigned u64Size src

/-- The decimal text of a number is read as this number. -/
theorem parseU64_toString {n : ℕ} (hfits : n < u64Size) :
    parseU64 (toString n).toList = .ok n :=
  parseUnsigned_toString hfits

/-! ### The classes of the expressions -/

/-- The code points of the digits zero; the other nine digits follow each of them. -/
def decimalZeros : List ℕ :=
  [0x30, 0x660, 0x6f0, 0x7c0, 0x966, 0x9e6, 0xa66, 0xae6, 0xb66, 0xbe6, 0xc66, 0xce6, 0xd66, 0xde6,
    0xe50, 0xed0, 0xf20, 0x1040, 0x1090, 0x17e0, 0x1810, 0x1946, 0x19d0, 0x1a80, 0x1a90, 0x1b50,
    0x1bb0, 0x1c40, 0x1c50, 0xa620, 0xa8d0, 0xa900, 0xa9d0, 0xa9f0, 0xaa50, 0xabf0, 0xff10,
    0x104a0, 0x10d30, 0x10d40, 0x11066, 0x110f0, 0x11136, 0x111d0, 0x112f0, 0x11450, 0x114d0,
    0x11650, 0x116c0, 0x116d0, 0x116da, 0x11730, 0x118e0, 0x11950, 0x11bf0, 0x11c50, 0x11d50,
    0x11da0, 0x11f50, 0x16130, 0x16a60, 0x16ac0, 0x16b50, 0x16d70, 0x1ccf0, 0x1d7ce, 0x1d7d8,
    0x1d7e2, 0x1d7ec, 0x1d7f6, 0x1e140, 0x1e2f0, 0x1e4f0, 0x1e5f1, 0x1e950, 0x1fbf0]

/-- The class `\d`. -/
def isDecimalDigit (c : Char) : Bool :=
  decimalZeros.any fun first => decide (first ≤ c.toNat ∧ c.toNat ≤ first + 9)

/-- The class `[a-z]`. -/
def isLowerAlpha (c : Char) : Bool := decide ('a'.toNat ≤ c.toNat ∧ c.toNat ≤ 'z'.toNat)

theorem isDecimalDigit_of_isDigit {c : Char} (h : c.isDigit = true) : isDecimalDigit c = true := by
  simp only [Char.isDigit, Bool.and_eq_true, decide_eq_true_eq, UInt32.le_iff_toNat_le] at h
  have hrange : 0x30 ≤ c.toNat ∧ c.toNat ≤ 0x30 + 9 := h
  rw [isDecimalDigit, List.any_eq_true]
  exact ⟨0x30, List.mem_cons_self, decide_eq_true hrange⟩

/-- Between the ASCII digits and those of the next script there is none. -/
theorem isDecimalDigit_eq_false {c : Char} (hlow : 0x39 < c.toNat) (hhigh : c.toNat < 0x660) :
    isDecimalDigit c = false := by
  have hzeros : ∀ first ∈ decimalZeros, first = 0x30 ∨ 0x660 ≤ first := by decide
  rw [isDecimalDigit, List.any_eq_false]
  intro first hfirst hc
  have hrange : first ≤ c.toNat ∧ c.toNat ≤ first + 9 := of_decide_eq_true hc
  obtain rfl | hle := hzeros first hfirst
  · omega
  · omega

/-! ### Levels -/

inductive ParseLevelError : Type
  | invalidFormat
  | parseVersion (source : IntErrorKind)
  | unknownIdentifier
  deriving DecidableEq, Repr

/-- The captures `identifier` and `version` of `^(?P<identifier>[a-z]+)(?P<version>\d+)$`. -/
def levelCaptures (input : List Char) : Option (List Char × List Char) :=
  let identifier := input.takeWhile isLowerAlpha
  let version := input.dropWhile isLowerAlpha
  if identifier ≠ [] ∧ version ≠ [] ∧ version.all isDecimalDigit then some (identifier, version)
  else none

def Level.fromStr (input : List Char) : Except ParseLevelError Level :=
  match levelCaptures input with
  | none => .error .invalidFormat
  | some (identifier, version) =>
    match parseU64 version with
    | .error source => .error (.parseVersion source)
    | .ok version =>
      if identifier = "alpha".toList then .ok (.alpha version)
      else if identifier = "beta".toList then .ok (.beta version)
      else .error .unknownIdentifier

/-- The numbers of a level or version are `u64`. -/
def Level.IsU64 : Level → Prop
  | .alpha version => version < u64Size
  | .beta version => version < u64Size

/-- An identifier ends where its number begins. -/
theorem levelCaptures_append_toString {identifier : List Char} (n : ℕ) (hne : identifier ≠ [])
    (halpha : identifier.all isLowerAlpha = true) :
    levelCaptures (identifier ++ (toString n).toList) =
      some (identifier, (toString n).toList) := by
  have hnodigit : ∀ c ∈ (toString n).toList, isLowerAlpha c = false := by
    intro c hc
    have hdigit := isDigit_of_mem_toString hc
    simp only [Char.isDigit, Bool.and_eq_true, decide_eq_true_eq, UInt32.le_iff_toNat_le] at hdigit
    have hle : c.toNat ≤ 57 := hdigit.2
    have hlt : ¬('a'.toNat ≤ c.toNat ∧ c.toNat ≤ 'z'.toNat) := by
      have ha : 'a'.toNat = 97 := rfl
      omega
    exact decide_eq_false hlt
  have hdigits : (toString n).toList.all isDecimalDigit = true := by
    rw [List.all_eq_true]
    exact fun c hc => isDecimalDigit_of_isDigit (isDigit_of_mem_toString hc)
  have htext : (toString n).toList ≠ [] := by
    rw [Nat.toString_eq_repr, Nat.toList_repr]
    exact Nat.toDigits_ne_nil
  rw [List.all_eq_true] at halpha
  obtain ⟨d, ds, hds⟩ := List.exists_cons_of_ne_nil htext
  have hd : ¬isLowerAlpha d = true := by
    rw [hnodigit d (by rw [hds]; simp)]
    decide
  have htake : (identifier ++ (toString n).toList).takeWhile isLowerAlpha = identifier := by
    rw [List.takeWhile_append_of_pos halpha, hds, List.takeWhile_cons_of_neg hd, List.append_nil]
  have hdrop : (identifier ++ (toString n).toList).dropWhile isLowerAlpha =
      (toString n).toList := by
    rw [List.dropWhile_append_of_pos halpha, hds, List.dropWhile_cons_of_neg hd]
  rw [levelCaptures, htake, hdrop]
  exact if_pos ⟨hne, htext, hdigits⟩

theorem Level.fromStr_display {level : Level} (h : level.IsU64) :
    Level.fromStr level.display.toList = .ok level := by
  match level with
  | .alpha version =>
    rw [Level.display, String.toList_append, Level.fromStr,
      levelCaptures_append_toString version (by decide) (by decide)]
    simp only [parseU64_toString h]
    rfl
  | .beta version =>
    rw [Level.display, String.toList_append, Level.fromStr,
      levelCaptures_append_toString version (by decide) (by decide)]
    simp only [parseU64_toString h]
    rfl

/-! ### Versions -/

inductive ParseVersionError : Type
  | invalidFormat
  | parseMajorVersion (source : IntErrorKind)
  | parseLevel (source : ParseLevelError)
  deriving DecidableEq, Repr

/-- The regular expression `[a-z0-9][a-z0-9-]{0,60}[a-z0-9]`. -/
def versionLevelRegex : RegularExpression Char :=
  oneOf lowerAlphanums * upTo (oneOf lowerAlphanumsOrDash) 60 * oneOf lowerAlphanums

/-- The captures when `major` has the first `n` characters. -/
def versionCapturesAt (input : List Char) (n : ℕ) : Option (List Char × Option (List Char)) :=
  let level := input.drop n
  if versionLevelRegex.rmatch level then some (input.take n, some level)
  else if level = [] then some (input.take n, none)
  else none

/-- The captures `major` and `level` of
`^v(?P<major>\d+)(?P<level>[a-z0-9][a-z0-9-]{0,60}[a-z0-9])?$`. The first group takes as many
digits as the rest of the expression allows. -/
def versionCaptures (input : List Char) : Option (List Char × Option (List Char)) :=
  match input with
  | 'v' :: rest =>
    let digits := rest.takeWhile isDecimalDigit
    ((List.range digits.length).reverse.map (· + 1)).findSome? (versionCapturesAt rest)
  | _ => none

def Version.fromStr (input : List Char) : Except ParseVersionError Version :=
  match versionCaptures input with
  | none => .error .invalidFormat
  | some (major, level) =>
    match parseU64 major with
    | .error source => .error (.parseMajorVersion source)
    | .ok major =>
      match level with
      | some level =>
        match Level.fromStr level with
        | .error source => .error (.parseLevel source)
        | .ok level => .ok ⟨major, some level⟩
      | none => .ok ⟨major, none⟩

def Version.IsU64 (version : Version) : Prop :=
  version.major < u64Size ∧ ∀ level ∈ version.level, level.IsU64

/-- An identifier with a number behind it is a level in the expression of versions. -/
theorem rmatch_append_toString {a : Char} {v : List Char} {n : ℕ} (hfits : n < u64Size)
    (ha : Validation.isLowerAlphanum a = true)
    (hall : v.all Validation.isLowerAlphanumOrDash = true) (hlength : v.length ≤ 40) :
    versionLevelRegex.rmatch (a :: v ++ (toString n).toList) = true := by
  have htext : (toString n).toList = Nat.toDigits 10 n := by
    rw [Nat.toString_eq_repr, Nat.toList_repr]
  have hdigits : ∀ c ∈ Nat.toDigits 10 n, c ∈ lowerAlphanums := by
    intro c hc
    have hdigit : c.isDigit = true := Nat.isDigit_of_mem_toDigits (by decide) (by decide) hc
    rw [mem_lowerAlphanums, Validation.isLowerAlphanum, hdigit, Bool.or_true]
  have hshort : (Nat.toDigits 10 n).length ≤ 20 := by
    rw [Nat.length_toDigits_le_iff (by decide) (by decide)]
    exact hfits.trans (by decide)
  obtain ⟨ds, d, hds⟩ := (List.eq_nil_or_concat' _).resolve_left
    (Nat.toDigits_ne_nil (b := 10) (n := n))
  rw [htext, hds]
  rw [hds] at hdigits hshort
  rw [List.length_append, List.length_singleton] at hshort
  rw [List.forall_mem_append, List.forall_mem_singleton] at hdigits
  rw [rmatch_iff_matches', versionLevelRegex, mem_matches'_enclosed]
  refine ⟨a, v ++ ds, d, by simp, mem_lowerAlphanums.mpr ha, hdigits.2, ?_, ?_⟩
  · rw [List.length_append]
    omega
  · intro c hc
    obtain hc | hc := List.mem_append.mp hc
    · exact mem_lowerAlphanumsOrDash.mpr (List.all_eq_true.mp hall c hc)
    · exact List.mem_append_left _ (hdigits.1 c hc)

theorem rmatch_display {level : Level} (h : level.IsU64) :
    versionLevelRegex.rmatch level.display.toList = true := by
  match level with
  | .alpha version =>
    have hidentifier : "alpha".toList = 'a' :: ['l', 'p', 'h', 'a'] := by simp
    rw [Level.display, String.toList_append, hidentifier]
    exact rmatch_append_toString h (by decide) (by decide) (by decide)
  | .beta version =>
    have hidentifier : "beta".toList = 'b' :: ['e', 't', 'a'] := by simp
    rw [Level.display, String.toList_append, hidentifier]
    exact rmatch_append_toString h (by decide) (by decide) (by decide)

/-- The expression takes all digits when the rest fits behind them. -/
theorem versionCaptures_cons {rest : List Char} {captures : List Char × Option (List Char)}
    (hne : rest.takeWhile isDecimalDigit ≠ [])
    (h : versionCapturesAt rest (rest.takeWhile isDecimalDigit).length = some captures) :
    versionCaptures ('v' :: rest) = some captures := by
  have hpos := List.length_pos_of_ne_nil hne
  obtain ⟨n, hn⟩ := Nat.exists_eq_succ_of_ne_zero hpos.ne'
  rw [hn] at h
  simp only [versionCaptures, hn, List.range_succ, List.reverse_append, List.reverse_singleton,
    List.singleton_append, List.map_cons, List.findSome?_cons, h]

theorem isDecimalDigit_head?_display (level : Option Level) :
    ∀ c ∈ ((level.map Level.display).getD "").toList.head?, isDecimalDigit c = false := by
  match level with
  | none => simp
  | some (.alpha n) =>
    have ha : isDecimalDigit 'a' = false := isDecimalDigit_eq_false (by decide) (by decide)
    simp [Level.display, String.toList_append, ha]
  | some (.beta n) =>
    have hb : isDecimalDigit 'b' = false := isDecimalDigit_eq_false (by decide) (by decide)
    simp [Level.display, String.toList_append, hb]

/-- A level begins with a letter, so that the digits before it are those of the major version. -/
theorem versionCaptures_display {major : ℕ} {level : Option Level}
    (h : ∀ l ∈ level, l.IsU64) :
    versionCaptures (Version.display ⟨major, level⟩).toList =
      some ((toString major).toList, level.map fun l => l.display.toList) := by
  have htext : (Version.display ⟨major, level⟩).toList =
      'v' :: ((toString major).toList ++ ((level.map Level.display).getD "").toList) := by
    simp [Version.display, String.toList_append]
  have hdigits : ((toString major).toList ++
      ((level.map Level.display).getD "").toList).takeWhile isDecimalDigit =
        (toString major).toList := by
    rw [List.takeWhile_append_of_pos fun c hc =>
      isDecimalDigit_of_isDigit (isDigit_of_mem_toString hc)]
    have hhead := isDecimalDigit_head?_display level
    cases hds : ((level.map Level.display).getD "").toList with
    | nil => simp
    | cons d ds =>
      rw [hds] at hhead
      rw [List.takeWhile_cons_of_neg (by simp [hhead d rfl]), List.append_nil]
  have hne : (toString major).toList ≠ [] := by
    rw [Nat.toString_eq_repr, Nat.toList_repr]
    exact Nat.toDigits_ne_nil
  rw [htext]
  apply versionCaptures_cons
  · rw [hdigits]
    exact hne
  rw [hdigits, versionCapturesAt, List.drop_left, List.take_left]
  cases level with
  | none =>
    have hempty : versionLevelRegex.rmatch [] = false := by decide
    simp [hempty]
  | some level =>
    simp only [Option.map_some, Option.getD_some, rmatch_display (h level rfl), if_true]

theorem Version.fromStr_display {version : Version} (h : version.IsU64) :
    Version.fromStr version.display.toList = .ok version := by
  obtain ⟨major, level⟩ := version
  rw [Version.fromStr, versionCaptures_display h.2]
  simp only [parseU64_toString h.1]
  match level with
  | none => rfl
  | some level =>
    simp only [Option.map_some, Level.fromStr_display (h.2 level rfl)]

end StackableOperator
