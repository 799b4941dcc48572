import Mathlib
import StackableOperator.ForMathlib.CodeUnits
import StackableOperator.RustStd.CharBoundary
import StackableOperator.Kvp.KeyFromStr
import StackableOperator.V2.Macros.AttributedStringType

/-!
# Constants and schemas of restricted string types

Beside `fromStr` the macro `attributed_string_type!` computes a minimum length, a maximum length, a
regular expression and from these a JSON schema, each by a recursion over the attributes.

Each of them is about the single attributes (`minLengthOf_le_iff`, `le_maxLengthOf_iff`,
`exists_of_regexOf_eq`). What `fromStr` accepts satisfies them iff UUIDs are written with hyphens
and the minimum lengths also hold for the number of characters (`consistent_iff`). The parser of
UUIDs is a parameter, of which only is known that it accepts UUIDs with hyphens, and no other text
of their length (`IsUuidParser`).
-/

namespace StackableOperator

namespace V2

/-- Combined regular expressions. An expression is given with what it is compiled to. -/
inductive Regex : Type
  /-- There is a regular expression, but it is unknown. -/
  | unknown
  | matchAll
  | expression (regex : String) (compiled : Except String (List Char → Bool))

namespace Regex

/-- Combine this regular expression with the given one. Two of them are too hard to combine. -/
def combine : Regex → Regex → Regex
  | self, matchAll => self
  | matchAll, other => other
  | _, _ => unknown

/-- The text is matched, as far as the expression is known. -/
def Accepts (self : Regex) (s : List Char) : Prop :=
  match self with
  | expression _ compiled => ∃ isMatch, compiled = .ok isMatch ∧ isMatch s = true
  | _ => True

end Regex

/-- The schema of a string. -/
structure JsonSchema where
  minLength : ℕ
  maxLength : Option ℕ
  pattern : Regex

/-- The lengths of a schema are numbers of characters. -/
structure JsonSchema.Accepts (schema : JsonSchema) (s : String) : Prop where
  minLength : schema.minLength ≤ s.length
  maxLength : ∀ n ∈ schema.maxLength, s.length ≤ n
  pattern : schema.pattern.Accepts s.toList

namespace Attribute

variable {attributes : List Attribute} {s : String}

/-- Groups of 8, 4, 4, 4 and 12 hexadecimal digits, separated by hyphens. -/
def isHyphenatedUuid (cs : List Char) : Bool :=
  ((cs.splitOn '-').map List.length = [8, 4, 4, 4, 12]) &&
    (cs.splitOn '-').all fun group => group.all isHexDigit

/-- The minimum length that one attribute asks for. -/
def minimum : Attribute → ℕ
  | minLength n => n
  | maxLength _ | regex _ _ => 0
  | isRfc1035LabelName | isRfc1123DnsSubdomainName | isRfc1123LabelName | isValidLabelValue => 1
  | isUid _ => hyphenatedLength

/-- The maximum length that one attribute asks for. -/
def maximum : Attribute → ℕ
  | maxLength n => n
  | minLength _ | regex _ _ => usizeMax
  | isRfc1035LabelName => Validation.rfc1035LabelMaxLength
  | isRfc1123DnsSubdomainName => Validation.rfc1123SubdomainMaxLength
  | isRfc1123LabelName => Validation.rfc1123LabelMaxLength
  | isValidLabelValue => maxLabelValueLength
  | isUid _ => hyphenatedLength

/-- The regular expression of one attribute. -/
def toRegex : Attribute → Regex
  | minLength _ | maxLength _ => .matchAll
  | regex expression compiled => .expression expression compiled
  | isRfc1035LabelName =>
    .expression "^[a-z]([-a-z0-9]*[a-z0-9])?$" (.ok Validation.matchesLowercaseRfc1035Label)
  | isRfc1123DnsSubdomainName =>
    .expression "^[a-z0-9]([-a-z0-9]*[a-z0-9])?(\\.[a-z0-9]([-a-z0-9]*[a-z0-9])?)*$"
      (.ok Validation.matchesLowercaseRfc1123Subdomain)
  | isRfc1123LabelName =>
    .expression "^[a-z0-9]([-a-z0-9]*[a-z0-9])?$" (.ok Validation.matchesLowercaseRfc1123Label)
  | isValidLabelValue =>
    .expression "^[a-z0-9A-Z]([a-z0-9A-Z-_.]*[a-z0-9A-Z]+)?$" (.ok Kvp.matchesName)
  | isUid _ =>
    .expression ("^[0-9a-fA-F]\x7b8\x7d-[0-9a-fA-F]\x7b4\x7d-[0-9a-fA-F]\x7b4\x7d-" ++
      "[0-9a-fA-F]\x7b4\x7d-[0-9a-fA-F]\x7b12\x7d$") (.ok isHyphenatedUuid)

/-- The constant `REGEX`. -/
def regexOf : List Attribute → Regex
  | [] => .matchAll
  | minLength _ :: attributes | maxLength _ :: attributes => regexOf attributes
  | a :: attributes => a.toRegex.combine (regexOf attributes)

/-- The function `json_schema`. -/
def jsonSchema (attributes : List Attribute) : JsonSchema where
  minLength := minLengthOf attributes
  maxLength := if maxLengthOf attributes ≠ usizeMax then some (maxLengthOf attributes) else none
  pattern := regexOf attributes

/-! ### The constants, attribute by attribute -/

/-- The patterns of names are the expressions that the names are checked with. -/
theorem toRegex_eq_validation :
    isRfc1035LabelName.toRegex = .expression ("^" ++ Validation.lowercaseRfc1035LabelFmt ++ "$")
        (.ok Validation.matchesLowercaseRfc1035Label) ∧
      isRfc1123DnsSubdomainName.toRegex =
        .expression ("^" ++ Validation.lowercaseRfc1123SubdomainFmt ++ "$")
          (.ok Validation.matchesLowercaseRfc1123Subdomain) ∧
      isRfc1123LabelName.toRegex =
        .expression ("^" ++ Validation.lowercaseRfc1123LabelFmt ++ "$")
          (.ok Validation.matchesLowercaseRfc1123Label) :=
  ⟨congrArg (Regex.expression · _) (by decide +kernel),
    congrArg (Regex.expression · _) (by decide +kernel),
    congrArg (Regex.expression · _) (by decide +kernel)⟩

theorem minLengthOf_cons (a : Attribute) (attributes : List Attribute) :
    minLengthOf (a :: attributes) = max a.minimum (minLengthOf attributes) := by
  cases a <;> simp [minLengthOf, minimum]

theorem minLengthOf_le_iff {n : ℕ} :
    minLengthOf attributes ≤ n ↔ ∀ a ∈ attributes, a.minimum ≤ n := by
  induction attributes with
  | nil => simp [minLengthOf]
  | cons a attributes ih => rw [minLengthOf_cons, max_le_iff, ih, List.forall_mem_cons]

theorem maxLengthOf_le_usizeMax : maxLengthOf attributes ≤ usizeMax := by
  induction attributes with
  | nil => exact le_rfl
  | cons a attributes ih => cases a <;> simp [maxLengthOf, ih]

theorem maxLengthOf_cons (a : Attribute) (attributes : List Attribute) :
    maxLengthOf (a :: attributes) = min a.maximum (maxLengthOf attributes) := by
  have hmax : maxLengthOf attributes ≤ usizeMax := maxLengthOf_le_usizeMax
  cases a <;> simp [maxLengthOf, maximum, hmax]

theorem le_maxLengthOf_iff {n : ℕ} (hn : n ≤ usizeMax) :
    n ≤ maxLengthOf attributes ↔ ∀ a ∈ attributes, n ≤ a.maximum := by
  induction attributes with
  | nil => simp [maxLengthOf, hn]
  | cons a attributes ih => rw [maxLengthOf_cons, le_min_iff, ih, List.forall_mem_cons]

theorem regexOf_cons (a : Attribute) (attributes : List Attribute) :
    regexOf (a :: attributes) = a.toRegex.combine (regexOf attributes) := by
  cases a with
  | minLength n =>
    cases hregex : regexOf attributes <;> simp [regexOf, toRegex, Regex.combine, hregex]
  | maxLength n =>
    cases hregex : regexOf attributes <;> simp [regexOf, toRegex, Regex.combine, hregex]
  | _ => rfl

/-- A known regular expression is the one of an attribute. -/
theorem exists_of_regexOf_eq {expression : String} {compiled : Except String (List Char → Bool)}
    (h : regexOf attributes = .expression expression compiled) :
    ∃ a ∈ attributes, a.toRegex = .expression expression compiled := by
  induction attributes with
  | nil => cases h
  | cons a attributes ih =>
    rw [regexOf_cons] at h
    match ha : a.toRegex, hrest : regexOf attributes with
    | r, .matchAll =>
      rw [ha, hrest, Regex.combine] at h
      exact ⟨a, List.mem_cons_self, ha.trans h⟩
    | .matchAll, .unknown => simp [ha, hrest, Regex.combine] at h
    | .matchAll, .expression _ _ =>
      rw [ha, hrest] at h
      obtain ⟨b, hb, hregex⟩ := ih (hrest.trans h)
      exact ⟨b, List.mem_cons_of_mem a hb, hregex⟩
    | .unknown, .unknown => simp [ha, hrest, Regex.combine] at h
    | .unknown, .expression _ _ => simp [ha, hrest, Regex.combine] at h
    | .expression _ _, .unknown => simp [ha, hrest, Regex.combine] at h
    | .expression _ _, .expression _ _ => simp [ha, hrest, Regex.combine] at h

/-! ### UUIDs -/

theorem toNat_lt_of_isHexDigit {c : Char} (h : isHexDigit c = true) : c.toNat < 128 := by
  simp only [isHexDigit, Char.isDigit, Bool.or_eq_true, Bool.and_eq_true, decide_eq_true_eq,
    Char.le_def, UInt32.le_iff_toNat_le] at h
  have htoNat : c.toNat = c.val.toNat := rfl
  have hf : 'f'.val.toNat = 102 := rfl
  have hF : 'F'.val.toNat = 70 := rfl
  have hnine : '9'.val.toNat = 57 := rfl
  omega

theorem length_intercalate_dash (groups : List (List Char)) (group : List Char) :
    (['-'].intercalate (group :: groups)).length =
      ((group :: groups).map List.length).sum + groups.length := by
  induction groups generalizing group with
  | nil => simp
  | cons next groups ih =>
    rw [List.intercalate_cons_cons, List.append_assoc, List.length_append, List.length_append, ih]
    simp
    omega

/-- A UUID with hyphens has 36 characters, each of one byte. -/
theorem length_of_isHyphenatedUuid {cs : List Char} (h : isHyphenatedUuid cs = true) :
    cs.length = hyphenatedLength ∧ ∀ c ∈ cs, c.toNat < 128 := by
  rw [isHyphenatedUuid, Bool.and_eq_true, decide_eq_true_eq, List.all_eq_true] at h
  obtain ⟨hlengths, hdigits⟩ := h
  have hjoin : ['-'].intercalate (cs.splitOn '-') = cs := List.intercalate_splitOn '-'
  constructor
  · obtain ⟨group, groups, hgroups⟩ := List.exists_cons_of_ne_nil (List.splitOn_ne_nil '-' cs)
    rw [hgroups] at hlengths hjoin
    have hlength : groups.length = 4 := by
      have hmap := congrArg List.length hlengths
      simpa using hmap
    rw [← hjoin, length_intercalate_dash, hlengths, hlength]
    rfl
  · intro c hc
    obtain rfl | ⟨group, hgroup, hmem⟩ := eq_or_exists_mem_splitOn (a := '-') hc
    · decide
    · exact toNat_lt_of_isHexDigit (List.all_eq_true.mp (hdigits group hgroup) c hmem)

theorem length_le_utf8Size (cs : List Char) : cs.length ≤ utf8Size cs := by
  induction cs with
  | nil => exact Nat.zero_le _
  | cons c cs ih =>
    have hpos := Char.utf8Size_pos c
    rw [utf8Size_cons, List.length_cons]
    omega

/-- What is documented of `uuid::Uuid::try_parse`: UUIDs with hyphens are accepted, and the other
accepted formats do not have their length. -/
structure IsUuidParser (tryParse : String → Except String Unit) : Prop where
  tryParse_hyphenated : ∀ s, isHyphenatedUuid s.toList = true → tryParse s = .ok ()
  isHyphenatedUuid_of_length : ∀ s, tryParse s = .ok () → s.utf8ByteSize = hyphenatedLength →
    isHyphenatedUuid s.toList = true

/-! ### What is accepted -/

/-- Names are not empty. -/
theorem length_pos_of_check {a : Attribute} (h : a.check attributes s = .ok ())
    (hone : a.minimum = 1) (hne : ∀ n, a ≠ minLength n) : 1 ≤ s.length := by
  rw [← String.length_toList, Nat.one_le_iff_ne_zero, Ne, List.length_eq_zero_iff]
  intro hnil
  cases a with
  | minLength n => exact hne n rfl
  | isRfc1035LabelName =>
    have hmatch := (check_isRfc1035LabelName_iff.mp h).2
    rw [hnil] at hmatch
    exact absurd hmatch (by decide)
  | isRfc1123DnsSubdomainName =>
    have hmatch := (check_isRfc1123DnsSubdomainName_iff.mp h).2
    rw [hnil] at hmatch
    exact absurd hmatch (by decide)
  | isRfc1123LabelName =>
    have hmatch := (check_isRfc1123LabelName_iff.mp h).2
    rw [hnil] at hmatch
    exact absurd hmatch (by decide)
  | isValidLabelValue =>
    have hmatch := (Kvp.LabelValue.check_eq_ok_iff.mp (check_isValidLabelValue_iff.mp h)).2.2
    rw [hnil] at hmatch
    exact absurd hmatch (by decide)
  | _ => cases hone

theorem check_regex_iff {expression : String} {compiled : Except String (List Char → Bool)} :
    (regex expression compiled).check attributes s = .ok () ↔
      ∃ isMatch, compiled = .ok isMatch ∧ isMatch s.toList = true := by
  cases compiled with
  | error source => simp [check]
  | ok isMatch =>
    have hcheck : (regex expression (.ok isMatch)).check attributes s =
        if isMatch s.toList then .ok () else .error (.regexNotMatched s expression) := rfl
    rw [hcheck]
    split_ifs with hmatch <;> simp [hmatch]

/-- An accepted string matches the expression of each attribute, if UUIDs have hyphens. -/
theorem accepts_toRegex {a : Attribute} (h : a.check attributes s = .ok ())
    (huid : ∀ tryParse, a = isUid tryParse → isHyphenatedUuid s.toList = true) :
    a.toRegex.Accepts s.toList := by
  cases a with
  | minLength n => trivial
  | maxLength n => trivial
  | regex expression compiled => exact check_regex_iff.mp h
  | isRfc1035LabelName => exact ⟨_, rfl, (check_isRfc1035LabelName_iff.mp h).2⟩
  | isRfc1123DnsSubdomainName => exact ⟨_, rfl, (check_isRfc1123DnsSubdomainName_iff.mp h).2⟩
  | isRfc1123LabelName => exact ⟨_, rfl, (check_isRfc1123LabelName_iff.mp h).2⟩
  | isValidLabelValue =>
    exact ⟨_, rfl, (Kvp.LabelValue.check_eq_ok_iff.mp (check_isValidLabelValue_iff.mp h)).2.2⟩
  | isUid tryParse => exact ⟨_, rfl, huid tryParse rfl⟩

/-- An accepted string is not longer than each attribute asks for, if UUIDs have hyphens. -/
theorem utf8ByteSize_le_maximum {a : Attribute} (hmem : a ∈ attributes)
    (h : a.check attributes s = .ok ()) (hsize : s.utf8ByteSize ≤ usizeMax)
    (huid : ∀ tryParse, a = isUid tryParse → isHyphenatedUuid s.toList = true) :
    s.utf8ByteSize ≤ a.maximum := by
  cases a with
  | minLength n => exact hsize
  | maxLength n =>
    exact (le_maxLengthOf_iff hsize).mp (check_maxLength_iff.mp h) _ hmem
  | regex expression compiled => exact hsize
  | isRfc1035LabelName => exact (check_isRfc1035LabelName_iff.mp h).1
  | isRfc1123DnsSubdomainName => exact (check_isRfc1123DnsSubdomainName_iff.mp h).1
  | isRfc1123LabelName => exact (check_isRfc1123LabelName_iff.mp h).1
  | isValidLabelValue =>
    exact (Kvp.LabelValue.check_eq_ok_iff.mp (check_isValidLabelValue_iff.mp h)).1
  | isUid tryParse =>
    obtain ⟨hlength, hascii⟩ := length_of_isHyphenatedUuid (huid tryParse rfl)
    rw [utf8ByteSize_eq_utf8Size, utf8Size_eq_length hascii, hlength]
    exact le_rfl

/-- An accepted string has as many characters as each attribute asks for, if UUIDs have hyphens and
the minimum lengths hold. -/
theorem minimum_le_length {a : Attribute} (h : a.check attributes s = .ok ())
    (hmin : ∀ n, a = minLength n → n ≤ s.length)
    (huid : ∀ tryParse, a = isUid tryParse → isHyphenatedUuid s.toList = true) :
    a.minimum ≤ s.length := by
  cases a with
  | minLength n => exact hmin n rfl
  | maxLength n => exact Nat.zero_le _
  | regex expression compiled => exact Nat.zero_le _
  | isUid tryParse =>
    have hlength := (length_of_isHyphenatedUuid (huid tryParse rfl)).1
    rw [String.length_toList] at hlength
    exact hlength.ge
  | _ => exact length_pos_of_check h rfl (by simp)

end Attribute

open Attribute

/-- The constants of a string type and its schema hold for a string. -/
structure Consistent (attributes : List Attribute) (s : String) : Prop where
  minLength : minLengthOf attributes ≤ s.utf8ByteSize
  maxLength : s.utf8ByteSize ≤ maxLengthOf attributes
  regex : (regexOf attributes).Accepts s.toList
  schema : (jsonSchema attributes).Accepts s

theorem length_le_utf8ByteSize (s : String) : s.length ≤ s.utf8ByteSize := by
  rw [utf8ByteSize_eq_utf8Size, ← String.length_toList]
  exact length_le_utf8Size s.toList

/-- **What a string type accepts is consistent with its constants and its schema** iff UUIDs are
written with hyphens, and the minimum lengths hold for characters and not only for bytes. -/
theorem consistent_iff {attributes : List Attribute} {s : String}
    (hparser : ∀ tryParse, isUid tryParse ∈ attributes → IsUuidParser tryParse)
    (hsize : s.utf8ByteSize ≤ usizeMax) (name : AttributedString attributes)
    (h : AttributedString.fromStr attributes s = .ok name) :
    Consistent attributes s ↔
      (∀ tryParse, isUid tryParse ∈ attributes → isHyphenatedUuid s.toList = true) ∧
        ∀ n, minLength n ∈ attributes → n ≤ s.length := by
  have hcheck : ∀ a ∈ attributes, a.check attributes s = .ok () :=
    AttributedString.fromStr_eq_ok_iff.mp h ▸ name.2
  constructor
  · rintro ⟨hmin, hmax, hregex, hschema⟩
    refine ⟨fun tryParse huid => ?_, fun n hn => ?_⟩
    · -- the bounds leave only the length with hyphens
      have hle := (le_maxLengthOf_iff hsize).mp hmax _ huid
      have hge := minLengthOf_le_iff.mp hmin _ huid
      exact (hparser tryParse huid).isHyphenatedUuid_of_length s
        (check_isUid_iff.mp (hcheck _ huid)) (le_antisymm hle hge)
    · exact minLengthOf_le_iff.mp hschema.minLength _ hn
  · rintro ⟨huid, hmin⟩
    have hlength : minLengthOf attributes ≤ s.length := minLengthOf_le_iff.mpr fun a ha =>
      minimum_le_length (hcheck a ha) (fun n hn => hmin n (hn ▸ ha))
        fun tryParse heq => huid tryParse (heq ▸ ha)
    have hmax : s.utf8ByteSize ≤ maxLengthOf attributes :=
      (le_maxLengthOf_iff hsize).mpr fun a ha =>
        utf8ByteSize_le_maximum ha (hcheck a ha) hsize
          fun tryParse heq => huid tryParse (heq ▸ ha)
    have hregex : (regexOf attributes).Accepts s.toList := by
      match hregexOf : regexOf attributes with
      | .unknown => trivial
      | .matchAll => trivial
      | .expression expression compiled =>
        obtain ⟨a, ha, haregex⟩ := exists_of_regexOf_eq hregexOf
        exact haregex ▸ accepts_toRegex (hcheck a ha) fun tryParse heq => huid tryParse (heq ▸ ha)
    refine ⟨hlength.trans (length_le_utf8ByteSize s), hmax, hregex, hlength, fun n hn => ?_, hregex⟩
    rw [jsonSchema] at hn
    split_ifs at hn
    · rw [← Option.some.inj hn]
      exact (length_le_utf8ByteSize s).trans hmax
    · cases hn

/-- What the schema of UUIDs accepts is parsed. -/
theorem exists_fromStr_isUid {tryParse : String → Except String Unit}
    (hparser : IsUuidParser tryParse) {s : String}
    (h : (jsonSchema [isUid tryParse]).Accepts s) :
    ∃ name, AttributedString.fromStr [isUid tryParse] s = .ok name := by
  obtain ⟨isMatch, hcompiled, hmatch⟩ := h.pattern
  obtain rfl := Except.ok.inj hcompiled
  exact ⟨_, AttributedString.fromStr_eq_ok (List.forall_mem_singleton.mpr
    (check_isUid_iff.mpr (hparser.tryParse_hyphenated s hmatch)))⟩

/-! ### UIDs -/

/-- The formats of UUIDs: with or without hyphens, as a URN, or braced. -/
def isUuid (cs : List Char) : Bool :=
  (cs.length = 32 && cs.all isHexDigit) || isHyphenatedUuid cs ||
    ("urn:uuid:".toList.isPrefixOf cs && isHyphenatedUuid (cs.drop 9)) ||
    (cs.head? == some '{' && cs.getLast? == some '}' && isHyphenatedUuid cs.tail.dropLast)

def tryParseUuid (s : String) : Except String Unit :=
  if isUuid s.toList then .ok () else .error "invalid length"

theorem tryParseUuid_eq_ok_iff {s : String} :
    tryParseUuid s = .ok () ↔ isUuid s.toList = true := by
  rw [tryParseUuid]
  split_ifs with huuid <;> simp [huuid]

/-- Of the formats only the one with hyphens has as many bytes. -/
theorem isUuidParser_tryParseUuid : IsUuidParser tryParseUuid where
  tryParse_hyphenated s h := tryParseUuid_eq_ok_iff.mpr (by simp [isUuid, h])
  isHyphenatedUuid_of_length s h hsize := by
    rw [tryParseUuid_eq_ok_iff] at h
    rw [utf8ByteSize_eq_utf8Size] at hsize
    have hle : s.toList.length ≤ hyphenatedLength := hsize ▸ length_le_utf8Size s.toList
    rw [hyphenatedLength] at hsize hle
    simp only [isUuid, Bool.or_eq_true, Bool.and_eq_true, decide_eq_true_eq, beq_iff_eq] at h
    obtain ((⟨hlength, hall⟩ | hyphenated) | ⟨-, hurn⟩) | ⟨⟨-, -⟩, hbraced⟩ := h
    · rw [List.all_eq_true] at hall
      rw [utf8Size_eq_length fun c hc => toNat_lt_of_isHexDigit (hall c hc)] at hsize
      omega
    · exact hyphenated
    · have hlength := (length_of_isHyphenatedUuid hurn).1
      rw [List.length_drop, hyphenatedLength] at hlength
      omega
    · have hlength := (length_of_isHyphenatedUuid hbraced).1
      rw [List.length_dropLast, List.length_tail, hyphenatedLength] at hlength
      omega

/-- The UID of an object. -/
theorem consistent_uid : Consistent [isUid tryParseUuid, isValidLabelValue, minLength 2]
    "c27b3971-ca72-42c1-80a4-782fc6c4a9a5" := by
  have hparser : ∀ tryParse, isUid tryParse ∈ [isUid tryParseUuid, isValidLabelValue, minLength 2] →
      IsUuidParser tryParse := by
    intro tryParse h
    obtain rfl : tryParse = tryParseUuid := by simpa using h
    exact isUuidParser_tryParseUuid
  refine (consistent_iff hparser (by decide +kernel)
    ⟨"c27b3971-ca72-42c1-80a4-782fc6c4a9a5", by decide +kernel⟩
    (AttributedString.fromStr_eq_ok (by decide +kernel))).mpr ⟨fun _ _ => by decide +kernel,
      fun n hn => ?_⟩
  obtain rfl : n = 2 := by simpa using hn
  decide +kernel

/-- A UUID without hyphens is accepted, but it is shorter than the minimum length says. -/
theorem not_consistent_uuid : ¬ ∀ (attributes : List Attribute) (s : String)
    (name : AttributedString attributes),
      (∀ tryParse, isUid tryParse ∈ attributes → IsUuidParser tryParse) →
        AttributedString.fromStr attributes s = .ok name → Consistent attributes s := by
  intro h
  have hparser : ∀ tryParse, isUid tryParse ∈ [isUid tryParseUuid] → IsUuidParser tryParse := by
    intro tryParse h
    obtain rfl : tryParse = tryParseUuid := by simpa using h
    exact isUuidParser_tryParseUuid
  have huuid : ∀ a ∈ [isUid tryParseUuid],
      a.check [isUid tryParseUuid] "67e5504410b1426f9247bb680e5fe0c8" = .ok () := by
    decide +kernel
  have hconsistent := h [isUid tryParseUuid] "67e5504410b1426f9247bb680e5fe0c8" _ hparser
    (AttributedString.fromStr_eq_ok huuid)
  exact absurd hconsistent.minLength (by decide +kernel)

/-- Two umlauts are accepted as four bytes, but the schema asks for three characters. -/
example : (minLength 3).check [minLength 3] "ää" = .ok () ∧
    ¬ (jsonSchema [minLength 3]).Accepts "ää" :=
  ⟨by decide +kernel, fun h => absurd h.minLength (by decide +kernel)⟩

end V2

end StackableOperator
