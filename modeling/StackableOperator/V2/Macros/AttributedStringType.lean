import Mathlib
import StackableOperator.ForMathlib.Traverse
import StackableOperator.Kvp.Label

/-!
# Restricted string types

The macro `attributed_string_type!` defines a string type by a list of attributes, such as a
maximum length or a grammar. `AttributedString attributes` is that type: its values carry the
fact that every attribute accepts them. `fromStr` checks the attributes in their order.
-/

namespace StackableOperator

namespace V2

/-- The attributes of a string type. A regular expression is given with what it is compiled to: a
matcher, or the text of an error. -/
inductive Attribute : Type
  | minLength (minLength : ℕ)
  | maxLength (maxLength : ℕ)
  | regex (regex : String) (compiled : Except String (List Char → Bool))
  | isRfc1035LabelName
  | isRfc1123DnsSubdomainName
  | isRfc1123LabelName
  | isValidLabelValue
  /-- A UUID, with `uuid::Uuid::try_parse`. -/
  | isUid (tryParse : String → Except String Unit)

inductive AttributedStringError : Type
  | minimumLengthNotMet (length minLength : ℕ)
  | lengthExceeded (length maxLength : ℕ)
  | invalidRegex (source : String)
  | regexNotMatched (value regex : String)
  | invalidLabelValue (source : Kvp.LabelValueError)
  | invalidRfc1035LabelName (source : Validation.Errors)
  | invalidRfc1123DnsSubdomainName (source : Validation.Errors)
  | invalidRfc1123LabelName (source : Validation.Errors)
  | invalidUid (source : String)
  deriving DecidableEq

/-- The greatest machine integer, the upper bound if no attribute restricts the length. -/
def usizeMax : ℕ := 2 ^ 64 - 1

def maxLabelValueLength : ℕ := 63

/-- The length of a UUID with hyphens. -/
def hyphenatedLength : ℕ := 36

namespace Attribute

/-- The constant `MIN_LENGTH`. -/
def minLengthOf : List Attribute → ℕ
  | [] => 0
  | minLength n :: attributes => max n (minLengthOf attributes)
  | maxLength _ :: attributes | regex _ _ :: attributes => minLengthOf attributes
  | isRfc1035LabelName :: attributes | isRfc1123DnsSubdomainName :: attributes
  | isRfc1123LabelName :: attributes | isValidLabelValue :: attributes =>
    max 1 (minLengthOf attributes)
  | isUid _ :: attributes => max hyphenatedLength (minLengthOf attributes)

/-- The constant `MAX_LENGTH`. -/
def maxLengthOf : List Attribute → ℕ
  | [] => usizeMax
  | maxLength n :: attributes => min n (maxLengthOf attributes)
  | minLength _ :: attributes | regex _ _ :: attributes => maxLengthOf attributes
  | isRfc1035LabelName :: attributes =>
    min Validation.rfc1035LabelMaxLength (maxLengthOf attributes)
  | isRfc1123DnsSubdomainName :: attributes =>
    min Validation.rfc1123SubdomainMaxLength (maxLengthOf attributes)
  | isRfc1123LabelName :: attributes =>
    min Validation.rfc1123LabelMaxLength (maxLengthOf attributes)
  | isValidLabelValue :: attributes => min maxLabelValueLength (maxLengthOf attributes)
  | isUid _ :: attributes => min hyphenatedLength (maxLengthOf attributes)

/-- Check one attribute of a type whose attributes are `attributes`. -/
def check (attributes : List Attribute) (s : String) : Attribute → Except AttributedStringError Unit
  | minLength _ =>
    if minLengthOf attributes ≤ s.utf8ByteSize then .ok ()
    else .error (.minimumLengthNotMet s.utf8ByteSize (minLengthOf attributes))
  | maxLength _ =>
    if s.utf8ByteSize ≤ maxLengthOf attributes then .ok ()
    else .error (.lengthExceeded s.utf8ByteSize (maxLengthOf attributes))
  | regex expression compiled =>
    match compiled with
    | .ok isMatch => if isMatch s.toList then .ok () else .error (.regexNotMatched s expression)
    | .error source => .error (.invalidRegex source)
  | isRfc1035LabelName =>
    (Validation.isLowercaseRfc1035Label s).mapError .invalidRfc1035LabelName
  | isRfc1123DnsSubdomainName =>
    (Validation.isLowercaseRfc1123Subdomain s).mapError .invalidRfc1123DnsSubdomainName
  | isRfc1123LabelName =>
    (Validation.isLowercaseRfc1123Label s).mapError .invalidRfc1123LabelName
  | isValidLabelValue => (Kvp.LabelValue.check s).mapError .invalidLabelValue
  | isUid tryParse => (tryParse s).mapError .invalidUid

/-! ### What the attributes accept -/

section Check

variable {attributes : List Attribute} {s : String}

theorem check_maxLength_iff {n : ℕ} :
    (maxLength n).check attributes s = .ok () ↔ s.utf8ByteSize ≤ maxLengthOf attributes := by
  have hcheck : (maxLength n).check attributes s = if s.utf8ByteSize ≤ maxLengthOf attributes then
      .ok () else .error (.lengthExceeded s.utf8ByteSize (maxLengthOf attributes)) := rfl
  rw [hcheck]
  split_ifs with hlength <;> simp [hlength]

theorem check_isRfc1035LabelName_iff : isRfc1035LabelName.check attributes s = .ok () ↔
    s.utf8ByteSize ≤ Validation.rfc1035LabelMaxLength ∧
      Validation.matchesLowercaseRfc1035Label s.toList = true :=
  mapError_eq_ok_iff.trans Validation.isLowercaseRfc1035Label_eq_ok_iff

theorem check_isRfc1123DnsSubdomainName_iff :
    isRfc1123DnsSubdomainName.check attributes s = .ok () ↔
      s.utf8ByteSize ≤ Validation.rfc1123SubdomainMaxLength ∧
        Validation.matchesLowercaseRfc1123Subdomain s.toList = true :=
  mapError_eq_ok_iff.trans Validation.isLowercaseRfc1123Subdomain_eq_ok_iff

theorem check_isRfc1123LabelName_iff : isRfc1123LabelName.check attributes s = .ok () ↔
    s.utf8ByteSize ≤ Validation.rfc1123LabelMaxLength ∧
      Validation.matchesLowercaseRfc1123Label s.toList = true :=
  mapError_eq_ok_iff.trans Validation.isLowercaseRfc1123Label_eq_ok_iff

theorem check_isValidLabelValue_iff :
    isValidLabelValue.check attributes s = .ok () ↔ Kvp.LabelValue.check s = .ok () :=
  mapError_eq_ok_iff

theorem check_isUid_iff {tryParse : String → Except String Unit} :
    (isUid tryParse).check attributes s = .ok () ↔ tryParse s = .ok () :=
  mapError_eq_ok_iff

end Check

/-- Check attributes in their order. -/
def checkAll (attributes : List Attribute) (s : String) :
    List Attribute → Except AttributedStringError Unit
  | [] => .ok ()
  | a :: rest =>
    match a.check attributes s with
    | .ok () => checkAll attributes s rest
    | .error e => .error e

theorem checkAll_eq_ok_iff {attributes : List Attribute} {s : String} {l : List Attribute} :
    checkAll attributes s l = .ok () ↔ ∀ a ∈ l, a.check attributes s = .ok () := by
  induction l with
  | nil => simp [checkAll]
  | cons a l ih =>
    rw [List.forall_mem_cons, ← ih, checkAll]
    cases a.check attributes s <;> simp

end Attribute

/-- A string that all attributes accept. -/
abbrev AttributedString (attributes : List Attribute) : Type :=
  { s : String // ∀ a ∈ attributes, a.check attributes s = .ok () }

namespace AttributedString

variable {attributes : List Attribute}

def fromStr (attributes : List Attribute) (s : String) :
    Except AttributedStringError (AttributedString attributes) :=
  match h : Attribute.checkAll attributes s attributes with
  | .ok () => .ok ⟨s, Attribute.checkAll_eq_ok_iff.mp h⟩
  | .error e => .error e

/-- A string is parsed iff all attributes accept it, and then it is kept as it is. -/
theorem fromStr_eq_ok_iff {s : String} {name : AttributedString attributes} :
    fromStr attributes s = .ok name ↔ name.1 = s := by
  unfold fromStr
  constructor
  · intro h
    split at h
    · rw [← Except.ok.inj h]
    · simp at h
  · rintro rfl
    split
    · rfl
    · rename_i e he
      rw [Attribute.checkAll_eq_ok_iff.mpr name.2] at he
      simp at he

/-- A string that all attributes accept is parsed. -/
theorem fromStr_eq_ok {s : String} (h : ∀ a ∈ attributes, a.check attributes s = .ok ()) :
    fromStr attributes s = .ok ⟨s, h⟩ :=
  fromStr_eq_ok_iff.mpr rfl

/-- The names whose attributes include `isValidLabelValue` are valid label values. -/
theorem check_labelValue (hmem : .isValidLabelValue ∈ attributes)
    (name : AttributedString attributes) : Kvp.LabelValue.check name.1 = .ok () :=
  Attribute.check_isValidLabelValue_iff.mp (name.2 _ hmem)

end AttributedString

end V2

end StackableOperator
