import Mathlib
import StackableOperator.ForMathlib.SplitOn

/-!
# Validation of names

The checks that Kubernetes makes on names. All grammars have the form `F(M*L)?`: a first
character, optionally followed by inner characters and a last one. `isSegment` is the matcher
for this form; `isSegment_append` joins two segments with a separator.
-/

namespace StackableOperator

/-- The regular expression `^F(M*L)?$` for the character classes `F`, `M` and `L`. -/
def isSegment (first inner last : Char → Bool) : List Char → Bool
  | [] => false
  | c :: cs => first c && (cs.isEmpty || (cs.dropLast.all inner && cs.getLast?.any last))

/-- The characters of a segment all are inner characters, if the others are. -/
theorem all_of_isSegment {first inner last : Char → Bool} {s : List Char}
    (hfirst : ∀ c, first c = true → inner c = true) (hlast : ∀ c, last c = true → inner c = true)
    (h : isSegment first inner last s = true) : ∀ c ∈ s, inner c = true := by
  intro x hx
  cases s with
  | nil => exact absurd hx List.not_mem_nil
  | cons c cs =>
    simp only [isSegment, Bool.and_eq_true, Bool.or_eq_true, List.isEmpty_iff] at h
    obtain ⟨hc, htail⟩ := h
    obtain rfl | hx := List.mem_cons.mp hx
    · exact hfirst x hc
    · obtain rfl | ⟨hall, hany⟩ := htail
      · exact absurd hx List.not_mem_nil
      · obtain ⟨front, z, rfl⟩ := (List.eq_nil_or_concat cs).resolve_left (List.ne_nil_of_mem hx)
        simp only [List.concat_eq_append, List.dropLast_concat, List.all_eq_true] at hall
        simp only [List.concat_eq_append, List.getLast?_concat, Option.any_some] at hany
        obtain hx | hx := List.mem_append.mp (List.concat_eq_append ▸ hx)
        · exact hall x hx
        · obtain rfl := List.mem_singleton.mp hx
          exact hlast x hany

/-- A segment is one character, or it has a first and a last one. -/
theorem isSegment_cons_iff {first inner last : Char → Bool} {c : Char} {cs : List Char} :
    isSegment first inner last (c :: cs) = true ↔
      first c = true ∧ (cs = [] ∨ ∃ front z, cs = front ++ [z] ∧
        (∀ x ∈ front, inner x = true) ∧ last z = true) := by
  rw [isSegment, Bool.and_eq_true, Bool.or_eq_true, List.isEmpty_iff]
  refine and_congr Iff.rfl (or_congr_right' fun hne => ?_)
  obtain ⟨front, z, rfl⟩ := (List.eq_nil_or_concat' cs).resolve_left hne
  rw [List.dropLast_concat, List.getLast?_concat, Option.any_some, Bool.and_eq_true,
    List.all_eq_true]
  constructor
  · rintro ⟨hall, hz⟩
    exact ⟨front, z, rfl, hall, hz⟩
  · rintro ⟨front', z', heq, hall, hz⟩
    obtain ⟨rfl, rfl⟩ := List.append_singleton_inj.mp heq
    exact ⟨hall, hz⟩

/-- A segment may end in another way than it does. -/
theorem isSegment_append_concat {first inner last : Char → Bool} {s cut : List Char}
    (front : List Char) {z : Char} (hfirst : ∀ c, first c = true → inner c = true)
    (hlast : ∀ c, last c = true → inner c = true) (hs : isSegment first inner last s = true)
    (hcut : cut <+: s) (hne : cut ≠ []) (hfront : ∀ c ∈ front, inner c = true)
    (hz : last z = true) : isSegment first inner last (cut ++ (front ++ [z])) = true := by
  have hall := all_of_isSegment hfirst hlast hs
  obtain ⟨c, cut, rfl⟩ := List.exists_cons_of_ne_nil hne
  obtain ⟨rest, rfl⟩ := hcut
  have hc : first c = true := (isSegment_cons_iff.mp hs).1
  have hinner : ∀ x ∈ cut ++ front, inner x = true := by
    refine List.forall_mem_append.mpr ⟨fun x hx => hall x ?_, hfront⟩
    exact List.mem_append_left rest (List.mem_cons_of_mem c hx)
  rw [List.cons_append, isSegment_cons_iff]
  exact ⟨hc, .inr ⟨cut ++ front, z, (List.append_assoc cut front [z]).symm, hinner, hz⟩⟩

/-- Two segments with an inner character in between are one segment. The second one may begin with
other characters than the first one. -/
theorem isSegment_append {first first' inner last : Char → Bool} {s t : List Char} {c : Char}
    (hfirst : ∀ c, first c = true → inner c = true) (hlast : ∀ c, last c = true → inner c = true)
    (hfirst' : ∀ c, first' c = true → last c = true) (hc : inner c = true)
    (hs : isSegment first inner last s = true) (ht : isSegment first' inner last t = true) :
    isSegment first inner last (s ++ c :: t) = true := by
  have hne : s ≠ [] := by
    rintro rfl
    cases hs
  have htall := all_of_isSegment (fun x hx => hlast x (hfirst' x hx)) hlast ht
  obtain ⟨b, t, rfl⟩ : ∃ b t', t = b :: t' := by
    refine List.exists_cons_of_ne_nil ?_
    rintro rfl
    cases ht
  rw [List.forall_mem_cons] at htall
  obtain ⟨hb, rfl | ⟨front, z, rfl, -, hz⟩⟩ := isSegment_cons_iff.mp ht
  · exact isSegment_append_concat [c] hfirst hlast hs (List.prefix_refl s) hne
      (List.forall_mem_singleton.mpr hc) (hfirst' b hb)
  · refine isSegment_append_concat (c :: b :: front) hfirst hlast hs (List.prefix_refl s)
      hne ?_ hz
    exact List.forall_mem_cons.mpr ⟨hc, List.forall_mem_cons.mpr
      ⟨htall.1, (List.forall_mem_append.mp htall.2).1⟩⟩

/-- With more characters in the classes more strings are segments. -/
theorem isSegment_mono {first inner last first' inner' last' : Char → Bool} {s : List Char}
    (hfirst : ∀ c, first c = true → first' c = true)
    (hinner : ∀ c, inner c = true → inner' c = true)
    (hlast : ∀ c, last c = true → last' c = true) (h : isSegment first inner last s = true) :
    isSegment first' inner' last' s = true := by
  cases s with
  | nil => exact h
  | cons c cs =>
    simp only [isSegment, Bool.and_eq_true, Bool.or_eq_true, List.all_eq_true,
      Option.any_eq_true] at h ⊢
    obtain ⟨hc, hempty | ⟨hall, d, hd, hmem⟩⟩ := h
    · exact ⟨hfirst c hc, Or.inl hempty⟩
    · exact ⟨hfirst c hc, Or.inr ⟨fun x hx => hinner x (hall x hx), d, hd, hlast d hmem⟩⟩

/-! ### The checks -/

namespace Validation

/-- A single validation error. -/
inductive Error : Type
  /-- The input does not match a regular expression. -/
  | regex (msg regex : String) (examples : List String)
  | tooLong (length maxLength : ℕ)
  deriving DecidableEq

/-- The errors discovered during validation. -/
abbrev Errors : Type := List Error

def rfc1123LabelMaxLength : ℕ := 63

def rfc1123SubdomainMaxLength : ℕ := 253

def rfc1035LabelMaxLength : ℕ := 63

def lowercaseRfc1123LabelFmt : String := "[a-z0-9]([-a-z0-9]*[a-z0-9])?"

def rfc1123LabelFmt : String := "[a-zA-Z0-9]([-a-zA-Z0-9]*[a-zA-Z0-9])?"

def lowercaseRfc1123SubdomainFmt : String :=
  lowercaseRfc1123LabelFmt ++ "(\\." ++ lowercaseRfc1123LabelFmt ++ ")*"

def lowercaseRfc1035LabelFmt : String := "[a-z]([-a-z0-9]*[a-z0-9])?"

def domainMaxLength : ℕ := rfc1123SubdomainMaxLength

def domainFmt : String := rfc1123LabelFmt ++ "(\\." ++ rfc1123LabelFmt ++ ")*\\.?"

/-- The character class `[a-z0-9]`. -/
def isLowerAlphanum (c : Char) : Bool := c.isLower || c.isDigit

/-- The character class `[-a-z0-9]`. -/
def isLowerAlphanumOrDash (c : Char) : Bool := c == '-' || isLowerAlphanum c

def matchesLowercaseRfc1123Label : List Char → Bool :=
  isSegment isLowerAlphanum isLowerAlphanumOrDash isLowerAlphanum

/-- One or more labels, separated by dots. -/
def matchesLowercaseRfc1123Subdomain (cs : List Char) : Bool :=
  (cs.splitOn '.').all matchesLowercaseRfc1123Label

/-- The character class `[-a-zA-Z0-9]`. -/
def isAlphanumOrDash (c : Char) : Bool := c == '-' || c.isAlphanum

def matchesRfc1123Label : List Char → Bool :=
  isSegment Char.isAlphanum isAlphanumOrDash Char.isAlphanum

/-- One or more labels, separated by dots. One more dot may follow. -/
def matchesDomain (cs : List Char) : Bool :=
  let labels := cs.splitOn '.'
  let labels := if 1 < labels.length ∧ labels.getLast? = some [] then labels.dropLast else labels
  labels.all matchesRfc1123Label

def matchesLowercaseRfc1035Label : List Char → Bool :=
  isSegment Char.isLower isLowerAlphanumOrDash isLowerAlphanum

def validateStrLength (value : String) (maxLength : ℕ) : Except Error Unit :=
  if value.utf8ByteSize > maxLength then .error (.tooLong value.utf8ByteSize maxLength) else .ok ()

/-- Check a regular expression, given by its matcher and its text. -/
def validateStrRegex (value : String) (isMatch : List Char → Bool) (regex errorMsg : String)
    (examples : List String) : Except Error Unit :=
  if isMatch value.toList then .ok () else .error (.regex errorMsg regex examples)

/-- All errors, if there are any. -/
def validateAll (validations : List (Except Error Unit)) : Except Errors Unit :=
  let errors := validations.filterMap fun
    | .ok () => none
    | .error e => some e
  if errors.isEmpty then .ok () else .error errors

def isDomain (value : String) : Except Errors Unit :=
  validateAll [
    validateStrLength value domainMaxLength,
    validateStrRegex value matchesDomain domainFmt
      ("a domain must consist of alphanumeric characters, '-' or '.', and must start with an " ++
        "alphanumeric character and end with an alphanumeric character or '.'")
      ["example.com", "example.com.", "cluster.local", "cluster.local."]]

def isLowercaseRfc1123Label (value : String) : Except Errors Unit :=
  validateAll [
    validateStrLength value rfc1123LabelMaxLength,
    validateStrRegex value matchesLowercaseRfc1123Label lowercaseRfc1123LabelFmt
      ("a lowercase RFC 1123 label must consist of lower case alphanumeric characters or '-', " ++
        "and must start and end with an alphanumeric character")
      ["example-label", "1-label-1"]]

def isLowercaseRfc1123Subdomain (value : String) : Except Errors Unit :=
  validateAll [
    validateStrLength value rfc1123SubdomainMaxLength,
    validateStrRegex value matchesLowercaseRfc1123Subdomain lowercaseRfc1123SubdomainFmt
      ("a lowercase RFC 1123 subdomain must consist of lower case alphanumeric characters, '-' " ++
        "or '.', and must start and end with an alphanumeric character")
      ["example.com"]]

def isLowercaseRfc1035Label (value : String) : Except Errors Unit :=
  validateAll [
    validateStrLength value rfc1035LabelMaxLength,
    validateStrRegex value matchesLowercaseRfc1035Label lowercaseRfc1035LabelFmt
      ("a DNS-1035 label must consist of lower case alphanumeric characters or '-', start with " ++
        "an alphabetic character, and end with an alphanumeric character")
      ["my-name", "abc-123"]]

/-! ### Names with a suffix -/

theorem isLowerAlphanumOrDash_of_isLowerAlphanum (c : Char) (h : isLowerAlphanum c = true) :
    isLowerAlphanumOrDash c = true := by
  rw [isLowerAlphanumOrDash, h, Bool.or_true]

theorem isAlphanum_of_isLowerAlphanum (c : Char) (h : isLowerAlphanum c = true) :
    c.isAlphanum = true := by
  rw [isLowerAlphanum, Bool.or_eq_true] at h
  obtain hlower | hdigit := h
  · rw [Char.isAlphanum, Char.isAlpha, hlower, Bool.or_true, Bool.true_or]
  · rw [Char.isAlphanum, hdigit, Bool.or_true]

theorem isLowerAlphanum_of_isLower (c : Char) (h : c.isLower = true) :
    isLowerAlphanum c = true := by
  rw [isLowerAlphanum, h, Bool.true_or]

/-- A lowercase RFC 1035 label is a lowercase RFC 1123 label. -/
theorem matchesLowercaseRfc1123Label_of_rfc1035 {s : List Char}
    (h : matchesLowercaseRfc1035Label s = true) : matchesLowercaseRfc1123Label s = true :=
  isSegment_mono isLowerAlphanum_of_isLower (fun _ h => h) (fun _ h => h) h

theorem dot_notMem_of_matchesLowercaseRfc1123Label {s : List Char}
    (h : matchesLowercaseRfc1123Label s = true) : '.' ∉ s := by
  intro hdot
  have hinner := all_of_isSegment isLowerAlphanumOrDash_of_isLowerAlphanum
    isLowerAlphanumOrDash_of_isLowerAlphanum h '.' hdot
  exact absurd hinner (by decide)

/-- A label is a subdomain. -/
theorem matchesLowercaseRfc1123Subdomain_of_label {s : List Char}
    (h : matchesLowercaseRfc1123Label s = true) : matchesLowercaseRfc1123Subdomain s = true := by
  have hsplit := splitOn_append_of_notMem (t := [])
    (dot_notMem_of_matchesLowercaseRfc1123Label h)
  rw [List.append_nil] at hsplit
  rw [matchesLowercaseRfc1123Subdomain, hsplit]
  simpa using h

/-- A subdomain stays one if a dash and a label are appended. -/
theorem matchesLowercaseRfc1123Subdomain_append {s t : List Char}
    (hs : matchesLowercaseRfc1123Subdomain s = true) (ht : matchesLowercaseRfc1123Label t = true) :
    matchesLowercaseRfc1123Subdomain (s ++ '-' :: t) = true := by
  have hdot : '.' ∉ '-' :: t :=
    List.not_mem_cons_of_ne_of_not_mem (by decide) (dot_notMem_of_matchesLowercaseRfc1123Label ht)
  obtain ⟨front, last, hsplit, happend⟩ := exists_splitOn_append (a := '.') s
  rw [matchesLowercaseRfc1123Subdomain, hsplit, List.all_append, Bool.and_eq_true] at hs
  obtain ⟨hfront, hlast⟩ := hs
  have hlast : matchesLowercaseRfc1123Label last = true := by simpa using hlast
  have hjoin : matchesLowercaseRfc1123Label (last ++ '-' :: t) = true :=
    isSegment_append isLowerAlphanumOrDash_of_isLowerAlphanum
      isLowerAlphanumOrDash_of_isLowerAlphanum (fun _ h => h) (by decide) hlast ht
  rw [matchesLowercaseRfc1123Subdomain, happend _ hdot, List.all_append, hfront]
  simpa using hjoin

theorem validateAll_eq_ok_iff {value : String} {maxLength : ℕ} {isMatch : List Char → Bool}
    {regex errorMsg : String} {examples : List String} :
    validateAll [validateStrLength value maxLength,
        validateStrRegex value isMatch regex errorMsg examples] = .ok () ↔
      value.utf8ByteSize ≤ maxLength ∧ isMatch value.toList = true := by
  unfold validateAll validateStrLength validateStrRegex
  by_cases hlength : value.utf8ByteSize ≤ maxLength
  · rw [if_neg (Nat.not_lt.mpr hlength)]
    cases isMatch value.toList <;> simp [hlength]
  · rw [if_pos (Nat.not_le.mp hlength)]
    cases isMatch value.toList <;> simp [hlength]

theorem isLowercaseRfc1123Label_eq_ok_iff {s : String} : isLowercaseRfc1123Label s = .ok () ↔
    s.utf8ByteSize ≤ rfc1123LabelMaxLength ∧ matchesLowercaseRfc1123Label s.toList = true :=
  validateAll_eq_ok_iff

theorem isLowercaseRfc1123Subdomain_eq_ok_iff {s : String} :
    isLowercaseRfc1123Subdomain s = .ok () ↔
      s.utf8ByteSize ≤ rfc1123SubdomainMaxLength ∧
        matchesLowercaseRfc1123Subdomain s.toList = true :=
  validateAll_eq_ok_iff

theorem isLowercaseRfc1035Label_eq_ok_iff {s : String} : isLowercaseRfc1035Label s = .ok () ↔
    s.utf8ByteSize ≤ rfc1035LabelMaxLength ∧ matchesLowercaseRfc1035Label s.toList = true :=
  validateAll_eq_ok_iff

end Validation

end StackableOperator
