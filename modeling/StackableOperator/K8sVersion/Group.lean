import Mathlib
import StackableOperator.RustStd.CharBoundary
import StackableOperator.ForMathlib.Checked
import StackableOperator.ForMathlib.RegularExpression
import StackableOperator.ForMathlib.SplitOn
import StackableOperator.Validation

/-!
# API groups

A group is a string that is matched by one regular expression, in which the dots between the labels
are optional. `mem_apiGroupRegex_iff` says which strings these are: one dot may follow at the end,
and between the dots there are concatenations of labels of two or more characters.
`Group.fromStr_iff` compares them with the DNS subdomains.
-/

namespace StackableOperator

open RegularExpression Validation

/-! ### The model of the source -/

def maxGroupLength : ℕ := 253

/-- The character class `[a-z0-9]`. -/
def lowerAlphanums : List Char := charRange 'a' 'z' ++ charRange '0' '9'

/-- The character class `[a-z0-9-]`. -/
def lowerAlphanumsOrDash : List Char := lowerAlphanums ++ ['-']

/-- The regular expression `[a-z0-9][a-z0-9-]{0,61}[a-z0-9]`. -/
def apiGroupLabelRegex : RegularExpression Char :=
  oneOf lowerAlphanums * upTo (oneOf lowerAlphanumsOrDash) 61 * oneOf lowerAlphanums

/-- The regular expression `^(?:(?:[a-z0-9][a-z0-9-]{0,61}[a-z0-9])\.?)+$`. -/
def apiGroupRegex : RegularExpression Char :=
  atLeastOne (apiGroupLabelRegex * opt (char '.'))

inductive ParseGroupError : Type
  | empty
  | tooLong
  | invalidFormat
  deriving DecidableEq, Repr

/-- The checks of a group, in their order. -/
def Group.check (group : String) : Except ParseGroupError Unit :=
  if group.isEmpty then .error .empty
  else if group.utf8ByteSize > maxGroupLength then .error .tooLong
  else if !apiGroupRegex.rmatch group.toList then .error .invalidFormat
  else .ok ()

/-- A validated group. -/
abbrev Group : Type := { group : String // Group.check group = .ok () }

def Group.fromStr (group : String) : Except ParseGroupError Group :=
  checked Group.check group

/-! ### Labels -/

theorem mem_lowerAlphanums {c : Char} : c ∈ lowerAlphanums ↔ isLowerAlphanum c = true := by
  rw [lowerAlphanums, List.mem_append, mem_charRange (by decide), mem_charRange (by decide)]
  simp only [isLowerAlphanum, Char.isLower, Char.isDigit, Bool.or_eq_true, Bool.and_eq_true,
    decide_eq_true_eq, UInt32.le_iff_toNat_le]
  rfl

theorem mem_lowerAlphanumsOrDash {c : Char} :
    c ∈ lowerAlphanumsOrDash ↔ isLowerAlphanumOrDash c = true := by
  rw [lowerAlphanumsOrDash, List.mem_append, mem_lowerAlphanums, List.mem_singleton,
    isLowerAlphanumOrDash, Bool.or_eq_true, beq_iff_eq, or_comm]

/-- A DNS label: 1 to 63 lower-case alphanumeric characters or hyphens, with alphanumeric ones at
both ends. -/
structure IsLabel (label : List Char) : Prop where
  ne_nil : label ≠ []
  length_le : label.length ≤ 63
  isLowerAlphanumOrDash : ∀ c ∈ label, isLowerAlphanumOrDash c = true
  head : ∀ c ∈ label.head?, isLowerAlphanum c = true
  last : ∀ c ∈ label.getLast?, isLowerAlphanum c = true

theorem IsLabel.notMem_dot {label : List Char} (h : IsLabel label) : '.' ∉ label := by
  intro hdot
  exact absurd (h.isLowerAlphanumOrDash '.' hdot) (by decide)

/-- The regular expression matches the labels of two or more characters. -/
theorem mem_apiGroupLabelRegex_iff {w : List Char} :
    w ∈ apiGroupLabelRegex.matches' ↔ IsLabel w ∧ 2 ≤ w.length := by
  rw [apiGroupLabelRegex, mem_matches'_enclosed]
  constructor
  · rintro ⟨a, v, b, rfl, ha, hb, hlength, hall⟩
    have ha' := mem_lowerAlphanums.mp ha
    have hb' := mem_lowerAlphanums.mp hb
    have hinner : ∀ c, isLowerAlphanum c = true → isLowerAlphanumOrDash c = true := by
      intro c hc
      rw [isLowerAlphanumOrDash, hc, Bool.or_true]
    refine ⟨⟨by simp, by simp; omega, ?_, by simpa using ha', ?_⟩, by simp⟩
    · intro c hc
      simp only [List.mem_cons, List.mem_append, List.not_mem_nil, or_false] at hc
      obtain rfl | hc | rfl := hc
      · exact hinner c ha'
      · exact mem_lowerAlphanumsOrDash.mp (hall c hc)
      · exact hinner c hb'
    · rw [getLast?_cons_concat]
      simpa using hb'
  · rintro ⟨hlabel, hlength⟩
    obtain ⟨a, t, rfl⟩ := List.exists_cons_of_ne_nil hlabel.ne_nil
    have ht : t ≠ [] := by
      rintro rfl
      simp at hlength
    obtain ⟨v, b, rfl⟩ := List.eq_nil_or_concat' t |>.resolve_left ht
    have ha := hlabel.head a (by simp)
    have hb := hlabel.last b (getLast?_cons_concat a v b)
    have hv : v.length ≤ 61 := by
      have hle := hlabel.length_le
      simp at hle
      omega
    have hall : ∀ c ∈ v, c ∈ lowerAlphanumsOrDash := fun c hc =>
      mem_lowerAlphanumsOrDash.mpr (hlabel.isLowerAlphanumOrDash c (by simp [hc]))
    exact ⟨a, v, b, rfl, mem_lowerAlphanums.mpr ha, mem_lowerAlphanums.mpr hb, hv, hall⟩

/-! ### The language of the regular expression -/

/-- A concatenation of labels of two or more characters. -/
def IsLabelChain (segment : List Char) : Prop :=
  ∃ labels : List (List Char), labels ≠ [] ∧ segment = labels.flatten ∧
    ∀ label ∈ labels, IsLabel label ∧ 2 ≤ label.length

/-- Chains of labels match, also with a dot behind them. -/
theorem IsLabelChain.append_mem {segment dot : List Char} (h : IsLabelChain segment)
    (hdot : dot = [] ∨ dot = ['.']) : segment ++ dot ∈ apiGroupRegex.matches' := by
  obtain ⟨labels, hne, rfl, hlabels⟩ := h
  obtain ⟨init, last, rfl⟩ := (List.eq_nil_or_concat' labels).resolve_left hne
  rw [List.forall_mem_append, List.forall_mem_singleton] at hlabels
  have hitem : ∀ label end' : List Char, IsLabel label ∧ 2 ≤ label.length →
      (end' = [] ∨ end' = ['.']) →
      label ++ end' ∈ (apiGroupLabelRegex * opt (char '.')).matches' := by
    intro label end' hlabel hend
    rw [matches'_mul, Language.mem_mul]
    exact ⟨label, mem_apiGroupLabelRegex_iff.mpr hlabel, end', mem_matches'_opt.mpr hend, rfl⟩
  refine mem_matches'_atLeastOne.mpr ⟨init ++ [last ++ dot], by simp, by simp, ?_⟩
  rw [List.forall_mem_append, List.forall_mem_singleton]
  refine ⟨fun label hlabel => ?_, hitem last dot hlabels.2 hdot⟩
  have hmem := hitem label [] (hlabels.1 label hlabel) (Or.inl rfl)
  rwa [List.append_nil] at hmem

theorem intercalate_append_mem {segments : List (List Char)} {dot : List Char}
    (hne : segments ≠ []) (hchains : ∀ segment ∈ segments, IsLabelChain segment)
    (hdot : dot = [] ∨ dot = ['.']) :
    ['.'].intercalate segments ++ dot ∈ apiGroupRegex.matches' := by
  induction segments with
  | nil => exact absurd rfl hne
  | cons segment segments ih =>
    obtain ⟨hsegment, hsegments⟩ := List.forall_mem_cons.mp hchains
    match segments with
    | [] =>
      rw [List.intercalate_singleton]
      exact hsegment.append_mem hdot
    | next :: rest =>
      have hrest := ih (List.cons_ne_nil next rest) hsegments
      rw [List.intercalate_cons_cons, List.append_assoc]
      exact append_mem_matches'_atLeastOne (hsegment.append_mem (Or.inr rfl)) hrest

/-- Between the dots of a matched string, apart from one dot at the end, there are chains of
labels. -/
theorem exists_of_mem_apiGroupRegex {w : List Char} (h : w ∈ apiGroupRegex.matches') :
    ∃ v, (w = v ∨ w = v ++ ['.']) ∧ ∀ segment ∈ v.splitOn '.', IsLabelChain segment := by
  obtain ⟨items, hne, rfl, hitems⟩ := mem_matches'_atLeastOne.mp h
  clear h
  induction items with
  | nil => exact absurd rfl hne
  | cons item items ih =>
    obtain ⟨hitem, hrest⟩ := List.forall_mem_cons.mp hitems
    rw [matches'_mul, Language.mem_mul] at hitem
    obtain ⟨label, hlabel, dot, hdot, rfl⟩ := hitem
    have hlabel' := mem_apiGroupLabelRegex_iff.mp hlabel
    have hnotMem := hlabel'.1.notMem_dot
    have hchain : IsLabelChain label :=
      ⟨[label], by simp, by simp, by simpa using hlabel'⟩
    have hdot' : dot = [] ∨ dot = ['.'] := mem_matches'_opt.mp hdot
    by_cases hnil : items = []
    · subst hnil
      refine ⟨label, by simpa using hdot', ?_⟩
      rw [List.splitOn_eq_singleton hnotMem, List.forall_mem_singleton]
      exact hchain
    obtain ⟨v, hv, hchains⟩ := ih hnil hrest
    obtain rfl | rfl := hdot'
    · -- without a dot the label continues in the first segment of the rest
      refine ⟨label ++ v, by simpa using hv, ?_⟩
      obtain ⟨segment, segments, hsplit⟩ := List.exists_cons_of_ne_nil (List.splitOn_ne_nil '.' v)
      rw [hsplit, List.forall_mem_cons] at hchains
      rw [splitOn_append_of_notMem hnotMem, hsplit, List.modifyHead_cons, List.forall_mem_cons]
      obtain ⟨labels, -, rfl, hlabels⟩ := hchains.1
      refine ⟨⟨label :: labels, by simp, rfl, ?_⟩, hchains.2⟩
      exact List.forall_mem_cons.mpr ⟨hlabel', hlabels⟩
    · refine ⟨label ++ '.' :: v, by simpa using hv, ?_⟩
      rw [List.splitOn_append_cons_self_of_not_mem hnotMem, List.forall_mem_cons]
      exact ⟨hchain, hchains⟩

/-- **The language of the regular expression.** -/
theorem mem_apiGroupRegex_iff {w : List Char} : w ∈ apiGroupRegex.matches' ↔
    ∃ v, (w = v ∨ w = v ++ ['.']) ∧ ∀ segment ∈ v.splitOn '.', IsLabelChain segment := by
  refine ⟨exists_of_mem_apiGroupRegex, ?_⟩
  rintro ⟨v, hv, hchains⟩
  have hmem : ∀ dot : List Char, dot = [] ∨ dot = ['.'] → v ++ dot ∈ apiGroupRegex.matches' := by
    intro dot hdot
    have happend := intercalate_append_mem (List.splitOn_ne_nil '.' v) hchains hdot
    rwa [List.intercalate_splitOn] at happend
  obtain rfl | rfl := hv
  · simpa using hmem [] (Or.inl rfl)
  · exact hmem ['.'] (Or.inr rfl)

/-! ### Groups and DNS subdomains -/

/-- At most 253 characters, and labels between single dots. -/
def IsDnsSubdomain (s : String) : Prop :=
  s.length ≤ maxGroupLength ∧ ∀ label ∈ s.toList.splitOn '.', IsLabel label

/-- A DNS subdomain with a label of one character; the regular expression has two characters for
every label. -/
def HasShortLabel (s : String) : Prop :=
  IsDnsSubdomain s ∧ ∃ label ∈ s.toList.splitOn '.', label.length = 1

/-- A dot at the end, or labels that follow each other without a dot and are too long together. -/
def HasLooseDots (s : String) : Prop :=
  s.utf8ByteSize ≤ maxGroupLength ∧ ∃ v, (∀ segment ∈ v.splitOn '.', IsLabelChain segment) ∧
    (s.toList = v ++ ['.'] ∨ s.toList = v ∧ ∃ segment ∈ v.splitOn '.', 63 < segment.length)

theorem IsLabelChain.two_le_length {segment : List Char} (h : IsLabelChain segment) :
    2 ≤ segment.length := by
  obtain ⟨labels, hne, rfl, hlabels⟩ := h
  obtain ⟨label, rest, rfl⟩ := List.exists_cons_of_ne_nil hne
  have hlabel := (hlabels label List.mem_cons_self).2
  rw [List.flatten_cons, List.length_append]
  omega

/-- A chain that is not too long is a label. -/
theorem IsLabelChain.isLabel_iff {segment : List Char} (h : IsLabelChain segment) :
    IsLabel segment ↔ segment.length ≤ 63 := by
  refine ⟨IsLabel.length_le, fun hlength => ?_⟩
  have htwo := h.two_le_length
  obtain ⟨labels, hne, rfl, hlabels⟩ := h
  refine ⟨?_, hlength, ?_, ?_, ?_⟩
  · intro hnil
    rw [hnil] at htwo
    simp at htwo
  · intro c hc
    obtain ⟨label, hlabel, hmem⟩ := List.mem_flatten.mp hc
    exact (hlabels label hlabel).1.isLowerAlphanumOrDash c hmem
  · obtain ⟨label, rest, rfl⟩ := List.exists_cons_of_ne_nil hne
    have hlabel := (hlabels label List.mem_cons_self).1
    intro c hc
    rw [List.flatten_cons, List.head?_append_of_ne_nil _ hlabel.ne_nil] at hc
    exact hlabel.head c hc
  · obtain ⟨front, label, rfl⟩ := (List.eq_nil_or_concat' labels).resolve_left hne
    have hlabel := (hlabels label (by simp)).1
    intro c hc
    rw [List.flatten_append, List.flatten_singleton,
      List.getLast?_append_of_ne_nil _ hlabel.ne_nil] at hc
    exact hlabel.last c hc

theorem IsLabel.isLabelChain {label : List Char} (h : IsLabel label) (hlength : 2 ≤ label.length) :
    IsLabelChain label :=
  ⟨[label], by simp, by simp, by simpa using ⟨h, hlength⟩⟩

/-- What a string must be to be a group. -/
theorem Group.check_eq_ok_iff {s : String} : Group.check s = .ok () ↔
    s.utf8ByteSize ≤ maxGroupLength ∧
      ∃ v, (s.toList = v ∨ s.toList = v ++ ['.']) ∧
        ∀ segment ∈ v.splitOn '.', IsLabelChain segment := by
  rw [← mem_apiGroupRegex_iff, ← rmatch_iff_matches', Group.check]
  by_cases hempty : s.isEmpty = true
  · have hs : s = "" := String.isEmpty_iff.mp hempty
    have hnomatch : apiGroupRegex.rmatch "".toList = false := by
      rw [Bool.eq_false_iff, ne_eq, rmatch_iff_matches', mem_apiGroupRegex_iff]
      rintro ⟨v, hv, hchains⟩
      obtain rfl | hv := hv
      · have htwo := (hchains [] (by simp)).two_le_length
        simp at htwo
      · simp at hv
    subst hs
    rw [hnomatch]
    simp
  · rw [if_neg hempty]
    by_cases hlength : s.utf8ByteSize > maxGroupLength
    · rw [if_pos hlength]
      simp [hlength]
    · rw [if_neg hlength]
      cases apiGroupRegex.rmatch s.toList
      · simp
      · simpa using Nat.le_of_not_lt hlength

theorem IsLabel.toNat_lt {label : List Char} (h : IsLabel label) {c : Char} (hc : c ∈ label) :
    c.toNat < 128 := by
  have hmem := mem_lowerAlphanumsOrDash.mpr (h.isLowerAlphanumOrDash c hc)
  rw [lowerAlphanumsOrDash, lowerAlphanums, List.mem_append, List.mem_append,
    mem_charRange (by decide), mem_charRange (by decide), List.mem_singleton] at hmem
  obtain (⟨-, hle⟩ | ⟨-, hle⟩) | rfl := hmem
  · exact lt_of_le_of_lt hle (by decide)
  · exact lt_of_le_of_lt hle (by decide)
  · decide

theorem utf8ByteSize_eq_of_isLabel {s : String}
    (h : ∀ label ∈ s.toList.splitOn '.', IsLabel label) : s.utf8ByteSize = s.length := by
  apply utf8ByteSize_eq_length
  intro c hc
  have hjoin : ['.'].intercalate (s.toList.splitOn '.') = s.toList := List.intercalate_splitOn '.'
  rw [← hjoin] at hc
  obtain hdot | ⟨label, hlabel, hmem⟩ := mem_intercalate hc
  · rw [List.mem_singleton.mp hdot]
    decide
  · exact (h label hlabel).toNat_lt hmem

/-- A dot at the end leaves an empty piece behind it, which is not a label. -/
theorem IsDnsSubdomain.toList_ne {s : String} (h : IsDnsSubdomain s) (v : List Char) :
    s.toList ≠ v ++ ['.'] := by
  intro hv
  have hlabels := h.2
  rw [hv, List.splitOn_append_cons_self v [], List.splitOn_nil] at hlabels
  exact (hlabels [] (by simp)).ne_nil rfl

/-- **Groups are the DNS subdomains, apart from those with a short label and loose dots.** -/
theorem Group.check_iff_isDnsSubdomain_iff {s : String} :
    (Group.check s = .ok () ↔ IsDnsSubdomain s) ↔ ¬HasShortLabel s ∧ ¬HasLooseDots s := by
  rw [Group.check_eq_ok_iff]
  constructor
  · intro h
    constructor
    · -- a short label is no chain
      rintro ⟨hdns, label, hlabel, hshort⟩
      obtain ⟨-, v, hv | hv, hchains⟩ := h.mpr hdns
      · rw [hv] at hlabel
        have htwo := (hchains label hlabel).two_le_length
        omega
      · exact hdns.toList_ne v hv
    · rintro ⟨hsize, v, hchains, hloose⟩
      have hv : s.toList = v ∨ s.toList = v ++ ['.'] := by
        obtain hdot | ⟨hv, -⟩ := hloose
        · exact Or.inr hdot
        · exact Or.inl hv
      have hdns := h.mp ⟨hsize, v, hv, hchains⟩
      obtain hdot | ⟨hv, segment, hsegment, hlong⟩ := hloose
      · exact hdns.toList_ne v hdot
      · rw [← hv] at hsegment
        have hle := (hdns.2 segment hsegment).length_le
        omega
  · rintro ⟨hshort, hloose⟩
    constructor
    · rintro ⟨hsize, v, hv, hchains⟩
      obtain hv | hv := hv
      · have hlabels : ∀ label ∈ s.toList.splitOn '.', IsLabel label := by
          intro label hlabel
          rw [hv] at hlabel
          have hle : label.length ≤ 63 := by
            by_contra hlong
            exact hloose ⟨hsize, v, hchains, Or.inr ⟨hv, label, hlabel, by omega⟩⟩
          exact (hchains label hlabel).isLabel_iff.mpr hle
        rw [utf8ByteSize_eq_of_isLabel hlabels] at hsize
        exact ⟨hsize, hlabels⟩
      · exact absurd ⟨hsize, v, hchains, Or.inl hv⟩ hloose
    · intro hdns
      refine ⟨(utf8ByteSize_eq_of_isLabel hdns.2).trans_le hdns.1, s.toList, Or.inl rfl, ?_⟩
      intro label hlabel
      have hlabel' := hdns.2 label hlabel
      have hpos := List.length_pos_of_ne_nil hlabel'.ne_nil
      have hone : label.length ≠ 1 := fun hone => hshort ⟨hdns, label, hlabel, hone⟩
      exact hlabel'.isLabelChain (by omega)

end StackableOperator
