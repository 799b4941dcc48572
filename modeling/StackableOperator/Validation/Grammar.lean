import Mathlib
import StackableOperator.ForMathlib.RegularExpression
import StackableOperator.Kvp.KeyRegex
import StackableOperator.Validation

/-!
# The grammars of names

The regular expressions of labels, subdomains and domains, and the names that they match. Every
grammar is a part of the next one: RFC 1035 labels, RFC 1123 labels, RFC 1123 subdomains and
domains (`nested_grammars`).
-/

namespace StackableOperator

open RegularExpression

/-! ### Segments and what is made of them -/

/-- The regular expression `F(M*L)?` -/
def segmentRegex (first inner last : List Char) : RegularExpression Char :=
  oneOf first * opt (star (oneOf inner) * oneOf last)

/-- `isSegment` decides the regular expression. -/
theorem mem_segmentRegex_iff {first inner last : List Char} {isFirst isInner isLast : Char → Bool}
    (hfirst : ∀ c, c ∈ first ↔ isFirst c = true) (hinner : ∀ c, c ∈ inner ↔ isInner c = true)
    (hlast : ∀ c, c ∈ last ↔ isLast c = true) {w : List Char} :
    w ∈ (segmentRegex first inner last).matches' ↔ isSegment isFirst isInner isLast w = true := by
  rw [segmentRegex, matches'_mul, Language.mem_mul]
  constructor
  · rintro ⟨u, hu, v, hv, rfl⟩
    obtain ⟨c, hc, rfl⟩ := mem_matches'_oneOf.mp hu
    rw [List.singleton_append, isSegment_cons_iff]
    refine ⟨(hfirst c).mp hc, ?_⟩
    obtain rfl | hv := mem_matches'_opt.mp hv
    · exact .inl rfl
    · obtain ⟨x, hx, y, hy, rfl⟩ := Language.mem_mul.mp (matches'_mul _ _ ▸ hv)
      obtain ⟨z, hz, rfl⟩ := mem_matches'_oneOf.mp hy
      refine .inr ⟨x, z, rfl, fun d hd => ?_, (hlast z).mp hz⟩
      exact (hinner d).mp (mem_matches'_star_oneOf.mp hx d hd)
  · intro h
    match w with
    | [] => exact absurd h (by simp [isSegment])
    | c :: cs =>
      obtain ⟨hc, hcs⟩ := isSegment_cons_iff.mp h
      refine ⟨[c], mem_matches'_oneOf.mpr ⟨c, (hfirst c).mpr hc, rfl⟩, cs, ?_, rfl⟩
      obtain rfl | ⟨front, z, rfl, hfront, hz⟩ := hcs
      · exact mem_matches'_opt.mpr (.inl rfl)
      · refine mem_matches'_opt.mpr (.inr ?_)
        rw [matches'_mul]
        refine Language.mem_mul.mpr ⟨front, ?_, [z], ?_, rfl⟩
        · exact mem_matches'_star_oneOf.mpr fun d hd => (hinner d).mpr (hfront d hd)
        · exact mem_matches'_oneOf.mpr ⟨z, (hlast z).mpr hz, rfl⟩

namespace Validation

variable {w : List Char}

/-! ### The regular expressions -/

/-- The character class `[a-z0-9]`. -/
def lowerAlphanums : List Char := charRange 'a' 'z' ++ charRange '0' '9'

/-- `[a-z]([-a-z0-9]*[a-z0-9])?` -/
def lowercaseRfc1035LabelRegex : RegularExpression Char :=
  segmentRegex (charRange 'a' 'z') ('-' :: lowerAlphanums) lowerAlphanums

/-- `[a-z0-9]([-a-z0-9]*[a-z0-9])?` -/
def lowercaseRfc1123LabelRegex : RegularExpression Char :=
  segmentRegex lowerAlphanums ('-' :: lowerAlphanums) lowerAlphanums

/-- `[a-zA-Z0-9]([-a-zA-Z0-9]*[a-zA-Z0-9])?` -/
def rfc1123LabelRegex : RegularExpression Char :=
  segmentRegex Kvp.alphanums ('-' :: Kvp.alphanums) Kvp.alphanums

/-- Labels with dots between them. -/
def lowercaseRfc1123SubdomainRegex : RegularExpression Char :=
  separated '.' lowercaseRfc1123LabelRegex

/-- Labels with dots between them, and perhaps a final dot. -/
def domainRegex : RegularExpression Char := separated '.' rfc1123LabelRegex * opt (char '.')

theorem mem_lowers {c : Char} : c ∈ charRange 'a' 'z' ↔ c.isLower = true := by
  rw [mem_charRange (by decide)]
  simp only [Char.isLower, Bool.and_eq_true, decide_eq_true_eq, UInt32.le_iff_toNat_le]
  rfl

theorem mem_digits {c : Char} : c ∈ charRange '0' '9' ↔ c.isDigit = true := by
  rw [mem_charRange (by decide)]
  simp only [Char.isDigit, Bool.and_eq_true, decide_eq_true_eq, UInt32.le_iff_toNat_le]
  rfl

theorem mem_lowerAlphanums (c : Char) : c ∈ lowerAlphanums ↔ isLowerAlphanum c = true := by
  rw [lowerAlphanums, List.mem_append, mem_lowers, mem_digits, isLowerAlphanum, Bool.or_eq_true]

theorem mem_dash_lowerAlphanums (c : Char) :
    c ∈ '-' :: lowerAlphanums ↔ isLowerAlphanumOrDash c = true := by
  rw [List.mem_cons, mem_lowerAlphanums, isLowerAlphanumOrDash, Bool.or_eq_true, beq_iff_eq]

theorem mem_dash_alphanums (c : Char) : c ∈ '-' :: Kvp.alphanums ↔ isAlphanumOrDash c = true := by
  rw [List.mem_cons, Kvp.mem_alphanums, isAlphanumOrDash, Bool.or_eq_true, beq_iff_eq]

/-! ### What they match -/

/-- **The matcher of RFC 1035 labels decides their regular expression.** -/
theorem mem_lowercaseRfc1035LabelRegex_iff :
    w ∈ lowercaseRfc1035LabelRegex.matches' ↔ matchesLowercaseRfc1035Label w = true :=
  mem_segmentRegex_iff (fun _ => mem_lowers) mem_dash_lowerAlphanums mem_lowerAlphanums

/-- **The matcher of RFC 1123 labels decides their regular expression.** -/
theorem mem_lowercaseRfc1123LabelRegex_iff :
    w ∈ lowercaseRfc1123LabelRegex.matches' ↔ matchesLowercaseRfc1123Label w = true :=
  mem_segmentRegex_iff mem_lowerAlphanums mem_dash_lowerAlphanums mem_lowerAlphanums

theorem mem_rfc1123LabelRegex_iff :
    w ∈ rfc1123LabelRegex.matches' ↔ matchesRfc1123Label w = true :=
  mem_segmentRegex_iff (fun _ => Kvp.mem_alphanums) mem_dash_alphanums fun _ => Kvp.mem_alphanums

/-- **The matcher of RFC 1123 subdomains decides their regular expression.** -/
theorem mem_lowercaseRfc1123SubdomainRegex_iff :
    w ∈ lowercaseRfc1123SubdomainRegex.matches' ↔ matchesLowercaseRfc1123Subdomain w = true := by
  have hdot (v : List Char) (hv : v ∈ lowercaseRfc1123LabelRegex.matches') : '.' ∉ v :=
    dot_notMem_of_matchesLowercaseRfc1123Label (mem_lowercaseRfc1123LabelRegex_iff.mp hv)
  rw [lowercaseRfc1123SubdomainRegex, mem_matches'_separated hdot,
    matchesLowercaseRfc1123Subdomain, List.all_eq_true]
  simp only [mem_lowercaseRfc1123LabelRegex_iff]

theorem isAlphanumOrDash_of_isAlphanum (c : Char) (h : c.isAlphanum = true) :
    isAlphanumOrDash c = true := by
  rw [isAlphanumOrDash, h, Bool.or_true]

theorem dot_notMem_of_matchesRfc1123Label (h : matchesRfc1123Label w = true) : '.' ∉ w := by
  intro hdot
  have hinner := all_of_isSegment isAlphanumOrDash_of_isAlphanum isAlphanumOrDash_of_isAlphanum
    h '.' hdot
  exact absurd hinner (by decide)

/-- A domain is a list of labels, perhaps with a final dot. -/
theorem matchesDomain_iff : matchesDomain w = true ↔
    ∃ u, (u.splitOn '.').all matchesRfc1123Label = true ∧ (w = u ∨ w = u ++ ['.']) := by
  obtain ⟨front, last, hsplit, -⟩ := exists_splitOn_append (a := '.') w
  have hfinal (u : List Char) : (u ++ ['.']).splitOn '.' = u.splitOn '.' ++ [[]] := by
    rw [List.splitOn_append_cons_self, List.splitOn_nil]
  have hnil : matchesRfc1123Label [] = false := rfl
  rw [matchesDomain, hsplit, List.getLast?_concat, List.length_append, List.length_singleton]
  by_cases hdot : 1 < front.length + 1 ∧ some last = some []
  · -- the last piece is empty, so the text ends in a dot
    rw [if_pos hdot, List.dropLast_concat]
    obtain ⟨hlength, hlast⟩ := hdot
    obtain rfl : last = [] := Option.some.inj hlast
    have hne : front ≠ [] := List.ne_nil_of_length_pos (by omega)
    obtain ⟨t, rfl, ht⟩ := eq_append_of_splitOn_eq_concat hsplit hne
    constructor
    · intro hall
      exact ⟨t, ht ▸ hall, .inr rfl⟩
    · rintro ⟨u, hall, rfl | htu⟩
      · rw [hfinal, List.all_append, Bool.and_eq_true] at hall
        exact absurd hall.2 (by simp [hnil])
      · obtain ⟨rfl, -⟩ := List.append_inj' htu rfl
        exact ht ▸ hall
  · rw [if_neg hdot, ← hsplit]
    constructor
    · intro hall
      exact ⟨w, hall, .inl rfl⟩
    · rintro ⟨u, hall, rfl | rfl⟩
      · exact hall
      · refine absurd ?_ hdot
        rw [hfinal] at hsplit
        obtain ⟨rfl, hlast⟩ := List.append_inj' hsplit rfl
        have hpos := List.length_pos_of_ne_nil (List.splitOn_ne_nil '.' u)
        exact ⟨by omega, congrArg some (List.cons.inj hlast).1.symm⟩

/-- **The matcher of domains decides their regular expression.** -/
theorem mem_domainRegex_iff : w ∈ domainRegex.matches' ↔ matchesDomain w = true := by
  have hdot (v : List Char) (hv : v ∈ rfc1123LabelRegex.matches') : '.' ∉ v :=
    dot_notMem_of_matchesRfc1123Label (mem_rfc1123LabelRegex_iff.mp hv)
  have hlabels (u : List Char) : u ∈ (separated '.' rfc1123LabelRegex).matches' ↔
      (u.splitOn '.').all matchesRfc1123Label = true := by
    rw [mem_matches'_separated hdot, List.all_eq_true]
    simp only [mem_rfc1123LabelRegex_iff]
  rw [domainRegex, matches'_mul, Language.mem_mul, matchesDomain_iff]
  constructor
  · rintro ⟨u, hu, v, hv, rfl⟩
    obtain rfl | rfl := mem_matches'_opt.mp hv
    · exact ⟨u, (hlabels u).mp hu, .inl (List.append_nil u)⟩
    · exact ⟨u, (hlabels u).mp hu, .inr rfl⟩
  · rintro ⟨u, hu, rfl | rfl⟩
    · exact ⟨w, (hlabels w).mpr hu, [], mem_matches'_opt.mpr (.inl rfl), List.append_nil w⟩
    · exact ⟨u, (hlabels u).mpr hu, ['.'], mem_matches'_opt.mpr (.inr rfl), rfl⟩

theorem isDomain_eq_ok_iff {s : String} :
    isDomain s = .ok () ↔ s.utf8ByteSize ≤ domainMaxLength ∧ matchesDomain s.toList = true :=
  validateAll_eq_ok_iff

/-! ### Every grammar is a part of the next one -/

theorem isAlphanumOrDash_of_isLowerAlphanumOrDash (c : Char)
    (h : isLowerAlphanumOrDash c = true) : isAlphanumOrDash c = true := by
  rw [isLowerAlphanumOrDash, Bool.or_eq_true] at h
  obtain hdash | halphanum := h
  · rw [isAlphanumOrDash, hdash, Bool.true_or]
  · exact isAlphanumOrDash_of_isAlphanum c (isAlphanum_of_isLowerAlphanum c halphanum)

theorem matchesRfc1123Label_of_lowercase (h : matchesLowercaseRfc1123Label w = true) :
    matchesRfc1123Label w = true :=
  isSegment_mono isAlphanum_of_isLowerAlphanum isAlphanumOrDash_of_isLowerAlphanumOrDash
    isAlphanum_of_isLowerAlphanum h

/-- A subdomain is a domain without a final dot. -/
theorem matchesDomain_of_subdomain (h : matchesLowercaseRfc1123Subdomain w = true) :
    matchesDomain w = true := by
  rw [matchesLowercaseRfc1123Subdomain, List.all_eq_true] at h
  refine matchesDomain_iff.mpr ⟨w, List.all_eq_true.mpr fun label hlabel => ?_, .inl rfl⟩
  exact matchesRfc1123Label_of_lowercase (h label hlabel)

theorem isLowercaseRfc1123Label_of_rfc1035 {s : String} (h : isLowercaseRfc1035Label s = .ok ()) :
    isLowercaseRfc1123Label s = .ok () := by
  obtain ⟨hlength, hmatch⟩ := isLowercaseRfc1035Label_eq_ok_iff.mp h
  exact isLowercaseRfc1123Label_eq_ok_iff.mpr
    ⟨hlength, matchesLowercaseRfc1123Label_of_rfc1035 hmatch⟩

theorem isLowercaseRfc1123Subdomain_of_label {s : String}
    (h : isLowercaseRfc1123Label s = .ok ()) : isLowercaseRfc1123Subdomain s = .ok () := by
  obtain ⟨hlength, hmatch⟩ := isLowercaseRfc1123Label_eq_ok_iff.mp h
  have hle : rfc1123LabelMaxLength ≤ rfc1123SubdomainMaxLength := by decide
  exact isLowercaseRfc1123Subdomain_eq_ok_iff.mpr
    ⟨hlength.trans hle, matchesLowercaseRfc1123Subdomain_of_label hmatch⟩

theorem isDomain_of_subdomain {s : String} (h : isLowercaseRfc1123Subdomain s = .ok ()) :
    isDomain s = .ok () := by
  obtain ⟨hlength, hmatch⟩ := isLowercaseRfc1123Subdomain_eq_ok_iff.mp h
  exact isDomain_eq_ok_iff.mpr ⟨hlength, matchesDomain_of_subdomain hmatch⟩

/-- Labels are joined to a subdomain, unless it gets too long. -/
theorem isLowercaseRfc1123Subdomain_intercalate_iff {labels : List String} (hne : labels ≠ [])
    (hlabels : ∀ label ∈ labels, isLowercaseRfc1123Label label = .ok ()) :
    isLowercaseRfc1123Subdomain (".".intercalate labels) = .ok () ↔
      (".".intercalate labels).utf8ByteSize ≤ rfc1123SubdomainMaxLength := by
  rw [isLowercaseRfc1123Subdomain_eq_ok_iff]
  refine and_iff_left ?_
  have hmatch : ∀ piece ∈ labels.map String.toList,
      matchesLowercaseRfc1123Label piece = true := by
    intro piece hpiece
    obtain ⟨label, hlabel, rfl⟩ := List.mem_map.mp hpiece
    exact (isLowercaseRfc1123Label_eq_ok_iff.mp (hlabels label hlabel)).2
  have hsplit : (".".intercalate labels).toList.splitOn '.' = labels.map String.toList := by
    rw [String.toList_intercalate]
    refine List.splitOn_intercalate '.' (fun piece hpiece => ?_) (by simpa using hne)
    exact dot_notMem_of_matchesLowercaseRfc1123Label (hmatch piece hpiece)
  rw [matchesLowercaseRfc1123Subdomain, hsplit, List.all_eq_true]
  exact hmatch

/-- **The grammars of names are nested, and labels with dots between them are subdomains.** -/
theorem nested_grammars (s : String) :
    (isLowercaseRfc1035Label s = .ok () → isLowercaseRfc1123Label s = .ok ()) ∧
      (isLowercaseRfc1123Label s = .ok () → isLowercaseRfc1123Subdomain s = .ok ()) ∧
      (isLowercaseRfc1123Subdomain s = .ok () → isDomain s = .ok ()) ∧
      ∀ labels : List String, labels ≠ [] →
        (∀ label ∈ labels, isLowercaseRfc1123Label label = .ok ()) →
        (isLowercaseRfc1123Subdomain (".".intercalate labels) = .ok () ↔
          (".".intercalate labels).utf8ByteSize ≤ 253) :=
  ⟨isLowercaseRfc1123Label_of_rfc1035, isLowercaseRfc1123Subdomain_of_label,
    isDomain_of_subdomain, fun _ => isLowercaseRfc1123Subdomain_intercalate_iff⟩

/-- A service name, and a name of two labels. -/
theorem nested_grammars_my_name :
    isLowercaseRfc1123Label "my-name" = .ok () ∧
      isLowercaseRfc1123Subdomain "my-name" = .ok () ∧ isDomain "my-name" = .ok () ∧
      isLowercaseRfc1123Subdomain "my-name.1-label-1" = .ok () := by
  obtain ⟨hlabel, hsubdomain, hdomain, hjoin⟩ := nested_grammars "my-name"
  have h1123 := hlabel (by decide +kernel)
  exact ⟨h1123, hsubdomain h1123, hdomain (hsubdomain h1123),
    (hjoin ["my-name", "1-label-1"] (by decide) (by decide +kernel)).mpr (by decide +kernel)⟩

end Validation

end StackableOperator
