import Mathlib
import StackableOperator.RustStd.CharBoundary
import StackableOperator.Validation

/-!
# Length enforcement

`ensureMaxStringLength` shortens a text to some number of bytes: it cuts the text and appends a
dash and a hash of the whole text. The hash function is a library function; what matters here is
that it writes 64 hexadecimal digits.

A shortened text is one of three (`ensureMaxStringLength_cases`): what fits, if no hash is wanted;
only the hash, if not more than one character would be left beside it; otherwise the beginning of
the text, a dash and the hash (`isShortened_ensureMaxStringLength`). Names that are segments stay
segments (`exists_isSegment_ensureMaxStringLength`).
-/

namespace StackableOperator

/-! ### The model of the source -/

/-- Truncate at a character boundary, so that characters are dropped entirely. -/
def truncateAtCharBoundary (input : List Char) (maxLengthBytes : ℕ) : Option (List Char) :=
  truncate input (floorCharBoundary input maxLengthBytes)

/-- Replace the last character of the name by a dash and append the hash. -/
def withHash (name hash : List Char) : List Char :=
  let removedChar := name.getLast?
  let name := name.dropLast
  if name.isEmpty then hash
  else
    -- a dash at the end of the name is reused, unless the removed character was one as well
    let name :=
      if name.getLast? ≠ some '-' ∨ removedChar = some '-' then name ++ ['-'] else name
    name ++ hash

/-- Shorten a text if it is too long. A function that panics has no result (`none`). -/
def ensureMaxStringLength (hexDigest : String → String) (original : String)
    (maxLengthBytes hashLength : ℕ) : Option String :=
  if 64 < hashLength then none
  else if maxLengthBytes < 1 + 1 + hashLength then none
  else if original.utf8ByteSize ≤ maxLengthBytes then some original
  else if hashLength = 0 then
    (truncateAtCharBoundary original.toList maxLengthBytes).map String.ofList
  else do
    let hash ← truncate (hexDigest original).toList hashLength
    -- the name must not occupy the bytes that are reserved for the hash
    let name ← truncateAtCharBoundary original.toList (maxLengthBytes - hashLength)
    return String.ofList (withHash name hash)

/-! ### The digest -/

/-- The character class `[0-9a-f]`. -/
def isLowerHexDigit (c : Char) : Bool := c.isDigit || ('a' ≤ c && c ≤ 'f')

/-- SHA-256 digests are written with 64 hexadecimal digits. -/
def IsHexDigest (hexDigest : String → String) : Prop :=
  ∀ s, (hexDigest s).toList.length = 64 ∧ ∀ c ∈ (hexDigest s).toList, isLowerHexDigit c = true

theorem isHexDigest_const {digest : String} (hlength : digest.toList.length = 64)
    (hchars : digest.toList.all isLowerHexDigit = true) : IsHexDigest fun _ => digest :=
  fun _ => ⟨hlength, List.all_eq_true.mp hchars⟩

/-- The first digits of the digest of a text. -/
def hashOf (hexDigest : String → String) (hashLength : ℕ) (original : String) : List Char :=
  (hexDigest original).toList.take hashLength

theorem isLowerAlphanum_of_isLowerHexDigit (c : Char) (h : isLowerHexDigit c = true) :
    Validation.isLowerAlphanum c = true := by
  rw [isLowerHexDigit, Bool.or_eq_true, Bool.and_eq_true, decide_eq_true_eq,
    decide_eq_true_eq] at h
  rw [Validation.isLowerAlphanum, Bool.or_eq_true]
  obtain h | ⟨ha, hf⟩ := h
  · exact .inr h
  · have hz : c ≤ 'z' := hf.trans (by decide)
    exact .inl (by simpa [Char.isLower] using ⟨ha, hz⟩)

theorem toNat_lt_of_isLowerHexDigit {c : Char} (h : isLowerHexDigit c = true) : c.toNat < 128 := by
  have hlt := isLowerAlphanum_of_isLowerHexDigit c h
  simp only [Validation.isLowerAlphanum, Char.isLower, Char.isDigit, Bool.or_eq_true,
    Bool.and_eq_true, decide_eq_true_eq, UInt32.le_iff_toNat_le] at hlt
  have hz : ('z'.val).toNat = 122 := rfl
  have hnine : ('9'.val).toNat = 57 := rfl
  rw [Char.toNat]
  omega

section Shortened

variable {hexDigest : String → String} {maxLengthBytes hashLength : ℕ}

theorem length_hashOf (hdigest : IsHexDigest hexDigest) (hhash : hashLength ≤ 64)
    (original : String) : (hashOf hexDigest hashLength original).length = hashLength := by
  rw [hashOf, List.length_take, (hdigest original).1]
  omega

theorem isLowerHexDigit_of_mem_hashOf (hdigest : IsHexDigest hexDigest) {original : String}
    {c : Char} (hc : c ∈ hashOf hexDigest hashLength original) : isLowerHexDigit c = true :=
  (hdigest original).2 c (List.mem_of_mem_take hc)

theorem utf8Size_hashOf (hdigest : IsHexDigest hexDigest) (hhash : hashLength ≤ 64)
    (original : String) : utf8Size (hashOf hexDigest hashLength original) = hashLength := by
  rw [utf8Size_eq_length fun c hc =>
    toNat_lt_of_isLowerHexDigit (isLowerHexDigit_of_mem_hashOf hdigest hc),
    length_hashOf hdigest hhash]

/-! ### Shortened texts -/

/-- The characters that stay in front of the dash: one more makes room for it, unless the dash of
the name itself is reused. -/
def cutName (name : List Char) : List Char :=
  if name.dropLast.getLast? = some '-' ∧ name.getLast? ≠ some '-' then name.dropLast.dropLast
  else name.dropLast

/-- The last character of a name makes room for a dash; a dash before it is used instead, unless the
removed character is one as well. -/
def MakesRoom (name cut : List Char) : Prop :=
  ∃ removed, (name = cut ++ [removed] ∧ (cut.getLast? = some '-' → removed = '-')) ∨
    (name = cut ++ ['-', removed] ∧ removed ≠ '-')

theorem makesRoom_cutName {name : List Char} (h : 2 ≤ name.length) :
    MakesRoom name (cutName name) := by
  obtain ⟨front, removed, rfl⟩ : ∃ front removed, name = front ++ [removed] := by
    refine (List.eq_nil_or_concat' name).resolve_left ?_
    rintro rfl
    exact absurd h (by simp)
  refine ⟨removed, ?_⟩
  rw [cutName, List.dropLast_concat, List.getLast?_concat]
  split_ifs with hdash
  · obtain ⟨hlast, hremoved⟩ := hdash
    obtain ⟨cut, rfl⟩ := List.getLast?_eq_some_iff.mp hlast
    refine .inr ⟨?_, fun heq => hremoved (congrArg some heq)⟩
    rw [List.dropLast_concat, List.append_assoc, List.singleton_append]
  · refine .inl ⟨rfl, fun hlast => ?_⟩
    by_contra hremoved
    exact hdash ⟨hlast, fun heq => hremoved (Option.some.inj heq)⟩

theorem cutName_isPrefix (name : List Char) : cutName name <+: name.dropLast := by
  rw [cutName]
  split
  · exact List.dropLast_prefix _
  · exact List.prefix_refl _

theorem withHash_eq_append {name hash : List Char} (h : 2 ≤ name.length) :
    withHash name hash = cutName name ++ '-' :: hash := by
  have hne : ¬ name.dropLast.isEmpty = true := by
    rw [List.isEmpty_iff_length_eq_zero, List.length_dropLast]
    omega
  rw [withHash, if_neg hne, cutName]
  by_cases hdash : name.dropLast.getLast? = some '-' ∧ name.getLast? ≠ some '-'
  · obtain ⟨hlast, hremoved⟩ := hdash
    obtain ⟨cut, hcut⟩ := List.getLast?_eq_some_iff.mp hlast
    rw [if_neg (by simp [hlast, hremoved]), if_pos ⟨hlast, hremoved⟩, hcut, List.dropLast_concat,
      List.append_assoc, List.singleton_append]
  · have hpush : name.dropLast.getLast? ≠ some '-' ∨ name.getLast? = some '-' := by
      by_contra hreused
      obtain ⟨hlast, hremoved⟩ := not_or.mp hreused
      exact hdash ⟨not_not.mp hlast, hremoved⟩
    rw [if_pos hpush, if_neg hdash, List.append_assoc, List.singleton_append]

/-- What stays in front of the dash may be empty only if the name begins with a dash itself. -/
theorem head?_of_cutName_eq_nil {name : List Char} (h : 2 ≤ name.length)
    (hnil : cutName name = []) : name.head? = some '-' := by
  match name, h with
  | c :: d :: rest, _ =>
    rw [cutName, List.dropLast_cons_cons] at hnil
    split at hnil
    · rename_i hdash
      obtain ⟨hlast, -⟩ := hdash
      match hrest : (d :: rest).dropLast with
      | [] => rwa [hrest] at hlast
      | e :: es =>
        rw [hrest, List.dropLast_cons_cons] at hnil
        cases hnil
    · cases hnil

/-- Where the hash does not leave any characters. -/
theorem withHash_of_length_le {name hash : List Char} (h : name.length ≤ 1) :
    withHash name hash = hash := by
  match name, h with
  | [], _ => rfl
  | [_], _ => rfl

/-- The hash takes the place of the bytes that are reserved for it. -/
theorem utf8Size_withHash_le (name hash : List Char) :
    utf8Size (withHash name hash) ≤ utf8Size name + utf8Size hash := by
  by_cases h : 2 ≤ name.length
  · obtain ⟨rest, hrest⟩ := cutName_isPrefix name
    -- the last character of the name makes room for the dash
    obtain ⟨front, removed, rfl⟩ : ∃ front removed, name = front ++ [removed] := by
      refine (List.eq_nil_or_concat' name).resolve_left ?_
      rintro rfl
      exact absurd h (by simp)
    have hpos := removed.utf8Size_pos
    have hdash : '-'.utf8Size = 1 := rfl
    rw [List.dropLast_concat] at hrest
    rw [withHash_eq_append h]
    nth_rewrite 2 [← hrest]
    simp only [utf8Size_append, utf8Size_cons, utf8Size_nil, hdash]
    omega
  · rw [withHash_of_length_le (by omega)]
    exact Nat.le_add_left _ _

/-- **The results of length enforcement.** -/
theorem ensureMaxStringLength_cases (hdigest : IsHexDigest hexDigest) (hhash : hashLength ≤ 64)
    (hmax : 1 + 1 + hashLength ≤ maxLengthBytes) (original : String) :
    (original.utf8ByteSize ≤ maxLengthBytes ∧
      ensureMaxStringLength hexDigest original maxLengthBytes hashLength = some original) ∨
    (maxLengthBytes < original.utf8ByteSize ∧ hashLength = 0 ∧
      ensureMaxStringLength hexDigest original maxLengthBytes hashLength =
        some (String.ofList (fitting maxLengthBytes original.toList))) ∨
    (maxLengthBytes < original.utf8ByteSize ∧ 0 < hashLength ∧
      ensureMaxStringLength hexDigest original maxLengthBytes hashLength =
        some (String.ofList (withHash (fitting (maxLengthBytes - hashLength) original.toList)
          (hashOf hexDigest hashLength original)))) := by
  rw [ensureMaxStringLength, if_neg (by omega), if_neg (by omega)]
  obtain hfits | hlong := Nat.lt_or_ge maxLengthBytes original.utf8ByteSize |>.symm
  · exact .inl ⟨hfits, if_pos hfits⟩
  · rw [if_neg (by omega)]
    obtain rfl | hpos := Nat.eq_zero_or_pos hashLength
    · refine .inr (.inl ⟨hlong, rfl, ?_⟩)
      rw [if_pos rfl, truncateAtCharBoundary, truncate_floorCharBoundary, Option.map_some]
    · refine .inr (.inr ⟨hlong, hpos, ?_⟩)
      have hhashOf : truncate (hexDigest original).toList hashLength =
          some (hashOf hexDigest hashLength original) := by
        refine truncate_eq_take (fun c hc => ?_) ((hdigest original).1 ▸ hhash)
        exact toNat_lt_of_isLowerHexDigit ((hdigest original).2 c hc)
      rw [if_neg (by omega), hhashOf, truncateAtCharBoundary, truncate_floorCharBoundary]
      rfl

/-- A result that fits is not changed any more. -/
theorem ensureMaxStringLength_of_le (hhash : hashLength ≤ 64)
    (hmax : 1 + 1 + hashLength ≤ maxLengthBytes) {original : String}
    (h : original.utf8ByteSize ≤ maxLengthBytes) :
    ensureMaxStringLength hexDigest original maxLengthBytes hashLength = some original := by
  rw [ensureMaxStringLength, if_neg (by omega), if_neg (by omega), if_pos h]

/-- **Length enforcement succeeds** and keeps the maximum length. -/
theorem exists_ensureMaxStringLength (hdigest : IsHexDigest hexDigest) (hhash : hashLength ≤ 64)
    (hmax : 1 + 1 + hashLength ≤ maxLengthBytes) (original : String) :
    ∃ result, ensureMaxStringLength hexDigest original maxLengthBytes hashLength = some result ∧
      result.utf8ByteSize ≤ maxLengthBytes := by
  obtain ⟨hfits, heq⟩ | ⟨-, -, heq⟩ | ⟨-, -, heq⟩ :=
    ensureMaxStringLength_cases hdigest hhash hmax original
  · exact ⟨original, heq, hfits⟩
  · refine ⟨_, heq, ?_⟩
    rw [utf8ByteSize_ofList]
    exact utf8Size_fitting_le _ _
  · refine ⟨_, heq, ?_⟩
    have hname := utf8Size_fitting_le (maxLengthBytes - hashLength) original.toList
    have hsize := utf8Size_withHash_le (fitting (maxLengthBytes - hashLength) original.toList)
      (hashOf hexDigest hashLength original)
    rw [utf8Size_hashOf hdigest hhash] at hsize
    rw [utf8ByteSize_ofList]
    omega

variable (hexDigest maxLengthBytes hashLength) in
/-- What length enforcement is for: a text that fits is kept; of a text that does not fit, the
longest beginning that fits beside the hash stays, cut between two characters, except that its end
makes room for the dash in front of the hash. -/
structure IsShortened (original result : String) : Prop where
  size : result.utf8ByteSize ≤ maxLengthBytes
  eq_self : original.utf8ByteSize ≤ maxLengthBytes → result = original
  /-- Without a hash, the longest beginning that fits. -/
  eq_fitting : maxLengthBytes < original.utf8ByteSize → hashLength = 0 →
    result.toList = fitting maxLengthBytes original.toList
  /-- If at most one character fits beside the hash, it has to make room for the dash. -/
  eq_hash : maxLengthBytes < original.utf8ByteSize → 0 < hashLength →
    (fitting (maxLengthBytes - hashLength) original.toList).length ≤ 1 →
      result.toList = hashOf hexDigest hashLength original
  eq_append : maxLengthBytes < original.utf8ByteSize → 0 < hashLength →
    2 ≤ (fitting (maxLengthBytes - hashLength) original.toList).length →
      ∃ cut, MakesRoom (fitting (maxLengthBytes - hashLength) original.toList) cut ∧
        result.toList = cut ++ '-' :: hashOf hexDigest hashLength original

/-- In front of the dash there is a beginning of the text. -/
theorem IsShortened.exists_isPrefix {original result : String}
    (h : IsShortened hexDigest maxLengthBytes hashLength original result)
    (hlong : maxLengthBytes < original.utf8ByteSize) (hpos : 0 < hashLength)
    (hlength : 2 ≤ (fitting (maxLengthBytes - hashLength) original.toList).length) :
    ∃ cut, cut <+: original.toList ∧
      result.toList = cut ++ '-' :: hashOf hexDigest hashLength original := by
  obtain ⟨cut, hcut, hresult⟩ := h.eq_append hlong hpos hlength
  have hfits := fitting_isPrefix (maxLengthBytes - hashLength) original.toList
  refine ⟨cut, List.IsPrefix.trans ?_ hfits, hresult⟩
  obtain ⟨removed, ⟨hname, -⟩ | ⟨hname, -⟩⟩ := hcut
  · exact ⟨[removed], hname.symm⟩
  · exact ⟨['-', removed], hname.symm⟩

/-- **Length enforcement shortens** and does not panic. -/
theorem isShortened_ensureMaxStringLength (hdigest : IsHexDigest hexDigest)
    (hhash : hashLength ≤ 64) (hmax : 1 + 1 + hashLength ≤ maxLengthBytes) (original : String) :
    ∃ result, ensureMaxStringLength hexDigest original maxLengthBytes hashLength = some result ∧
      IsShortened hexDigest maxLengthBytes hashLength original result := by
  obtain ⟨result, hresult, hsize⟩ := exists_ensureMaxStringLength hdigest hhash hmax original
  refine ⟨result, hresult, hsize, fun hfits => ?_, fun hlong hzero => ?_,
    fun hlong hpos hlength => ?_, fun hlong hpos hlength => ?_⟩
  · rw [ensureMaxStringLength_of_le hhash hmax hfits] at hresult
    exact (Option.some.inj hresult).symm
  · obtain ⟨hfits, -⟩ | ⟨-, -, heq⟩ | ⟨-, hpos, -⟩ :=
      ensureMaxStringLength_cases hdigest hhash hmax original
    · omega
    · rw [← Option.some.inj (heq.symm.trans hresult), String.toList_ofList]
    · omega
  all_goals
    obtain ⟨hfits, -⟩ | ⟨-, hzero, -⟩ | ⟨-, -, heq⟩ :=
      ensureMaxStringLength_cases hdigest hhash hmax original
    · omega
    · omega
    rw [← Option.some.inj (heq.symm.trans hresult), String.toList_ofList]
  · exact withHash_of_length_le hlength
  · exact ⟨_, makesRoom_cutName hlength, withHash_eq_append hlength⟩

/-! ### Shortened segments -/

section Segments

variable {first inner last : Char → Bool}

/-- The beginning of a segment, a dash and a hash are a segment. -/
theorem isSegment_append_dash {s cut hash : List Char} (hs : isSegment first inner last s = true)
    (hfirst : ∀ c, first c = true → inner c = true) (hlast : ∀ c, last c = true → inner c = true)
    (hdash : inner '-' = true) (hcut : cut <+: s) (hne : cut ≠ [])
    (hhash : ∀ c ∈ hash, last c = true) (hhashne : hash ≠ []) :
    isSegment first inner last (cut ++ '-' :: hash) = true := by
  obtain ⟨front, z, rfl⟩ := (List.eq_nil_or_concat' hash).resolve_left hhashne
  rw [List.forall_mem_append, List.forall_mem_singleton] at hhash
  refine isSegment_append_concat ('-' :: front) hfirst hlast hs hcut hne ?_ hhash.2
  exact List.forall_mem_cons.mpr ⟨hdash, fun c hc => hlast c (hhash.1 c hc)⟩

/-- **A segment that is too long is shortened to a segment**, if its characters are ASCII. -/
theorem exists_isSegment_ensureMaxStringLength (hdigest : IsHexDigest hexDigest)
    (hhash : hashLength ≤ 64) (hmax : 1 + 1 + hashLength ≤ maxLengthBytes) (hpos : 0 < hashLength)
    (hfirst : ∀ c, first c = true → inner c = true) (hlast : ∀ c, last c = true → inner c = true)
    (hascii : ∀ c, inner c = true → c.toNat < 128) (hdash : inner '-' = true)
    (hdash' : first '-' = false) (hhex : ∀ c, isLowerHexDigit c = true → last c = true)
    {original : String} (horiginal : isSegment first inner last original.toList = true) :
    ∃ result, ensureMaxStringLength hexDigest original maxLengthBytes hashLength = some result ∧
      result.utf8ByteSize ≤ maxLengthBytes ∧ isSegment first inner last result.toList = true := by
  obtain ⟨result, hresult, hsize⟩ := exists_ensureMaxStringLength hdigest hhash hmax original
  refine ⟨result, hresult, hsize, ?_⟩
  have hchars : ∀ c ∈ original.toList, c.toNat < 128 := fun c hc =>
    hascii c (all_of_isSegment hfirst hlast horiginal c hc)
  obtain ⟨-, heq⟩ | ⟨-, hzero, -⟩ | ⟨hlong, -, heq⟩ :=
    ensureMaxStringLength_cases hdigest hhash hmax original
  · obtain rfl := Option.some.inj (heq.symm.trans hresult)
    exact horiginal
  · omega
  · obtain rfl := Option.some.inj (heq.symm.trans hresult)
    rw [utf8ByteSize_eq_utf8Size, utf8Size_eq_length hchars] at hlong
    have hlength : 2 ≤ (fitting (maxLengthBytes - hashLength) original.toList).length := by
      rw [fitting_eq_take hchars, List.length_take]
      omega
    have hname := fitting_isPrefix (maxLengthBytes - hashLength) original.toList
    have hne : cutName (fitting (maxLengthBytes - hashLength) original.toList) ≠ [] := by
      intro hnil
      -- the name does not begin with a dash
      obtain ⟨rest, hrest⟩ := hname
      have hdashHead : original.toList.head? = some '-' := by
        rw [← hrest, List.head?_append, head?_of_cutName_eq_nil hlength hnil]
        rfl
      obtain ⟨tail, htail⟩ := List.head?_eq_some_iff.mp hdashHead
      rw [htail, isSegment, hdash'] at horiginal
      cases horiginal
    have hhashne : hashOf hexDigest hashLength original ≠ [] := by
      rw [← List.length_pos_iff_ne_nil, length_hashOf hdigest hhash]
      exact hpos
    rw [String.toList_ofList, withHash_eq_append hlength]
    exact isSegment_append_dash horiginal hfirst hlast hdash
      (((cutName_isPrefix _).trans (List.dropLast_prefix _)).trans hname) hne
      (fun c hc => hhex c (isLowerHexDigit_of_mem_hashOf hdigest hc)) hhashne

end Segments

end Shortened

end StackableOperator
