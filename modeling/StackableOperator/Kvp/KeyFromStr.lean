import Mathlib
import StackableOperator.RustStd.CharBoundary
import StackableOperator.Kvp.KeyRegex

/-!
# Parsing keys

`Key.fromStr` accepts the texts of the grammar `IsKeyText`, after trimming. A parsed key displays
as the trimmed text and is parsed from it again (`fromStr_isKeyText`).
-/

namespace StackableOperator

namespace Kvp

/-- The grammar of keys: a name, or a name with a DNS subdomain and a slash in front of it. -/
def IsKeyText (s : List Char) : Prop :=
  (s ∈ keyNameRegex.matches' ∧ s.length ≤ keyNameMaxLen) ∨
    ∃ keyPrefix name, s = keyPrefix ++ '/' :: name ∧
      (keyPrefix ∈ keyPrefixRegex.matches' ∧ keyPrefix.length ≤ keyPrefixMaxLen) ∧
      name ∈ keyNameRegex.matches' ∧ name.length ≤ keyNameMaxLen

/-! ### Characters -/

section Characters

variable {c : Char} {cs : List Char}

theorem toNat_lt_of_isNameChar (h : isNameChar c = true) : c.toNat < 128 := by
  simp only [isNameChar, Char.isAlphanum, Char.isAlpha, Char.isLower, Char.isUpper, Char.isDigit,
    Bool.or_eq_true, Bool.and_eq_true, decide_eq_true_eq, beq_iff_eq, UInt32.le_iff_toNat_le] at h
  have hz : ('z'.val).toNat = 122 := rfl
  have hZ : ('Z'.val).toNat = 90 := rfl
  have hnine : ('9'.val).toNat = 57 := rfl
  obtain ((h | rfl) | rfl) | rfl := h
  · rw [Char.toNat]
    omega
  · decide
  · decide
  · decide

theorem isWhitespace_eq_false_of_isNameChar (h : isNameChar c = true) :
    isWhitespace c = false := by
  have hlt := toNat_lt_of_isNameChar h
  have hspace : ∀ n : ℕ, n ≤ 32 → c.toNat ≠ n := by
    rintro n hn rfl
    have hchar : ∀ m ≤ 32, isNameChar (Char.ofNat m) = false := by decide
    rw [← Char.ofNat_toNat c, hchar c.toNat hn] at h
    cases h
  have hgt : 32 < c.toNat := by
    by_contra hle
    exact hspace c.toNat (by omega) rfl
  simp only [isWhitespace, Bool.or_eq_false_iff, Bool.and_eq_false_iff, decide_eq_false_iff_not,
    beq_eq_false_iff_ne]
  omega

theorem slash_notMem (h : ∀ c ∈ cs, isNameChar c = true) : '/' ∉ cs := fun hmem =>
  absurd (h '/' hmem) (by decide)

/-- Nothing is trimmed from characters other than whitespace. -/
theorem trim_eq_self (h : ∀ c ∈ cs, isWhitespace c = false) : trim cs = cs := by
  have hdrop : ∀ l : List Char, (∀ c ∈ l, isWhitespace c = false) →
      l.dropWhile isWhitespace = l := by
    intro l hl
    match l with
    | [] => rfl
    | c :: l => exact List.dropWhile_cons_of_neg (by simp [hl c List.mem_cons_self])
  rw [trim, hdrop cs h, hdrop cs.reverse fun c hc => h c (List.mem_reverse.mp hc),
    List.reverse_reverse]

/-- Names consist of their characters. -/
theorem isNameChar_of_matchesName (h : matchesName cs = true) : ∀ c ∈ cs, isNameChar c = true := by
  have halphanum : ∀ c, Char.isAlphanum c = true → isNameChar c = true := by
    intro c hc
    rw [isNameChar, hc]
    rfl
  exact all_of_isSegment halphanum halphanum h

theorem isNameChar_of_mem_segmentChars (h : c ∈ segmentChars) : isNameChar c = true := by
  rw [mem_segmentChars, Bool.or_eq_true] at h
  simp only [isNameChar, Bool.or_eq_true]
  exact .inl (.inl h)

/-- Between the dots stand the characters of segments. -/
theorem isNameChar_of_isDotted (h : IsDotted cs) : ∀ c ∈ cs, isNameChar c = true := by
  intro c hc
  obtain rfl | ⟨segment, hsegment, hmem⟩ := eq_or_exists_mem_splitOn (a := '.') hc
  · decide
  · exact isNameChar_of_mem_segmentChars ((h segment hsegment).2 c hmem)

/-- What stands in front of a name has no other characters than names. -/
theorem isNameChar_of_matchesKeyPrefix (h : matchesKeyPrefix cs = true) :
    ∀ c ∈ cs, isNameChar c = true := by
  obtain ⟨front, last, dot, rfl, hword⟩ :=
    mem_keyPrefixRegex_iff_exists.mp (mem_keyPrefixRegex_iff.mpr h)
  have hdot : ∀ c ∈ dot, isNameChar c = true := by
    obtain rfl | rfl := hword.dot
    · exact List.forall_mem_nil _
    · exact List.forall_mem_singleton.mpr (by decide)
  have hlast : ∀ c ∈ last, isNameChar c = true := fun c hc =>
    isNameChar_of_mem_segmentChars (letters_subset (hword.last c hc))
  refine List.forall_mem_append.mpr ⟨isNameChar_of_isDotted hword.isDotted, ?_⟩
  exact List.forall_mem_cons.mpr ⟨by decide, List.forall_mem_append.mpr ⟨hlast, hdot⟩⟩

end Characters

/-! ### Parts of keys -/

/-- The checks of a part accept what its regular expression matches, up to its maximum length. -/
theorem check_iff {E : Type} {s : String} {isMatch : List Char → Bool} {maxLen : ℕ}
    {empty notAscii invalid : E} {tooLong : ℕ → E} (hempty : isMatch [] = false)
    (hchars : ∀ cs, isMatch cs = true → ∀ c ∈ cs, isNameChar c = true) :
    (if s.isEmpty then Except.error empty
      else if s.utf8ByteSize > maxLen then .error (tooLong s.utf8ByteSize)
      else if !isAscii s then .error notAscii
      else if !isMatch s.toList then .error invalid
      else .ok ()) = .ok () ↔ isMatch s.toList = true ∧ s.toList.length ≤ maxLen := by
  constructor
  · intro h
    split_ifs at h with hnil hlen hascii hmatch
    have hmatch : isMatch s.toList = true := by simpa using hmatch
    have hsize : s.utf8ByteSize = s.toList.length := by
      rw [utf8ByteSize_eq_length fun c hc => toNat_lt_of_isNameChar (hchars _ hmatch c hc),
        String.length_toList]
    exact ⟨hmatch, by omega⟩
  · rintro ⟨hmatch, hlen⟩
    have hascii : ∀ c ∈ s.toList, c.toNat < 128 := fun c hc =>
      toNat_lt_of_isNameChar (hchars _ hmatch c hc)
    have hne : ¬ s.isEmpty = true := by
      intro hnil
      rw [String.isEmpty_iff.mp hnil] at hmatch
      exact absurd (hempty.symm.trans hmatch) (by decide)
    have hsize : ¬ s.utf8ByteSize > maxLen := by
      rw [utf8ByteSize_eq_length hascii, ← String.length_toList]
      omega
    have hall : isAscii s = true := by
      rw [isAscii, List.all_eq_true]
      exact fun c hc => decide_eq_true (hascii c hc)
    rw [if_neg hne, if_neg hsize, hall, hmatch]
    rfl

theorem KeyName.check_eq_ok_iff {s : String} :
    KeyName.check s = .ok () ↔ matchesName s.toList = true ∧ s.toList.length ≤ keyNameMaxLen :=
  check_iff rfl fun _ => isNameChar_of_matchesName

theorem KeyPrefix.check_eq_ok_iff {s : String} : KeyPrefix.check s = .ok () ↔
    matchesKeyPrefix s.toList = true ∧ s.toList.length ≤ keyPrefixMaxLen :=
  check_iff (by decide) fun _ => isNameChar_of_matchesKeyPrefix

/-! ### Keys -/

/-- The key of a name with an optional prefix. -/
def Key.ofParts (keyPrefix : Option KeyPrefix) (name : KeyName) : Key where
  string :=
    match keyPrefix with
    | some keyPrefix => keyPrefix.1 ++ "/" ++ name.1
    | none => name.1
  keyPrefix := keyPrefix
  name := name

section OfParts

variable (keyPrefix : KeyPrefix) (name : KeyName)

theorem isNameChar_of_mem_name : ∀ c ∈ name.1.toList, isNameChar c = true :=
  isNameChar_of_matchesName (KeyName.check_eq_ok_iff.mp name.2).1

theorem isNameChar_of_mem_keyPrefix : ∀ c ∈ keyPrefix.1.toList, isNameChar c = true :=
  isNameChar_of_matchesKeyPrefix (KeyPrefix.check_eq_ok_iff.mp keyPrefix.2).1

theorem toList_ofParts_none : (Key.ofParts none name).string.toList = name.1.toList := rfl

theorem toList_ofParts_some : (Key.ofParts (some keyPrefix) name).string.toList =
    keyPrefix.1.toList ++ '/' :: name.1.toList := by
  simp [Key.ofParts]

end OfParts

theorem toList_ofParts_ne_nil (keyPrefix : Option KeyPrefix) (name : KeyName) :
    (Key.ofParts keyPrefix name).string.toList ≠ [] := by
  match keyPrefix with
  | some keyPrefix =>
    rw [toList_ofParts_some]
    simp
  | none =>
    intro hnil
    have hname := (KeyName.check_eq_ok_iff.mp name.2).1
    rw [← toList_ofParts_none, hnil] at hname
    cases hname

theorem trim_ofParts (keyPrefix : Option KeyPrefix) (name : KeyName) :
    trim (Key.ofParts keyPrefix name).string.toList =
      (Key.ofParts keyPrefix name).string.toList := by
  have hname : ∀ c ∈ name.1.toList, isWhitespace c = false := fun c hc =>
    isWhitespace_eq_false_of_isNameChar (isNameChar_of_mem_name name c hc)
  apply trim_eq_self
  match keyPrefix with
  | none => exact hname
  | some keyPrefix =>
    rw [toList_ofParts_some, List.forall_mem_append, List.forall_mem_cons]
    refine ⟨fun c hc => ?_, by decide, hname⟩
    exact isWhitespace_eq_false_of_isNameChar (isNameChar_of_mem_keyPrefix keyPrefix c hc)

/-- **Parsing a key from its parts.** The text in front of the trimmed one does not matter. -/
theorem fromStr_of_trim {input : String} {keyPrefix : Option KeyPrefix} {name : KeyName}
    (h : trim input.toList = (Key.ofParts keyPrefix name).string.toList) :
    Key.fromStr input = .ok (Key.ofParts keyPrefix name) := by
  have hname : '/' ∉ name.1.toList := slash_notMem (isNameChar_of_mem_name name)
  have hne : ¬ (Key.ofParts keyPrefix name).string.toList.isEmpty = true := by
    rw [List.isEmpty_iff]
    exact toList_ofParts_ne_nil keyPrefix name
  unfold Key.fromStr
  simp only [h]
  rw [if_neg hne]
  match keyPrefix with
  | none =>
    rw [toList_ofParts_none, List.splitOn_eq_singleton hname]
    simp only [List.map_cons, List.map_nil, String.ofList_toList, KeyName.fromStr,
      checked_of_eq_ok name.2]
    rfl
  | some keyPrefix =>
    have hfront : '/' ∉ keyPrefix.1.toList :=
      slash_notMem (isNameChar_of_mem_keyPrefix keyPrefix)
    rw [toList_ofParts_some, List.splitOn_append_cons_self_of_not_mem hfront,
      List.splitOn_eq_singleton hname]
    simp only [List.map_cons, List.map_nil, String.ofList_toList, KeyName.fromStr,
      KeyPrefix.fromStr, checked_of_eq_ok name.2, checked_of_eq_ok keyPrefix.2]
    rfl

theorem fromStr_ofParts (keyPrefix : Option KeyPrefix) (name : KeyName) :
    Key.fromStr (Key.ofParts keyPrefix name).string = .ok (Key.ofParts keyPrefix name) :=
  fromStr_of_trim (trim_ofParts keyPrefix name)

/-- What is parsed has been put together from the parts of the trimmed text. -/
theorem exists_ofParts_of_fromStr {input : String} {key : Key} (h : Key.fromStr input = .ok key) :
    key = Key.ofParts key.keyPrefix key.name ∧ key.string.toList = trim input.toList := by
  have hjoin : ['/'].intercalate ((trim input.toList).splitOn '/') = trim input.toList :=
    List.intercalate_splitOn '/'
  unfold Key.fromStr at h
  simp only at h
  split at h
  · cases h
  · split at h
    · rename_i name hsplit
      split at h
      · rename_i keyName hname
        obtain rfl := Except.ok.inj h
        obtain ⟨piece, hpiece, rfl⟩ : ∃ piece, (trim input.toList).splitOn '/' = [piece] ∧
            String.ofList piece = name := by
          simpa [List.map_eq_cons_iff] using hsplit
        refine ⟨rfl, ?_⟩
        rw [checked_eq_ok_iff.mp hname, ← hjoin, hpiece]
        simp
      · cases h
    · rename_i pre name hsplit
      split at h
      · cases h
      · rename_i keyPrefix hfront
        split at h
        · rename_i keyName hname
          obtain rfl := Except.ok.inj h
          obtain ⟨front, piece, hpieces, rfl, rfl⟩ : ∃ front piece,
              (trim input.toList).splitOn '/' = [front, piece] ∧ String.ofList front = pre ∧
                String.ofList piece = name := by
            obtain ⟨front, rest, hpieces, hfront, hrest⟩ := List.map_eq_cons_iff.mp hsplit
            obtain ⟨piece, rest, rfl, hpiece, hnil⟩ := List.map_eq_cons_iff.mp hrest
            rw [List.map_eq_nil_iff] at hnil
            exact ⟨front, piece, hnil ▸ hpieces, hfront, hpiece⟩
          refine ⟨rfl, ?_⟩
          rw [checked_eq_ok_iff.mp hname, checked_eq_ok_iff.mp hfront, ← hjoin, hpieces]
          simp
        · cases h
    · cases h

/-- The texts of the grammar are those of keys. -/
theorem isKeyText_iff {s : List Char} :
    IsKeyText s ↔ ∃ keyPrefix name, s = (Key.ofParts keyPrefix name).string.toList := by
  constructor
  · have hname : ∀ name : List Char, name ∈ keyNameRegex.matches' → name.length ≤ keyNameMaxLen →
        KeyName.check (String.ofList name) = .ok () := by
      intro name hmatch hlen
      rw [KeyName.check_eq_ok_iff, String.toList_ofList]
      exact ⟨mem_keyNameRegex_iff.mp hmatch, hlen⟩
    rintro (⟨hmatch, hlen⟩ | ⟨keyPrefix, name, rfl, ⟨hfront, hfrontLen⟩, hmatch, hlen⟩)
    · exact ⟨none, ⟨String.ofList s, hname s hmatch hlen⟩, String.toList_ofList.symm⟩
    · have hcheck : KeyPrefix.check (String.ofList keyPrefix) = .ok () := by
        rw [KeyPrefix.check_eq_ok_iff, String.toList_ofList]
        exact ⟨mem_keyPrefixRegex_iff.mp hfront, hfrontLen⟩
      refine ⟨some ⟨String.ofList keyPrefix, hcheck⟩,
        ⟨String.ofList name, hname name hmatch hlen⟩, ?_⟩
      rw [toList_ofParts_some, String.toList_ofList, String.toList_ofList]
  · rintro ⟨keyPrefix, name, rfl⟩
    obtain ⟨hmatch, hlen⟩ := KeyName.check_eq_ok_iff.mp name.2
    have hmatch := mem_keyNameRegex_iff.mpr hmatch
    match keyPrefix with
    | none => exact .inl ⟨hmatch, hlen⟩
    | some keyPrefix =>
      obtain ⟨hfront, hfrontLen⟩ := KeyPrefix.check_eq_ok_iff.mp keyPrefix.2
      exact .inr ⟨_, _, toList_ofParts_some keyPrefix name,
        ⟨mem_keyPrefixRegex_iff.mpr hfront, hfrontLen⟩, hmatch, hlen⟩

/-- **Parsing keys is exact and round-trips.** -/
theorem fromStr_isKeyText (input : String) :
    ((∃ key, Key.fromStr input = .ok key) ↔ IsKeyText (trim input.toList)) ∧
      ∀ key, Key.fromStr input = .ok key →
        key.string.toList = trim input.toList ∧ Key.fromStr key.string = .ok key := by
  refine ⟨⟨?_, ?_⟩, ?_⟩
  · rintro ⟨key, hkey⟩
    obtain ⟨hparts, hstring⟩ := exists_ofParts_of_fromStr hkey
    exact isKeyText_iff.mpr ⟨key.keyPrefix, key.name, hparts ▸ hstring.symm⟩
  · intro h
    obtain ⟨keyPrefix, name, heq⟩ := isKeyText_iff.mp h
    exact ⟨_, fromStr_of_trim heq⟩
  · intro key hkey
    obtain ⟨hparts, hstring⟩ := exists_ofParts_of_fromStr hkey
    refine ⟨hstring, ?_⟩
    rw [hparts]
    exact fromStr_ofParts _ _

/-- A subdomain of one label is valid, but a prefix has a top-level domain after a dot. -/
theorem fromStr_localhost : Validation.isLowercaseRfc1123Subdomain "localhost" = .ok () ∧
    KeyName.check "name" = .ok () ∧
      Key.fromStr "localhost/name" = .error (.keyPrefixError .prefixInvalid) := by
  decide

end Kvp

end StackableOperator
