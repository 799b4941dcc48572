import Mathlib
import StackableOperator.Readers.JavaProperties
import StackableOperator.ForMathlib.LastWins

/-!
# Writers for configuration files

`toJavaPropertiesString` lets a `PropertiesWriter` write the properties, which emits the bytes of
Windows-1252, and reads these bytes as UTF-8. A file is loaded to its properties iff no character
outside of ASCII has a byte (`toJavaPropertiesString_iff`).
-/

namespace StackableOperator

namespace V2

inductive PropertiesWriterError : Type
  | fromUtf8
  deriving DecidableEq

/-- The characters of Windows-1252 between `0x80` and `0x9f`. -/
def windows1252Table : List (ℕ × UInt8) :=
  [(0x20ac, 0x80), (0x201a, 0x82), (0x0192, 0x83), (0x201e, 0x84), (0x2026, 0x85), (0x2020, 0x86),
    (0x2021, 0x87), (0x02c6, 0x88), (0x2030, 0x89), (0x0160, 0x8a), (0x2039, 0x8b), (0x0152, 0x8c),
    (0x017d, 0x8e), (0x2018, 0x91), (0x2019, 0x92), (0x201c, 0x93), (0x201d, 0x94), (0x2022, 0x95),
    (0x2013, 0x96), (0x2014, 0x97), (0x02dc, 0x98), (0x2122, 0x99), (0x0161, 0x9a), (0x203a, 0x9b),
    (0x0153, 0x9c), (0x017e, 0x9e), (0x0178, 0x9f)]

/-- The byte of a character in Windows-1252. -/
def windows1252 (c : Char) : Option UInt8 :=
  if c.toNat < 0x80 ∨ (0xa0 ≤ c.toNat ∧ c.toNat ≤ 0xff) then some c.toUInt8
  else windows1252Table.lookup c.toNat

/-- Control characters. -/
def isControl (c : Char) : Bool := c.toNat < 0x20 || (0x7f ≤ c.toNat && c.toNat ≤ 0x9f)

/-- The characters that are written behind a backslash. -/
def specialCharacters : List Char := ['\\', ':', '=', '#', '!', ' ']

/-- The characters that are written as a letter behind a backslash. -/
def letterCharacters : List (Char × Char) :=
  [('\t', 't'), ('\n', 'n'), ('\r', 'r'), ('\x0c', 'f')]

/-- A writer of `java_properties` with its default encoding. -/
structure PropertiesWriter where
  /-- The bytes of a character of a key or a value. -/
  escape : Char → List UInt8
  /-- The hexadecimal digits of a code unit. -/
  hexDigits : ℕ → List Char
  hexDigits_spec (u : ℕ) (hu : u < 0x10000) :
    ∃ d₁ d₂ d₃ d₄, hexDigits u = [d₁, d₂, d₃, d₄] ∧ hexValue [d₁, d₂, d₃, d₄] = some u
  escape_special (c : Char) (hc : c ∈ specialCharacters) : escape c = ['\\', c].map Char.toUInt8
  escape_letter (c letter : Char) (hc : (c, letter) ∈ letterCharacters) :
    escape c = ['\\', letter].map Char.toUInt8
  /-- Other control characters and those without a byte are written by their code units. -/
  escape_unicode (c : Char) (hc : c ∉ letterCharacters.map Prod.fst)
    (hcontrol : isControl c = true ∨ windows1252 c = none) :
    escape c = ((utf16Char c).flatMap fun u => '\\' :: 'u' :: hexDigits u).map Char.toUInt8
  escape_byte (c : Char) (b : UInt8) (hc : c ∉ specialCharacters) (hcontrol : isControl c = false)
    (hb : windows1252 c = some b) : escape c = [b]

namespace PropertiesWriter

/-- The line of a property. -/
def write (self : PropertiesWriter) (key value : String) : List UInt8 :=
  key.toList.flatMap self.escape ++
    '='.toUInt8 :: (value.toList.flatMap self.escape ++ ['\n'.toUInt8])

end PropertiesWriter

/-- Write Java properties to the given bytes. -/
def writeJavaProperties (writer : PropertiesWriter) (output : List UInt8)
    (properties : List (String × String)) : List UInt8 :=
  properties.foldl (fun output property => output ++ writer.write property.1 property.2) output

/-- Create a Java properties file. -/
def toJavaPropertiesString (writer : PropertiesWriter) (properties : List (String × String)) :
    Except PropertiesWriterError String :=
  match String.fromUTF8? (writeJavaProperties writer [] properties).toByteArray with
  | some text => .ok text
  | none => .error .fromUtf8

/-- A character outside of ASCII with a byte in Windows-1252. -/
def hasHighByte (c : Char) : Bool := 0x80 ≤ c.toNat && (windows1252 c).isSome

section Escape

open JavaProperties

theorem toNat_lt_of_mem_specialCharacters {c : Char} (h : c ∈ specialCharacters) :
    c.toNat < 128 := by
  revert c
  simp [specialCharacters]

theorem mem_of_windows1252 {c : Char} {b : UInt8} (h : windows1252 c = some b) :
    (c.toNat < 0x80 ∨ (0xa0 ≤ c.toNat ∧ c.toNat ≤ 0xff)) ∧ b = c.toUInt8 ∨
      (c.toNat, b) ∈ windows1252Table := by
  unfold windows1252 at h
  split_ifs at h with hc
  · exact .inl ⟨hc, (Option.some.inj h).symm⟩
  · obtain ⟨front, rest, htable, -⟩ := List.lookup_eq_some_iff.mp h
    exact .inr (by rw [htable]; simp)

/-- A high byte belongs to a character with one code unit that is not escaped. -/
theorem hasHighByte_spec {c : Char} (h : hasHighByte c = true) :
    c ∉ specialCharacters ∧ isControl c = false ∧ c.toNat < 0x10000 ∧
      ∃ b : UInt8, windows1252 c = some b ∧ 128 ≤ b.toNat := by
  obtain ⟨hc, hsome⟩ := Bool.and_eq_true_iff.mp h
  obtain ⟨b, hb⟩ := Option.isSome_iff_exists.mp hsome
  have hc := of_decide_eq_true hc
  have hspecial : c ∉ specialCharacters := fun hmem => by
    have hlt := toNat_lt_of_mem_specialCharacters hmem
    omega
  have htable : ∀ e ∈ windows1252Table,
      128 ≤ e.2.toNat ∧ 0x100 ≤ e.1 ∧ e.1 < 0x10000 := by decide +kernel
  rcases mem_of_windows1252 hb with ⟨hlow | hlatin, rfl⟩ | hmem
  · omega
  · have hbyte : c.toUInt8.toNat = c.toNat % 2 ^ 8 := UInt32.toNat_toUInt8 c.val
    exact ⟨hspecial, by simp [isControl]; omega, by omega, _, hb, by omega⟩
  · obtain ⟨hbyte, hfirst, hlast⟩ := htable _ hmem
    exact ⟨hspecial, by simp [isControl]; omega, hlast, b, hb, hbyte⟩

theorem written_units (writer : PropertiesWriter) {units : List ℕ} (h : ∀ u ∈ units, u < 0x10000) :
    (∀ d ∈ units.flatMap fun u => '\\' :: 'u' :: writer.hexDigits u, d.toNat < 128) ∧
      Written (units.flatMap fun u => '\\' :: 'u' :: writer.hexDigits u) units := by
  induction units with
  | nil => exact ⟨by simp, .nil⟩
  | cons u units ih =>
    obtain ⟨hu, hunits⟩ := List.forall_mem_cons.mp h
    obtain ⟨d₁, d₂, d₃, d₄, hdigits, hvalue⟩ := writer.hexDigits_spec u hu
    obtain ⟨hascii, hwritten⟩ := ih hunits
    rw [List.flatMap_cons]
    constructor
    · intro d hd
      rcases List.mem_append.mp hd with hd | hd
      · rcases List.mem_cons.mp hd with rfl | hd
        · decide
        · rcases List.mem_cons.mp hd with rfl | hd
          · decide
          · rw [hdigits] at hd
            obtain ⟨n, hn⟩ := exists_hexDigit_of_hexValue hvalue d hd
            exact toNat_lt_of_hexDigit hn
      · exact hascii d hd
    · rw [hdigits]
      exact .cons (.unit d₁ d₂ d₃ d₄ hvalue) hwritten

/-- Without a high byte, a character is written in ASCII such that it is read back. -/
theorem exists_written_escape (writer : PropertiesWriter) {c : Char} (h : hasHighByte c = false) :
    ∃ chars : List Char, writer.escape c = chars.map Char.toUInt8 ∧
      (∀ d ∈ chars, d.toNat < 128) ∧ Written chars (utf16Char c) := by
  -- a special character follows a backslash
  by_cases hspecial : c ∈ specialCharacters
  · refine ⟨['\\', c], writer.escape_special c hspecial, ?_, ?_⟩
    · simpa using toNat_lt_of_mem_specialCharacters hspecial
    · have hletter : ∀ d ∈ specialCharacters,
          d ≠ 'u' ∧ isTerminator d = false ∧ escapedLetter d = d := by
        simp [specialCharacters, isTerminator, escapedLetter]
      obtain ⟨hu, hterminator, hmeaning⟩ := hletter c hspecial
      have hwritten := Written.cons (.letter c hu hterminator) .nil
      rwa [hmeaning, List.append_nil, List.append_nil] at hwritten
  -- a tab, a form feed or a line break is written as a letter
  · by_cases hletter : c ∈ letterCharacters.map Prod.fst
    · obtain ⟨⟨c', letter⟩, hmem, rfl⟩ := List.mem_map.mp hletter
      refine ⟨['\\', letter], writer.escape_letter c' letter hmem, ?_, ?_⟩
      · have hlt : ∀ e ∈ letterCharacters, e.2.toNat < 128 := by decide
        simpa using hlt _ hmem
      · have hspec : ∀ e ∈ letterCharacters,
            e.2 ≠ 'u' ∧ isTerminator e.2 = false ∧ escapedLetter e.2 = e.1 := by
          simp [letterCharacters, isTerminator, escapedLetter]
        obtain ⟨hu, hterminator, hmeaning⟩ := hspec _ hmem
        have hwritten := Written.cons (.letter letter hu hterminator) .nil
        rwa [hmeaning, List.append_nil, List.append_nil] at hwritten
    -- a control character, or one outside of the encoding, as its code units
    · by_cases hunicode : isControl c = true ∨ windows1252 c = none
      · obtain ⟨hascii, hwritten⟩ :=
          @written_units writer (utf16Char c) fun u => lt_of_mem_utf16Char
        exact ⟨_, writer.escape_unicode c hletter hunicode, hascii, hwritten⟩
      · rw [not_or, Bool.not_eq_true, ← ne_eq, Option.ne_none_iff_exists'] at hunicode
        obtain ⟨hcontrol, b, hb⟩ := hunicode
        -- and any other character is plain ASCII
        have hlow : c.toNat < 128 := by
          by_contra hc
          simp [hasHighByte, hb] at h
          omega
        have hbyte : b = c.toUInt8 := by
          rw [windows1252, if_pos (.inl hlow)] at hb
          exact (Option.some.inj hb).symm
        refine ⟨[c], ?_, by simpa using hlow, ?_⟩
        · rw [writer.escape_byte c b hspecial hcontrol hb, hbyte]
          rfl
        · have hreserved : isReserved c = false := by
            simp [specialCharacters, letterCharacters] at hspecial hletter
            simp [isReserved, isBlank, isTerminator, hspecial, hletter]
          have hwritten := Written.cons (.plain c hreserved) .nil
          rwa [List.append_nil, List.append_nil] at hwritten

/-! ### Files that are read as UTF-8 -/

/-- Code units that are read where a text was written: those of the text, except for characters with
a high byte, of which several are read as one character. -/
structure Shortened (s : List Char) (u : List ℕ) : Prop where
  length_le : u.length ≤ (utf16 s).length
  length_lt : (∃ c ∈ s, hasHighByte c = true) → u.length < (utf16 s).length
  eq : (∀ c ∈ s, hasHighByte c = false) → u = utf16 s

theorem Shortened.cons {c : Char} {s : List Char} {u : List ℕ} (hc : hasHighByte c = false)
    (h : Shortened s u) : Shortened (c :: s) (utf16Char c ++ u) := by
  refine ⟨?_, ?_, ?_⟩
  · rw [utf16_cons, List.length_append, List.length_append]
    exact Nat.add_le_add_left h.length_le _
  · rintro ⟨d, hd, hhigh⟩
    rcases List.mem_cons.mp hd with rfl | hd
    · exact absurd (hc.symm.trans hhigh) Bool.false_ne_true
    · rw [utf16_cons, List.length_append, List.length_append]
      exact Nat.add_lt_add_left (h.length_lt ⟨d, hd, hhigh⟩) _
  · intro hall
    rw [utf16_cons, h.eq fun d hd => hall d (List.mem_cons_of_mem _ hd)]

/-- Bytes outside of ASCII are those of characters with a high byte. -/
theorem exists_append_of_high_bytes (writer : PropertiesWriter) {s : List Char}
    {bytes rest tail : List UInt8} {b : UInt8} (hbytes : ∀ b ∈ bytes, 128 ≤ b.toNat)
    (hb : b.toNat < 128) (h : bytes ++ rest = s.flatMap writer.escape ++ b :: tail) :
    ∃ high s', s = high ++ s' ∧ (utf16 high).length = bytes.length ∧
      (∀ c ∈ high, hasHighByte c = true) ∧ rest = s'.flatMap writer.escape ++ b :: tail := by
  induction bytes generalizing s with
  | nil => exact ⟨[], s, rfl, rfl, by simp, h⟩
  | cons b' bytes ih =>
    obtain ⟨hb', hbytes⟩ := List.forall_mem_cons.mp hbytes
    cases s with
    | nil =>
      rw [List.flatMap_nil, List.nil_append, List.cons_append, List.cons.injEq] at h
      rw [h.1] at hb'
      omega
    | cons c s =>
      rw [List.flatMap_cons, List.append_assoc] at h
      cases hc : hasHighByte c with
      | false =>
        obtain ⟨chars, hescape, hascii, hwritten⟩ := exists_written_escape writer hc
        cases chars with
        | nil =>
          have hnil := Option.some.inj (loadConvert_of_written hwritten)
          exact absurd hnil.symm (utf16Char_ne_nil c)
        | cons d chars =>
          rw [hescape, List.map_cons, List.cons_append, List.cons_append, List.cons.injEq] at h
          have hd := hascii d List.mem_cons_self
          rw [h.1, toNat_toUInt8 hd] at hb'
          omega
      | true =>
        obtain ⟨hspecial, hcontrol, hsmall, byte, hbyte, -⟩ := hasHighByte_spec hc
        rw [writer.escape_byte c byte hspecial hcontrol hbyte, List.cons_append,
          List.singleton_append, List.cons.injEq] at h
        obtain ⟨high, s', rfl, hlength, hhigh, hrest⟩ := ih hbytes h.2
        refine ⟨c :: high, s', rfl, ?_, List.forall_mem_cons.mpr ⟨hc, hhigh⟩, hrest⟩
        rw [utf16_cons, List.length_append, hlength, utf16Char, if_pos hsmall]
        simp [Nat.add_comm]

/-- What is read up to the ASCII byte behind a written key or value. -/
theorem exists_written_of_flatMap_escape (writer : PropertiesWriter) {s t : List Char} {b : UInt8}
    {tail : List UInt8} (hb : b.toNat < 128)
    (h : t.flatMap String.utf8EncodeChar = s.flatMap writer.escape ++ b :: tail) :
    ∃ (written : List Char) (u : List ℕ) (c : Char) (t' : List Char),
      t = written ++ c :: t' ∧ c.toNat = b.toNat ∧ t'.flatMap String.utf8EncodeChar = tail ∧
      Written written u ∧ Shortened s u := by
  induction hn : s.length using Nat.strong_induction_on generalizing s t with
  | _ n ih =>
    cases s with
    | nil =>
      obtain ⟨c, t', rfl, hc, ht'⟩ := exists_cons_of_flatMap_utf8EncodeChar hb h
      exact ⟨[], [], c, t', rfl, hc, ht', .nil, ⟨Nat.le_refl _, by simp, fun _ => rfl⟩⟩
    | cons c s =>
      cases hc : hasHighByte c with
      | false =>
        obtain ⟨chars, hescape, hascii, hwritten⟩ := exists_written_escape writer hc
        rw [List.flatMap_cons, hescape, List.append_assoc] at h
        obtain ⟨t₁, rfl, ht₁⟩ := exists_append_of_flatMap_utf8EncodeChar hascii h
        obtain ⟨written, u, d, t', rfl, hd, ht', hrest, hshort⟩ :=
          ih s.length (by simp [← hn]) ht₁ rfl
        exact ⟨chars ++ written, utf16Char c ++ u, d, t', by simp, hd, ht', hwritten.append hrest,
          hshort.cons hc⟩
      | true =>
        obtain ⟨hspecial, hcontrol, -, byte, hbyte, hhigh⟩ := hasHighByte_spec hc
        have hescape := writer.escape_byte c byte hspecial hcontrol hbyte
        cases t with
        | nil =>
          rw [List.flatMap_cons, hescape] at h
          simp at h
        | cons d t =>
          -- the first character of the text takes several bytes
          have hd : 128 ≤ d.toNat := by
            by_contra hlow
            have hlow : d.toNat < 128 := by omega
            rw [List.flatMap_cons, utf8EncodeChar_of_lt hlow, List.flatMap_cons, hescape,
              List.singleton_append, List.singleton_append, List.cons_append,
              List.cons.injEq] at h
            rw [← h.1, toNat_toUInt8 hlow] at hhigh
            omega
          rw [List.flatMap_cons] at h
          obtain ⟨high, s', hs, hlength, hall, hrest⟩ := exists_append_of_high_bytes writer
            (fun b' => le_of_mem_utf8EncodeChar hd) hb h
          have hlt := length_utf16Char_lt hd
          have hshorter : s'.length < n := by
            cases high with
            | nil =>
              rw [utf16_nil, List.length_nil] at hlength
              omega
            | cons _ high =>
              rw [← hn, hs]
              simp
          obtain ⟨written, u, e, t', rfl, he, ht', hwritten, hshort⟩ :=
            ih s'.length hshorter hrest rfl
          refine ⟨d :: written, utf16Char d ++ u, e, t', rfl, he, ht', ?_, ?_⟩
          · exact .cons (.plain d (isReserved_eq_false_of_le hd)) hwritten
          · rw [hs]
            have hlen : (utf16Char d ++ u).length < (utf16 (high ++ s')).length := by
              rw [utf16_append, List.length_append, List.length_append]
              have := hshort.length_le
              omega
            refine ⟨Nat.le_of_lt hlen, fun _ => hlen, fun hnone => ?_⟩
            have hfirst : c ∈ high ++ s' := hs ▸ List.mem_cons_self
            exact absurd ((hnone c hfirst).symm.trans hc) Bool.false_ne_true

/-- The file with the lines of the properties. -/
theorem writeJavaProperties_eq (writer : PropertiesWriter) (output : List UInt8)
    (properties : List (String × String)) :
    writeJavaProperties writer output properties =
      output ++ properties.flatMap fun p => writer.write p.1 p.2 := by
  induction properties generalizing output with
  | nil => exact (List.append_nil output).symm
  | cons p properties ih =>
    rw [writeJavaProperties, List.foldl_cons, ← writeJavaProperties, ih, List.flatMap_cons,
      List.append_assoc]

/-- The text of a file consists of written lines. -/
theorem exists_lines (writer : PropertiesWriter) {properties : List (String × String)}
    {t : List Char}
    (h : t.flatMap String.utf8EncodeChar =
      properties.flatMap fun p => writer.write p.1 p.2) :
    ∃ (lines : List (List Char × List Char)) (settings : List (List ℕ × List ℕ)),
      t = lines.flatMap (fun l => l.1 ++ '=' :: (l.2 ++ ['\n'])) ∧
      List.Forall₂ (fun l s => Written l.1 s.1 ∧ Written l.2 s.2) lines settings ∧
      List.Forall₂ (fun p s => Shortened p.1.toList s.1 ∧ Shortened p.2.toList s.2) properties
        settings := by
  induction properties generalizing t with
  | nil =>
    cases t with
    | nil => exact ⟨[], [], rfl, .nil, .nil⟩
    | cons c t =>
      have hpos := c.utf8Size_pos
      rw [← String.length_utf8EncodeChar] at hpos
      rw [List.flatMap_cons, List.flatMap_nil, List.append_eq_nil_iff] at h
      rw [h.1] at hpos
      exact absurd hpos (Nat.lt_irrefl 0)
  | cons p properties ih =>
    rw [List.flatMap_cons, PropertiesWriter.write, List.append_assoc, List.cons_append,
      List.append_assoc, List.singleton_append] at h
    obtain ⟨k, ku, c, t₁, rfl, hc, ht₁, hk, hshortk⟩ :=
      exists_written_of_flatMap_escape writer (by decide) h
    obtain ⟨v, vu, d, t₂, rfl, hd, ht₂, hv, hshortv⟩ :=
      exists_written_of_flatMap_escape writer (by decide) ht₁
    obtain rfl : c = '=' := Char.toNat_inj.mp hc
    obtain rfl : d = '\n' := Char.toNat_inj.mp hd
    obtain ⟨lines, settings, rfl, hlines, hshort⟩ := ih ht₂
    exact ⟨(k, v) :: lines, (ku, vu) :: settings, by simp, .cons ⟨hk, hv⟩ hlines,
      .cons ⟨hshortk, hshortv⟩ hshort⟩

/-- Without high bytes, a key or a value is written in ASCII. -/
theorem exists_flatMap_escape_eq (writer : PropertiesWriter) {s : List Char}
    (h : ∀ c ∈ s, hasHighByte c = false) :
    ∃ t : List Char, t.flatMap String.utf8EncodeChar = s.flatMap writer.escape := by
  induction s with
  | nil => exact ⟨[], rfl⟩
  | cons c s ih =>
    obtain ⟨hc, hs⟩ := List.forall_mem_cons.mp h
    obtain ⟨chars, hescape, hascii, -⟩ := exists_written_escape writer hc
    obtain ⟨t, ht⟩ := ih hs
    refine ⟨chars ++ t, ?_⟩
    rw [List.flatMap_append, flatMap_utf8EncodeChar_of_ascii hascii, ht, List.flatMap_cons, hescape]

/-- Without high bytes, a file is valid UTF-8. -/
theorem exists_text (writer : PropertiesWriter) {properties : List (String × String)}
    (h : ∀ p ∈ properties, ∀ c ∈ p.1.toList ++ p.2.toList, hasHighByte c = false) :
    ∃ t : List Char, t.flatMap String.utf8EncodeChar =
      properties.flatMap fun p => writer.write p.1 p.2 := by
  induction properties with
  | nil => exact ⟨[], rfl⟩
  | cons p properties ih =>
    obtain ⟨hp, hproperties⟩ := List.forall_mem_cons.mp h
    obtain ⟨hkey, hvalue⟩ := List.forall_mem_append.mp hp
    obtain ⟨k, hk⟩ := exists_flatMap_escape_eq writer hkey
    obtain ⟨v, hv⟩ := exists_flatMap_escape_eq writer hvalue
    obtain ⟨t, ht⟩ := ih hproperties
    refine ⟨k ++ '=' :: (v ++ '\n' :: t), ?_⟩
    have hequal : String.utf8EncodeChar '=' = ['='.toUInt8] := utf8EncodeChar_of_lt (by decide)
    have hnewline : String.utf8EncodeChar '\n' = ['\n'.toUInt8] :=
      utf8EncodeChar_of_lt (by decide)
    simp only [List.flatMap_append, List.flatMap_cons, hk, hv, ht, hequal, hnewline,
      PropertiesWriter.write, List.append_assoc, List.cons_append, List.nil_append]

end Escape

section Load

open JavaProperties

/-- The code units of a property. -/
def units (p : String × String) : List ℕ × List ℕ := (utf16 p.1.toList, utf16 p.2.toList)

/-- The text is loaded to the properties. -/
def Loads (text : String) (properties : List (String × String)) : Prop :=
  ∃ settings, load text.toList = some settings ∧
    ∀ k v, lastValue settings k = some v ↔ (k, v) ∈ properties.map units

/-- The number of code units of a setting. -/
def size (s : List ℕ × List ℕ) : ℕ := s.1.length + s.2.length

/-- With a high byte, fewer code units are read than were written. -/
theorem sum_size {properties : List (String × String)} {settings : List (List ℕ × List ℕ)}
    (h : List.Forall₂ (fun p s => Shortened p.1.toList s.1 ∧ Shortened p.2.toList s.2) properties
      settings) :
    (settings.map size).sum ≤ ((properties.map units).map size).sum ∧
      ((∃ p ∈ properties, ∃ c ∈ p.1.toList ++ p.2.toList, hasHighByte c = true) →
        (settings.map size).sum < ((properties.map units).map size).sum) := by
  induction h with
  | nil => simp
  | @cons p s properties settings hshort _ ih =>
    obtain ⟨hk, hv⟩ := hshort
    have hk' := hk.length_le
    have hv' := hv.length_le
    simp only [List.map_cons, List.sum_cons, size, units] at ih ⊢
    refine ⟨by omega, ?_⟩
    rintro ⟨q, hq, c, hc, hhigh⟩
    rcases List.mem_cons.mp hq with rfl | hq
    · rcases List.mem_append.mp hc with hc | hc
      · have := hk.length_lt ⟨c, hc, hhigh⟩
        omega
      · have := hv.length_lt ⟨c, hc, hhigh⟩
        omega
    · have := ih.2 ⟨q, hq, c, hc, hhigh⟩
      omega

theorem units_injective : Function.Injective units := by
  intro p q h
  obtain ⟨hk, hv⟩ := Prod.mk.inj h
  exact Prod.ext (String.toList_inj.mp (utf16_injective hk))
    (String.toList_inj.mp (utf16_injective hv))

/-- Without high bytes, the settings are the properties. -/
theorem settings_eq {properties : List (String × String)} {settings : List (List ℕ × List ℕ)}
    (h : List.Forall₂ (fun p s => Shortened p.1.toList s.1 ∧ Shortened p.2.toList s.2) properties
      settings)
    (hlow : ∀ p ∈ properties, ∀ c ∈ p.1.toList ++ p.2.toList, hasHighByte c = false) :
    settings = properties.map units := by
  induction h with
  | nil => rfl
  | @cons p s properties settings hshort _ ih =>
    obtain ⟨hp, hproperties⟩ := List.forall_mem_cons.mp hlow
    obtain ⟨hkey, hvalue⟩ := List.forall_mem_append.mp hp
    rw [ih hproperties, List.map_cons, units, ← hshort.1.eq hkey, ← hshort.2.eq hvalue]

/-- **A file is loaded to its properties iff no character outside of ASCII has a byte.** -/
theorem toJavaPropertiesString_iff (writer : PropertiesWriter)
    (properties : List (String × String)) (hkeys : (properties.map Prod.fst).Nodup) :
    (∃ text, toJavaPropertiesString writer properties = .ok text ∧ Loads text properties) ↔
      ∀ p ∈ properties, ∀ c ∈ p.1.toList ++ p.2.toList, hasHighByte c = false := by
  have hok (text : String) : toJavaPropertiesString writer properties = .ok text ↔
      text.toList.flatMap String.utf8EncodeChar =
        properties.flatMap fun p => writer.write p.1 p.2 := by
    rw [← fromUTF8?_eq_some_iff, toJavaPropertiesString, writeJavaProperties_eq, List.nil_append]
    cases String.fromUTF8? _ <;> simp
  constructor
  · rintro ⟨text, htext, settings, hload, hsettings⟩ p hp c hc
    obtain ⟨lines, settings', ht, hlines, hshort⟩ := exists_lines writer ((hok text).mp htext)
    rw [ht, load_of_written hlines] at hload
    obtain rfl := Option.some.inj hload
    -- all properties are among the settings, of which there are not more
    have hnodup : (properties.map units).Nodup := (List.Nodup.of_map _ hkeys).map units_injective
    have hsubset : properties.map units ⊆ settings' := fun s hs =>
      mem_of_lastValue_eq_some ((hsettings s.1 s.2).mpr hs)
    have hperm : (properties.map units).Perm settings' := by
      refine (List.subperm_of_subset hnodup hsubset).perm_of_length_le ?_
      rw [List.length_map, hshort.length_eq]
    by_contra hhigh
    have hlt := (sum_size hshort).2 ⟨p, hp, c, hc, (Bool.not_eq_false _).mp hhigh⟩
    rw [(hperm.map size).sum_eq] at hlt
    exact absurd hlt (Nat.lt_irrefl _)
  · intro hlow
    obtain ⟨t, ht⟩ := exists_text writer hlow
    have htext := (hok (String.ofList t)).mpr (by rwa [String.toList_ofList])
    obtain ⟨lines, settings, hlines, hwritten, hshort⟩ := exists_lines writer ht
    refine ⟨String.ofList t, htext, settings, ?_, fun k v => ?_⟩
    · rw [String.toList_ofList, hlines, load_of_written hwritten]
    · rw [settings_eq hshort hlow]
      refine lastValue_eq_some_iff_mem ?_
      rw [List.map_map, show Prod.fst ∘ units = (fun k : String => utf16 k.toList) ∘ Prod.fst from
        rfl, ← List.map_map]
      exact hkeys.map fun k k' h => String.toList_inj.mp (utf16_injective h)

/-- The hexadecimal digits that Java writes. -/
def hexDigits (u : ℕ) : List Char :=
  [Nat.digitChar (u / 0x1000), Nat.digitChar (u / 0x100 % 16), Nat.digitChar (u / 16 % 16),
    Nat.digitChar (u % 16)]

theorem hexValue_hexDigits {u : ℕ} (hu : u < 0x10000) : hexValue (hexDigits u) = some u := by
  have hdigit : ∀ d < 16, hexDigit (Nat.digitChar d) = some d := by decide
  simp only [hexValue, hexDigits, List.foldlM_cons, List.foldlM_nil, hdigit (u % 16) (by omega),
    hdigit (u / 16 % 16) (by omega), hdigit (u / 0x100 % 16) (by omega),
    hdigit (u / 0x1000) (by omega), Option.map_some, Option.bind_eq_bind, Option.bind_some,
    Option.pure_def, Option.some.injEq]
  omega

/-- The bytes of the code units of a character. -/
def escapeUnicode (c : Char) : List UInt8 :=
  ((utf16Char c).flatMap fun u => '\\' :: 'u' :: hexDigits u).map Char.toUInt8

/-- The bytes of a character, as `Properties.store` escapes it. -/
def storeEscape (c : Char) : List UInt8 :=
  if c ∈ specialCharacters then ['\\', c].map Char.toUInt8
  else
    match letterCharacters.lookup c with
    | some letter => ['\\', letter].map Char.toUInt8
    | none => if isControl c then escapeUnicode c else
      match windows1252 c with
      | some b => [b]
      | none => escapeUnicode c

/-- A writer that escapes like `Properties.store`. -/
def storeWriter : PropertiesWriter where
  escape := storeEscape
  hexDigits := hexDigits
  hexDigits_spec u hu := ⟨_, _, _, _, rfl, hexValue_hexDigits hu⟩
  escape_special c hc := if_pos hc
  escape_letter c letter hc := by
    simp only [letterCharacters, List.mem_cons, Prod.mk.injEq, List.not_mem_nil, or_false] at hc
    rcases hc with ⟨rfl, rfl⟩ | ⟨rfl, rfl⟩ | ⟨rfl, rfl⟩ | ⟨rfl, rfl⟩ <;> rfl
  escape_unicode c hc hunicode := by
    have hspecial : c ∉ specialCharacters := fun hmem => by
      have hlow := toNat_lt_of_mem_specialCharacters hmem
      have hcontrol : ∀ d ∈ specialCharacters, isControl d = false := by
        simp [specialCharacters, isControl]
      rcases hunicode with h | h
      · exact Bool.false_ne_true ((hcontrol c hmem).symm.trans h)
      · rw [windows1252, if_pos (.inl hlow)] at h
        cases h
    have hlookup : letterCharacters.lookup c = none := List.lookup_eq_none_iff.mpr fun e he => by
      simpa using fun heq => hc (List.mem_map.mpr ⟨e, he, heq.symm⟩)
    rw [storeEscape, if_neg hspecial, hlookup]
    rcases hunicode with h | h
    · exact if_pos h
    · rw [h]
      exact ite_self _
  escape_byte c b hc hcontrol hb := by
    have hletter : ∀ e ∈ letterCharacters, isControl e.1 = true := by
      simp [letterCharacters, isControl]
    have hlookup : letterCharacters.lookup c = none := List.lookup_eq_none_iff.mpr fun e he => by
      refine bne_iff_ne.mpr fun heq => ?_
      rw [heq, hletter e he] at hcontrol
      cases hcontrol
    rw [storeEscape, if_neg hc, hlookup]
    simp [hcontrol, hb]

/-- A web address and a snowman. -/
def snowmanProperties : List (String × String) := [("url", "s3a://bucket"), ("snowman", "☃")]

/-- They are read back. -/
theorem toJavaPropertiesString_snowman :
    ∃ text, toJavaPropertiesString storeWriter snowmanProperties = .ok text ∧
      Loads text snowmanProperties := by
  refine (toJavaPropertiesString_iff storeWriter snowmanProperties (by decide)).mpr ?_
  have hall : (snowmanProperties.all fun p =>
      (p.1.toList ++ p.2.toList).all fun c => !hasHighByte c) = true := by decide +kernel
  intro p hp c hc
  exact (Bool.not_eq_true' _).mp (List.all_eq_true.mp (List.all_eq_true.mp hall p hp) c hc)

/-- The byte of an umlaut is not UTF-8. -/
theorem toJavaPropertiesString_umlaut :
    ¬ ∀ (writer : PropertiesWriter) (properties : List (String × String)),
      (properties.map Prod.fst).Nodup →
        ∃ text, toJavaPropertiesString writer properties = .ok text ∧ Loads text properties := by
  intro h
  obtain ⟨text, htext, -⟩ := h storeWriter [("name", "ä")] (by decide)
  have herror : toJavaPropertiesString storeWriter [("name", "ä")] = .error .fromUtf8 := by
    decide +kernel
  cases htext.symm.trans herror

end Load

end V2

end StackableOperator
