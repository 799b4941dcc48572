import Mathlib

/-!
# Code units of Unicode texts

`utf16` are the code units of a text in UTF-16, which determine it (`utf16_injective`). The bytes of
a text in UTF-8 are below 128 for ASCII characters and only for them
(`utf8EncodeChar_of_lt`, `le_of_mem_utf8EncodeChar`), so that a text is cut where an ASCII byte
stands (`exists_cons_of_flatMap_utf8EncodeChar`).
-/

namespace StackableOperator

def hexDigit (c : Char) : Option ℕ :=
  if '0'.toNat ≤ c.toNat ∧ c.toNat ≤ '9'.toNat then some (c.toNat - '0'.toNat)
  else if 'a'.toNat ≤ c.toNat ∧ c.toNat ≤ 'f'.toNat then some (c.toNat - 'a'.toNat + 10)
  else if 'A'.toNat ≤ c.toNat ∧ c.toNat ≤ 'F'.toNat then some (c.toNat - 'A'.toNat + 10)
  else none

/-- A hexadecimal digit, in upper or lower case. -/
def isHexDigit (c : Char) : Bool :=
  c.isDigit || ('a' ≤ c && c ≤ 'f') || ('A' ≤ c && c ≤ 'F')

/-- The number that hexadecimal digits write. -/
def hexValue (digits : List Char) : Option ℕ :=
  digits.foldlM (fun n c => (hexDigit c).map fun d => 16 * n + d) 0

theorem exists_hexDigit_of_hexValue {digits : List Char} {n : ℕ} (h : hexValue digits = some n) :
    ∀ c ∈ digits, ∃ d, hexDigit c = some d := by
  unfold hexValue at h
  generalize 0 = start at h
  induction digits generalizing start with
  | nil => simp
  | cons c digits ih =>
    rw [List.foldlM_cons, Option.bind_eq_bind, Option.bind_eq_some_iff] at h
    obtain ⟨next, hc, hrest⟩ := h
    obtain ⟨d, hd, -⟩ := Option.map_eq_some_iff.mp hc
    exact List.forall_mem_cons.mpr ⟨⟨d, hd⟩, ih next hrest⟩

theorem toNat_lt_of_hexDigit {c : Char} {d : ℕ} (h : hexDigit c = some d) : c.toNat < 128 := by
  have h9 : '9'.toNat = 57 := rfl
  have hf : 'f'.toNat = 102 := rfl
  have hF : 'F'.toNat = 70 := rfl
  unfold hexDigit at h
  split_ifs at h <;> omega

/-! ### UTF-16 -/

/-- The UTF-16 code units of a character. -/
def utf16Char (c : Char) : List ℕ :=
  if c.toNat < 0x10000 then [c.toNat]
  else [0xd800 + (c.toNat - 0x10000) / 0x400, 0xdc00 + (c.toNat - 0x10000) % 0x400]

/-- The UTF-16 code units of a text. -/
def utf16 (s : List Char) : List ℕ := s.flatMap utf16Char

@[simp] theorem utf16_nil : utf16 [] = [] := rfl

theorem utf16_cons (c : Char) (s : List Char) : utf16 (c :: s) = utf16Char c ++ utf16 s := rfl

theorem utf16_append (s t : List Char) : utf16 (s ++ t) = utf16 s ++ utf16 t :=
  List.flatMap_append

/-- No character is a surrogate. -/
theorem toNat_lt_or_lt (c : Char) : c.toNat < 0xd800 ∨ (0xdfff < c.toNat ∧ c.toNat < 0x110000) :=
  c.valid

/-- The code units of a character are determined by a text that begins with it. -/
theorem utf16Char_append_inj {c d : Char} {u v : List ℕ}
    (h : utf16Char c ++ u = utf16Char d ++ v) : c = d ∧ u = v := by
  have hc := toNat_lt_or_lt c
  have hd := toNat_lt_or_lt d
  have key : c.toNat = d.toNat ∧ u = v := by
    unfold utf16Char at h
    split_ifs at h <;> simp only [List.cons_append, List.nil_append, List.cons.injEq] at h <;>
      grind
  exact ⟨Char.toNat_inj.mp key.1, key.2⟩

theorem lt_of_mem_utf16Char {c : Char} {u : ℕ} (h : u ∈ utf16Char c) : u < 0x10000 := by
  have hc := toNat_lt_or_lt c
  unfold utf16Char at h
  split_ifs at h <;> simp only [List.mem_cons, List.not_mem_nil, or_false] at h <;> omega

theorem utf16Char_ne_nil (c : Char) : utf16Char c ≠ [] := by
  unfold utf16Char
  split <;> simp

/-- **A text is determined by its code units.** -/
theorem utf16_injective : Function.Injective utf16 := by
  intro s
  induction s with
  | nil =>
    intro t h
    cases t with
    | nil => rfl
    | cons d t => simp [utf16_cons, utf16Char_ne_nil] at h
  | cons c s ih =>
    intro t h
    cases t with
    | nil => simp [utf16_cons, utf16Char_ne_nil] at h
    | cons d t =>
      obtain ⟨rfl, htail⟩ := utf16Char_append_inj h
      rw [ih htail]

/-! ### UTF-8 -/

theorem toNat_toUInt8 {c : Char} (h : c.toNat < 128) : c.toUInt8.toNat = c.toNat := by
  have hval : c.val.toNat < 2 ^ 8 := Nat.lt_trans h (by decide)
  exact (UInt32.toNat_toUInt8 c.val).trans (Nat.mod_eq_of_lt hval)

theorem utf8EncodeChar_of_lt {c : Char} (h : c.toNat < 128) :
    String.utf8EncodeChar c = [c.toUInt8] := by
  have hsize : c.utf8Size = 1 := by
    rw [Char.utf8Size_eq_one_iff, UInt32.le_iff_toNat_le]
    exact Nat.le_of_lt_succ h
  exact String.utf8EncodeChar_eq_singleton hsize

theorem flatMap_utf8EncodeChar_of_ascii {s : List Char} (h : ∀ c ∈ s, c.toNat < 128) :
    s.flatMap String.utf8EncodeChar = s.map Char.toUInt8 := by
  induction s with
  | nil => rfl
  | cons c s ih =>
    obtain ⟨hc, hs⟩ := List.forall_mem_cons.mp h
    rw [List.flatMap_cons, utf8EncodeChar_of_lt hc, ih hs, List.map_cons, List.singleton_append]

theorem fromUTF8?_eq_some_iff {bytes : List UInt8} {s : String} :
    String.fromUTF8? bytes.toByteArray = some s ↔
      s.toList.flatMap String.utf8EncodeChar = bytes := by
  have hbytes : (s.toList.flatMap String.utf8EncodeChar).toByteArray = s.toByteArray :=
    String.utf8Encode_toList
  rw [← List.toByteArray_inj, hbytes, String.fromUTF8?]
  constructor
  · intro h
    split_ifs at h with hvalid
    rw [← Option.some.inj h]
    rfl
  · intro h
    have hvalid : bytes.toByteArray.IsValidUTF8 := h ▸ s.isValidUTF8
    rw [dif_pos hvalid, Option.some.injEq, ← String.toByteArray_inj, h]
    rfl

/-- The bytes of a character that is not in ASCII are not in ASCII. -/
theorem le_of_mem_utf8EncodeChar {c : Char} (h : 128 ≤ c.toNat) {b : UInt8}
    (hb : b ∈ String.utf8EncodeChar c) : 128 ≤ b.toNat := by
  have hval : 128 ≤ c.val.toNat := h
  dsimp only [String.utf8EncodeChar] at hb
  split_ifs at hb with h1 h2 h3 <;>
    simp only [List.mem_cons, List.not_mem_nil, or_false] at hb
  · omega
  · rcases hb with rfl | rfl <;> simp <;> omega
  · rcases hb with rfl | rfl | rfl <;> simp <;> omega
  · rcases hb with rfl | rfl | rfl | rfl <;> simp <;> omega

/-- A character that is not in ASCII has more bytes than code units. -/
theorem length_utf16Char_lt {c : Char} (h : 128 ≤ c.toNat) :
    (utf16Char c).length < (String.utf8EncodeChar c).length := by
  have hval : c.val.toNat = c.toNat := rfl
  unfold utf16Char
  dsimp only [String.utf8EncodeChar]
  split_ifs <;> simp only [List.length_cons, List.length_nil] <;> omega

/-- A text that begins with an ASCII byte begins with its character. -/
theorem exists_cons_of_flatMap_utf8EncodeChar {t : List Char} {b : UInt8} {rest : List UInt8}
    (hb : b.toNat < 128) (h : t.flatMap String.utf8EncodeChar = b :: rest) :
    ∃ c t', t = c :: t' ∧ c.toNat = b.toNat ∧ t'.flatMap String.utf8EncodeChar = rest := by
  cases t with
  | nil => simp at h
  | cons c t' =>
    rw [List.flatMap_cons] at h
    rcases Nat.lt_or_ge c.toNat 128 with hc | hc
    · rw [utf8EncodeChar_of_lt hc, List.singleton_append, List.cons.injEq] at h
      obtain ⟨rfl, hrest⟩ := h
      refine ⟨c, t', rfl, ?_, hrest⟩
      rw [toNat_toUInt8 hc]
    · cases hbytes : String.utf8EncodeChar c with
      | nil =>
        have := length_utf16Char_lt hc
        simp [hbytes] at this
      | cons b' bytes =>
        rw [hbytes, List.cons_append, List.cons.injEq] at h
        have hb' : 128 ≤ b'.toNat :=
          le_of_mem_utf8EncodeChar hc (by rw [hbytes]; exact List.mem_cons_self)
        rw [h.1] at hb'
        omega

/-- A text that begins with ASCII bytes begins with their characters. -/
theorem exists_append_of_flatMap_utf8EncodeChar {chars t : List Char} {rest : List UInt8}
    (hascii : ∀ c ∈ chars, c.toNat < 128)
    (h : t.flatMap String.utf8EncodeChar = chars.map Char.toUInt8 ++ rest) :
    ∃ t', t = chars ++ t' ∧ t'.flatMap String.utf8EncodeChar = rest := by
  induction chars generalizing t with
  | nil => exact ⟨t, rfl, h⟩
  | cons c chars ih =>
    have hc := hascii c List.mem_cons_self
    have hval := toNat_toUInt8 hc
    obtain ⟨d, t₁, rfl, hd, ht₁⟩ :=
      exists_cons_of_flatMap_utf8EncodeChar (by rwa [hval]) h
    obtain rfl : d = c := Char.toNat_inj.mp (hd.trans hval)
    obtain ⟨t', rfl, hrest⟩ := ih (fun e he => hascii e (List.mem_cons_of_mem _ he)) ht₁
    exact ⟨t', rfl, hrest⟩

end StackableOperator
