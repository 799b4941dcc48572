import Mathlib
import StackableOperator.ForMathlib.CodeUnits

/-!
# Java properties files

`load` reads the settings of a text with the rules of `java.util.Properties`: `readLines` joins the
natural lines to logical lines, without comments and blank lines, `splitKey` cuts a logical line at
its separator, and `loadConvert` replaces the escape sequences. Keys and values are UTF-16 code
units, as in Java.

`Written` says how a text may be written, character by character. Lines with a written key and a
written value are loaded to their settings (`load_of_written`).
-/

namespace StackableOperator

namespace JavaProperties

/-- White space within a line. -/
def isBlank (c : Char) : Bool := c == ' ' || c == '\t' || c == '\x0c'

def isTerminator (c : Char) : Bool := c == '\n' || c == '\r'

/-- Where the line reader is. -/
inductive LineState : Type
  /-- Before the first character of a line. -/
  | start
  | comment
  /-- After the characters, in reverse order, the last of which may be a backslash that escapes. -/
  | line (chars : List Char) (escaped : Bool)
  /-- In the white space of a continuation line, which may begin with the rest of a line break. -/
  | continued (chars : List Char) (lineFeed : Bool)

/-- The logical lines. -/
def readLines : LineState → List Char → List (List Char)
  | .start, [] => []
  | .comment, [] => []
  | .line chars escaped, [] => [(if escaped then chars.tail else chars).reverse]
  | .continued chars _, [] => if chars.isEmpty then [] else [chars.reverse]
  | .start, c :: text =>
    if isBlank c || isTerminator c then readLines .start text
    else if c == '#' || c == '!' then readLines .comment text
    else readLines (.line [c] (c == '\\')) text
  | .comment, c :: text => readLines (if isTerminator c then .start else .comment) text
  | .line chars escaped, c :: text =>
    if isTerminator c then
      if escaped then readLines (.continued chars.tail (c == '\r')) text
      else chars.reverse :: readLines .start text
    else readLines (.line (c :: chars) (c == '\\' && !escaped)) text
  | .continued chars lineFeed, c :: text =>
    if isBlank c || (lineFeed && c == '\n') then readLines (.continued chars false) text
    else if isTerminator c then
      if chars.isEmpty then readLines .start text else chars.reverse :: readLines .start text
    else readLines (.line (c :: chars) (c == '\\')) text

/-- Cut a line before its first separator without a backslash. -/
def splitKey : List Char → List Char × List Char
  | [] => ([], [])
  | ['\\'] => (['\\'], [])
  | '\\' :: c :: rest => ('\\' :: c :: (splitKey rest).1, (splitKey rest).2)
  | c :: rest =>
    if isBlank c || c == '=' || c == ':' then ([], c :: rest)
    else (c :: (splitKey rest).1, (splitKey rest).2)

/-- What follows the separator: white space with at most one sign in it. -/
def skipSeparator (rest : List Char) : List Char :=
  match rest.dropWhile isBlank with
  | [] => []
  | c :: rest => if c == '=' || c == ':' then rest.dropWhile isBlank else c :: rest

/-- What a letter means behind a backslash. -/
def escapedLetter (c : Char) : Char :=
  if c = 't' then '\t' else if c = 'n' then '\n' else if c = 'r' then '\r'
  else if c = 'f' then '\x0c' else c

/-- Replace the escape sequences. A `\u` without four hexadecimal digits is an error. -/
def loadConvert : List Char → Option (List ℕ)
  | [] => some []
  | ['\\'] => some []
  | '\\' :: 'u' :: d₁ :: d₂ :: d₃ :: d₄ :: rest => do
    let unit ← hexValue [d₁, d₂, d₃, d₄]
    return unit :: (← loadConvert rest)
  | '\\' :: c :: rest =>
    if c = 'u' then none else (loadConvert rest).map (utf16Char (escapedLetter c) ++ ·)
  | c :: rest => (loadConvert rest).map (utf16Char c ++ ·)

/-- The setting of a logical line. -/
def loadLine (line : List Char) : Option (List ℕ × List ℕ) := do
  let key ← loadConvert (splitKey line).1
  let value ← loadConvert (skipSeparator (splitKey line).2)
  return (key, value)

/-- The settings of a text, in their order. -/
def load (text : List Char) : Option (List (List ℕ × List ℕ)) :=
  (readLines .start text).mapM loadLine

/-! ### Written texts -/

/-- Characters that stand for something else unless they are escaped. -/
def isReserved (c : Char) : Bool :=
  isBlank c || isTerminator c || c == '\\' || c == ':' || c == '=' || c == '#' || c == '!'

/-- How a few code units may be written. -/
inductive Chunk : List Char → List ℕ → Prop
  | plain (c : Char) (h : isReserved c = false) : Chunk [c] (utf16Char c)
  | letter (c : Char) (hu : c ≠ 'u') (h : isTerminator c = false) :
    Chunk ['\\', c] (utf16Char (escapedLetter c))
  | unit (d₁ d₂ d₃ d₄ : Char) {u : ℕ} (h : hexValue [d₁, d₂, d₃, d₄] = some u) :
    Chunk ['\\', 'u', d₁, d₂, d₃, d₄] [u]

/-- How a key or a value may be written. -/
inductive Written : List Char → List ℕ → Prop
  | nil : Written [] []
  | cons {chunk s : List Char} {u v : List ℕ} (hchunk : Chunk chunk u) (hs : Written s v) :
    Written (chunk ++ s) (u ++ v)

theorem Written.append {s t : List Char} {u v : List ℕ} (hs : Written s u) (ht : Written t v) :
    Written (s ++ t) (u ++ v) := by
  induction hs with
  | nil => exact ht
  | cons hchunk _ ih =>
    rw [List.append_assoc, List.append_assoc]
    exact .cons hchunk ih

theorem ne_of_isReserved_eq_false {c : Char} (h : isReserved c = false) :
    isBlank c = false ∧ isTerminator c = false ∧ c ≠ '\\' ∧ c ≠ ':' ∧ c ≠ '=' ∧ c ≠ '#' ∧
      c ≠ '!' := by
  simpa [isReserved, and_assoc] using h

/-- Reserved characters are in ASCII and no digits. -/
theorem of_isReserved {c : Char} (h : isReserved c = true) :
    c.toNat < 128 ∧ hexDigit c = none := by
  have hc : c = ' ' ∨ c = '\t' ∨ c = '\x0c' ∨ c = '\n' ∨ c = '\r' ∨ c = '\\' ∨ c = ':' ∨
      c = '=' ∨ c = '#' ∨ c = '!' := by
    simpa [isReserved, isBlank, isTerminator, or_assoc] using h
  rcases hc with rfl | rfl | rfl | rfl | rfl | rfl | rfl | rfl | rfl | rfl <;> decide

theorem isReserved_eq_false_of_le {c : Char} (h : 128 ≤ c.toNat) : isReserved c = false := by
  by_contra hreserved
  have := (of_isReserved ((Bool.not_eq_false _).mp hreserved)).1
  omega

theorem isReserved_eq_false_of_hexValue {digits : List Char} {u : ℕ}
    (h : hexValue digits = some u) : ∀ c ∈ digits, isReserved c = false := by
  intro c hc
  obtain ⟨d, hd⟩ := exists_hexDigit_of_hexValue h c hc
  by_contra hreserved
  rw [(of_isReserved ((Bool.not_eq_false _).mp hreserved)).2] at hd
  cases hd

theorem loadConvert_plain {c : Char} (h : c ≠ '\\') (rest : List Char) :
    loadConvert (c :: rest) = (loadConvert rest).map (utf16Char c ++ ·) :=
  loadConvert.eq_5 c rest (by simp [h]) (by simp [h]) (by simp [h])

theorem loadConvert_letter {c : Char} (h : c ≠ 'u') (rest : List Char) :
    loadConvert ('\\' :: c :: rest) =
      (loadConvert rest).map (utf16Char (escapedLetter c) ++ ·) := by
  rw [loadConvert.eq_4 c rest (by simp [h]), if_neg h]

theorem splitKey_plain {c : Char} (h : isReserved c = false) (rest : List Char) :
    splitKey (c :: rest) = (c :: (splitKey rest).1, (splitKey rest).2) := by
  obtain ⟨hblank, -, hbackslash, hcolon, hequal, -⟩ := ne_of_isReserved_eq_false h
  rw [splitKey.eq_4 c rest (by simp [hbackslash]) (by simp [hbackslash]), hblank, if_neg]
  simp [hcolon, hequal]

/-- **Written texts are read back.** -/
theorem loadConvert_of_written {s : List Char} {u : List ℕ} (h : Written s u) :
    loadConvert s = some u := by
  induction h with
  | nil => rfl
  | cons hchunk _ ih =>
    cases hchunk with
    | plain c hc =>
      obtain ⟨-, -, hbackslash, -⟩ := ne_of_isReserved_eq_false hc
      rw [List.singleton_append, loadConvert_plain hbackslash, ih, Option.map_some]
    | letter c hu _ =>
      rw [List.cons_append, List.singleton_append, loadConvert_letter hu, ih, Option.map_some]
    | unit d₁ d₂ d₃ d₄ hd =>
      simp only [List.cons_append, List.nil_append, loadConvert, hd, ih]
      rfl

/-- The key of a written line ends before the separator. -/
theorem splitKey_of_written {s : List Char} {u : List ℕ} (h : Written s u) (rest : List Char) :
    splitKey (s ++ '=' :: rest) = (s, '=' :: rest) := by
  induction h with
  | nil => rfl
  | cons hchunk _ ih =>
    cases hchunk with
    | plain c hc => simp only [List.cons_append, List.nil_append, splitKey_plain hc, ih]
    | letter c hu _ => simp only [List.cons_append, List.nil_append, splitKey, ih]
    | unit d₁ d₂ d₃ d₄ hd =>
      have hdigits := isReserved_eq_false_of_hexValue hd
      simp only [List.forall_mem_cons] at hdigits
      obtain ⟨h₁, h₂, h₃, h₄, -⟩ := hdigits
      simp only [List.cons_append, List.nil_append, splitKey, splitKey_plain h₁,
        splitKey_plain h₂, splitKey_plain h₃, splitKey_plain h₄, ih]

/-- A written text does not begin with white space. -/
theorem dropWhile_isBlank_of_written {s : List Char} {u : List ℕ} (h : Written s u) :
    s.dropWhile isBlank = s := by
  cases h with
  | nil => rfl
  | cons hchunk _ =>
    cases hchunk with
    | plain c hc =>
      obtain ⟨hblank, -⟩ := ne_of_isReserved_eq_false hc
      rw [List.singleton_append, List.dropWhile_cons_of_neg (by simp [hblank])]
    | letter c _ _ => rfl
    | unit d₁ d₂ d₃ d₄ _ => rfl

/-- A written line is loaded to its setting. -/
theorem loadLine_of_written {k v : List Char} {ku vu : List ℕ} (hk : Written k ku)
    (hv : Written v vu) : loadLine (k ++ '=' :: v) = some (ku, vu) := by
  have hskip : skipSeparator ('=' :: v) = v := by
    rw [skipSeparator, List.dropWhile_cons_of_neg (by decide)]
    exact dropWhile_isBlank_of_written hv
  rw [loadLine, splitKey_of_written hk]
  dsimp only
  rw [hskip, loadConvert_of_written hk, loadConvert_of_written hv]
  rfl

theorem readLines_plain {c : Char} (h : isReserved c = false) (chars text : List Char) :
    readLines (.line chars false) (c :: text) = readLines (.line (c :: chars) false) text := by
  obtain ⟨-, hterminator, hbackslash, -⟩ := ne_of_isReserved_eq_false h
  rw [readLines, if_neg (by simp [hterminator]), beq_false_of_ne hbackslash, Bool.false_and]

theorem readLines_escaped {c : Char} (h : isTerminator c = false) (chars text : List Char) :
    readLines (.line chars false) ('\\' :: c :: text) =
      readLines (.line (c :: '\\' :: chars) false) text := by
  rw [readLines, if_neg (by decide), readLines, if_neg (by simp [h]), beq_self_eq_true,
    Bool.not_false, Bool.and_self, Bool.not_true, Bool.and_false]

/-- Written texts stay on their line. -/
theorem readLines_of_written {s : List Char} {u : List ℕ} (h : Written s u)
    (chars text : List Char) :
    readLines (.line chars false) (s ++ text) =
      readLines (.line (s.reverse ++ chars) false) text := by
  induction h generalizing chars with
  | nil => rfl
  | cons hchunk _ ih =>
    rw [List.append_assoc, List.reverse_append, List.append_assoc]
    cases hchunk with
    | plain c hc =>
      rw [List.singleton_append, readLines_plain hc, ih, List.reverse_singleton,
        List.singleton_append]
    | letter c _ hc =>
      rw [List.cons_append, List.singleton_append, readLines_escaped hc, ih]
      rfl
    | unit d₁ d₂ d₃ d₄ hd =>
      have hdigits := isReserved_eq_false_of_hexValue hd
      simp only [List.forall_mem_cons] at hdigits
      obtain ⟨h₁, h₂, h₃, h₄, -⟩ := hdigits
      simp only [List.cons_append, List.nil_append]
      rw [readLines_escaped (by decide), readLines_plain h₁, readLines_plain h₂,
        readLines_plain h₃, readLines_plain h₄, ih]
      rfl

/-- A written line is the next line. -/
theorem readLines_start_of_written {k v : List Char} {ku vu : List ℕ} (hk : Written k ku)
    (hv : Written v vu) (text : List Char) :
    readLines .start (k ++ '=' :: (v ++ '\n' :: text)) =
      (k ++ '=' :: v) :: readLines .start text := by
  have hfirst : readLines .start (k ++ '=' :: (v ++ '\n' :: text)) =
      readLines (.line [] false) (k ++ '=' :: (v ++ '\n' :: text)) := by
    cases hk with
    | nil => rfl
    | cons hchunk _ =>
      cases hchunk with
      | plain c hc =>
        obtain ⟨hblank, hterminator, hbackslash, -, -, hhash, hmark⟩ := ne_of_isReserved_eq_false hc
        rw [List.singleton_append, List.cons_append, readLines_plain hc, readLines,
          if_neg (by simp [hblank, hterminator]), if_neg (by simp [hhash, hmark]),
          beq_false_of_ne hbackslash]
      | letter c _ _ => rfl
      | unit d₁ d₂ d₃ d₄ _ => rfl
  have hvalue : readLines (.line ('=' :: k.reverse) false) (v ++ '\n' :: text) =
      (k ++ '=' :: v) :: readLines .start text := by
    rw [readLines_of_written hv, readLines, if_pos (by decide), if_neg (by decide)]
    simp
  rw [hfirst, readLines_of_written hk, List.append_nil, ← hvalue]
  rfl

/-- **Written lines are loaded to their settings.** -/
theorem load_of_written {lines : List (List Char × List Char)}
    {settings : List (List ℕ × List ℕ)}
    (h : List.Forall₂ (fun l s => Written l.1 s.1 ∧ Written l.2 s.2) lines settings) :
    load (lines.flatMap fun l => l.1 ++ '=' :: (l.2 ++ ['\n'])) = some settings := by
  induction h with
  | nil => rfl
  | @cons l s lines settings hl _ ih =>
    obtain ⟨hk, hv⟩ := hl
    rw [load, List.flatMap_cons, List.append_assoc, List.cons_append, List.append_assoc,
      List.singleton_append, readLines_start_of_written hk hv, List.mapM_cons,
      loadLine_of_written hk hv]
    rw [load] at ih
    rw [ih]
    rfl

/-! ### Unbroken lines -/

/-- The text stays on a line, wherever it stands in it. -/
def Unbroken (s : List Char) : Prop :=
  ∀ chars text, readLines (.line chars false) (s ++ text) =
    readLines (.line (s.reverse ++ chars) false) text

theorem Unbroken.append {s t : List Char} (hs : Unbroken s) (ht : Unbroken t) :
    Unbroken (s ++ t) := by
  intro chars text
  rw [List.append_assoc, hs, ht, List.reverse_append, List.append_assoc]

theorem unbroken_escaped {c : Char} (h : isTerminator c = false) : Unbroken ['\\', c] :=
  fun chars text => readLines_escaped h chars text

/-- Characters that neither end a line nor begin an escape sequence. -/
def isPlain (c : Char) : Bool := !isTerminator c && c != '\\'

theorem isPlain_iff {c : Char} : isPlain c = true ↔ isTerminator c = false ∧ c ≠ '\\' := by
  simp [isPlain]

theorem isPlain_eq_false_iff {c : Char} :
    isPlain c = false ↔ c = '\n' ∨ c = '\r' ∨ c = '\\' := by
  rw [isPlain, Bool.and_eq_false_iff, Bool.not_eq_false', bne_eq_false_iff_eq, isTerminator,
    Bool.or_eq_true, beq_iff_eq, beq_iff_eq, or_assoc]

theorem unbroken_of_all {s : List Char} (h : s.all isPlain = true) : Unbroken s := by
  induction s with
  | nil => exact fun _ _ => rfl
  | cons c s ih =>
    intro chars text
    rw [List.all_cons, Bool.and_eq_true_iff] at h
    obtain ⟨hterminator, hbackslash⟩ := isPlain_iff.mp h.1
    rw [List.cons_append, readLines, if_neg (by simp [hterminator]), beq_false_of_ne hbackslash,
      Bool.false_and, ih h.2, List.reverse_cons, List.append_assoc, List.singleton_append]

/-- A value that is loaded as it is. -/
structure IsPlainValue (v : List Char) : Prop where
  plain : v.all isPlain = true
  head : v.head?.any isBlank = false

theorem IsPlainValue.loadConvert {v : List Char} (h : IsPlainValue v) :
    loadConvert v = some (utf16 v) := by
  obtain ⟨h, -⟩ := h
  induction v with
  | nil => rfl
  | cons c v ih =>
    rw [List.all_cons, Bool.and_eq_true_iff] at h
    rw [loadConvert_plain (isPlain_iff.mp h.1).2, ih h.2, Option.map_some, utf16_cons]

theorem IsPlainValue.skipSeparator {v : List Char} (h : IsPlainValue v) :
    skipSeparator ('=' :: v) = v := by
  rw [JavaProperties.skipSeparator, List.dropWhile_cons_of_neg (by decide)]
  cases v with
  | nil => rfl
  | cons c v =>
    have hc : isBlank c = false := h.head
    exact List.dropWhile_cons_of_neg (by simp [hc])

/-- The reader is in a line that has begun with an unbroken text. -/
theorem readLines_start_append {c : Char} {s : List Char} (hc : isReserved c = false)
    (hs : Unbroken (c :: s)) (text : List Char) :
    readLines .start (c :: s ++ text) = readLines (.line (c :: s).reverse false) text := by
  obtain ⟨hblank, hterminator, hbackslash, -, -, hhash, hmark⟩ := ne_of_isReserved_eq_false hc
  have hfirst : readLines .start (c :: s ++ text) =
      readLines (.line [] false) (c :: s ++ text) := by
    rw [List.cons_append, readLines_plain hc, readLines, if_neg (by simp [hblank, hterminator]),
      if_neg (by simp [hhash, hmark]), beq_false_of_ne hbackslash]
  rw [hfirst, hs, List.append_nil]

/-- An unbroken text is the next line. -/
theorem readLines_start_unbroken {c : Char} {s : List Char} (hc : isReserved c = false)
    (hs : Unbroken (c :: s)) (text : List Char) :
    readLines .start (c :: s ++ '\n' :: text) = (c :: s) :: readLines .start text := by
  rw [readLines_start_append hc hs, readLines, if_pos (by decide), if_neg (by decide),
    List.reverse_reverse]

/-- A line with such a value is the next line. -/
theorem readLines_start_of_unbroken {c : Char} {k v : List Char} (hc : isReserved c = false)
    (hk : Unbroken (c :: k)) (hv : IsPlainValue v) (text : List Char) :
    readLines .start (c :: k ++ '=' :: (v ++ '\n' :: text)) =
      (c :: k ++ '=' :: v) :: readLines .start text := by
  have hequal : Unbroken ['='] := unbroken_of_all (by decide)
  have hline :=
    readLines_start_unbroken hc ((hk.append hequal).append (unbroken_of_all hv.plain)) text
  simpa using hline

end JavaProperties

end StackableOperator
