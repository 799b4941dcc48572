import Mathlib
import StackableOperator.ForMathlib.CodeUnits
import StackableOperator.RustStd.EscapeDefault

/-!
# Python string literals

`pythonString` evaluates a string literal in double quotes to its code points. A literal is read
character by character; `LiteralState` is the escape sequence that is read at the moment.
Characters that are escaped in Rust's way are mostly read back (`run_escapeDefaultChar`), those that
are escaped by their number are not (`run_escapeDefaultChar_eq_none`).
-/

namespace StackableOperator

namespace Python

/-- Where a reader is in a string literal. -/
inductive LiteralState : Type
  | plain
  /-- After a backslash. -/
  | escape
  /-- In an octal number, with the digits that may still follow. -/
  | octal (more value : ℕ)
  /-- In a hexadecimal number, with the digits that must still follow. -/
  | hex (more value : ℕ)
  /-- After the backslash and the letter of a character name. -/
  | nameStart
  | name (letters : List Char)
  | closed

/-- The code points of the escape sequences of one letter. -/
def simpleEscapes : List (Char × ℕ) :=
  [('\\', 0x5c), ('\'', 0x27), ('"', 0x22), ('a', 0x07), ('b', 0x08), ('f', 0x0c), ('n', 0x0a),
    ('r', 0x0d), ('t', 0x09), ('v', 0x0b)]

/-- The numbers of hexadecimal digits behind their letters. -/
def hexEscapes : List (Char × ℕ) := [('x', 2), ('u', 4), ('U', 8)]

def octalDigit (c : Char) : Option ℕ :=
  if '0'.toNat ≤ c.toNat ∧ c.toNat ≤ '7'.toNat then some (c.toNat - '0'.toNat) else none

/-- Outside of escape sequences. A line break or a null character ends the line, and the literal is
not closed. -/
def plainStep (c : Char) : Option (List ℕ × LiteralState) :=
  if c = '"' then some ([], .closed)
  else if c = '\\' then some ([], .escape)
  else if c = '\n' ∨ c = '\r' ∨ c.toNat = 0 then none
  else some ([c.toNat], .plain)

/-- After a backslash. A backslash that begins no escape sequence is kept. -/
def escapeStep (c : Char) : Option (List ℕ × LiteralState) :=
  if c = '\n' then some ([], .plain)
  else
    match simpleEscapes.lookup c with
    | some n => some ([n], .plain)
    | none =>
      match hexEscapes.lookup c with
      | some digits => some ([], .hex digits 0)
      | none =>
        match octalDigit c with
        | some n => some ([], .octal 2 n)
        | none =>
          if c = 'N' then some ([], .nameStart)
          else if c = '\r' ∨ c.toNat = 0 then none
          else some (['\\'.toNat, c.toNat], .plain)

/-- Read one character, with the characters that have a name. -/
def step (named : List Char → Option ℕ) :
    LiteralState → Char → Option (List ℕ × LiteralState)
  | .plain, c => plainStep c
  | .escape, c => escapeStep c
  | .octal more value, c =>
    match more, octalDigit c with
    | more + 1, some n => some ([], .octal more (8 * value + n))
    | _, _ => (plainStep c).map fun (read, state) => (value :: read, state)
  | .hex more value, c => do
    let n ← hexDigit c
    let value := 16 * value + n
    if 1 < more then some ([], .hex (more - 1) value)
    else if value ≤ 0x10ffff then some ([value], .plain)
    else none
  | .nameStart, c => if c = '{' then some ([], .name []) else none
  | .name letters, c =>
    if c = '}' then (named letters).map fun n => ([n], .plain)
    else some ([], .name (letters ++ [c]))
  | .closed, _ => none

/-- Read characters up to the closing quote, which must be the last one. -/
def run (named : List Char → Option ℕ) : LiteralState → List Char → Option (List ℕ)
  | .closed, [] => some []
  | _, [] => none
  | state, c :: cs => do
    let (read, state) ← step named state c
    let rest ← run named state cs
    return read ++ rest

end Python

/-- The value of a Python string literal in double quotes. -/
def pythonString (named : List Char → Option ℕ) : List Char → Option (List ℕ)
  | '"' :: cs => Python.run named .plain cs
  | _ => none

namespace Python

variable {named : List Char → Option ℕ}

theorem run_cons {state next : LiteralState} {c : Char} {read : List ℕ} {cs : List Char}
    (h : step named state c = some (read, next)) :
    run named state (c :: cs) = (run named next cs).map (read ++ ·) := by
  rw [run, h, Option.map_eq_bind]
  rfl

theorem run_cons_eq_none {state : LiteralState} {c : Char} {cs : List Char}
    (h : step named state c = none) : run named state (c :: cs) = none := by
  rw [run, h]
  rfl

theorem run_escape {c : Char} {cs : List Char} {n : ℕ} (hc : c ≠ '\n')
    (h : simpleEscapes.lookup c = some n) :
    run named .plain ('\\' :: c :: cs) = (run named .plain cs).map (n :: ·) := by
  have hstep : step named .escape c = some ([n], .plain) := by
    rw [step, escapeStep, if_neg hc, h]
  have hplain : step named .plain '\\' = some ([], .escape) := rfl
  rw [run_cons hplain, run_cons hstep, Option.map_map]
  rfl

/-- The characters that Rust's escapes and Python's escapes have in common. -/
def isCommon (c : Char) : Bool := isPrintable c || c ∈ ['\t', '\r', '\n']

/-- **Common characters are read back.** -/
theorem run_escapeDefaultChar {c : Char} (h : isCommon c = true) (cs : List Char) :
    run named .plain (escapeDefaultChar c ++ cs) = (run named .plain cs).map (c.toNat :: ·) := by
  have hescaped := escapedAs_escapeDefaultChar c
  generalize escapeDefaultChar c = w at hescaped ⊢
  cases hescaped with
  | same hprintable hne =>
    obtain ⟨-, hquote, hbackslash⟩ := hne
    have hrange : 0x20 ≤ c.toNat ∧ c.toNat ≤ 0x7e := by simpa [isPrintable] using hprintable
    have hbreak : ¬(c = '\n' ∨ c = '\r' ∨ c.toNat = 0) := by
      rintro (rfl | rfl | hzero)
      · exact absurd hrange (by decide)
      · exact absurd hrange (by decide)
      · omega
    have hstep : step named .plain c = some ([c.toNat], .plain) := by
      rw [step, plainStep, if_neg hquote, if_neg hbackslash, if_neg hbreak]
    exact run_cons hstep
  | quoted hquoted =>
    obtain rfl | rfl | rfl := hquoted
    · exact run_escape (by decide) rfl
    · exact run_escape (by decide) rfl
    · exact run_escape (by decide) rfl
  | blank letter hletter =>
    simp only [List.mem_cons, Prod.mk.injEq, List.not_mem_nil, or_false] at hletter
    obtain ⟨rfl, rfl⟩ | ⟨rfl, rfl⟩ | ⟨rfl, rfl⟩ := hletter
    · exact run_escape (by decide) rfl
    · exact run_escape (by decide) rfl
    · exact run_escape (by decide) rfl
  | number hprintable hne =>
    obtain ⟨ht, hr, hn⟩ := hne
    exact absurd h (by simp [isCommon, hprintable, ht, hr, hn])

/-- **Characters that are escaped by their number are not read at all.** Python expects four digits
after `\u`, and no brace. -/
theorem run_escapeDefaultChar_eq_none {c : Char} (h : isCommon c = false) (cs : List Char) :
    run named .plain (escapeDefaultChar c ++ cs) = none := by
  simp only [isCommon, Bool.or_eq_false_iff, decide_eq_false_iff_not, List.mem_cons,
    List.not_mem_nil, or_false, not_or] at h
  obtain ⟨hprintable, ht, hr, hn⟩ := h
  have hescaped := escapedAs_escapeDefaultChar c
  generalize escapeDefaultChar c = w at hescaped ⊢
  cases hescaped with
  | same hsame => exact absurd hsame (by simp [hprintable])
  | quoted hquoted => obtain rfl | rfl | rfl := hquoted <;> exact absurd hprintable (by decide)
  | blank letter hletter => simp [ht, hr, hn] at hletter
  | number =>
    have hplain : step named .plain '\\' = some ([], .escape) := rfl
    have hletter : step named .escape 'u' = some ([], .hex 4 0) := rfl
    have hbrace : step named (.hex 4 0) '{' = none := rfl
    rw [List.cons_append, run_cons hplain, List.cons_append, run_cons hletter, List.cons_append,
      run_cons_eq_none hbrace, Option.map_none, Option.map_none]

/-- **A text that is escaped in Rust's way is a Python literal iff its characters are common.** -/
theorem pythonString_escapeDefault_iff {s : List Char} :
    pythonString named ('"' :: (escapeDefault s ++ ['"'])) = some (s.map Char.toNat) ↔
      ∀ c ∈ s, isCommon c = true := by
  have hrun : run named .plain (escapeDefault s ++ ['"']) =
      if ∀ c ∈ s, isCommon c = true then some (s.map Char.toNat) else none := by
    induction s with
    | nil =>
      have hclosed : step named .plain '"' = some ([], .closed) := rfl
      rw [if_pos (by simp)]
      exact run_cons hclosed
    | cons c s ih =>
      rw [escapeDefault_cons, List.append_assoc]
      by_cases hc : isCommon c = true
      · rw [run_escapeDefaultChar hc, ih]
        simp only [List.forall_mem_cons, hc, true_and]
        split_ifs <;> rfl
      · rw [run_escapeDefaultChar_eq_none (by simpa using hc), if_neg]
        exact fun hall => hc (List.forall_mem_cons.mp hall).1
  rw [pythonString, hrun]
  split_ifs with hall
  · exact iff_of_true rfl hall
  · exact iff_of_false (by simp) hall

end Python

end StackableOperator
