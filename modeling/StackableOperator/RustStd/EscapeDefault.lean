import Mathlib

/-!
# Default escapes

`str::escape_default`: printable ASCII characters stay as they are, except for quotes and the
backslash, which get a backslash in front. All other characters become `\t`, `\r`, `\n`, or their
number in braces after `\u`.
-/

namespace StackableOperator

/-- The characters from the space to the tilde. -/
def isPrintable (c : Char) : Bool := 0x20 ≤ c.toNat && c.toNat ≤ 0x7e

/-- `char::escape_default` -/
def escapeDefaultChar (c : Char) : List Char :=
  if c = '\t' then ['\\', 't']
  else if c = '\r' then ['\\', 'r']
  else if c = '\n' then ['\\', 'n']
  else if c = '\'' ∨ c = '"' ∨ c = '\\' then ['\\', c]
  else if isPrintable c then [c]
  else ['\\', 'u', '{'] ++ Nat.toDigits 16 c.toNat ++ ['}']

/-- `str::escape_default` -/
def escapeDefault (s : List Char) : List Char := s.flatMap escapeDefaultChar

/-- How a character is escaped. -/
inductive EscapedAs (c : Char) : List Char → Prop
  /-- A printable character that stays as it is. -/
  | same (hprintable : isPrintable c = true) (hne : c ≠ '\'' ∧ c ≠ '"' ∧ c ≠ '\\') :
    EscapedAs c [c]
  | quoted (h : c = '\'' ∨ c = '"' ∨ c = '\\') : EscapedAs c ['\\', c]
  /-- A tab, a carriage return or a line feed. -/
  | blank (letter : Char) (h : (c, letter) ∈ [('\t', 't'), ('\r', 'r'), ('\n', 'n')]) :
    EscapedAs c ['\\', letter]
  | number (hprintable : isPrintable c = false) (hne : c ≠ '\t' ∧ c ≠ '\r' ∧ c ≠ '\n') :
    EscapedAs c ('\\' :: 'u' :: '{' :: (Nat.toDigits 16 c.toNat ++ ['}']))

theorem escapedAs_escapeDefaultChar (c : Char) : EscapedAs c (escapeDefaultChar c) := by
  unfold escapeDefaultChar
  split_ifs with ht hr hn hquoted hprintable
  · exact .blank 't' (by simp [ht])
  · exact .blank 'r' (by simp [hr])
  · exact .blank 'n' (by simp [hn])
  · exact .quoted hquoted
  · exact .same hprintable (by simpa using hquoted)
  · exact .number (by simpa using hprintable) ⟨ht, hr, hn⟩

theorem escapeDefault_cons (c : Char) (s : List Char) :
    escapeDefault (c :: s) = escapeDefaultChar c ++ escapeDefault s := rfl

end StackableOperator
