import Mathlib
import StackableOperator.ForMathlib.Checked
import StackableOperator.Validation

/-!
# Keys of labels and annotations

A key consists of a name and an optional DNS subdomain in front of it. `Key.fromStr` splits and
checks a string; keys are ordered like the strings that they display as.
-/

namespace StackableOperator

namespace Kvp

def keyPrefixMaxLen : ℕ := 253

def keyNameMaxLen : ℕ := 63

def isAscii (s : String) : Bool := s.toList.all fun c => c.toNat < 128

/-- The character class `[a-z0-9A-Z-_.]`. -/
def isNameChar (c : Char) : Bool := c.isAlphanum || c == '-' || c == '_' || c == '.'

/-- The regular expression `^[a-z0-9A-Z]([a-z0-9A-Z-_.]*[a-z0-9A-Z]+)?$`. -/
def matchesName : List Char → Bool := isSegment Char.isAlphanum isNameChar Char.isAlphanum

/-- The regular expression `^[a-zA-Z](\.?[a-zA-Z0-9-])*\.[a-zA-Z]{2,}\.?$`: at least two nonempty
segments between single dots, the first starting with a letter and the last one consisting of at
least two letters. One more dot may follow. -/
def matchesKeyPrefix (cs : List Char) : Bool :=
  let segments := cs.splitOn '.'
  let segments := if segments.getLast? = some [] then segments.dropLast else segments
  2 ≤ segments.length && cs.head?.any Char.isAlpha &&
    segments.all (fun segment =>
      !segment.isEmpty && segment.all fun c => c.isAlphanum || c == '-') &&
    segments.getLast?.any (fun segment => 2 ≤ segment.length && segment.all Char.isAlpha)

inductive KeyPrefixError : Type
  | prefixEmpty
  | prefixTooLong (length : ℕ)
  | prefixNotAscii
  | prefixInvalid
  deriving DecidableEq

inductive KeyNameError : Type
  | nameEmpty
  | nameTooLong (length : ℕ)
  | nameNotAscii
  | nameInvalid
  deriving DecidableEq

inductive KeyError : Type
  | emptyInput
  | nestedPrefix
  | keyPrefixError (source : KeyPrefixError)
  | keyNameError (source : KeyNameError)
  deriving DecidableEq

/-- The checks of the part in front of the name, in their order. -/
def KeyPrefix.check (input : String) : Except KeyPrefixError Unit :=
  if input.isEmpty then .error .prefixEmpty
  else if input.utf8ByteSize > keyPrefixMaxLen then .error (.prefixTooLong input.utf8ByteSize)
  else if !isAscii input then .error .prefixNotAscii
  else if !matchesKeyPrefix input.toList then .error .prefixInvalid
  else .ok ()

/-- The checks of the name, in their order. -/
def KeyName.check (input : String) : Except KeyNameError Unit :=
  if input.isEmpty then .error .nameEmpty
  else if input.utf8ByteSize > keyNameMaxLen then .error (.nameTooLong input.utf8ByteSize)
  else if !isAscii input then .error .nameNotAscii
  else if !matchesName input.toList then .error .nameInvalid
  else .ok ()

/-- The validated part in front of the name. -/
abbrev KeyPrefix : Type := { s : String // KeyPrefix.check s = .ok () }

/-- The validated name. -/
abbrev KeyName : Type := { s : String // KeyName.check s = .ok () }

def KeyPrefix.fromStr (input : String) : Except KeyPrefixError KeyPrefix :=
  checked KeyPrefix.check input

def KeyName.fromStr (input : String) : Except KeyNameError KeyName :=
  checked KeyName.check input

/-- A validated key. -/
structure Key where
  /-- The key as it is displayed. -/
  string : String
  keyPrefix : Option KeyPrefix
  name : KeyName
  deriving DecidableEq

/-- The fields of a key, in the order in which keys are compared. -/
def Key.fields (key : Key) : Lex (String × Lex (WithBot String × String)) :=
  toLex (key.string, toLex (key.keyPrefix.map Subtype.val, key.name.1))

theorem Key.fields_injective : Function.Injective Key.fields := by
  rintro ⟨s, p, n⟩ ⟨s', p', n'⟩ h
  obtain ⟨hs, h⟩ := Prod.mk.inj (toLex.injective h)
  obtain ⟨hp, hn⟩ := Prod.mk.inj (toLex.injective h)
  have hs : s = s' := hs
  have hp : p = p' := Option.map_injective Subtype.val_injective hp
  have hn : n = n' := Subtype.ext hn
  rw [hs, hp, hn]

/-- Keys are compared field by field. -/
instance : LinearOrder Key := LinearOrder.lift' Key.fields Key.fields_injective

/-- The Unicode property `White_Space`. -/
def isWhitespace (c : Char) : Bool :=
  let n := c.toNat
  (9 ≤ n && n ≤ 13) || n == 0x20 || n == 0x85 || n == 0xa0 || n == 0x1680 ||
    (0x2000 ≤ n && n ≤ 0x200a) || n == 0x2028 || n == 0x2029 || n == 0x202f || n == 0x205f ||
    n == 0x3000

/-- Remove whitespace at both ends. -/
def trim (cs : List Char) : List Char :=
  ((cs.dropWhile isWhitespace).reverse.dropWhile isWhitespace).reverse

def Key.fromStr (input : String) : Except KeyError Key :=
  let input := trim input.toList
  if input.isEmpty then .error .emptyInput
  else
    match (input.splitOn '/').map String.ofList with
    | [name] =>
      match KeyName.fromStr name with
      | .ok name => .ok ⟨name.1, none, name⟩
      | .error e => .error (.keyNameError e)
    | [keyPrefix, name] =>
      match KeyPrefix.fromStr keyPrefix with
      | .error e => .error (.keyPrefixError e)
      | .ok keyPrefix =>
        match KeyName.fromStr name with
        | .ok name => .ok ⟨keyPrefix.1 ++ "/" ++ name.1, some keyPrefix, name⟩
        | .error e => .error (.keyNameError e)
    | _ => .error .nestedPrefix

example : (Key.fromStr "app.kubernetes.io/name").map Key.string =
    .ok "app.kubernetes.io/name" := by
  decide

end Kvp

end StackableOperator
