import Mathlib
import StackableOperator.RustStd.ParseUnsigned
import StackableOperator.Readers.PythonString
import StackableOperator.Kvp.Key

/-!
# Writer for Flask App configurations

Flask is configured in Python. Options have a Python type, and `convertToPython` writes their
values accordingly; values of unknown options are Python expressions. `write` puts one assignment
on each line.

String literals are escaped in Rust's way. Python reads them back unless the string has a control
character other than a tab, a line feed or a carriage return
(`convertToPython_stringLiteral_iff`).
-/

namespace StackableOperator

namespace V2

/-- Errors of signed integers in texts. -/
inductive ParseIntError : Type
  | empty
  | invalidDigit
  | posOverflow
  | negOverflow
  deriving DecidableEq

inductive FlaskAppConfigWriterError : Type
  | convertIdentifier (value : String)
  | convertBoolLiteral (value : String)
  | convertIntLiteral (value : String) (source : ParseIntError)
  | convertStringLiteral (value : String)
  | convertExpression (value : String)
  deriving DecidableEq

/-- All supported Python types. -/
inductive PythonType : Type
  | identifier
  | boolLiteral
  | intLiteral
  /-- ASCII string literal -/
  | stringLiteral
  | expression
  deriving DecidableEq

/-- The magnitude of an integer, with the name of its overflow. -/
def parseMagnitude (size : ℕ) (overflow : ParseIntError) (digits : List Char) :
    Except ParseIntError ℕ :=
  (digits.foldlM (parseUnsignedStep size) 0).mapError fun
    | .empty => .empty
    | .invalidDigit => .invalidDigit
    | .posOverflow => overflow

/-- `str::parse::<i64>` -/
def parseI64 (src : List Char) : Except ParseIntError ℤ :=
  match src with
  | [] => .error .empty
  | ['+'] => .error .invalidDigit
  | ['-'] => .error .invalidDigit
  | '-' :: digits => (parseMagnitude (2 ^ 63 + 1) .negOverflow digits).map fun n => -(n : ℤ)
  | '+' :: digits => (parseMagnitude (2 ^ 63) .posOverflow digits).map fun n => (n : ℤ)
  | digits => (parseMagnitude (2 ^ 63) .posOverflow digits).map fun n => (n : ℤ)

namespace PythonType

def convertToPythonIdentifier (value : String) : Except FlaskAppConfigWriterError String :=
  if (value.toList.all fun c => c.isAlphanum || c == '_') &&
      value.toList.head?.any fun c => !c.isDigit then .ok value
  else .error (.convertIdentifier value)

def convertToPythonBoolLiteral (value : String) : Except FlaskAppConfigWriterError String :=
  if value = "true" then .ok "True"
  else if value = "false" then .ok "False"
  else .error (.convertBoolLiteral value)

def convertToPythonIntLiteral (value : String) : Except FlaskAppConfigWriterError String :=
  match parseI64 value.toList with
  | .ok i => .ok (toString i)
  | .error source => .error (.convertIntLiteral value source)

def convertToPythonStringLiteral (value : String) : Except FlaskAppConfigWriterError String :=
  if Kvp.isAscii value then
    .ok (String.ofList ('"' :: (escapeDefault value.toList ++ ['"'])))
  else .error (.convertStringLiteral value)

def convertToPythonExpression (value : String) : Except FlaskAppConfigWriterError String :=
  if (Kvp.trim value.toList).isEmpty then .error (.convertExpression value) else .ok value

/-- Convert the given string to Python. -/
def convertToPython (self : PythonType) (value : String) :
    Except FlaskAppConfigWriterError String :=
  match self with
  | .identifier => convertToPythonIdentifier value
  | .boolLiteral => convertToPythonBoolLiteral value
  | .intLiteral => convertToPythonIntLiteral value
  | .stringLiteral => convertToPythonStringLiteral value
  | .expression => convertToPythonExpression value

end PythonType

namespace FlaskConfigWriter

/-- One line of the configuration. An option without a Python type is a config override, and its
value is an expression. -/
def assignment (pythonType : String → Option PythonType) (name value : String) :
    Except FlaskAppConfigWriterError String := do
  let variableName ← PythonType.identifier.convertToPython name
  let content ← ((pythonType name).getD .expression).convertToPython value
  return variableName ++ " = " ++ content ++ "\n"

/-- Append the lines of the properties to what has been written. An error leaves the lines before
it. -/
def writeProperties (pythonType : String → Option PythonType) :
    List (String × String) → String → Except FlaskAppConfigWriterError Unit × String
  | [], writer => (.ok (), writer)
  | (name, value) :: properties, writer =>
    match assignment pythonType name value with
    | .ok line => writeProperties pythonType properties (writer ++ line)
    | .error e => (.error e, writer)

/-- Write a configuration file. -/
def write (pythonType : String → Option PythonType) (properties : List (String × String))
    (imports : List String) (writer : String) : Except FlaskAppConfigWriterError Unit × String :=
  writeProperties pythonType properties
    (imports.foldl (fun writer line => writer ++ (line ++ "\n")) writer ++ "\n")

/-- If all properties are converted, then their lines stand in the file. -/
theorem writeProperties_eq_ok_iff {pythonType : String → Option PythonType}
    {properties : List (String × String)} {writer text : String} :
    writeProperties pythonType properties writer = (.ok (), text) ↔
      ∃ lines, List.Forall₂ (fun property line =>
          assignment pythonType property.1 property.2 = .ok line) properties lines ∧
        text = lines.foldl (· ++ ·) writer := by
  induction properties generalizing writer with
  | nil =>
    rw [writeProperties]
    constructor
    · intro h
      exact ⟨[], .nil, (Prod.mk.inj h).2.symm⟩
    · rintro ⟨_, hlines, rfl⟩
      cases hlines
      rfl
  | cons property properties ih =>
    obtain ⟨name, value⟩ := property
    rw [writeProperties]
    match hline : assignment pythonType name value with
    | .error e =>
      refine iff_of_false (by simp) ?_
      rintro ⟨_, hlines, -⟩
      cases hlines with
      | cons h => exact absurd (hline.symm.trans h) (by simp)
    | .ok line =>
      refine ih.trans ⟨?_, ?_⟩
      · rintro ⟨lines, hlines, rfl⟩
        exact ⟨line :: lines, .cons hline hlines, rfl⟩
      · rintro ⟨_, hlines, rfl⟩
        cases hlines with
        | @cons _ line' _ lines h htail =>
          obtain rfl : line = line' := Except.ok.inj (hline.symm.trans h)
          exact ⟨lines, htail, rfl⟩

/-- **A string literal evaluates to the string iff all its characters are printable, tabs, line
feeds or carriage returns.** -/
theorem convertToPython_stringLiteral_iff (named : List Char → Option ℕ) (s : String)
    (hascii : Kvp.isAscii s = true) :
    (∃ text, PythonType.stringLiteral.convertToPython s = .ok text ∧
        pythonString named text.toList = some (s.toList.map Char.toNat)) ↔
      ∀ c ∈ s.toList, (0x20 ≤ c.toNat ∧ c.toNat ≤ 0x7e) ∨ c = '\t' ∨ c = '\n' ∨ c = '\r' := by
  have hconvert : PythonType.stringLiteral.convertToPython s =
      .ok (String.ofList ('"' :: (escapeDefault s.toList ++ ['"']))) := if_pos hascii
  have hcommon (c : Char) : Python.isCommon c = true ↔
      (0x20 ≤ c.toNat ∧ c.toNat ≤ 0x7e) ∨ c = '\t' ∨ c = '\n' ∨ c = '\r' := by
    simp [Python.isCommon, isPrintable, or_comm]
  simp only [← hcommon]
  rw [← Python.pythonString_escapeDefault_iff, hconvert]
  constructor
  · rintro ⟨text, htext, hvalue⟩
    rwa [← Except.ok.inj htext, String.toList_ofList] at hvalue
  · intro hvalue
    exact ⟨_, rfl, by rwa [String.toList_ofList]⟩

/-- A greeting with quotes is read back. -/
theorem convertToPython_stringLiteral_greeting :
    ∃ text, PythonType.stringLiteral.convertToPython "say \"hi\"\n" = .ok text ∧
      pythonString (fun _ => none) text.toList = some ("say \"hi\"\n".toList.map Char.toNat) :=
  (convertToPython_stringLiteral_iff (fun _ => none) "say \"hi\"\n" (by simp [Kvp.isAscii])).mpr
    (by simp)

/-- An escape character is written as a sequence that Python does not read. -/
theorem convertToPython_stringLiteral_escape :
    ¬ ∀ (named : List Char → Option ℕ) (s : String), Kvp.isAscii s = true →
      ∃ text, PythonType.stringLiteral.convertToPython s = .ok text ∧
        pythonString named text.toList = some (s.toList.map Char.toNat) := by
  intro h
  obtain ⟨text, htext, hvalue⟩ := h (fun _ => none) (String.ofList ['\x1b']) (by decide)
  have hwritten : PythonType.stringLiteral.convertToPython (String.ofList ['\x1b']) =
      .ok (String.ofList ('"' :: (escapeDefault ['\x1b'] ++ ['"']))) := by decide +kernel
  obtain rfl := Except.ok.inj (hwritten.symm.trans htext)
  rw [String.toList_ofList, String.toList_ofList, Python.pythonString_escapeDefault_iff] at hvalue
  exact absurd (hvalue '\x1b' List.mem_cons_self) (by decide)

end FlaskConfigWriter

end V2

end StackableOperator
