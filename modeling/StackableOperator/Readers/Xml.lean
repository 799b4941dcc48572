import Mathlib
import StackableOperator.ForMathlib.CodeUnits

/-!
# XML documents

`Xml.step` reads a document character by character: elements with attributes, character data,
references, comments, CDATA sections and processing instructions, with the conditions for
well-formed documents. Documents with a document type or an XML declaration are not read.

A value of an attribute is read up to its quote (`readValue`), and the next element behind the
beginning of a tag is the element of this tag (`exists_start_of_read`).
-/

namespace StackableOperator

namespace Xml

abbrev Name : Type := List Char

/-- Names of attributes with their values. -/
abbrev Attributes : Type := List (Name × List Char)

/-! ### Characters -/

/-- Characters of documents. -/
def isChar (c : Char) : Bool :=
  c == '\t' || c == '\n' || c == '\r' || (0x20 ≤ c.toNat && c.toNat != 0xfffe && c.toNat != 0xffff)

def isSpace (c : Char) : Bool := c == ' ' || c == '\t' || c == '\n' || c == '\r'

/-- The ranges of the first characters of names. -/
def nameStartRanges : List (ℕ × ℕ) :=
  [(0x3a, 0x3a), (0x41, 0x5a), (0x5f, 0x5f), (0x61, 0x7a), (0xc0, 0xd6), (0xd8, 0xf6),
    (0xf8, 0x2ff), (0x370, 0x37d), (0x37f, 0x1fff), (0x200c, 0x200d), (0x2070, 0x218f),
    (0x2c00, 0x2fef), (0x3001, 0xd7ff), (0xf900, 0xfdcf), (0xfdf0, 0xfffd), (0x10000, 0xeffff)]

/-- The ranges of the other characters of names. -/
def nameRanges : List (ℕ × ℕ) :=
  [(0x2d, 0x2e), (0x30, 0x39), (0xb7, 0xb7), (0x300, 0x36f), (0x203f, 0x2040)]

def isNameStart (c : Char) : Bool := nameStartRanges.any fun r => r.1 ≤ c.toNat && c.toNat ≤ r.2

def isNameChar (c : Char) : Bool :=
  isNameStart c || nameRanges.any fun r => r.1 ≤ c.toNat && c.toNat ≤ r.2

/-! ### References -/

/-- The character with the number that the digits denote. -/
def charOfDigits (base : ℕ) (digits : List Char) : Option Char := do
  guard (digits ≠ [])
  let n ← digits.foldlM (fun n c => do
    let d ← hexDigit c
    guard (d < base)
    return n * base + d) 0
  let c := Char.ofNat n
  guard (c.toNat = n ∧ isChar c = true)
  return c

/-- What stands between `&` and the semicolon. -/
def resolve (letters : List Char) : Option Char :=
  if letters = "lt".toList then some '<'
  else if letters = "gt".toList then some '>'
  else if letters = "amp".toList then some '&'
  else if letters = "quot".toList then some '"'
  else if letters = "apos".toList then some '\''
  else
    match letters with
    | '#' :: 'x' :: digits => charOfDigits 16 digits
    | '#' :: digits => charOfDigits 10 digits
    | _ => none

def isReferenceChar (c : Char) : Bool := c == '#' || isNameChar c

/-- The character of a value, where white space is a space. -/
def normalized (c : Char) : Char := if isSpace c then ' ' else c

/-- The characters of a value up to a quote, and the rest. A reference may have begun. -/
def readValue (quote : Char) : Option (List Char) → List Char → Option (List Char × List Char)
  | _, [] => none
  | none, c :: text =>
    if c = quote then some ([], text)
    else if c = '&' then readValue quote (some []) text
    else if c = '<' ∨ isChar c = false then none
    else (readValue quote none text).map fun r => (normalized c :: r.1, r.2)
  | some letters, c :: text =>
    if c = ';' then
      (resolve letters).bind fun d =>
        (readValue quote none text).map fun r => (d :: r.1, r.2)
    else if isReferenceChar c then readValue quote (some (letters ++ [c])) text
    else none

/-! ### Documents -/

/-- A start tag without its end. -/
structure Tag where
  name : Name
  attributes : Attributes
  deriving DecidableEq

/-- What is being read. -/
inductive Mode : Type
  /-- Character data behind so many closing brackets. -/
  | content (brackets : ℕ)
  | reference (letters : List Char)
  /-- Behind `<`. -/
  | markup
  /-- Behind `<!` and a part of what begins a comment or a CDATA section. -/
  | declaration (letters : List Char)
  | comment (hyphens : ℕ)
  | cdata (brackets : ℕ)
  /-- The target of a processing instruction. -/
  | target (letters : List Char)
  | targetEnd
  | instruction (question : Bool)
  | startTag (name : Name)
  /-- Between the attributes of a start tag. -/
  | attributes (tag : Tag) (spaced : Bool)
  | attributeName (tag : Tag) (name : Name)
  | equals (tag : Tag) (name : Name)
  | beforeValue (tag : Tag) (name : Name)
  | value (tag : Tag) (name : Name) (quote : Char) (chars : List Char)
    (reference : Option (List Char))
  /-- Behind the slash of an element without content. -/
  | empty (tag : Tag)
  | endTag (name : Name)
  | endTagSpace (name : Name)
  deriving DecidableEq

structure State where
  mode : Mode
  /-- The elements that are open, the innermost one first. -/
  opened : List Name
  /-- The root element has begun. -/
  started : Bool
  deriving DecidableEq

inductive Event : Type
  /-- A start tag, with the elements around it. -/
  | start (parents : List Name) (name : Name) (attributes : Attributes)
  | char (c : Char)
  | finish (name : Name)

namespace State

/-- Go on without an event. -/
def goto (s : State) (mode : Mode) : Option (State × List Event) := some ({ s with mode }, [])

/-- The end of a start tag. -/
def openElement (s : State) (tag : Tag) : Option (State × List Event) :=
  some (⟨.content 0, tag.name :: s.opened, true⟩, [.start s.opened tag.name tag.attributes])

/-- The end of a tag of an element without content. -/
def emptyElement (s : State) (tag : Tag) : Option (State × List Event) :=
  some (⟨.content 0, s.opened, true⟩,
    [.start s.opened tag.name tag.attributes, .finish tag.name])

/-- The end of an end tag. -/
def closeElement (s : State) (name : Name) : Option (State × List Event) :=
  match s.opened with
  | [] => none
  | current :: outer =>
    if current = name then some ({ s with mode := .content 0, opened := outer }, [.finish name])
    else none

end State

def commentStart : List Char := "--".toList

def cdataStart : List Char := "[CDATA[".toList

/-- The target of an XML declaration. -/
def isXmlTarget (letters : List Char) : Bool := letters.map Char.toLower == "xml".toList

/-- Read a character. -/
def step (s : State) (c : Char) : Option (State × List Event) :=
  match s.mode with
  | .content brackets =>
    if c = '<' then s.goto .markup
    else if s.opened = [] ∧ isSpace c = false then none
    else if c = '&' then s.goto (.reference [])
    else if isChar c = false ∨ (c = '>' ∧ 2 ≤ brackets) then none
    else some ({ s with mode := .content (if c = ']' then brackets + 1 else 0) }, [.char c])
  | .reference letters =>
    if c = ';' then (resolve letters).map fun d => ({ s with mode := .content 0 }, [.char d])
    else if isReferenceChar c then s.goto (.reference (letters ++ [c]))
    else none
  | .markup =>
    if c = '!' then s.goto (.declaration [])
    else if c = '?' then s.goto (.target [])
    else if c = '/' then s.goto (.endTag [])
    else if isNameStart c ∧ ¬ (s.opened = [] ∧ s.started = true) then s.goto (.startTag [c])
    else none
  | .declaration letters =>
    if letters ++ [c] = commentStart then s.goto (.comment 0)
    else if letters ++ [c] = cdataStart ∧ s.opened ≠ [] then s.goto (.cdata 0)
    else if letters ++ [c] <+: commentStart ∨ letters ++ [c] <+: cdataStart then
      s.goto (.declaration (letters ++ [c]))
    else none
  | .comment hyphens =>
    if 2 ≤ hyphens then if c = '>' then s.goto (.content 0) else none
    else if isChar c = false then none
    else s.goto (.comment (if c = '-' then hyphens + 1 else 0))
  | .cdata brackets =>
    if isChar c = false then none
    else if c = ']' then
      some ({ s with mode := .cdata (min 2 (brackets + 1)) },
        if 2 ≤ brackets then [.char ']'] else [])
    else if c = '>' ∧ 2 ≤ brackets then s.goto (.content 0)
    else some ({ s with mode := .cdata 0 }, List.replicate brackets (.char ']') ++ [.char c])
  | .target letters =>
    if if letters = [] then isNameStart c else isNameChar c then s.goto (.target (letters ++ [c]))
    else if letters = [] ∨ isXmlTarget letters = true then none
    else if isSpace c then s.goto (.instruction false)
    else if c = '?' then s.goto .targetEnd
    else none
  | .targetEnd => if c = '>' then s.goto (.content 0) else none
  | .instruction question =>
    if isChar c = false then none
    else if question = true ∧ c = '>' then s.goto (.content 0)
    else s.goto (.instruction (c == '?'))
  | .startTag name =>
    if isNameChar c then s.goto (.startTag (name ++ [c]))
    else if isSpace c then s.goto (.attributes ⟨name, []⟩ true)
    else if c = '/' then s.goto (.empty ⟨name, []⟩)
    else if c = '>' then s.openElement ⟨name, []⟩
    else none
  | .attributes tag spaced =>
    if isSpace c then s.goto (.attributes tag true)
    else if c = '/' then s.goto (.empty tag)
    else if c = '>' then s.openElement tag
    else if spaced = true ∧ isNameStart c then s.goto (.attributeName tag [c])
    else none
  | .attributeName tag name =>
    if isNameChar c then s.goto (.attributeName tag (name ++ [c]))
    else if isSpace c then s.goto (.equals tag name)
    else if c = '=' then s.goto (.beforeValue tag name)
    else none
  | .equals tag name =>
    if isSpace c then s.goto (.equals tag name)
    else if c = '=' then s.goto (.beforeValue tag name)
    else none
  | .beforeValue tag name =>
    if isSpace c then s.goto (.beforeValue tag name)
    else if c = '"' ∨ c = '\'' then s.goto (.value tag name c [] none)
    else none
  | .value tag name quote chars none =>
    if c = quote then
      if name ∈ tag.attributes.map Prod.fst then none
      else s.goto (.attributes ⟨tag.name, tag.attributes ++ [(name, chars)]⟩ false)
    else if c = '&' then s.goto (.value tag name quote chars (some []))
    else if c = '<' ∨ isChar c = false then none
    else s.goto (.value tag name quote (chars ++ [normalized c]) none)
  | .value tag name quote chars (some letters) =>
    if c = ';' then
      (resolve letters).bind fun d => s.goto (.value tag name quote (chars ++ [d]) none)
    else if isReferenceChar c then s.goto (.value tag name quote chars (some (letters ++ [c])))
    else none
  | .empty tag => if c = '>' then s.emptyElement tag else none
  | .endTag name =>
    if if name = [] then isNameStart c else isNameChar c then s.goto (.endTag (name ++ [c]))
    else if isSpace c then s.goto (.endTagSpace name)
    else if c = '>' then s.closeElement name
    else none
  | .endTagSpace name =>
    if isSpace c then s.goto (.endTagSpace name)
    else if c = '>' then s.closeElement name
    else none

/-- Read a text. -/
def read (s : State) : List Char → Option (State × List Event)
  | [] => some (s, [])
  | c :: text =>
    (step s c).bind fun r => (read r.1 text).map fun r' => (r'.1, r.2 ++ r'.2)

/-- The beginning of a document. -/
def State.init : State := ⟨.content 0, [], false⟩

/-- The root element has ended, and nothing has begun behind it. -/
def State.IsFinal (s : State) : Prop :=
  (∃ n, s.mode = .content n) ∧ s.opened = [] ∧ s.started = true

/-! ### Runs -/

variable {s s' s'' : State} {text text' : List Char} {events events' : List Event}

theorem read_append (s : State) (text text' : List Char) :
    read s (text ++ text') =
      (read s text).bind fun r => (read r.1 text').map fun r' => (r'.1, r.2 ++ r'.2) := by
  induction text generalizing s with
  | nil =>
    rw [List.nil_append, read, Option.bind_some]
    cases read s text' <;> rfl
  | cons c text ih =>
    rw [List.cons_append, read, read]
    cases step s c with
    | none => rfl
    | some r =>
      rw [Option.bind_some, Option.bind_some, ih]
      cases read r.1 text with
      | none => rfl
      | some r' =>
        rw [Option.bind_some, Option.map_some, Option.bind_some]
        cases read r'.1 text' with
        | none => rfl
        | some r'' => simp

theorem read_append_of_eq_some (h : read s text = some (s', events))
    (h' : read s' text' = some (s'', events')) :
    read s (text ++ text') = some (s'', events ++ events') := by
  rw [read_append, h, Option.bind_some, h', Option.map_some]

theorem exists_of_read_append_of_eq_some (h : read s text = some (s', events))
    (hread : read s (text ++ text') = some (s'', events')) :
    ∃ rest, read s' text' = some (s'', rest) ∧ events' = events ++ rest := by
  rw [read_append, h, Option.bind_some] at hread
  obtain ⟨⟨t, rest⟩, hrest, heq⟩ := Option.map_eq_some_iff.mp hread
  obtain ⟨rfl, rfl⟩ := Prod.mk.inj heq
  exact ⟨rest, hrest, rfl⟩

/-! ### Values -/

/-- A value is read up to its quote. -/
theorem read_value {opened : List Name} {started : Bool} {tag : Tag} {name : Name} {quote : Char}
    {chars value rest : List Char} {reference : Option (List Char)}
    (hname : name ∉ tag.attributes.map Prod.fst)
    (h : readValue quote reference text = some (value, rest)) :
    read ⟨.value tag name quote chars reference, opened, started⟩ text =
      read ⟨.attributes ⟨tag.name, tag.attributes ++ [(name, chars ++ value)]⟩ false, opened,
        started⟩ rest := by
  induction text generalizing chars value reference with
  | nil => cases reference <;> cases h
  | cons c text ih =>
    cases reference with
    | none =>
      rw [readValue] at h
      rw [read, step]
      dsimp only
      split_ifs at h ⊢ with hquote hreference hbad
      · obtain ⟨rfl, rfl⟩ := Prod.mk.inj (Option.some.inj h)
        rw [List.append_nil]
        simp [State.goto]
      · simp [State.goto, ih h]
      · obtain ⟨⟨value', rest'⟩, hvalue, heq⟩ := Option.map_eq_some_iff.mp h
        obtain ⟨rfl, rfl⟩ := Prod.mk.inj heq
        simp [State.goto, ih hvalue]
    | some letters =>
      rw [readValue] at h
      rw [read, step]
      dsimp only
      split_ifs at h ⊢ with hend hletter
      · obtain ⟨d, hd, hmap⟩ := Option.bind_eq_some_iff.mp h
        obtain ⟨⟨value', rest'⟩, hvalue, heq⟩ := Option.map_eq_some_iff.mp hmap
        obtain ⟨rfl, rfl⟩ := Prod.mk.inj heq
        simp [State.goto, hd, ih hvalue]
      · simp [State.goto, ih h]

/-- Without a quote that ends it, a value goes on. -/
theorem exists_mode_of_readValue_eq_none {opened : List Name} {started : Bool} {tag : Tag}
    {name : Name} {quote : Char} {chars : List Char} {reference : Option (List Char)}
    (h : readValue quote reference text = none)
    (hread : read ⟨.value tag name quote chars reference, opened, started⟩ text =
      some (s', events)) :
    ∃ chars' reference', s'.mode = .value tag name quote chars' reference' := by
  induction text generalizing chars reference events with
  | nil =>
    obtain ⟨rfl, -⟩ := Prod.mk.inj (Option.some.inj hread)
    exact ⟨chars, reference, rfl⟩
  | cons c text ih =>
    obtain ⟨⟨t, ev⟩, hstep, hmap⟩ := Option.bind_eq_some_iff.mp hread
    obtain ⟨⟨t', ev'⟩, htext, heq⟩ := Option.map_eq_some_iff.mp hmap
    obtain ⟨rfl, -⟩ := Prod.mk.inj heq
    -- inside a reference a semicolon puts its character into the value
    cases reference with
    | none =>
      rw [readValue] at h
      rw [step] at hstep
      dsimp only at hstep
      split_ifs at h hstep
      · obtain ⟨rfl, -⟩ := Prod.mk.inj (Option.some.inj hstep)
        exact ih h htext
      · obtain ⟨rfl, -⟩ := Prod.mk.inj (Option.some.inj hstep)
        exact ih (Option.map_eq_none_iff.mp h) htext
    | some letters =>
      rw [readValue] at h
      rw [step] at hstep
      dsimp only at hstep
      split_ifs at h hstep with hend hletter
      · obtain ⟨d, hd, hgoto⟩ := Option.bind_eq_some_iff.mp hstep
        obtain ⟨rfl, -⟩ := Prod.mk.inj (Option.some.inj hgoto)
        rw [hd, Option.bind_some] at h
        exact ih (Option.map_eq_none_iff.mp h) htext
      · obtain ⟨rfl, -⟩ := Prod.mk.inj (Option.some.inj hstep)
        exact ih h htext

/-! ### Start tags -/

/-- The start tag that is being read, behind its name. -/
def Mode.tag? : Mode → Option Tag
  | .attributes tag _ => some tag
  | .attributeName tag _ => some tag
  | .equals tag _ => some tag
  | .beforeValue tag _ => some tag
  | .value tag _ _ _ _ => some tag
  | .empty tag => some tag
  | _ => none

/-- A start tag goes on with more attributes, or its element begins. -/
theorem tag?_of_step {c : Char} {tag : Tag} (htag : s.mode.tag? = some tag)
    (h : step s c = some (s', events)) :
    (events = [] ∧ s'.opened = s.opened ∧ ∃ tag', s'.mode.tag? = some tag' ∧
        tag'.name = tag.name ∧ tag.attributes <+: tag'.attributes) ∨
      ∃ rest, events = .start s.opened tag.name tag.attributes :: rest := by
  -- a step that only changes the mode keeps the tag
  have hgoto {mode : Mode} (hmode : mode.tag? = some tag)
      (h : s.goto mode = some (s', events)) :
      events = [] ∧ s'.opened = s.opened ∧ ∃ tag', s'.mode.tag? = some tag' ∧
        tag'.name = tag.name ∧ tag.attributes <+: tag'.attributes := by
    obtain ⟨rfl, rfl⟩ := Prod.mk.inj (Option.some.inj h)
    exact ⟨rfl, rfl, tag, hmode, rfl, List.prefix_rfl⟩
  obtain ⟨mode, opened, started⟩ := s
  cases mode with
  | attributes tag spaced =>
    obtain rfl := Option.some.inj htag
    rw [step] at h
    dsimp only at h
    split_ifs at h
    · exact .inl (hgoto rfl h)
    · exact .inl (hgoto rfl h)
    · obtain ⟨-, rfl⟩ := Prod.mk.inj (Option.some.inj h)
      exact .inr ⟨[], rfl⟩
    · exact .inl (hgoto rfl h)
  | attributeName tag name =>
    obtain rfl := Option.some.inj htag
    rw [step] at h
    dsimp only at h
    split_ifs at h
    · exact .inl (hgoto rfl h)
    · exact .inl (hgoto rfl h)
    · exact .inl (hgoto rfl h)
  | equals tag name =>
    obtain rfl := Option.some.inj htag
    rw [step] at h
    dsimp only at h
    split_ifs at h
    · exact .inl (hgoto rfl h)
    · exact .inl (hgoto rfl h)
  | beforeValue tag name =>
    obtain rfl := Option.some.inj htag
    rw [step] at h
    dsimp only at h
    split_ifs at h
    · exact .inl (hgoto rfl h)
    · exact .inl (hgoto rfl h)
  -- the closing quote adds the attribute
  | value tag name quote chars reference =>
    obtain rfl := Option.some.inj htag
    cases reference with
    | none =>
      rw [step] at h
      dsimp only at h
      split_ifs at h
      · obtain ⟨rfl, rfl⟩ := Prod.mk.inj (Option.some.inj h)
        exact .inl ⟨rfl, rfl, _, rfl, rfl, List.prefix_append _ _⟩
      · exact .inl (hgoto rfl h)
      · exact .inl (hgoto rfl h)
    | some letters =>
      rw [step] at h
      dsimp only at h
      split_ifs at h
      · obtain ⟨d, -, hd⟩ := Option.bind_eq_some_iff.mp h
        exact .inl (hgoto rfl hd)
      · exact .inl (hgoto rfl h)
  -- the `>` of an empty element begins and ends it
  | empty tag =>
    obtain rfl := Option.some.inj htag
    rw [step] at h
    dsimp only at h
    split_ifs at h
    obtain ⟨-, rfl⟩ := Prod.mk.inj (Option.some.inj h)
    exact .inr ⟨_, rfl⟩
  | _ => cases htag

/-- **The next element behind the beginning of a start tag is its element.** -/
theorem exists_start_of_read {tag : Tag} (htag : s.mode.tag? = some tag)
    (h : read s text = some (s', events)) (hend : s'.mode.tag? = none) :
    ∃ attributes rest, tag.attributes <+: attributes ∧
      events = .start s.opened tag.name attributes :: rest := by
  induction text generalizing s tag events with
  | nil =>
    obtain ⟨rfl, -⟩ := Prod.mk.inj (Option.some.inj h)
    cases htag.symm.trans hend
  | cons c text ih =>
    obtain ⟨⟨t, ev⟩, hstep, hmap⟩ := Option.bind_eq_some_iff.mp h
    obtain ⟨⟨t', ev'⟩, htext, heq⟩ := Option.map_eq_some_iff.mp hmap
    obtain ⟨rfl, rfl⟩ := Prod.mk.inj heq
    obtain ⟨rfl, hopened, tag', htag', hname, hprefix⟩ | ⟨rest, rfl⟩ := tag?_of_step htag hstep
    · obtain ⟨attributes, rest, hattributes, rfl⟩ := ih htag' htext
      refine ⟨attributes, rest, hprefix.trans hattributes, ?_⟩
      rw [hopened, hname, List.nil_append]
    · exact ⟨tag.attributes, rest ++ ev', List.prefix_rfl, rfl⟩

/-! ### Character data -/

/-- The text is character data, wherever it stands in an element. -/
def IsCharacterData (text : List Char) : Prop :=
  ∀ opened : List Name, opened ≠ [] → ∃ (brackets : ℕ) (chars : List Char),
    read ⟨.content 0, opened, true⟩ text =
      some (⟨.content brackets, opened, true⟩, chars.map Event.char)

/-- Characters that stand for themselves. -/
def isPlain (c : Char) : Bool := isChar c && c != '<' && c != '&' && c != ']' && c != '>'

theorem read_plain {opened : List Name} (hopened : opened ≠ []) {brackets : ℕ}
    (h : text.all isPlain = true) :
    read ⟨.content brackets, opened, true⟩ text =
      some (⟨.content (if text = [] then brackets else 0), opened, true⟩,
        text.map Event.char) := by
  induction text generalizing brackets with
  | nil => rfl
  | cons c text ih =>
    rw [List.all_cons, Bool.and_eq_true_iff] at h
    obtain ⟨hc, htext⟩ := h
    simp only [isPlain, Bool.and_eq_true, bne_iff_ne, ne_eq] at hc
    obtain ⟨⟨⟨⟨hchar, hopen⟩, hreference⟩, hbracket⟩, hclose⟩ := hc
    have hstep : step ⟨.content brackets, opened, true⟩ c =
        some (⟨.content 0, opened, true⟩, [.char c]) := by
      simp [step, hopened, hchar, hopen, hreference, hbracket, hclose]
    rw [read, hstep, Option.bind_some, ih htext]
    simp

theorem isCharacterData_of_all (h : text.all isPlain = true) : IsCharacterData text :=
  fun _ hopened => ⟨_, _, read_plain hopened h⟩

/-! ### Elements in a document -/

/-- The element that begins, if these elements are around it. -/
def Event.elementIn (parents : List Name) : Event → Option (Name × Attributes)
  | .start parents' name attributes => if parents' = parents then some (name, attributes) else none
  | _ => none

/-- The text is read, and these are the elements with the given ones around them. -/
def Reads (parents : List Name) (s : State) (text : List Char) (s' : State)
    (elements : List (Name × Attributes)) : Prop :=
  ∃ events, read s text = some (s', events) ∧ events.filterMap (Event.elementIn parents) = elements

variable {parents : List Name} {elements elements' : List (Name × Attributes)}

theorem reads_iff : Reads parents s text s' elements ↔
    (read s text).map (fun r => (r.1, r.2.filterMap (Event.elementIn parents))) =
      some (s', elements) := by
  rw [Option.map_eq_some_iff]
  constructor
  · rintro ⟨events, hread, rfl⟩
    exact ⟨_, hread, rfl⟩
  · rintro ⟨⟨t, events⟩, hread, heq⟩
    obtain ⟨rfl, rfl⟩ := Prod.mk.inj heq
    exact ⟨events, hread, rfl⟩

instance : DecidableEq (State × List (Name × Attributes)) :=
  @instDecidableEqProd _ _ inferInstance inferInstance

instance : Decidable (Reads parents s text s' elements) := decidable_of_iff _ reads_iff.symm

/-- A literal is the text of its characters. -/
theorem Reads.ofList (h : Reads parents s text s' elements) :
    Reads parents s (String.ofList text).toList s' elements := by
  rwa [String.toList_ofList]

theorem Reads.append (h : Reads parents s text s' elements)
    (h' : Reads parents s' text' s'' elements') :
    Reads parents s (text ++ text') s'' (elements ++ elements') := by
  obtain ⟨events, hread, rfl⟩ := h
  obtain ⟨events', hread', rfl⟩ := h'
  exact ⟨events ++ events', read_append_of_eq_some hread hread', List.filterMap_append⟩

/-- What is read behind a text. -/
theorem Reads.of_append (h : Reads parents s text s' elements)
    (h' : Reads parents s (text ++ text') s'' elements') :
    ∃ rest, Reads parents s' text' s'' rest ∧ elements' = elements ++ rest := by
  obtain ⟨events, hread, rfl⟩ := h
  obtain ⟨events', hread', rfl⟩ := h'
  obtain ⟨rest, hrest, rfl⟩ := exists_of_read_append_of_eq_some hread hread'
  exact ⟨_, ⟨rest, hrest, rfl⟩, List.filterMap_append⟩

theorem IsCharacterData.reads (h : IsCharacterData text) (parents : List Name)
    {opened : List Name} (hopened : opened ≠ []) :
    ∃ brackets, Reads parents ⟨.content 0, opened, true⟩ text
      ⟨.content brackets, opened, true⟩ [] := by
  obtain ⟨brackets, chars, hread⟩ := h opened hopened
  refine ⟨brackets, _, hread, ?_⟩
  rw [List.filterMap_map, List.filterMap_eq_nil_iff]
  exact fun _ _ => rfl

/-- **A value is the one of the next element.** -/
theorem Reads.of_value {opened : List Name} {started : Bool} {tag : Tag} {name : Name}
    {quote : Char} {chars : List Char} {reference : Option (List Char)}
    (hname : name ∉ tag.attributes.map Prod.fst) (hend : s'.mode.tag? = none)
    (h : Reads opened ⟨.value tag name quote chars reference, opened, started⟩ text s' elements) :
    ∃ value rest attributes elements', readValue quote reference text = some (value, rest) ∧
      tag.attributes ++ [(name, chars ++ value)] <+: attributes ∧
      elements = (tag.name, attributes) :: elements' := by
  obtain ⟨events, hread, rfl⟩ := h
  rcases hvalue : readValue quote reference text with _ | ⟨value, rest⟩
  · obtain ⟨chars', reference', hmode⟩ := exists_mode_of_readValue_eq_none hvalue hread
    rw [hmode] at hend
    cases hend
  · rw [read_value hname hvalue] at hread
    obtain ⟨attributes, events', hprefix, rfl⟩ := exists_start_of_read rfl hread hend
    exact ⟨value, rest, attributes, _, rfl, hprefix, List.filterMap_cons_some (if_pos rfl)⟩

/-- **A value is read into the attributes of its tag.** -/
theorem reads_value_iff {opened : List Name} {started : Bool} {tag : Tag} {name : Name}
    {quote : Char} {chars value rest : List Char} {reference : Option (List Char)}
    (hname : name ∉ tag.attributes.map Prod.fst)
    (h : readValue quote reference text = some (value, rest)) :
    Reads parents ⟨.value tag name quote chars reference, opened, started⟩ text s' elements ↔
      Reads parents ⟨.attributes ⟨tag.name, tag.attributes ++ [(name, chars ++ value)]⟩ false,
        opened, started⟩ rest s' elements := by
  unfold Reads
  rw [read_value hname h]

/-- Only brackets depend on those before them. -/
theorem reads_content_iff {opened : List Name} {started : Bool} {brackets : ℕ} {c : Char}
    (hc : c ≠ ']' ∧ c ≠ '>') :
    Reads parents ⟨.content brackets, opened, started⟩ (c :: text) s' elements ↔
      Reads parents ⟨.content 0, opened, started⟩ (c :: text) s' elements := by
  have hstep : step ⟨.content brackets, opened, started⟩ c =
      step ⟨.content 0, opened, started⟩ c := by
    simp [step, State.goto, hc]
  unfold Reads
  rw [read, read, hstep]

/-- A literal is read in the same way behind all character data. -/
theorem Reads.ofList_content {opened : List Name} {started : Bool}
    (h : Reads parents ⟨.content 0, opened, started⟩ text s' elements)
    (hhead : text.head?.any (fun c => c != ']' && c != '>') = true) (brackets : ℕ) :
    Reads parents ⟨.content brackets, opened, started⟩ (String.ofList text).toList s'
      elements := by
  refine Reads.ofList ?_
  cases text with
  | nil => cases hhead
  | cons c text =>
    simp only [List.head?_cons, Option.any_some, Bool.and_eq_true, bne_iff_ne] at hhead
    exact (reads_content_iff hhead).mpr h

/-- Character data is read before a text that is read in the same way behind all of it. -/
theorem IsCharacterData.reads_append {data text' : List Char} {opened : List Name}
    (h : IsCharacterData data) (hopened : opened ≠ []) (s'' : State)
    (elements' : List (Name × Attributes))
    (htext : ∀ brackets, Reads parents ⟨.content brackets, opened, true⟩ text s'' elements')
    (hrest : Reads parents s'' text' s' elements) :
    Reads parents ⟨.content 0, opened, true⟩ (data ++ (text ++ text')) s'
      (elements' ++ elements) := by
  obtain ⟨brackets, hdata⟩ := h.reads parents hopened
  exact hdata.append ((htext brackets).append hrest)

/-- The document is well-formed, and these are the elements in its root element. -/
def HasChildren (text : List Char) (root : Name) (elements : List (Name × Attributes)) : Prop :=
  ∃ s : State, s.IsFinal ∧ Reads [root] .init text s elements

end Xml

end StackableOperator
