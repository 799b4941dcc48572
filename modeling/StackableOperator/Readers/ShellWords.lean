import Mathlib

/-!
# Words of shell commands

`words` splits a command line by the quoting and token rules of POSIX shells. It gives the words of
one simple command, without the quotes, and fails if there is anything else: a control operator, a
redirection, or an expansion.

`wordsFrom_intercalate_iff` says that words that are joined with blanks are read back iff they are
plain: no character in them has a meaning for the shell.
-/

namespace Shell

/-! ### Reading -/

/-- What a simple command of plain words does not contain. -/
inductive Problem : Type
  | controlOperator (c : Char)
  | redirection (c : Char)
  | expansion (c : Char)
  | unterminatedQuote
  deriving DecidableEq

/-- How the next character is quoted. -/
inductive Quoting : Type
  | unquoted
  /-- After a backslash outside of quotes -/
  | escaped
  | single
  | double
  /-- After a backslash in double quotes -/
  | doubleEscaped
  | comment
  deriving DecidableEq

/-- The words that were read, and the word that is being read. -/
structure State where
  quoting : Quoting := .unquoted
  current : Option (List Char) := none
  done : List (List Char) := []
  deriving DecidableEq

def isBlank (c : Char) : Bool := c = ' ' || c = '\t'

def isControlOperator (c : Char) : Bool := ['&', '|', ';', '(', ')', '\n'].elem c

def isRedirection (c : Char) : Bool := ['<', '>'].elem c

def isQuote (c : Char) : Bool := ['\'', '"', '\\'].elem c

/-- Characters of patterns, which stand for the names of files. -/
def isPattern (c : Char) : Bool := ['*', '?', '['].elem c

/-- The characters after a dollar sign that make it an expansion: the first character of a name, a
special parameter, or an opening bracket. Any other dollar sign stands for itself. -/
def introducesExpansion (next : Option Char) : Bool :=
  match next with
  | some c => c.isAlphanum || ['_', '@', '*', '#', '?', '-', '$', '!', '\x7b', '('].elem c
  | none => false

/-- Whether a character is the start of an expansion, in quotes or not. -/
def isExpansion (c : Char) (next : Option Char) : Bool :=
  c = '`' || (c = '$' && introducesExpansion next)

namespace State

def push (s : State) (c : Char) : State :=
  { s with current := some (s.current.getD [] ++ [c]) }

/-- The end of a word. -/
def endWord (s : State) : State :=
  { s with current := none, done := s.done ++ s.current.toList }

/-- Go on with another quoting, in the same word. -/
def withQuoting (s : State) (quoting : Quoting) : State := { s with quoting := quoting }

/-- Start a quote, which is part of a word also if it is empty. -/
def openQuote (s : State) (quoting : Quoting) : State :=
  { s with quoting := quoting, current := some (s.current.getD []) }

/-- The quoting that a quote character starts. -/
def quotingOf (c : Char) : Quoting :=
  if c = '\'' then .single else if c = '"' then .double else .escaped

/-- Read one character; `next` is the character after it. -/
def step (s : State) (c : Char) (next : Option Char) : Except Problem State :=
  match s.quoting with
  | .unquoted =>
    if isBlank c then .ok s.endWord
    else if isControlOperator c then .error (.controlOperator c)
    else if isRedirection c then .error (.redirection c)
    else if c = '\\' then .ok (s.withQuoting .escaped)
    else if isQuote c then .ok (s.openQuote (quotingOf c))
    else if isExpansion c next || isPattern c then .error (.expansion c)
    else if c = '#' ∧ s.current = none then .ok (s.withQuoting .comment)
    else .ok (s.push c)
  | .escaped =>
    -- an escaped newline joins two lines
    if c = '\n' then .ok (s.withQuoting .unquoted) else .ok ((s.push c).withQuoting .unquoted)
  | .single => if c = '\'' then .ok (s.withQuoting .unquoted) else .ok (s.push c)
  | .double =>
    if c = '"' then .ok (s.withQuoting .unquoted)
    else if c = '\\' then .ok (s.withQuoting .doubleEscaped)
    else if isExpansion c next then .error (.expansion c)
    else .ok (s.push c)
  | .doubleEscaped =>
    if c = '\n' then .ok (s.withQuoting .double)
    else if ['$', '`', '"', '\\'].elem c then .ok ((s.push c).withQuoting .double)
    else .ok (((s.push '\\').push c).withQuoting .double)
  | .comment => if c = '\n' then .error (.controlOperator c) else .ok s

def run (s : State) : List Char → Except Problem State
  | [] => .ok s
  | c :: cs =>
    match s.step c cs.head? with
    | .error e => .error e
    | .ok s => s.run cs

/-- The words at the end of the text. -/
def finish (s : State) : Except Problem (List (List Char)) :=
  match s.quoting with
  | .unquoted | .comment => .ok s.endWord.done
  | _ => .error .unterminatedQuote

end State

/-- The words of a text from some state on. -/
def wordsFrom (s : State) (cs : List Char) : Except Problem (List (List Char)) :=
  match s.run cs with
  | .error e => .error e
  | .ok s => s.finish

/-- The words of a simple command without expansions. -/
def words (cs : List Char) : Except Problem (List (List Char)) := wordsFrom {} cs

example : words "cp 'a b'/c\\ d \"$\"\"\\$e\" # copy".toList =
    .ok ["cp".toList, "a b/c d".toList, "$$e".toList] := by decide

example : words "a>b".toList = .error (.redirection '>') := by decide

/-! ### Plain words -/

/-- A character of a word that stands for itself. -/
def isPlainChar (c : Char) (next : Option Char) : Bool :=
  !isBlank c && !isControlOperator c && !isRedirection c && !isQuote c && !isPattern c &&
    !isExpansion c next

/-- No character has a meaning for the shell. -/
def isPlain : List Char → Bool
  | [] => true
  | c :: cs => isPlainChar c cs.head? && isPlain cs

/-- A plain text that is one word and no comment. -/
def IsPlainWord (w : List Char) : Prop := w ≠ [] ∧ w.head? ≠ some '#' ∧ isPlain w = true

theorem isPlain_cons_iff {c : Char} {cs : List Char} :
    isPlain (c :: cs) = true ↔ isPlainChar c cs.head? = true ∧ isPlain cs = true := by
  rw [isPlain, Bool.and_eq_true]

/-- The characters that have a meaning for the shell. -/
def specialChars : List Char :=
  [' ', '\t', '&', '|', ';', '(', ')', '\n', '<', '>', '\'', '"', '\\', '*', '?', '[', '`', '$']

theorem isPlainChar_of_notMem {c : Char} (h : c ∉ specialChars) (next : Option Char) :
    isPlainChar c next = true := by
  simp only [specialChars, List.mem_cons, List.not_mem_nil, or_false, not_or] at h
  simp [isPlainChar, isBlank, isControlOperator, isRedirection, isQuote, isPattern, isExpansion, h]

/-- A blank after a character is like the end of the text. -/
theorem isPlainChar_some_blank (c : Char) : isPlainChar c (some ' ') = isPlainChar c none := by
  simp only [isPlainChar, isExpansion, introducesExpansion]
  rfl

/-- Only for a dollar sign it matters what comes next. -/
theorem isPlainChar_of_ne_dollar {c : Char} (h : c ≠ '$') (next : Option Char) :
    isPlainChar c next = isPlainChar c none := by
  simp [isPlainChar, isExpansion, h]

/-- Plain texts can be put together if the first one has no dollar sign. -/
theorem isPlain_append {v w : List Char} (hdollar : '$' ∉ v) :
    isPlain (v ++ w) = true ↔ isPlain v = true ∧ isPlain w = true := by
  induction v with
  | nil => simp [isPlain]
  | cons c v ih =>
    rw [List.mem_cons, not_or] at hdollar
    have hc := isPlainChar_of_ne_dollar (Ne.symm hdollar.1)
    rw [List.cons_append, isPlain_cons_iff, isPlain_cons_iff, ih hdollar.2, hc, hc v.head?,
      and_assoc]

theorem isPlain_of_forall_notMem {w : List Char} (h : ∀ c ∈ w, c ∉ specialChars) :
    isPlain w = true := by
  induction w with
  | nil => rfl
  | cons c w ih =>
    rw [List.forall_mem_cons] at h
    exact isPlain_cons_iff.mpr ⟨isPlainChar_of_notMem h.1 _, ih h.2⟩

namespace State

theorem step_of_isPlainChar {s : State} (hs : s.quoting = .unquoted) {c : Char}
    {next : Option Char} (hc : isPlainChar c next = true) (hcomment : s.current = none → c ≠ '#') :
    s.step c next = .ok (s.push c) := by
  simp only [isPlainChar, Bool.and_eq_true, Bool.not_eq_true'] at hc
  obtain ⟨⟨⟨⟨⟨hblank, hcontrol⟩, hredirection⟩, hquote⟩, hpattern⟩, hexpansion⟩ := hc
  have hbackslash : c ≠ '\\' := by
    rintro rfl
    exact absurd hquote (by decide)
  have hnot : ¬(c = '#' ∧ s.current = none) := fun h => hcomment h.2 h.1
  simp [step, hs, hblank, hcontrol, hredirection, hquote, hpattern, hexpansion, hbackslash, hnot]

/-! ### Sizes

Each character adds at most one to the size of the state, and quotes add nothing. So a text whose
words are as long as the text has no quotes. -/

/-- The characters of some words, with one more for the end of each word. -/
def wordsSize (words : List (List Char)) : ℕ := (words.map fun w => w.length + 1).sum

theorem wordsSize_append (words words' : List (List Char)) :
    wordsSize (words ++ words') = wordsSize words + wordsSize words' := by
  rw [wordsSize, List.map_append, List.sum_append]
  rfl

/-- A backslash in double quotes may stand for itself, which the next character decides. -/
def pending : Quoting → ℕ
  | .doubleEscaped => 1
  | _ => 0

/-- The size of what was read. -/
def size (s : State) : ℕ := wordsSize s.done + (s.current.getD []).length + pending s.quoting

theorem size_push (s : State) (c : Char) : (s.push c).size = s.size + 1 := by
  simp only [size, push, Option.getD_some, List.length_append, List.length_singleton]
  omega

theorem size_withQuoting (s : State) (quoting : Quoting) :
    (s.withQuoting quoting).size + pending s.quoting = s.size + pending quoting := by
  simp only [size, withQuoting]
  omega

theorem size_push_withQuoting (s : State) (c : Char) (quoting : Quoting) :
    ((s.push c).withQuoting quoting).size + pending s.quoting = s.size + 1 + pending quoting := by
  have hpush := s.size_push c
  have hset := (s.push c).size_withQuoting quoting
  rw [hpush] at hset
  exact hset

theorem size_endWord (s : State) :
    s.endWord.size = s.size + s.current.toList.length := by
  match hcurrent : s.current with
  | none => simp [size, endWord, hcurrent]
  | some w =>
    simp only [size, endWord, hcurrent, wordsSize_append]
    simp [wordsSize]
    omega

theorem size_openQuote (s : State) (quoting : Quoting) :
    (s.openQuote quoting).size + pending s.quoting = s.size + pending quoting := by
  simp only [size, openQuote, Option.getD_some]
  omega

theorem pending_quotingOf (c : Char) : pending (quotingOf c) = 0 := by
  unfold quotingOf
  split_ifs <;> rfl

/-- What an unquoted character does. -/
theorem step_unquoted {s s' : State} (hs : s.quoting = .unquoted) {c : Char} {next : Option Char}
    (h : s.step c next = .ok s') :
    (isBlank c = true ∧ s' = s.endWord) ∨
      (isPlainChar c next = true ∧ (s.current = none → c ≠ '#') ∧ s' = s.push c) ∨
      s'.size ≤ s.size := by
  simp only [step, hs] at h
  split_ifs at h with hblank hcontrol hredirection hbackslash hquote hexpansion hcomment
  · exact Or.inl ⟨hblank, (Except.ok.inj h).symm⟩
  · rw [← Except.ok.inj h]
    have hsize := s.size_withQuoting .escaped
    exact Or.inr (Or.inr (by simp only [pending] at hsize; omega))
  · rw [← Except.ok.inj h]
    have hsize := s.size_openQuote (quotingOf c)
    rw [pending_quotingOf] at hsize
    exact Or.inr (Or.inr (by omega))
  · rw [← Except.ok.inj h]
    have hsize := s.size_withQuoting .comment
    exact Or.inr (Or.inr (by simp only [pending] at hsize; omega))
  · refine Or.inr (Or.inl ⟨?_, fun hnone hc => hcomment ⟨hc, hnone⟩, (Except.ok.inj h).symm⟩)
    rw [Bool.or_eq_true, not_or] at hexpansion
    simp [isPlainChar, hblank, hcontrol, hredirection, hquote, hexpansion.1, hexpansion.2]

theorem size_step_le {s s' : State} {c : Char} {next : Option Char}
    (h : s.step c next = .ok s') : s'.size ≤ s.size + 1 := by
  have hpush := s.size_push c
  have hunquoted := s.size_withQuoting .unquoted
  have hdouble := s.size_withQuoting .double
  have hescaped := s.size_withQuoting .doubleEscaped
  have hpushUnquoted := s.size_push_withQuoting c .unquoted
  have hpushDouble := s.size_push_withQuoting c .double
  have hpushBoth := (s.push '\\').size_push_withQuoting c .double
  rw [size_push] at hpushBoth
  match hs : s.quoting with
  | .unquoted =>
    obtain ⟨-, rfl⟩ | ⟨-, -, rfl⟩ | hle := step_unquoted hs h
    · rw [size_endWord]
      cases s.current <;> simp
    · exact hpush.le
    · omega
  | .escaped | .single | .double | .doubleEscaped | .comment =>
    have hquoting : (s.push '\\').quoting = s.quoting := rfl
    simp only [hs, pending] at hunquoted hdouble hescaped hpushUnquoted hpushDouble
    simp only [hquoting, hs, pending] at hpushBoth
    simp only [step, hs] at h
    split_ifs at h <;> rw [← Except.ok.inj h] <;> omega

theorem size_run_le {s s' : State} {cs : List Char} (h : s.run cs = .ok s') :
    s'.size ≤ s.size + cs.length := by
  induction cs generalizing s with
  | nil =>
    rw [← Except.ok.inj h]
    exact le_rfl
  | cons c cs ih =>
    rw [run] at h
    split at h
    · exact absurd h (by simp)
    · next t ht =>
      have hstep := size_step_le ht
      have hrest := ih h
      rw [List.length_cons]
      omega

/-- The words of a text are not longer than the text. -/
theorem wordsSize_le_of_finish_eq_ok {s : State} {words : List (List Char)}
    (h : s.finish = .ok words) : wordsSize words ≤ s.size + 1 := by
  have hwords : words = s.endWord.done := by
    unfold finish at h
    split at h
    · exact (Except.ok.inj h).symm
    · exact (Except.ok.inj h).symm
    · exact absurd h (by simp)
  have hsize := s.size_endWord
  have hle : wordsSize s.endWord.done ≤ s.endWord.size := by
    simp only [size]
    omega
  have hcurrent : s.current.toList.length ≤ 1 := by
    cases s.current <;> simp
  rw [hwords]
  omega

/-! ### Reading without quotes -/

/-- Part of a word, or a whole word, without blanks. -/
def IsWord (w : List Char) : Prop := w ≠ [] ∧ w.head? ≠ some '#' ∧ ∀ c ∈ w, isBlank c = false

/-- What is read of a text that has no quotes: every character is plain or a blank, and the words
contain no blanks. -/
structure Plainly (s : State) (cs : List Char) (s' : State) : Prop where
  quoting : s'.quoting = .unquoted
  current : ∀ w, s'.current = some w → IsWord w
  done : ∃ new, s'.done = s.done ++ new ∧ ∀ w ∈ new, IsWord w
  plain : ∀ front c back, cs = front ++ c :: back → isBlank c = true ∨
    isPlainChar c back.head? = true

theorem not_isBlank_of_isPlainChar {c : Char} {next : Option Char}
    (h : isPlainChar c next = true) : isBlank c = false := by
  simp only [isPlainChar, Bool.and_eq_true, Bool.not_eq_true'] at h
  exact h.1.1.1.1.1

/-- If every character adds to the size, then none of them is a quote. -/
theorem plainly_of_size_eq {s s' : State} {cs : List Char} (h : s.run cs = .ok s')
    (hs : s.quoting = .unquoted) (hcurrent : ∀ w, s.current = some w → IsWord w)
    (hsize : s'.size = s.size + cs.length) : s.Plainly cs s' := by
  induction cs generalizing s with
  | nil =>
    obtain rfl := Except.ok.inj h
    exact ⟨hs, hcurrent, ⟨[], (List.append_nil _).symm, by simp⟩, by simp⟩
  | cons c cs ih =>
    rw [run] at h
    split at h
    · exact absurd h (by simp)
    · next t ht =>
      have hrest := size_run_le h
      have hstep := size_step_le ht
      rw [List.length_cons] at hsize
      -- what holds of the first character and of the rest holds of all
      have hcons (hc : isBlank c = true ∨ isPlainChar c cs.head? = true)
          (hplain : ∀ front d back, cs = front ++ d :: back → isBlank d = true ∨
            isPlainChar d back.head? = true) :
          ∀ front d back, c :: cs = front ++ d :: back → isBlank d = true ∨
            isPlainChar d back.head? = true := by
        intro front d back heq
        match front with
        | [] =>
          obtain ⟨rfl, rfl⟩ := List.cons.inj heq
          exact hc
        | _ :: front => exact hplain front d back (List.cons.inj heq).2
      -- a blank ends the word, a plain character extends it, any other one loses size
      obtain ⟨hblank, rfl⟩ | ⟨hplain, hcomment, rfl⟩ | hle := step_unquoted hs ht
      · obtain ⟨hquoting, hcurrent', ⟨new, hdone, hnew⟩, hall⟩ :=
          ih h hs (fun w hw => absurd hw (by simp [endWord])) (by omega)
        refine ⟨hquoting, hcurrent', ⟨s.current.toList ++ new, ?_, ?_⟩, hcons (Or.inl hblank) hall⟩
        · rw [hdone, endWord, List.append_assoc]
        · intro w hw
          obtain hw | hw := List.mem_append.mp hw
          · exact hcurrent w (Option.mem_toList.mp hw)
          · exact hnew w hw
      · have hword : ∀ w, (s.push c).current = some w → IsWord w := by
          intro w hw
          obtain rfl := Option.some.inj hw
          match hcur : s.current with
          | none =>
            exact ⟨by simp, by simpa using hcomment hcur, by
              simpa using not_isBlank_of_isPlainChar hplain⟩
          | some v =>
            obtain ⟨hne, hhead, hblank⟩ := hcurrent v hcur
            refine ⟨by simp, ?_, ?_⟩
            · rw [Option.getD_some, List.head?_append_of_ne_nil _ hne]
              exact hhead
            · intro d hd
              obtain hd | hd := List.mem_append.mp hd
              · exact hblank d hd
              · rw [List.mem_singleton.mp hd]
                exact not_isBlank_of_isPlainChar hplain
        obtain ⟨hquoting, hcurrent', hdone, hall⟩ := ih h hs hword (by omega)
        exact ⟨hquoting, hcurrent', hdone, hcons (Or.inr hplain) hall⟩
      · omega

/-! ### Reading plain words and quoted parts -/

/-- Several characters of a word. -/
def pushAll (s : State) (w : List Char) : State := w.foldl push s

theorem pushAll_eq (s : State) {w : List Char} (hne : w ≠ []) :
    s.pushAll w = { s with current := some (s.current.getD [] ++ w) } := by
  induction w generalizing s with
  | nil => exact absurd rfl hne
  | cons c w ih =>
    match w with
    | [] => rfl
    | d :: w =>
      have hrest := ih (s.push c) (List.cons_ne_nil d w)
      rw [pushAll, List.foldl_cons]
      rw [pushAll] at hrest
      rw [hrest]
      simp [push]

/-- A plain text is read as it is, if its last dollar sign is not in front of other text. -/
theorem run_append_of_isPlain {s : State} (hs : s.quoting = .unquoted) {w rest : List Char}
    (hplain : isPlain w = true) (hcomment : s.current = none → w.head? ≠ some '#')
    (hrest : '$' ∉ w ∨ rest = [] ∨ rest.head? = some ' ') :
    s.run (w ++ rest) = (s.pushAll w).run rest := by
  induction w generalizing s with
  | nil => rfl
  | cons c w ih =>
    obtain ⟨hc, hw⟩ := isPlain_cons_iff.mp hplain
    have hnext : isPlainChar c (w ++ rest).head? = true := by
      match w with
      | d :: w => exact hc
      | [] =>
        obtain hdollar | rfl | hhead := hrest
        · rw [isPlainChar_of_ne_dollar (by simpa [eq_comm] using hdollar)]
          exact hc
        · exact hc
        · rw [List.nil_append, hhead, isPlainChar_some_blank]
          exact hc
    have hhash : s.current = none → c ≠ '#' := fun hnone heq => hcomment hnone (by simp [heq])
    rw [List.cons_append, run, step_of_isPlainChar hs hnext hhash]
    exact ih (s := s.push c) hs hw (fun hnone => absurd hnone (by simp [push]))
      (hrest.imp_left fun hdollar hmem => hdollar (List.mem_cons_of_mem c hmem))

theorem run_single {s : State} (hs : s.quoting = .single) {q rest : List Char} (hq : '\'' ∉ q) :
    s.run (q ++ '\'' :: rest) = ((s.pushAll q).withQuoting .unquoted).run rest := by
  induction q generalizing s with
  | nil => simp [run, step, hs, pushAll]
  | cons c q ih =>
    rw [List.mem_cons, not_or] at hq
    have hstep (next : Option Char) : s.step c next = .ok (s.push c) := by
      simp [step, hs, Ne.symm hq.1]
    rw [List.cons_append, run, hstep]
    exact ih (s := s.push c) hs hq.2

/-- A text in single quotes is read without the quotes. -/
theorem run_quoted {s : State} (hs : s.quoting = .unquoted) {q rest : List Char}
    (hq : '\'' ∉ q) :
    s.run ('\'' :: (q ++ '\'' :: rest)) =
      { s with current := some (s.current.getD [] ++ q) : State }.run rest := by
  have hopen (next : Option Char) : s.step '\'' next = .ok (s.openQuote .single) := by
    simp [step, hs, isBlank, isControlOperator, isRedirection, isQuote, quotingOf]
  have hstate : ((s.openQuote .single).pushAll q).withQuoting .unquoted =
      { s with current := some (s.current.getD [] ++ q) } := by
    match q with
    | [] => simp [pushAll, openQuote, withQuoting, hs]
    | c :: q =>
      rw [pushAll_eq _ (List.cons_ne_nil c q)]
      simp [openQuote, withQuoting, hs]
  rw [run, hopen]
  dsimp only
  rw [run_single rfl hq, hstate]

/-- The blank after a word. -/
theorem run_blank {s : State} (hs : s.quoting = .unquoted) (rest : List Char) :
    s.run (' ' :: rest) = s.endWord.run rest := by
  have hstep (next : Option Char) : s.step ' ' next = .ok s.endWord := by
    simp [step, hs, isBlank]
  rw [run, hstep]

/-- A plain word with the blank after it. -/
theorem run_plainWord {s : State} (hs : s.quoting = .unquoted) (hcurrent : s.current = none)
    {w : List Char} (hw : IsPlainWord w) (rest : List Char) :
    s.run (w ++ ' ' :: rest) = { s with done := s.done ++ [w] : State }.run rest := by
  obtain ⟨hne, hhead, hplain⟩ := hw
  rw [run_append_of_isPlain hs hplain (fun _ => hhead) (Or.inr (Or.inr rfl)), pushAll_eq s hne]
  rw [run_blank (s := { s with current := some (s.current.getD [] ++ w) }) hs]
  simp [endWord, hcurrent]

end State

open State

theorem wordsFrom_plainWord {s : State} (hs : s.quoting = .unquoted) (hcurrent : s.current = none)
    {w : List Char} (hw : IsPlainWord w) (rest : List Char) :
    wordsFrom s (w ++ ' ' :: rest) = wordsFrom { s with done := s.done ++ [w] } rest := by
  rw [wordsFrom, run_plainWord hs hcurrent hw]
  rfl

/-- A word with a part in single quotes. -/
theorem wordsFrom_quoted {s : State} (hs : s.quoting = .unquoted) (hcurrent : s.current = none)
    {w q : List Char} (hw : IsPlainWord w) (hdollar : '$' ∉ w) (hq : '\'' ∉ q)
    (rest : List Char) :
    wordsFrom s (w ++ '\'' :: (q ++ '\'' :: ' ' :: rest)) =
      wordsFrom { s with done := s.done ++ [w ++ q] } rest := by
  obtain ⟨hne, hhead, hplain⟩ := hw
  rw [wordsFrom, run_append_of_isPlain hs hplain (fun _ => hhead) (Or.inl hdollar),
    pushAll_eq s hne, run_quoted (s := { s with current := some (s.current.getD [] ++ w) }) hs hq,
    run_blank (by exact hs)]
  simp [wordsFrom, endWord, hcurrent]

/-- Plain words that are joined with blanks are read back. -/
theorem wordsFrom_intercalate {s : State} (hs : s.quoting = .unquoted) (hcurrent : s.current = none)
    {ws : List (List Char)} (h : ∀ w ∈ ws, IsPlainWord w) :
    wordsFrom s ([' '].intercalate ws) = .ok (s.done ++ ws) := by
  induction ws generalizing s with
  | nil => simp [wordsFrom, run, finish, hs, endWord, hcurrent]
  | cons w ws ih =>
    rw [List.forall_mem_cons] at h
    match ws with
    | [] =>
      obtain ⟨hne, hhead, hplain⟩ := h.1
      have hrun := run_append_of_isPlain hs hplain (fun _ => hhead) (Or.inr (Or.inl rfl))
      rw [List.append_nil, pushAll_eq s hne] at hrun
      simp [wordsFrom, hrun, run, finish, hs, endWord, hcurrent]
    | v :: ws =>
      have hrest := ih (s := { s with done := s.done ++ [w] }) hs hcurrent h.2
      rw [List.append_assoc, List.singleton_append] at hrest
      rw [List.intercalate_cons_cons, List.append_assoc, List.singleton_append, wordsFrom,
        run_plainWord hs hcurrent h.1]
      exact hrest

theorem isPlain_iff {w : List Char} :
    isPlain w = true ↔ ∀ front c back, w = front ++ c :: back →
      isPlainChar c back.head? = true := by
  induction w with
  | nil => simp [isPlain]
  | cons d w ih =>
    rw [isPlain_cons_iff, ih]
    constructor
    · rintro ⟨hd, hw⟩ front c back heq
      match front with
      | [] =>
        obtain ⟨rfl, rfl⟩ := List.cons.inj heq
        exact hd
      | _ :: front => exact hw front c back (List.cons.inj heq).2
    · intro h
      exact ⟨h [] d w rfl, fun front c back heq => h (d :: front) c back (by rw [heq]; rfl)⟩

/-- A word of a text is followed by a blank or by the end. -/
theorem exists_intercalate_eq {ws : List (List Char)} {w : List Char} (hw : w ∈ ws) :
    ∃ front back, [' '].intercalate ws = front ++ (w ++ back) ∧
      (back = [] ∨ back.head? = some ' ') := by
  induction ws with
  | nil => exact absurd hw List.not_mem_nil
  | cons v ws ih =>
    match ws, hw with
    | [], hw =>
      obtain rfl := List.mem_singleton.mp hw
      exact ⟨[], [], by simp, Or.inl rfl⟩
    | u :: ws, hw =>
      rw [List.intercalate_cons_cons]
      obtain rfl | hw := List.mem_cons.mp hw
      · exact ⟨[], ' ' :: [' '].intercalate (u :: ws), by simp, Or.inr rfl⟩
      · obtain ⟨front, back, heq, hback⟩ := ih hw
        exact ⟨v ++ [' '] ++ front, back, by simp [heq], hback⟩

theorem wordsSize_eq_length_intercalate {ws : List (List Char)} (hne : ws ≠ []) :
    wordsSize ws = ([' '].intercalate ws).length + 1 := by
  induction ws with
  | nil => exact absurd rfl hne
  | cons w ws ih =>
    match ws with
    | [] => simp [wordsSize]
    | v :: ws =>
      have hrest := ih (List.cons_ne_nil v ws)
      have hcons : wordsSize (w :: v :: ws) = w.length + 1 + wordsSize (v :: ws) := by
        simp [wordsSize]
      rw [hcons, hrest, List.intercalate_cons_cons, List.length_append, List.length_append,
        List.length_singleton]
      omega

/-- **Joined words are read back iff they are plain.** -/
theorem wordsFrom_intercalate_iff {s : State} (hs : s.quoting = .unquoted)
    (hcurrent : s.current = none) {ws : List (List Char)} :
    wordsFrom s ([' '].intercalate ws) = .ok (s.done ++ ws) ↔ ∀ w ∈ ws, IsPlainWord w := by
  refine ⟨fun h => ?_, wordsFrom_intercalate hs hcurrent⟩
  by_cases hne : ws = []
  · simp [hne]
  unfold wordsFrom at h
  split at h
  · exact absurd h (by simp)
  · next s' hrun =>
    -- the words are as long as the text
    have hlength := wordsSize_eq_length_intercalate hne
    have hfinish := wordsSize_le_of_finish_eq_ok h
    have hle := size_run_le hrun
    have hsize : s.size = wordsSize s.done := by
      simp [size, hs, hcurrent, pending]
    rw [wordsSize_append] at hfinish
    obtain ⟨hquoting, hcur, ⟨new, hdone, hnew⟩, hplain⟩ :=
      plainly_of_size_eq hrun hs (by simp [hcurrent]) (by omega)
    have hws : ws = new ++ s'.current.toList := by
      simp only [finish, hquoting, endWord, hdone, List.append_assoc] at h
      exact (List.append_cancel_left (Except.ok.inj h)).symm
    intro w hw
    have hword : IsWord w := by
      rw [hws] at hw
      obtain hw | hw := List.mem_append.mp hw
      · exact hnew w hw
      · exact hcur w (Option.mem_toList.mp hw)
    obtain ⟨hwne, hhead, hblank⟩ := hword
    refine ⟨hwne, hhead, isPlain_iff.mpr fun front c back heq => ?_⟩
    obtain ⟨before, after, htext, hafter⟩ := exists_intercalate_eq hw
    have hc : isPlainChar c (back ++ after).head? = true := by
      refine (hplain (before ++ front) c (back ++ after) ?_).resolve_left ?_
      · rw [htext, heq]
        simp
      · rw [hblank c (by simp [heq])]
        simp
    match back with
    | d :: back => exact hc
    | [] =>
      obtain rfl | hafter := hafter
      · exact hc
      · rwa [List.nil_append, hafter, isPlainChar_some_blank] at hc

end Shell
