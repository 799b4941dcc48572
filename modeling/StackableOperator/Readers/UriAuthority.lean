import Mathlib
import StackableOperator.ForMathlib.CodeUnits
import StackableOperator.ForMathlib.SplitOn

/-!
# Authorities of URIs

An authority is a host with an optional port behind it and optional user information before it. A
host is the text of an IP address in brackets or a registered name, which has no colons. So
`readUriAuthority` finds the parts of an authority without looking back, and it reads exactly the
texts of well-formed authorities (`readUriAuthority_eq_some_iff`).
-/

namespace StackableOperator

/-! ### The grammar -/

/-- The characters that need no encoding: letters, digits and some marks. -/
def isUriNameChar (c : Char) : Bool :=
  c.isAlphanum ||
    ['-', '.', '_', '~', '!', '$', '&', '\'', '(', ')', '*', '+', ',', ';', '='].contains c

/-- The characters are in a class or encoded. -/
def isUriComponent (isChar : Char → Bool) : List Char → Bool
  | '%' :: a :: b :: cs => isHexDigit a && isHexDigit b && isUriComponent isChar cs
  | c :: cs => isChar c && isUriComponent isChar cs
  | [] => true

/-- The characters of user information. In a template there are placeholders in braces. -/
def isUserinfoChar (c : Char) : Bool := isUriNameChar c || c == ':' || c == '{' || c == '}'

def isUserinfo : List Char → Bool := isUriComponent isUserinfoChar

/-- The text of an IP address in brackets, or a registered name. -/
def isUriHost : List Char → Bool
  | '[' :: cs => cs.getLast? == some ']' && cs.dropLast.all fun c => isUriNameChar c || c == ':'
  | cs => isUriComponent isUriNameChar cs

structure UriAuthority where
  userinfo : Option (List Char)
  host : List Char
  port : Option (List Char)
  deriving DecidableEq

namespace UriAuthority

structure IsWellFormed (authority : UriAuthority) : Prop where
  userinfo : ∀ userinfo ∈ authority.userinfo, isUserinfo userinfo = true
  host : isUriHost authority.host = true
  port : ∀ port ∈ authority.port, port.all Char.isDigit = true

def hostPortText (self : UriAuthority) : List Char :=
  self.host ++ self.port.elim [] fun port => ':' :: port

def text (self : UriAuthority) : List Char :=
  (self.userinfo.elim [] fun userinfo => userinfo ++ ['@']) ++ self.hostPortText

end UriAuthority

/-! ### The reader -/

/-- Split a text behind its host. -/
def splitUriHost : List Char → List Char × List Char
  | '[' :: cs => ('[' :: (cs.takeWhile (· ≠ ']') ++ (cs.dropWhile (· ≠ ']')).take 1),
      (cs.dropWhile (· ≠ ']')).drop 1)
  | cs => (cs.takeWhile (· ≠ ':'), cs.dropWhile (· ≠ ':'))

def readUriPort : List Char → Option (Option (List Char))
  | [] => some none
  | ':' :: digits => if digits.all Char.isDigit then some (some digits) else none
  | _ => none

def readUriHostPort (userinfo : Option (List Char)) (cs : List Char) : Option UriAuthority :=
  match readUriPort (splitUriHost cs).2 with
  | some port =>
    if isUriHost (splitUriHost cs).1 then some ⟨userinfo, (splitUriHost cs).1, port⟩ else none
  | none => none

def readUriAuthority (cs : List Char) : Option UriAuthority :=
  match splitOnce '@' cs with
  | some (userinfo, cs) => if isUserinfo userinfo then readUriHostPort (some userinfo) cs else none
  | none => readUriHostPort none cs

/-- The scheme and the authority of a URI. -/
def readUri (cs : List Char) : Option (List Char × UriAuthority) :=
  match splitOnce ':' cs with
  | some (scheme, '/' :: '/' :: cs) =>
    (readUriAuthority (cs.takeWhile fun c => c ≠ '/' && c ≠ '?' && c ≠ '#')).map (scheme, ·)
  | _ => none

example :
    (readUri "redis://user:pass@[::1]:42/0".toList).map (fun uri => (uri.2.host, uri.2.port)) =
      some ("[::1]".toList, some ['4', '2']) := by decide

example : readUri "redis://user:pass@::1:42/0".toList = none := by decide

/-! ### The reader and the grammar -/

theorem isUriComponent_of_all {isChar : Char → Bool} {cs : List Char}
    (h : ∀ c ∈ cs, isChar c = true) (hpercent : '%' ∉ cs) : isUriComponent isChar cs = true := by
  induction cs with
  | nil => rfl
  | cons c cs ih =>
    rw [List.mem_cons, not_or] at hpercent
    rw [isUriComponent]
    · rw [h c List.mem_cons_self, ih (fun d hd => h d (List.mem_cons_of_mem c hd)) hpercent.2]
      rfl
    · rintro a b ds rfl -
      exact hpercent.1 rfl

theorem mem_of_isUriComponent {isChar : Char → Bool} {cs : List Char}
    (h : isUriComponent isChar cs = true) {c : Char} (hc : c ∈ cs) :
    isChar c = true ∨ c = '%' ∨ isHexDigit c = true := by
  induction cs using isUriComponent.induct with
  | case1 a b ds ih =>
    simp only [isUriComponent, Bool.and_eq_true] at h
    obtain ⟨⟨ha, hb⟩, hds⟩ := h
    simp only [List.mem_cons] at hc
    obtain rfl | rfl | rfl | hc := hc
    · exact Or.inr (Or.inl rfl)
    · exact Or.inr (Or.inr ha)
    · exact Or.inr (Or.inr hb)
    · exact ih hds hc
  | case2 d ds hne ih =>
    rw [isUriComponent] at h
    · rw [Bool.and_eq_true] at h
      obtain rfl | hc := List.mem_cons.mp hc
      · exact Or.inl h.1
      · exact ih h.2 hc
    · exact hne
  | case3 => exact absurd hc List.not_mem_nil

theorem not_mem_of_isUriComponent {isChar : Char → Bool} {cs : List Char} {c : Char}
    (h : isUriComponent isChar cs = true) (hc : isChar c = false) (hpercent : c ≠ '%')
    (hhex : isHexDigit c = false) : c ∉ cs := by
  intro hmem
  obtain hchar | hpercent' | hhex' := mem_of_isUriComponent h hmem
  · exact absurd (hc.symm.trans hchar) Bool.false_ne_true
  · exact hpercent hpercent'
  · exact absurd (hhex.symm.trans hhex') Bool.false_ne_true

/-- A host is a literal in brackets or a registered name. -/
theorem isUriHost_cases {host : List Char} (h : isUriHost host = true) :
    (∃ literal, host = '[' :: (literal ++ [']']) ∧
      ∀ c ∈ literal, (isUriNameChar c || c == ':') = true) ∨
    host.head? ≠ some '[' ∧ isUriComponent isUriNameChar host = true := by
  cases host with
  | nil => exact Or.inr ⟨by simp, rfl⟩
  | cons c cs =>
    by_cases hc : c = '['
    · subst hc
      simp only [isUriHost, Bool.and_eq_true, beq_iff_eq, List.all_eq_true] at h
      obtain ⟨hlast, hall⟩ := h
      exact Or.inl ⟨cs.dropLast, by rw [List.dropLast_append_getLast? ']' hlast], hall⟩
    · rw [isUriHost] at h
      · exact Or.inr ⟨by simpa using hc, h⟩
      · rintro ds hds
        exact hc (List.cons.inj hds).1

theorem at_not_mem_of_isUriHost {host : List Char} (h : isUriHost host = true) : '@' ∉ host := by
  obtain ⟨literal, rfl, hall⟩ | ⟨-, hname⟩ := isUriHost_cases h
  · intro hmem
    simp only [List.mem_cons, List.mem_append, List.not_mem_nil, or_false] at hmem
    obtain hbad | hmem | hbad := hmem
    · exact absurd hbad (by decide)
    · exact absurd (hall '@' hmem) (by decide)
    · exact absurd hbad (by decide)
  · exact not_mem_of_isUriComponent hname (by decide) (by decide) (by decide)

theorem splitUriHost_append (cs : List Char) : (splitUriHost cs).1 ++ (splitUriHost cs).2 = cs := by
  unfold splitUriHost
  split
  · rw [List.cons_append, List.append_assoc, List.take_append_drop, List.takeWhile_append_dropWhile]
  · exact List.takeWhile_append_dropWhile

/-- A host is found before a port. -/
theorem splitUriHost_of_isUriHost {host after : List Char} (h : isUriHost host = true)
    (hafter : after.head? = none ∨ after.head? = some ':') :
    splitUriHost (host ++ after) = (host, after) := by
  obtain ⟨literal, rfl, hall⟩ | ⟨hhead, hname⟩ := isUriHost_cases h
  -- a literal ends at its bracket, any other host at the colon
  · have hpos : ∀ c ∈ literal, decide (c ≠ ']') = true := by
      intro c hc
      refine decide_eq_true fun heq => ?_
      rw [heq] at hc
      exact absurd (hall ']' hc) (by decide)
    have hsplit : (literal ++ [']']) ++ after = literal ++ ']' :: after := by simp
    rw [List.cons_append, splitUriHost, hsplit, List.takeWhile_append_of_pos hpos,
      List.dropWhile_append_of_pos hpos, List.takeWhile_cons_of_neg (by decide),
      List.dropWhile_cons_of_neg (by decide), List.append_nil]
    rfl
  · have hpos : ∀ c ∈ host, decide (c ≠ ':') = true := by
      intro c hc
      refine decide_eq_true fun heq => ?_
      rw [heq] at hc
      exact not_mem_of_isUriComponent hname (by decide) (by decide) (by decide) hc
    have hfirst : ∀ cs, host ++ after = '[' :: cs → False := by
      intro cs heq
      cases host with
      | nil =>
        rw [List.nil_append] at heq
        simp [heq] at hafter
      | cons c host =>
        obtain ⟨rfl, -⟩ := List.cons.inj heq
        exact hhead rfl
    rw [splitUriHost.eq_2 _ hfirst, List.takeWhile_append_of_pos hpos,
      List.dropWhile_append_of_pos hpos]
    cases after with
    | nil => simp
    | cons c after =>
      obtain rfl : c = ':' := by simpa using hafter
      rw [List.takeWhile_cons_of_neg (by decide), List.dropWhile_cons_of_neg (by decide),
        List.append_nil]

theorem readUriPort_eq_some_iff {cs : List Char} {port : Option (List Char)} :
    readUriPort cs = some port ↔
      (∀ digits ∈ port, digits.all Char.isDigit = true) ∧
        (port.elim [] fun digits => ':' :: digits) = cs := by
  constructor
  · intro h
    unfold readUriPort at h
    split at h
    · obtain rfl := Option.some.inj h
      exact ⟨by simp, rfl⟩
    · rename_i digits
      split_ifs at h with hdigits
      obtain rfl := Option.some.inj h
      exact ⟨by simpa using hdigits, rfl⟩
    · cases h
  · rintro ⟨hdigits, rfl⟩
    cases port with
    | none => rfl
    | some digits => exact if_pos (hdigits digits rfl)

theorem readUriHostPort_eq_some_iff {userinfo : Option (List Char)} {cs : List Char}
    {authority : UriAuthority} : readUriHostPort userinfo cs = some authority ↔
      authority.userinfo = userinfo ∧ isUriHost authority.host = true ∧
        (∀ port ∈ authority.port, port.all Char.isDigit = true) ∧ authority.hostPortText = cs := by
  constructor
  · intro h
    unfold readUriHostPort at h
    split at h
    · rename_i port hport
      split_ifs at h with hhost
      obtain rfl := Option.some.inj h
      obtain ⟨hdigits, hafter⟩ := readUriPort_eq_some_iff.mp hport
      refine ⟨rfl, hhost, hdigits, ?_⟩
      rw [UriAuthority.hostPortText, hafter, splitUriHost_append]
    · cases h
  · rintro ⟨rfl, hhost, hdigits, rfl⟩
    have hafter : (authority.port.elim [] fun port => ':' :: port).head? = none ∨
        (authority.port.elim [] fun port => ':' :: port).head? = some ':' := by
      cases authority.port with
      | none => exact Or.inl rfl
      | some digits => exact Or.inr rfl
    have hport := readUriPort_eq_some_iff.mpr ⟨hdigits, rfl⟩
    rw [readUriHostPort, UriAuthority.hostPortText, splitUriHost_of_isUriHost hhost hafter]
    simp only [hport, hhost, if_true]

theorem at_not_mem_hostPortText {authority : UriAuthority} (hhost : isUriHost authority.host = true)
    (hdigits : ∀ port ∈ authority.port, port.all Char.isDigit = true) :
    '@' ∉ authority.hostPortText := by
  rw [UriAuthority.hostPortText, List.mem_append, not_or]
  refine ⟨at_not_mem_of_isUriHost hhost, ?_⟩
  cases hport : authority.port with
  | none => exact List.not_mem_nil
  | some digits =>
    intro hmem
    obtain hbad | hmem := List.mem_cons.mp hmem
    · exact absurd hbad (by decide)
    · exact absurd (List.all_eq_true.mp (hdigits digits hport) '@' hmem) (by decide)

theorem eq_append_of_splitOnce {s front rest : List Char} {a : Char}
    (h : splitOnce a s = some (front, rest)) : s = front ++ a :: rest := by
  unfold splitOnce at h
  have hsplit := List.takeWhile_append_dropWhile (p := fun c => decide (c ≠ a)) (l := s)
  cases hdrop : s.dropWhile (· ≠ a) with
  | nil =>
    rw [hdrop] at h
    cases h
  | cons c tail =>
    rw [hdrop] at h hsplit
    have hhead := List.head?_dropWhile_not (fun c => decide (c ≠ a)) s
    rw [hdrop] at hhead
    obtain rfl : c = a := by simpa using hhead
    obtain ⟨rfl, rfl⟩ := Prod.mk.inj (Option.some.inj h)
    exact hsplit.symm

/-- **The reader reads exactly the texts of well-formed authorities.** -/
theorem readUriAuthority_eq_some_iff {cs : List Char} {authority : UriAuthority} :
    readUriAuthority cs = some authority ↔ authority.IsWellFormed ∧ authority.text = cs := by
  constructor
  · intro h
    unfold readUriAuthority at h
    split at h
    · rename_i userinfo rest hsplit
      split_ifs at h with huserinfo
      obtain ⟨hinfo, hhost, hport, rfl⟩ := readUriHostPort_eq_some_iff.mp h
      refine ⟨⟨by simpa [hinfo] using huserinfo, hhost, hport⟩, ?_⟩
      rw [eq_append_of_splitOnce hsplit, UriAuthority.text, hinfo, Option.elim_some,
        List.append_assoc, List.singleton_append]
    · obtain ⟨hinfo, hhost, hport, rfl⟩ := readUriHostPort_eq_some_iff.mp h
      refine ⟨⟨by simp [hinfo], hhost, hport⟩, ?_⟩
      rw [UriAuthority.text, hinfo]
      rfl
  · rintro ⟨hwell, rfl⟩
    have hread (userinfo : Option (List Char)) (h : authority.userinfo = userinfo) :
        readUriHostPort userinfo authority.hostPortText = some authority :=
      readUriHostPort_eq_some_iff.mpr ⟨h, hwell.host, hwell.port, rfl⟩
    cases hinfo : authority.userinfo with
    | none =>
      rw [readUriAuthority, UriAuthority.text, hinfo, Option.elim_none, List.nil_append,
        splitOnce_eq_none (at_not_mem_hostPortText hwell.host hwell.port)]
      exact hread none hinfo
    | some userinfo =>
      have huserinfo := hwell.userinfo userinfo hinfo
      have hat : '@' ∉ userinfo :=
        not_mem_of_isUriComponent huserinfo (by decide) (by decide) (by decide)
      rw [readUriAuthority, UriAuthority.text, hinfo, Option.elim_some, List.append_assoc,
        List.singleton_append, splitOnce_append hat]
      simp only [huserinfo, if_true]
      exact hread (some userinfo) hinfo

/-- An authority is read from a URI with any path, query and fragment. -/
theorem readUri_append {scheme authority rest : List Char} (hscheme : ':' ∉ scheme)
    (hauthority : ∀ c ∈ authority, c ≠ '/' ∧ c ≠ '?' ∧ c ≠ '#')
    (hrest : ∀ c ∈ rest.head?, c = '/' ∨ c = '?' ∨ c = '#') :
    readUri (scheme ++ ':' :: '/' :: '/' :: (authority ++ rest)) =
      (readUriAuthority authority).map (scheme, ·) := by
  have hpos : ∀ c ∈ authority, (c ≠ '/' && c ≠ '?' && c ≠ '#') = true := by
    intro c hc
    obtain ⟨h1, h2, h3⟩ := hauthority c hc
    simp [h1, h2, h3]
  have hneg : rest.takeWhile (fun c => c ≠ '/' && c ≠ '?' && c ≠ '#') = [] := by
    cases rest with
    | nil => rfl
    | cons c cs =>
      refine List.takeWhile_cons_of_neg ?_
      obtain rfl | rfl | rfl := hrest c rfl <;> decide
  simp only [readUri, splitOnce_append hscheme]
  rw [List.takeWhile_append_of_pos hpos, hneg, List.append_nil]

theorem delimiters_notMem_of_isUriComponent {isChar : Char → Bool} {cs : List Char}
    (h : isUriComponent isChar cs = true) (hslash : isChar '/' = false)
    (hquestion : isChar '?' = false) (hhash : isChar '#' = false) :
    ∀ c ∈ cs, c ≠ '/' ∧ c ≠ '?' ∧ c ≠ '#' := by
  intro c hc
  refine ⟨?_, ?_, ?_⟩
  · rintro rfl
    exact not_mem_of_isUriComponent h hslash (by decide) (by decide) hc
  · rintro rfl
    exact not_mem_of_isUriComponent h hquestion (by decide) (by decide) hc
  · rintro rfl
    exact not_mem_of_isUriComponent h hhash (by decide) (by decide) hc

/-- An authority has no delimiters of the parts around it. -/
theorem delimiters_notMem_text {authority : UriAuthority} (h : authority.IsWellFormed) :
    ∀ c ∈ authority.text, c ≠ '/' ∧ c ≠ '?' ∧ c ≠ '#' := by
  intro c hc
  rw [UriAuthority.text, UriAuthority.hostPortText, List.mem_append, List.mem_append] at hc
  obtain hc | hc | hc := hc
  · cases hinfo : authority.userinfo with
    | none =>
      rw [hinfo] at hc
      exact absurd hc List.not_mem_nil
    | some userinfo =>
      rw [hinfo, Option.elim_some, List.mem_append, List.mem_singleton] at hc
      obtain hc | rfl := hc
      · exact delimiters_notMem_of_isUriComponent (h.userinfo userinfo hinfo) (by decide)
          (by decide) (by decide) c hc
      · decide
  · obtain ⟨literal, hliteral, hall⟩ | ⟨-, hname⟩ := isUriHost_cases h.host
    · rw [hliteral, List.mem_cons, List.mem_append, List.mem_singleton] at hc
      obtain rfl | hc | rfl := hc
      · decide
      · have hchar := hall c hc
        refine ⟨?_, ?_, ?_⟩ <;> rintro rfl <;> exact absurd hchar (by decide)
      · decide
    · exact delimiters_notMem_of_isUriComponent hname (by decide) (by decide) (by decide) c hc
  · cases hport : authority.port with
    | none =>
      rw [hport] at hc
      exact absurd hc List.not_mem_nil
    | some digits =>
      rw [hport, Option.elim_some, List.mem_cons] at hc
      obtain rfl | hc := hc
      · decide
      · have hdigit := List.all_eq_true.mp (h.port digits hport) c hc
        refine ⟨?_, ?_, ?_⟩ <;> rintro rfl <;> exact absurd hdigit (by decide)

/-- **A well-formed authority is read from a URI.** -/
theorem readUri_text {scheme rest : List Char} {authority : UriAuthority}
    (h : authority.IsWellFormed) (hscheme : ':' ∉ scheme)
    (hrest : ∀ c ∈ rest.head?, c = '/' ∨ c = '?' ∨ c = '#') :
    readUri (scheme ++ ':' :: '/' :: '/' :: (authority.text ++ rest)) =
      some (scheme, authority) := by
  rw [readUri_append hscheme (delimiters_notMem_text h) hrest,
    readUriAuthority_eq_some_iff.mpr ⟨h, rfl⟩, Option.map_some]

/-- A host without brackets and a port have one colon. -/
theorem readUriAuthority_eq_none {userinfo : Option (List Char)} {cs : List Char}
    (hinfo : ∀ info ∈ userinfo, isUserinfo info = true) (hat : '@' ∉ cs)
    (hhead : cs.head? ≠ some '[') (hcolons : 2 ≤ cs.count ':') :
    readUriAuthority ((userinfo.elim [] fun info => info ++ ['@']) ++ cs) = none := by
  have hnone (userinfo : Option (List Char)) : readUriHostPort userinfo cs = none := by
    refine Option.eq_none_iff_forall_ne_some.mpr fun authority hread => ?_
    obtain ⟨-, hhost, hport, rfl⟩ := readUriHostPort_eq_some_iff.mp hread
    have hcolon : ':' ∉ authority.host := by
      obtain ⟨literal, hliteral, -⟩ | ⟨-, hname⟩ := isUriHost_cases hhost
      · rw [UriAuthority.hostPortText, hliteral] at hhead
        exact absurd rfl hhead
      · exact not_mem_of_isUriComponent hname (by decide) (by decide) (by decide)
    have hcount : (authority.port.elim [] fun port => ':' :: port).count ':' ≤ 1 := by
      cases hdigits : authority.port with
      | none => exact Nat.zero_le 1
      | some digits =>
        have hnot : ':' ∉ digits := fun hmem =>
          absurd (List.all_eq_true.mp (hport digits hdigits) ':' hmem) (by decide)
        rw [Option.elim_some, List.count_cons_self, List.count_eq_zero_of_not_mem hnot]
    rw [UriAuthority.hostPortText, List.count_append, List.count_eq_zero_of_not_mem hcolon]
      at hcolons
    omega
  cases userinfo with
  | none =>
    rw [Option.elim_none, List.nil_append, readUriAuthority, splitOnce_eq_none hat]
    exact hnone none
  | some info =>
    have hvalid := hinfo info rfl
    have hnot : '@' ∉ info := not_mem_of_isUriComponent hvalid (by decide) (by decide) (by decide)
    rw [Option.elim_some, List.append_assoc, List.singleton_append, readUriAuthority,
      splitOnce_append hnot]
    simp only [hvalid, if_true]
    exact hnone (some info)

/-- A URI whose host has colons, but no brackets, has no authority. -/
theorem readUri_eq_none {scheme cs rest : List Char} {userinfo : Option (List Char)}
    (hscheme : ':' ∉ scheme) (hinfo : ∀ info ∈ userinfo, isUserinfo info = true)
    (hcs : ∀ c ∈ cs, c ≠ '@' ∧ c ≠ '/' ∧ c ≠ '?' ∧ c ≠ '#') (hhead : cs.head? ≠ some '[')
    (hcolons : 2 ≤ cs.count ':') (hrest : ∀ c ∈ rest.head?, c = '/' ∨ c = '?' ∨ c = '#') :
    readUri (scheme ++ ':' :: '/' :: '/' ::
      (((userinfo.elim [] fun info => info ++ ['@']) ++ cs) ++ rest)) = none := by
  have hdelimiters : ∀ c ∈ (userinfo.elim [] fun info => info ++ ['@']) ++ cs,
      c ≠ '/' ∧ c ≠ '?' ∧ c ≠ '#' := by
    intro c hc
    obtain hc | hc := List.mem_append.mp hc
    · cases userinfo with
      | none => exact absurd hc List.not_mem_nil
      | some info =>
        obtain hc | hc := List.mem_append.mp hc
        · exact delimiters_notMem_of_isUriComponent (hinfo info rfl) (by decide) (by decide)
            (by decide) c hc
        · rw [List.mem_singleton.mp hc]
          decide
    · exact (hcs c hc).2
  have hat : '@' ∉ cs := fun hmem => (hcs '@' hmem).1 rfl
  rw [readUri_append hscheme hdelimiters hrest, readUriAuthority_eq_none hinfo hat hhead hcolons,
    Option.map_none]

end StackableOperator
