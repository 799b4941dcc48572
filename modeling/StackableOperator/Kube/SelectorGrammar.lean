import Mathlib
import StackableOperator.Readers.MaximalMunch
import StackableOperator.Kvp.KeyFromStr

/-!
# The grammar of label selectors

The texts in which the Kubernetes API takes label selectors: requirements between commas, each one
a key with an operator and a value or a set of values in parentheses. Values may be empty.

`parse` reads such a text. `parse_of_lex` reads back requirements that are spelled out
(`Requirement.tokens`).
-/

namespace StackableOperator

namespace SelectorGrammar

/-! ### Requirements -/

inductive Operator : Type
  | inSet
  | notInSet
  | equals
  | doubleEquals
  | notEquals
  | exist
  | doesNotExist
  deriving DecidableEq

/-- A requirement on the value of one label. -/
structure Requirement where
  key : String
  operator : Operator
  values : List String
  deriving DecidableEq

/-- What a requirement says about the labels of an object. -/
def Requirement.Matches (self : Requirement) (label? : String → Option String) : Prop :=
  match self.operator with
  | .inSet | .equals | .doubleEquals => ∃ value ∈ self.values, label? self.key = some value
  | .notInSet | .notEquals => ∀ value ∈ self.values, label? self.key ≠ some value
  | .exist => label? self.key ≠ none
  | .doesNotExist => label? self.key = none

/-- A name of at most 63 characters. -/
def isQualifiedNamePart (s : List Char) : Bool := Kvp.matchesName s && s.length ≤ 63

/-- A label key is a name, perhaps with a DNS subdomain and a slash in front of it. -/
def isLabelKey (key : String) : Bool :=
  match key.toList.splitOn '/' with
  | [name] => isQualifiedNamePart name
  | [front, name] =>
    Validation.matchesLowercaseRfc1123Subdomain front && front.length ≤ 253 &&
      isQualifiedNamePart name
  | _ => false

/-- A label value is empty or a name. -/
def isLabelValue (value : String) : Bool := value.isEmpty || isQualifiedNamePart value.toList

/-! ### Tokens -/

inductive Token : Type
  | word (s : String)
  | equals
  | doubleEquals
  | notEquals
  | doesNotExist
  | openPar
  | closedPar
  | comma
  | greaterThan
  | lessThan
  deriving DecidableEq

def isBlank (c : Char) : Bool := c = ' ' || c = '\t' || c = '\r' || c = '\n'

def specialSymbols : List Char := ['=', '!', '(', ')', ',', '>', '<']

/-- The characters of keys, values and the words `in` and `notin`. -/
def isWordChar (c : Char) : Bool := !isBlank c && !specialSymbols.contains c

/-- Words are as long as possible, and an equals sign joins another one or an exclamation mark. -/
def joins (w : List Char) (c : Char) : Bool :=
  (w.all isWordChar && isWordChar c) || ((w = ['='] || w = ['!']) && c = '=')

/-- The token of a lexeme; blanks have none. -/
def token? (lexeme : List Char) : Option Token :=
  if lexeme = ['='] then some .equals
  else if lexeme = ['=', '='] then some .doubleEquals
  else if lexeme = ['!', '='] then some .notEquals
  else if lexeme = ['!'] then some .doesNotExist
  else if lexeme = ['('] then some .openPar
  else if lexeme = [')'] then some .closedPar
  else if lexeme = [','] then some .comma
  else if lexeme = ['>'] then some .greaterThan
  else if lexeme = ['<'] then some .lessThan
  else if lexeme.all isBlank then none
  else some (.word (String.ofList lexeme))

def lex (text : List Char) : List Token := (munch joins text).filterMap token?

/-! ### The parser -/

/-- Values between commas, up to the closing parenthesis. -/
def parseValues : List Token → Option (List String × List Token)
  | .closedPar :: ts => some ([""], ts)
  | .comma :: ts => (parseValues ts).map fun r => ("" :: r.1, r.2)
  | .word v :: .closedPar :: ts => if isLabelValue v then some ([v], ts) else none
  | .word v :: .comma :: ts =>
    if isLabelValue v then (parseValues ts).map fun r => (v :: r.1, r.2) else none
  | _ => none

/-- The value behind an equals sign. -/
def parseExactValue : List Token → Option (String × List Token)
  | .word v :: ts => if isLabelValue v then some (v, ts) else none
  | ts => some ("", ts)

/-- The operator and the values behind a key. A key alone has to exist. -/
def parseRestriction (key : String) : List Token → Option (Requirement × List Token)
  | .word operator :: .openPar :: ts =>
    if operator = "in" then (parseValues ts).map fun r => (⟨key, .inSet, r.1⟩, r.2)
    else if operator = "notin" then (parseValues ts).map fun r => (⟨key, .notInSet, r.1⟩, r.2)
    else none
  | .equals :: ts => (parseExactValue ts).map fun r => (⟨key, .equals, [r.1]⟩, r.2)
  | .doubleEquals :: ts => (parseExactValue ts).map fun r => (⟨key, .doubleEquals, [r.1]⟩, r.2)
  | .notEquals :: ts => (parseExactValue ts).map fun r => (⟨key, .notEquals, [r.1]⟩, r.2)
  | ts => some (⟨key, .exist, []⟩, ts)

def parseRequirement : List Token → Option (Requirement × List Token)
  | .doesNotExist :: .word key :: ts =>
    if isLabelKey key then some (⟨key, .doesNotExist, []⟩, ts) else none
  | .word key :: ts => if isLabelKey key then parseRestriction key ts else none
  | _ => none

/-! ### Progress -/

section Progress

variable {β γ : Type} {m n : ℕ}

/-- A parser leaves at most some number of tokens. -/
def Leaves (n : ℕ) (result : Option (β × List Token)) : Prop := ∀ e ∈ result, e.2.length ≤ n

theorem leaves_none : Leaves n (none : Option (β × List Token)) := by
  rintro e ⟨⟩

theorem leaves_some {x : β} {ts : List Token} (h : ts.length ≤ n) : Leaves n (some (x, ts)) := by
  rintro e ⟨⟩
  exact h

theorem Leaves.map {result : Option (β × List Token)} (h : Leaves m result) (hmn : m ≤ n)
    (f : β → γ) : Leaves n (result.map fun e => (f e.1, e.2)) := by
  intro e he
  obtain ⟨r, hr, rfl⟩ := Option.map_eq_some_iff.mp he
  exact (h r hr).trans hmn

theorem leaves_parseValues (ts : List Token) : Leaves ts.length (parseValues ts) := by
  induction ts using parseValues.induct with
  | case1 ts => exact leaves_some (Nat.le_succ _)
  | case2 ts ih => exact ih.map (Nat.le_succ _) _
  | case3 v ts hv =>
    rw [parseValues, if_pos hv]
    exact leaves_some (Nat.le_add_right _ 2)
  | case4 v ts hv =>
    rw [parseValues, if_neg hv]
    exact leaves_none
  | case5 v ts hv ih =>
    rw [parseValues, if_pos hv]
    exact ih.map (Nat.le_add_right _ 2) _
  | case6 v ts hv =>
    rw [parseValues, if_neg hv]
    exact leaves_none
  | case7 ts =>
    rw [parseValues]
    · exact leaves_none
    all_goals assumption

theorem leaves_parseExactValue (ts : List Token) : Leaves ts.length (parseExactValue ts) := by
  unfold parseExactValue
  split
  · split
    · exact leaves_some (Nat.le_succ _)
    · exact leaves_none
  · exact leaves_some le_rfl

theorem leaves_parseRestriction (key : String) (ts : List Token) :
    Leaves ts.length (parseRestriction key ts) := by
  have hexact (operator : Operator) (t : Token) (ts : List Token) : Leaves (t :: ts).length
      ((parseExactValue ts).map fun r => ((⟨key, operator, [r.1]⟩ : Requirement), r.2)) :=
    (leaves_parseExactValue ts).map (Nat.le_succ _) fun v => (⟨key, operator, [v]⟩ : Requirement)
  unfold parseRestriction
  split
  · split
    · exact (leaves_parseValues _).map (Nat.le_add_right _ 2) _
    · split
      · exact (leaves_parseValues _).map (Nat.le_add_right _ 2) _
      · exact leaves_none
  · exact hexact _ _ _
  · exact hexact _ _ _
  · exact hexact _ _ _
  · exact leaves_some le_rfl

theorem length_lt_of_parseRequirement {ts rest : List Token} {r : Requirement}
    (h : parseRequirement ts = some (r, rest)) : rest.length < ts.length := by
  unfold parseRequirement at h
  split at h
  · split at h
    · obtain ⟨-, rfl⟩ := Prod.mk.inj (Option.some.inj h)
      rw [List.length_cons, List.length_cons]
      omega
    · cases h
  · split at h
    · exact Nat.lt_succ_of_le (leaves_parseRestriction _ _ _ h)
    · cases h
  · cases h

end Progress

/-- One or more requirements between commas. -/
def parseRequirements (ts : List Token) : Option (List Requirement) :=
  match h : parseRequirement ts with
  | some (r, []) => some [r]
  | some (r, .comma :: rest) =>
    have : rest.length < ts.length := (Nat.lt_succ_self _).trans (length_lt_of_parseRequirement h)
    (parseRequirements rest).map (r :: ·)
  | _ => none
termination_by ts.length

/-- Read a label selector. An empty text has no requirements. -/
def parse (text : List Char) : Option (List Requirement) :=
  match lex text with
  | [] => some []
  | t :: ts => parseRequirements (t :: ts)

/-! ### Lexing what is spelled out -/

section Lexing

variable {c : Char} {k v : List Char}

/-- A text without other characters than those of words. -/
def IsWord (w : List Char) : Prop := ∀ c ∈ w, isWordChar c = true

theorem isSeparator_of_notWordChar (hc : isWordChar c = false) (hequals : c ≠ '=')
    (hbang : c ≠ '!') : IsSeparator joins c where
  left w := by simp [joins, hc, hequals]
  right d := by simp [joins, hc, hequals, hbang]

/-- Both sides of a separator have their own tokens. -/
theorem lex_append_cons (hc : isWordChar c = false) (hequals : c ≠ '=') (hbang : c ≠ '!')
    (xs ys : List Char) : lex (xs ++ c :: ys) = lex xs ++ ((token? [c]).toList ++ lex ys) := by
  rw [lex, munch_append_cons (isSeparator_of_notWordChar hc hequals hbang), List.filterMap_append,
    List.filterMap_cons]
  cases token? [c] <;> rfl

theorem ne_cons_of_isWord (hk : IsWord k) (hc : isWordChar c = false) (cs : List Char) :
    k ≠ c :: cs := by
  rintro rfl
  rw [hk c List.mem_cons_self] at hc
  cases hc

theorem isLexeme_of_isWord (hk : IsWord k) : IsLexeme joins k := by
  rintro u c v rfl -
  rw [IsWord, List.forall_mem_append, List.forall_mem_cons] at hk
  rw [joins, List.all_eq_true.mpr hk.1, hk.2.1]
  rfl

theorem isLexeme_singleton (c : Char) : IsLexeme joins [c] := by
  intro u d v h hne
  have hlength := congrArg List.length h
  have hpos := List.length_pos_of_ne_nil hne
  simp only [List.length_append, List.length_cons, List.length_nil] at hlength
  omega

theorem token?_of_isWord (hne : k ≠ []) (hk : IsWord k) :
    token? k = some (.word (String.ofList k)) := by
  have hblank : ¬ k.all isBlank = true := by
    intro hall
    obtain ⟨c, k, rfl⟩ := List.exists_cons_of_ne_nil hne
    have hword := hk c List.mem_cons_self
    have hc := List.all_eq_true.mp hall c List.mem_cons_self
    rw [isWordChar, hc] at hword
    cases hword
  have hnot (c : Char) (cs : List Char) (hc : isWordChar c = false) : ¬ k = c :: cs :=
    ne_cons_of_isWord hk hc cs
  rw [token?, if_neg (hnot '=' _ rfl), if_neg (hnot '=' _ rfl), if_neg (hnot '!' _ rfl),
    if_neg (hnot '!' _ rfl), if_neg (hnot '(' _ rfl), if_neg (hnot ')' _ rfl),
    if_neg (hnot ',' _ rfl), if_neg (hnot '>' _ rfl), if_neg (hnot '<' _ rfl), if_neg hblank]

/-- A word in front of a special character. -/
theorem lex_isWord_append (hne : k ≠ []) (hk : IsWord k) {rest : List Char}
    (hrest : ∀ c ∈ rest.head?, isWordChar c = false) :
    lex (k ++ rest) = .word (String.ofList k) :: lex rest := by
  have hjoins : ∀ c ∈ rest.head?, joins k c = false := by
    intro c hc
    simp [joins, hrest c hc, ne_cons_of_isWord hk (c := '=') rfl,
      ne_cons_of_isWord hk (c := '!') rfl]
  rw [lex, munch_append hne (isLexeme_of_isWord hk) hjoins, List.filterMap_cons,
    token?_of_isWord hne hk]
  rfl

theorem lex_isWord (hne : k ≠ []) (hk : IsWord k) : lex k = [.word (String.ofList k)] := by
  have hnil : ∀ c ∈ ([] : List Char).head?, isWordChar c = false := by simp
  have hlex := lex_isWord_append hne hk hnil
  rwa [List.append_nil] at hlex

/-- A special character in front of a word. -/
theorem lex_cons_isWord (hc : isWordChar c = false) (hv : IsWord v) :
    lex (c :: v) = (token? [c]).toList ++ lex v := by
  have hjoins : ∀ d ∈ v.head?, joins [c] d = false := by
    intro d hd
    have hword := hv d (List.mem_of_mem_head? hd)
    have hne : d ≠ '=' := by
      rintro rfl
      cases hword
    simp [joins, hc, hne]
  have hmunch := munch_append (List.cons_ne_nil c []) (isLexeme_singleton c) hjoins
  rw [List.singleton_append] at hmunch
  rw [lex, hmunch, List.filterMap_cons]
  cases token? [c] <;> rfl

end Lexing

/-! ### Parsing what is spelled out -/

/-- The tokens of a value. -/
def valueTokens (v : String) : List Token := if v = "" then [] else [.word v]

def valuesTokens (vs : List String) : List Token := [.comma].intercalate (vs.map valueTokens)

/-- How requirements are spelled. -/
def Requirement.tokens (r : Requirement) : List Token :=
  match r.operator with
  | .inSet => .word r.key :: .word "in" :: .openPar :: (valuesTokens r.values ++ [.closedPar])
  | .notInSet => .word r.key :: .word "notin" :: .openPar :: (valuesTokens r.values ++ [.closedPar])
  | .equals => .word r.key :: .equals :: valuesTokens r.values
  | .doubleEquals => .word r.key :: .doubleEquals :: valuesTokens r.values
  | .notEquals => .word r.key :: .notEquals :: valuesTokens r.values
  | .exist => [.word r.key]
  | .doesNotExist => [.doesNotExist, .word r.key]

/-- How many values an operator takes. -/
def Operator.Takes : Operator → List String → Prop
  | .inSet, values | .notInSet, values => values ≠ []
  | .equals, values | .doubleEquals, values | .notEquals, values => ∃ v, values = [v]
  | .exist, values | .doesNotExist, values => values = []

structure Requirement.IsValid (r : Requirement) : Prop where
  key : isLabelKey r.key = true
  values : ∀ v ∈ r.values, isLabelValue v = true
  takes : r.operator.Takes r.values

theorem parseValues_tokens {vs : List String} (hne : vs ≠ [])
    (hvs : ∀ v ∈ vs, isLabelValue v = true) (rest : List Token) :
    parseValues (valuesTokens vs ++ .closedPar :: rest) = some (vs, rest) := by
  induction vs with
  | nil => exact absurd rfl hne
  | cons v vs ih =>
    rw [List.forall_mem_cons] at hvs
    match vs with
    | [] =>
      by_cases hv : v = ""
      · subst hv
        rfl
      · have htokens : valuesTokens [v] ++ .closedPar :: rest = .word v :: .closedPar :: rest := by
          simp [valuesTokens, valueTokens, hv]
        rw [htokens, parseValues, if_pos hvs.1]
    | next :: vs =>
      have hrest := ih (List.cons_ne_nil next vs) hvs.2
      have hcons : valuesTokens (v :: next :: vs) ++ .closedPar :: rest =
          valueTokens v ++ .comma :: (valuesTokens (next :: vs) ++ .closedPar :: rest) := by
        simp [valuesTokens, List.intercalate_cons_cons]
      rw [hcons]
      by_cases hv : v = ""
      · subst hv
        rw [valueTokens, if_pos rfl, List.nil_append, parseValues, hrest, Option.map_some]
      · rw [valueTokens, if_neg hv, List.singleton_append, parseValues, if_pos hvs.1, hrest,
          Option.map_some]

/-- What follows a requirement: nothing, or another one behind a comma. -/
def IsEnd (rest : List Token) : Prop := rest = [] ∨ ∃ ts, rest = .comma :: ts

theorem parseExactValue_tokens {v : String} (hv : isLabelValue v = true) {rest : List Token}
    (hrest : IsEnd rest) : parseExactValue (valuesTokens [v] ++ rest) = some (v, rest) := by
  by_cases hempty : v = ""
  · subst hempty
    obtain rfl | ⟨ts, rfl⟩ := hrest
    · rfl
    · rfl
  · have htokens : valuesTokens [v] ++ rest = .word v :: rest := by
      simp [valuesTokens, valueTokens, hempty]
    rw [htokens, parseExactValue, if_pos hv]

/-- **A requirement that is spelled out is read back.** -/
theorem parseRequirement_tokens {r : Requirement} (hr : r.IsValid) {rest : List Token}
    (hrest : IsEnd rest) : parseRequirement (r.tokens ++ rest) = some (r, rest) := by
  obtain ⟨key, operator, values⟩ := r
  obtain ⟨hkey, hvalues, htakes⟩ := hr
  have hword (ts : List Token) : parseRequirement (.word key :: ts) = parseRestriction key ts := by
    rw [parseRequirement, if_pos hkey]
  match operator, htakes with
  | .inSet, hne =>
    have hparse := parseValues_tokens hne hvalues rest
    simp only [Requirement.tokens, List.cons_append, List.append_assoc, List.nil_append, hword,
      parseRestriction, if_true, hparse, Option.map_some]
  | .notInSet, hne =>
    have hparse := parseValues_tokens hne hvalues rest
    have hnotin : ¬ "notin" = "in" := by decide
    simp only [Requirement.tokens, List.cons_append, List.append_assoc, List.nil_append, hword,
      parseRestriction, if_neg hnotin, if_true, hparse, Option.map_some]
  | .equals, ⟨v, hv⟩ =>
    subst hv
    have hparse := parseExactValue_tokens (hvalues v List.mem_cons_self) hrest
    simp only [Requirement.tokens, List.cons_append, hword, parseRestriction, hparse,
      Option.map_some]
  | .doubleEquals, ⟨v, hv⟩ =>
    subst hv
    have hparse := parseExactValue_tokens (hvalues v List.mem_cons_self) hrest
    simp only [Requirement.tokens, List.cons_append, hword, parseRestriction, hparse,
      Option.map_some]
  | .notEquals, ⟨v, hv⟩ =>
    subst hv
    have hparse := parseExactValue_tokens (hvalues v List.mem_cons_self) hrest
    simp only [Requirement.tokens, List.cons_append, hword, parseRestriction, hparse,
      Option.map_some]
  | .exist, hnil =>
    obtain rfl : values = [] := hnil
    simp only [Requirement.tokens, List.cons_append, List.nil_append, hword]
    obtain rfl | ⟨ts, rfl⟩ := hrest
    · rfl
    · rfl
  | .doesNotExist, hnil =>
    obtain rfl : values = [] := hnil
    simp only [Requirement.tokens, List.cons_append, List.nil_append, parseRequirement, if_pos hkey]

theorem parseRequirements_last {ts : List Token} {r : Requirement}
    (h : parseRequirement ts = some (r, [])) : parseRequirements ts = some [r] := by
  unfold parseRequirements
  split
  · rename_i r' hr'
    obtain ⟨rfl, -⟩ := Prod.mk.inj (Option.some.inj (hr'.symm.trans h))
    rfl
  · rename_i r' rest hr'
    obtain ⟨-, hrest⟩ := Prod.mk.inj (Option.some.inj (hr'.symm.trans h))
    cases hrest
  · rename_i hlast _
    exact absurd h (hlast r)

theorem parseRequirements_cons {ts rest : List Token} {r : Requirement}
    (h : parseRequirement ts = some (r, .comma :: rest)) :
    parseRequirements ts = (parseRequirements rest).map (r :: ·) := by
  conv_lhs => unfold parseRequirements
  split
  · rename_i r' hr'
    obtain ⟨-, hrest⟩ := Prod.mk.inj (Option.some.inj (hr'.symm.trans h))
    cases hrest
  · rename_i r' rest' hr'
    obtain ⟨rfl, hrest⟩ := Prod.mk.inj (Option.some.inj (hr'.symm.trans h))
    obtain ⟨-, rfl⟩ := List.cons.inj hrest
    rfl
  · rename_i hcons
    exact absurd h (hcons r rest)

theorem parseRequirements_tokens {rs : List Requirement} (hne : rs ≠ [])
    (hrs : ∀ r ∈ rs, r.IsValid) :
    parseRequirements ([.comma].intercalate (rs.map Requirement.tokens)) = some rs := by
  induction rs with
  | nil => exact absurd rfl hne
  | cons r rs ih =>
    rw [List.forall_mem_cons] at hrs
    match rs with
    | [] =>
      have hparse := parseRequirement_tokens hrs.1 (.inl rfl)
      rw [List.append_nil] at hparse
      simpa using parseRequirements_last hparse
    | next :: rs =>
      have hrest := ih (List.cons_ne_nil next rs) hrs.2
      have hparse (ts : List Token) := parseRequirement_tokens hrs.1 (.inr ⟨ts, rfl⟩)
      rw [List.map_cons, List.map_cons, List.intercalate_cons_cons, List.append_assoc,
        List.singleton_append, parseRequirements_cons (hparse _), ← List.map_cons, hrest,
        Option.map_some]

theorem tokens_ne_nil (r : Requirement) : r.tokens ≠ [] := by
  unfold Requirement.tokens
  split <;> exact List.cons_ne_nil _ _

/-- **Requirements that are spelled out are read back**, in their order. -/
theorem parse_of_lex {text : List Char} {rs : List Requirement} (hrs : ∀ r ∈ rs, r.IsValid)
    (hlex : lex text = [.comma].intercalate (rs.map Requirement.tokens)) :
    parse text = some rs := by
  match rs with
  | [] =>
    rw [parse, hlex]
    rfl
  | r :: rs =>
    have hparse := parseRequirements_tokens (List.cons_ne_nil r rs) hrs
    rw [← hlex] at hparse
    rw [parse]
    split
    · rename_i hnil
      -- a requirement has at least one token
      rw [hlex] at hnil
      match rs with
      | [] => exact absurd (by simpa using hnil) (tokens_ne_nil r)
      | next :: rs =>
        rw [List.map_cons, List.map_cons, List.intercalate_cons_cons] at hnil
        simp at hnil
    · rename_i heq
      rw [← heq, hparse]

example : parse "x in (foo,,baz),y,z notin ()".toList =
    some [⟨"x", .inSet, ["foo", "", "baz"]⟩, ⟨"y", .exist, []⟩, ⟨"z", .notInSet, [""]⟩] := by
  decide +kernel

end SelectorGrammar

end StackableOperator
