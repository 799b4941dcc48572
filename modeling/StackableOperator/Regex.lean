import Mathlib

/-!
# Regular expressions

The regex engine is a library; `RegexLibrary` has its types and functions as fields, and
`RegexLibrary.IsDocumented` is what its documentation says about a set of regexes: it compiles
only if each of them does, and it matches iff one of them matches.

The operator only uses regexes that it has anchored itself. `withAnchors` drops the anchors
that the user wrote, at most on the outside, and adds one on each side.
-/

namespace StackableOperator

/-- Drop all leading occurrences of a character. -/
def trimStartMatches (c : Char) (s : String) : String :=
  String.ofList (s.toList.dropWhile (· = c))

/-- Drop all trailing occurrences of a character. -/
def trimEndMatches (c : Char) (s : String) : String :=
  String.ofList (s.toList.rdropWhile (· = c))

/-- The regex of the user between one pair of anchors. -/
def withAnchors (regex : String) : String :=
  "^" ++ trimEndMatches '$' (trimStartMatches '^' regex) ++ "$"

/-- The types and functions of the regex library. -/
structure RegexLibrary where
  Error : Type
  Regex : Type
  RegexSet : Type
  /-- `Regex::new` -/
  new : String → Except Error Regex
  /-- `Regex::is_match` -/
  isMatch : Regex → String → Bool
  /-- `RegexSet::new` -/
  newSet : List String → Except Error RegexSet
  /-- `RegexSet::default`, the empty set -/
  defaultSet : RegexSet
  /-- `RegexSet::is_match` -/
  isMatchSet : RegexSet → String → Bool

namespace RegexLibrary

/-- The documented relation between regexes and sets of them. -/
structure IsDocumented (lib : RegexLibrary) : Prop where
  exists_new : ∀ {regexes set}, lib.newSet regexes = .ok set →
    ∀ regex ∈ regexes, ∃ r, lib.new regex = .ok r
  isMatchSet_iff : ∀ {regexes set}, lib.newSet regexes = .ok set → ∀ text,
    lib.isMatchSet set text = true ↔
      ∃ regex ∈ regexes, ∃ r, lib.new regex = .ok r ∧ lib.isMatch r text = true
  isMatchSet_default : ∀ text, lib.isMatchSet lib.defaultSet text = false

/-- The library for patterns that are one anchored literal, which match exactly this
literal. -/
def literals : RegexLibrary where
  Error := Empty
  Regex := String
  RegexSet := List String
  new regex := .ok regex
  isMatch regex text := regex == "^" ++ text ++ "$"
  newSet regexes := .ok regexes
  defaultSet := []
  isMatchSet regexes text := regexes.any fun regex => regex == "^" ++ text ++ "$"

theorem isDocumented_literals : literals.IsDocumented where
  exists_new _ regex _ := ⟨regex, rfl⟩
  isMatchSet_iff {regexes set} h text := by
    obtain rfl : regexes = set := Except.ok.inj h
    refine List.any_eq_true.trans ⟨?_, ?_⟩
    · rintro ⟨regex, hregex, hmatch⟩
      exact ⟨regex, hregex, regex, rfl, hmatch⟩
    · rintro ⟨regex, hregex, r, hr, hmatch⟩
      obtain rfl : regex = r := Except.ok.inj hr
      exact ⟨regex, hregex, hmatch⟩
  isMatchSet_default _ := rfl

/-- If every regex of a list compiles, then so does the list, and one of the compiled regexes
matches a text iff the list has a regex that compiles to a matching one. -/
theorem exists_mapM_eq_ok {lib : RegexLibrary} {E : Type} {compile : String → Except E lib.Regex}
    {regexes : List String} (h : ∀ regex ∈ regexes, ∃ r, compile regex = .ok r) :
    ∃ compiled, regexes.mapM compile = .ok compiled ∧ ∀ text,
      (compiled.any (lib.isMatch · text) = true ↔
        ∃ regex ∈ regexes, ∃ r, compile regex = .ok r ∧ lib.isMatch r text = true) := by
  induction regexes with
  | nil => exact ⟨[], rfl, by simp⟩
  | cons regex regexes ih =>
    obtain ⟨r, hr⟩ := h regex List.mem_cons_self
    obtain ⟨compiled, hcompiled, hany⟩ := ih fun x hx => h x (List.mem_cons_of_mem regex hx)
    refine ⟨r :: compiled, ?_, fun text => ?_⟩
    · rw [List.mapM_cons, hr, hcompiled]
      rfl
    · have hhead : (∃ r', compile regex = .ok r' ∧ lib.isMatch r' text = true) ↔
          lib.isMatch r text = true := by
        simp [hr]
      rw [List.any_cons, Bool.or_eq_true, hany text, List.exists_mem_cons_iff, hhead]

end RegexLibrary

end StackableOperator
