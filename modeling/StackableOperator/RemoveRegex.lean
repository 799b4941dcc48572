import Mathlib
import StackableOperator.Readers.RegexSyntax
import StackableOperator.V2.JvmArgumentOverrides

/-!
# Removing JVM arguments by regexes

A regex of the user is anchored by editing its text: its outer anchors are dropped, and one `^` and
one `$` are added. `removeRegex_wholeArguments_of_anchorsHold` says that this removes an argument
iff the regex matches the complete argument, if the two anchors hold the whole expression. They do
not if there are alternatives, because they belong to the first and to the last one only, if the
first anchor is repeated, and if the last one is escaped, in a comment or in multi-line mode.
-/

namespace StackableOperator

/-! ### The text between the anchors -/

/-- The regex of the user without its outer anchors. -/
def withoutAnchors (regex : String) : String := trimEndMatches '$' (trimStartMatches '^' regex)

theorem withAnchors_eq (regex : String) : withAnchors regex = "^" ++ withoutAnchors regex ++ "$" :=
  rfl

theorem toList_withAnchors (regex : String) :
    (withAnchors regex).toList = '^' :: ((withoutAnchors regex).toList ++ ['$']) := by
  rw [withAnchors_eq, String.toList_append, String.toList_append]
  rfl

theorem takeWhile_eq_replicate (c : Char) (l : List Char) :
    l.takeWhile (· = c) = List.replicate (l.takeWhile (· = c)).length c := by
  rw [List.eq_replicate_iff]
  exact ⟨rfl, fun d hd => by simpa using List.mem_takeWhile_imp hd⟩

/-- What is dropped are anchors. -/
theorem exists_toList_eq (regex : String) : ∃ k m, regex.toList =
    List.replicate k '^' ++ (withoutAnchors regex).toList ++ RegexGrammar.dollars m := by
  have htail (l : List Char) : ∃ m, l = l.rdropWhile (· = '$') ++ List.replicate m '$' := by
    refine ⟨(l.reverse.takeWhile (· = '$')).length, ?_⟩
    have hreverse := congrArg List.reverse
      (List.takeWhile_append_dropWhile (p := fun c => decide (c = '$')) (l := l.reverse))
    rw [List.reverse_append, List.reverse_reverse, takeWhile_eq_replicate,
      List.reverse_replicate] at hreverse
    exact hreverse.symm
  obtain ⟨m, hm⟩ := htail (regex.toList.dropWhile (· = '^'))
  refine ⟨(regex.toList.takeWhile (· = '^')).length, m, ?_⟩
  rw [withoutAnchors, trimEndMatches, trimStartMatches, String.toList_ofList, String.toList_ofList,
    List.append_assoc, RegexGrammar.dollars, ← hm, ← takeWhile_eq_replicate,
    List.takeWhile_append_dropWhile]

/-! ### Removals -/

/-- The regex library follows a grammar: it compiles what the grammar can read, and searches for a
match anywhere in a text. -/
structure RegexLibrary.Follows (lib : RegexLibrary) (g : RegexGrammar) : Prop
    extends lib.IsDocumented where
  exists_new_iff : ∀ regex, (∃ r, lib.new regex = .ok r) ↔ (g.parse regex.toList).isSome = true
  isMatch_iff : ∀ {regex r tree}, lib.new regex = .ok r → g.parse regex.toList = some tree →
    ∀ text, lib.isMatch r text = true ↔ tree.IsMatch text.toList
  exists_newSet : ∀ {regexes}, (∀ regex ∈ regexes, ∃ r, lib.new regex = .ok r) →
    ∃ set, lib.newSet regexes = .ok set

/-- Merging removes the argument because of the regex. -/
def JvmArgumentOverrides.Removes (lib : RegexLibrary) (regex arg : String) : Prop :=
  ∃ merged, tryMerge lib ⟨[], ∅, [regex]⟩ (newWithOnlyAdditions [arg]) = .ok merged ∧
    arg ∉ merged.add

/-- Applying the overrides removes the argument because of the regex. -/
def V2.JvmArgumentOverrides.Removes (lib : RegexLibrary) (regex arg : String) : Prop :=
  ∃ overrides, deserialize lib ⟨none, none, some [regex]⟩ = .ok overrides ∧
    arg ∉ overrides.applyTo [arg]

/-- The added anchors hold the expression between them at both ends. -/
def AnchorsHold (g : RegexGrammar) (regex : String) : Prop :=
  ∃ expression, g.readOpen (withoutAnchors regex).toList = some expression ∧ expression.IsHeld

variable {lib : RegexLibrary} {g : RegexGrammar} {regex arg : String}

/-- A regex that compiles removes what it matches. -/
theorem JvmArgumentOverrides.removes_iff {r : lib.Regex} (h : lib.new (withAnchors regex) = .ok r) :
    Removes lib regex arg ↔ lib.isMatch r arg = true := by
  have hmatcher : IsMatcher lib [regex] fun arg => lib.isMatch r arg := by
    refine ⟨[r], ?_, fun arg => by simp⟩
    rw [List.mapM_cons, compile_eq_ok.mpr h]
    rfl
  have hmerge : tryMerge lib ⟨[], ∅, [regex]⟩ (newWithOnlyAdditions [arg]) = _ :=
    tryMerge_eq_ok hmatcher (newWithOnlyAdditions [arg])
  constructor
  · rintro ⟨merged, hmerged, harg⟩
    obtain rfl := Except.ok.inj (hmerge.symm.trans hmerged)
    simpa [newWithOnlyAdditions, ArgumentEdit.apply, edit] using harg
  · intro hmatch
    refine ⟨_, hmerge, ?_⟩
    simpa [newWithOnlyAdditions, ArgumentEdit.apply, edit] using hmatch

theorem V2.JvmArgumentOverrides.removes_iff (hlib : lib.Follows g) {r : lib.Regex}
    (h : lib.new (withAnchors regex) = .ok r) :
    Removes lib regex arg ↔ lib.isMatch r arg = true := by
  have hnew : ∀ regex' ∈ [withAnchors regex], ∃ r, lib.new regex' = .ok r :=
    List.forall_mem_singleton.mpr ⟨r, h⟩
  obtain ⟨set, hset⟩ := hlib.exists_newSet hnew
  have hmatch : lib.isMatchSet set arg = true ↔ lib.isMatch r arg = true := by
    rw [hlib.isMatchSet_iff hset]
    simp [h]
  have hread : deserialize lib ⟨none, none, some [regex]⟩ = .ok ⟨[], ∅, set, []⟩ := by
    have hdeserialize : deserializeRegexSet lib (some [regex]) = .ok set := hset
    rw [deserialize, hdeserialize]
    rfl
  rw [← hmatch]
  constructor
  · rintro ⟨overrides, hoverrides, harg⟩
    obtain rfl := Except.ok.inj (hread.symm.trans hoverrides)
    simpa [applyTo, applyPreceding] using harg
  · intro hremoved
    refine ⟨_, hread, ?_⟩
    simpa [applyTo, applyPreceding] using hremoved

/-- Both versions remove what the anchored expression matches. -/
theorem removes_iff_looselyMatches (hlib : lib.Follows g) {tree : RegexTree}
    (hvalid : g.parse regex.toList = some tree) :
    ∃ expression, g.readOpen (withoutAnchors regex).toList = some expression ∧
      (∀ text, tree.FullMatch text ↔ expression.alternatives.tree.FullMatch text) ∧
      ∀ arg, (JvmArgumentOverrides.Removes lib regex arg ↔ expression.LooselyMatches arg.toList) ∧
        (V2.JvmArgumentOverrides.Removes lib regex arg ↔
          expression.LooselyMatches arg.toList) := by
  obtain ⟨k, m, hregex⟩ := exists_toList_eq regex
  rw [hregex] at hvalid
  obtain ⟨expression, hopen, hfull, hanchored⟩ := RegexGrammar.exists_readOpen hvalid
  rw [← toList_withAnchors] at hanchored
  obtain ⟨r, hr⟩ := (hlib.exists_new_iff (withAnchors regex)).mpr (by rw [hanchored]; rfl)
  refine ⟨expression, hopen, hfull, fun arg => ?_⟩
  rw [JvmArgumentOverrides.removes_iff hr, V2.JvmArgumentOverrides.removes_iff hlib hr,
    hlib.isMatch_iff hr hanchored, OpenExpression.isMatch_anchored_iff]
  exact ⟨Iff.rfl, Iff.rfl⟩

/-- What matches completely also matches loosely. -/
theorem OpenExpression.looselyMatches_of_fullMatch {expression : OpenExpression} {text : List Char}
    (h : expression.alternatives.tree.FullMatch text) : expression.LooselyMatches text := by
  obtain ⟨pieces, hmem, hmatches⟩ := Alternatives.matches_tree_iff.mp h
  obtain rfl | hmem := List.mem_cons.mp hmem
  · exact Or.inl ⟨[], text, [], by simp, hmatches, fun flags _ => flags.endAnchor_nil _⟩
  · exact Or.inr ⟨pieces, hmem, [], text, [], by simp, hmatches⟩

/-- **Regexes remove whole arguments** if the anchors hold. -/
theorem removeRegex_wholeArguments_of_anchorsHold (hlib : lib.Follows g) {tree : RegexTree}
    (hvalid : g.parse regex.toList = some tree) (hheld : AnchorsHold g regex) (arg : String) :
    (JvmArgumentOverrides.Removes lib regex arg ↔ tree.FullMatch arg.toList) ∧
      (V2.JvmArgumentOverrides.Removes lib regex arg ↔ tree.FullMatch arg.toList) := by
  obtain ⟨expression, hopen, hfull, hremoves⟩ := removes_iff_looselyMatches hlib hvalid
  obtain ⟨expression', hopen', hheld⟩ := hheld
  obtain rfl := Option.some.inj (hopen.symm.trans hopen')
  have hloose : expression.LooselyMatches arg.toList ↔ tree.FullMatch arg.toList := by
    rw [hfull]
    exact ⟨hheld.fullMatch_of_looselyMatches, OpenExpression.looselyMatches_of_fullMatch⟩
  obtain ⟨hv1, hv2⟩ := hremoves arg
  exact ⟨hv1.trans hloose, hv2.trans hloose⟩

/-! ### A small grammar -/

/-- Literal characters, escaped ones, the dot and groups. -/
def plainItem (flags : Flags) (c : Char) (cs : List Char) : Option (Token × List Char) :=
  if c = '\\' then
    match cs with
    | [] => none
    | d :: rest => if d.isAlphanum then none else some (.piece (.char (· = d)), rest)
  else if c = '(' then if cs.head? = some '?' then none else some (.opened flags, cs)
  else if c = '[' ∨ c = '{' then none
  else if c = '.' then some (.piece (.char (· ≠ '\n')), cs)
  else some (.piece (.char (· = c)), cs)

def plainGrammar : RegexGrammar where
  item := plainItem
  length_le {flags c cs token rest} h := by
    unfold plainItem at h
    split_ifs at h
    all_goals try (obtain ⟨-, rfl⟩ := Prod.mk.inj (Option.some.inj h); exact le_rfl)
    match cs with
    | [] => exact absurd h (by simp)
    | d :: tail =>
      dsimp only at h
      split_ifs at h
      obtain ⟨-, rfl⟩ := Prod.mk.inj (Option.some.inj h)
      exact Nat.le_succ _
  item_append_dollar flags c cs h := by
    by_cases hbackslash : c = '\\'
    · match cs with
      | [] => exact absurd rfl (h hbackslash)
      | d :: tail =>
        unfold plainItem
        rw [if_pos hbackslash, if_pos hbackslash]
        dsimp only [List.cons_append]
        split_ifs <;> rfl
    · have hhead : (cs ++ ['$']).head? = some '?' ↔ cs.head? = some '?' := by
        cases cs <;> simp
      simp only [plainItem, if_neg hbackslash, hhead]
      split_ifs <;> rfl
  item_escaped_dollar flags cs := rfl
  item_backslash flags := rfl

open Classical in
/-- The library that compiles a regex to its tree and searches for matches. -/
noncomputable def RegexGrammar.library (g : RegexGrammar) : RegexLibrary where
  Error := Unit
  Regex := RegexTree
  RegexSet := List RegexTree
  new regex := (g.parse regex.toList).elim (.error ()) .ok
  isMatch tree text := decide (tree.IsMatch text.toList)
  newSet regexes := regexes.mapM fun regex => (g.parse regex.toList).elim (.error ()) .ok
  defaultSet := []
  isMatchSet trees text := trees.any fun tree => decide (tree.IsMatch text.toList)

theorem RegexGrammar.new_library_eq_ok_iff {g : RegexGrammar} {regex : String} {tree : RegexTree} :
    g.library.new regex = .ok tree ↔ g.parse regex.toList = some tree := by
  change (g.parse regex.toList).elim (.error ()) .ok = Except.ok tree ↔ _
  cases g.parse regex.toList <;> simp

theorem RegexGrammar.follows_library (g : RegexGrammar) : g.library.Follows g where
  exists_new {regexes set} h regex hregex :=
    exists_mapM_eq_ok_iff.mp ⟨set, h⟩ regex hregex
  isMatchSet_iff {regexes set} h text := by
    have hall := mapM_eq_ok_iff.mp h
    refine List.any_eq_true.trans ⟨?_, ?_⟩
    · rintro ⟨tree, htree, hmatch⟩
      obtain ⟨regex, hregex, hnew⟩ := exists_of_mem_mapM hall htree
      exact ⟨regex, hregex, tree, hnew, hmatch⟩
    · rintro ⟨regex, hregex, tree, hnew, hmatch⟩
      exact ⟨tree, mem_of_mapM hall hregex hnew, hmatch⟩
  isMatchSet_default _ := rfl
  exists_new_iff regex := by
    rw [Option.isSome_iff_exists]
    exact exists_congr fun tree => new_library_eq_ok_iff
  isMatch_iff {regex tree tree'} hnew hparse text := by
    obtain rfl := Option.some.inj ((new_library_eq_ok_iff.mp hnew).symm.trans hparse)
    exact @decide_eq_true_iff _ (Classical.propDecidable _)
  exists_newSet h := exists_mapM_eq_ok_iff.mpr h

/-! ### Alternatives -/

def letter (c : Char) : Piece := some (.char (· = c))

theorem eq_of_matches_letter {c : Char} {b w a : List Char}
    (h : (concatTree [letter c]).Matches b w a) : w = [c] := by
  obtain ⟨u, v, rfl, rfl, d, rfl, hd⟩ := h
  rw [List.nil_append, of_decide_eq_true hd]

/-- The alternatives `a` and `b`. -/
theorem parse_alternatives : plainGrammar.parse "a|b".toList =
    some (Alternatives.tree ⟨[letter 'b'], [[letter 'a']]⟩) := by
  have hrun : plainGrammar.run .new ['a', '|', 'b'] =
      some ⟨.new, ⟨[letter 'b'], [[letter 'a']]⟩, []⟩ := by
    rw [RegexGrammar.run_cons]
    change plainGrammar.run ⟨.new, ⟨[letter 'a'], []⟩, []⟩ ['|', 'b'] = _
    rw [RegexGrammar.run_cons]
    change plainGrammar.run ⟨.new, ⟨[], [[letter 'a']]⟩, []⟩ ['b'] = _
    rw [RegexGrammar.run_cons]
    exact RegexGrammar.run_nil _ _
  exact RegexGrammar.parse_eq_some_iff.mpr ⟨_, hrun, rfl, rfl⟩

theorem readOpen_alternatives : plainGrammar.readOpen (withoutAnchors "a|b").toList =
    some ⟨⟨[letter 'b'], [[letter 'a', caret]]⟩, some .new⟩ := by
  have hopen : plainGrammar.runOpen (RegexGrammar.stateAt 1) ['a', '|', 'b'] =
      some (⟨.new, ⟨[letter 'b'], [[letter 'a', caret]]⟩, []⟩, .boundary) := by
    rw [RegexGrammar.runOpen_cons _ (by decide) (by decide)]
    change plainGrammar.runOpen ⟨.new, ⟨[letter 'a', caret], []⟩, []⟩ ['|', 'b'] = _
    rw [RegexGrammar.runOpen_cons _ (by decide) (by decide)]
    change plainGrammar.runOpen ⟨.new, ⟨[], [[letter 'a', caret]]⟩, []⟩ ['b'] = _
    rw [RegexGrammar.runOpen_cons _ (by decide) (by decide)]
    exact RegexGrammar.runOpen_nil _ _
  change plainGrammar.readOpen ['a', '|', 'b'] = _
  rw [RegexGrammar.readOpen, hopen]

/-- The expression `a|b` removes `ax`, because `^a` matches its beginning. -/
theorem removes_alternatives :
    ∃ tree, plainGrammar.parse "a|b".toList = some tree ∧ ¬tree.FullMatch "ax".toList ∧
      JvmArgumentOverrides.Removes plainGrammar.library "a|b" "ax" ∧
      V2.JvmArgumentOverrides.Removes plainGrammar.library "a|b" "ax" := by
  obtain ⟨expression, hopen, hfull, hremoves⟩ :=
    removes_iff_looselyMatches plainGrammar.follows_library parse_alternatives
  obtain rfl := Option.some.inj (readOpen_alternatives.symm.trans hopen)
  have hloose : OpenExpression.LooselyMatches
      ⟨⟨[letter 'b'], [[letter 'a', caret]]⟩, some .new⟩ "ax".toList := by
    refine Or.inr ⟨_, List.mem_singleton_self _, [], ['a'], ['x'], rfl, ?_⟩
    exact ⟨[], ['a'], rfl, ⟨[], [], rfl, rfl, rfl, rfl⟩, 'a', rfl, rfl⟩
  refine ⟨_, parse_alternatives, ?_, (hremoves "ax").1.mpr hloose, (hremoves "ax").2.mpr hloose⟩
  rw [RegexTree.FullMatch, Alternatives.matches_tree_iff]
  rintro ⟨pieces, hmem, hmatches⟩
  obtain rfl | hmem := List.mem_cons.mp hmem
  · exact absurd (eq_of_matches_letter hmatches) (by decide)
  · obtain rfl := List.mem_singleton.mp hmem
    exact absurd (eq_of_matches_letter hmatches) (by decide)

/-- A single alternative only removes whole arguments. -/
theorem removeRegex_wholeArguments_letter :
    ∃ tree, plainGrammar.parse "a".toList = some tree ∧
      (JvmArgumentOverrides.Removes plainGrammar.library "a" "ax" ↔
        tree.FullMatch "ax".toList) ∧
      (V2.JvmArgumentOverrides.Removes plainGrammar.library "a" "ax" ↔
        tree.FullMatch "ax".toList) := by
  have hrun : plainGrammar.run .new ['a'] = some ⟨.new, ⟨[letter 'a'], []⟩, []⟩ := by
    rw [RegexGrammar.run_cons]
    exact RegexGrammar.run_nil _ _
  have hopen : plainGrammar.readOpen (withoutAnchors "a").toList =
      some ⟨⟨[letter 'a', caret], []⟩, some .new⟩ := by
    have hopen : plainGrammar.runOpen (RegexGrammar.stateAt 1) ['a'] =
        some (⟨.new, ⟨[letter 'a', caret], []⟩, []⟩, .boundary) := by
      rw [RegexGrammar.runOpen_cons _ (by decide) (by decide)]
      exact RegexGrammar.runOpen_nil _ _
    change plainGrammar.readOpen ['a'] = _
    rw [RegexGrammar.readOpen, hopen]
  have hparse : plainGrammar.parse "a".toList = some (Alternatives.tree ⟨[letter 'a'], []⟩) :=
    RegexGrammar.parse_eq_some_iff.mpr ⟨_, hrun, rfl, rfl⟩
  have hheld : OpenExpression.IsHeld ⟨⟨[letter 'a', caret], []⟩, some .new⟩ :=
    ⟨rfl, ⟨[letter 'a'], rfl⟩, .new, rfl, rfl⟩
  exact ⟨_, hparse, removeRegex_wholeArguments_of_anchorsHold plainGrammar.follows_library hparse
    ⟨_, hopen, hheld⟩ "ax"⟩

end StackableOperator
