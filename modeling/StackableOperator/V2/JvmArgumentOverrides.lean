import Mathlib
import StackableOperator.RoleUtils

/-!
# JVM argument overrides that are merged lazily

The overrides of a role group keep the ones of the role as preceding overrides; only
`JvmArgumentOverrides.applyTo` filters a list of arguments. Merging is therefore an infallible
`Merge`, and regexes are compiled when the overrides are read.

Each override by itself is an `ArgumentEdit`. `applyTo_merge` says that merged overrides are
applied one after the other, so that the lazy sequence has the same effect as filtering eagerly
while merging. Merging is therefore a homomorphism, and it does not matter how the layers are
bracketed (`merge_applies_layers`).
-/

namespace StackableOperator

namespace V2

/-- JVM arguments to be added and to be removed, and the overrides that must be applied
before. -/
structure JvmArgumentOverrides (RegexSet : Type) : Type where
  add : List String
  remove : Finset String
  removeRegex : RegexSet
  /-- Only merging writes this field. -/
  precedingOverrides : List (JvmArgumentOverrides RegexSet)

namespace JvmArgumentOverrides

variable {lib : RegexLibrary}

def merge {RegexSet : Type} (self defaults : JvmArgumentOverrides RegexSet) :
    JvmArgumentOverrides RegexSet :=
  { self with precedingOverrides := self.precedingOverrides ++ [defaults] }

instance {RegexSet : Type} : Merge (JvmArgumentOverrides RegexSet) := ⟨merge⟩

mutual

def applyTo : JvmArgumentOverrides lib.RegexSet → List String → List String
  | ⟨add, remove, removeRegex, precedingOverrides⟩, jvmArguments =>
    (((applyPreceding precedingOverrides jvmArguments).filter fun arg => arg ∉ remove).filter
      fun arg => !lib.isMatchSet removeRegex arg) ++ add

/-- Apply the preceding overrides, starting with the one that was added last. -/
def applyPreceding : List (JvmArgumentOverrides lib.RegexSet) → List String → List String
  | [], jvmArguments => jvmArguments
  | overrides :: precedingOverrides, jvmArguments =>
    overrides.applyTo (applyPreceding precedingOverrides jvmArguments)

end

/-- Compile the regexes of the user; no regexes are given by the default set. -/
def deserializeRegexSet (lib : RegexLibrary) :
    Option (List String) → Except lib.Error lib.RegexSet
  | none => .ok lib.defaultSet
  | some regexes => lib.newSet (regexes.map withAnchors)

def deserialize (lib : RegexLibrary) (user : UserJvmArgumentOverrides) :
    Except lib.Error (JvmArgumentOverrides lib.RegexSet) := do
  let removeRegex ← deserializeRegexSet lib user.removeRegex
  return ⟨user.add.getD [], (user.remove.getD []).toFinset, removeRegex, []⟩

/-! ### Merged overrides are applied one after the other -/

theorem applyPreceding_append (l l' : List (JvmArgumentOverrides lib.RegexSet))
    (args : List String) :
    applyPreceding (l ++ l') args = applyPreceding l (applyPreceding l' args) := by
  induction l with
  | nil => rw [List.nil_append, applyPreceding.eq_1]
  | cons overrides l ih => rw [List.cons_append, applyPreceding, applyPreceding, ih]

/-- Merging puts the defaults before the overrides. -/
theorem applyTo_merge (self defaults : JvmArgumentOverrides lib.RegexSet)
    (args : List String) :
    (self.merge defaults).applyTo args = self.applyTo (defaults.applyTo args) := by
  obtain ⟨add, remove, removeRegex, precedingOverrides⟩ := self
  rw [merge, applyTo, applyPreceding_append, applyPreceding, applyPreceding, applyTo]

/-- The overrides that come from merging layers, in any bracketing. -/
def mergeLayers {RegexSet : Type} :
    FreeMagma (JvmArgumentOverrides RegexSet) → JvmArgumentOverrides RegexSet
  | .of overrides => overrides
  | .mul upper lower => (mergeLayers upper).merge (mergeLayers lower)

/-- The layers of a bracketing, from the uppermost one on. -/
def layers {RegexSet : Type} :
    FreeMagma (JvmArgumentOverrides RegexSet) → List (JvmArgumentOverrides RegexSet)
  | .of overrides => [overrides]
  | .mul upper lower => layers upper ++ layers lower

theorem applyTo_mergeLayers (bracketing : FreeMagma (JvmArgumentOverrides lib.RegexSet))
    (args : List String) :
    (mergeLayers bracketing).applyTo args = (layers bracketing).foldr applyTo args := by
  induction bracketing generalizing args with
  | ih1 overrides => rw [mergeLayers, layers, List.foldr_cons, List.foldr_nil]
  | ih2 upper lower hupper hlower =>
    rw [← FreeMagma.mul_eq, mergeLayers, applyTo_merge, hlower, hupper, layers, List.foldr_append]

/-- **Merging is a homomorphism**: merged overrides are applied one after the other, and layers
that are merged in any bracketing have the effect of the layers from the lowermost one on. -/
theorem merge_applies_layers (lib : RegexLibrary) :
    (∀ (self defaults : JvmArgumentOverrides lib.RegexSet) (args : List String),
      (self.merge defaults).applyTo args = self.applyTo (defaults.applyTo args)) ∧
    ∀ (bracketing : FreeMagma (JvmArgumentOverrides lib.RegexSet)) (args : List String),
      (mergeLayers bracketing).applyTo args = (layers bracketing).foldr applyTo args :=
  ⟨applyTo_merge, applyTo_mergeLayers⟩

/-- Overrides of the user, applied by themselves, have the effect of the corresponding
edit. -/
theorem exists_applyTo_of_deserialize (hlib : lib.IsDocumented)
    {user : UserJvmArgumentOverrides} {overrides : JvmArgumentOverrides lib.RegexSet}
    (h : deserialize lib user = .ok overrides) :
    ∃ isMatch,
      StackableOperator.JvmArgumentOverrides.IsMatcher lib (user.removeRegex.getD []) isMatch ∧
      ∀ args, overrides.applyTo args =
        ((StackableOperator.JvmArgumentOverrides.deserialize user).edit isMatch).apply args := by
  obtain ⟨removeRegex, hregex, h⟩ := bind_eq_ok.mp h
  obtain rfl : ⟨user.add.getD [], (user.remove.getD []).toFinset, removeRegex, []⟩ = overrides :=
    Except.ok.inj h
  refine ⟨lib.isMatchSet removeRegex, ?_, fun args => ?_⟩
  · cases huser : user.removeRegex with
    | none =>
      rw [huser] at hregex
      obtain rfl : lib.defaultSet = removeRegex := Except.ok.inj hregex
      exact StackableOperator.JvmArgumentOverrides.isMatcher_default hlib
    | some regexes =>
      rw [huser] at hregex
      exact StackableOperator.JvmArgumentOverrides.isMatcher_of_newSet hlib hregex
  · rw [applyTo, applyPreceding, List.filter_filter]
    rfl

end JvmArgumentOverrides

end V2

end StackableOperator
