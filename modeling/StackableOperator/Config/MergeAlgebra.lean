import Mathlib
import StackableOperator.Config.Merge

/-!
# The algebra of merging

Without enums, no layer cuts off another one, so that merging is determined by `Option.or` at every
place. `merge_algebra` lifts the laws of `Option.or` to all fragments: merging is associative and
idempotent, and the fragment that sets nothing is its identity.

Values are compared as `PartialEq` does. Two maps are equal if they have equal values for the same
keys, whatever order they iterate in; `equiv_iff_observe` says that two values are equal iff no
place tells them apart. For maps that are ordered by their keys this is equality (`Equiv.eq`).
-/

namespace StackableOperator

namespace MergeTy

/-- The type has no enum that is merged variant by variant. -/
def EnumFree : MergeTy → Prop
  | atomic _ => True
  | struct _ fields => ∀ i, (fields i).EnumFree
  | map _ _ _ value => value.EnumFree
  | optionEnum _ _ _ => False

/-- The value that sets nothing: `None` at every leaf, and empty maps. -/
def unset : (t : MergeTy) → t.Value
  | atomic _ => none
  | struct _ fields => fun i => (fields i).unset
  | map _ _ _ _ => IterMap.empty
  | optionEnum _ _ _ => none

/-- Equality of values. -/
def Equiv : (t : MergeTy) → t.Value → t.Value → Prop
  | atomic _, x, y => x = y
  | struct _ fields, x, y => ∀ i, (fields i).Equiv (x i) (y i)
  | map _ _ _ value, x, y =>
    ∀ k, Option.Rel value.Equiv (IterMap.get? x k) (IterMap.get? y k)
  | optionEnum _ _ fields, x, y =>
    -- the same variant, with equal fields
    Option.Rel (fun s s' => s.1 = s'.1 ∧ ∀ v a b, sigmaAt v s = some a → sigmaAt v s' = some b →
      ∀ i, (fields v i).Equiv (a i) (b i)) x y

/-! ### Places tell values apart -/

/-- Options are related if both are set or none is, and what they hold is related. -/
theorem rel_of_forall {V O : Type} {R : V → V → Prop} {f : V → O} {x y : Option V}
    (hmap : x.map f = y.map f) (h : ∀ a b, x = some a → y = some b → R a b) :
    Option.Rel R x y := by
  match x, y with
  | none, none => exact .none
  | some a, some b => exact .some (h a b rfl rfl)

/-- Related options agree on every function that does not tell related values apart. -/
theorem bind_eq_of_rel {V O : Type} {R : V → V → Prop} {f : V → Option O} {x y : Option V}
    (h : Option.Rel R x y) (hf : ∀ a b, R a b → f a = f b) : x.bind f = y.bind f := by
  cases h with
  | none => rfl
  | some hab => exact hf _ _ hab

theorem map_eq_of_rel {V O : Type} {R : V → V → Prop} {f : V → O} {x y : Option V}
    (h : Option.Rel R x y) (hf : ∀ a b, R a b → f a = f b) : x.map f = y.map f := by
  rw [Option.map_eq_bind, Option.map_eq_bind]
  exact bind_eq_of_rel h fun a b hab => congrArg some (hf a b hab)

theorem eq_of_rel {V : Type} {R : V → V → Prop} {x y : Option V} (h : Option.Rel R x y)
    (hR : ∀ a b, R a b → a = b) : x = y := by
  cases h with
  | none => rfl
  | some hab => exact congrArg some (hR _ _ hab)

/-- **Equality is observable**: two values are equal iff they set the same at every place. -/
theorem equiv_iff_observe {t : MergeTy} (x y : t.Value) :
    t.Equiv x y ↔ ∀ p : Path t, p.observe x = p.observe y := by
  constructor
  · intro h p
    induction p with
    | leaf => exact h
    | field i p ih => exact ih _ _ (h i)
    | hasKey k => exact map_eq_of_rel (h k) fun _ _ _ => rfl
    | key k p ih => exact bind_eq_of_rel (h k) ih
    | variant => exact map_eq_of_rel h fun _ _ hs => hs.1
    | variantField v i p ih =>
      refine bind_eq_of_rel h fun s s' hs => ?_
      obtain ⟨hvariant, hfields⟩ := hs
      obtain ⟨w, a⟩ := s
      obtain ⟨w', a'⟩ := s'
      obtain rfl : w = w' := hvariant
      -- of another variant nothing is observed
      by_cases hw : w = v
      · subst hw
        rw [sigmaAt_self, sigmaAt_self]
        exact ih _ _ (hfields w a a' (sigmaAt_self w _) (sigmaAt_self w _) i)
      · rw [sigmaAt_of_ne _ hw, sigmaAt_of_ne _ hw]
  · intro h
    -- conversely what is observed below a place determines the value there
    induction t with
    | atomic α => exact h .leaf
    | struct n fields ih => exact fun i => ih i _ _ fun p => h (.field i p)
    | map K M inst value ih =>
      intro k
      refine rel_of_forall (h (.hasKey k)) fun a b ha hb => ih a b fun p => ?_
      have hp : (IterMap.get? x k).bind p.observe = (IterMap.get? y k).bind p.observe :=
        h (.key k p)
      rwa [ha, hb] at hp
    | optionEnum n arity fields ih =>
      refine rel_of_forall (h .variant) fun s s' hs hs' => ⟨?_, fun v a b ha hb i => ?_⟩
      · have hvariant : Option.map Sigma.fst x = Option.map Sigma.fst y := h .variant
        rw [hs, hs'] at hvariant
        exact Option.some.inj hvariant
      · refine ih v i _ _ fun p => ?_
        have hp : Option.bind x (fun s => (sigmaAt v s).bind fun a => p.observe (a i)) =
            Option.bind y (fun s => (sigmaAt v s).bind fun a => p.observe (a i)) :=
          h (.variantField v i p)
        rw [hs, hs', Option.bind_some, Option.bind_some, ha, hb] at hp
        exact hp

/-! ### Maps that are ordered by their keys -/

/-- All maps are determined by their lookups. -/
def Extensional : MergeTy → Prop
  | atomic _ => True
  | struct _ fields => ∀ i, (fields i).Extensional
  | map _ M _ value => value.Extensional ∧
    ∀ {V : Type} (m m' : M V), (∀ k, IterMap.get? m k = IterMap.get? m' k) → m = m'
  | optionEnum _ _ fields => ∀ v i, (fields v i).Extensional

/-- Equal values are the same if all maps are. -/
theorem Equiv.eq {t : MergeTy} (ht : t.Extensional) {x y : t.Value} (h : t.Equiv x y) : x = y := by
  induction t with
  | atomic α => exact h
  | struct n fields ih => exact funext fun i => ih i (ht i) (h i)
  | map K M inst value ih =>
    exact ht.2 x y fun k => eq_of_rel (h k) fun a b hab => ih ht.1 hab
  | optionEnum n arity fields ih =>
    refine eq_of_rel h fun s s' hs => ?_
    obtain ⟨hvariant, hfields⟩ := hs
    obtain ⟨v, a⟩ := s
    obtain ⟨v', a'⟩ := s'
    obtain rfl : v = v' := hvariant
    have hab : a = a' := funext fun i =>
      ih v i (ht v i) (hfields v a a' (sigmaAt_self v _) (sigmaAt_self v _) i)
    rw [hab]

/-! ### The laws -/

/-- Without enums, no layer cuts off another one. -/
theorem Path.cutsOff_eq_false {t : MergeTy} (ht : t.EnumFree) (p : Path t) (x : t.Value) :
    p.cutsOff x = false := by
  induction p with
  | leaf => rfl
  | field i p ih => exact ih (ht i) (x i)
  | hasKey k => rfl
  | key k p ih =>
    unfold Path.cutsOff
    cases IterMap.get? x k with
    | none => rfl
    | some v => exact ih ht v
  | variant => exact ht.elim
  | variantField v i p ih => exact ht.elim

/-- Without enums, a merged value sets what `self` sets, and else what `defaults` sets. -/
theorem Path.observe_merge_of_enumFree {t : MergeTy} (ht : t.EnumFree) (p : Path t)
    (self defaults : t.Value) :
    p.observe (t.merge self defaults) = (p.observe self).or (p.observe defaults) := by
  rw [Path.observe_merge, Path.cutsOff_eq_false ht, if_neg Bool.false_ne_true]

/-- The unset value sets nothing. -/
theorem Path.observe_unset {t : MergeTy} (p : Path t) : p.observe t.unset = none := by
  induction p with
  | leaf => rfl
  | field i p ih => exact ih
  | @hasKey K M inst value k =>
    have hget : IterMap.get? (M := M) (IterMap.empty : M value.Value) k = none :=
      IterMap.get?_empty k
    exact congrArg (Option.map fun _ => ()) hget
  | @key K M inst value k p ih =>
    have hget : IterMap.get? (M := M) (IterMap.empty : M value.Value) k = none :=
      IterMap.get?_empty k
    exact congrArg (Option.bind · p.observe) hget
  | variant => rfl
  | variantField v i p ih => rfl

/-- **The algebra of merging**: for fragments without enums, merging is associative and
idempotent, the fragment that sets nothing is its identity on both sides, and what is set in
`self` is kept. -/
theorem merge_algebra {t : MergeTy} (ht : t.EnumFree) (a b c : t.Value) :
    t.Equiv (t.merge (t.merge a b) c) (t.merge a (t.merge b c)) ∧
    t.Equiv (t.merge a a) a ∧
    t.Equiv (t.merge t.unset a) a ∧
    t.Equiv (t.merge a t.unset) a ∧
    ∀ (p : Path t) v, p.observe a = some v → p.observe (t.merge a b) = some v := by
  simp only [equiv_iff_observe, Path.observe_merge_of_enumFree ht, Path.observe_unset]
  refine ⟨fun p => Option.or_assoc, fun p => Option.or_self, fun p => Option.none_or,
    fun p => Option.or_none, fun p v hv => ?_⟩
  rw [hv, Option.some_or]

/-- A struct of a number and a map from names to flags. -/
def simpleFragment : MergeTy :=
  .struct 2 fun
    | 0 => .atomic ℕ
    | 1 => .map String (BTreeMap String) (BTreeMap.instIterMap String) (.atomic Bool)

def simpleValue (number : Option ℕ) (flags : List (String × Option Bool)) : simpleFragment.Value
  | 0 => number
  | 1 => IterMap.collect (M := BTreeMap String) flags

/-- The laws for fragments of which each one sets something else. -/
theorem merge_algebra_simpleFragment :
    simpleFragment.EnumFree ∧
    simpleFragment.Equiv
      (simpleFragment.merge (simpleFragment.merge (simpleValue (some 1) [("a", none)])
        (simpleValue (some 2) [("a", some true)])) (simpleValue none [("b", some false)]))
      (simpleFragment.merge (simpleValue (some 1) [("a", none)])
        (simpleFragment.merge (simpleValue (some 2) [("a", some true)])
          (simpleValue none [("b", some false)]))) := by
  have hfree : simpleFragment.EnumFree := fun
    | 0 => trivial
    | 1 => trivial
  exact ⟨hfree, (merge_algebra hfree _ _ _).1⟩

end MergeTy

end StackableOperator
