import Mathlib
import StackableOperator.ForMathlib.Traverse

/-!
# Validating configuration fragments

A fragment is a partially filled configuration; `validate` turns it into the full type or
names the first required leaf that is missing. `FragmentTy` is the universe of the types that
implement `FromFragment`: atomic types, `PodTemplateSpec`, derived structs, `BTreeMap`,
`HashMap` and `Option`. Each has a full type (`Value`), a `Fragment` type, and a
`RequiredFragment` type that is used where a container already says whether a value is there.

The validator is the linked list of the source: a chain of identifiers from the current place
to the root, walked backwards when an error is built. The specification speaks of typed leaf
paths instead: `LeafPath.UnsetAt` says that a required leaf is reachable through the present
containers but not set, `LeafPath.Before` is the order in which the leaves are visited
(declaration order of fields, key order of tree maps; hash maps have no order of their own).

The main result is `validate_exact`: validation succeeds iff no required leaf is unset, with
the unwrapped fragment as result, and an error names an unset leaf before which there is no
other.
-/

namespace StackableOperator

/-! ### Validator and validation errors -/

/-- The context for error messages: the identifier of the current place and the validator of
the place around it. The root has neither. -/
inductive Validator : Type
  | mk (ident : Option String) (parent : Option Validator)

inductive ValidationProblem : Type
  | fieldRequired
  deriving DecidableEq, Repr

/-- The identifiers from the failing place back to the root. -/
structure FieldPath where
  idents : List String
  deriving DecidableEq, Repr

/-- The dotted path, read from the root. -/
def FieldPath.fmt (path : FieldPath) : String := ".".intercalate path.idents.reverse

structure ValidationError where
  path : FieldPath
  problem : ValidationProblem
  deriving DecidableEq, Repr

def ValidationError.fmt (error : ValidationError) : String :=
  "failed to validate " ++ error.path.fmt

namespace Validator

/-- The validator of the whole fragment. -/
def root : Validator := ⟨none, none⟩

/-- A validator for a subfield of the current object. -/
def field (validator : Validator) (ident : String) : Validator := ⟨some ident, some validator⟩

/-- The identifiers that `error_problem` pushes while it walks up the chain of parents. -/
def idents : Validator → List String
  | ⟨ident, none⟩ => ident.toList
  | ⟨ident, some parent⟩ => ident.toList ++ parent.idents

def errorProblem (validator : Validator) (problem : ValidationProblem) : ValidationError :=
  ⟨⟨validator.idents⟩, problem⟩

def errorRequired (validator : Validator) : ValidationError :=
  validator.errorProblem .fieldRequired

@[simp] theorem idents_root : root.idents = [] := rfl

@[simp] theorem idents_field (validator : Validator) (ident : String) :
    (validator.field ident).idents = ident :: validator.idents := rfl

end Validator

/-! ### The types that can be validated -/

/-- The shapes of the types that implement `FromFragment`. Fields are numbered in declaration
order and carry their identifier; map keys carry their `Display`. -/
inductive FragmentTy : Type 1
  /-- An `Atomic` type. -/
  | atomic (α : Type)
  /-- `PodTemplateSpec`, which is its own fragment. -/
  | podTemplateSpec (α : Type)
  /-- A struct that derives `Fragment`. -/
  | struct (n : ℕ) (names : Fin n → String) (fields : Fin n → FragmentTy)
  | btreeMap (K : Type) (ord : LinearOrder K) (display : K → String) (value : FragmentTy)
  | hashMap (K : Type) (dec : DecidableEq K) (display : K → String) (value : FragmentTy)
  | option (t : FragmentTy)

namespace FragmentTy

/-- The full type, whose required leaves are all there. -/
def Value : FragmentTy → Type
  | atomic α => α
  | podTemplateSpec α => α
  | struct n _ fields => (i : Fin n) → (fields i).Value
  | btreeMap K _ _ value => BTreeMap K value.Value
  | hashMap K _ _ value => HashMap K value.Value
  | option t => Option t.Value

mutual

/-- The fragment type: atomic leaves may be missing. -/
def Fragment : FragmentTy → Type
  | atomic α => Option α
  | podTemplateSpec α => α
  | struct n _ fields => (i : Fin n) → (fields i).Fragment
  | btreeMap K _ _ value => BTreeMap K value.RequiredFragment
  | hashMap K _ _ value => HashMap K value.RequiredFragment
  | option t => Option t.RequiredFragment

/-- The fragment type inside a container that already indicates whether the value is
there. -/
def RequiredFragment : FragmentTy → Type
  | atomic α => α
  | podTemplateSpec α => α
  | struct n _ fields => (i : Fin n) → (fields i).Fragment
  | btreeMap K _ _ value => BTreeMap K value.RequiredFragment
  | hashMap K _ _ value => HashMap K value.RequiredFragment
  | option t => Option t.RequiredFragment

end

/-- The conversion of `RequiredFragment: Into<Fragment>`, the identity except for atomic
types. -/
def into : (t : FragmentTy) → t.RequiredFragment → t.Fragment
  | atomic _, x => some x
  | podTemplateSpec _, x => x
  | struct _ _ _, x => x
  | btreeMap _ _ _ _, x => x
  | hashMap _ _ _ _, x => x
  | option _, x => x

/-- Try to validate a fragment. Struct fields are evaluated in declaration order and map
entries in iteration order; the first error ends the evaluation. -/
def fromFragment : (t : FragmentTy) → t.Fragment → Validator →
    Except ValidationError t.Value
  | atomic _, fragment, validator =>
    match fragment with
    | some x => .ok x
    | none => .error validator.errorRequired
  | podTemplateSpec _, fragment, _ => .ok fragment
  | struct _ names fields, fragment, validator =>
    traverseFin fun i => (fields i).fromFragment (fragment i) (validator.field (names i))
  | btreeMap K _ display value, fragment, validator =>
    IterMap.traverse (M := BTreeMap K)
      (fun k v => value.fromFragment (value.into v) (validator.field (display k))) fragment
  | hashMap K _ display value, fragment, validator =>
    IterMap.traverse (M := HashMap K)
      (fun k v => value.fromFragment (value.into v) (validator.field (display k))) fragment
  -- an option does not add a path segment
  | option t, fragment, validator =>
    match fragment with
    | some fragment => (t.fromFragment (t.into fragment) validator).map some
    | none => .ok none

/-- Validate a whole fragment. -/
def validate (t : FragmentTy) (fragment : t.Fragment) : Except ValidationError t.Value :=
  t.fromFragment fragment Validator.root

/-! ### Leaves, their paths and their order -/

/-- The paths to the required leaves of a type. -/
inductive LeafPath : FragmentTy → Type 1
  | here {α : Type} : LeafPath (atomic α)
  | field {n : ℕ} {names : Fin n → String} {fields : Fin n → FragmentTy} (i : Fin n)
      (p : LeafPath (fields i)) : LeafPath (struct n names fields)
  | btreeKey {K : Type} {ord : LinearOrder K} {display : K → String} {value : FragmentTy}
      (k : K) (p : LeafPath value) : LeafPath (btreeMap K ord display value)
  | hashKey {K : Type} {dec : DecidableEq K} {display : K → String} {value : FragmentTy}
      (k : K) (p : LeafPath value) : LeafPath (hashMap K dec display value)
  | some {t : FragmentTy} (p : LeafPath t) : LeafPath (option t)

namespace LeafPath

/-- The identifiers on the way from the root to a leaf. -/
def segments : {t : FragmentTy} → LeafPath t → List String
  | _, here => []
  | _, @field _ names _ i p => names i :: p.segments
  | _, @btreeKey _ _ display _ k p => display k :: p.segments
  | _, @hashKey _ _ display _ k p => display k :: p.segments
  | _, some p => p.segments

/-- The leaf is reachable through the present containers, and it is not set. -/
def UnsetAt : {t : FragmentTy} → LeafPath t → t.Fragment → Prop
  | _, here, fragment => fragment = none
  | _, field i p, fragment => p.UnsetAt (fragment i)
  | _, @btreeKey K _ _ value k p, fragment =>
    ∃ v, IterMap.get? (M := BTreeMap K) fragment k = Option.some v ∧ p.UnsetAt (value.into v)
  | _, @hashKey K _ _ value k p, fragment =>
    ∃ v, IterMap.get? (M := HashMap K) fragment k = Option.some v ∧ p.UnsetAt (value.into v)
  | _, @some t p, fragment => ∃ v, fragment = Option.some v ∧ p.UnsetAt (t.into v)

/-- The order of leaves: fields by declaration, tree map entries by key. Leaves under
different keys of a hash map are not ordered. -/
inductive Before : {t : FragmentTy} → LeafPath t → LeafPath t → Prop
  | field_lt {n : ℕ} {names : Fin n → String} {fields : Fin n → FragmentTy} {i j : Fin n}
      {p : LeafPath (fields i)} {q : LeafPath (fields j)} (h : i < j) :
      Before (@field n names fields i p) (field j q)
  | field {n : ℕ} {names : Fin n → String} {fields : Fin n → FragmentTy} {i : Fin n}
      {p q : LeafPath (fields i)} (h : Before p q) :
      Before (@field n names fields i p) (field i q)
  | btreeKey_lt {K : Type} {ord : LinearOrder K} {display : K → String} {value : FragmentTy}
      {k k' : K} {p q : LeafPath value} (h : k < k') :
      Before (@btreeKey K ord display value k p) (btreeKey k' q)
  | btreeKey {K : Type} {ord : LinearOrder K} {display : K → String} {value : FragmentTy}
      {k : K} {p q : LeafPath value} (h : Before p q) :
      Before (@btreeKey K ord display value k p) (btreeKey k q)
  | hashKey {K : Type} {dec : DecidableEq K} {display : K → String} {value : FragmentTy}
      {k : K} {p q : LeafPath value} (h : Before p q) :
      Before (@hashKey K dec display value k p) (hashKey k q)
  | some {t : FragmentTy} {p q : LeafPath t} (h : Before p q) : Before p.some q.some

end LeafPath

/-! ### Successful validation unwraps every leaf -/

/-- The full value is the fragment with all its required leaves unwrapped. -/
def Unwraps : (t : FragmentTy) → t.Fragment → t.Value → Prop
  | atomic _, fragment, value => fragment = some value
  | podTemplateSpec _, fragment, value => fragment = value
  | struct _ _ fields, fragment, value => ∀ i, (fields i).Unwraps (fragment i) (value i)
  | btreeMap K _ _ v, fragment, value => ∀ k,
    Option.Rel (fun x y => v.Unwraps (v.into x) y) (IterMap.get? (M := BTreeMap K) fragment k)
      (IterMap.get? (M := BTreeMap K) value k)
  | hashMap K _ _ v, fragment, value => ∀ k,
    Option.Rel (fun x y => v.Unwraps (v.into x) y) (IterMap.get? (M := HashMap K) fragment k)
      (IterMap.get? (M := HashMap K) value k)
  | option t, fragment, value => Option.Rel (fun x y => t.Unwraps (t.into x) y) fragment value

/-- Success unwraps the leaves. -/
theorem unwraps_of_fromFragment_eq_ok (t : FragmentTy) {fragment : t.Fragment}
    {validator : Validator} {value : t.Value}
    (h : t.fromFragment fragment validator = .ok value) : t.Unwraps fragment value := by
  induction t generalizing validator with
  | atomic α =>
    match fragment with
    | none => cases h
    | some x => exact congrArg some (Except.ok.inj h)
  | podTemplateSpec α => exact Except.ok.inj h
  | struct n names fields ih => exact fun i => ih i (traverseFin_eq_ok.mp h i)
  | btreeMap K ord display v ih =>
    exact fun k => optionRel_imp (fun _ _ => ih)
      (IterMap.rel_of_traverse_eq_ok (M := BTreeMap K) h k)
  | hashMap K dec display v ih =>
    exact fun k => optionRel_imp (fun _ _ => ih)
      (IterMap.rel_of_traverse_eq_ok (M := HashMap K) h k)
  | option t ih =>
    match fragment with
    | none =>
      obtain rfl : none = value := Except.ok.inj h
      exact .none
    | some x =>
      cases hx : t.fromFragment (t.into x) validator with
      | error e => simp [fromFragment, hx, Except.map] at h
      | ok y =>
        rw [fromFragment, hx] at h
        obtain rfl : some y = value := Except.ok.inj h
        exact .some (ih hx)

/-- Where all leaves are unwrapped, none is unset. -/
theorem not_unsetAt_of_unwraps {t : FragmentTy} (p : LeafPath t) {fragment : t.Fragment}
    {value : t.Value} (h : t.Unwraps fragment value) : ¬ p.UnsetAt fragment := by
  induction p with
  | here => exact fun hp => by cases h.symm.trans hp
  | field i p ih => exact ih (h i)
  | @btreeKey K ord display v k p ih =>
    rintro ⟨x, hx, hp⟩
    have hk := h k
    rw [hx] at hk
    cases hrel : IterMap.get? (M := BTreeMap K) value k with
    | none => rw [hrel] at hk; cases hk
    | some y =>
      rw [hrel] at hk
      cases hk with
      | some hy => exact ih hy hp
  | @hashKey K dec display v k p ih =>
    rintro ⟨x, hx, hp⟩
    have hk := h k
    rw [hx] at hk
    cases hrel : IterMap.get? (M := HashMap K) value k with
    | none => rw [hrel] at hk; cases hk
    | some y =>
      rw [hrel] at hk
      cases hk with
      | some hy => exact ih hy hp
  | some p ih =>
    rintro ⟨x, rfl, hp⟩
    cases h with
    | some hy => exact ih hy hp

/-- A fragment that validates has no unset leaf. -/
theorem not_unsetAt_of_fromFragment_eq_ok {t : FragmentTy} {fragment : t.Fragment}
    {validator : Validator} (h : ∃ value, t.fromFragment fragment validator = .ok value)
    (p : LeafPath t) : ¬ p.UnsetAt fragment := by
  obtain ⟨value, h⟩ := h
  exact not_unsetAt_of_unwraps p (t.unwraps_of_fromFragment_eq_ok h)

/-! ### Errors name the first unset leaf -/

/-- The error that a validator reports for a required leaf below its place. -/
def errorAt {t : FragmentTy} (validator : Validator) (p : LeafPath t) : ValidationError :=
  ⟨⟨p.segments.reverse ++ validator.idents⟩, .fieldRequired⟩

/-- The text of an error reported from the root is the dotted path of its leaf. -/
theorem fmt_errorAt_root {t : FragmentTy} (p : LeafPath t) :
    (errorAt Validator.root p).fmt =
      "failed to validate " ++ ".".intercalate p.segments := by
  have hidents : (errorAt Validator.root p).path.idents.reverse = p.segments := by
    simp only [errorAt, Validator.idents_root, List.append_nil, List.reverse_reverse]
  unfold ValidationError.fmt FieldPath.fmt
  rw [hidents]

/-- An unset leaf before which, in visiting order, no other leaf is unset. -/
structure IsFirstUnset {t : FragmentTy} (fragment : t.Fragment) (p : LeafPath t) : Prop where
  unset : p.UnsetAt fragment
  first : ∀ q : LeafPath t, q.UnsetAt fragment → ¬ q.Before p

/-- **An error points at the first unset leaf**, and its identifiers are the segments of that
leaf's path below the validator's place. -/
theorem exists_isFirstUnset_of_fromFragment_eq_error (t : FragmentTy) {fragment : t.Fragment}
    {validator : Validator} {e : ValidationError}
    (h : t.fromFragment fragment validator = .error e) :
    ∃ p : LeafPath t, IsFirstUnset fragment p ∧ e = errorAt validator p := by
  induction t generalizing validator with
  | atomic α =>
    match fragment with
    | some x => cases h
    | none =>
      obtain rfl : validator.errorRequired = e := Except.error.inj h
      exact ⟨.here, ⟨rfl, fun q _ hq => by cases hq⟩, rfl⟩
  | podTemplateSpec α => cases h
  | struct n names fields ih =>
    -- the first field that fails; the fields before it are set
    obtain ⟨i, hi, hlt⟩ := exists_of_traverseFin_eq_error h
    obtain ⟨p, hp, rfl⟩ := ih i hi
    refine ⟨.field i p, ⟨hp.unset, fun q hq hbefore => ?_⟩, by
      simp [errorAt, LeafPath.segments]⟩
    cases hbefore with
    | field_lt hj => exact not_unsetAt_of_fromFragment_eq_ok (hlt _ hj) _ hq
    | field hb => exact hp.first _ hq hb
  | btreeMap K ord display v ih =>
    -- the first key that fails, in the order of the keys
    obtain ⟨k, x, hx, hk, hlt⟩ := BTreeMap.exists_of_traverse_eq_error h
    obtain ⟨p, hp, rfl⟩ := ih hk
    refine ⟨.btreeKey k p, ⟨⟨x, hx, hp.unset⟩, fun q hq hbefore => ?_⟩, by
      simp [errorAt, LeafPath.segments]⟩
    cases hbefore with
    | btreeKey_lt hk' =>
      obtain ⟨x', hx', hq⟩ := hq
      exact not_unsetAt_of_fromFragment_eq_ok (hlt _ hk' x' hx') _ hq
    | btreeKey hb =>
      obtain ⟨x', hx', hq⟩ := hq
      obtain rfl : x = x' := Option.some.inj (hx.symm.trans hx')
      exact hp.first _ hq hb
  | hashMap K dec display v ih =>
    -- some key fails; a hash map has no order
    obtain ⟨pre, k, x, post, hiter, hk, -⟩ :=
      IterMap.exists_of_traverse_eq_error (M := HashMap K) h
    have hx : IterMap.get? (M := HashMap K) fragment k = some x :=
      (IterMap.mem_iter (M := HashMap K) fragment k x).mp (by simp [hiter])
    obtain ⟨p, hp, rfl⟩ := ih hk
    refine ⟨.hashKey k p, ⟨⟨x, hx, hp.unset⟩, fun q hq hbefore => ?_⟩, by
      simp [errorAt, LeafPath.segments]⟩
    cases hbefore with
    | hashKey hb =>
      obtain ⟨x', hx', hq⟩ := hq
      obtain rfl : x = x' := Option.some.inj (hx.symm.trans hx')
      exact hp.first _ hq hb
  | option t ih =>
    match fragment with
    | none => cases h
    | some x =>
      have hx : t.fromFragment (t.into x) validator = .error e := by
        cases hx : t.fromFragment (t.into x) validator with
        | ok y => simp [fromFragment, hx, Except.map] at h
        | error e' => simpa [fromFragment, hx, Except.map] using h
      obtain ⟨p, hp, rfl⟩ := ih hx
      refine ⟨.some p, ⟨⟨x, rfl, hp.unset⟩, fun q hq hbefore => ?_⟩, rfl⟩
      cases hbefore with
      | some hb =>
        obtain ⟨x', hx', hq⟩ := hq
        obtain rfl : x = x' := Option.some.inj hx'
        exact hp.first _ hq hb

/-- **Fragment validation is exact**: it succeeds iff no required leaf is unset; the result is
the unwrapped fragment; an error is the text for the first unset leaf. -/
theorem validate_exact (t : FragmentTy) (fragment : t.Fragment) :
    ((∃ value, t.validate fragment = .ok value) ↔ ∀ p : LeafPath t, ¬ p.UnsetAt fragment) ∧
    (∀ value, t.validate fragment = .ok value → t.Unwraps fragment value) ∧
    (∀ e, t.validate fragment = .error e →
      ∃ p : LeafPath t, IsFirstUnset fragment p ∧ e.problem = .fieldRequired ∧
        e.fmt = "failed to validate " ++ ".".intercalate p.segments) := by
  refine ⟨⟨fun h p => not_unsetAt_of_fromFragment_eq_ok h p, fun h => ?_⟩,
    fun value h => t.unwraps_of_fromFragment_eq_ok h, fun e h => ?_⟩
  · rcases exists_ok_or_exists_error (t.validate fragment) with hok | ⟨e, he⟩
    · exact hok
    · obtain ⟨p, hp, -⟩ := t.exists_isFirstUnset_of_fromFragment_eq_error he
      exact absurd hp.unset (h p)
  · obtain ⟨p, hp, rfl⟩ := t.exists_isFirstUnset_of_fromFragment_eq_error h
    exact ⟨p, hp, rfl, fmt_errorAt_root p⟩

end FragmentTy

end StackableOperator
