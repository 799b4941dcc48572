import Mathlib
import StackableOperator.ForMathlib.IterMap

/-!
# Merging configuration fragments

`Merge` is the trait of values that can be completed by defaults. Its implementations are
generated from the shape of a type: `Option` of an atomic type, `BTreeMap` and `HashMap` of
mergeable values, structs and (optional) enums through the derive macro. `MergeTy` is the
universe of these shapes, `MergeTy.Value` interprets a shape as a type, and `MergeTy.merge`
is the implementation which the trait resolves to at that type.

What merging means is stated on **observation paths**. A path leads from the root of a value
to a leaf, to the presence of a map key or to the variant of an enum, and `observe` reads what
one layer sets there. On its way a path may pass through enums, naming a variant each time; a
layer with another variant there **cuts off** every less specific layer. The value of
`mostSpecific` is the first one that some layer sets, scanned from the most specific layer to
the first layer that cuts the rest off.

The main result is `observe_mergeLayers`: merging a stack of layers and observing the result
is the same as scanning the layers. It rests on the two-layer law `observe_merge`, one
induction over paths.
-/

namespace StackableOperator

/-- A type that can be merged with itself: `merge self defaults` prefers the values of
`self`. -/
class Merge (T : Type) where
  /-- Merge with `defaults`, preferring values from `self` if they are set there. -/
  merge : T → T → T

/-- The value of a dependent pair at the index `i`, if that is its index. -/
def sigmaAt {ι : Type} [DecidableEq ι] {β : ι → Type} (i : ι) (x : (j : ι) × β j) :
    Option (β i) :=
  if h : x.1 = i then some (h ▸ x.2) else none

@[simp] theorem sigmaAt_self {ι : Type} [DecidableEq ι] {β : ι → Type} (i : ι) (b : β i) :
    sigmaAt i (⟨i, b⟩ : (j : ι) × β j) = some b := by
  simp [sigmaAt]

@[simp] theorem sigmaAt_of_ne {ι : Type} [DecidableEq ι] {β : ι → Type} {i j : ι} (b : β j)
    (h : j ≠ i) : sigmaAt i (⟨j, b⟩ : (j : ι) × β j) = none := by
  simp [sigmaAt, h]

/-! ### The generated match on two enums -/

section Enum

variable {n : ℕ} {β : Fin n → Type}

/-- The `match` which the derive macro generates for an optional enum: one arm for each
variant that both sides have, then the two fallback arms. -/
def mergeEnum (mergeFields : (v : Fin n) → β v → β v → β v) :
    Option ((v : Fin n) × β v) → Option ((v : Fin n) × β v) → Option ((v : Fin n) × β v)
  | some ⟨v, a⟩, some defaults =>
    match sigmaAt v defaults with
    | some b => some ⟨v, mergeFields v a b⟩
    -- self is set but mismatches defaults, discard defaults
    | none => some ⟨v, a⟩
  -- self is unset, inherit everything from defaults
  | none, defaults => defaults
  | some x, none => some x

/-- The merged enum has the variant of `self` if that is set, else the one of `defaults`. -/
theorem map_fst_mergeEnum (f : (v : Fin n) → β v → β v → β v)
    (self defaults : Option ((v : Fin n) × β v)) :
    (mergeEnum f self defaults).map Sigma.fst =
      (self.map Sigma.fst).or (defaults.map Sigma.fst) := by
  match self, defaults with
  | none, d => simp [mergeEnum]
  | some ⟨v, a⟩, none => rfl
  | some ⟨v, a⟩, some d => cases h : sigmaAt v d <;> simp [mergeEnum, h]

/-- Reading the fields of the variant `v` off a merged enum. The fields are merged if both
sides have the variant, and `defaults` is cut off if `self` has another one. -/
theorem bind_mergeEnum {O : Type} (f : (v : Fin n) → β v → β v → β v) (v : Fin n)
    (obs : β v → Option O) (cut : β v → Bool)
    (h : ∀ a b, obs (f v a b) = (obs a).or (if cut a then none else obs b))
    (self defaults : Option ((v : Fin n) × β v)) :
    ((mergeEnum f self defaults).bind fun s => (sigmaAt v s).bind obs) =
      (self.bind fun s => (sigmaAt v s).bind obs).or
        (if self.any fun s => (sigmaAt v s).all cut then none
          else defaults.bind fun s => (sigmaAt v s).bind obs) := by
  match self, defaults with
  | none, d => simp [mergeEnum]
  | some s, none => simp [mergeEnum]
  | some ⟨w, a⟩, some ⟨u, b⟩ =>
    by_cases hw : w = v
    · subst hw
      by_cases hu : u = w
      · subst hu
        simp [mergeEnum, h]
      · simp [mergeEnum, hu]
    · -- `self` has another variant: it sets nothing here and cuts `defaults` off
      cases hwu : sigmaAt w (⟨u, b⟩ : (j : Fin n) × β j) <;> simp [mergeEnum, hw, hwu]

end Enum

/-- Reading a value off two combined map entries, as `bind_mergeEnum` for enums. -/
theorem bind_optionMerge {V O : Type} (f : V → V → V) (obs : V → Option O) (cut : V → Bool)
    (h : ∀ a b, obs (f a b) = (obs a).or (if cut a then none else obs b))
    (self defaults : Option V) :
    (self.merge f defaults).bind obs =
      (self.bind obs).or (if self.any cut then none else defaults.bind obs) := by
  cases self <;> cases defaults <;> simp [h]

/-- A combined entry is present iff one of the two entries is. -/
theorem map_optionMerge {V O : Type} (f : V → V → V) (o : O) (self defaults : Option V) :
    (self.merge f defaults).map (fun _ => o) =
      (self.map fun _ => o).or (defaults.map fun _ => o) := by
  cases self <;> cases defaults <;> rfl

/-! ### The mergeable types -/

/-- The shapes of mergeable types. Fields and variants are numbered in declaration order. -/
inductive MergeTy : Type 1
  /-- `Option<T>` of a type `T` that is merged as one single value. -/
  | atomic (α : Type)
  /-- A struct that derives `Merge`. -/
  | struct (n : ℕ) (fields : Fin n → MergeTy)
  /-- A `BTreeMap` or `HashMap` of mergeable values. -/
  | map (K : Type) (M : Type → Type) (inst : IterMap K M) (value : MergeTy)
  /-- `Option<E>` of an enum `E` that derives `Merge`; unit variants have no fields. -/
  | optionEnum (n : ℕ) (arity : Fin n → ℕ) (fields : (v : Fin n) → Fin (arity v) → MergeTy)

namespace MergeTy

/-- The values of a mergeable type. -/
def Value : MergeTy → Type
  | atomic α => Option α
  | struct n fields => (i : Fin n) → (fields i).Value
  | map _ M _ value => M value.Value
  | optionEnum n arity fields =>
      Option ((v : Fin n) × ((i : Fin (arity v)) → (fields v i).Value))

/-- Merge `self` with `defaults`, by the shape of their type. -/
def merge : (t : MergeTy) → t.Value → t.Value → t.Value
  | atomic _, self, defaults =>
    match self with
    | none => defaults
    | some x => some x
  | struct _ fields, self, defaults => fun i => (fields i).merge (self i) (defaults i)
  | map _ _ _ value, self, defaults => IterMap.mergeWith value.merge self defaults
  | optionEnum _ _ fields, self, defaults =>
    mergeEnum (fun v a b i => (fields v i).merge (a i) (b i)) self defaults

instance instMergeValue (t : MergeTy) : Merge t.Value := ⟨t.merge⟩

/-! ### Observation paths -/

/-- The places of a mergeable type at which a layer can set something. -/
inductive Path : MergeTy → Type 1
  /-- The value of an atomic leaf. -/
  | leaf {α : Type} : Path (atomic α)
  /-- A place inside a struct field. -/
  | field {n : ℕ} {fields : Fin n → MergeTy} (i : Fin n) (p : Path (fields i)) :
      Path (struct n fields)
  /-- The presence of a map key. -/
  | hasKey {K : Type} {M : Type → Type} {inst : IterMap K M} {value : MergeTy} (k : K) :
      Path (map K M inst value)
  /-- A place inside the value of a map key. -/
  | key {K : Type} {M : Type → Type} {inst : IterMap K M} {value : MergeTy} (k : K)
      (p : Path value) : Path (map K M inst value)
  /-- The variant of an optional enum. -/
  | variant {n : ℕ} {arity : Fin n → ℕ} {fields : (v : Fin n) → Fin (arity v) → MergeTy} :
      Path (optionEnum n arity fields)
  /-- A place inside a field of the variant `v` of an optional enum. -/
  | variantField {n : ℕ} {arity : Fin n → ℕ}
      {fields : (v : Fin n) → Fin (arity v) → MergeTy} (v : Fin n) (i : Fin (arity v))
      (p : Path (fields v i)) : Path (optionEnum n arity fields)

namespace Path

/-- What can be set at a place: a leaf value, a variant, or the mere presence of a key. -/
def Obs : {t : MergeTy} → Path t → Type
  | _, @leaf α => α
  | _, field _ p => p.Obs
  | _, hasKey _ => Unit
  | _, key _ p => p.Obs
  | _, @variant n _ _ => Fin n
  | _, variantField _ _ p => p.Obs

/-- What one layer sets at a place, if anything. -/
def observe : {t : MergeTy} → (p : Path t) → t.Value → Option p.Obs
  | _, leaf, x => x
  | _, field i p, x => p.observe (x i)
  | _, hasKey k, x => (IterMap.get? x k).map fun _ => ()
  | _, key k p, x => (IterMap.get? x k).bind p.observe
  | _, variant, x => Option.map Sigma.fst x
  | _, variantField v i p, x =>
      Option.bind x fun s => (sigmaAt v s).bind fun a => p.observe (a i)

/-- A layer cuts off the less specific layers at a place iff some enum on the way to it is
set to a variant other than the one the path goes through. -/
def cutsOff : {t : MergeTy} → Path t → t.Value → Bool
  | _, leaf, _ => false
  | _, field i p, x => p.cutsOff (x i)
  | _, hasKey _, _ => false
  | _, key k p, x => (IterMap.get? x k).any p.cutsOff
  | _, variant, _ => false
  | _, variantField v i p, x =>
      Option.any (fun s => (sigmaAt v s).all fun a => p.cutsOff (a i)) x

/-- The value of the most specific layer that sets a place. Layers are listed from the most
specific one on; the scan ends at a layer that cuts off the rest. -/
def mostSpecific {t : MergeTy} (p : Path t) : List t.Value → Option p.Obs
  | [] => none
  | x :: layers => (p.observe x).or (if p.cutsOff x then none else p.mostSpecific layers)

/-- As long as no layer cuts off the others, every layer is scanned. -/
theorem mostSpecific_eq_findSome? {t : MergeTy} (p : Path t) {layers : List t.Value}
    (h : ∀ x ∈ layers, p.cutsOff x = false) :
    p.mostSpecific layers = layers.findSome? p.observe := by
  induction layers with
  | nil => rfl
  | cons x layers ih =>
    have hx : p.cutsOff x = false := h x List.mem_cons_self
    rw [mostSpecific, hx, ih fun y hy => h y (List.mem_cons_of_mem x hy), List.findSome?_cons]
    cases p.observe x <;> rfl

/-- **The two-layer law**: at every place, the merged value sets what `self` sets, else what
`defaults` sets, unless `self` cuts `defaults` off. -/
theorem observe_merge {t : MergeTy} (p : Path t) (self defaults : t.Value) :
    p.observe (t.merge self defaults) =
      (p.observe self).or (if p.cutsOff self then none else p.observe defaults) := by
  induction p with
  | leaf => cases self <;> rfl
  | field i p ih => exact ih (self i) (defaults i)
  | @hasKey K M inst value k =>
    have hget := IterMap.get?_mergeWith (M := M) value.merge self defaults k
    refine (congrArg (Option.map fun _ => ()) hget).trans ?_
    exact map_optionMerge _ () _ _
  | @key K M inst value k p ih =>
    have hget := IterMap.get?_mergeWith (M := M) value.merge self defaults k
    refine (congrArg (Option.bind · p.observe) hget).trans ?_
    exact bind_optionMerge _ _ _ ih _ _
  | variant => exact map_fst_mergeEnum _ self defaults
  | @variantField _ _ fields v i p ih =>
    exact bind_mergeEnum (fun v a b i => (fields v i).merge (a i) (b i)) v
      (fun a => p.observe (a i)) (fun a => p.cutsOff (a i)) (fun a b => ih (a i) (b i)) self
      defaults

end Path

/-! ### Stacks of layers -/

/-- Merge a stack of layers, the most specific one first, over a base layer. -/
def mergeLayers (t : MergeTy) (layers : List t.Value) (base : t.Value) : t.Value :=
  layers.foldr t.merge base

/-- **Layered merging is most-specific-first**: whatever place of a merged stack is observed,
it holds what the most specific layer sets that no layer before it cuts off. -/
theorem observe_mergeLayers {t : MergeTy} (p : Path t) (layers : List t.Value)
    (base : t.Value) :
    p.observe (t.mergeLayers layers base) = p.mostSpecific (layers ++ [base]) := by
  induction layers with
  | nil => cases h : p.cutsOff base <;> simp [mergeLayers, Path.mostSpecific, h]
  | cons x layers ih =>
    rw [mergeLayers, List.foldr_cons, Path.observe_merge, List.cons_append, Path.mostSpecific,
      ← ih, mergeLayers]

end MergeTy

end StackableOperator
