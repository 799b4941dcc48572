import Mathlib
import StackableOperator.ClusterResources.Resource

/-!
# Object overrides

The user can list arbitrary objects which are merged into the objects that the operator
creates. `applyDeepMerge` applies one of them, if it is meant for an object;
`ObjectOverrides.applyTo` applies all of them, one after the other.

Merging and parsing objects are library functions and fields of `KubeTypes`;
`KubeTypes.IsDocumented` has the documented merge strategies of the fields that matter here. A
scalar is replaced if the override sets it, and so is the node selector, which is an atomic map;
labels are merged entry by entry, owner references by their uid. Under these laws the overrides
that are merged are those that are meant for the original object (`applyTo_eq_foldl`), and a field
or a label ends up with the value that the last of them sets (`observe_foldl`).
-/

namespace StackableOperator

/-- The library functions on the types of cluster resources. -/
structure KubeTypes (F : Type) where
  /-- `DeepMerge::merge_from` -/
  mergeFrom : {k : Kind} → Object F k → Object F k → Object F k
  /-- `DynamicObject::try_parse` -/
  tryParse : (k : Kind) → DynamicObject → Except String (Object F k)

/-- The documented merge strategies, and that parsing keeps the metadata. -/
structure KubeTypes.IsDocumented {F : Type} (types : KubeTypes F) : Prop where
  name_mergeFrom : ∀ {k} (base other : Object F k),
    (types.mergeFrom base other).metadata.name = other.metadata.name.or base.metadata.name
  namespace_mergeFrom : ∀ {k} (base other : Object F k),
    (types.mergeFrom base other).metadata.namespace =
      other.metadata.namespace.or base.metadata.namespace
  label?_mergeFrom : ∀ {k} (base other : Object F k) key,
    (types.mergeFrom base other).metadata.label? key =
      (other.metadata.label? key).or (base.metadata.label? key)
  isOwnedBy_mergeFrom : ∀ {k} (base other : Object F k) uid,
    (types.mergeFrom base other).metadata.isOwnedBy uid =
      (base.metadata.isOwnedBy uid || other.metadata.isOwnedBy uid)
  replicas_mergeFrom_statefulSet : ∀ base other : Object F .statefulSet,
    Object.replicas (types.mergeFrom base other).contents =
      (Object.replicas other.contents).or (Object.replicas base.contents)
  replicas_mergeFrom_deployment : ∀ base other : Object F .deployment,
    Object.replicas (types.mergeFrom base other).contents =
      (Object.replicas other.contents).or (Object.replicas base.contents)
  nodeSelector_mergeFrom : ∀ base other : Object F .daemonSet,
    Object.nodeSelector (types.mergeFrom base other).contents =
      (Object.nodeSelector other.contents).or (Object.nodeSelector base.contents)
  metadata_tryParse : ∀ {k object o}, types.tryParse k object = .ok o →
    o.metadata = object.metadata

/-- An override could not be parsed as the type of the object it is meant for. -/
structure DeepMerger.Error where
  source : String
  targetApiVersion : String
  targetKind : String

/-! ### The model of the source -/

section Model

variable {F : Type} (types : KubeTypes F) {k : Kind}

/-- Merge an override into an object if kind, name and namespace are the same. -/
def applyDeepMerge (base : Object F k) (merge : DynamicObject) :
    Except DeepMerger.Error (Object F k) :=
  match merge.types with
  | none => .ok base
  | some mergeType =>
    if mergeType.apiVersion ≠ k.apiVersion ∨ mergeType.kind ≠ k.name then .ok base
    else
      match merge.metadata.name with
      | none => .ok base
      | some mergeName =>
        -- the name always needs to match
        if base.metadata.nameAny ≠ mergeName then .ok base
        -- if there is a namespace on the base object, it needs to match as well
        else if base.metadata.namespace ≠ merge.metadata.namespace then .ok base
        else
          match types.tryParse k merge with
          | .error source => .error ⟨source, k.apiVersion, k.name⟩
          | .ok deserializedMerge => .ok (types.mergeFrom base deserializedMerge)

/-- The objects that the user wants to be merged. -/
abbrev ObjectOverrides : Type := List DynamicObject

/-- Apply the overrides one after the other, up to the first error. The object is changed in
place, so that it is returned in both cases. -/
def ObjectOverrides.applyTo : ObjectOverrides → Object F k →
    Object F k × Except DeepMerger.Error Unit
  | [], base => (base, .ok ())
  | objectOverride :: overrides, base =>
    match applyDeepMerge types base objectOverride with
    | .ok merged => applyTo overrides merged
    | .error e => (base, .error e)

end Model

/-! ### What is merged -/

/-- The override is meant for objects of this kind with this metadata. -/
def DynamicObject.appliesTo (self : DynamicObject) (k : Kind) (metadata : ObjectMeta) : Bool :=
  (self.types.any fun mergeType =>
    mergeType.apiVersion = k.apiVersion && mergeType.kind = k.name) &&
  (self.metadata.name = some metadata.nameAny && metadata.namespace = self.metadata.namespace)

namespace ObjectOverrides

variable {F : Type} {types : KubeTypes F} {k : Kind}

/-- The parsed overrides that are meant for an object. -/
def mergesFor (types : KubeTypes F) (overrides : ObjectOverrides) (base : Object F k) :
    List (Object F k) :=
  (overrides.filter fun o => o.appliesTo k base.metadata).filterMap fun o =>
    (types.tryParse k o).toOption

/-- Applying one override: it is parsed and merged if it is meant for the object. -/
theorem applyDeepMerge_eq (base : Object F k) (merge : DynamicObject) :
    applyDeepMerge types base merge =
      if merge.appliesTo k base.metadata then
        match types.tryParse k merge with
        | .error source => .error ⟨source, k.apiVersion, k.name⟩
        | .ok deserializedMerge => .ok (types.mergeFrom base deserializedMerge)
      else .ok base := by
  unfold applyDeepMerge DynamicObject.appliesTo
  cases htypes : merge.types with
  | none => rfl
  | some mergeType =>
    by_cases hversion : mergeType.apiVersion = k.apiVersion
    · by_cases hkind : mergeType.kind = k.name
      · cases hname : merge.metadata.name with
        | none => simp [hversion, hkind]
        | some mergeName =>
          by_cases hany : base.metadata.nameAny = mergeName
          · by_cases hnamespace : base.metadata.namespace = merge.metadata.namespace <;>
              simp [hversion, hkind, hany, hnamespace]
          · have hne : mergeName ≠ base.metadata.nameAny := fun h => hany h.symm
            simp [hversion, hkind, hany, hne]
      · simp [hkind]
    · simp [hversion]

/-- Merging an override into the object it is meant for keeps name and namespace. -/
theorem appliesTo_mergeFrom (htypes : types.IsDocumented) {base d : Object F k}
    {merge : DynamicObject} (h : merge.appliesTo k base.metadata = true)
    (hd : d.metadata = merge.metadata) (o : DynamicObject) :
    o.appliesTo k (types.mergeFrom base d).metadata = o.appliesTo k base.metadata := by
  obtain ⟨-, hmeta⟩ := Bool.and_eq_true_iff.mp h
  obtain ⟨hname, hnamespace⟩ := Bool.and_eq_true_iff.mp hmeta
  rw [decide_eq_true_iff] at hname hnamespace
  have hsameName : (types.mergeFrom base d).metadata.nameAny = base.metadata.nameAny := by
    rw [ObjectMeta.nameAny, htypes.name_mergeFrom, hd, hname]
    rfl
  have hsameNamespace :
      (types.mergeFrom base d).metadata.namespace = base.metadata.namespace := by
    rw [htypes.namespace_mergeFrom, hd, ← hnamespace, Option.or_self]
  rw [DynamicObject.appliesTo, DynamicObject.appliesTo, hsameName, hsameNamespace]

/-- The override can be parsed if it is meant for objects of this kind with this metadata. -/
def IsApplicable (types : KubeTypes F) (k : Kind) (metadata : ObjectMeta)
    (o : DynamicObject) : Prop :=
  o.appliesTo k metadata = true → ∃ d, types.tryParse k o = .ok d

/-- What one round of the loop does: either the override cannot be parsed, which is the result, or
the loop goes on with an object that other overrides are meant for iff they are meant for the
original one. -/
theorem applyTo_cons (htypes : types.IsDocumented) (o : DynamicObject)
    (overrides : ObjectOverrides) (base : Object F k) :
    (∃ source, o.appliesTo k base.metadata = true ∧ types.tryParse k o = .error source ∧
      applyTo types (o :: overrides) base = (base, .error ⟨source, k.apiVersion, k.name⟩)) ∨
    ∃ merged, applyTo types (o :: overrides) base = applyTo types overrides merged ∧
      IsApplicable types k base.metadata o ∧
      (∀ o' : DynamicObject, o'.appliesTo k merged.metadata = o'.appliesTo k base.metadata) ∧
      ∀ l, (mergesFor types (o :: l) base).foldl types.mergeFrom base =
        (mergesFor types l merged).foldl types.mergeFrom merged := by
  rw [applyTo, applyDeepMerge_eq]
  cases ho : o.appliesTo k base.metadata with
  | true =>
    rw [if_pos rfl]
    cases hparse : types.tryParse k o with
    | error source => exact .inl ⟨source, rfl, rfl, rfl⟩
    | ok d =>
      have hsame := appliesTo_mergeFrom htypes ho (htypes.metadata_tryParse hparse)
      refine .inr ⟨types.mergeFrom base d, rfl, fun _ => ⟨d, hparse⟩, hsame, fun l => ?_⟩
      simp only [mergesFor, hsame, List.filter_cons, ho, if_true, List.filterMap_cons, hparse,
        Except.toOption, List.foldl_cons]
  | false =>
    rw [if_neg Bool.false_ne_true]
    refine .inr ⟨base, rfl, fun h => absurd (ho.symm.trans h) Bool.false_ne_true,
      fun _ => rfl, fun l => ?_⟩
    rw [mergesFor, mergesFor, List.filter_cons, ho]
    rfl

/-- **What the overrides do**: those that are meant for the original object are merged into it, in
their order. They are all merged if they can be parsed. Else the first one that cannot be parsed is
the error, and those before it have been merged. -/
theorem applyTo_cases (htypes : types.IsDocumented) (overrides : ObjectOverrides)
    (base : Object F k) :
    ((∀ o ∈ overrides, IsApplicable types k base.metadata o) ∧
      overrides.applyTo types base =
        ((mergesFor types overrides base).foldl types.mergeFrom base, .ok ())) ∨
    ∃ front o rest source, overrides = front ++ o :: rest ∧
      (∀ o' ∈ front, IsApplicable types k base.metadata o') ∧
      o.appliesTo k base.metadata = true ∧ types.tryParse k o = .error source ∧
      overrides.applyTo types base = ((mergesFor types front base).foldl types.mergeFrom base,
        .error ⟨source, k.apiVersion, k.name⟩) := by
  induction overrides generalizing base with
  | nil => exact .inl ⟨fun o ho => absurd ho List.not_mem_nil, rfl⟩
  | cons o overrides ih =>
    obtain ⟨source, happlies, hparse, heq⟩ | ⟨merged, heq, hparse, hsame, hfold⟩ :=
      applyTo_cons htypes o overrides base
    · exact .inr ⟨[], o, overrides, source, rfl, fun o' ho' => absurd ho' List.not_mem_nil,
        happlies, hparse, heq⟩
    · have hsame' : ∀ o', IsApplicable types k merged.metadata o' ↔
          IsApplicable types k base.metadata o' := fun o' => by
        rw [IsApplicable, IsApplicable, hsame]
      obtain ⟨hall, hok⟩ | ⟨front, o', rest, source, rfl, hall, happlies, herror, hfail⟩ :=
        ih merged
      · refine .inl ⟨List.forall_mem_cons.mpr ⟨hparse, fun o' ho' => (hsame' o').mp (hall o' ho')⟩,
          ?_⟩
        rw [heq, hok, hfold]
      · refine .inr ⟨o :: front, o', rest, source, rfl, List.forall_mem_cons.mpr
          ⟨hparse, fun o'' ho'' => (hsame' o'').mp (hall o'' ho'')⟩, hsame o' ▸ happlies,
          herror, ?_⟩
        rw [heq, hfail, hfold]

/-- Overrides that are meant for other objects have no effect. -/
theorem applyTo_filter (htypes : types.IsDocumented) (overrides : ObjectOverrides)
    (base : Object F k) :
    applyTo types (overrides.filter fun o => o.appliesTo k base.metadata) base =
      overrides.applyTo types base := by
  induction overrides generalizing base with
  | nil => rfl
  | cons o overrides ih =>
    cases ho : o.appliesTo k base.metadata with
    | true =>
      rw [List.filter_cons, ho, if_pos rfl, applyTo, applyTo, applyDeepMerge_eq, ho, if_pos rfl]
      cases hparse : types.tryParse k o with
      | error source => rfl
      | ok d =>
        have hsame := appliesTo_mergeFrom htypes ho (htypes.metadata_tryParse hparse)
        have hmerged := ih (types.mergeFrom base d)
        simp only [hsame] at hmerged
        exact hmerged
    | false =>
      rw [List.filter_cons, ho, if_neg Bool.false_ne_true, ih, applyTo, applyDeepMerge_eq, ho,
        if_neg Bool.false_ne_true]

/-- If the overrides are applied without an error, all that are meant for the original object are
merged. -/
theorem applyTo_eq_foldl (htypes : types.IsDocumented) {overrides : ObjectOverrides}
    {base applied : Object F k} (h : overrides.applyTo types base = (applied, .ok ())) :
    applied = (mergesFor types overrides base).foldl types.mergeFrom base := by
  obtain ⟨-, hok⟩ | ⟨_, _, _, _, -, -, -, -, hfail⟩ := applyTo_cases htypes overrides base
  · exact (Prod.mk.inj (h.symm.trans hok)).1
  · exact absurd (Prod.mk.inj (h.symm.trans hfail)).2 (by simp)

/-- What the last of the merged objects sets that sets it at all. -/
def lastSet {β : Type} (observe : Object F k → Option β) (merges : List (Object F k)) : Option β :=
  merges.reverse.findSome? observe

/-- **The last one wins**: where merging prefers what the other object sets, the merged object
has what the last object sets. -/
theorem observe_foldl {β : Type} {observe : Object F k → Option β}
    (hobserve : ∀ base other,
      observe (types.mergeFrom base other) = (observe other).or (observe base))
    (merges : List (Object F k)) (base : Object F k) :
    observe (merges.foldl types.mergeFrom base) = (lastSet observe merges).or (observe base) := by
  induction merges using List.reverseRecOn with
  | nil => rfl
  | append_singleton merges other ih =>
    rw [List.foldl_concat, hobserve, ih, lastSet, lastSet, List.reverse_concat,
      List.findSome?_cons]
    cases observe other <;> rfl

/-- The merged objects are the parsed overrides that are meant for the original one. -/
theorem mem_mergesFor {overrides : ObjectOverrides} {base d : Object F k} :
    d ∈ mergesFor types overrides base ↔
      ∃ o ∈ overrides, o.appliesTo k base.metadata = true ∧ types.tryParse k o = .ok d := by
  rw [mergesFor, List.mem_filterMap]
  constructor
  · rintro ⟨o, ho, hparse⟩
    obtain ⟨hmem, happlies⟩ := List.mem_filter.mp ho
    cases hd : types.tryParse k o with
    | error source =>
      rw [hd] at hparse
      cases hparse
    | ok d' =>
      rw [hd] at hparse
      obtain rfl := Option.some.inj hparse
      exact ⟨o, hmem, happlies, hd⟩
  · rintro ⟨o, hmem, happlies, hd⟩
    refine ⟨o, List.mem_filter.mpr ⟨hmem, happlies⟩, ?_⟩
    rw [hd]
    rfl

/-- The merged objects are in the namespace of the original one. -/
theorem namespace_of_mem_mergesFor (htypes : types.IsDocumented) {overrides : ObjectOverrides}
    {base d : Object F k} (h : d ∈ mergesFor types overrides base) :
    d.metadata.namespace = base.metadata.namespace := by
  obtain ⟨o, -, happlies, hd⟩ := mem_mergesFor.mp h
  obtain ⟨-, hmeta⟩ := Bool.and_eq_true_iff.mp happlies
  have hsame := of_decide_eq_true (Bool.and_eq_true_iff.mp hmeta).2
  rw [htypes.metadata_tryParse hd, hsame]

/-- Overrides keep the namespace. -/
theorem namespace_applyTo (htypes : types.IsDocumented) {overrides : ObjectOverrides}
    {base applied : Object F k} (h : overrides.applyTo types base = (applied, .ok ())) :
    applied.metadata.namespace = base.metadata.namespace := by
  have hmerges : ∀ merges : List (Object F k),
      (∀ o ∈ merges, o.metadata.namespace = base.metadata.namespace) →
      (merges.foldl types.mergeFrom base).metadata.namespace = base.metadata.namespace := by
    intro merges hall
    induction merges using List.reverseRecOn with
    | nil => rfl
    | append_singleton merges o ih =>
      rw [List.foldl_concat, htypes.namespace_mergeFrom, hall o (by simp),
        ih fun o' ho' => hall o' (List.mem_append_left _ ho'), Option.or_self]
  rw [applyTo_eq_foldl htypes h]
  exact hmerges _ fun o ho => namespace_of_mem_mergesFor htypes ho

/-- Overrides keep the name that objects are applied with. -/
theorem nameAny_applyTo (htypes : types.IsDocumented) {overrides : ObjectOverrides}
    {base applied : Object F k} (h : overrides.applyTo types base = (applied, .ok ())) :
    applied.metadata.nameAny = base.metadata.nameAny := by
  have hname : ∀ o ∈ mergesFor types overrides base,
      o.metadata.name = some base.metadata.nameAny := by
    intro d hd
    obtain ⟨o, -, happlies, hparse⟩ := mem_mergesFor.mp hd
    obtain ⟨-, hmeta⟩ := Bool.and_eq_true_iff.mp happlies
    rw [htypes.metadata_tryParse hparse]
    exact of_decide_eq_true (Bool.and_eq_true_iff.mp hmeta).1
  rw [applyTo_eq_foldl htypes h]
  cases hmerges : mergesFor types overrides base using List.reverseRecOn with
  | nil => rfl
  | append_singleton merges o =>
    rw [List.foldl_concat, ObjectMeta.nameAny, htypes.name_mergeFrom, hname o (by simp [hmerges])]
    rfl

/-- Overrides keep the owners. -/
theorem isOwnedBy_applyTo (htypes : types.IsDocumented) {overrides : ObjectOverrides}
    {base applied : Object F k} (h : overrides.applyTo types base = (applied, .ok ()))
    {uid : String} (howned : base.metadata.isOwnedBy uid = true) :
    applied.metadata.isOwnedBy uid = true := by
  rw [applyTo_eq_foldl htypes h]
  induction mergesFor types overrides base using List.reverseRecOn with
  | nil => exact howned
  | append_singleton merges o ih =>
    rw [List.foldl_concat, htypes.isOwnedBy_mergeFrom, ih, Bool.true_or]

end ObjectOverrides

end StackableOperator
