import Mathlib
import StackableOperator.Json

/-!
# JSON merge patches

`Value.mergePatch` is the algorithm of RFC 7396. It differs from the deep merge of documents
where the patch has an object and the document has none: the deep merge inserts this object as it
is, whereas the algorithm of the RFC merges it into an empty object and thus leaves out its null
fields. `mergeFrom_eq_mergePatch_iff` says exactly when the results are the same.
-/

namespace StackableOperator

namespace Value

/-- The keys of an object; other documents have no keys. -/
def keys : Value → Finset String
  | object keys _ => keys
  | _ => ∅

theorem get?_eq_none_of_notMem_keys {v : Value} {k : String} (h : k ∉ v.keys) :
    v.get? k = none := by
  cases v with
  | object keys values => exact dif_neg h
  | _ => rfl

theorem get?_eq_none_of_not_isObject {v : Value} (h : v.isObject = false) (k : String) :
    v.get? k = none := by
  cases v with
  | object keys values => simp [isObject] at h
  | _ => rfl

/-- The algorithm `MergePatch` of RFC 7396. A target that is no object counts as an empty one,
and so does a missing field. -/
def mergePatch : Value → Value → Value
  | target, object keys values =>
    objectOf (target.keys ∪ keys) fun k =>
      if h : k ∈ keys then
        if (values ⟨k, h⟩).isNull then none
        else some (mergePatch ((target.get? k).getD null) (values ⟨k, h⟩))
      else target.get? k
  | _, patch => patch

/-- The fields of a patched document. -/
theorem get?_mergePatch_object (target : Value) {keys : Finset String}
    (values : {k // k ∈ keys} → Value) (k : String) :
    (mergePatch target (object keys values)).get? k =
      if h : k ∈ keys then
        if (values ⟨k, h⟩).isNull then none
        else some (mergePatch ((target.get? k).getD null) (values ⟨k, h⟩))
      else target.get? k := by
  rw [mergePatch, get?_objectOf]
  split
  · rfl
  · rename_i hk
    rw [Finset.mem_union, not_or] at hk
    rw [dif_neg hk.2, get?_eq_none_of_notMem_keys hk.1]

/-- There is only one deep merge. -/
theorem IsDeepMerge.eq_mergeFrom {merge : Value → Value → Value} (hmerge : IsDeepMerge merge)
    (base : Value) : ∀ new, merge base new = mergeFrom base new
  | object keys values => by
    cases hbase : base.isObject with
    | false =>
      have hfalse : (base.isObject && (object keys values).isObject) = false := by
        rw [hbase, Bool.false_and]
      rw [hmerge.otherwise hfalse, isDeepMerge_mergeFrom.otherwise hfalse]
    | true =>
      refine eq_of_get?_eq (hmerge.isObject_merge hbase rfl)
        (isDeepMerge_mergeFrom.isObject_merge hbase rfl) fun k => ?_
      rw [hmerge.get?_merge hbase rfl, isDeepMerge_mergeFrom.get?_merge hbase rfl]
      by_cases hk : k ∈ keys
      · have hget : (object keys values).get? k = some (values ⟨k, hk⟩) := dif_pos hk
        rw [hget]
        cases base.get? k with
        | none => rfl
        | some old =>
          have ih := IsDeepMerge.eq_mergeFrom hmerge old (values ⟨k, hk⟩)
          simp only [mergeField, ih]
      · have hget : (object keys values).get? k = none := dif_neg hk
        rw [hget]
        rfl
  | null | bool _ | number _ | string _ | array _ => by
    rw [hmerge.otherwise (Bool.and_false _), isDeepMerge_mergeFrom.otherwise (Bool.and_false _)]

/-- Where the patch has an object with a null field, the document has an object, too. -/
def NullsMeetObjects : Value → Value → Prop
  | base, object keys values =>
    (base.isObject = true ∨ ∀ k : {k // k ∈ keys}, (values k).isNull = false) ∧
      ∀ k : {k // k ∈ keys}, NullsMeetObjects ((base.get? k).getD null) (values k)
  | _, _ => True

/-- A value that is no object is merged like `null`. -/
theorem mergeFrom_null (v : Value) : mergeFrom null v = v :=
  isDeepMerge_mergeFrom.otherwise rfl

section Object

variable {keys : Finset String} {values : {k // k ∈ keys} → Value}

theorem get?_object (k : {k // k ∈ keys}) : (object keys values).get? k = some (values k) :=
  dif_pos k.2

/-- The two results agree at a field of the patch iff a null field meets an object and the
results of merging the fields agree. -/
theorem get?_mergeFrom_eq_iff {base : Value} {k : {k // k ∈ keys}}
    (ih : mergeFrom ((base.get? k).getD null) (values k) =
      mergePatch ((base.get? k).getD null) (values k) ↔
        NullsMeetObjects ((base.get? k).getD null) (values k)) :
    (mergeFrom base (object keys values)).get? k = (mergePatch base (object keys values)).get? k ↔
      (base.isObject = true ∨ (values k).isNull = false) ∧
        NullsMeetObjects ((base.get? k).getD null) (values k) := by
  rw [get?_mergePatch_object, dif_pos k.2]
  cases hnull : (values k).isNull with
  | true =>
    have hvalue : values k = null := by
      cases hv : values k <;> rw [hv] at hnull <;> first | rfl | simp [isNull] at hnull
    rw [if_pos rfl, hvalue]
    cases hbase : base.isObject with
    | true =>
      rw [isDeepMerge_mergeFrom.get?_merge hbase rfl, get?_object, hvalue]
      simp [mergeField, isNull, NullsMeetObjects]
    | false =>
      rw [isDeepMerge_mergeFrom.otherwise (by rw [hbase, Bool.false_and]), get?_object]
      simp
  | false =>
    rw [if_neg (by simp), ← ih]
    cases hbase : base.isObject with
    | true =>
      rw [isDeepMerge_mergeFrom.get?_merge hbase rfl, get?_object]
      cases base.get? k <;> simp [mergeField, hnull, mergeFrom_null]
    | false =>
      rw [isDeepMerge_mergeFrom.otherwise (by rw [hbase, Bool.false_and]), get?_object,
        get?_eq_none_of_not_isObject hbase]
      simp [mergeFrom_null]

/-- Both results are objects, and outside the patch they have the fields of the document. -/
theorem mergeFrom_object_eq_iff (base : Value) :
    mergeFrom base (object keys values) = mergePatch base (object keys values) ↔
      ∀ k : {k // k ∈ keys}, (mergeFrom base (object keys values)).get? k =
        (mergePatch base (object keys values)).get? k := by
  refine ⟨fun h k => by rw [h], fun h => ?_⟩
  have hobject : (mergeFrom base (object keys values)).isObject = true := by
    cases base <;> rfl
  refine eq_of_get?_eq hobject rfl fun k => ?_
  by_cases hk : k ∈ keys
  · exact h ⟨k, hk⟩
  · have hget : (object keys values).get? k = none := dif_neg hk
    rw [get?_mergePatch_object, dif_neg hk]
    cases hbase : base.isObject with
    | true => rw [isDeepMerge_mergeFrom.get?_merge hbase rfl, hget, mergeField]
    | false =>
      rw [isDeepMerge_mergeFrom.otherwise (by rw [hbase, Bool.false_and]), hget,
        get?_eq_none_of_not_isObject hbase]

end Object

/-- **Deep merge and RFC 7396** give the same document iff null fields only occur where there is
an object to remove fields from. -/
theorem mergeFrom_eq_mergePatch_iff (base : Value) :
    ∀ patch, mergeFrom base patch = mergePatch base patch ↔ NullsMeetObjects base patch
  | object keys values => by
    have ih (k : {k // k ∈ keys}) :=
      mergeFrom_eq_mergePatch_iff ((base.get? k).getD null) (values k)
    rw [mergeFrom_object_eq_iff, NullsMeetObjects, ← forall_or_left, ← forall_and]
    exact forall_congr' fun k => get?_mergeFrom_eq_iff (ih k)
  | null | bool _ | number _ | string _ | array _ => by
    rw [isDeepMerge_mergeFrom.otherwise (Bool.and_false _)]
    simp [mergePatch, NullsMeetObjects]

end Value

end StackableOperator
