import Mathlib

/-!
# JSON documents and the deep merge of documents

`Value` is the JSON document type. Objects are finite families of values over their key set,
so that two documents are equal iff they have the same keys with the same values, whatever
order the keys were written in.

Merging one document into another is the job of a library function. The model takes it as a
parameter; `IsDeepMerge` is what its documentation promises, and `Value.mergeFrom` is a
function that keeps the promise.
-/

namespace StackableOperator

/-- A JSON document. Numbers are kept by their literal. -/
inductive Value : Type
  | null
  | bool (b : Bool)
  | number (literal : String)
  | string (s : String)
  | array (items : List Value)
  | object (keys : Finset String) (values : {k // k ∈ keys} → Value)

namespace Value

def isNull : Value → Bool
  | null => true
  | _ => false

def isObject : Value → Bool
  | object _ _ => true
  | _ => false

/-- The field of an object; other documents have no fields. -/
def get? : Value → String → Option Value
  | object keys values, k => if h : k ∈ keys then some (values ⟨k, h⟩) else none
  | _, _ => none

/-- The object with the fields of `f`, over those of the given keys at which `f` has a
value. -/
def objectOf (keys : Finset String) (f : String → Option Value) : Value :=
  object (keys.filter fun k => (f k).isSome) fun k =>
    (f k).get (Finset.mem_filter.mp k.property).2

@[simp] theorem get?_objectOf (keys : Finset String) (f : String → Option Value) (k : String) :
    (objectOf keys f).get? k = if k ∈ keys then f k else none := by
  unfold objectOf get?
  by_cases hk : k ∈ keys
  · cases hf : f k <;> simp [hk, hf]
  · simp [hk]

/-- The keys of an object are those with a field. -/
theorem mem_keys_iff {keys : Finset String} {f : {k // k ∈ keys} → Value} {k : String} :
    k ∈ keys ↔ ((object keys f).get? k).isSome = true := by
  unfold get?
  by_cases h : k ∈ keys <;> simp [h]

/-- Objects with the same fields are equal. -/
theorem eq_of_get?_eq {v w : Value} (hv : v.isObject = true) (hw : w.isObject = true)
    (h : ∀ k, v.get? k = w.get? k) : v = w := by
  match v, w with
  | object keys values, object keys' values' =>
    obtain rfl : keys = keys' := by
      ext k
      rw [mem_keys_iff (f := values), mem_keys_iff (f := values'), h k]
    congr 1
    funext ⟨k, hk⟩
    have hget := h k
    simp only [get?, dif_pos hk] at hget
    exact Option.some.inj hget

/-! ### Deep merge -/

/-- What merging does to one field, given the old and the new one: a missing new field keeps
the old one, `null` removes it, any other value is merged into the old one or inserted. -/
def mergeField (merge : Value → Value → Value) : Option Value → Option Value → Option Value
  | old, none => old
  | old, some new =>
    if new.isNull then none
    else
      match old with
      | some old => some (merge old new)
      | none => some new

/-- The documented behaviour of the deep merge: objects are merged into objects key by key,
any other pair of documents is decided by the new one. -/
structure IsDeepMerge (merge : Value → Value → Value) : Prop where
  isObject_merge : ∀ {base new}, base.isObject = true → new.isObject = true →
    (merge base new).isObject = true
  get?_merge : ∀ {base new}, base.isObject = true → new.isObject = true →
    ∀ k, (merge base new).get? k = mergeField merge (base.get? k) (new.get? k)
  otherwise : ∀ {base new}, (base.isObject && new.isObject) = false → merge base new = new

/-- Merge the document `new` into `base`. -/
def mergeFrom : Value → Value → Value
  | object keys values, object keys' values' =>
    objectOf (keys ∪ keys') fun k =>
      if h : k ∈ keys' then
        if (values' ⟨k, h⟩).isNull then none
        else
          match (object keys values).get? k with
          | some old => some (mergeFrom old (values' ⟨k, h⟩))
          | none => some (values' ⟨k, h⟩)
      else (object keys values).get? k
  | _, new => new

/-- `mergeFrom` is a deep merge. -/
theorem isDeepMerge_mergeFrom : IsDeepMerge mergeFrom where
  isObject_merge {base new} hbase hnew := by
    match base, new with
    | object keys values, object keys' values' => rfl
  get?_merge {base new} hbase hnew k := by
    match base, new with
    | object keys values, object keys' values' =>
      rw [mergeFrom, get?_objectOf]
      by_cases h : k ∈ keys'
      · have hnew : (object keys' values').get? k = some (values' ⟨k, h⟩) := dif_pos h
        rw [if_pos (Finset.mem_union_right _ h), dif_pos h, hnew]
        rfl
      · have hnew : (object keys' values').get? k = none := dif_neg h
        rw [dif_neg h, hnew, mergeField]
        split
        · rfl
        · rename_i hk
          have hbase : (object keys values).get? k = none :=
            dif_neg fun hmem => hk (Finset.mem_union_left _ hmem)
          exact hbase.symm
  otherwise {base new} h := by
    cases base <;> cases new <;> first | rfl | simp [isObject] at h

/-- A string replaces whatever was there. -/
theorem IsDeepMerge.mergeField_string {merge : Value → Value → Value}
    (hmerge : IsDeepMerge merge) (old : Option Value) (s : String) :
    mergeField merge old (some (string s)) = some (string s) := by
  cases old with
  | none => rfl
  | some old =>
    have h : merge old (string s) = string s := hmerge.otherwise (Bool.and_false _)
    simp [mergeField, isNull, h]

end Value

end StackableOperator
