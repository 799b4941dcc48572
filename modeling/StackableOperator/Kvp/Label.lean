import Mathlib
import StackableOperator.ForMathlib.IterMap
import StackableOperator.Kvp.Key
import StackableOperator.Kvp.Pairs

/-!
# Labels

A label is a key with a label value, and `Labels` holds one value for each key. Labels that are
collected from a list override the earlier ones with the same key. `get?_toBTreeMap_fromIter`
says what the labels of an object are if the listed keys are different.
-/

namespace StackableOperator

def k8sAppNameKey : String := "app.kubernetes.io/name"

def k8sAppInstanceKey : String := "app.kubernetes.io/instance"

def k8sAppVersionKey : String := "app.kubernetes.io/version"

def k8sAppComponentKey : String := "app.kubernetes.io/component"

def k8sAppManagedByKey : String := "app.kubernetes.io/managed-by"

def k8sAppRoleGroupKey : String := "app.kubernetes.io/role-group"

def stackableVendorKey : String := "stackable.tech/vendor"

def stackableVendorValue : String := "Stackable"

namespace Kvp

def labelValueMaxLen : ℕ := 63

inductive LabelValueError : Type
  | valueTooLong (length : ℕ)
  | valueNotAscii
  | valueInvalid
  deriving DecidableEq

/-- The checks of a label value, in their order. -/
def LabelValue.check (input : String) : Except LabelValueError Unit :=
  if input.utf8ByteSize > labelValueMaxLen then .error (.valueTooLong input.utf8ByteSize)
  else if !isAscii input then .error .valueNotAscii
  else if !matchesName input.toList then .error .valueInvalid
  else .ok ()

/-- A validated label value. -/
abbrev LabelValue : Type := { s : String // LabelValue.check s = .ok () }

def LabelValue.fromStr (input : String) : Except LabelValueError LabelValue :=
  checked LabelValue.check input

theorem LabelValue.check_eq_ok_iff {s : String} :
    LabelValue.check s = .ok () ↔
      s.utf8ByteSize ≤ labelValueMaxLen ∧ isAscii s = true ∧ matchesName s.toList = true := by
  unfold LabelValue.check
  by_cases hlength : s.utf8ByteSize ≤ labelValueMaxLen
  · rw [if_neg (Nat.not_lt.mpr hlength)]
    cases isAscii s <;> cases matchesName s.toList <;> simp [hlength]
  · rw [if_pos (Nat.not_le.mp hlength)]
    simp [hlength]

abbrev LabelError : Type := KeyValuePairError LabelValueError

/-- A validated label. -/
structure Label where
  key : Key
  value : LabelValue

/-- Parse the key first and then the value. -/
def Label.tryFrom (key value : String) : Except LabelError Label :=
  match Key.fromStr key with
  | .error e => .error (.invalidKey e key)
  | .ok k =>
    match LabelValue.fromStr value with
    | .error e => .error (.invalidValue e k.string value)
    | .ok v => .ok ⟨k, v⟩

/-- A valid key with a valid value is a label. -/
theorem Label.tryFrom_eq_ok {key value : String} {k : Key} (hkey : Key.fromStr key = .ok k)
    (hvalue : LabelValue.check value = .ok ()) :
    Label.tryFrom key value = .ok ⟨k, ⟨value, hvalue⟩⟩ := by
  rw [Label.tryFrom, hkey, LabelValue.fromStr, checked_of_eq_ok hvalue]

/-- The value of a label is the given one. -/
theorem Label.value_of_tryFrom {key value : String} {label : Label}
    (h : Label.tryFrom key value = .ok label) : label.value.1 = value := by
  unfold Label.tryFrom at h
  split at h
  · simp at h
  · split at h
    · simp at h
    · rename_i v hv
      obtain rfl := Except.ok.inj h
      exact checked_eq_ok_iff.mp hv

/-- The `app.kubernetes.io/instance` label. -/
def Label.instance (value : String) : Except LabelError Label :=
  Label.tryFrom k8sAppInstanceKey value

/-- The `app.kubernetes.io/name` label. -/
def Label.name (value : String) : Except LabelError Label := Label.tryFrom k8sAppNameKey value

/-- The `app.kubernetes.io/version` label. -/
def Label.version (value : String) : Except LabelError Label :=
  Label.tryFrom k8sAppVersionKey value

/-- The `app.kubernetes.io/component` label. -/
def Label.component (value : String) : Except LabelError Label :=
  Label.tryFrom k8sAppComponentKey value

/-- The `app.kubernetes.io/role-group` label. -/
def Label.roleGroup (value : String) : Except LabelError Label :=
  Label.tryFrom k8sAppRoleGroupKey value

/-- The `stackable.tech/vendor` label. -/
def Label.stackableVendor : Except LabelError Label :=
  Label.tryFrom stackableVendorKey stackableVendorValue

/-- A set of labels with different keys. -/
abbrev Labels : Type := BTreeMap Key LabelValue

def Labels.fromIter (labels : List Label) : Labels :=
  IterMap.collect (M := BTreeMap Key) (labels.map fun label => (label.key, label.value))

def Labels.new : Labels := IterMap.empty (M := BTreeMap Key)

/-- Insert a label, overwriting one with the same key. -/
def Labels.insert (self : Labels) (label : Label) : Labels :=
  IterMap.insert (M := BTreeMap Key) self label.key label.value

/-- Insert all labels of `other`, overwriting those with the same keys. -/
def Labels.extend (self other : Labels) : Labels :=
  IterMap.extend (M := BTreeMap Key) self other

theorem Labels.insert_fromIter (labels : List Label) (label : Label) :
    (Labels.fromIter labels).insert label = Labels.fromIter (labels ++ [label]) := by
  rw [fromIter, fromIter, IterMap.collect, IterMap.collect, List.map_append, List.foldl_append]
  rfl

@[simp] theorem Labels.extend_new (labels : Labels) : Labels.new.extend labels = labels := by
  refine BTreeMap.ext_get? fun key => ?_
  rw [extend, IterMap.get?_extend, new, IterMap.get?_empty, Option.or_none]

/-- The labels of an object. -/
def Labels.toBTreeMap (labels : Labels) : BTreeMap String String :=
  IterMap.collect (M := BTreeMap String)
    ((IterMap.iter (M := BTreeMap Key) labels).map fun e => (e.1.string, e.2.1))

/-- **The labels of an object** are those that were listed, if no key is listed twice. -/
theorem Labels.get?_toBTreeMap_fromIter {labels : List Label}
    (h : (labels.map fun label => label.key.string).Nodup) {key value : String} :
    IterMap.get? (M := BTreeMap String) (Labels.fromIter labels).toBTreeMap key = some value ↔
      ∃ label ∈ labels, label.key.string = key ∧ label.value.1 = value := by
  have hpairs : ((labels.map fun label => (label.key, label.value)).map
      fun e => e.1.string).Nodup := by
    rw [List.map_map]
    exact h
  rw [Labels.fromIter, Labels.toBTreeMap]
  refine (get?_displayPairs_collect (f := Subtype.val) hpairs).trans ⟨?_, ?_⟩
  · rintro ⟨e, he, hkey, hvalue⟩
    obtain ⟨label, hlabel, rfl⟩ := List.mem_map.mp he
    exact ⟨label, hlabel, hkey, hvalue⟩
  · rintro ⟨label, hlabel, hkey, hvalue⟩
    exact ⟨(label.key, label.value), List.mem_map.mpr ⟨label, hlabel, rfl⟩, hkey, hvalue⟩

end Kvp

end StackableOperator
