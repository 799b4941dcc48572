import Mathlib
import StackableOperator.Config.Merge
import StackableOperator.Json

/-!
# Config overrides that compose

Overrides for a JSON configuration file: a JSON merge patch, a JSON patch, a document given by
the user, or a sequence of overrides that starts with the latest one. Role and role group
overrides are not merged into one patch; `JsonConfigOverrides.merge` puts them into a
sequence, and `JsonConfigOverrides.apply` runs the sequence from its end. Key-value overrides
are flat maps; `JsonOrKeyValueConfigOverrides` holds either form.

Merging is composition: `merge_compose` states it for JSON overrides, for mixed layers after
conversion, and for key-value layers, where merging the maps first and converting the result
gives the same documents. The functions of the two libraries behind it (`DeepMerge` of
documents and `json_patch::patch`) are the fields of `JsonLibrary`.
-/

namespace StackableOperator

open Value (mergeField)

/-- The library functions that overrides are applied with. -/
structure JsonLibrary (Patch : Type) where
  /-- `DeepMerge::merge_from` of documents. -/
  mergeFrom : Value → Value → Value
  /-- `json_patch::patch`: the document it leaves behind, and an error if there was one. -/
  patch : Value → Patch → Value × Option String

namespace V2

/-! ### Key-value overrides -/

/-- Flat key-value overrides. -/
structure KeyValueConfigOverrides where
  overrides : BTreeMap String String

namespace KeyValueConfigOverrides

/-- The overrides of `self` extend a copy of the defaults. -/
def merge (self defaults : KeyValueConfigOverrides) : KeyValueConfigOverrides :=
  ⟨IterMap.extend (M := BTreeMap String) defaults.overrides self.overrides⟩

instance : Merge KeyValueConfigOverrides := ⟨merge⟩

/-- The value of a key, as a JSON string. -/
def field (self : KeyValueConfigOverrides) (k : String) : Option Value :=
  (IterMap.get? (M := BTreeMap String) self.overrides k).map Value.string

/-- The keys that are overridden. -/
def keys (self : KeyValueConfigOverrides) : Finset String :=
  IterMap.keys (M := BTreeMap String) self.overrides

/-- The JSON object that the key-value pairs are collected into. -/
def toObject (self : KeyValueConfigOverrides) : Value := Value.objectOf self.keys self.field

theorem mem_keys {self : KeyValueConfigOverrides} {k : String} :
    k ∈ self.keys ↔ (self.field k).isSome = true := by
  rw [keys, IterMap.mem_keys, field, Option.isSome_map]

theorem field_merge (self defaults : KeyValueConfigOverrides) (k : String) :
    (self.merge defaults).field k = (self.field k).or (defaults.field k) := by
  unfold field merge
  rw [IterMap.get?_extend]
  cases IterMap.get? (M := BTreeMap String) self.overrides k <;> rfl

end KeyValueConfigOverrides

/-! ### JSON overrides -/

/-- Overrides that can be applied to a JSON file. -/
inductive JsonConfigOverrides (Patch : Type) : Type
  /-- An RFC 7396 JSON merge patch. -/
  | jsonMergePatch (patch : Value)
  /-- An RFC 6902 JSON patch. -/
  | jsonPatch (patch : Patch)
  /-- A document that replaces the entire file. -/
  | userProvided (content : Value)
  /-- Overrides starting with the latest one; used to combine the layers. -/
  | sequence (patches : List (JsonConfigOverrides Patch))

namespace JsonConfigOverrides

variable {Patch : Type}

mutual

/-- Apply the overrides to a base document. -/
def apply (lib : JsonLibrary Patch) : JsonConfigOverrides Patch → Value → Value
  | jsonMergePatch patch, base => lib.mergeFrom base patch
  -- an error is only logged, the document is what the library leaves behind
  | jsonPatch patch, base => (lib.patch base patch).1
  | userProvided content, _ => content
  | sequence patches, base => applyRev lib patches base

/-- Apply a sequence of overrides in reverse order, from the first to the latest. -/
def applyRev (lib : JsonLibrary Patch) : List (JsonConfigOverrides Patch) → Value → Value
  | [], doc => doc
  | patch :: patches, doc => patch.apply lib (applyRev lib patches doc)

end

/-- The sequence that overrides stand for in a merge. -/
def toSequence : JsonConfigOverrides Patch → List (JsonConfigOverrides Patch)
  | sequence patches => patches
  | overrides => [overrides]

/-- Put the overrides of `self` in front of the ones of the defaults. -/
def merge (self defaults : JsonConfigOverrides Patch) : JsonConfigOverrides Patch :=
  sequence (self.toSequence ++ defaults.toSequence)

instance : Merge (JsonConfigOverrides Patch) := ⟨merge⟩

theorem applyRev_append (lib : JsonLibrary Patch) (l l' : List (JsonConfigOverrides Patch))
    (doc : Value) : applyRev lib (l ++ l') doc = applyRev lib l (applyRev lib l' doc) := by
  induction l with
  | nil => rfl
  | cons patch l ih => rw [List.cons_append, applyRev, applyRev, ih]

@[simp] theorem applyRev_toSequence (lib : JsonLibrary Patch)
    (overrides : JsonConfigOverrides Patch) (doc : Value) :
    applyRev lib overrides.toSequence doc = overrides.apply lib doc := by
  cases overrides <;> simp [toSequence, applyRev, apply]

/-- Applying merged overrides applies the defaults first. -/
theorem apply_merge (lib : JsonLibrary Patch) (self defaults : JsonConfigOverrides Patch)
    (base : Value) :
    (self.merge defaults).apply lib base = self.apply lib (defaults.apply lib base) := by
  rw [merge, apply, applyRev_append, applyRev_toSequence, applyRev_toSequence]

end JsonConfigOverrides

/-- Key-value overrides become a JSON merge patch. -/
def KeyValueConfigOverrides.toJson {Patch : Type} (self : KeyValueConfigOverrides) :
    JsonConfigOverrides Patch :=
  .jsonMergePatch self.toObject

/-! ### JSON or key-value overrides -/

/-- Overrides in either form. -/
inductive JsonOrKeyValueConfigOverrides (Patch : Type) : Type
  | json (overrides : JsonConfigOverrides Patch)
  | keyValue (overrides : KeyValueConfigOverrides)

namespace JsonOrKeyValueConfigOverrides

variable {Patch : Type}

def toJson : JsonOrKeyValueConfigOverrides Patch → JsonConfigOverrides Patch
  | json overrides => overrides
  | keyValue overrides => overrides.toJson

/-- Convert both sides and merge the JSON overrides. -/
def merge (self defaults : JsonOrKeyValueConfigOverrides Patch) :
    JsonOrKeyValueConfigOverrides Patch :=
  json (self.toJson.merge defaults.toJson)

instance : Merge (JsonOrKeyValueConfigOverrides Patch) := ⟨merge⟩

end JsonOrKeyValueConfigOverrides

/-! ### Composition -/

section Compose

variable {Patch : Type} {lib : JsonLibrary Patch}

namespace KeyValueConfigOverrides

@[simp] theorem get?_toObject (self : KeyValueConfigOverrides) (k : String) :
    self.toObject.get? k = self.field k := by
  rw [toObject, Value.get?_objectOf]
  split
  · rfl
  · rename_i hk
    exact (Option.not_isSome_iff_eq_none.mp (mt mem_keys.mpr hk)).symm

/-- The object of merged key-value layers, by its fields. -/
theorem toObject_ext {self : KeyValueConfigOverrides} {doc : Value}
    (hdoc : doc.isObject = true) (h : ∀ k, self.field k = doc.get? k) : self.toObject = doc :=
  Value.eq_of_get?_eq rfl hdoc fun k => (self.get?_toObject k).trans (h k)

/-- Merging key-value pairs into an object sets exactly their keys. -/
theorem get?_mergeFrom_toObject (hmerge : Value.IsDeepMerge lib.mergeFrom)
    (self : KeyValueConfigOverrides) {base : Value} (hbase : base.isObject = true)
    (k : String) :
    (lib.mergeFrom base self.toObject).get? k = (self.field k).or (base.get? k) := by
  rw [hmerge.get?_merge hbase rfl, get?_toObject]
  unfold field
  cases IterMap.get? (M := BTreeMap String) self.overrides k with
  | none => rfl
  | some s => exact hmerge.mergeField_string _ s

/-- Merging a document with a merged map is merging it with the one map after the other. -/
theorem mergeFrom_toObject_merge (hmerge : Value.IsDeepMerge lib.mergeFrom)
    (self defaults : KeyValueConfigOverrides) (base : Value) :
    lib.mergeFrom base (self.merge defaults).toObject =
      lib.mergeFrom (lib.mergeFrom base defaults.toObject) self.toObject := by
  cases hbase : base.isObject with
  | true =>
    have hdefaults : (lib.mergeFrom base defaults.toObject).isObject = true :=
      hmerge.isObject_merge hbase rfl
    refine Value.eq_of_get?_eq (hmerge.isObject_merge hbase rfl)
      (hmerge.isObject_merge hdefaults rfl) fun k => ?_
    rw [get?_mergeFrom_toObject hmerge _ hbase, get?_mergeFrom_toObject hmerge _ hdefaults,
      get?_mergeFrom_toObject hmerge _ hbase, field_merge, Option.or_assoc]
  | false =>
    -- the first object replaces the base, the second one is merged into the first
    have hreplace : ∀ new, lib.mergeFrom base new = new :=
      fun _ => hmerge.otherwise (by rw [hbase, Bool.false_and])
    rw [hreplace, hreplace]
    refine toObject_ext (hmerge.isObject_merge rfl rfl) fun k => ?_
    rw [get?_mergeFrom_toObject hmerge _ rfl, field_merge, get?_toObject]

end KeyValueConfigOverrides

/-- **Overrides compose**: applying a merge applies the defaults and then the overrides. This
holds for JSON overrides, for mixed layers after conversion, where conversion commutes with
merging, and for key-value layers that are merged as maps before their conversion. -/
theorem merge_compose (lib : JsonLibrary Patch) (hmerge : Value.IsDeepMerge lib.mergeFrom) :
    (∀ (a b : JsonConfigOverrides Patch) (base : Value),
      (a.merge b).apply lib base = a.apply lib (b.apply lib base)) ∧
    (∀ (a b : JsonOrKeyValueConfigOverrides Patch) (base : Value),
      (a.merge b).toJson.apply lib base = a.toJson.apply lib (b.toJson.apply lib base)) ∧
    (∀ a b : JsonOrKeyValueConfigOverrides Patch,
      (a.merge b).toJson = a.toJson.merge b.toJson) ∧
    (∀ (a b : KeyValueConfigOverrides) (base : Value),
      (a.merge b).toJson.apply lib base = (a.toJson.merge b.toJson).apply lib base) := by
  refine ⟨fun a b => a.apply_merge lib b, fun a b => a.toJson.apply_merge lib b.toJson,
    fun a b => rfl, fun a b base => ?_⟩
  rw [JsonConfigOverrides.apply_merge]
  exact a.mergeFrom_toObject_merge hmerge b base

/-- The composition law at the documented deep merge, with a patch function that leaves every
document as it is. -/
theorem merge_compose_mergeFrom :
    Value.IsDeepMerge Value.mergeFrom ∧
      ∀ (a b : JsonConfigOverrides Unit) (base : Value),
        (a.merge b).apply ⟨Value.mergeFrom, fun doc _ => (doc, none)⟩ base =
          a.apply ⟨Value.mergeFrom, fun doc _ => (doc, none)⟩
            (b.apply ⟨Value.mergeFrom, fun doc _ => (doc, none)⟩ base) :=
  ⟨Value.isDeepMerge_mergeFrom,
    (merge_compose ⟨Value.mergeFrom, fun doc _ => (doc, none)⟩ Value.isDeepMerge_mergeFrom).1⟩

end Compose

end V2

end StackableOperator
