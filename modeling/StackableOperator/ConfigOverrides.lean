import Mathlib
import StackableOperator.Json.MergePatch
import StackableOperator.V2.ConfigOverrides

/-!
# Config overrides for JSON files

The first version of JSON overrides, where errors are returned. Its merge patches are applied by
`json_patch::merge`, those of the second version by the deep merge of documents.
`jsonMergePatch_eq_mergePatch_iff` says when the second version follows RFC 7396, too.
-/

namespace StackableOperator

inductive ConfigOverrides.Error : Type
  | applyJsonPatch (source : String)
  | deserializeJsonPatchOperation (source : String) (index : ℕ)

/-- The functions of the crates `json_patch` and `serde_json`. -/
structure JsonPatchLibrary (Operation : Type) where
  /-- `json_patch::merge`. -/
  merge : Value → Value → Value
  /-- `json_patch::patch`. -/
  patch : Value → List Operation → Except String Value
  /-- `serde_json::from_str` for patch operations. -/
  fromStr : String → Except String Operation

/-- Overrides that can be applied to a JSON file. -/
inductive JsonConfigOverrides : Type
  /-- An RFC 7396 JSON merge patch. -/
  | jsonMergePatch (patch : Value)
  /-- A list of RFC 6902 JSON patches. -/
  | jsonPatches (patches : List String)
  /-- A document that replaces the entire file. -/
  | userProvided (content : Value)

namespace JsonConfigOverrides

open ConfigOverrides (Error)

variable {Operation : Type}

/-- Parse the operations, of which the first one has the given index. -/
def parseOperations (lib : JsonPatchLibrary Operation) (index : ℕ) :
    List String → Except Error (List Operation)
  | [] => .ok []
  | patchStr :: patches =>
    match lib.fromStr patchStr with
    | .error e => .error (.deserializeJsonPatchOperation e index)
    | .ok operation =>
      match parseOperations lib (index + 1) patches with
      | .error e => .error e
      | .ok operations => .ok (operation :: operations)

/-- Apply the overrides to a base document. -/
def apply (lib : JsonPatchLibrary Operation) (base : Value) :
    JsonConfigOverrides → Except Error Value
  | jsonMergePatch patch => .ok (lib.merge base patch)
  | jsonPatches patches =>
    match parseOperations lib 0 patches with
    | .error e => .error e
    | .ok operations => (lib.patch base operations).mapError .applyJsonPatch
  | userProvided content => .ok content

end JsonConfigOverrides

namespace V2

variable {Patch Operation : Type}

/-- **Merge patches of the two versions.** Applying a merge patch in the second version gives the
result of RFC 7396, which is also the result of the first version, iff the base document has an
object wherever the patch has an object with a null field. -/
theorem jsonMergePatch_eq_mergePatch_iff (lib : JsonLibrary Patch)
    (hdeep : Value.IsDeepMerge lib.mergeFrom) (lib₁ : JsonPatchLibrary Operation)
    (hpatch : ∀ doc patch, lib₁.merge doc patch = Value.mergePatch doc patch)
    (base patch : Value) :
    ((JsonConfigOverrides.jsonMergePatch patch).apply lib base = Value.mergePatch base patch ∧
        (StackableOperator.JsonConfigOverrides.jsonMergePatch patch).apply lib₁ base =
          .ok ((JsonConfigOverrides.jsonMergePatch patch).apply lib base)) ↔
      Value.NullsMeetObjects base patch := by
  have hv2 : (JsonConfigOverrides.jsonMergePatch patch).apply lib base =
      Value.mergeFrom base patch := hdeep.eq_mergeFrom base patch
  have hv1 : (StackableOperator.JsonConfigOverrides.jsonMergePatch patch).apply lib₁ base =
      .ok (Value.mergePatch base patch) := congrArg Except.ok (hpatch base patch)
  rw [hv1, hv2, ← Value.mergeFrom_eq_mergePatch_iff]
  constructor
  · rintro ⟨h, -⟩
    exact h
  · intro h
    exact ⟨h, congrArg Except.ok h.symm⟩

/-- The documented deep merge, with patches that leave every document as it is. -/
def simpleLibrary : JsonLibrary Unit := ⟨Value.mergeFrom, fun doc _ => (doc, none)⟩

/-- The algorithm of RFC 7396, with patches that leave every document as it is. -/
def simplePatchLibrary : JsonPatchLibrary Unit :=
  ⟨Value.mergePatch, fun doc _ => .ok doc, fun _ => .ok ()⟩

/-- An object with one field. -/
def singleton (k : String) (v : Value) : Value := .object {k} fun _ => v

/-- A null field in an object removes a field of the base. -/
theorem jsonMergePatch_eq_mergePatch_iff_singleton :
    (JsonConfigOverrides.jsonMergePatch (singleton "a" .null)).apply simpleLibrary
      (singleton "a" (.bool true)) =
        Value.mergePatch (singleton "a" (.bool true)) (singleton "a" .null) :=
  ((jsonMergePatch_eq_mergePatch_iff simpleLibrary Value.isDeepMerge_mergeFrom simplePatchLibrary
    (fun _ _ => rfl) (singleton "a" (.bool true)) (singleton "a" .null)).mpr
    ⟨Or.inl rfl, fun _ => trivial⟩).1

/-- The patch `{"a": {"b": null}}` inserts the null field into the base `{}`. -/
theorem jsonMergePatch_ne_mergePatch :
    ¬ ∀ (lib : JsonLibrary Unit), Value.IsDeepMerge lib.mergeFrom →
      ∀ lib₁ : JsonPatchLibrary Unit,
      (∀ doc patch, lib₁.merge doc patch = Value.mergePatch doc patch) →
      ∀ base patch : Value,
        (JsonConfigOverrides.jsonMergePatch patch).apply lib base = Value.mergePatch base patch ∧
          (StackableOperator.JsonConfigOverrides.jsonMergePatch patch).apply lib₁ base =
            .ok ((JsonConfigOverrides.jsonMergePatch patch).apply lib base) := by
  intro h
  have heq := (h simpleLibrary Value.isDeepMerge_mergeFrom simplePatchLibrary (fun _ _ => rfl)
    (.object ∅ fun _ => .null) (singleton "a" (singleton "b" .null))).1
  have hnulls := (Value.mergeFrom_eq_mergePatch_iff _ _).mp heq
  -- the inner object has a null field, but the base has no object there
  have hinner := hnulls.2 ⟨"a", Finset.mem_singleton_self "a"⟩
  rcases hinner.1 with hobject | hnull
  · simp [Value.get?, Value.isObject] at hobject
  · simpa [Value.isNull] using hnull ⟨"b", Finset.mem_singleton_self "b"⟩

end V2

end StackableOperator
