import Mathlib
import StackableOperator.ClusterResources.Resource

/-!
# The client and the API server

`KubeApi` is the interface of the API server: a state, the objects that are stored in it, and
the requests of the operator. Every request may fail, and every request may change the state;
`KubeApi.IsDocumented` says what it may not do. In particular the stored objects of a kind have
different names in a namespace, a list has exactly the objects that its selector matches, and a
delete request concerns the named object only.

The client runs on a `World`, which consists of the state of the server and of all requests that
were sent, so that it can be stated which requests a function sends.
-/

namespace StackableOperator

/-- The errors of the client library; answers of the API server say whether the request was
forbidden. -/
inductive KubeError : Type
  | api (isForbidden : Bool)
  | other

/-- The API server. -/
structure KubeApi (F : Type) where
  State : Type
  /-- The stored objects of a kind. -/
  stored : State → (k : Kind) → Object F k → Prop
  get : State → (k : Kind) → («namespace» name : String) → Except KubeError (Object F k) × State
  list : State → (k : Kind) → («namespace» : String) → LabelSelector →
    Except KubeError (List (Object F k)) × State
  /-- Server-side apply by a field manager. -/
  patch : State → (k : Kind) → («namespace» name : String) → (fieldManager : Option String) →
    Object F k → Except KubeError (Object F k) × State
  delete : State → (k : Kind) → («namespace» name : String) → Except KubeError Unit × State

namespace KubeApi

variable {F : Type}

/-- The documented behaviour of the API server. -/
structure IsDocumented (api : KubeApi F) : Prop where
  exists_name : ∀ {s k o}, api.stored s k o → ∃ name, o.metadata.name = some name
  /-- Names are unique within a namespace. -/
  eq_of_name_eq : ∀ {s k o o'}, api.stored s k o → api.stored s k o' →
    o.metadata.namespace = o'.metadata.namespace → o.metadata.name = o'.metadata.name → o = o'
  stored_get : ∀ {s k n name k' o}, api.stored (api.get s k n name).2 k' o ↔ api.stored s k' o
  stored_list : ∀ {s k n selector k' o},
    api.stored (api.list s k n selector).2 k' o ↔ api.stored s k' o
  /-- A list has exactly the objects of the namespace that match the selector. -/
  mem_list : ∀ {s k n selector l s'}, api.list s k n selector = (.ok l, s') → ∀ o,
    o ∈ l ↔ api.stored s k o ∧ o.metadata.namespace = some n ∧ selector.Matches o.metadata
  /-- A delete request leaves all other objects alone. -/
  stored_delete : ∀ {s k n name k' o},
    (k' ≠ k ∨ o.metadata.namespace ≠ some n ∨ o.metadata.name ≠ some name) →
      (api.stored (api.delete s k n name).2 k' o ↔ api.stored s k' o)
  /-- An applied object is stored; the answer is the stored object. -/
  stored_patch : ∀ {s k n name manager object o s'},
    api.patch s k n name manager object = (.ok o, s') →
      api.stored s' k o ∧ o.metadata.uid.isSome = true
  /-- The stored object has the metadata that was applied. -/
  metadata_patch : ∀ {s k n name manager object o s'},
    api.patch s k n name manager object = (.ok o, s') →
      (∀ x, object.metadata.namespace = some x → o.metadata.namespace = some x) ∧
      (∀ key x, object.metadata.label? key = some x → o.metadata.label? key = some x) ∧
      (∀ uid, object.metadata.isOwnedBy uid = true → o.metadata.isOwnedBy uid = true)

end KubeApi

/-! ### Requests -/

/-- A request to the API server. -/
inductive Request (F : Type) : Type
  | get (k : Kind) («namespace» name : String)
  | list (k : Kind) («namespace» : String) (selector : LabelSelector)
  | apply (k : Kind) (fieldManager : Option String) (object : Object F k)
  /-- A delete request, and whether it succeeded. -/
  | delete (k : Kind) («namespace» name : String) (isOk : Bool)

/-- The request writes or deletes an object. -/
def Request.isWrite {F : Type} : Request F → Bool
  | get _ _ _ | list _ _ _ => false
  | apply _ _ _ | delete _ _ _ _ => true

/-- The API server and the requests that were sent to it, the latest one first. -/
structure World {F : Type} (api : KubeApi F) where
  server : api.State
  requests : List (Request F)

namespace World

variable {F : Type} {api : KubeApi F}

/-- An object is stored on the server. -/
def Stored (w : World api) (k : Kind) (o : Object F k) : Prop := api.stored w.server k o

/-- Between two moments no object was written or deleted, and no request was sent that asks
for it. -/
structure ReadOnly (w w' : World api) : Prop where
  stored : ∀ k o, w'.Stored k o ↔ w.Stored k o
  requests : w'.requests.filter Request.isWrite = w.requests.filter Request.isWrite

theorem ReadOnly.refl (w : World api) : ReadOnly w w := ⟨fun _ _ => Iff.rfl, rfl⟩

theorem ReadOnly.trans {w w' w'' : World api} (h : ReadOnly w w') (h' : ReadOnly w' w'') :
    ReadOnly w w'' :=
  ⟨fun k o => (h'.stored k o).trans (h.stored k o), h'.requests.trans h.requests⟩

end World

/-! ### The client -/

inductive Client.Error : Type
  | getResource (source : KubeError) (resourceName : String)
  | listResources (source : KubeError)
  | patchResource (source : KubeError) (resourceName : String)
  | deleteResource (source : KubeError) (resourceName : String)

structure Client where
  /-- The field manager in the parameters of patch requests. -/
  fieldManager : Option String

/-- The namespace of a resource, for the path of a request. -/
def Object.getNamespace {F : Type} {k : Kind} (self : Object F k) : String :=
  self.metadata.namespace.getD ""

namespace Client

variable {F : Type} {api : KubeApi F}

/-- The field manager for one usage site. -/
def applyPatchParams (self : Client) (fieldManagerScope : String) : Option String :=
  self.fieldManager.map fun manager => manager ++ "/" ++ fieldManagerScope

def get (w : World api) (k : Kind) (resourceName «namespace» : String) :
    Except Error (Object F k) × World api :=
  let (answer, s) := api.get w.server k «namespace» resourceName
  (answer.mapError fun source => .getResource source resourceName,
    ⟨s, .get k «namespace» resourceName :: w.requests⟩)

def listWithLabelSelector (w : World api) (k : Kind) («namespace» : String)
    (selector : LabelSelector) : Except Error (List (Object F k)) × World api :=
  let (answer, s) := api.list w.server k «namespace» selector
  (answer.mapError .listResources, ⟨s, .list k «namespace» selector :: w.requests⟩)

def applyPatch (self : Client) (w : World api) (fieldManagerScope : String) {k : Kind}
    (resource : Object F k) : Except Error (Object F k) × World api :=
  let fieldManager := self.applyPatchParams fieldManagerScope
  let name := resource.metadata.nameAny
  let (answer, s) := api.patch w.server k resource.getNamespace name fieldManager resource
  (answer.mapError fun source => .patchResource source name,
    ⟨s, .apply k fieldManager resource :: w.requests⟩)

def delete (w : World api) {k : Kind} (resource : Object F k) : Except Error Unit × World api :=
  let name := resource.metadata.nameAny
  let (answer, s) := api.delete w.server k resource.getNamespace name
  (answer.mapError fun source => .deleteResource source name,
    ⟨s, .delete k resource.getNamespace name answer.isOk :: w.requests⟩)

theorem readOnly_get (hapi : api.IsDocumented) (w : World api) (k : Kind)
    (resourceName «namespace» : String) :
    w.ReadOnly (get w k resourceName «namespace»).2 :=
  ⟨fun _ _ => hapi.stored_get, rfl⟩

theorem readOnly_listWithLabelSelector (hapi : api.IsDocumented) (w : World api) (k : Kind)
    («namespace» : String) (selector : LabelSelector) :
    w.ReadOnly (listWithLabelSelector w k «namespace» selector).2 :=
  ⟨fun _ _ => hapi.stored_list, rfl⟩

/-- Applying a resource returns the answer to the patch request. -/
theorem patch_of_applyPatch_eq_ok {client : Client} {w w' : World api} {scope : String}
    {k : Kind} {resource patched : Object F k}
    (h : client.applyPatch w scope resource = (.ok patched, w')) :
    api.patch w.server k resource.getNamespace resource.metadata.nameAny
      (client.applyPatchParams scope) resource = (.ok patched, w'.server) := by
  unfold applyPatch at h
  cases hpatch : api.patch w.server k resource.getNamespace resource.metadata.nameAny
      (client.applyPatchParams scope) resource with
  | mk answer s =>
    simp only [hpatch] at h
    obtain ⟨hanswer, rfl⟩ := Prod.mk.inj h
    cases answer with
    | error e => cases hanswer
    | ok o =>
      obtain rfl := Except.ok.inj hanswer
      rfl

theorem exists_patch_of_applyPatch_eq_ok {client : Client} {w w' : World api} {scope : String}
    {k : Kind} {resource patched : Object F k}
    (h : client.applyPatch w scope resource = (.ok patched, w')) :
    ∃ n name fieldManager, api.patch w.server k n name fieldManager resource =
      (.ok patched, w'.server) :=
  ⟨resource.getNamespace, resource.metadata.nameAny, client.applyPatchParams scope,
    patch_of_applyPatch_eq_ok h⟩

end Client

end StackableOperator
