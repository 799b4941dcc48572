import Mathlib
import StackableOperator.DeepMerger
import StackableOperator.Kube.Client

/-!
# An API server in memory

The documented behaviour of the API server and of the library functions on objects can be had:
`Store.api` is an API server that keeps its objects in maps, and `unitTypes` are library
functions for objects whose other fields carry no data.
-/

namespace StackableOperator

/-! ### The API server -/

/-- The objects of each kind by namespace and name, and how many were created. -/
structure Store (F : Type) where
  objects : (k : Kind) → HashMap (String × String) (Object F k)
  created : ℕ
  key_eq : ∀ {k key o}, (objects k).lookup key = some o →
    o.metadata.namespace = some key.1 ∧ o.metadata.name = some key.2

namespace Store

variable {F : Type}

def empty : Store F where
  objects := fun _ => ∅
  created := 0
  key_eq := fun h => by cases h

/-- Store an object under its key. -/
def put (s : Store F) {k : Kind} (key : String × String) (o : Object F k)
    (ho : o.metadata.namespace = some key.1 ∧ o.metadata.name = some key.2) : Store F where
  objects := Function.update s.objects k ((s.objects k).insert key o)
  created := s.created + 1
  key_eq := by
    intro k' key' o' h
    by_cases hk : k' = k
    · subst hk
      rw [Function.update_self] at h
      by_cases hkey : key' = key
      · subst hkey
        rw [AList.lookup_insert] at h
        obtain rfl := Option.some.inj h
        exact ho
      · rw [AList.lookup_insert_ne hkey] at h
        exact s.key_eq h
    · rw [Function.update_of_ne hk] at h
      exact s.key_eq h

/-- Remove the object under a key. -/
def remove (s : Store F) (k : Kind) (key : String × String) : Store F where
  objects := Function.update s.objects k ((s.objects k).erase key)
  created := s.created
  key_eq := by
    intro k' key' o' h
    by_cases hk : k' = k
    · subst hk
      rw [Function.update_self] at h
      by_cases hkey : key' = key
      · subst hkey
        rw [AList.lookup_erase] at h
        simp at h
      · rw [AList.lookup_erase_ne hkey] at h
        exact s.key_eq h
    · rw [Function.update_of_ne hk] at h
      exact s.key_eq h

@[simp] theorem objects_put_self (s : Store F) {k : Kind} (key : String × String)
    (o : Object F k) (ho) : (s.put key o ho).objects k = (s.objects k).insert key o :=
  Function.update_self k _ s.objects

@[simp] theorem objects_remove_self (s : Store F) (k : Kind) (key : String × String) :
    (s.remove k key).objects k = (s.objects k).erase key :=
  Function.update_self k _ s.objects

theorem objects_remove_of_ne (s : Store F) {k k' : Kind} (h : k' ≠ k) (key : String × String) :
    (s.remove k key).objects k' = s.objects k' :=
  Function.update_of_ne h _ s.objects

/-- The API server. A new object gets a new uid; an object that is applied again keeps its uid. -/
def api (F : Type) : KubeApi F where
  State := Store F
  stored s k o := ∃ key, (s.objects k).lookup key = some o
  get s k «namespace» name :=
    match (s.objects k).lookup («namespace», name) with
    | some o => (.ok o, s)
    | none => (.error (.api false), s)
  list s k «namespace» selector :=
    (.ok (((s.objects k).entries.map fun e => e.2).filter fun o =>
      o.metadata.namespace = some «namespace» ∧ selector.Matches o.metadata), s)
  patch s k «namespace» name _ object :=
    if h : object.metadata.namespace = some «namespace» ∧ object.metadata.name = some name then
      let old := (s.objects k).lookup («namespace», name)
      let uid := (old.bind fun o => o.metadata.uid).getD (toString s.created)
      let o := { object with metadata := { object.metadata with uid := some uid } }
      (.ok o, s.put («namespace», name) o h)
    else (.error (.api false), s)
  delete s k «namespace» name :=
    match (s.objects k).lookup («namespace», name) with
    | some _ => (.ok (), s.remove k («namespace», name))
    | none => (.error (.api false), s)

/-- What was put is stored. -/
theorem stored_put (s : Store F) {k : Kind} (key : String × String) (o : Object F k) (ho) :
    (api F).stored (s.put key o ho) k o :=
  ⟨key, by rw [objects_put_self, AList.lookup_insert]⟩

/-- Removing one object leaves all others alone. -/
theorem stored_remove {s : Store F} {k k' : Kind} {key : String × String} {o : Object F k'}
    (h : k' ≠ k ∨ o.metadata.namespace ≠ some key.1 ∨ o.metadata.name ≠ some key.2) :
    (api F).stored (s.remove k key) k' o ↔ (api F).stored s k' o := by
  refine exists_congr fun key' => ?_
  by_cases hk : k' = k
  · subst hk
    rw [objects_remove_self]
    by_cases hkey : key' = key
    · subst hkey
      rw [AList.lookup_erase]
      refine ⟨fun hnone => absurd hnone (Option.some_ne_none o).symm, fun hsome => ?_⟩
      obtain ⟨hns, hn⟩ := s.key_eq hsome
      simp [hns, hn] at h
    · rw [AList.lookup_erase_ne hkey]
  · rw [objects_remove_of_ne s hk]

/-- The API server in memory behaves as documented. -/
theorem isDocumented_api : (api F).IsDocumented where
  exists_name := by
    rintro s k o ⟨key, h⟩
    exact ⟨key.2, (s.key_eq h).2⟩
  eq_of_name_eq := by
    rintro s k o o' ⟨key, h⟩ ⟨key', h'⟩ hnamespace hname
    obtain ⟨hns, hn⟩ := s.key_eq h
    obtain ⟨hns', hn'⟩ := s.key_eq h'
    obtain rfl : key = key' := Prod.ext
      (Option.some.inj (hns.symm.trans (hnamespace.trans hns')))
      (Option.some.inj (hn.symm.trans (hname.trans hn')))
    exact Option.some.inj (h.symm.trans h')
  stored_get := by
    intro s k n name k' o
    simp only [api]
    split <;> exact Iff.rfl
  stored_list := Iff.rfl
  mem_list := by
    intro s k n selector l s' h o
    obtain rfl := Except.ok.inj (Prod.mk.inj h).1
    rw [List.mem_filter, List.mem_map, decide_eq_true_iff]
    refine and_congr_left fun _ => ⟨?_, ?_⟩
    · rintro ⟨e, he, rfl⟩
      exact ⟨e.1, AList.mem_lookup_iff.mpr he⟩
    · rintro ⟨key, h⟩
      exact ⟨⟨key, o⟩, AList.mem_lookup_iff.mp h, rfl⟩
  stored_delete := by
    intro s k n name k' o h
    simp only [api]
    split
    · exact stored_remove h
    · exact Iff.rfl
  stored_patch := by
    intro s k n name manager object o s' h
    simp only [api] at h
    split at h
    · obtain ⟨ho, rfl⟩ := Prod.mk.inj h
      obtain rfl := Except.ok.inj ho
      exact ⟨stored_put s _ _ _, rfl⟩
    · cases (Prod.mk.inj h).1
  metadata_patch := by
    intro s k n name manager object o s' h
    simp only [api] at h
    split at h
    · obtain rfl := Except.ok.inj (Prod.mk.inj h).1
      exact ⟨fun _ => id, fun _ _ => id, fun _ => id⟩
    · cases (Prod.mk.inj h).1

end Store

/-! ### The library functions -/

namespace ObjectMeta

/-- Merge metadata: labels by their key, owner references by their uid. -/
def mergeFrom (base other : ObjectMeta) : ObjectMeta where
  name := other.name.or base.name
  generateName := other.generateName.or base.generateName
  «namespace» := other.namespace.or base.namespace
  labels := base.labels.merge (IterMap.extend (M := BTreeMap String)) other.labels
  ownerReferences := base.ownerReferences.merge (fun refs refs' => refs ∪ refs')
    other.ownerReferences
  uid := other.uid.or base.uid

/-- The entries of merged optional maps. -/
theorem get?_merge_extend (base other : Option (BTreeMap String String)) (key : String) :
    ((base.merge (IterMap.extend (M := BTreeMap String)) other).bind fun m =>
        IterMap.get? (M := BTreeMap String) m key) =
      (other.bind fun m => IterMap.get? (M := BTreeMap String) m key).or
        (base.bind fun m => IterMap.get? (M := BTreeMap String) m key) := by
  cases base with
  | none => cases other <;> simp
  | some m =>
    cases other with
    | none => rfl
    | some m' => exact IterMap.get?_extend m m' key

theorem isOwnedBy_mergeFrom (base other : ObjectMeta) (uid : String) :
    (base.mergeFrom other).isOwnedBy uid = (base.isOwnedBy uid || other.isOwnedBy uid) := by
  rw [Bool.eq_iff_iff, Bool.or_eq_true]
  unfold isOwnedBy mergeFrom
  cases base.ownerReferences with
  | none => cases other.ownerReferences <;> simp
  | some refs =>
    cases other.ownerReferences with
    | none => simp
    | some refs' => simp [or_and_right, exists_or]

end ObjectMeta

/-- Merge the specification of a StatefulSet or a Deployment. -/
def ReplicasSpec.mergeFrom (base other : ReplicasSpec Unit) : ReplicasSpec Unit :=
  ⟨other.replicas.or base.replicas, ()⟩

/-- Merge the specification of a pod; the node selector is replaced as a whole. -/
def PodSpec.mergeFrom (base other : PodSpec Unit) : PodSpec Unit :=
  ⟨other.nodeSelector.or base.nodeSelector, ()⟩

def DaemonSetSpec.mergeFrom (base other : DaemonSetSpec Unit) : DaemonSetSpec Unit :=
  ⟨⟨base.template.spec.merge PodSpec.mergeFrom other.template.spec, ()⟩, ()⟩

/-- Merge the contents of an object. -/
def Kind.mergeContents : (k : Kind) → k.Contents Unit → k.Contents Unit → k.Contents Unit
  | .statefulSet, base, other => Option.merge ReplicasSpec.mergeFrom base other
  | .deployment, base, other => Option.merge ReplicasSpec.mergeFrom base other
  | .daemonSet, base, other => Option.merge DaemonSetSpec.mergeFrom base other
  | .service, _, _ | .job, _, _ | .configMap, _, _ | .secret, _, _ | .serviceAccount, _, _
  | .roleBinding, _, _ | .podDisruptionBudget, _, _ | .listener, _, _ => ()

namespace Value

/-- A number in decimal digits. -/
def decimal? : List Char → Option ℕ
  | [] => none
  | digits =>
    digits.foldlM (fun n c => if c.isDigit then some (10 * n + (c.toNat - 48)) else none) 0

/-- The integer of a JSON number. -/
def toInt32? : Value → Except String Int32
  | number literal =>
    let i := match literal.toList with
      | '-' :: digits => (decimal? digits).map fun n => -(n : ℤ)
      | digits => (decimal? digits).map fun n => (n : ℤ)
    match i with
    | some i =>
      if Int32.minValue.toInt ≤ i ∧ i ≤ Int32.maxValue.toInt then .ok (Int32.ofInt i)
      else .error "invalid value"
    | none => .error "invalid type"
  | _ => .error "invalid type"

theorem isTrans_stringLe : IsTrans String (· ≤ ·) := inferInstance

theorem antisymm_stringLe : Std.Antisymm fun s t : String => s ≤ t := inferInstance

theorem total_stringLe : Std.Total fun s t : String => s ≤ t := inferInstance

/-- The entries of a JSON object whose fields are strings. -/
def toStrings : Value → Except String (BTreeMap String String)
  | v@(object keys _) =>
    ((@Finset.sort String keys (· ≤ ·) _ isTrans_stringLe antisymm_stringLe
      total_stringLe).mapM fun k =>
      match v.get? k with
      | some (string s) => Except.ok (k, s)
      | _ => Except.error "invalid type").map (IterMap.collect (M := BTreeMap String))
  | _ => .error "invalid type"

/-- Parse a field that may be missing or `null`. -/
def parseField {T : Type} (v : Value) (k : String) (parse : Value → Except String T) :
    Except String (Option T) :=
  match v.get? k with
  | none | some null => .ok none
  | some field => (parse field).map some

def toReplicasSpec (v : Value) : Except String (ReplicasSpec Unit) :=
  (v.parseField "replicas" toInt32?).map fun replicas => ⟨replicas, ()⟩

def toPodSpec (v : Value) : Except String (PodSpec Unit) :=
  (v.parseField "nodeSelector" toStrings).map fun nodeSelector => ⟨nodeSelector, ()⟩

def toPodTemplateSpec (v : Value) : Except String (PodTemplateSpec Unit) :=
  (v.parseField "spec" toPodSpec).map fun spec => ⟨spec, ()⟩

def toDaemonSetSpec (v : Value) : Except String (DaemonSetSpec Unit) :=
  (v.parseField "template" toPodTemplateSpec).map fun template => ⟨template.getD ⟨none, ()⟩, ()⟩

end Value

/-- Parse the contents of an object. -/
def Kind.parseContents : (k : Kind) → Value → Except String (k.Contents Unit)
  | .statefulSet, v => v.parseField "spec" Value.toReplicasSpec
  | .deployment, v => v.parseField "spec" Value.toReplicasSpec
  | .daemonSet, v => v.parseField "spec" Value.toDaemonSetSpec
  | .service, _ | .job, _ | .configMap, _ | .secret, _ | .serviceAccount, _ | .roleBinding, _
  | .podDisruptionBudget, _ | .listener, _ => .ok ()

/-- The library functions for objects whose other fields carry no data. -/
def unitTypes : KubeTypes Unit where
  mergeFrom {k} base other :=
    ⟨base.metadata.mergeFrom other.metadata, k.mergeContents base.contents other.contents, ()⟩
  tryParse k object := (k.parseContents object.data).map fun contents =>
    ⟨object.metadata, contents, ()⟩

theorem replicas_merge (base other : Option (ReplicasSpec Unit)) :
    Object.replicas (base.merge ReplicasSpec.mergeFrom other) =
      (Object.replicas other).or (Object.replicas base) := by
  cases base with
  | none => cases other <;> simp [Object.replicas]
  | some spec => cases other <;> simp [Object.replicas, ReplicasSpec.mergeFrom]

theorem nodeSelector_merge (base other : Option (DaemonSetSpec Unit)) :
    Object.nodeSelector (base.merge DaemonSetSpec.mergeFrom other) =
      (Object.nodeSelector other).or (Object.nodeSelector base) := by
  cases base with
  | none => cases other <;> simp [Object.nodeSelector]
  | some spec =>
    cases other with
    | none => simp [Object.nodeSelector]
    | some spec' =>
      simp only [Object.nodeSelector, Option.merge_some_some, Option.bind_some,
        DaemonSetSpec.mergeFrom]
      cases spec.template.spec with
      | none => cases spec'.template.spec <;> simp
      | some pod => cases spec'.template.spec <;> simp [PodSpec.mergeFrom]

/-- These library functions behave as documented. -/
theorem isDocumented_unitTypes : unitTypes.IsDocumented where
  name_mergeFrom _ _ := rfl
  namespace_mergeFrom _ _ := rfl
  label?_mergeFrom base other key :=
    ObjectMeta.get?_merge_extend base.metadata.labels other.metadata.labels key
  isOwnedBy_mergeFrom base other uid :=
    ObjectMeta.isOwnedBy_mergeFrom base.metadata other.metadata uid
  replicas_mergeFrom_statefulSet base other := replicas_merge base.contents other.contents
  replicas_mergeFrom_deployment base other := replicas_merge base.contents other.contents
  nodeSelector_mergeFrom base other := nodeSelector_merge base.contents other.contents
  metadata_tryParse := by
    intro k object o h
    cases hcontents : k.parseContents object.data with
    | error e =>
      simp only [unitTypes, hcontents] at h
      cases h
    | ok contents =>
      simp only [unitTypes, hcontents] at h
      obtain rfl := Except.ok.inj h
      rfl

end StackableOperator
