import Mathlib
import StackableOperator.Kube.Client

/-!
# Random secrets

`createRandomSecretIfNotExists` creates a Secret with random contents unless there is one. A
Secret that was created as immutable is deleted and created again as a mutable one, with the same
contents. `SecretApi` is the interface of the API server to Secrets; every request may fail, also
after it took effect.

`keepsContents_run` says that the contents of a Secret stay the same over all calls if every
migration that deletes the Secret also creates it again. Without this condition a later call
finds no Secret and draws new contents (`not_keepsContents_run`).
-/

namespace StackableOperator

/-! ### Secrets -/

/-- The bytes of a value in a Secret. -/
abbrev ByteString : Type := List UInt8

/-- The bytes of a text. -/
def utf8Bytes (s : String) : ByteString := s.toList.flatMap String.utf8EncodeChar

structure Secret where
  metadata : ObjectMeta
  resourceVersion : Option String
  immutable : Option Bool
  data : Option (BTreeMap String ByteString)
  /-- Values that the server writes into `data`, overriding it. -/
  stringData : Option (BTreeMap String String)

/-- The value that a Secret has, or will have, under a key. -/
def Secret.contents (secret : Secret) (key : String) : Option ByteString :=
  ((secret.stringData.bind fun values => IterMap.get? (M := BTreeMap String) values key).map
      utf8Bytes).or
    (secret.data.bind fun values => IterMap.get? (M := BTreeMap String) values key)

/-- The API server, as far as Secrets are concerned. -/
structure SecretApi where
  State : Type
  /-- The stored Secret with a namespace and name. -/
  secret? : State → String → String → Option Secret
  getOpt : State → («namespace» name : String) → Except KubeError (Option Secret) × State
  delete : State → («namespace» name : String) → Except KubeError Unit × State
  create : State → («namespace» : String) → Secret → Except KubeError Unit × State

namespace SecretApi

/-- The documented behaviour of the API server. Requests concern the named Secret only, an
existing Secret is not created again, and a Secret whose deletion is pending keeps its
contents. -/
structure IsDocumented (api : SecretApi) : Prop where
  name_eq : ∀ {s n name a}, api.secret? s n name = some a →
    a.metadata.namespace = some n ∧ a.metadata.name = some name
  secret?_getOpt : ∀ {s n name n' name'},
    api.secret? (api.getOpt s n name).2 n' name' = api.secret? s n' name'
  getOpt_eq : ∀ {s n name answer}, (api.getOpt s n name).1 = .ok answer →
    answer = api.secret? s n name
  secret?_delete_of_ne : ∀ {s n name n' name'}, (n', name') ≠ (n, name) →
    api.secret? (api.delete s n name).2 n' name' = api.secret? s n' name'
  contents_delete : ∀ {s n name b}, api.secret? (api.delete s n name).2 n name = some b →
    ∃ a, api.secret? s n name = some a ∧ b.contents = a.contents
  secret?_create_of_ne : ∀ {s n secret n' name'},
    (some n', some name') ≠ (some n, secret.metadata.name) →
    api.secret? (api.create s n secret).2 n' name' = api.secret? s n' name'
  secret?_create_of_some : ∀ {s n name secret a}, api.secret? s n name = some a →
    api.secret? (api.create s n secret).2 n name = some a
  contents_create : ∀ {s n name secret b}, secret.metadata.name = some name →
    api.secret? s n name = none → api.secret? (api.create s n secret).2 n name = some b →
    b.contents = secret.contents

end SecretApi

/-! ### The model of the source -/

namespace RandomSecretCreation

inductive Error : Type
  | objectHasNoNamespace
  | retrieveRandomSecret (source : KubeError)
  | createRandomSecret (source : KubeError)
  | deleteRandomSecret (source : KubeError)
  /-- The key that is missing in the metadata of the owner. -/
  | objectMissingMetadataForOwnerRef (key : String)

/-- The digits of the standard Base64 alphabet. -/
def base64Digit (n : ℕ) : Char :=
  if n < 26 then Char.ofNat ('A'.toNat + n)
  else if n < 52 then Char.ofNat ('a'.toNat + (n - 26))
  else if n < 62 then Char.ofNat ('0'.toNat + (n - 52))
  else if n = 62 then '+'
  else '/'

/-- Standard Base64 with padding: three bytes become four digits. -/
def base64Encode : List UInt8 → List Char
  | [] => []
  | [a] =>
    let n := a.toNat * 16
    [base64Digit (n / 64), base64Digit (n % 64), '=', '=']
  | [a, b] =>
    let n := (a.toNat * 256 + b.toNat) * 4
    [base64Digit (n / 4096), base64Digit (n / 64 % 64), base64Digit (n % 64), '=']
  | a :: b :: c :: bytes =>
    let n := (a.toNat * 256 + b.toNat) * 256 + c.toNat
    base64Digit (n / 262144) :: base64Digit (n / 4096 % 64) :: base64Digit (n / 64 % 64) ::
      base64Digit (n % 64) :: base64Encode bytes

/-- A call, with the random bytes that it would draw. -/
structure Call where
  secretName : String
  secretKey : String
  secretSizeBytes : ℕ
  stacklet : ObjectMeta
  random : List UInt8
  length_random : random.length = secretSizeBytes

namespace Call

/-- Random bytes of the requested size, in Base64. -/
def getRandomBase64 (call : Call) : String := String.ofList (base64Encode call.random)

/-- The Secret that is created if there is none. -/
def newSecret (call : Call) : Except Error Secret :=
  match call.stacklet.uid with
  | none => .error (.objectMissingMetadataForOwnerRef "uid")
  | some uid =>
    .ok {
      metadata := {
        name := some call.secretName
        generateName := none
        «namespace» := call.stacklet.namespace
        labels := none
        ownerReferences := some [⟨uid⟩]
        uid := none }
      resourceVersion := none
      immutable := none
      data := none
      stringData := some (IterMap.insert (M := BTreeMap String) (IterMap.empty)
        call.secretKey call.getRandomBase64) }

end Call

/-- The mutable Secret that replaces an immutable one. -/
def mutableSecret (existingSecret : Secret) : Secret :=
  { existingSecret with immutable := some false, resourceVersion := none }

/-- The API server and the states that it went through, the latest one first. -/
structure World (api : SecretApi) where
  server : api.State
  history : List api.State

/-- Send a request. -/
def World.send {api : SecretApi} {α : Type} (w : World api)
    (request : api.State → α × api.State) : α × World api :=
  let (answer, s) := request w.server
  (answer, ⟨s, s :: w.history⟩)

def createRandomSecretIfNotExists {api : SecretApi} (w : World api) (call : Call) :
    Except Error Unit × World api :=
  match call.stacklet.namespace with
  | none => (.error .objectHasNoNamespace, w)
  | some secretNamespace =>
    match w.send fun s => api.getOpt s secretNamespace call.secretName with
    | (.error e, w) => (.error (.retrieveRandomSecret e), w)
    | (.ok (some existingSecret), w) =>
      if existingSecret.immutable = some true then
        match w.send fun s => api.delete s secretNamespace call.secretName with
        | (.error e, w) => (.error (.deleteRandomSecret e), w)
        | (.ok (), w) =>
          let mutable := mutableSecret existingSecret
          let (answer, w) := w.send fun s =>
            api.create s (mutable.metadata.namespace.getD "") mutable
          (answer.mapError .createRandomSecret, w)
      else (.ok (), w)
    | (.ok none, w) =>
      match call.newSecret with
      | .error e => (.error e, w)
      | .ok secret =>
        let (answer, w) := w.send fun s =>
          api.create s (secret.metadata.namespace.getD "") secret
        (answer.mapError .createRandomSecret, w)

/-- Calls one after the other, whatever their results are. -/
def run {api : SecretApi} (w : World api) (calls : List Call) : World api :=
  calls.foldl (fun w call => (createRandomSecretIfNotExists w call).2) w

/-! ### Histories that keep the contents -/

section Keeps

variable {api : SecretApi} {n name : String}

/-- Whenever the Secret exists, it has the contents that it had in all earlier states in which
it existed. -/
def KeepsContents (api : SecretApi) (n name : String) (history : List api.State) : Prop :=
  history.Pairwise fun later earlier => ∀ a b, api.secret? earlier n name = some a →
    api.secret? later n name = some b → b.contents = a.contents

/-- The contents of the Secret with a namespace and name, if there is one. -/
def contents? (api : SecretApi) (n name : String) (s : api.State) :
    Option (String → Option ByteString) :=
  (api.secret? s n name).map Secret.contents

/-- Wherever the Secret existed, it had the contents that it has now. -/
def World.Keeps (n name : String) (w : World api) : Prop :=
  ∀ s ∈ w.history, contents? api n name s = none ∨
    contents? api n name s = contents? api n name w.server

theorem contents?_eq_some {s : api.State} {a : Secret} (h : api.secret? s n name = some a) :
    contents? api n name s = some a.contents := by
  rw [contents?, h, Option.map_some]

theorem contents?_eq_none {s : api.State} (h : api.secret? s n name = none) :
    contents? api n name s = none := by
  rw [contents?, h, Option.map_none]

theorem contents?_congr {s s' : api.State}
    (h : api.secret? s' n name = api.secret? s n name) :
    contents? api n name s' = contents? api n name s := by
  rw [contents?, contents?, h]

theorem keepsContents_of_keeps {w : World api} (h : w.Keeps n name) :
    KeepsContents api n name w.history := by
  refine List.pairwise_of_forall_mem_list ?_
  intro later hlater earlier hearlier a b ha hb
  have hea : contents? api n name w.server = some a.contents := by
    rcases h earlier hearlier with hnone | heq
    · rw [contents?_eq_some ha] at hnone
      exact absurd hnone (by simp)
    · rw [← heq, contents?_eq_some ha]
  have heb : contents? api n name w.server = some b.contents := by
    rcases h later hlater with hnone | heq
    · rw [contents?_eq_some hb] at hnone
      exact absurd hnone (by simp)
    · rw [← heq, contents?_eq_some hb]
  exact Option.some.inj (heb.symm.trans hea)

@[simp] theorem World.server_send {α : Type} (w : World api)
    (request : api.State → α × api.State) :
    (w.send request).2.server = (request w.server).2 := rfl

@[simp] theorem World.history_send {α : Type} (w : World api)
    (request : api.State → α × api.State) :
    (w.send request).2.history = (request w.server).2 :: w.history := rfl

/-- A request that leaves the contents of the Secret alone, or finds none. -/
theorem World.Keeps.send {α : Type} {w : World api} (hw : w.Keeps n name)
    {request : api.State → α × api.State}
    (h : contents? api n name w.server = none ∨
      contents? api n name (request w.server).2 = contents? api n name w.server) :
    (w.send request).2.Keeps n name := by
  intro s hs
  rw [World.history_send, List.mem_cons] at hs
  rw [World.server_send]
  rcases hs with rfl | hs
  · exact .inr rfl
  · rcases hw s hs with hnone | heq
    · exact .inl hnone
    · rcases h with hserver | hrequest
      · exact .inl (heq.trans hserver)
      · exact .inr (heq.trans hrequest.symm)

/-- A request that removes the Secret, and one that restores its contents. -/
theorem World.Keeps.send_send {α β : Type} {w : World api} (hw : w.Keeps n name)
    {request : api.State → α × api.State} {request' : api.State → β × api.State}
    (hgone : contents? api n name (request w.server).2 = none)
    (hback : contents? api n name (request' (request w.server).2).2 =
      contents? api n name w.server) :
    ((w.send request).2.send request').2.Keeps n name := by
  intro s hs
  rw [World.history_send, World.history_send, World.server_send, List.mem_cons,
    List.mem_cons] at hs
  rw [World.server_send, World.server_send]
  rcases hs with rfl | rfl | hs
  · exact .inr rfl
  · exact .inl hgone
  · rcases hw s hs with hnone | heq
    · exact .inl hnone
    · exact .inr (heq.trans hback.symm)

end Keeps

/-! ### What the requests do to the contents -/

section Requests

variable {api : SecretApi}

theorem contents?_getOpt (h : api.IsDocumented) (s : api.State) (n name n' name' : String) :
    contents? api n name (api.getOpt s n' name').2 = contents? api n name s :=
  contents?_congr h.secret?_getOpt

theorem contents?_delete (h : api.IsDocumented) (s : api.State) (n name n' name' : String) :
    contents? api n name (api.delete s n' name').2 = none ∨
      contents? api n name (api.delete s n' name').2 = contents? api n name s := by
  by_cases hne : (n, name) = (n', name')
  · obtain ⟨rfl, rfl⟩ := Prod.mk.inj hne
    rcases hb : api.secret? (api.delete s n name).2 n name with _ | b
    · exact .inl (contents?_eq_none hb)
    · obtain ⟨a, ha, hcontents⟩ := h.contents_delete hb
      right
      rw [contents?_eq_some hb, contents?_eq_some ha, hcontents]
  · exact .inr (contents?_congr (h.secret?_delete_of_ne hne))

theorem contents?_create (h : api.IsDocumented) (s : api.State) (n name n' : String)
    (secret : Secret) :
    contents? api n name s = none ∨
      contents? api n name (api.create s n' secret).2 = contents? api n name s := by
  rcases ha : api.secret? s n name with _ | a
  · exact .inl (contents?_eq_none ha)
  · right
    by_cases hne : (some n, some name) = (some n', secret.metadata.name)
    · obtain ⟨hn, -⟩ := Prod.mk.inj hne
      obtain rfl := Option.some.inj hn
      exact contents?_congr ((h.secret?_create_of_some ha).trans ha.symm)
    · exact contents?_congr (h.secret?_create_of_ne hne)

@[simp] theorem contents_mutableSecret (secret : Secret) :
    (mutableSecret secret).contents = secret.contents := rfl

end Requests

/-! ### Migrations -/

/-- If the call migrates the Secret with this namespace and name and the delete request removes
it, then that request is answered and the create request that follows stores it again. -/
def Call.MigrationCompletes (api : SecretApi) (n name : String) (s : api.State) (call : Call) :
    Prop :=
  call.stacklet.namespace = some n → call.secretName = name →
    ∀ existingSecret, (api.getOpt s n name).1 = .ok (some existingSecret) →
      existingSecret.immutable = some true →
        let s' := (api.getOpt s n name).2
        let deleted := api.delete s' n name
        api.secret? deleted.2 n name = none →
          deleted.1 = .ok () ∧
            api.secret? (api.create deleted.2 n (mutableSecret existingSecret)).2 n name ≠ none

/-- Every call of the run completes the migration that it begins. -/
def MigrationsComplete {api : SecretApi} (n name : String) : World api → List Call → Prop
  | _, [] => True
  | w, call :: calls => call.MigrationCompletes api n name w.server ∧
      MigrationsComplete n name (createRandomSecretIfNotExists w call).2 calls

section Run

variable {api : SecretApi} {n name : String}

theorem World.send_eq {α : Type} {w : World api} {request : api.State → α × api.State}
    {answer : α} (h : (request w.server).1 = answer) :
    w.send request = (answer, (w.send request).2) :=
  Prod.ext h rfl

/-- The migration, from the state in which the immutable Secret was read. -/
theorem keeps_migration (h : api.IsDocumented) {w : World api} (hw : w.Keeps n name)
    {n' name' : String} {existingSecret : Secret}
    (hread : api.secret? w.server n' name' = some existingSecret)
    (hcompletes : n' = n → name' = name →
      api.secret? (api.delete w.server n name).2 n name = none →
        (api.delete w.server n name).1 = .ok () ∧
          api.secret? (api.create (api.delete w.server n name).2 n
            (mutableSecret existingSecret)).2 n name ≠ none) :
    (((api.delete w.server n' name').1 ≠ .ok () →
        (w.send fun s => api.delete s n' name').2.Keeps n name)) ∧
      ((w.send fun s => api.delete s n' name').2.send fun s =>
        api.create s ((mutableSecret existingSecret).metadata.namespace.getD "")
          (mutableSecret existingSecret)).2.Keeps n name := by
  obtain ⟨hn, hname⟩ := h.name_eq hread
  have hgetD : (mutableSecret existingSecret).metadata.namespace.getD "" = n' := by
    show existingSecret.metadata.namespace.getD "" = n'
    rw [hn, Option.getD_some]
  rw [hgetD]
  -- the deletion removes the contents, or leaves them
  rcases contents?_delete h w.server n name n' name' with hgone | hsame
  -- only the deletion of the Secret itself does, and then the creation brings them back
  · by_cases hne : (n', name') = (n, name)
    · obtain ⟨rfl, rfl⟩ := Prod.mk.inj hne
      have hnone : api.secret? (api.delete w.server n' name').2 n' name' = none := by
        rwa [contents?, Option.map_eq_none_iff] at hgone
      obtain ⟨hok, hback⟩ := hcompletes rfl rfl hnone
      obtain ⟨b, hb⟩ := Option.ne_none_iff_exists'.mp hback
      have hname' : (mutableSecret existingSecret).metadata.name = some name' := hname
      have hcontents : b.contents = (mutableSecret existingSecret).contents :=
        h.contents_create hname' hnone hb
      refine ⟨fun herror => absurd hok herror, hw.send_send hgone ?_⟩
      rw [contents?_eq_some hb, contents?_eq_some hread, hcontents, contents_mutableSecret]
    · have hframe : contents? api n name (api.delete w.server n' name').2 =
          contents? api n name w.server :=
        contents?_congr (h.secret?_delete_of_ne (Ne.symm hne))
      have hdeleted : (w.send fun s => api.delete s n' name').2.Keeps n name :=
        hw.send (.inr hframe)
      exact ⟨fun _ => hdeleted, hdeleted.send (contents?_create h _ n name n' _)⟩
  · have hdeleted : (w.send fun s => api.delete s n' name').2.Keeps n name :=
      hw.send (.inr hsame)
    exact ⟨fun _ => hdeleted, hdeleted.send (contents?_create h _ n name n' _)⟩

/-- **One call keeps the contents** if it completes the migration that it begins. -/
theorem keeps_createRandomSecretIfNotExists (h : api.IsDocumented) {w : World api}
    (hw : w.Keeps n name) {call : Call}
    (hcall : call.MigrationCompletes api n name w.server) :
    (createRandomSecretIfNotExists w call).2.Keeps n name := by
  rw [createRandomSecretIfNotExists]
  rcases hnamespace : call.stacklet.namespace with _ | n'
  · exact hw
  · have hget : (w.send fun s => api.getOpt s n' call.secretName).2.Keeps n name :=
      hw.send (.inr (contents?_getOpt h _ _ _ _ _))
    dsimp only
    rcases hanswer : (api.getOpt w.server n' call.secretName).1 with e | _ | existingSecret
    · rw [World.send_eq hanswer]
      exact hget
    · rw [World.send_eq hanswer]
      dsimp only
      rcases call.newSecret with e | secret
      · exact hget
      -- no Secret was found: a creation does not overwrite one that appeared since
      · have hcreated : ((w.send fun s => api.getOpt s n' call.secretName).2.send fun s =>
            api.create s (secret.metadata.namespace.getD "") secret).2.Keeps n name :=
          hget.send (contents?_create h _ n name _ secret)
        exact hcreated
    · rw [World.send_eq hanswer]
      dsimp only
      -- an immutable Secret is migrated, any other one is kept as it is
      split_ifs with himmutable
      · have hread : api.secret? (api.getOpt w.server n' call.secretName).2 n'
            call.secretName = some existingSecret :=
          h.secret?_getOpt.trans (h.getOpt_eq hanswer).symm
        obtain ⟨hfailed, hcreated⟩ := keeps_migration h hget hread (by
          rintro rfl rfl hgone
          exact hcall hnamespace rfl existingSecret hanswer himmutable hgone)
        rcases hdelete : (api.delete (api.getOpt w.server n' call.secretName).2 n'
            call.secretName).1 with e | _
        · rw [World.send_eq (w := (w.send _).2) hdelete]
          exact hfailed (by simp [hdelete])
        · rw [World.send_eq (w := (w.send _).2) hdelete]
          exact hcreated
      · exact hget

theorem keeps_run (h : api.IsDocumented) {w : World api} (hw : w.Keeps n name)
    {calls : List Call} (hcalls : MigrationsComplete n name w calls) :
    (run w calls).Keeps n name := by
  induction calls generalizing w with
  | nil => exact hw
  | cons call calls ih =>
    exact ih (keeps_createRandomSecretIfNotExists h hw hcalls.1) hcalls.2

end Run

/-! ### An API server in memory -/

/-- The Secrets by namespace and name, and whether the next requests are carried out. -/
structure SecretStore where
  secrets : (n name : String) → Option Secret
  outcomes : List Bool
  name_eq : ∀ {n name a}, secrets n name = some a →
    a.metadata.namespace = some n ∧ a.metadata.name = some name

namespace SecretStore

/-- The store after a request that has no effect. -/
def next (s : SecretStore) : SecretStore := { s with outcomes := s.outcomes.tail }

/-- The store after a request that replaces the Secret with a namespace and name. -/
def set (s : SecretStore) (n name : String) (secret : Option Secret)
    (h : ∀ a, secret = some a → a.metadata.namespace = some n ∧ a.metadata.name = some name) :
    SecretStore where
  secrets := fun n' name' => if (n', name') = (n, name) then secret else s.secrets n' name'
  outcomes := s.outcomes.tail
  name_eq := by
    intro n' name' a ha
    split_ifs at ha with hkey
    · obtain ⟨rfl, rfl⟩ := Prod.mk.inj hkey
      exact h a ha
    · exact s.name_eq ha

theorem name_eq_none (n name : String) (a : Secret) (ha : none = some a) :
    a.metadata.namespace = some n ∧ a.metadata.name = some name :=
  absurd ha (by simp)

/-- The Secret as the server stores it. -/
def stored (n : String) (secret : Secret) : Secret :=
  { secret with
    metadata := { secret.metadata with «namespace» := some n }
    resourceVersion := some "1" }

theorem name_eq_stored {n name : String} {secret : Secret}
    (h : secret.metadata.name = some name) (a : Secret) (ha : some (stored n secret) = some a) :
    a.metadata.namespace = some n ∧ a.metadata.name = some name := by
  obtain rfl := Option.some.inj ha
  exact ⟨rfl, h⟩

/-- Store a Secret that does not exist yet. -/
def insert (s : SecretStore) (n : String) (secret : Secret) :
    Except KubeError Unit × SecretStore :=
  match hname : secret.metadata.name with
  | none => (.error (.api false), s.next)
  | some name =>
    match s.secrets n name with
    | some _ => (.error (.api false), s.next)
    | none =>
      (.ok (), s.set n name (some (stored n secret)) (name_eq_stored hname))

/-- The in-memory API server. A request that is not carried out is answered with an error. -/
def api : SecretApi where
  State := SecretStore
  secret? := SecretStore.secrets
  getOpt := fun s n name =>
    (if s.outcomes.headD true then .ok (s.secrets n name) else .error .other, s.next)
  delete := fun s n name =>
    if s.outcomes.headD true then (.ok (), s.set n name none (name_eq_none n name))
    else (.error .other, s.next)
  create := fun s n secret =>
    if s.outcomes.headD true then s.insert n secret else (.error .other, s.next)

@[simp] theorem secrets_set_self (s : SecretStore) (n name : String) (secret : Option Secret)
    (h) : (s.set n name secret h).secrets n name = secret := if_pos rfl

theorem secrets_set_of_ne (s : SecretStore) {n name n' name' : String}
    (secret : Option Secret) (h) (hne : (n', name') ≠ (n, name)) :
    (s.set n name secret h).secrets n' name' = s.secrets n' name' := if_neg hne

/-- What a create request can do: nothing, or store the Secret under its free name. -/
theorem create_cases (s : SecretStore) (n : String) (secret : Secret) :
    (api.create s n secret).2.secrets = s.secrets ∨
      ∃ name h, secret.metadata.name = some name ∧ s.secrets n name = none ∧
        (api.create s n secret).2 = s.set n name (some (stored n secret)) h := by
  simp only [api]
  split_ifs
  · rw [insert]
    split
    · exact .inl rfl
    · rename_i name hname
      split
      · exact .inl rfl
      · rename_i hnone
        exact .inr ⟨name, name_eq_stored hname, hname, hnone, rfl⟩
  · exact .inl rfl

/-- What a delete request can do: nothing, or remove the Secret. -/
theorem delete_cases (s : SecretStore) (n name : String) :
    (api.delete s n name).2.secrets = s.secrets ∨
      (api.delete s n name).2 = s.set n name none (name_eq_none n name) := by
  simp only [api]
  split_ifs
  · exact .inr rfl
  · exact .inl rfl

theorem isDocumented_api : api.IsDocumented where
  name_eq := fun {s} _ _ _ h => s.name_eq h
  secret?_getOpt := rfl
  getOpt_eq := by
    intro s n name answer h
    simp only [api] at h
    split_ifs at h
    exact (Except.ok.inj h).symm
  secret?_delete_of_ne := by
    intro s n name n' name' hne
    rcases delete_cases s n name with hsame | hset
    · exact congrFun (congrFun hsame n') name'
    · rw [hset]
      exact secrets_set_of_ne s none (name_eq_none n name) hne
  contents_delete := by
    intro s n name b hb
    rcases delete_cases s n name with hsame | hset
    · exact ⟨b, (congrFun (congrFun hsame n) name).symm.trans hb, rfl⟩
    · rw [hset] at hb
      exact absurd ((secrets_set_self s n name none (name_eq_none n name)).symm.trans hb) (by simp)
  secret?_create_of_ne := by
    intro s n secret n' name' hne
    rcases create_cases s n secret with hsame | ⟨name, h, hname, -, hset⟩
    · exact congrFun (congrFun hsame n') name'
    · rw [hset]
      refine secrets_set_of_ne s _ h ?_
      rintro ⟨⟩
      exact hne (by rw [hname])
  secret?_create_of_some := by
    intro s n name secret a ha
    rcases create_cases s n secret with hsame | ⟨name', h, hname, hnone, hset⟩
    · exact (congrFun (congrFun hsame n) name).trans ha
    · rw [hset]
      refine (secrets_set_of_ne s _ h ?_).trans ha
      rintro ⟨⟩
      exact absurd (ha.symm.trans hnone) (by simp)
  contents_create := by
    intro s n name secret b hname hnone hb
    rcases create_cases s n secret with hsame | ⟨name', h, hname', -, hset⟩
    · exact absurd (hb.symm.trans ((congrFun (congrFun hsame n) name).trans hnone)) (by simp)
    · obtain rfl := Option.some.inj (hname.symm.trans hname')
      rw [hset] at hb
      obtain rfl := Option.some.inj ((secrets_set_self s n name _ h).symm.trans hb)
      rfl

end SecretStore

/-- A server that has not received any request. -/
def World.init {api : SecretApi} (s : api.State) : World api := ⟨s, [s]⟩

/-- **Random contents are kept** over all calls, whatever their requests are answered, if every
migration that deletes the Secret also creates it again. -/
theorem keepsContents_run {api : SecretApi} (h : api.IsDocumented) (s : api.State)
    (n name : String) (calls : List Call)
    (hcalls : MigrationsComplete n name (World.init s) calls) :
    KeepsContents api n name (run (World.init s) calls).history := by
  have hinit : (World.init s).Keeps n name := by
    intro s' hs'
    obtain rfl := List.mem_singleton.mp hs'
    exact .inr rfl
  exact keepsContents_of_keeps (keeps_run h hinit hcalls)

/-! ### An old Secret -/

/-- A stacklet with one random Secret. -/
def simpleCall : Call where
  secretName := "simple-internal-secret"
  secretKey := "INTERNAL_SECRET"
  secretSizeBytes := 3
  stacklet := {
    name := some "simple"
    generateName := none
    «namespace» := some "default"
    labels := none
    ownerReferences := none
    uid := some "c27b3971-ca72-42c1-80a4-782fc6c4a9a5" }
  random := [0, 0, 0]
  length_random := rfl

/-- The Secret of the stacklet as an old release created it. -/
def oldSecret : Secret where
  metadata := {
    name := some "simple-internal-secret"
    generateName := none
    «namespace» := some "default"
    labels := none
    ownerReferences := some [⟨"c27b3971-ca72-42c1-80a4-782fc6c4a9a5"⟩]
    uid := some "0bd1ad4a-7f31-4b4f-b6e1-7d7c0a1b6a0e" }
  resourceVersion := some "1"
  immutable := some true
  data := some (IterMap.insert (M := BTreeMap String) IterMap.empty "INTERNAL_SECRET"
    (utf8Bytes "QUJD"))
  stringData := none

/-- A store with the old Secret. -/
def oldStore (outcomes : List Bool) : SecretStore where
  secrets := fun n name =>
    if (n, name) = ("default", "simple-internal-secret") then some oldSecret else none
  outcomes := outcomes
  name_eq := by
    intro n name a ha
    split_ifs at ha with hkey
    · obtain ⟨rfl, rfl⟩ := Prod.mk.inj hkey
      obtain rfl := Option.some.inj ha
      exact ⟨rfl, rfl⟩

/-- The calls of two reconciliations. -/
def simpleRun (outcomes : List Bool) : World SecretStore.api :=
  run (World.init (oldStore outcomes)) [simpleCall, simpleCall]

theorem migrationsComplete_oldStore :
    MigrationsComplete "default" "simple-internal-secret"
      (World.init (oldStore []) : World SecretStore.api) [simpleCall, simpleCall] := by
  refine ⟨?_, ?_, trivial⟩
  · intro _ _ existingSecret hget _
    have hold : existingSecret = oldSecret := Option.some.inj (Except.ok.inj hget).symm
    subst hold
    exact fun _ => ⟨rfl, Option.ne_none_iff_isSome.mpr rfl⟩
  · intro _ _ existingSecret hget himmutable
    have hmutable : existingSecret.immutable = some false := by
      rw [Option.some.inj (Except.ok.inj hget).symm]
      rfl
    exact absurd (himmutable.symm.trans hmutable) (by decide)

theorem keepsContents_run_oldStore :
    KeepsContents SecretStore.api "default" "simple-internal-secret" (simpleRun []).history :=
  keepsContents_run SecretStore.isDocumented_api _ _ _ _ migrationsComplete_oldStore

/-- The create request of a migration fails, and the next call draws new contents. -/
theorem not_keepsContents_run :
    SecretStore.api.IsDocumented ∧
      ¬ KeepsContents SecretStore.api "default" "simple-internal-secret"
        (simpleRun [true, true, false]).history := by
  refine ⟨SecretStore.isDocumented_api, ?_⟩
  intro h
  have hhistory : (simpleRun [true, true, false]).history =
      (simpleRun [true, true, false]).server :: (simpleRun [true, true, false]).history.tail := rfl
  have hinitial : oldStore [true, true, false] ∈ (simpleRun [true, true, false]).history.tail :=
    .tail _ (.tail _ (.tail _ (.tail _ (.head _))))
  obtain ⟨newSecret, hnew⟩ : ∃ newSecret, simpleCall.newSecret = .ok newSecret := ⟨_, rfl⟩
  rw [KeepsContents, hhistory] at h
  have hcontents : (SecretStore.stored "default" newSecret).contents = oldSecret.contents :=
    (List.pairwise_cons.mp h).1 _ hinitial oldSecret _ rfl (by
      obtain rfl := Except.ok.inj hnew
      rfl)
  obtain rfl := Except.ok.inj hnew
  have hkey := congrFun hcontents "INTERNAL_SECRET"
  simp only [Secret.contents, SecretStore.stored, oldSecret, Option.bind_some, Option.bind_none,
    simpleCall, IterMap.get?_insert_self, Option.map_some, Option.map_none, Option.some_or,
    Option.none_or] at hkey
  exact absurd hkey (by decide)

end RandomSecretCreation

end StackableOperator
