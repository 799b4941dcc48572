import Mathlib
import StackableOperator.ForMathlib.IterMap
import StackableOperator.Kvp.Pairs
import StackableOperator.Shared.Duration

/-!
# Annotations

An annotation is a key with any text. The annotations of this module ask the secret operator for a
volume; `Annotation.secretScope` writes a list of scopes as one text.
-/

namespace StackableOperator

/-- What parts of secret material are provisioned into a volume. -/
inductive SecretClassVolumeProvisionParts : Type
  | «public»
  | publicPrivate
  deriving DecidableEq

def SecretClassVolumeProvisionParts.asRef : SecretClassVolumeProvisionParts → String
  | .public => "public"
  | .publicPrivate => "public-private"

inductive SecretOperatorVolumeScope : Type
  | node
  | pod
  | service (name : String)
  | listenerVolume (name : String)
  deriving DecidableEq

inductive SecretFormat : Type
  | tlsPem
  | tlsPkcs12
  | kerberos
  deriving DecidableEq

def SecretFormat.asRef : SecretFormat → String
  | .tlsPem => "tls-pem"
  | .tlsPkcs12 => "tls-pkcs12"
  | .kerberos => "kerberos"

namespace Kvp

/-- Every text is the value of an annotation. -/
abbrev AnnotationError : Type := KeyValuePairError Empty

structure Annotation where
  key : Key
  value : String

/-- The text of one scope. -/
def scopeString : SecretOperatorVolumeScope → String
  | .node => "node"
  | .pod => "pod"
  | .service name => "service=" ++ name
  | .listenerVolume name => "listener-volume=" ++ name

/-- Append one scope to the text, behind a comma unless the text is still empty. -/
def pushScope (value : String) (scope : SecretOperatorVolumeScope) : String :=
  (if value.isEmpty then value else value ++ ",") ++ scopeString scope

namespace Annotation

def tryFrom (key value : String) : Except AnnotationError Annotation :=
  match Key.fromStr key with
  | .error e => .error (.invalidKey e key)
  | .ok k => .ok ⟨k, value⟩

/-- A key that displays as it was written is enough for an annotation. -/
theorem exists_tryFrom_eq_ok {key : String} (value : String)
    (hkey : (Key.fromStr key).map Key.string = .ok key) :
    ∃ annotation, tryFrom key value = .ok annotation ∧
      annotation.key.string = key ∧ annotation.value = value := by
  unfold tryFrom
  match hk : Key.fromStr key with
  | .error e =>
    rw [hk] at hkey
    exact absurd hkey (by simp [Except.map])
  | .ok k =>
    rw [hk] at hkey
    exact ⟨⟨k, value⟩, rfl, Except.ok.inj hkey, rfl⟩

/-- Texts with valid keys are annotations. -/
theorem exists_mapM_tryFrom {entries : List (String × String)}
    (h : ∀ e ∈ entries, (Key.fromStr e.1).map Key.string = .ok e.1) :
    ∃ annotations, (entries.map fun e => tryFrom e.1 e.2).mapM id = .ok annotations ∧
      annotations.map (fun a => (a.key.string, a.value)) = entries := by
  induction entries with
  | nil => exact ⟨[], rfl, rfl⟩
  | cons e entries ih =>
    rw [List.forall_mem_cons] at h
    obtain ⟨a, ha, hkey, hvalue⟩ := exists_tryFrom_eq_ok e.2 h.1
    obtain ⟨annotations, hannotations, hentries⟩ := ih h.2
    refine ⟨a :: annotations, ?_, ?_⟩
    · rw [List.map_cons, List.mapM_cons, ha, hannotations]
      rfl
    · rw [List.map_cons, hentries, hkey, hvalue]

def secretProvisionParts (provisionParts : SecretClassVolumeProvisionParts) :
    Except AnnotationError Annotation :=
  tryFrom "secrets.stackable.tech/provision-parts" provisionParts.asRef

def secretClass (secretClass : String) : Except AnnotationError Annotation :=
  tryFrom "secrets.stackable.tech/class" secretClass

def secretScope (scopes : List SecretOperatorVolumeScope) : Except AnnotationError Annotation :=
  tryFrom "secrets.stackable.tech/scope" (scopes.foldl pushScope "")

def secretFormat (format : String) : Except AnnotationError Annotation :=
  tryFrom "secrets.stackable.tech/format" format

def kerberosServiceNames (names : List String) : Except AnnotationError Annotation :=
  tryFrom "secrets.stackable.tech/kerberos.service.names" (",".intercalate names)

def tlsPkcs12Password (password : String) : Except AnnotationError Annotation :=
  tryFrom "secrets.stackable.tech/format.compatibility.tls-pkcs12.password" password

def autoTlsCertLifetime (lifetime : String) : Except AnnotationError Annotation :=
  tryFrom "secrets.stackable.tech/backend.autotls.cert.lifetime" lifetime

def autoTlsCertDomainComponentsInSubjectDn (enabled : Bool) : Except AnnotationError Annotation :=
  tryFrom "secrets.stackable.tech/backend.autotls.cert.domain-components-in-subject-dn"
    (if enabled then "true" else "false")

end Annotation

/-- A set of annotations with different keys. -/
abbrev Annotations : Type := BTreeMap Key String

/-- Insert annotations one after the other. -/
def Annotations.fromIter (annotations : List Annotation) : Annotations :=
  IterMap.collect (M := BTreeMap Key) (annotations.map fun a => (a.key, a.value))

/-- The annotations of an object. -/
def Annotations.toBTreeMap (annotations : Annotations) : BTreeMap String String :=
  displayPairs id annotations

theorem Annotations.get?_toBTreeMap_fromIter {annotations : List Annotation}
    (h : (annotations.map fun a => a.key.string).Nodup) {key value : String} :
    IterMap.get? (M := BTreeMap String) (fromIter annotations).toBTreeMap key = some value ↔
      (key, value) ∈ annotations.map fun a => (a.key.string, a.value) := by
  have hpairs : ((annotations.map fun a => (a.key, a.value)).map
      fun e => e.1.string).Nodup := by
    rw [List.map_map]
    exact h
  refine (get?_displayPairs_collect hpairs).trans ⟨?_, ?_⟩
  · rintro ⟨e, he, rfl, rfl⟩
    obtain ⟨a, ha, rfl⟩ := List.mem_map.mp he
    exact List.mem_map.mpr ⟨a, ha, rfl⟩
  · intro hmem
    obtain ⟨a, ha, heq⟩ := List.mem_map.mp hmem
    obtain ⟨hkey, hvalue⟩ := Prod.mk.inj heq
    exact ⟨(a.key, a.value), List.mem_map.mpr ⟨a, ha, rfl⟩, hkey, hvalue⟩

end Kvp

end StackableOperator
