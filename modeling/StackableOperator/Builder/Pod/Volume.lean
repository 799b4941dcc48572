import Mathlib
import StackableOperator.Builder.Meta
import StackableOperator.ForMathlib.Traverse
import StackableOperator.Kvp.Annotation
import StackableOperator.Shared.Duration

/-!
# Volumes

`VolumeBuilder` and `VolumeMountBuilder` build volumes and their mounts, and
`SecretOperatorVolumeSourceBuilder` builds the source of a volume that the secret operator fills.
What is asked of the secret operator is written into annotations, and
`SecretOperatorVolumeSourceBuilder.exists_build` says which.
-/

namespace StackableOperator

/-! ### Volumes and mounts -/

structure ConfigMapVolumeSource where
  name : String
  deriving DecidableEq

structure EmptyDirVolumeSource where
  medium : Option String := none
  sizeLimit : Option String := none
  deriving DecidableEq

structure SecretVolumeSource where
  optional : Option Bool := none
  secretName : Option String := none
  deriving DecidableEq

/-- The claim that the volumes of the secret operator have. -/
structure PersistentVolumeClaimSpec where
  storageClassName : Option String := none
  requests : Option (List (String × String)) := none
  accessModes : Option (List String) := none
  deriving DecidableEq

structure PersistentVolumeClaimTemplate where
  metadata : Option Builder.ObjectMeta
  spec : PersistentVolumeClaimSpec
  deriving DecidableEq

structure EphemeralVolumeSource where
  volumeClaimTemplate : Option PersistentVolumeClaimTemplate
  deriving DecidableEq

/-- An annotation of the claims that are created for the volume. -/
def EphemeralVolumeSource.annotation? (self : EphemeralVolumeSource) (key : String) :
    Option String := do
  let template ← self.volumeClaimTemplate
  let metadata ← template.metadata
  let annotations ← metadata.annotations
  IterMap.get? (M := BTreeMap String) annotations key

/-- The kinds of sources that the volumes of this development have. -/
inductive VolumeSource : Type
  | configMap (configMap : ConfigMapVolumeSource)
  | emptyDir (emptyDir : EmptyDirVolumeSource)
  | secret (secret : SecretVolumeSource)
  | ephemeral (ephemeral : EphemeralVolumeSource)

/-- A volume. Volumes are compared as a whole, so the sources that nothing here looks into are kept
too. -/
structure Volume where
  name : String
  configMap : Option ConfigMapVolumeSource := none
  emptyDir : Option EmptyDirVolumeSource := none
  secret : Option SecretVolumeSource := none
  ephemeral : Option EphemeralVolumeSource := none
  /-- All other sources, by their field and serialised. -/
  otherSources : List (String × String) := []
  deriving DecidableEq

structure VolumeBuilder where
  name : String
  volumeSource : VolumeSource := .emptyDir {}

namespace VolumeBuilder

def new (name : String) : VolumeBuilder := { name := name }

def withConfigMap (self : VolumeBuilder) (name : String) : VolumeBuilder :=
  { self with volumeSource := .configMap { name := name } }

def emptyDir (self : VolumeBuilder) (emptyDir : EmptyDirVolumeSource) : VolumeBuilder :=
  { self with volumeSource := .emptyDir emptyDir }

def withSecret (self : VolumeBuilder) (secretName : String) (optional : Bool) : VolumeBuilder :=
  { self with volumeSource := .secret { optional := some optional, secretName := some secretName } }

def ephemeral (self : VolumeBuilder) (ephemeral : EphemeralVolumeSource) : VolumeBuilder :=
  { self with volumeSource := .ephemeral ephemeral }

def build (self : VolumeBuilder) : Volume :=
  match self.volumeSource with
  | .configMap cm => { name := self.name, configMap := some cm }
  | .emptyDir emptyDir => { name := self.name, emptyDir := some emptyDir }
  | .secret secret => { name := self.name, secret := some secret }
  | .ephemeral ephemeral => { name := self.name, ephemeral := some ephemeral }

@[simp]
theorem build_name (self : VolumeBuilder) : self.build.name = self.name := by
  unfold build
  split <;> rfl

end VolumeBuilder

structure VolumeMount where
  mountPath : String
  mountPropagation : Option String := none
  name : String
  readOnly : Option Bool := none
  subPath : Option String := none
  subPathExpr : Option String := none
  recursiveReadOnly : Option String := none
  deriving DecidableEq

structure VolumeMountBuilder where
  mountPath : String
  mountPropagation : Option String := none
  name : String
  readOnly : Option Bool := none
  subPath : Option String := none
  subPathExpr : Option String := none

namespace VolumeMountBuilder

def new (name mountPath : String) : VolumeMountBuilder := { mountPath := mountPath, name := name }

/-- `recursiveReadOnly` is never set, for older clusters. -/
def build (self : VolumeMountBuilder) : VolumeMount where
  mountPath := self.mountPath
  mountPropagation := self.mountPropagation
  name := self.name
  readOnly := self.readOnly
  subPath := self.subPath
  subPathExpr := self.subPathExpr

end VolumeMountBuilder

/-! ### Volumes of the secret operator -/

open Kvp

structure SecretOperatorVolumeSourceBuilder where
  secretClass : String
  scopes : List SecretOperatorVolumeScope := []
  format : Option SecretFormat := none
  kerberosServiceNames : List String := []
  tlsPkcs12Password : Option String := none
  autoTlsCertLifetime : Option Duration := none
  autoTlsCertDomainComponentsInSubjectDn : Option Bool := none
  provisionParts : SecretClassVolumeProvisionParts

namespace SecretOperatorVolumeSourceBuilder

inductive Error : Type
  | parseAnnotation (source : AnnotationError)

def new (secretClass : String) (provisionParts : SecretClassVolumeProvisionParts) :
    SecretOperatorVolumeSourceBuilder :=
  { secretClass := secretClass, provisionParts := provisionParts }

variable (self : SecretOperatorVolumeSourceBuilder)

def withScope (scope : SecretOperatorVolumeScope) : SecretOperatorVolumeSourceBuilder :=
  { self with scopes := self.scopes ++ [scope] }

def withNodeScope : SecretOperatorVolumeSourceBuilder := self.withScope .node

def withPodScope : SecretOperatorVolumeSourceBuilder := self.withScope .pod

def withServiceScope (name : String) : SecretOperatorVolumeSourceBuilder :=
  self.withScope (.service name)

def withListenerVolumeScope (name : String) : SecretOperatorVolumeSourceBuilder :=
  self.withScope (.listenerVolume name)

/-- The password is only used for PKCS12 stores. -/
def usedTlsPkcs12Password : Option String :=
  if self.format = some .tlsPkcs12 then self.tlsPkcs12Password else none

/-- The annotations in the order in which they are inserted. -/
def annotations : List (Except AnnotationError Annotation) :=
  [ Annotation.secretClass self.secretClass,
    Annotation.secretProvisionParts self.provisionParts] ++
    (if self.scopes.isEmpty then [] else [ Annotation.secretScope self.scopes]) ++
    (self.format.map fun format => Annotation.secretFormat format.asRef).toList ++
    (if self.kerberosServiceNames.isEmpty then []
      else [ Annotation.kerberosServiceNames self.kerberosServiceNames]) ++
    (self.usedTlsPkcs12Password.map Annotation.tlsPkcs12Password).toList ++
    (self.autoTlsCertLifetime.map fun lifetime =>
      Annotation.autoTlsCertLifetime lifetime.display).toList ++
    (self.autoTlsCertDomainComponentsInSubjectDn.map
      Annotation.autoTlsCertDomainComponentsInSubjectDn).toList

def build : Except Error EphemeralVolumeSource :=
  match self.annotations.mapM id with
  | .error source => .error <| Error.parseAnnotation source
  | .ok annotations =>
    .ok
      { volumeClaimTemplate := some
          { metadata := some (Builder.ObjectMetaBuilder.new.replaceAnnotations
              (Annotations.fromIter annotations)).build
            spec :=
              { storageClassName := some "secrets.stackable.tech"
                requests := some [("storage", "1")]
                accessModes := some ["ReadWriteOnce"] } } }

/-! ### The annotations -/

/-- The keys of the annotations, in the order in which they are inserted. -/
def annotationKeys : List String :=
  ["secrets.stackable.tech/class", "secrets.stackable.tech/provision-parts",
    "secrets.stackable.tech/scope", "secrets.stackable.tech/format",
    "secrets.stackable.tech/kerberos.service.names",
    "secrets.stackable.tech/format.compatibility.tls-pkcs12.password",
    "secrets.stackable.tech/backend.autotls.cert.lifetime",
    "secrets.stackable.tech/backend.autotls.cert.domain-components-in-subject-dn"]

/-- The texts of the annotations. -/
def annotationEntries : List (String × String) :=
  [("secrets.stackable.tech/class", self.secretClass),
    ("secrets.stackable.tech/provision-parts", self.provisionParts.asRef)] ++
    (if self.scopes.isEmpty then []
      else [("secrets.stackable.tech/scope", self.scopes.foldl pushScope "")]) ++
    (self.format.map fun format => ("secrets.stackable.tech/format", format.asRef)).toList ++
    (if self.kerberosServiceNames.isEmpty then []
      else [("secrets.stackable.tech/kerberos.service.names",
        ",".intercalate self.kerberosServiceNames)]) ++
    (self.usedTlsPkcs12Password.map fun password =>
      ("secrets.stackable.tech/format.compatibility.tls-pkcs12.password", password)).toList ++
    (self.autoTlsCertLifetime.map fun lifetime =>
      ("secrets.stackable.tech/backend.autotls.cert.lifetime", lifetime.display)).toList ++
    (self.autoTlsCertDomainComponentsInSubjectDn.map fun enabled : Bool =>
      ("secrets.stackable.tech/backend.autotls.cert.domain-components-in-subject-dn",
        if enabled then "true" else "false")).toList

theorem annotations_eq :
    self.annotations = self.annotationEntries.map fun e => Annotation.tryFrom e.1 e.2 := by
  simp only [annotations, annotationEntries, List.map_append, List.map_cons, List.map_nil,
    Option.toList_map, List.map_map, Function.comp_def, apply_ite (List.map _),
    Annotation.secretClass, Annotation.secretProvisionParts, Annotation.secretScope,
    Annotation.secretFormat, Annotation.kerberosServiceNames]
  rfl

theorem map_fst_toList_sublist {α : Type} (x : Option α) (key : String) (f : α → String) :
    ((x.map fun a => (key, f a)).toList.map Prod.fst).Sublist [key] := by
  match x with
  | none => exact List.nil_sublist [key]
  | some a => exact List.Sublist.refl [key]

theorem map_fst_ite_sublist {p : Prop} [Decidable p] (key value : String) :
    ((if p then [] else [(key, value)]).map Prod.fst).Sublist [key] := by
  split
  · exact List.nil_sublist [key]
  · exact List.Sublist.refl [key]

theorem map_fst_annotationEntries_sublist :
    (self.annotationEntries.map Prod.fst).Sublist annotationKeys := by
  simp only [annotationEntries, List.map_append]
  exact ((((((List.Sublist.refl _).append (map_fst_ite_sublist _ _)).append
    (map_fst_toList_sublist _ _ _)).append (map_fst_ite_sublist _ _)).append
      (map_fst_toList_sublist _ _ id)).append (map_fst_toList_sublist _ _ _)).append
        (map_fst_toList_sublist _ _ _)

/-- Every key is valid and displays as it was written. -/
theorem fromStr_annotationKeys :
    ∀ key ∈ annotationKeys, (Key.fromStr key).map Key.string = .ok key := by
  simp only [annotationKeys, List.forall_mem_cons]
  refine ⟨?_, ?_, ?_, ?_, ?_, ?_, ?_, ?_, by simp⟩ <;> decide

/-- **What is asked of the secret operator.** The source is built, and its annotations are the
listed ones. -/
theorem exists_build : ∃ source, self.build = .ok source ∧
    ∀ key value, source.annotation? key = some value ↔ (key, value) ∈ self.annotationEntries := by
  have hsublist := self.map_fst_annotationEntries_sublist
  obtain ⟨annotations, hannotations, hentries⟩ := Annotation.exists_mapM_tryFrom
    fun e he => fromStr_annotationKeys e.1 (hsublist.subset (List.mem_map_of_mem he))
  have hnodup : (annotations.map fun annotation => annotation.key.string).Nodup := by
    have hkeys := hsublist.nodup (by decide)
    rw [← hentries, List.map_map] at hkeys
    exact hkeys
  rw [← annotations_eq] at hannotations
  refine ⟨_, by rw [build, hannotations], fun key value => ?_⟩
  rw [← hentries]
  exact Annotations.get?_toBTreeMap_fromIter hnodup

end SecretOperatorVolumeSourceBuilder

end StackableOperator
