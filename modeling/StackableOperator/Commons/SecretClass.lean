import Mathlib
import StackableOperator.Builder.Pod.Volume
import StackableOperator.ForMathlib.SplitOn

/-!
# Volumes of SecretClasses

A `SecretClassVolume` asks for the secrets of a SecretClass in some scope. The scope is written
into one annotation, where the parts are separated by commas, and `readScopes` reads the parts back.
`SecretClassVolume.readScopes_annotation_iff` says that this gives the requested scopes iff no name
contains a comma.
-/

namespace StackableOperator

open Kvp

structure SecretClassVolumeScope where
  pod : Bool := false
  node : Bool := false
  services : List String := []
  listenerVolumes : List String := []
  deriving DecidableEq

structure SecretClassVolume where
  secretClass : String
  scope : Option SecretClassVolumeScope
  deriving DecidableEq

namespace SecretClassVolume

inductive Error : Type
  | secretOperatorVolume (source : SecretOperatorVolumeSourceBuilder.Error)

/-- The builder of the volume source, with the scopes in the order of its fields. -/
def secretOperatorVolumeBuilder (self : SecretClassVolume)
    (provisionParts : SecretClassVolumeProvisionParts) : SecretOperatorVolumeSourceBuilder :=
  let builder := SecretOperatorVolumeSourceBuilder.new self.secretClass provisionParts
  match self.scope with
  | some scope =>
    let builder := if scope.pod then builder.withPodScope else builder
    let builder := if scope.node then builder.withNodeScope else builder
    let builder := scope.services.foldl SecretOperatorVolumeSourceBuilder.withServiceScope builder
    scope.listenerVolumes.foldl SecretOperatorVolumeSourceBuilder.withListenerVolumeScope builder
  | none => builder

def toEphemeralVolumeSource (self : SecretClassVolume)
    (provisionParts : SecretClassVolumeProvisionParts) : Except Error EphemeralVolumeSource :=
  match (self.secretOperatorVolumeBuilder provisionParts).build with
  | .error source => .error (.secretOperatorVolume source)
  | .ok ephemeral => .ok ephemeral

def toVolume (self : SecretClassVolume) (volumeName : String)
    (provisionParts : SecretClassVolumeProvisionParts) : Except Error Volume :=
  match self.toEphemeralVolumeSource provisionParts with
  | .error e => .error e
  | .ok ephemeral => .ok ((VolumeBuilder.new volumeName).ephemeral ephemeral).build

end SecretClassVolume

/-! ### Requested scopes -/

/-- What a scope asks for, in the order in which it is written. -/
def SecretClassVolumeScope.requested (scope : SecretClassVolumeScope) :
    List SecretOperatorVolumeScope :=
  (if scope.pod then [.pod] else []) ++ (if scope.node then [.node] else []) ++
    scope.services.map .service ++ scope.listenerVolumes.map .listenerVolume

/-- No name of the scope contains a comma. -/
def SecretClassVolumeScope.CommaFree (scope : SecretClassVolumeScope) : Prop :=
  ∀ name ∈ scope.services ++ scope.listenerVolumes, ',' ∉ name.toList
  deriving Decidable

/-- The scope of a volume; without one nothing is requested. -/
def SecretClassVolume.requestedScope (self : SecretClassVolume) : SecretClassVolumeScope :=
  self.scope.getD {}

/-- Several scopes, one after the other. -/
def SecretOperatorVolumeSourceBuilder.withScopes (self : SecretOperatorVolumeSourceBuilder)
    (scopes : List SecretOperatorVolumeScope) : SecretOperatorVolumeSourceBuilder :=
  { self with scopes := self.scopes ++ scopes }

theorem foldl_withScope {α : Type} (f : α → SecretOperatorVolumeScope) (l : List α)
    (builder : SecretOperatorVolumeSourceBuilder) :
    l.foldl (fun builder a => builder.withScope (f a)) builder = builder.withScopes (l.map f) := by
  induction l generalizing builder with
  | nil => simp [SecretOperatorVolumeSourceBuilder.withScopes]
  | cons a l ih =>
    rw [List.foldl_cons, ih]
    simp [SecretOperatorVolumeSourceBuilder.withScope,
      SecretOperatorVolumeSourceBuilder.withScopes]

/-- The builder gets the requested scopes in their order. -/
theorem SecretClassVolume.secretOperatorVolumeBuilder_eq (self : SecretClassVolume)
    (provisionParts : SecretClassVolumeProvisionParts) :
    self.secretOperatorVolumeBuilder provisionParts =
      (SecretOperatorVolumeSourceBuilder.new self.secretClass provisionParts).withScopes
        self.requestedScope.requested := by
  obtain ⟨secretClass, scope⟩ := self
  match scope with
  | none => rfl
  | some ⟨pod, node, services, listenerVolumes⟩ =>
    have hservices (builder : SecretOperatorVolumeSourceBuilder) :
        services.foldl SecretOperatorVolumeSourceBuilder.withServiceScope builder =
          builder.withScopes (services.map .service) := foldl_withScope .service services builder
    have hlisteners (builder : SecretOperatorVolumeSourceBuilder) :
        listenerVolumes.foldl SecretOperatorVolumeSourceBuilder.withListenerVolumeScope builder =
          builder.withScopes (listenerVolumes.map .listenerVolume) :=
      foldl_withScope .listenerVolume listenerVolumes builder
    simp only [secretOperatorVolumeBuilder, hservices, hlisteners]
    cases pod <;> cases node <;>
      simp [SecretOperatorVolumeSourceBuilder.withScopes, SecretOperatorVolumeSourceBuilder.new,
        SecretOperatorVolumeSourceBuilder.withPodScope,
        SecretOperatorVolumeSourceBuilder.withNodeScope,
        SecretOperatorVolumeSourceBuilder.withScope, requestedScope,
        SecretClassVolumeScope.requested]

/-- The volume source is always built, and its annotation has the requested scopes. -/
theorem SecretClassVolume.exists_toEphemeralVolumeSource (self : SecretClassVolume)
    (provisionParts : SecretClassVolumeProvisionParts) :
    ∃ source, self.toEphemeralVolumeSource provisionParts = .ok source ∧
      source.annotation? "secrets.stackable.tech/scope" =
        if self.requestedScope.requested.isEmpty then none
        else some (self.requestedScope.requested.foldl pushScope "") := by
  obtain ⟨source, hbuild, hscopes⟩ :=
    (self.secretOperatorVolumeBuilder provisionParts).exists_build
  refine ⟨source, by rw [toEphemeralVolumeSource, hbuild], ?_⟩
  rw [secretOperatorVolumeBuilder_eq] at hscopes
  apply Option.ext
  intro value
  rw [hscopes]
  simp only [SecretOperatorVolumeSourceBuilder.annotationEntries,
    SecretOperatorVolumeSourceBuilder.withScopes, SecretOperatorVolumeSourceBuilder.new,
    SecretOperatorVolumeSourceBuilder.usedTlsPkcs12Password]
  generalize self.requestedScope.requested = scopes
  cases scopes with
  | nil => simp
  | cons scope scopes => simp [eq_comm]

/-! ### Reading the annotation -/

/-- Read one part of the annotation. -/
def readScope (part : List Char) : Option SecretOperatorVolumeScope :=
  if part = "node".toList then some .node
  else if part = "pod".toList then some .pod
  else
    match "service=".toList.isPrefixOf? part with
    | some name => some (.service (String.ofList name))
    | none =>
      match "listener-volume=".toList.isPrefixOf? part with
      | some name => some (.listenerVolume (String.ofList name))
      | none => none

/-- Split the annotation at the commas; without an annotation there are no scopes. -/
def readScopes : Option String → Option (List SecretOperatorVolumeScope)
  | none => some []
  | some value => (value.toList.splitOn ',').mapM readScope

theorem readScope_scopeString (scope : SecretOperatorVolumeScope) :
    readScope (scopeString scope).toList = some scope := by
  match scope with
  | .node => rfl
  | .pod => rfl
  | .service name =>
    have hpart : (scopeString (.service name)).toList =
        "service=".toList ++ name.toList := String.toList_append
    have hnode : "service=".toList ++ name.toList ≠ "node".toList := by simp
    have hpod : "service=".toList ++ name.toList ≠ "pod".toList := by simp
    rw [hpart, readScope, if_neg hnode, if_neg hpod, isPrefixOf?_append]
    simp
  | .listenerVolume name =>
    have hpart : (scopeString (.listenerVolume name)).toList =
        "listener-volume=".toList ++ name.toList := String.toList_append
    have hnode : "listener-volume=".toList ++ name.toList ≠ "node".toList := by simp
    have hpod : "listener-volume=".toList ++ name.toList ≠ "pod".toList := by simp
    have hservice : "service=".toList.isPrefixOf? ("listener-volume=".toList ++ name.toList) =
        none := by simp [List.isPrefixOf?]
    rw [hpart, readScope, if_neg hnode, if_neg hpod, hservice, isPrefixOf?_append]
    simp

theorem toList_foldl_pushScope {acc : String} (hne : acc ≠ "")
    (scopes : List SecretOperatorVolumeScope) :
    (scopes.foldl pushScope acc).toList =
      [','].intercalate (acc.toList :: scopes.map fun scope =>
        (scopeString scope).toList) := by
  induction scopes generalizing acc with
  | nil => simp
  | cons scope scopes ih =>
    have hpush : pushScope acc scope = acc ++ "," ++ scopeString scope := by
      rw [pushScope, if_neg]
      rwa [String.isEmpty_iff]
    have hne' : pushScope acc scope ≠ "" := by
      rw [hpush]
      intro h
      have hlist := congrArg String.toList h
      simp at hlist
    rw [List.foldl_cons, ih hne', hpush, String.toList_append, intercalate_append_cons,
      List.map_cons, List.intercalate_cons_cons, String.toList_append]
    rfl

/-- The annotation is the texts of the scopes with commas between them. -/
theorem toList_scopes {scopes : List SecretOperatorVolumeScope} (hne : scopes ≠ []) :
    (scopes.foldl pushScope "").toList =
      [','].intercalate (scopes.map fun scope => (scopeString scope).toList) := by
  obtain ⟨scope, scopes, rfl⟩ := List.exists_cons_of_ne_nil hne
  have hfirst : pushScope "" scope = scopeString scope := by
    simp [pushScope]
  have hne' : scopeString scope ≠ "" := by
    match scope with
    | .node | .pod => simp [scopeString]
    | .service name | .listenerVolume name =>
      intro h
      have hlist := congrArg String.toList h
      simp [scopeString] at hlist
  rw [List.foldl_cons, hfirst, toList_foldl_pushScope hne', List.map_cons]

theorem mapM_map_eq_some {α β : Type} {f : β → Option α} {g : α → β} (h : ∀ a, f (g a) = some a)
    {l : List α} : (l.map g).mapM f = some l := by
  rw [mapM_eq_some_iff, List.forall₂_map_left_iff, List.forall₂_same]
  exact fun a _ => h a

/-- Scopes are read back iff their texts contain no comma. -/
theorem readScopes_scopes_iff {scopes : List SecretOperatorVolumeScope} (hne : scopes ≠ []) :
    readScopes (some (scopes.foldl pushScope "")) = some scopes ↔
      ∀ scope ∈ scopes, ',' ∉ (scopeString scope).toList := by
  rw [readScopes, toList_scopes hne]
  constructor
  · intro h scope hscope hcomma
    -- the comma would make one more part, but every part is one scope
    have hlt := length_lt_length_splitOn_intercalate
      (List.mem_map_of_mem (f := fun scope => (scopeString scope).toList) hscope) hcomma
    have hlength := (mapM_eq_some_iff.mp h).length_eq
    rw [List.length_map] at hlt
    omega
  · intro h
    have hpieces : ∀ piece ∈ scopes.map (fun scope => (scopeString scope).toList),
        ',' ∉ piece := by
      intro piece hpiece
      obtain ⟨scope, hscope, rfl⟩ := List.mem_map.mp hpiece
      exact h scope hscope
    rw [List.splitOn_intercalate ',' hpieces (by simpa using hne)]
    exact mapM_map_eq_some readScope_scopeString

theorem notMem_comma_append {front name : String} (h : ',' ∉ front.toList) :
    ',' ∉ (front ++ name).toList ↔ ',' ∉ name.toList := by
  rw [String.toList_append, List.mem_append, not_or]
  exact and_iff_right h

namespace SecretClassVolumeScope

/-- The texts of scopes contain a comma only inside of a name. -/
theorem commaFree_iff {scope : SecretClassVolumeScope} :
    scope.CommaFree ↔ ∀ s ∈ scope.requested, ',' ∉ (scopeString s).toList := by
  have hservice (name : String) : ',' ∉ (scopeString (.service name)).toList ↔
      ',' ∉ name.toList := notMem_comma_append (by decide)
  have hlistener (name : String) : ',' ∉ (scopeString (.listenerVolume name)).toList ↔
      ',' ∉ name.toList := notMem_comma_append (by decide)
  have hpod : ∀ s ∈ (if scope.pod then [SecretOperatorVolumeScope.pod] else []),
      ',' ∉ (scopeString s).toList := by
    cases scope.pod <;> decide
  have hnode : ∀ s ∈ (if scope.node then [SecretOperatorVolumeScope.node] else []),
      ',' ∉ (scopeString s).toList := by
    cases scope.node <;> decide
  rw [CommaFree, requested, List.forall_mem_append, List.forall_mem_append, List.forall_mem_append,
    List.forall_mem_append, List.forall_mem_map, List.forall_mem_map]
  simp only [hservice, hlistener]
  constructor
  · rintro ⟨hservices, hlisteners⟩
    exact ⟨⟨⟨hpod, hnode⟩, hservices⟩, hlisteners⟩
  · rintro ⟨⟨-, hservices⟩, hlisteners⟩
    exact ⟨hservices, hlisteners⟩

/-- The scope that asks for a list of scopes. -/
def ofRequested (scopes : List SecretOperatorVolumeScope) : SecretClassVolumeScope where
  pod := decide (.pod ∈ scopes)
  node := decide (.node ∈ scopes)
  services := scopes.filterMap fun
    | .service name => some name
    | _ => none
  listenerVolumes := scopes.filterMap fun
    | .listenerVolume name => some name
    | _ => none

/-- The requested scopes determine the scope. -/
theorem ofRequested_requested (scope : SecretClassVolumeScope) :
    ofRequested scope.requested = scope := by
  obtain ⟨pod, node, services, listenerVolumes⟩ := scope
  cases pod <;> cases node <;>
    simp [ofRequested, requested, List.filterMap_map]

theorem requested_injective : Function.Injective requested :=
  Function.LeftInverse.injective ofRequested_requested

end SecretClassVolumeScope

namespace SecretClassVolume

/-- The annotation of the built source is read back iff no name contains a comma. -/
theorem readScopes_annotation?_iff (self : SecretClassVolume)
    {provisionParts : SecretClassVolumeProvisionParts} {source : EphemeralVolumeSource}
    (h : self.toEphemeralVolumeSource provisionParts = .ok source) :
    readScopes (source.annotation? "secrets.stackable.tech/scope") =
      some self.requestedScope.requested ↔ self.requestedScope.CommaFree := by
  obtain ⟨source', hsource, hscope⟩ := self.exists_toEphemeralVolumeSource provisionParts
  obtain rfl : source' = source := Except.ok.inj (hsource.symm.trans h)
  rw [hscope, SecretClassVolumeScope.commaFree_iff]
  by_cases hempty : self.requestedScope.requested = []
  · rw [hempty]
    simp [readScopes]
  · rw [if_neg (by simpa using hempty)]
    exact readScopes_scopes_iff hempty

/-- **Scopes in annotations.** The volume source is built, and its annotation is read back as the
requested scopes iff no name contains a comma. Among such scopes, different ones have different
annotations. -/
theorem scope_annotation_readable_iff (self : SecretClassVolume)
    (provisionParts : SecretClassVolumeProvisionParts) :
    ∃ source, self.toEphemeralVolumeSource provisionParts = .ok source ∧
      (readScopes (source.annotation? "secrets.stackable.tech/scope") =
        some self.requestedScope.requested ↔ self.requestedScope.CommaFree) ∧
      ∀ (other : SecretClassVolume) (provisionParts' : SecretClassVolumeProvisionParts) source',
        other.toEphemeralVolumeSource provisionParts' = .ok source' →
          self.requestedScope.CommaFree → other.requestedScope.CommaFree →
            source.annotation? "secrets.stackable.tech/scope" =
              source'.annotation? "secrets.stackable.tech/scope" →
                self.requestedScope = other.requestedScope := by
  obtain ⟨source, hsource, -⟩ := self.exists_toEphemeralVolumeSource provisionParts
  refine ⟨source, hsource, self.readScopes_annotation?_iff hsource, ?_⟩
  intro other provisionParts' source' hsource' hself hother hscope
  have hread := (self.readScopes_annotation?_iff hsource).mpr hself
  have hread' := (other.readScopes_annotation?_iff hsource').mpr hother
  rw [hscope] at hread
  exact SecretClassVolumeScope.requested_injective (Option.some.inj (hread.symm.trans hread'))

/-- A service with the name `a,pod` adds the pod scope. -/
theorem scope_annotation_comma : ¬∀ (self : SecretClassVolume)
    (provisionParts : SecretClassVolumeProvisionParts),
    ∃ source, self.toEphemeralVolumeSource provisionParts = .ok source ∧
      readScopes (source.annotation? "secrets.stackable.tech/scope") =
        some self.requestedScope.requested := by
  intro h
  obtain ⟨source, hsource, hread⟩ :=
    h { secretClass := "tls", scope := some { services := ["a,pod"] } } .public
  have hfree := (readScopes_annotation?_iff _ hsource).mp hread
  exact absurd hfree (by decide)

end SecretClassVolume

end StackableOperator
