import Mathlib
import StackableOperator.Json
import StackableOperator.VersionedMacros.ConversionPaths

/-!
# Conversion reviews

The generated `try_convert`, which converts the objects of a review to the desired version. The
types of the kind in its versions, the conversions between them and their (de)serialization are
parameters. A conversion may panic (`none`), as the generated ones with conversion tracking can.

The objects are converted one after the other, and the first one without an answer decides.
`tryConvert_answers` says what becomes of a review: it is answered with all objects, converted step
by step through consecutive versions, or with none, or a conversion panics.
-/

namespace StackableOperator

namespace VersionedMacros

/-! ### The model of the source -/

/-- Parsing an object failed. -/
inductive ParseObjectError : Type
  | fieldNotPresent (field : String)
  | fieldNotStr (field : String)
  | unknownApiVersion (apiVersion : String)
  | deserialize (source : String)
  | unexpectedKind (kind expected : String)

structure UnknownDesiredApiVersionError where
  apiVersion : String

/-- Converting an object to the desired version failed. -/
inductive ConvertObjectError : Type
  | parse (source : ParseObjectError)
  | serialize (source : String)
  | parseDesiredApiVersion (source : UnknownDesiredApiVersionError)

section Messages

-- how strings are quoted in messages
variable (debug : String → String)

def ParseObjectError.display : ParseObjectError → List String
  | fieldNotPresent field => ["the field " ++ debug field ++ " is missing"]
  | fieldNotStr field => ["the field " ++ debug field ++ " must be a string"]
  | unknownApiVersion apiVersion =>
    ["encountered unknown object API version " ++ debug apiVersion]
  | deserialize source => ["failed to deserialize object from JSON", source]
  | unexpectedKind kind expected =>
    ["unexpected object kind " ++ debug kind ++ ", expected " ++ debug expected]

/-- The messages of the error and its sources. -/
def ConvertObjectError.iterChain : ConvertObjectError → List String
  | parse source => "failed to parse object" :: source.display debug
  | serialize source => ["failed to serialize object into json", source]
  | parseDesiredApiVersion source =>
    ["failed to parse desired API version", "unknown API version " ++ debug source.apiVersion]

def ConvertObjectError.joinErrors (self : ConvertObjectError) : String :=
  ": ".intercalate (self.iterChain debug)

end Messages

def ConvertObjectError.httpStatusCode : ConvertObjectError → ℕ
  | serialize _ => 500
  | parse _ => 400
  | parseDesiredApiVersion _ => 400

/-- A kind with its type in every version. The conversions `into` are the generated `From` impls
between versions that follow each other, which may panic. -/
structure VersionedKind where
  group : String
  kind : String
  Obj : Version → Type
  into : (v w : Version) → Obj v → Option (Obj w)
  fromValue : (v : Version) → Value → Except String (Obj v)
  toValue : (v : Version) → Obj v → Except String Value

structure TypeMeta where
  apiVersion : String
  kind : String

structure ConversionRequest where
  types : Option TypeMeta
  uid : String
  desiredApiVersion : String
  objects : List Value

inductive StatusSummary : Type
  | success
  | failure
  deriving DecidableEq

structure ReviewStatus where
  status : Option StatusSummary
  message : String
  reason : String
  code : ℕ

structure ConversionResponse where
  result : ReviewStatus
  types : Option TypeMeta
  uid : String
  convertedObjects : List Value

def ReviewStatus.success : ReviewStatus where
  status := some .success
  message := ""
  reason := ""
  code := 0

/-- The answer to a review without a request. -/
def ConversionResponse.invalid (status : ReviewStatus) : ConversionResponse where
  result := status
  types := none
  uid := ""
  convertedObjects := []

/-- The arm of `convert_objects` for objects of one version and another desired version. -/
structure ConversionArm where
  current : VersionDefinition
  desired : VersionDefinition
  path : List VersionDefinition

def ConversionArm.fromPath (path : VersionDefinition × List VersionDefinition) :
    Except Failure ConversionArm :=
  match path.2.getLast? with
  | some desired => .ok ⟨path.1, desired, path.2⟩
  | none => .error .panic

def generateConversionMatchArms (versions : List VersionDefinition) :
    Except Failure (List ConversionArm) := do
  let conversionPaths ← conversionPaths versions
  conversionPaths.mapM ConversionArm.fromPath

namespace VersionedKind

variable (K : VersionedKind)

/-- An object of some version. -/
abbrev Object : Type := (v : Version) × K.Obj v

def apiVersion (version : VersionDefinition) : String :=
  K.group ++ "/" ++ version.inner.display

def fromApiVersion (versions : List VersionDefinition) (apiVersion : String) :
    Except UnknownDesiredApiVersionError VersionDefinition :=
  match versions.find? fun version => K.apiVersion version = apiVersion with
  | some version => .ok version
  | none => .error ⟨apiVersion⟩

/-- A field that has to be a string. -/
def stringField (object : Value) (field : String) : Except ParseObjectError String :=
  match object.get? field with
  | none => .error (.fieldNotPresent field)
  | some (.string s) => .ok s
  | some _ => .error (.fieldNotStr field)

def fromJsonObject (versions : List VersionDefinition) (object : Value) :
    Except ParseObjectError K.Object := do
  let kind ← stringField object "kind"
  if kind ≠ K.kind then .error (.unexpectedKind kind K.kind)
  else
    let apiVersion ← stringField object "apiVersion"
    match versions.find? fun version => K.apiVersion version = apiVersion with
    | some version =>
      match K.fromValue version.inner object with
      | .ok object => .ok ⟨version.inner, object⟩
      | .error source => .error (.deserialize source)
    | none => .error (.unknownApiVersion apiVersion)

def intoJsonValue (object : K.Object) : Except String Value := K.toValue object.1 object.2

/-- The conversions along a path, one after the other. -/
def convertAlong (path : List VersionDefinition) (object : K.Object) : Option K.Object :=
  path.foldlM (fun converted version =>
    (K.into converted.1 version.inner converted.2).map fun next => ⟨version.inner, next⟩) object

/-- The body of the loop: the object that is pushed for an object. -/
def convertObject (arms : List ConversionArm) (versions : List VersionDefinition)
    (desired : VersionDefinition) (object : Value) : Option (Except ConvertObjectError Value) :=
  match K.fromJsonObject versions object with
  | .error source => some (.error (.parse source))
  | .ok currentObject =>
    match arms.find? fun arm =>
        arm.current.inner = currentObject.1 ∧ arm.desired.inner = desired.inner with
    | some arm => (K.convertAlong arm.path currentObject).map fun converted =>
      match K.intoJsonValue converted with
      | .ok desiredObject => .ok desiredObject
      | .error source => .error (.serialize source)
    | none => some (.ok object)

/-- Convert the objects one after the other, up to the first error or panic. -/
def convertObjects (arms : List ConversionArm) (versions : List VersionDefinition)
    (objects : List Value) (desiredApiVersion : String) :
    Option (Except ConvertObjectError (List Value)) :=
  match K.fromApiVersion versions desiredApiVersion with
  | .error source => some (.error (.parseDesiredApiVersion source))
  | .ok desired => (objects.mapM fun object =>
      ExceptT.mk (K.convertObject arms versions desired object)).run

/-- The answer to a review, if no conversion panics. A review without a request has an error message
instead. -/
def tryConvert (debug : String → String) (arms : List ConversionArm)
    (versions : List VersionDefinition) :
    Except String ConversionRequest → Option ConversionResponse
  | .error message => some (.invalid ⟨some .failure, message, message, 400⟩)
  | .ok request =>
    (K.convertObjects arms versions request.objects request.desiredApiVersion).map fun
      | .ok convertedObjects => ⟨.success, request.types, request.uid, convertedObjects⟩
      | .error error => ⟨⟨some .failure, error.joinErrors debug, error.joinErrors debug,
          error.httpStatusCode⟩, request.types, request.uid, []⟩

end VersionedKind

/-! ### What a review is answered with -/

theorem fromPath_eq_ok_iff {path : VersionDefinition × List VersionDefinition}
    {arm : ConversionArm} : ConversionArm.fromPath path = .ok arm ↔
      path = (arm.current, arm.path) ∧ arm.path.getLast? = some arm.desired := by
  obtain ⟨start, path⟩ := path
  obtain ⟨current, desired, path'⟩ := arm
  rw [ConversionArm.fromPath]
  rcases hlast : path.getLast? with _ | v
  · simp only [reduceCtorEq, false_iff, not_and, Prod.mk.injEq]
    rintro ⟨rfl, rfl⟩
    simp [hlast]
  · simp only [Except.ok.injEq, ConversionArm.mk.injEq, Prod.mk.injEq]
    constructor
    · rintro ⟨rfl, rfl, rfl⟩
      exact ⟨⟨rfl, rfl⟩, hlast⟩
    · rintro ⟨⟨rfl, rfl⟩, hdesired⟩
      exact ⟨rfl, Option.some.inj (hlast.symm.trans hdesired), rfl⟩

theorem exists_fromPath {path : VersionDefinition × List VersionDefinition} (h : path.2 ≠ []) :
    ∃ arm, ConversionArm.fromPath path = .ok arm :=
  ⟨⟨path.1, path.2.getLast h, path.2⟩,
    fromPath_eq_ok_iff.mpr ⟨rfl, List.getLast?_eq_some_getLast h⟩⟩

/-- The arms have a path for every pair of different versions. -/
theorem exists_generateConversionMatchArms {versions : List VersionDefinition}
    (hversions : (versions.map VersionDefinition.inner).Pairwise (· < ·)) :
    ∃ paths arms, conversionPaths versions = .ok paths ∧
      generateConversionMatchArms versions = .ok arms ∧
      IsConversionPaths VersionDefinition.inner versions paths ∧
      ∀ arm, arm ∈ arms ↔
        (arm.current, arm.path) ∈ paths ∧ arm.path.getLast? = some arm.desired := by
  have hpaths := isConversionPaths hversions
  have hfromPath := fun path hpath => exists_fromPath (hpaths.ne_nil (Prod.fst path) path.2 hpath)
  obtain ⟨arms, harms⟩ := exists_mapM_eq_ok_iff.mpr hfromPath
  refine ⟨_, arms, conversionPaths_eq_ok hversions, ?_, hpaths, ?_⟩
  · rw [generateConversionMatchArms, conversionPaths_eq_ok hversions]
    exact harms
  · have hrel := mapM_eq_ok_iff.mp harms
    intro arm
    constructor
    · intro harm
      obtain ⟨path, hpath, hfromPath⟩ := exists_of_mem_mapM hrel harm
      obtain ⟨rfl, hlast⟩ := fromPath_eq_ok_iff.mp hfromPath
      exact ⟨hpath, hlast⟩
    · rintro ⟨hpath, hlast⟩
      exact mem_of_mapM hrel hpath (fromPath_eq_ok_iff.mpr ⟨rfl, hlast⟩)

namespace VersionedKind

variable (K : VersionedKind) (versions : List VersionDefinition)

/-- The object of the desired version for an object of another version: the conversions between
consecutive versions, one after the other; there is none if one of them panics. -/
def IsComposition (desired : VersionDefinition) (currentObject : K.Object)
    (converted : Option K.Object) : Prop :=
  ∃ start path, start.inner = currentObject.1 ∧
    ((start :: path) <:+: versions ∨ (start :: path).reverse <:+: versions) ∧
    path.getLast? = some desired ∧ K.convertAlong path currentObject = converted

/-- What is returned for an object. -/
def Answers (desired : VersionDefinition) (object answer : Value) : Prop :=
  ∃ currentObject, K.fromJsonObject versions object = .ok currentObject ∧
    (currentObject.1 = desired.inner → answer = object) ∧
    (currentObject.1 ≠ desired.inner → ∃ converted,
      K.IsComposition versions desired currentObject (some converted) ∧
        K.intoJsonValue converted = .ok answer)

/-- Why there is no answer for an object. -/
def Fails (desired : VersionDefinition) (object : Value) : Prop :=
  (∃ source, K.fromJsonObject versions object = .error source) ∨
    ∃ currentObject converted source, K.fromJsonObject versions object = .ok currentObject ∧
      currentObject.1 ≠ desired.inner ∧
      K.IsComposition versions desired currentObject (some converted) ∧
      K.intoJsonValue converted = .error source

/-- A conversion of the object panics. -/
def Panics (desired : VersionDefinition) (object : Value) : Prop :=
  ∃ currentObject, K.fromJsonObject versions object = .ok currentObject ∧
    currentObject.1 ≠ desired.inner ∧ K.IsComposition versions desired currentObject none

/-- The objects are answered up to one with the property. -/
def FirstUnanswered (desired : VersionDefinition) (objects : List Value)
    (property : Value → Prop) : Prop :=
  ∃ front object rest, objects = front ++ object :: rest ∧
    (∀ answered ∈ front, ∃ answer, K.Answers versions desired answered answer) ∧ property object

variable {K versions} {arms : List ConversionArm}
  {paths : List (VersionDefinition × List VersionDefinition)}

theorem mem_of_fromApiVersion {apiVersion : String} {desired : VersionDefinition}
    (h : K.fromApiVersion versions apiVersion = .ok desired) : desired ∈ versions := by
  rw [fromApiVersion] at h
  rcases hfind : versions.find? fun version => K.apiVersion version = apiVersion with _ | version
  · rw [hfind] at h
    exact absurd h (by simp)
  · rw [hfind] at h
    rw [← Except.ok.inj h]
    exact List.mem_of_find?_eq_some hfind

/-- A parsed object has a declared version. -/
theorem exists_of_fromJsonObject {object : Value} {currentObject : K.Object}
    (h : K.fromJsonObject versions object = .ok currentObject) :
    ∃ version ∈ versions, version.inner = currentObject.1 := by
  obtain ⟨kind, -, h⟩ := bind_eq_ok.mp h
  split_ifs at h with hkind
  obtain ⟨apiVersion, -, h⟩ := bind_eq_ok.mp h
  rcases hfind : versions.find? fun version => K.apiVersion version = apiVersion with _ | version
  · rw [hfind] at h
    exact absurd h (by simp)
  · rw [hfind] at h
    refine ⟨version, List.mem_of_find?_eq_some hfind, ?_⟩
    rcases hvalue : K.fromValue version.inner object with source | value
    · simp only [hvalue] at h
      exact absurd h (by simp)
    · simp only [hvalue] at h
      rw [← Except.ok.inj h]

/-- Different declared versions are different as versions. -/
theorem eq_of_inner_eq (hversions : (versions.map VersionDefinition.inner).Pairwise (· < ·))
    {v w : VersionDefinition} (hv : v ∈ versions) (hw : w ∈ versions) (h : v.inner = w.inner) :
    v = w :=
  List.inj_on_of_nodup_map (hversions.imp fun hlt => hlt.ne) hv hw h

/-- **The arm for an object** of another version has the path to the desired version. -/
theorem exists_find? (hversions : (versions.map VersionDefinition.inner).Pairwise (· < ·))
    (hpaths : IsConversionPaths VersionDefinition.inner versions paths)
    (harms : ∀ arm, arm ∈ arms ↔
      (arm.current, arm.path) ∈ paths ∧ arm.path.getLast? = some arm.desired)
    {desired version : VersionDefinition} (hdesired : desired ∈ versions)
    (hversion : version ∈ versions) (hne : version.inner ≠ desired.inner) :
    ∃ arm, arms.find? (fun arm => arm.current.inner = version.inner ∧
        arm.desired.inner = desired.inner) = some arm ∧
      arm.current = version ∧ arm.desired = desired ∧
      ((arm.current :: arm.path) <:+: versions ∨ (arm.current :: arm.path).reverse <:+: versions) ∧
      arm.path.getLast? = some desired := by
  obtain ⟨path, hpath, hlast⟩ := (hpaths.exists_iff version desired).mpr
    ⟨hversion, hdesired, fun heq => hne (congrArg VersionDefinition.inner heq)⟩
  rcases hfind : arms.find? fun arm => arm.current.inner = version.inner ∧
      arm.desired.inner = desired.inner with _ | arm
  · rw [List.find?_eq_none] at hfind
    exact absurd (hfind ⟨version, desired, path⟩ ((harms _).mpr ⟨hpath, hlast⟩)) (by simp)
  · obtain ⟨hpath, hlast⟩ := (harms arm).mp (List.mem_of_find?_eq_some hfind)
    obtain ⟨hcurrent, hdesired', -⟩ := (hpaths.exists_iff _ _).mp ⟨arm.path, hpath, hlast⟩
    have hsome := List.find?_some hfind
    simp only [decide_eq_true_eq] at hsome
    have heq := eq_of_inner_eq hversions hdesired' hdesired hsome.2
    exact ⟨arm, hfind, eq_of_inner_eq hversions hcurrent hversion hsome.1, heq,
      hpaths.consecutive _ _ hpath, hlast.trans (congrArg some heq)⟩

/-- Objects of the desired version have no arm. -/
theorem find?_eq_none (hpaths : IsConversionPaths VersionDefinition.inner versions paths)
    (hversions : (versions.map VersionDefinition.inner).Pairwise (· < ·))
    (harms : ∀ arm, arm ∈ arms ↔
      (arm.current, arm.path) ∈ paths ∧ arm.path.getLast? = some arm.desired) (v : Version) :
    arms.find? (fun arm => arm.current.inner = v ∧ arm.desired.inner = v) = none := by
  rw [List.find?_eq_none]
  intro arm harm hsome
  simp only [decide_eq_true_eq] at hsome
  obtain ⟨hpath, hlast⟩ := (harms arm).mp harm
  obtain ⟨hcurrent, hdesired, hne⟩ := (hpaths.exists_iff _ _).mp ⟨arm.path, hpath, hlast⟩
  exact hne (eq_of_inner_eq hversions hcurrent hdesired (hsome.1.trans hsome.2.symm))

/-- **The answer for an object**, unless it fails or a conversion panics. -/
theorem convertObject_cases (hversions : (versions.map VersionDefinition.inner).Pairwise (· < ·))
    (hpaths : IsConversionPaths VersionDefinition.inner versions paths)
    (harms : ∀ arm, arm ∈ arms ↔
      (arm.current, arm.path) ∈ paths ∧ arm.path.getLast? = some arm.desired)
    {desired : VersionDefinition} (hdesired : desired ∈ versions) (object : Value) :
    (∃ answer, K.convertObject arms versions desired object = some (.ok answer) ∧
        K.Answers versions desired object answer) ∨
      (∃ error, K.convertObject arms versions desired object = some (.error error)) ∧
        K.Fails versions desired object ∨
      K.convertObject arms versions desired object = none ∧ K.Panics versions desired object := by
  rw [convertObject]
  rcases hparse : K.fromJsonObject versions object with source | currentObject
  · exact .inr (.inl ⟨⟨_, rfl⟩, .inl ⟨source, hparse⟩⟩)
  · obtain ⟨version, hversion, hinner⟩ := exists_of_fromJsonObject hparse
    -- an object of the desired version is returned as it is
    by_cases heq : currentObject.1 = desired.inner
    · simp only [heq, find?_eq_none hpaths hversions harms]
      exact .inl ⟨object, rfl, currentObject, hparse, fun _ => rfl, fun hne => absurd heq hne⟩
    · obtain ⟨arm, hfind, hcurrent, -, hconsecutive, hlast⟩ := exists_find? hversions hpaths harms
        hdesired hversion (hinner ▸ heq)
      rw [hinner] at hfind
      -- the path of the arm goes along consecutive versions
      have hcomposition : K.IsComposition versions desired currentObject
          (K.convertAlong arm.path currentObject) :=
        ⟨arm.current, arm.path, hcurrent ▸ hinner, hconsecutive, hlast, rfl⟩
      simp only [hfind]
      cases hconverted : K.convertAlong arm.path currentObject with
      | none =>
        rw [hconverted] at hcomposition
        exact .inr (.inr ⟨rfl, currentObject, hparse, heq, hcomposition⟩)
      | some converted =>
        rw [hconverted] at hcomposition
        rcases hvalue : K.intoJsonValue converted with source | answer
        · refine .inr (.inl ⟨⟨.serialize source, ?_⟩,
            .inr ⟨currentObject, converted, source, hparse, heq, hcomposition, hvalue⟩⟩)
          rw [Option.map_some, hvalue]
        · refine .inl ⟨answer, ?_, currentObject, hparse, fun h => absurd h heq,
            fun _ => ⟨converted, hcomposition, hvalue⟩⟩
          rw [Option.map_some, hvalue]

/-- What becomes of a request: it is answered with all objects in order or with none, or a
conversion panics (`none`). The first object without an answer decides. -/
def AnswersRequest (K : VersionedKind) (versions : List VersionDefinition)
    (request : ConversionRequest) : Option ConversionResponse → Prop
  | some response => response.types = request.types ∧ response.uid = request.uid ∧
    ((∃ desired, K.fromApiVersion versions request.desiredApiVersion = .ok desired ∧
        response.result = .success ∧
        List.Forall₂ (K.Answers versions desired) request.objects response.convertedObjects) ∨
      (response.result.status = some .failure ∧ response.convertedObjects = [] ∧
        ((∃ source, K.fromApiVersion versions request.desiredApiVersion = .error source) ∨
          ∃ desired, K.fromApiVersion versions request.desiredApiVersion = .ok desired ∧
            K.FirstUnanswered versions desired request.objects (K.Fails versions desired))))
  | none => ∃ desired, K.fromApiVersion versions request.desiredApiVersion = .ok desired ∧
      K.FirstUnanswered versions desired request.objects (K.Panics versions desired)

/-- **Reviews are answered completely and along consecutive versions**, unless a conversion
panics. -/
theorem tryConvert_answers (hversions : (versions.map VersionDefinition.inner).Pairwise (· < ·)) :
    ∃ paths arms, conversionPaths versions = .ok paths ∧
      IsConversionPaths VersionDefinition.inner versions paths ∧
      generateConversionMatchArms versions = .ok arms ∧
      ∀ (K : VersionedKind) (debug : String → String) (request : ConversionRequest),
        K.AnswersRequest versions request (K.tryConvert debug arms versions (.ok request)) := by
  obtain ⟨paths, arms, hconversionPaths, hgenerate, hpaths, harms⟩ :=
    exists_generateConversionMatchArms hversions
  refine ⟨paths, arms, hconversionPaths, hpaths, hgenerate, ?_⟩
  intro K debug request
  rw [tryConvert, convertObjects]
  rcases hdesired : K.fromApiVersion versions request.desiredApiVersion with source | desired
  · exact ⟨rfl, rfl, .inr ⟨rfl, rfl, .inl ⟨source, hdesired⟩⟩⟩
  · have hcases := convertObject_cases (K := K) hversions hpaths harms
      (mem_of_fromApiVersion hdesired)
    -- a converted object is one of the three cases
    have hanswered : ∀ {object answer},
        K.convertObject arms versions desired object = some (.ok answer) →
          K.Answers versions desired object answer := by
      intro object answer hanswer
      rcases hcases object with ⟨answer', hanswer', h⟩ | ⟨⟨error, herror⟩, -⟩ | ⟨hpanic, -⟩
      · obtain rfl := Except.ok.inj (Option.some.inj (hanswer.symm.trans hanswer'))
        exact h
      · exact absurd (hanswer.symm.trans herror) (by simp)
      · exact absurd (hanswer.symm.trans hpanic) (by simp)
    simp only
    -- either all objects are converted, or the first that is not ends the loop
    obtain ⟨converted, hmapM, hall⟩ | ⟨front, object, rest, hsplit, hfront, hstop⟩ :=
      mapM_exceptT_cases (K.convertObject arms versions desired) request.objects
    · rw [hmapM]
      exact ⟨rfl, rfl, .inl ⟨desired, hdesired, rfl, hall.imp fun _ _ => hanswered⟩⟩
    · have hfirst : ∀ property : Value → Prop, property object →
          K.FirstUnanswered versions desired request.objects property := fun property h =>
        ⟨front, object, rest, hsplit, fun answered hmem =>
          (hfront answered hmem).imp fun _ => hanswered, h⟩
      obtain ⟨error, herror, hmapM⟩ | ⟨hpanic, hmapM⟩ := hstop
      · rw [hmapM]
        rcases hcases object with ⟨answer, hanswer, -⟩ | ⟨-, hfails⟩ | ⟨hpanic, -⟩
        · exact absurd (hanswer.symm.trans herror) (by simp)
        · exact ⟨rfl, rfl, .inr ⟨rfl, rfl, .inr ⟨desired, hdesired, hfirst _ hfails⟩⟩⟩
        · exact absurd (hpanic.symm.trans herror) (by simp)
      · rw [hmapM]
        rcases hcases object with ⟨answer, hanswer, -⟩ | ⟨⟨error, herror⟩, -⟩ | ⟨-, hpanics⟩
        · exact absurd (hanswer.symm.trans hpanic) (by simp)
        · exact absurd (herror.symm.trans hpanic) (by simp)
        · exact ⟨desired, hdesired, hfirst _ hpanics⟩

/-! ### Two versions -/

def alphaAndStable : List VersionDefinition :=
  [⟨none, false, ⟨1, some (.alpha 1)⟩⟩, ⟨none, false, ⟨1, none⟩⟩]

theorem tryConvert_answers_alphaAndStable :
    ∃ paths arms, conversionPaths alphaAndStable = .ok paths ∧
      IsConversionPaths VersionDefinition.inner alphaAndStable paths ∧
      generateConversionMatchArms alphaAndStable = .ok arms ∧
      ∀ (K : VersionedKind) (debug : String → String) (request : ConversionRequest),
        K.AnswersRequest alphaAndStable request
          (K.tryConvert debug arms alphaAndStable (.ok request)) :=
  tryConvert_answers (by decide)

/-- A kind with a limit that is added in `v1`, and whose default is too large for JSON. -/
def largeKind : VersionedKind where
  group := "example.com"
  kind := "Foo"
  Obj := fun _ => ℕ
  into := fun _ _ _ => some (2 ^ 64)
  fromValue := fun _ _ => .ok 0
  toValue := fun _ limit =>
    if limit < 2 ^ 64 then .ok (.number (toString limit)) else .error "number out of range"

def alphaObject : Value :=
  Value.objectOf {"kind", "apiVersion"} fun key =>
    some (.string (if key = "kind" then "Foo" else "example.com/v1alpha1"))

def alphaReview : ConversionRequest := ⟨none, "", "example.com/v1", [alphaObject]⟩

/-- A review fails although its desired version is known and all its objects parse: a converted
object does not serialize. -/
theorem tryConvert_alphaReview : ∃ arms,
    generateConversionMatchArms alphaAndStable = .ok arms ∧
      (∃ desired,
        largeKind.fromApiVersion alphaAndStable alphaReview.desiredApiVersion = .ok desired) ∧
      (∀ object ∈ alphaReview.objects, ∃ currentObject,
        largeKind.fromJsonObject alphaAndStable object = .ok currentObject) ∧
      ∀ debug, ∃ response,
        largeKind.tryConvert debug arms alphaAndStable (.ok alphaReview) = some response ∧
          response.result.status = some .failure := by
  have hparse : largeKind.fromJsonObject alphaAndStable alphaObject =
      .ok ⟨⟨1, some (.alpha 1)⟩, (0 : ℕ)⟩ := rfl
  refine ⟨_, rfl, ⟨_, rfl⟩, ?_, ?_⟩
  · simp only [alphaReview, List.forall_mem_singleton]
    exact ⟨_, hparse⟩
  · intro debug
    exact ⟨_, rfl, rfl⟩

end VersionedKind

end VersionedMacros

end StackableOperator
