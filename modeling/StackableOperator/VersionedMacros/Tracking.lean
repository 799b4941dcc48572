import Mathlib
import StackableOperator.VersionedMacros.ConversionPaths
import StackableOperator.VersionedMacros.Field

/-!
# Tracking conversions

With conversion tracking, a downgrade inserts the values of the fields that were added in a version
into the status, in a list of changes for this version, and the upgrade to the version removes the
whole list and restores the values. The conversions of nested structs use the same status.

An impl is generated from the fields of a struct and run on values of the struct. The types of the
other fields, their default functions and their serialization are those of a `Crate`. Fields are
converted with `into` only between equal types.
-/

namespace StackableOperator

namespace VersionedMacros

open IterMap (get?)

variable [Lowercase]

/-! ### The generated code -/

/-- `let ident = jthong_path(parent, child);` -/
structure JsonPath where
  ident : Ident
  child : String
  deriving DecidableEq

/-- The value of the field is pushed under the path. -/
structure StatusInsertion where
  jsonPath : Ident
  ident : Ident
  deriving DecidableEq

/-- The field, of some type, is assigned the value under the path. -/
structure StatusRemoval where
  jsonPath : Ident
  ident : Ident
  ty : RustType
  deriving DecidableEq

structure TrackingInserts where
  version : String
  insertions : List StatusInsertion
  deriving DecidableEq

structure TrackingRemovals where
  version : String
  arms : List StatusRemoval
  deriving DecidableEq

def jthongPath (parent child : String) : String := parent ++ "." ++ child

namespace VersionedField

def generateForStatusInsertion (self : VersionedField) (direction : Direction)
    (nextVersion : VersionDefinition) : Except Failure (Option StatusInsertion) :=
  match self.changes with
  | none => .ok none
  | some changes =>
    match direction with
    | .upgrade => .ok none
    | .downgrade =>
      match get? (M := BTreeMap Version) changes nextVersion.inner with
      | none => .error .panic
      | some (.addition ident _ _) => .ok (some ⟨jsonPathIdent ident, ident⟩)
      | some _ => .ok none

def generateForStatusRemoval (self : VersionedField) (direction : Direction)
    (nextVersion : VersionDefinition) : Except Failure (Option StatusRemoval) :=
  match self.changes with
  | none => .ok none
  | some changes =>
    match direction with
    | .upgrade =>
      match get? (M := BTreeMap Version) changes nextVersion.inner with
      | none => .error .panic
      | some (.addition ident _ ty) => .ok (some ⟨jsonPathIdent ident, ident, ty⟩)
      | some _ => .ok none
    | .downgrade => .ok none

/-- A nested field needs a path for the conversion of its struct, and an added one for its own
value. -/
def generateForJsonPath (self : VersionedField) (nextVersion : VersionDefinition) :
    Except Failure (Option JsonPath) :=
  match self.changes, self.nested with
  | none, false => .ok none
  | _, true => .ok (some ⟨self.idents.jsonPath, self.idents.original⟩)
  | some changes, _ =>
    match get? (M := BTreeMap Version) changes nextVersion.inner with
    | none => .error .panic
    | some (.addition ident _ _) => .ok (some ⟨jsonPathIdent ident, ident⟩)
    | some _ => .ok none

/-- The field is added in the version. -/
def isAddedIn (self : VersionedField) (version : VersionDefinition) : Bool :=
  self.changes.any fun changes =>
    (get? (M := BTreeMap Version) changes version.inner).any fun status =>
      match status with
      | .addition _ _ _ => true
      | _ => false

end VersionedField

section Generate

variable (fields : List VersionedField) (direction : Direction)
  (nextVersion : VersionDefinition)

def needsTracking : Bool := fields.any fun field => field.isAddedIn nextVersion

def generateTrackingInserts : Except Failure (Option TrackingInserts) :=
  if !needsTracking fields nextVersion then .ok none
  else
    match direction with
    | .upgrade => .ok none
    | .downgrade => do
      let insertions ← fields.mapM fun field =>
        field.generateForStatusInsertion direction nextVersion
      return some ⟨nextVersion.inner.display, insertions.reduceOption⟩

def generateTrackingRemovals : Except Failure (Option TrackingRemovals) :=
  if !needsTracking fields nextVersion then .ok none
  else do
    let arms ← fields.mapM fun field => field.generateForStatusRemoval direction nextVersion
    match direction with
    | .upgrade => return some ⟨nextVersion.inner.display, arms.reduceOption⟩
    | .downgrade => return none

def generateJsonPaths : Except Failure (List JsonPath) := do
  let jsonPaths ← fields.mapM fun field => field.generateForJsonPath nextVersion
  return jsonPaths.reduceOption

end Generate

/-! ### Values -/

/-- A value of a field: of another type, or of a nested struct that may be wrapped. -/
inductive SpecValue (Leaf : RustType → Type) : Type
  | leaf (ty : RustType) (value : Leaf ty)
  | struct (fields : List (Ident × SpecValue Leaf))
  | option (value : Option (SpecValue Leaf))
  | vec (values : List (SpecValue Leaf))

/-- A value of a struct: its fields with their names in some version. -/
abbrev StructValue (Leaf : RustType → Type) : Type := List (Ident × SpecValue Leaf)

structure ChangedValue (Yaml : Type) where
  jsonPath : String
  value : Yaml

/-- The tracked changes, in lists for the version to which an object is converted. -/
structure ChangedValues (Yaml : Type) where
  downgrades : BTreeMap String (List (ChangedValue Yaml))
  upgrades : BTreeMap String (List (ChangedValue Yaml))

/-- The code outside of the macro. -/
structure Crate (Leaf : RustType → Type) (Yaml : Type) where
  /-- What a function returns for a type in the module of a version. -/
  default : Version → RustType → Path → SpecValue Leaf
  convert : Path → SpecValue Leaf → SpecValue Leaf
  toValue : SpecValue Leaf → Except String Yaml
  fromValue : Version → RustType → Yaml → Except String (SpecValue Leaf)

namespace ChangedValues

variable {Yaml : Type}

def empty : ChangedValues Yaml := ⟨IterMap.empty, IterMap.empty⟩

/-- Create the list for a version. -/
def orDefault (self : ChangedValues Yaml) (version : String) : ChangedValues Yaml :=
  { self with
    upgrades := IterMap.insert (M := BTreeMap String) self.upgrades version
      ((get? (M := BTreeMap String) self.upgrades version).getD []) }

def push (self : ChangedValues Yaml) (version : String) (change : ChangedValue Yaml) :
    ChangedValues Yaml :=
  { self with
    upgrades := IterMap.insert (M := BTreeMap String) self.upgrades version
      ((get? (M := BTreeMap String) self.upgrades version).getD [] ++ [change]) }

def remove (self : ChangedValues Yaml) (version : String) : ChangedValues Yaml :=
  { self with upgrades := BTreeMap.remove self.upgrades version }

end ChangedValues

/-! ### Running the generated code -/

/-- How a conversion fails. -/
inductive Fault : Type
  /-- The macro fails. -/
  | generate (failure : Failure)
  /-- The generated code uses a name that is not declared. -/
  | compile
  | panic
  deriving DecidableEq

section Run

variable {Leaf : RustType → Type} {Yaml : Type}

/-- A computation with the status. -/
abbrev Tracking (Yaml : Type) : Type → Type := StateT (ChangedValues Yaml) (Except Fault)

/-- A conversion of a struct whose JSON path is the second argument. -/
abbrev TrackingFrom (Leaf : RustType → Type) (Yaml : Type) : Type :=
  StructValue Leaf → String → Tracking Yaml (StructValue Leaf)

def generated {α : Type} : Except Failure α → Tracking Yaml α
  | .ok a => pure a
  | .error failure => throw (.generate failure)

def unwrap {α : Type} : Except String α → Tracking Yaml α
  | .ok a => pure a
  | .error _ => throw .panic

/-- Look up a variable or a field. -/
def lookupIdent {α : Type} (values : List (Ident × α)) (ident : Ident) : Tracking Yaml α :=
  match values.lookup ident with
  | some a => pure a
  | none => throw .compile

/-- The path variables. Later ones shadow earlier ones. -/
def pathVariables (jsonPaths : List JsonPath) (parent : String) : List (Ident × String) :=
  (jsonPaths.map fun jsonPath => (jsonPath.ident, jthongPath parent jsonPath.child)).reverse

def StructValue.set (value : StructValue Leaf) (ident : Ident) (x : SpecValue Leaf) :
    StructValue Leaf :=
  value.map fun field => if field.1 = ident then (ident, x) else field

def convertStruct (convert : StructValue Leaf → Tracking Yaml (StructValue Leaf)) :
    SpecValue Leaf → Tracking Yaml (SpecValue Leaf)
  | .struct value => .struct <$> convert value
  | _ => throw .compile

/-- `map` for an option and `into_iter().map(..).collect()` for a vector. -/
def mapHint (convert : StructValue Leaf → Tracking Yaml (StructValue Leaf)) :
    Option Hint → SpecValue Leaf → Tracking Yaml (SpecValue Leaf)
  | none, value => convertStruct convert value
  | some .option, .option none => pure (.option none)
  | some .option, .option (some value) =>
    (fun value => .option (some value)) <$> convertStruct convert value
  | some .vec, .vec values => .vec <$> values.mapM (convertStruct convert)
  | _, _ => throw .compile

variable (crate : Crate Leaf Yaml)

def ConversionFunction.run (impl : TrackingFrom Leaf Yaml) (paths : List (Ident × String)) :
    ConversionFunction → SpecValue Leaf → Tracking Yaml (SpecValue Leaf)
  | custom function, value => pure (crate.convert function value)
  | into _, value => pure value
  | trackingInto hint jsonPath, value => do
    let parent ← lookupIdent paths jsonPath
    mapHint (fun value => impl value parent) hint value

def runInsertion (version : String) (paths : List (Ident × String)) (value : StructValue Leaf)
    (insertion : StatusInsertion) : Tracking Yaml Unit := do
  let jsonPath ← lookupIdent paths insertion.jsonPath
  let field ← lookupIdent value insertion.ident
  let value ← unwrap (crate.toValue field)
  modify fun status => status.push version ⟨jsonPath, value⟩

/-- Push the values of the added fields. -/
def runInserts (paths : List (Ident × String)) (value : StructValue Leaf) :
    Option TrackingInserts → Tracking Yaml Unit
  | none => pure ()
  | some inserts => do
    modify fun status => status.orDefault inserts.version
    inserts.insertions.forM (runInsertion crate inserts.version paths value)

/-- The body of the loop: the first arm with the path of the change assigns its value, and without
an arm `unreachable!` is reached. -/
def runArms (nextVersion : VersionDefinition) (paths : List (Ident × String))
    (arms : List StatusRemoval) (spec : StructValue Leaf) (change : ChangedValue Yaml) :
    Tracking Yaml (StructValue Leaf) :=
  match arms.find? fun arm => paths.lookup arm.jsonPath = some change.jsonPath with
  | some arm => do
    let value ← unwrap (crate.fromValue nextVersion.inner arm.ty change.value)
    return StructValue.set spec arm.ident value
  | none => throw .panic

/-- Restore the values of the added fields. -/
def runRemovals (nextVersion : VersionDefinition) (paths : List (Ident × String)) :
    Option TrackingRemovals → StructValue Leaf → Tracking Yaml (StructValue Leaf)
  | none, spec => pure spec
  | some removals, spec => do
    let status ← get
    match get? (M := BTreeMap String) status.upgrades removals.version with
    | some upgrades => do
      set (status.remove removals.version)
      upgrades.foldlM (runArms crate nextVersion paths removals.arms) spec
    | none => return spec

variable (direction : Direction) (version nextVersion : VersionDefinition)

/-- The assignment to a field. The impl is the one of the struct of the field. -/
def convertField (paths : List (Ident × String)) (value : StructValue Leaf)
    (field : VersionedField × TrackingFrom Leaf Yaml) : Tracking Yaml (StructValue Leaf) := do
  let assignment ← generated (field.1.generateForFromImpl direction version nextVersion)
  match assignment with
  | none => return []
  | some (.default ident defaultFn) =>
    return [(ident, crate.default nextVersion.inner field.1.ty defaultFn)]
  | some (.convert lhs rhs function) => do
    let fieldValue ← lookupIdent value rhs
    let converted ← function.run crate field.2 paths fieldValue
    return [(lhs, converted)]

def convertFields (paths : List (Ident × String)) (value : StructValue Leaf) :
    List (VersionedField × TrackingFrom Leaf Yaml) → Tracking Yaml (StructValue Leaf)
  | [] => return []
  | field :: fields => do
    let assigned ← convertField crate direction version nextVersion paths value field
    let spec ← convertFields paths value fields
    return assigned ++ spec

/-- The impl that is generated between a version and the next one. -/
def generateTrackingFromImpl (fields : List (VersionedField × TrackingFrom Leaf Yaml)) :
    TrackingFrom Leaf Yaml := fun value parent => do
  let jsonPaths ← generated (generateJsonPaths (fields.map Prod.fst) nextVersion)
  let inserts ← generated
    (generateTrackingInserts (fields.map Prod.fst) direction nextVersion)
  let removals ← generated
    (generateTrackingRemovals (fields.map Prod.fst) direction nextVersion)
  let paths := pathVariables jsonPaths parent
  runInserts crate paths value inserts
  let spec ← convertFields crate direction version nextVersion paths value fields
  runRemovals crate nextVersion paths removals spec

/-- A versioned struct: its fields in the order of their declaration, nested ones with the struct
that is their type. -/
inductive Struct : Type
  | nil
  | leaf (field : VersionedField) (rest : Struct)
  | nested (field : VersionedField) (struct : Struct) (rest : Struct)

namespace Struct

def fields : Struct → List VersionedField
  | nil => []
  | leaf field rest => field :: rest.fields
  | nested field _ rest => field :: rest.fields

/-- The fields, with the impls that their conversions use. -/
def impls : Struct → List (VersionedField × TrackingFrom Leaf Yaml)
  | nil => []
  | leaf field rest => (field, fun _ _ => throw .compile) :: rest.impls
  | nested field struct rest =>
    (field, generateTrackingFromImpl crate direction version nextVersion struct.impls) ::
      rest.impls

def trackingFrom (self : Struct) : TrackingFrom Leaf Yaml :=
  generateTrackingFromImpl crate direction version nextVersion
    (self.impls crate direction version nextVersion)

end Struct

/-! ### Objects -/

/-- The generated status: the one of the user with the tracked changes. -/
structure StatusWithChangedValues (Status Yaml : Type) where
  changedValues : ChangedValues Yaml
  status : Status

/-- A custom resource of some version. -/
structure CustomResource (Metadata Status : Type) (Leaf : RustType → Type) (Yaml : Type) where
  metadata : Metadata
  status : Option (StatusWithChangedValues Status Yaml)
  spec : StructValue Leaf

variable {Metadata Status : Type} [Inhabited Status]

namespace CustomResource

/-- The tracked changes. A missing status has none. -/
def changes (self : CustomResource Metadata Status Leaf Yaml) : ChangedValues Yaml :=
  (self.status.map StatusWithChangedValues.changedValues).getD .empty

/-- The conversion of an object between a version and the next one. -/
def convert (struct : Struct) (object : CustomResource Metadata Status Leaf Yaml) :
    Except Fault (CustomResource Metadata Status Leaf Yaml) := do
  let status := object.status.getD ⟨.empty, default⟩
  let (spec, changes) ←
    (struct.trackingFrom crate direction version nextVersion object.spec "$").run
      status.changedValues
  return { metadata := object.metadata
           status := some { status with changedValues := changes }
           spec := spec }

/-- The conversions along a path of consecutive versions, from a version on. -/
def convertAlong (struct : Struct) : VersionDefinition → List VersionDefinition →
    CustomResource Metadata Status Leaf Yaml →
    Except Fault (CustomResource Metadata Status Leaf Yaml)
  | _, [], object => .ok object
  | current, next :: path, object => do
    let object ←
      if current.inner < next.inner then object.convert crate .upgrade current next struct
      else object.convert crate .downgrade next current struct
    convertAlong struct next path object

end CustomResource

end Run

end VersionedMacros

end StackableOperator
