import Mathlib
import StackableOperator.ForMathlib.Neighbors
import StackableOperator.ForMathlib.Traverse
import StackableOperator.VersionedMacros.TrackedStruct

/-!
# Parts of tracked conversions

The upgrade and the downgrade of a struct are proved in one way: by induction on its fields, with
the rest of the struct in the hypothesis. This is what the two proofs share.

* *Names.* The fields of a struct have different names in each version, so that reading a name in a
  value gives the field (`Struct.lookup_valueIn`).
* *Assignments.* `convertFields` is unrolled by one field at a time, with one lemma for each kind of
  assignment: a field that does not exist in the next version, one that is new and gets its default,
  one that is kept, and a nested one, whose values are converted in turn
  (`convertFields_cons_of_nested`).
* *Parts of an impl.* `Ready` is all that the induction needs to know about the fields. A struct
  that can be tracked is ready between any two consecutive versions (`Struct.ready`), and the
  statements that save and restore values are known (`Tracks.generateTrackingInserts_eq`,
  `Tracks.generateTrackingRemovals_eq`).
* *Added fields.* These are the only ones whose values are tracked.
* *Tracked changes.* Changes are pushed to the list of their version, and the other lists stay as
  they are (`ChangedValues.get?_pushAll_self`, `ChangedValues.get?_pushAll_of_ne`).
-/

namespace StackableOperator

namespace VersionedMacros

open IterMap (get?)

variable {Leaf : RustType → Type} {Yaml : Type}

/-! ### Names -/

/-- If no name is used twice, each name has the value that stands with it. -/
theorem lookup_eq_some_of_mem {α : Type} {values : List (Ident × α)}
    (h : (values.map Prod.fst).Nodup) {ident : Ident} {a : α} (hmem : (ident, a) ∈ values) :
    values.lookup ident = some a := by
  induction values with
  | nil => exact absurd hmem List.not_mem_nil
  | cons head tail ih =>
    obtain ⟨hhead, htail⟩ := List.nodup_cons.mp h
    rw [List.lookup_cons]
    rcases List.mem_cons.mp hmem with rfl | hmem
    · simp
    · have hne : ident ≠ head.1 := by
        rintro rfl
        exact hhead (List.mem_map.mpr ⟨_, hmem, rfl⟩)
      rw [beq_false_of_ne hne]
      exact ih htail hmem

/-- A declared variable has a value. -/
theorem exists_lookup_of_mem {α : Type} {values : List (Ident × α)} {ident : Ident} {a : α}
    (hmem : (ident, a) ∈ values) : ∃ b, values.lookup ident = some b := by
  induction values with
  | nil => exact absurd hmem List.not_mem_nil
  | cons head tail ih =>
    rw [List.lookup_cons]
    rcases List.mem_cons.mp hmem with rfl | hmem
    · exact ⟨a, by simp⟩
    · rcases ident == head.1 with _ | _
      · exact ih hmem
      · exact ⟨head.2, rfl⟩

/-- A value in some version has the fields that exist there, under their names in it. -/
theorem map_fst_emit (version : Version) (cells : List (VersionedField × SpecValue Leaf)) :
    (emit version cells).map Prod.fst =
      (cells.map Prod.fst).filterMap fun field => field.nameIn version := by
  rw [emit, List.map_filterMap, List.filterMap_map]
  refine List.filterMap_congr fun cell _ => ?_
  rw [Function.comp_apply]
  rcases cell.1.nameIn version with _ | ident <;> rfl

/-- A field that does not exist in the version is left out. -/
theorem emit_cons_of_none {version : Version} {field : VersionedField} {x : SpecValue Leaf}
    {cells : List (VersionedField × SpecValue Leaf)} (h : field.nameIn version = none) :
    emit version ((field, x) :: cells) = emit version cells := by
  simp [emit, h]

/-- A field that exists in the version has its name there. -/
theorem emit_cons_of_some {version : Version} {field : VersionedField} {x : SpecValue Leaf}
    {cells : List (VersionedField × SpecValue Leaf)} {ident : Ident}
    (h : field.nameIn version = some ident) :
    emit version ((field, x) :: cells) = (ident, x) :: emit version cells := by
  simp [emit, h]

namespace Struct

variable {self : Struct}

/-- The values of a struct are those of its fields, in their order. -/
theorem map_fst_cells (version : Version) (data : self.Data Leaf) :
    (self.cells version data).map Prod.fst = self.fields := by
  induction self with
  | nil => rfl
  | leaf field rest ih => rw [cells, fields, List.map_cons, ih]
  | nested field struct rest _ ih => rw [cells, fields, List.map_cons, ih]

/-- Each field has an impl for the type in it. -/
theorem map_fst_impls [Lowercase] (crate : Crate Leaf Yaml) (direction : Direction)
    (version nextVersion : VersionDefinition) (self : Struct) :
    (self.impls crate direction version nextVersion).map Prod.fst = self.fields := by
  induction self with
  | nil => rfl
  | leaf field rest ih => rw [impls, fields, List.map_cons, ih]
  | nested field struct rest _ ih => rw [impls, fields, List.map_cons, ih]

/-- A value of a struct belongs to one of its fields. -/
theorem fst_mem_fields {version : Version} {data : self.Data Leaf}
    {cell : VersionedField × SpecValue Leaf} (h : cell ∈ self.cells version data) :
    cell.1 ∈ self.fields := by
  rw [← map_fst_cells version data]
  exact List.mem_map_of_mem h

/-- The fields of a value can be read under their names. -/
theorem lookup_valueIn {version : Version} {data : self.Data Leaf}
    (hnodup : (self.fields.filterMap fun field => field.nameIn version).Nodup)
    {cell : VersionedField × SpecValue Leaf} (hcell : cell ∈ self.cells version data)
    {ident : Ident} (hident : cell.1.nameIn version = some ident) :
    (self.valueIn version data).lookup ident = some cell.2 := by
  refine lookup_eq_some_of_mem ?_ ?_
  · rw [valueIn, map_fst_emit, map_fst_cells]
    exact hnodup
  · rw [valueIn, emit]
    exact List.mem_filterMap.mpr ⟨cell, hcell, by rw [hident]; rfl⟩

end Struct

/-! ### The assignments -/

section ConvertFields

variable [Lowercase] {crate : Crate Leaf Yaml} {direction : Direction}
  {version nextVersion : VersionDefinition} {paths : List (Ident × String)}
  {value : StructValue Leaf} {field : VersionedField × TrackingFrom Leaf Yaml}
  {fields : List (VersionedField × TrackingFrom Leaf Yaml)}

/-- A field that is not assigned is passed over. -/
theorem convertFields_cons_of_none
    (h : field.1.generateForFromImpl direction version nextVersion = .ok none) :
    convertFields crate direction version nextVersion paths value (field :: fields) =
      convertFields crate direction version nextVersion paths value fields := by
  simp [convertFields, convertField, h, generated]

/-- A new field has its default. -/
theorem convertFields_cons_of_default {ident : Ident} {defaultFn : Path}
    (h : field.1.generateForFromImpl direction version nextVersion =
      .ok (some (.default ident defaultFn))) :
    convertFields crate direction version nextVersion paths value (field :: fields) =
      ((ident, crate.default nextVersion.inner field.1.ty defaultFn) :: ·) <$>
        convertFields crate direction version nextVersion paths value fields := by
  simp [convertFields, convertField, h, generated]

/-- A field that is kept is read under its old name, and its value goes through the conversion
function before the rest is assigned. -/
theorem convertFields_cons_of_convert {lhs rhs : Ident} {function : ConversionFunction}
    (h : field.1.generateForFromImpl direction version nextVersion =
      .ok (some (.convert lhs rhs function))) {x : SpecValue Leaf}
    (hx : value.lookup rhs = some x) :
    convertFields crate direction version nextVersion paths value (field :: fields) =
      function.run crate field.2 paths x >>= fun y => ((lhs, y) :: ·) <$>
        convertFields crate direction version nextVersion paths value fields := by
  simp [convertFields, convertField, h, generated, lookupIdent, hx]

omit [Lowercase] in
theorem mapM_convertStruct (convert : StructValue Leaf → Tracking Yaml (StructValue Leaf))
    (values : List (StructValue Leaf)) :
    (values.map SpecValue.struct).mapM (convertStruct convert) =
      List.map SpecValue.struct <$> values.mapM convert := by
  induction values with
  | nil => simp
  | cons value values ih => simp [List.mapM_cons, ih, convertStruct]

omit [Lowercase] in
/-- A wrapped value is converted by converting the values in it one after the other. -/
theorem mapHint_wrap {convert : StructValue Leaf → Tracking Yaml (StructValue Leaf)}
    {hint : Option Hint} {values : List (StructValue Leaf)} (h : Admits hint values.length) :
    mapHint convert hint (wrap hint values) = wrap hint <$> values.mapM convert := by
  rcases hint with _ | (_ | _)
  · obtain ⟨value, rfl⟩ := List.length_eq_one_iff.mp h
    simp [mapHint, wrap, convertStruct]
  · rcases values with _ | ⟨value, _ | _⟩
    · simp [mapHint, wrap]
    · simp [mapHint, wrap, convertStruct]
    · simp [Admits] at h
  · have hmap : @wrap Leaf (some .vec) = fun values => .vec (values.map .struct) := rfl
    rw [hmap, mapHint, mapM_convertStruct, Functor.map_map]

/-- A leaf keeps its value. -/
theorem convertFields_cons_of_leaf (hnested : field.1.nested = false) {lhs rhs : Ident}
    (h : field.1.generateForFromImpl direction version nextVersion =
      .ok (some (field.1.generateFromImplField lhs rhs none))) {x : SpecValue Leaf}
    (hx : value.lookup rhs = some x) :
    convertFields crate direction version nextVersion paths value (field :: fields) =
      ((lhs, x) :: ·) <$>
        convertFields crate direction version nextVersion paths value fields := by
  have hrun : (field.1.conversionFunction lhs none).run crate field.2 paths x = pure x := by
    rw [VersionedField.conversionFunction, hnested]
    rfl
  rw [convertFields_cons_of_convert h hx, hrun, pure_bind]

/-- The values in a nested field are converted one after the other. -/
theorem convertFields_cons_of_nested (hnested : field.1.nested = true) {lhs rhs : Ident}
    (h : field.1.generateForFromImpl direction version nextVersion =
      .ok (some (field.1.generateFromImplField lhs rhs none))) {values : List (StructValue Leaf)}
    (hvalues : Admits field.1.hint values.length)
    (hx : value.lookup rhs = some (wrap field.1.hint values)) {path : String}
    (hpath : paths.lookup (jsonPathIdent lhs) = some path) :
    convertFields crate direction version nextVersion paths value (field :: fields) =
      (wrap field.1.hint <$> values.mapM fun value => field.2 value path) >>= fun y =>
        ((lhs, y) :: ·) <$>
          convertFields crate direction version nextVersion paths value fields := by
  have hrun : (field.1.conversionFunction lhs none).run crate field.2 paths
      (wrap field.1.hint values) =
      wrap field.1.hint <$> values.mapM fun value => field.2 value path := by
    rw [VersionedField.conversionFunction, hnested, if_pos rfl, ConversionFunction.run,
      lookupIdent, hpath, pure_bind, mapHint_wrap hvalues]
  rw [convertFields_cons_of_convert h hx, hrun]

end ConvertFields

/-! ### The parts of an impl -/

/-- Dropping what is missing after a map, or with it. -/
theorem reduceOption_map {α β : Type} (f : α → Option β) (l : List α) :
    (l.map f).reduceOption = l.filterMap f := by
  rw [List.reduceOption, List.filterMap_map]
  rfl

section Parts

variable [Lowercase] {version nextVersion : VersionDefinition} {fields : List VersionedField}
  {versions : List VersionDefinition} {paths : List (Ident × String)}

variable (version nextVersion) in
/-- What happens to the fields is known, and the path variables that they use are declared. -/
structure Ready (fields : List VersionedField) (paths : List (Ident × String)) : Prop where
  crosses : ∀ field ∈ fields,
    field.Crosses version nextVersion (field.crossing version nextVersion)
  exists_lookup : ∀ field ∈ fields, ∀ direction,
    ∀ ident ∈ field.pathIdents direction (field.crossing version nextVersion),
      ∃ path, paths.lookup ident = some path

/-- The rest of the fields is ready, too. -/
theorem Ready.tail {field : VersionedField}
    (h : Ready version nextVersion (field :: fields) paths) :
    Ready version nextVersion fields paths where
  crosses := fun field' hmem => h.crosses field' (List.mem_cons_of_mem _ hmem)
  exists_lookup := fun field' hmem => h.exists_lookup field' (List.mem_cons_of_mem _ hmem)

namespace Tracks

/-- What happens to each field between the two versions is what its crossing says. -/
theorem crosses (h : Tracks fields versions) (hpair : [version, nextVersion] <:+: versions) :
    ∀ field ∈ fields, field.Crosses version nextVersion (field.crossing version nextVersion) :=
  fun field hmem => VersionedField.crosses (h.converts field hmem version nextVersion hpair)
    (h.keepsType field hmem)

/-- The paths can be generated for all fields. -/
theorem generateJsonPaths_eq (h : Tracks fields versions)
    (hpair : [version, nextVersion] <:+: versions) : generateJsonPaths fields nextVersion =
    .ok ((generateJsonPaths fields nextVersion).toOption.getD []) := by
  obtain ⟨jsonPaths, hjsonPaths⟩ := exists_mapM_eq_ok_iff.mpr fun field hmem =>
    (h.crosses hpair field hmem).jsonPath
  rw [generateJsonPaths, hjsonPaths]
  rfl

/-- **A struct that can be tracked is ready** between any two consecutive versions: the path
variables that its statements use have been declared. -/
theorem ready (h : Tracks fields versions) (hpair : [version, nextVersion] <:+: versions)
    (parent : String) : Ready version nextVersion fields
    (pathVariables ((generateJsonPaths fields nextVersion).toOption.getD []) parent) where
  crosses := h.crosses hpair
  exists_lookup := by
    intro field hmem direction ident hident
    obtain ⟨jsonPath, hjsonPath, rfl⟩ :=
      h.declares version nextVersion hpair field hmem direction ident hident
    refine exists_lookup_of_mem (a := jthongPath parent jsonPath.child) ?_
    exact List.mem_reverse.mpr (List.mem_map.mpr ⟨jsonPath, hjsonPath, rfl⟩)

/-- A downgrade saves the values of the fields that were added in the next version, and an upgrade
saves nothing. -/
theorem generateTrackingInserts_eq (h : Tracks fields versions)
    (hpair : [version, nextVersion] <:+: versions) (direction : Direction) :
    generateTrackingInserts fields direction nextVersion = .ok (match direction with
      | .upgrade => none
      | .downgrade => if needsTracking fields nextVersion then
          some ⟨nextVersion.inner.display,
            fields.filterMap fun field => (field.crossing version nextVersion).insertion⟩
        else none) := by
  have hmapM := mapM_eq_ok_map fun field hmem => (h.crosses hpair field hmem).insertion
  rcases direction with _ | _
  · rw [generateTrackingInserts, ite_self]
  · rw [generateTrackingInserts]
    rcases needsTracking fields nextVersion with _ | _
    · rfl
    · simp [hmapM, reduceOption_map, bind, Except.bind, pure, Except.pure]

/-- An upgrade restores the values of the fields that are added in the next version, and a downgrade
restores nothing. -/
theorem generateTrackingRemovals_eq (h : Tracks fields versions)
    (hpair : [version, nextVersion] <:+: versions) (direction : Direction) :
    generateTrackingRemovals fields direction nextVersion = .ok (match direction with
      | .upgrade => if needsTracking fields nextVersion then
          some ⟨nextVersion.inner.display,
            fields.filterMap fun field => (field.crossing version nextVersion).removal field.ty⟩
        else none
      | .downgrade => none) := by
  rw [generateTrackingRemovals]
  rcases needsTracking fields nextVersion with _ | _
  · rcases direction with _ | _ <;> rfl
  rcases direction with _ | _
  · have hmapM := mapM_eq_ok_map fun field hmem => (h.crosses hpair field hmem).removal
    simp [hmapM, reduceOption_map, bind, Except.bind, pure, Except.pure]
  · have hmapM : (fields.mapM fun field =>
        field.generateForStatusRemoval .downgrade nextVersion) = .ok (fields.map fun _ => none) :=
      mapM_eq_ok_map fun field _ => by
        rcases hchanges : field.changes with _ | changes <;>
          simp [VersionedField.generateForStatusRemoval, hchanges]
    simp only [hmapM]
    rfl

end Tracks

/-- The fields of a struct are ready for its own path variables. -/
theorem Struct.ready {self : Struct} (h : Tracks self.fields versions)
    (hpair : [version, nextVersion] <:+: versions) (parent : String) :
    Ready version nextVersion self.fields (self.paths nextVersion parent) :=
  h.ready hpair parent

end Parts

/-! ### Added fields -/

section AddedFields

variable [Lowercase] {crate : Crate Leaf Yaml} {version nextVersion : VersionDefinition}
  {paths : List (Ident × String)}

/-- An added field is tracked with its path, its value and its default. -/
theorem addedFields_cons_of_added {cell : VersionedField × SpecValue Leaf}
    {cells : List (VersionedField × SpecValue Leaf)} {ident : Ident} {defaultFn : Path}
    (h : cell.1.crossing version nextVersion = .added ident defaultFn) :
    addedFields crate version nextVersion paths (cell :: cells) =
      ⟨(paths.lookup (jsonPathIdent ident)).getD "", ident, cell.1.ty, cell.2,
        crate.default nextVersion.inner cell.1.ty defaultFn⟩ ::
        addedFields crate version nextVersion paths cells := by
  simp [addedFields, h]

/-- Any other field is not tracked. -/
theorem addedFields_cons_of_ne {cell : VersionedField × SpecValue Leaf}
    {cells : List (VersionedField × SpecValue Leaf)}
    (h : ∀ ident defaultFn, cell.1.crossing version nextVersion ≠ .added ident defaultFn) :
    addedFields crate version nextVersion paths (cell :: cells) =
      addedFields crate version nextVersion paths cells := by
  rcases hcrossing : cell.1.crossing version nextVersion with _ | ⟨ident, defaultFn⟩ | _
  · simp [addedFields, hcrossing]
  · exact absurd hcrossing (h ident defaultFn)
  · simp [addedFields, hcrossing]

/-- Structs with added fields need tracking, and no others. -/
theorem addedFields_eq_nil_iff {cells : List (VersionedField × SpecValue Leaf)}
    (hcrosses : ∀ field ∈ cells.map Prod.fst,
      field.Crosses version nextVersion (field.crossing version nextVersion)) :
    addedFields crate version nextVersion paths cells = [] ↔
      needsTracking (cells.map Prod.fst) nextVersion = false := by
  rw [needsTracking, List.any_eq_false, addedFields, List.filterMap_eq_nil_iff,
    List.forall_mem_map]
  refine forall₂_congr fun cell hcell => ?_
  rw [(hcrosses cell.1 (List.mem_map_of_mem hcell)).isAddedIn]
  match cell.1.crossing version nextVersion with
  | .absent => simp
  | .added ident defaultFn => simp
  | .kept old next => simp

end AddedFields

/-! ### Tracked changes -/

namespace ChangedValues

variable {status : ChangedValues Yaml} {version : String} {changes : List (ChangedValue Yaml)}

/-- Two statuses are the same if they have the same changes under every version. -/
theorem ext {status status' : ChangedValues Yaml}
    (hdowngrades : status.downgrades = status'.downgrades)
    (hupgrades : ∀ key, get? (M := BTreeMap String) status.upgrades key =
      get? (M := BTreeMap String) status'.upgrades key) : status = status' := by
  obtain ⟨downgrades, upgrades⟩ := status
  obtain ⟨downgrades', upgrades'⟩ := status'
  obtain rfl : downgrades = downgrades' := hdowngrades
  obtain rfl : upgrades = upgrades' := BTreeMap.ext_get? hupgrades
  rfl

/-- Push changes one after the other. -/
def pushAll (self : ChangedValues Yaml) (version : String) (changes : List (ChangedValue Yaml)) :
    ChangedValues Yaml :=
  changes.foldl (fun status change => status.push version change) self

theorem pushAll_append (changes' : List (ChangedValue Yaml)) :
    status.pushAll version (changes ++ changes') =
      (status.pushAll version changes).pushAll version changes' :=
  List.foldl_append

/-- A change is pushed behind those of its version. -/
theorem get?_push_self (change : ChangedValue Yaml) :
    get? (M := BTreeMap String) (status.push version change).upgrades version =
      some ((get? (M := BTreeMap String) status.upgrades version).getD [] ++ [change]) :=
  IterMap.get?_insert_self _ _ _

/-- The changes of other versions stay as they are. -/
theorem get?_push_of_ne (change : ChangedValue Yaml) {key : String} (h : key ≠ version) :
    get? (M := BTreeMap String) (status.push version change).upgrades key =
      get? (M := BTreeMap String) status.upgrades key :=
  IterMap.get?_insert_of_ne _ _ h

/-- **Pushed changes** are behind those that were there, in their order. -/
theorem get?_pushAll_self (h : changes ≠ []) :
    get? (M := BTreeMap String) (status.pushAll version changes).upgrades version =
      some ((get? (M := BTreeMap String) status.upgrades version).getD [] ++ changes) := by
  induction changes generalizing status with
  | nil => exact absurd rfl h
  | cons change changes ih =>
    show get? (M := BTreeMap String) ((status.push version change).pushAll version changes).upgrades
      version = _
    by_cases hnil : changes = []
    · rw [hnil]
      exact get?_push_self change
    · rw [ih hnil, get?_push_self, Option.getD_some, List.append_assoc, List.singleton_append]

/-- The changes of other versions stay as they are. -/
theorem get?_pushAll_of_ne {key : String} (h : key ≠ version) :
    get? (M := BTreeMap String) (status.pushAll version changes).upgrades key =
      get? (M := BTreeMap String) status.upgrades key := by
  induction changes generalizing status with
  | nil => rfl
  | cons change changes ih => exact ih.trans (get?_push_of_ne change h)

/-- The changes of downgrades stay as they are. -/
theorem downgrades_pushAll : (status.pushAll version changes).downgrades = status.downgrades := by
  induction changes generalizing status with
  | nil => rfl
  | cons change changes ih => exact ih

/-- Creating the list first changes nothing if there is a change to push. -/
theorem pushAll_orDefault (h : changes ≠ []) :
    (status.orDefault version).pushAll version changes = status.pushAll version changes := by
  refine ext ?_ fun key => ?_
  · rw [downgrades_pushAll, downgrades_pushAll]
    rfl
  · have hself : get? (M := BTreeMap String) (status.orDefault version).upgrades version =
        some ((get? (M := BTreeMap String) status.upgrades version).getD []) :=
      IterMap.get?_insert_self _ _ _
    by_cases hkey : key = version
    · rw [hkey, get?_pushAll_self h, get?_pushAll_self h, hself, Option.getD_some]
    · rw [get?_pushAll_of_ne hkey, get?_pushAll_of_ne hkey]
      exact IterMap.get?_insert_of_ne _ _ hkey

end ChangedValues

end VersionedMacros

end StackableOperator
