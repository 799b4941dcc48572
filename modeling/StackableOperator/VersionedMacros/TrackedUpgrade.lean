import Mathlib
import StackableOperator.VersionedMacros.TrackedConversion

/-!
# Tracked upgrades

The first struct value that an upgrade visits and that has fields which are added in the version
takes all tracked changes for the version (`Struct.takes_trackingFrom`). All others find none, so
that their added fields get default values.
-/

namespace StackableOperator

namespace VersionedMacros

open IterMap (get?)

variable {Leaf : RustType → Type} {Yaml : Type}

/-- The tracked changes for a version, which are removed as a whole. -/
def upgradesSlot (version : String) : Slot (ChangedValues Yaml) (List (ChangedValue Yaml)) where
  get? status := get? (M := BTreeMap String) status.upgrades version
  clear status := status.remove version
  get?_clear status := BTreeMap.get?_remove_self status.upgrades version

/-! ### Assigning tracked values -/

/-- The last assignment to a field counts. -/
theorem foldl_set (assignments : List (Ident × SpecValue Leaf)) (value : StructValue Leaf) :
    assignments.foldl (fun value a => StructValue.set value a.1 a.2) value =
      value.map fun field => (field.1, (assignments.reverse.lookup field.1).getD field.2) := by
  induction assignments using List.reverseRecOn with
  | nil => simp
  | append_singleton assignments a ih =>
    rw [List.foldl_append, ih, List.foldl_cons, List.foldl_nil, StructValue.set, List.map_map,
      List.reverse_concat]
    refine List.map_congr_left fun field _ => ?_
    rw [List.lookup_cons, Function.comp_apply]
    by_cases hfield : field.1 = a.1
    · rw [if_pos hfield, hfield, beq_self_eq_true]
      rfl
    · rw [if_neg hfield, beq_false_of_ne hfield]

/-- When other values of the fields become the given ones. -/
theorem map_emit_eq_iff {version : Version} {cells : List (VersionedField × SpecValue Leaf)}
    {other : VersionedField × SpecValue Leaf → SpecValue Leaf}
    {f : Ident → SpecValue Leaf → SpecValue Leaf} :
    ((emit version (cells.map fun cell => (cell.1, other cell))).map fun field =>
        (field.1, f field.1 field.2)) = emit version cells ↔
      ∀ cell ∈ cells, ∀ ident, cell.1.nameIn version = some ident →
        f ident (other cell) = cell.2 := by
  induction cells with
  | nil => simp [emit]
  | cons cell cells ih =>
    rw [List.map_cons, List.forall_mem_cons, ← ih]
    cases hname : cell.1.nameIn version with
    | none =>
      rw [emit_cons_of_none hname, emit_cons_of_none hname]
      simp
    | some ident =>
      rw [emit_cons_of_some hname, emit_cons_of_some hname, List.map_cons, List.cons_eq_cons,
        Prod.mk.injEq]
      simp

section Removals

variable [Lowercase] {crate : Crate Leaf Yaml} {version nextVersion : VersionDefinition}
  {paths : List (Ident × String)} {versions : List VersionDefinition}
  {cells : List (VersionedField × SpecValue Leaf)}

variable (version nextVersion) in
/-- The arms for the added fields. -/
def armsOf (fields : List VersionedField) : List StatusRemoval :=
  fields.filterMap fun field => (field.crossing version nextVersion).removal field.ty

/-- Each added field has an arm with its path. -/
theorem find?_arms (hready : Ready version nextVersion (cells.map Prod.fst) paths)
    (jsonPath : String) :
    ((armsOf version nextVersion (cells.map Prod.fst)).find? fun arm =>
        paths.lookup arm.jsonPath = some jsonPath) =
      ((addedFields crate version nextVersion paths cells).find? fun field =>
        field.jsonPath = jsonPath).map fun field =>
          ⟨jsonPathIdent field.ident, field.ident, field.ty⟩ := by
  induction cells with
  | nil => rfl
  | cons cell cells ih =>
    have hih := ih hready.tail
    rw [armsOf] at hih ⊢
    rw [List.map_cons, List.filterMap_cons]
    match hcrossing : cell.1.crossing version nextVersion with
    | .absent =>
      rw [addedFields_cons_of_ne (by simp [hcrossing])]
      exact hih
    | .kept old next =>
      rw [addedFields_cons_of_ne (by simp [hcrossing])]
      exact hih
    | .added ident defaultFn =>
      have hlookup := hready.exists_lookup cell.1 List.mem_cons_self .upgrade
      rw [hcrossing] at hlookup
      obtain ⟨path, hpath⟩ := hlookup (jsonPathIdent ident) (by simp [VersionedField.pathIdents])
      have hremoval : (Crossing.added ident defaultFn).removal cell.1.ty =
          some ⟨jsonPathIdent ident, ident, cell.1.ty⟩ := rfl
      rw [addedFields_cons_of_added hcrossing, hpath, hremoval]
      simp only [List.find?_cons, hpath, Option.getD_some, Option.some.injEq]
      by_cases heq : path = jsonPath
      · rw [decide_eq_true heq, Option.map_some]
      · rw [decide_eq_false heq]
        exact hih

theorem run_runArms (hready : Ready version nextVersion (cells.map Prod.fst) paths)
    (spec : StructValue Leaf) (change : ChangedValue Yaml) (status : ChangedValues Yaml) :
    (runArms crate nextVersion paths (armsOf version nextVersion (cells.map Prod.fst)) spec
        change).run status =
      match decode crate nextVersion (addedFields crate version nextVersion paths cells) change with
      | some a => .ok (StructValue.set spec a.1 a.2, status)
      | none => .error .panic := by
  have hfindArms : _ = ((addedFields crate version nextVersion paths cells).find? _).map _ :=
    find?_arms hready change.jsonPath
  rw [runArms, hfindArms, decode]
  match hfind : (addedFields crate version nextVersion paths cells).find? fun field =>
      field.jsonPath = change.jsonPath with
  | none =>
    rw [hfind]
    rfl
  | some field =>
    rw [hfind, Option.map_some, Option.bind_some]
    match hfrom : crate.fromValue nextVersion.inner field.ty change.value with
    | .ok value =>
      simp only [hfrom]
      rfl
    | .error e =>
      simp only [hfrom]
      rfl

/-- Restoring changes succeeds iff all of them belong to added fields. -/
theorem run_foldlM_runArms_iff (hready : Ready version nextVersion (cells.map Prod.fst) paths)
    {changes : List (ChangedValue Yaml)} {spec result : StructValue Leaf}
    {status status' : ChangedValues Yaml} :
    (changes.foldlM (runArms crate nextVersion paths
        (armsOf version nextVersion (cells.map Prod.fst))) spec).run status =
        .ok (result, status') ↔
      (∀ change ∈ changes, (decode crate nextVersion
        (addedFields crate version nextVersion paths cells) change).isSome = true) ∧
      ((changes.filterMap (decode crate nextVersion
        (addedFields crate version nextVersion paths cells))).foldl
          (fun spec a => StructValue.set spec a.1 a.2) spec) = result ∧ status = status' := by
  induction changes generalizing spec with
  | nil =>
    have hrun : (List.foldlM (runArms crate nextVersion paths
        (armsOf version nextVersion (cells.map Prod.fst))) spec []).run status =
        .ok (spec, status) := rfl
    rw [hrun]
    simp
  | cons change changes ih =>
    rw [List.foldlM_cons, StateT.run_bind, run_runArms hready, List.forall_mem_cons,
      List.filterMap_cons]
    match decode crate nextVersion (addedFields crate version nextVersion paths cells) change with
    | none => simp [bind, Except.bind]
    | some a =>
      have hih : ((changes.foldlM (runArms crate nextVersion paths
          (armsOf version nextVersion (cells.map Prod.fst))) (StructValue.set spec a.1 a.2)).run
            status = .ok (result, status') ↔ _) := ih
      simpa [bind, Except.bind] using hih

theorem mem_addedFields_iff {field : AddedField Leaf} :
    field ∈ addedFields crate version nextVersion paths cells ↔
      ∃ cell ∈ cells, ∃ ident defaultFn,
        cell.1.crossing version nextVersion = .added ident defaultFn ∧
        field = ⟨(paths.lookup (jsonPathIdent ident)).getD "", ident, cell.1.ty, cell.2,
          crate.default nextVersion.inner cell.1.ty defaultFn⟩ := by
  rw [addedFields, List.mem_filterMap]
  refine exists_congr fun cell => and_congr_right fun _ => ?_
  cases cell.1.crossing version nextVersion with
  | absent => simp
  | added ident defaultFn => simp [eq_comm]
  | kept old next => simp

omit [Lowercase] in
theorem eq_of_mem_filterMap_of_nodup {α β : Type} {f : α → Option β} {l : List α}
    (h : (l.filterMap f).Nodup) {a b : α} (ha : a ∈ l) (hb : b ∈ l) {c : β} (hac : f a = some c)
    (hbc : f b = some c) : a = b := by
  induction l with
  | nil => exact absurd ha List.not_mem_nil
  | cons d l ih =>
    match hd : f d with
    | none =>
      rw [List.filterMap_cons_none hd] at h
      refine ih h ((List.mem_cons.mp ha).resolve_left ?_) ((List.mem_cons.mp hb).resolve_left ?_)
      · rintro rfl
        cases hac.symm.trans hd
      · rintro rfl
        cases hbc.symm.trans hd
    | some x =>
      rw [List.filterMap_cons_some hd, List.nodup_cons] at h
      have hne {e : α} (he : e ∈ l) (hec : f e = some c) : x ≠ c := by
        rintro rfl
        exact h.1 (List.mem_filterMap.mpr ⟨e, he, hec⟩)
      obtain rfl | hal := List.mem_cons.mp ha
      · obtain rfl : x = c := Option.some.inj (hd.symm.trans hac)
        obtain rfl | hbl := List.mem_cons.mp hb
        · rfl
        · exact absurd rfl (hne hbl hbc)
      · obtain rfl | hbl := List.mem_cons.mp hb
        · obtain rfl : x = c := Option.some.inj (hd.symm.trans hbc)
          exact absurd rfl (hne hal hac)
        · exact ih h.2 hal hbl

omit [Lowercase] in
theorem exists_of_decode_eq_some {added : List (AddedField Leaf)} {change : ChangedValue Yaml}
    {a : Ident × SpecValue Leaf} (h : decode crate nextVersion added change = some a) :
    ∃ field ∈ added, a.1 = field.ident ∧
      crate.fromValue nextVersion.inner field.ty change.value = .ok a.2 := by
  obtain ⟨field, hfind, hmap⟩ := Option.bind_eq_some_iff.mp h
  refine ⟨field, List.mem_of_find?_eq_some hfind, ?_⟩
  match hfrom : crate.fromValue nextVersion.inner field.ty change.value with
  | .ok value =>
    rw [hfrom] at hmap
    obtain rfl := Option.some.inj hmap
    exact ⟨rfl, rfl⟩
  | .error e =>
    rw [hfrom] at hmap
    cases hmap

/-- The value of a field without tracked changes. -/
def defaultValue (crate : Crate Leaf Yaml) (version nextVersion : VersionDefinition)
    (cell : VersionedField × SpecValue Leaf) : SpecValue Leaf :=
  match cell.1.crossing version nextVersion with
  | .added _ defaultFn => crate.default nextVersion.inner cell.1.ty defaultFn
  | _ => cell.2

/-- **Which changes restore the added fields** that have their default values. -/
theorem run_foldlM_eq_iff_isRestoredBy
    (hready : Ready version nextVersion (cells.map Prod.fst) paths)
    (hnodup : ((cells.map Prod.fst).filterMap fun field => field.nameIn nextVersion.inner).Nodup)
    {changes : List (ChangedValue Yaml)} {status : ChangedValues Yaml} :
    (changes.foldlM (runArms crate nextVersion paths
        (armsOf version nextVersion (cells.map Prod.fst)))
        (emit nextVersion.inner
          (cells.map fun cell => (cell.1, defaultValue crate version nextVersion cell)))).run
        status = .ok (emit nextVersion.inner cells, status) ↔
      IsRestoredBy crate nextVersion changes
        (addedFields crate version nextVersion paths cells) := by
  have hstructure : IsRestoredBy crate nextVersion changes
      (addedFields crate version nextVersion paths cells) ↔ _ ∧ _ :=
    ⟨fun h => ⟨h.isSome_decode, h.getD_lookup⟩, fun h => ⟨h.1, h.2⟩⟩
  rw [run_foldlM_runArms_iff hready, hstructure, foldl_set]
  refine and_congr_right fun _ => ?_
  rw [and_iff_left rfl]
  rw [map_emit_eq_iff (f := fun ident value =>
    ((changes.filterMap (decode crate nextVersion
      (addedFields crate version nextVersion paths cells))).reverse.lookup ident).getD value)]
  have hcrosses (cell : VersionedField × SpecValue Leaf) (hcell : cell ∈ cells) :=
    hready.crosses cell.1 (List.mem_map_of_mem hcell)
  constructor
  · intro h field hfield
    obtain ⟨cell, hcell, ident, defaultFn, hcrossing, rfl⟩ := mem_addedFields_iff.mp hfield
    have hname := (hcrosses cell hcell).nameIn_next
    rw [hcrossing] at hname
    have hvalue := h cell hcell ident hname
    rw [defaultValue, hcrossing] at hvalue
    exact hvalue
  · intro h cell hcell ident hname
    have hnext := (hcrosses cell hcell).nameIn_next
    match hcrossing : cell.1.crossing version nextVersion with
    | .absent =>
      rw [hcrossing] at hnext
      cases hname.symm.trans hnext
    | .added ident' defaultFn =>
      rw [hcrossing] at hnext
      obtain rfl := Option.some.inj (hname.symm.trans hnext)
      have hvalue := h _ (mem_addedFields_iff.mpr ⟨cell, hcell, ident, defaultFn, hcrossing, rfl⟩)
      rw [defaultValue, hcrossing]
      exact hvalue
    | .kept old next =>
      -- only added fields are assigned
      have hnone : ((changes.filterMap (decode crate nextVersion
          (addedFields crate version nextVersion paths cells))).reverse.lookup ident) = none := by
        rw [List.lookup_eq_none_iff]
        intro a ha
        refine bne_iff_ne.mpr fun hident => ?_
        rw [List.mem_reverse, List.mem_filterMap] at ha
        obtain ⟨change, -, hdecode⟩ := ha
        obtain ⟨field, hfield, hfieldIdent, -⟩ := exists_of_decode_eq_some hdecode
        obtain ⟨cell', hcell', ident', defaultFn, hcrossing', rfl⟩ := mem_addedFields_iff.mp hfield
        have hname' := (hcrosses cell' hcell').nameIn_next
        rw [hcrossing'] at hname'
        obtain rfl : ident = ident' := hident.trans hfieldIdent
        have heq := eq_of_mem_filterMap_of_nodup hnodup (List.mem_map_of_mem hcell)
          (List.mem_map_of_mem hcell') hname hname'
        rw [heq, hcrossing'] at hcrossing
        cases hcrossing
      rw [hnone, defaultValue, hcrossing]
      rfl

omit [Lowercase] in
theorem run_runRemovals_of_some {key : String} {arms : List StatusRemoval}
    {spec : StructValue Leaf} {status : ChangedValues Yaml} {changes : List (ChangedValue Yaml)}
    (h : (upgradesSlot key).get? status = some changes) :
    (runRemovals crate nextVersion paths (some ⟨key, arms⟩) spec).run status =
      (changes.foldlM (runArms crate nextVersion paths arms) spec).run
        ((upgradesSlot key).clear status) := by
  have hget : get? (M := BTreeMap String) status.upgrades key = some changes := h
  simp only [runRemovals, StateT.run_bind, StateT.run_get, pure_bind, hget]
  rfl

omit [Lowercase] in
theorem run_runRemovals_of_none {key : String} {arms : List StatusRemoval}
    {spec : StructValue Leaf} {status : ChangedValues Yaml}
    (h : (upgradesSlot key).get? status = none) :
    (runRemovals crate nextVersion paths (some ⟨key, arms⟩) spec).run status =
      .ok (spec, status) := by
  have hget : get? (M := BTreeMap String) status.upgrades key = none := h
  simp only [runRemovals, StateT.run_bind, StateT.run_get, pure_bind, hget]
  rfl

/-- The conversions of the fields, and then the removals. -/
theorem Struct.trackingFrom_upgrade {self : Struct} (htracks : Tracks self.fields versions)
    (hpair : [version, nextVersion] <:+: versions) (value : StructValue Leaf) (parent : String) :
    self.trackingFrom crate .upgrade version nextVersion value parent =
      convertFields crate .upgrade version nextVersion (self.paths nextVersion parent) value
        (self.impls crate .upgrade version nextVersion) >>=
      runRemovals crate nextVersion (self.paths nextVersion parent)
        (if needsTracking self.fields nextVersion then
          some ⟨nextVersion.inner.display, armsOf version nextVersion self.fields⟩
        else none) := by
  rw [trackingFrom, generateTrackingFromImpl, map_fst_impls, htracks.generateJsonPaths_eq hpair,
    htracks.generateTrackingInserts_eq hpair, htracks.generateTrackingRemovals_eq hpair]
  simp only [generated, pure_bind, runInserts]
  rfl

end Removals

/-! ### Values after an upgrade -/

section Values

variable [Lowercase] {crate : Crate Leaf Yaml} {version nextVersion : VersionDefinition}
  {paths : List (Ident × String)} {versions : List VersionDefinition}

section Set

variable {v : Version} {field : VersionedField} {ident : Ident} {x y : SpecValue Leaf}
  {cells cells' : List (VersionedField × SpecValue Leaf)}

omit [Lowercase] in
theorem set_of_notMem {value : StructValue Leaf} (h : ident ∉ value.map Prod.fst) :
    StructValue.set value ident x = value := by
  refine (List.map_congr_left fun field hfield => if_neg ?_).trans (List.map_id value)
  rintro rfl
  exact h (List.mem_map_of_mem hfield)

omit [Lowercase] in
/-- An assignment to the first field. -/
theorem set_emit_cons_self (hname : field.nameIn v = some ident)
    (hnotMem : ident ∉ (cells.map Prod.fst).filterMap fun field => field.nameIn v) :
    StructValue.set (emit v ((field, y) :: cells)) ident x = emit v ((field, x) :: cells) := by
  rw [← map_fst_emit] at hnotMem
  rw [emit_cons_of_some hname, emit_cons_of_some hname, StructValue.set, List.map_cons, if_pos rfl]
  exact congrArg _ (set_of_notMem hnotMem)

omit [Lowercase] in
theorem emit_cons_congr (h : emit v cells = emit v cells') :
    emit v ((field, x) :: cells) = emit v ((field, x) :: cells') := by
  match hname : field.nameIn v with
  | none => rw [emit_cons_of_none hname, emit_cons_of_none hname, h]
  | some ident => rw [emit_cons_of_some hname, emit_cons_of_some hname, h]

omit [Lowercase] in
/-- An assignment to another field. -/
theorem set_emit_cons_of_ne (hname : field.nameIn v ≠ some ident)
    (h : StructValue.set (emit v cells) ident x = emit v cells') :
    StructValue.set (emit v ((field, y) :: cells)) ident x = emit v ((field, y) :: cells') := by
  match hident : field.nameIn v with
  | none => rw [emit_cons_of_none hident, emit_cons_of_none hident, h]
  | some ident' =>
    have hne : ident' ≠ ident := by
      rintro rfl
      exact hname hident
    rw [emit_cons_of_some hident, emit_cons_of_some hident, ← h, StructValue.set, List.map_cons,
      if_neg hne]
    rfl

omit [Lowercase] in
theorem notMem_names_of_nodup {fields : List VersionedField}
    (h : ((field :: fields).filterMap fun field => field.nameIn v).Nodup)
    (hname : field.nameIn v = some ident) :
    ident ∉ fields.filterMap fun field => field.nameIn v := by
  rw [List.filterMap_cons, hname] at h
  exact (List.nodup_cons.mp h).1

end Set

namespace Struct

/-- An added field that is assigned a value of its type. -/
theorem exists_data_set {self : Struct} {data : self.Data Leaf}
    (hcrosses : ∀ field ∈ self.fields,
      field.Crosses version nextVersion (field.crossing version nextVersion))
    (hnodup : (self.fields.filterMap fun field => field.nameIn nextVersion.inner).Nodup)
    (hhandled : self.IsHandled crate versions) (hpair : [version, nextVersion] <:+: versions)
    {field : VersionedField} (hfield : field ∈ self.fields) {ident : Ident} {defaultFn : Path}
    (hcrossing : field.crossing version nextVersion = .added ident defaultFn) {yaml : Yaml}
    {x : SpecValue Leaf} (hx : crate.fromValue nextVersion.inner field.ty yaml = .ok x) :
    ∃ data' : self.Data Leaf,
      StructValue.set (self.valueIn nextVersion.inner data) ident x =
        self.valueIn nextVersion.inner data' ∧
      self.valueIn version.inner data' = self.valueIn version.inner data := by
  have hfieldCrosses := hcrosses field hfield
  rw [hcrossing] at hfieldCrosses
  have hname : field.nameIn nextVersion.inner = some ident := hfieldCrosses.nameIn_next
  have hnone : field.nameIn version.inner = none := hfieldCrosses.nameIn_version
  -- another field in front has another name
  have hne {head : VersionedField} {fields : List VersionedField}
      (h : ((head :: fields).filterMap fun field => field.nameIn nextVersion.inner).Nodup)
      (hmem : field ∈ fields) : head.nameIn nextVersion.inner ≠ some ident := fun hhead =>
    notMem_names_of_nodup h hhead (List.mem_filterMap.mpr ⟨field, hmem, hname⟩)
  have htail {head : VersionedField} {fields : List VersionedField}
      (h : ((head :: fields).filterMap fun field => field.nameIn nextVersion.inner).Nodup) :
      (fields.filterMap fun field => field.nameIn nextVersion.inner).Nodup :=
    h.sublist ((List.sublist_cons_self head fields).filterMap _)
  clear hcrosses hfieldCrosses
  induction self with
  | nil => exact absurd hfield List.not_mem_nil
  | leaf head rest ih =>
    obtain rfl | hrest := List.mem_cons.mp hfield
    · obtain ⟨leaf, rfl⟩ := (hhandled.1 version nextVersion hpair ident defaultFn
        hcrossing).fromValue yaml x hx
      refine ⟨(leaf, data.2), set_emit_cons_self hname ?_, ?_⟩
      · rw [map_fst_cells]
        exact notMem_names_of_nodup hnodup hname
      · exact (emit_cons_of_none hnone).trans (emit_cons_of_none hnone).symm
    · obtain ⟨data', hset, hversion⟩ := @ih data.2 (htail hnodup) hhandled.2 hrest
      exact ⟨(data.1, data'), set_emit_cons_of_ne (hne hnodup hrest) hset,
        emit_cons_congr hversion⟩
  | nested head struct rest _ ih =>
    obtain rfl | hrest := List.mem_cons.mp hfield
    · obtain ⟨values, hadmits, rfl⟩ := (hhandled.1 version nextVersion hpair ident defaultFn
        hcrossing).fromValue yaml x hx
      refine ⟨(⟨values, hadmits⟩, data.2), set_emit_cons_self hname ?_, ?_⟩
      · rw [map_fst_cells]
        exact notMem_names_of_nodup hnodup hname
      · exact (emit_cons_of_none hnone).trans (emit_cons_of_none hnone).symm
    · obtain ⟨data', hset, hversion⟩ := @ih data.2 (htail hnodup) hhandled.2.2 hrest
      exact ⟨(data.1, data'), set_emit_cons_of_ne (hne hnodup hrest) hset,
        emit_cons_congr hversion⟩

/-- Added fields that are assigned values of their types. -/
theorem exists_data_foldl_set {self : Struct} {data : self.Data Leaf}
    (hcrosses : ∀ field ∈ self.fields,
      field.Crosses version nextVersion (field.crossing version nextVersion))
    (hnodup : (self.fields.filterMap fun field => field.nameIn nextVersion.inner).Nodup)
    (hhandled : self.IsHandled crate versions) (hpair : [version, nextVersion] <:+: versions)
    {assignments : List (Ident × SpecValue Leaf)}
    (h : ∀ a ∈ assignments, ∃ field ∈ self.fields, ∃ defaultFn yaml,
      field.crossing version nextVersion = .added a.1 defaultFn ∧
        crate.fromValue nextVersion.inner field.ty yaml = .ok a.2) :
    ∃ data' : self.Data Leaf,
      assignments.foldl (fun value a => StructValue.set value a.1 a.2)
        (self.valueIn nextVersion.inner data) = self.valueIn nextVersion.inner data' ∧
      self.valueIn version.inner data' = self.valueIn version.inner data := by
  induction assignments generalizing data with
  | nil => exact ⟨data, rfl, rfl⟩
  | cons a assignments ih =>
    obtain ⟨⟨field, hfield, defaultFn, yaml, hcrossing, hx⟩, hrest⟩ := List.forall_mem_cons.mp h
    obtain ⟨data', hset, hversion⟩ :=
      @exists_data_set _ _ _ _ _ _ _ self data hcrosses hnodup hhandled hpair _ hfield _ _ hcrossing
        _ _ hx
    obtain ⟨data'', hfoldl, hversion'⟩ := @ih data' hrest
    refine ⟨data'', ?_, hversion'.trans hversion⟩
    rw [List.foldl_cons, hset, hfoldl]

/-- The values after the changes for a version are assigned. -/
theorem exists_data_of_runRemovals {self : Struct} {data : self.Data Leaf}
    (hready : Ready version nextVersion self.fields paths)
    (hnodup : (self.fields.filterMap fun field => field.nameIn nextVersion.inner).Nodup)
    (hhandled : self.IsHandled crate versions) (hpair : [version, nextVersion] <:+: versions)
    {removals : Option TrackingRemovals}
    (hremovals : ∀ r ∈ removals, r.arms = armsOf version nextVersion self.fields)
    {status status' : ChangedValues Yaml} {result : StructValue Leaf}
    (hrun : (runRemovals crate nextVersion paths removals
      (self.valueIn nextVersion.inner data)).run status = .ok (result, status')) :
    ∃ data' : self.Data Leaf, result = self.valueIn nextVersion.inner data' ∧
      self.valueIn version.inner data' = self.valueIn version.inner data := by
  match removals with
  | none =>
    obtain ⟨rfl, -⟩ := Prod.mk.inj (Except.ok.inj hrun)
    exact ⟨data, rfl, rfl⟩
  | some ⟨key, arms⟩ =>
    obtain rfl : arms = armsOf version nextVersion self.fields := hremovals _ rfl
    match hget : (upgradesSlot key).get? status with
    | none =>
      rw [run_runRemovals_of_none hget] at hrun
      obtain ⟨rfl, -⟩ := Prod.mk.inj (Except.ok.inj hrun)
      exact ⟨data, rfl, rfl⟩
    | some changes =>
      have hcells := self.map_fst_cells nextVersion.inner data
      rw [← hcells] at hready
      rw [run_runRemovals_of_some hget, ← hcells, run_foldlM_runArms_iff hready] at hrun
      obtain ⟨-, rfl, -⟩ := hrun
      rw [hcells] at hready
      refine exists_data_foldl_set hready.crosses hnodup hhandled hpair fun a ha => ?_
      obtain ⟨change, -, hdecode⟩ := List.mem_filterMap.mp ha
      obtain ⟨field, hfield, hident, hfrom⟩ := exists_of_decode_eq_some hdecode
      obtain ⟨cell, hcell, ident, defaultFn, hcrossing, rfl⟩ := mem_addedFields_iff.mp hfield
      refine ⟨cell.1, fst_mem_fields hcell, defaultFn, change.value, ?_, hfrom⟩
      rw [hcrossing, hident]

omit [Lowercase] in
theorem length_of_run_mapM {α δ : Type} {c : δ → Tracking Yaml α} {l : List δ}
    {status status' : ChangedValues Yaml} {ys : List α}
    (hrun : (l.mapM c).run status = .ok (ys, status')) : ys.length = l.length := by
  induction l generalizing status ys with
  | nil =>
    obtain ⟨rfl, -⟩ := Prod.mk.inj (Except.ok.inj hrun)
    rfl
  | cons a l ih =>
    rw [List.mapM_cons] at hrun
    obtain ⟨y, t, -, hrest⟩ := Slot.Takes.run_bind_eq_ok_iff.mp hrun
    rw [← map_eq_pure_bind] at hrest
    obtain ⟨ys, hys, rfl⟩ := Slot.Takes.run_map_eq_ok_iff.mp hrest
    rw [List.length_cons, List.length_cons, ih hys]

omit [Lowercase] in
theorem exists_map_of_mapM {α β δ : Type} {c : δ → Tracking Yaml α} {g : δ → α} {f : δ → β}
    {l : List δ} (h : ∀ a ∈ l, ∀ status status' y, (c a).run status = .ok (y, status') →
      ∃ b, y = g b ∧ f b = f a) {status status' : ChangedValues Yaml} {ys : List α}
    (hrun : (l.mapM c).run status = .ok (ys, status')) :
    ∃ bs : List δ, ys = bs.map g ∧ bs.map f = l.map f := by
  induction l generalizing status ys with
  | nil =>
    obtain ⟨rfl, -⟩ := Prod.mk.inj (Except.ok.inj hrun)
    exact ⟨[], rfl, rfl⟩
  | cons a l ih =>
    obtain ⟨ha, hl⟩ := List.forall_mem_cons.mp h
    rw [List.mapM_cons] at hrun
    obtain ⟨y, t, hy, hrest⟩ := Slot.Takes.run_bind_eq_ok_iff.mp hrun
    rw [← map_eq_pure_bind] at hrest
    obtain ⟨ys, hys, rfl⟩ := Slot.Takes.run_map_eq_ok_iff.mp hrest
    obtain ⟨b, rfl, hb⟩ := ha _ _ _ hy
    obtain ⟨bs, rfl, hbs⟩ := ih hl hys
    exact ⟨b :: bs, rfl, by rw [List.map_cons, List.map_cons, hb, hbs]⟩

theorem exists_data_of_trackingFrom_of {self : Struct} {data : self.Data Leaf} {parent : String}
    (htracks : Tracks self.fields versions) (hhandled : self.IsHandled crate versions)
    (hpair : [version, nextVersion] <:+: versions)
    (hconvert : ∀ status status' spec,
      (convertFields crate .upgrade version nextVersion (self.paths nextVersion parent)
        (self.valueIn version.inner data) (self.impls crate .upgrade version nextVersion)).run
          status = .ok (spec, status') →
      ∃ data' : self.Data Leaf, spec = self.valueIn nextVersion.inner data' ∧
        self.valueIn version.inner data' = self.valueIn version.inner data ∧
        ∀ cell ∈ self.cells nextVersion.inner data',
          defaultValue crate version nextVersion cell = cell.2)
    {status status' : ChangedValues Yaml} {result : StructValue Leaf}
    (hrun : (self.trackingFrom crate .upgrade version nextVersion (self.valueIn version.inner data)
      parent).run status = .ok (result, status')) :
    ∃ data' : self.Data Leaf, result = self.valueIn nextVersion.inner data' ∧
      self.valueIn version.inner data' = self.valueIn version.inner data := by
  rw [trackingFrom_upgrade htracks hpair] at hrun
  obtain ⟨spec, t, hspec, hremovals⟩ := Slot.Takes.run_bind_eq_ok_iff.mp hrun
  obtain ⟨data', rfl, hversion, -⟩ := hconvert _ _ _ hspec
  obtain ⟨data'', rfl, hversion'⟩ := exists_data_of_runRemovals (Struct.ready htracks hpair parent)
    (htracks.nodup nextVersion (mem_of_infix_pair hpair).2) hhandled hpair (by
      split_ifs
      · rintro r ⟨⟩
        rfl
      · rintro r ⟨⟩) hremovals
  exact ⟨data'', rfl, hversion'.trans hversion⟩

/-- The conversions of the fields return default values of the added fields. -/
theorem exists_data_of_convertFields {self : Struct} {data : self.Data Leaf}
    {value : StructValue Leaf} (hready : Ready version nextVersion self.fields paths)
    (hnested : self.NestedTrack versions) (hhandled : self.IsHandled crate versions)
    (hpair : [version, nextVersion] <:+: versions)
    (hvalue : ∀ cell ∈ self.cells version.inner data,
      ∀ ident ∈ cell.1.nameIn version.inner, value.lookup ident = some cell.2)
    {status status' : ChangedValues Yaml} {spec : StructValue Leaf}
    (hrun : (convertFields crate .upgrade version nextVersion paths value
      (self.impls crate .upgrade version nextVersion)).run status = .ok (spec, status')) :
    ∃ data' : self.Data Leaf, spec = self.valueIn nextVersion.inner data' ∧
      self.valueIn version.inner data' = self.valueIn version.inner data ∧
      ∀ cell ∈ self.cells nextVersion.inner data',
        defaultValue crate version nextVersion cell = cell.2 := by
  induction self generalizing paths value status status' spec with
  | nil =>
    obtain ⟨rfl, -⟩ := Prod.mk.inj (Except.ok.inj hrun)
    exact ⟨data, rfl, rfl, by simp [cells]⟩
  | leaf field rest ih =>
    obtain ⟨hcell, hcells⟩ := List.forall_mem_cons.mp hvalue
    have hcrosses := hready.crosses field List.mem_cons_self
    have hfrom := hcrosses.fromImpl .upgrade
    rw [impls] at hrun
    -- a leaf: only an added one gets data of its own, its default
    cases hcrossing : field.crossing version nextVersion with
    | absent =>
      rw [hcrossing] at hcrosses hfrom
      rw [convertFields_cons_of_none hfrom] at hrun
      obtain ⟨data', rfl, hversion, hdefault⟩ := ih hready.tail hnested.2 hhandled.2 hcells hrun
      refine ⟨(data.1, data'), (emit_cons_of_none hcrosses.nameIn_next).symm,
        emit_cons_congr hversion, List.forall_mem_cons.mpr ⟨?_, hdefault⟩⟩
      rw [defaultValue, hcrossing]
    | added ident defaultFn =>
      rw [hcrossing] at hcrosses hfrom
      rw [convertFields_cons_of_default hfrom] at hrun
      obtain ⟨spec, hspec, rfl⟩ := Slot.Takes.run_map_eq_ok_iff.mp hrun
      obtain ⟨data', rfl, hversion, hdefault⟩ := ih hready.tail hnested.2 hhandled.2 hcells hspec
      obtain ⟨leaf, hleaf⟩ := (hhandled.1 version nextVersion hpair ident defaultFn
        hcrossing).default
      refine ⟨(leaf, data'), ?_, ?_, List.forall_mem_cons.mpr ⟨?_, hdefault⟩⟩
      · rw [hleaf]
        exact (emit_cons_of_some hcrosses.nameIn_next).symm
      · exact ((emit_cons_of_none hcrosses.nameIn_version).trans hversion).trans
          (emit_cons_of_none hcrosses.nameIn_version).symm
      · rw [defaultValue, hcrossing]
        exact hleaf
    | kept old next =>
      rw [hcrossing] at hcrosses hfrom
      have hx := hcell old hcrosses.nameIn_version
      rw [convertFields_cons_of_leaf hnested.1 hfrom hx] at hrun
      obtain ⟨spec, hspec, rfl⟩ := Slot.Takes.run_map_eq_ok_iff.mp hrun
      obtain ⟨data', rfl, hversion, hdefault⟩ := ih hready.tail hnested.2 hhandled.2 hcells hspec
      refine ⟨(data.1, data'), (emit_cons_of_some hcrosses.nameIn_next).symm,
        emit_cons_congr hversion, List.forall_mem_cons.mpr ⟨?_, hdefault⟩⟩
      rw [defaultValue, hcrossing]
  -- a nested field: the impls of its structs read their parts of the tracked changes
  | nested field struct rest ihs ih =>
    obtain ⟨hcell, hcells⟩ := List.forall_mem_cons.mp hvalue
    have hcrosses := hready.crosses field List.mem_cons_self
    have hfrom := hcrosses.fromImpl .upgrade
    rw [impls] at hrun
    cases hcrossing : field.crossing version nextVersion with
    | absent =>
      rw [hcrossing] at hcrosses hfrom
      rw [convertFields_cons_of_none hfrom] at hrun
      obtain ⟨data', rfl, hversion, hdefault⟩ :=
        ih hready.tail hnested.2.2.2 hhandled.2.2 hcells hrun
      refine ⟨(data.1, data'), (emit_cons_of_none hcrosses.nameIn_next).symm,
        emit_cons_congr hversion, List.forall_mem_cons.mpr ⟨?_, hdefault⟩⟩
      rw [defaultValue, hcrossing]
    | added ident defaultFn =>
      rw [hcrossing] at hcrosses hfrom
      rw [convertFields_cons_of_default hfrom] at hrun
      obtain ⟨spec, hspec, rfl⟩ := Slot.Takes.run_map_eq_ok_iff.mp hrun
      obtain ⟨data', rfl, hversion, hdefault⟩ :=
        ih hready.tail hnested.2.2.2 hhandled.2.2 hcells hspec
      obtain ⟨values, hadmits, hvalues⟩ := (hhandled.1 version nextVersion hpair ident defaultFn
        hcrossing).default
      refine ⟨(⟨values, hadmits⟩, data'), ?_, ?_, List.forall_mem_cons.mpr ⟨?_, hdefault⟩⟩
      · rw [hvalues]
        exact (emit_cons_of_some hcrosses.nameIn_next).symm
      · exact ((emit_cons_of_none hcrosses.nameIn_version).trans hversion).trans
          (emit_cons_of_none hcrosses.nameIn_version).symm
      · rw [defaultValue, hcrossing]
        exact hvalues
    | kept old next =>
      rw [hcrossing] at hcrosses hfrom
      have hx := hcell old hcrosses.nameIn_version
      have hlookup := hready.exists_lookup field List.mem_cons_self .upgrade
      rw [hcrossing] at hlookup
      obtain ⟨path, hpath⟩ := hlookup (jsonPathIdent next)
        (by simp [VersionedField.pathIdents, hnested.1])
      have hlength : Admits field.hint
          (data.1.1.map fun value => struct.valueIn version.inner value).length := by
        rw [List.length_map]
        exact data.1.2
      rw [convertFields_cons_of_nested hnested.1 hfrom hlength hx hpath, List.mapM_map] at hrun
      -- the run, taken apart into the nested values and the other fields
      obtain ⟨y, t, hy, hrest⟩ := Slot.Takes.run_bind_eq_ok_iff.mp hrun
      obtain ⟨ys, hys, rfl⟩ := Slot.Takes.run_map_eq_ok_iff.mp hy
      obtain ⟨spec, hspec, rfl⟩ := Slot.Takes.run_map_eq_ok_iff.mp hrest
      obtain ⟨data', rfl, hversion, hdefault⟩ :=
        ih hready.tail hnested.2.2.2 hhandled.2.2 hcells hspec
      -- every nested value returns defaults, from its own induction hypothesis
      have hstruct : ∀ value ∈ data.1.1, ∀ status status' y,
          (struct.trackingFrom crate .upgrade version nextVersion
            (struct.valueIn version.inner value) path).run status = .ok (y, status') →
          ∃ value', y = struct.valueIn nextVersion.inner value' ∧
            struct.valueIn version.inner value' = struct.valueIn version.inner value := by
        intro value _ status status' y hy
        have hnodup := hnested.2.1.nodup version (mem_of_infix_pair hpair).1
        refine exists_data_of_trackingFrom_of hnested.2.1 hhandled.2.1 hpair ?_ hy
        intro status status' spec hspec
        exact ihs (Struct.ready hnested.2.1 hpair path) hnested.2.2.1 hhandled.2.1
          (fun cell hcell ident hident => lookup_valueIn hnodup hcell hident) hspec
      obtain ⟨values, rfl, hvalues⟩ := exists_map_of_mapM hstruct hys
      -- as many nested values come back as went in
      have hadmits : Admits field.hint values.length := by
        have hlengths := congrArg List.length hvalues
        rw [List.length_map, List.length_map] at hlengths
        rw [hlengths]
        exact data.1.2
      refine ⟨(⟨values, hadmits⟩, data'), (emit_cons_of_some hcrosses.nameIn_next).symm, ?_,
        List.forall_mem_cons.mpr ⟨?_, hdefault⟩⟩
      · have hwrap : wrap field.hint (values.map (struct.valueIn version.inner)) =
            wrap field.hint (data.1.1.map (struct.valueIn version.inner)) :=
          congrArg _ hvalues
        exact ((emit_cons_of_some hcrosses.nameIn_version).trans
          (congrArg₂ (fun x spec => (old, x) :: spec) hwrap hversion)).trans
            (emit_cons_of_some hcrosses.nameIn_version).symm
      · rw [defaultValue, hcrossing]

end Struct

end Values

/-! ### Upgrades -/

section Upgrade

variable [Lowercase] {crate : Crate Leaf Yaml} {version nextVersion : VersionDefinition}
  {paths : List (Ident × String)} {versions : List VersionDefinition}

theorem isDefault_iff {cells : List (VersionedField × SpecValue Leaf)} :
    IsDefault (addedFields crate version nextVersion paths cells) ↔
      ∀ cell ∈ cells, defaultValue crate version nextVersion cell = cell.2 := by
  constructor
  · intro h cell hcell
    match hcrossing : cell.1.crossing version nextVersion with
    | .absent => rw [defaultValue, hcrossing]
    | .kept old next => rw [defaultValue, hcrossing]
    | .added ident defaultFn =>
      have hvalue := h _ (mem_addedFields_iff.mpr ⟨cell, hcell, ident, defaultFn, hcrossing, rfl⟩)
      rw [defaultValue, hcrossing]
      exact hvalue.symm
  · intro h field hfield
    obtain ⟨cell, hcell, ident, defaultFn, hcrossing, rfl⟩ := mem_addedFields_iff.mp hfield
    have hvalue := h cell hcell
    rw [defaultValue, hcrossing] at hvalue
    exact hvalue.symm

theorem emit_defaultValue {cells : List (VersionedField × SpecValue Leaf)}
    (h : IsDefault (addedFields crate version nextVersion paths cells)) (v : Version) :
    emit v (cells.map fun cell => (cell.1, defaultValue crate version nextVersion cell)) =
      emit v cells := by
  have hmap : cells.map (fun cell => (cell.1, defaultValue crate version nextVersion cell)) =
      cells := by
    refine (List.map_congr_left fun cell hcell => ?_).trans (List.map_id cells)
    rw [isDefault_iff.mp h cell hcell]
    rfl
  rw [hmap]

namespace Struct

variable {self : Struct} {data data' : self.Data Leaf}

/-- Values with the same fields have default values both or none of them. -/
theorem isDefault_of_valueIn_eq
    (hcrosses : ∀ field ∈ self.fields,
      field.Crosses version nextVersion (field.crossing version nextVersion))
    (hnodup : (self.fields.filterMap fun field => field.nameIn nextVersion.inner).Nodup)
    (h : self.valueIn nextVersion.inner data = self.valueIn nextVersion.inner data')
    (hdefault : ∀ cell ∈ self.cells nextVersion.inner data',
      defaultValue crate version nextVersion cell = cell.2) :
    IsDefault (addedFields crate version nextVersion paths
      (self.cells nextVersion.inner data)) := by
  intro field hfield
  obtain ⟨cell, hcell, ident, defaultFn, hcrossing, rfl⟩ := mem_addedFields_iff.mp hfield
  have hname := (hcrosses cell.1 (fst_mem_fields hcell)).nameIn_next
  rw [hcrossing] at hname
  have hmem : cell.1 ∈ (self.cells nextVersion.inner data').map Prod.fst := by
    rw [map_fst_cells]
    exact fst_mem_fields hcell
  obtain ⟨cell', hcell', heq⟩ := List.mem_map.mp hmem
  have hlookup := lookup_valueIn hnodup hcell hname
  rw [h, lookup_valueIn hnodup hcell' (heq ▸ hname)] at hlookup
  have hvalue := hdefault cell' hcell'
  rw [defaultValue, heq, hcrossing] at hvalue
  exact (hvalue.trans (Option.some.inj hlookup)).symm

theorem takes_trackingFrom_of {parent : String} (htracks : Tracks self.fields versions)
    (hpair : [version, nextVersion] <:+: versions)
    (hshape : ∀ status status' spec,
      (convertFields crate .upgrade version nextVersion (self.paths nextVersion parent)
        (self.valueIn version.inner data) (self.impls crate .upgrade version nextVersion)).run
          status = .ok (spec, status') →
      ∃ data' : self.Data Leaf, spec = self.valueIn nextVersion.inner data' ∧
        self.valueIn version.inner data' = self.valueIn version.inner data ∧
        ∀ cell ∈ self.cells nextVersion.inner data',
          defaultValue crate version nextVersion cell = cell.2)
    (hconvert : Slot.Takes (upgradesSlot nextVersion.inner.display) IsDefault
      (IsRestoredBy crate nextVersion)
      (convertFields crate .upgrade version nextVersion (self.paths nextVersion parent)
        (self.valueIn version.inner data) (self.impls crate .upgrade version nextVersion))
      (self.nestedInstances crate version nextVersion .upgrade (self.paths nextVersion parent) data)
      (emit nextVersion.inner ((self.cells nextVersion.inner data).map fun cell =>
        (cell.1, defaultValue crate version nextVersion cell)))) :
    Slot.Takes (upgradesSlot nextVersion.inner.display) IsDefault (IsRestoredBy crate nextVersion)
      (self.trackingFrom crate .upgrade version nextVersion (self.valueIn version.inner data)
        parent)
      (self.instances crate version nextVersion .upgrade data parent)
      (self.valueIn nextVersion.inner data) := by
  have hcells := self.map_fst_cells nextVersion.inner data
  have hready : Ready version nextVersion ((self.cells nextVersion.inner data).map Prod.fst)
      (self.paths nextVersion parent) := by
    rw [hcells]
    exact Struct.ready htracks hpair parent
  have hnodup := htracks.nodup nextVersion (mem_of_infix_pair hpair).2
  -- the impl removes entries iff the version adds a field
  have hnil : addedFields crate version nextVersion (self.paths nextVersion parent)
      (self.cells nextVersion.inner data) = [] ↔ needsTracking self.fields nextVersion = false := by
    rw [← hcells]
    exact addedFields_eq_nil_iff hready.crosses
  rw [trackingFrom_upgrade htracks hpair, instances, visit]
  -- without an added field the impl only converts the fields; otherwise it takes its entries
  by_cases hadded : addedFields crate version nextVersion (self.paths nextVersion parent)
      (self.cells nextVersion.inner data) = []
  · have hdefault : IsDefault (addedFields crate version nextVersion (self.paths nextVersion parent)
        (self.cells nextVersion.inner data)) := by
      rw [hadded]
      exact fun field hfield => absurd hfield List.not_mem_nil
    rw [emit_defaultValue hdefault] at hconvert
    have hnone : runRemovals crate nextVersion (self.paths nextVersion parent) none = pure := rfl
    rw [if_pos hadded, hnil.mp hadded, if_neg Bool.false_ne_true, hnone, bind_pure]
    exact hconvert
  · rw [if_neg hadded, if_pos (Bool.not_eq_false _ ▸ mt hnil.mpr hadded)]
    refine hconvert.andTake ?_ ?_ ?_ ?_ ?_
    · intro status status' hrun
      -- the converted fields hold defaults only
      obtain ⟨data', heq, -, hdefault⟩ := hshape _ _ _ hrun
      exact isDefault_of_valueIn_eq (htracks.crosses hpair) hnodup heq hdefault
    · exact fun hdefault => emit_defaultValue hdefault _
    · exact fun status spec hstatus => run_runRemovals_of_none hstatus
    · intro status changes hstatus spec result status' hrun
      -- every arm meets a path that it knows
      rw [run_runRemovals_of_some hstatus, ← hcells, run_foldlM_runArms_iff hready] at hrun
      exact hrun.2.2.symm
    · intro status changes hstatus
      rw [run_runRemovals_of_some hstatus, ← hcells]
      exact run_foldlM_eq_iff_isRestoredBy hready (hcells.symm ▸ hnodup)

/-- The conversions of the fields share the tracked changes. -/
theorem takes_convertFields {value : StructValue Leaf}
    (hready : Ready version nextVersion self.fields paths)
    (hnested : self.NestedTrack versions) (hhandled : self.IsHandled crate versions)
    (hpair : [version, nextVersion] <:+: versions)
    (hvalue : ∀ cell ∈ self.cells version.inner data,
      ∀ ident ∈ cell.1.nameIn version.inner, value.lookup ident = some cell.2) :
    Slot.Takes (upgradesSlot nextVersion.inner.display) IsDefault (IsRestoredBy crate nextVersion)
      (convertFields crate .upgrade version nextVersion paths value
        (self.impls crate .upgrade version nextVersion))
      (self.nestedInstances crate version nextVersion .upgrade paths data)
      (emit nextVersion.inner ((self.cells nextVersion.inner data).map fun cell =>
        (cell.1, defaultValue crate version nextVersion cell))) := by
  -- what a struct holds determines its fields
  have hcons (ident : Ident) : Function.Injective2 fun (x : SpecValue Leaf)
      (spec : StructValue Leaf) => (ident, x) :: spec := by
    intro x x' spec spec' heq
    obtain ⟨hhead, htail⟩ := List.cons.inj heq
    exact ⟨(Prod.mk.inj hhead).2, htail⟩
  induction self generalizing paths value with
  | nil => exact Slot.Takes.pure []
  | leaf field rest ih =>
    obtain ⟨hcell, hcells⟩ := List.forall_mem_cons.mp hvalue
    have hrest := ih hready.tail hnested.2 hhandled.2 hcells
    have hcrosses := hready.crosses field List.mem_cons_self
    have hfrom := hcrosses.fromImpl .upgrade
    rw [impls, nestedInstances, cells, List.map_cons]
    cases hcrossing : field.crossing version nextVersion with
    | absent =>
      rw [hcrossing] at hcrosses hfrom
      rw [convertFields_cons_of_none hfrom, emit_cons_of_none hcrosses.nameIn_next]
      exact hrest
    | added ident defaultFn =>
      rw [hcrossing] at hcrosses hfrom
      rw [convertFields_cons_of_default hfrom, emit_cons_of_some hcrosses.nameIn_next, defaultValue,
        hcrossing]
      exact hrest.map fun _ _ _ _ heq => (List.cons.inj heq).2
    | kept old next =>
      rw [hcrossing] at hcrosses hfrom
      have hx := hcell old hcrosses.nameIn_version
      rw [convertFields_cons_of_leaf hnested.1 hfrom hx, emit_cons_of_some hcrosses.nameIn_next,
        defaultValue, hcrossing]
      exact hrest.map fun _ _ _ _ heq => (List.cons.inj heq).2
  -- a nested field shares the slot of the tracked changes with the fields after it
  | nested field struct rest ihs ih =>
    obtain ⟨hcell, hcells⟩ := List.forall_mem_cons.mp hvalue
    have hrest := ih hready.tail hnested.2.2.2 hhandled.2.2 hcells
    have hcrosses := hready.crosses field List.mem_cons_self
    have hfrom := hcrosses.fromImpl .upgrade
    rw [impls, nestedInstances, cells, List.map_cons]
    cases hcrossing : field.crossing version nextVersion with
    | absent =>
      rw [hcrossing] at hcrosses hfrom
      rw [convertFields_cons_of_none hfrom, emit_cons_of_none hcrosses.nameIn_next]
      exact hrest
    | added ident defaultFn =>
      rw [hcrossing] at hcrosses hfrom
      rw [convertFields_cons_of_default hfrom, emit_cons_of_some hcrosses.nameIn_next, defaultValue,
        hcrossing]
      exact hrest.map fun _ _ _ _ heq => (List.cons.inj heq).2
    | kept old next =>
      rw [hcrossing] at hcrosses hfrom
      have hx := hcell old hcrosses.nameIn_version
      have hlookup := hready.exists_lookup field List.mem_cons_self .upgrade
      rw [hcrossing] at hlookup
      obtain ⟨path, hpath⟩ := hlookup (jsonPathIdent next)
        (by simp [VersionedField.pathIdents, hnested.1])
      have hlength (v : Version) :
          Admits field.hint (data.1.1.map fun value => struct.valueIn v value).length := by
        rw [List.length_map]
        exact data.1.2
      -- every nested value takes its own entries, from its own induction hypothesis
      have hstruct : ∀ value ∈ data.1.1, Slot.Takes (upgradesSlot nextVersion.inner.display)
          IsDefault (IsRestoredBy crate nextVersion)
          (struct.trackingFrom crate .upgrade version nextVersion
            (struct.valueIn version.inner value) path)
          (struct.instances crate version nextVersion .upgrade value path)
          (struct.valueIn nextVersion.inner value) := by
        intro value _
        have hnodup := hnested.2.1.nodup version (mem_of_infix_pair hpair).1
        have hlookup (cell : VersionedField × SpecValue Leaf)
            (hcell : cell ∈ struct.cells version.inner value) (ident : Ident)
            (hident : ident ∈ cell.1.nameIn version.inner) :=
          lookup_valueIn hnodup hcell hident
        have hready := Struct.ready hnested.2.1 hpair path
        refine takes_trackingFrom_of hnested.2.1 hpair ?_
          (ihs hready hnested.2.2.1 hhandled.2.1 hlookup)
        exact fun _ _ _ hspec =>
          exists_data_of_convertFields hready hnested.2.2.1 hhandled.2.1 hpair hlookup hspec
      -- all the nested values, one after the other
      have hvalues := (Slot.Takes.mapM hstruct).map (f := wrap field.hint)
        fun _ _ values hrun heq => by
          refine wrap_injective ?_ (hlength nextVersion.inner) heq
          rw [length_of_run_mapM hrun]
          exact data.1.2
      -- and then the other fields
      have hbind := hvalues.bind hrest (hcons next)
      rw [convertFields_cons_of_nested hnested.1 hfrom (hlength version.inner) hx hpath,
        List.mapM_map, emit_cons_of_some hcrosses.nameIn_next, defaultValue, hcrossing]
      simp only [hpath, Option.getD_some]
      exact hbind

/-- **Upgrades** share the tracked changes for the version. -/
theorem takes_trackingFrom (htracked : self.IsTracked versions)
    (hhandled : self.IsHandled crate versions) (hpair : [version, nextVersion] <:+: versions)
    (data : self.Data Leaf) (parent : String) :
    Slot.Takes (upgradesSlot nextVersion.inner.display) IsDefault (IsRestoredBy crate nextVersion)
      (self.trackingFrom crate .upgrade version nextVersion (self.valueIn version.inner data)
        parent)
      (self.instances crate version nextVersion .upgrade data parent)
      (self.valueIn nextVersion.inner data) := by
  have hready := Struct.ready htracked.1 hpair parent
  have hnodup := htracked.1.nodup version (mem_of_infix_pair hpair).1
  have hlookup (cell : VersionedField × SpecValue Leaf)
      (hcell : cell ∈ self.cells version.inner data) (ident : Ident)
      (hident : ident ∈ cell.1.nameIn version.inner) :=
    lookup_valueIn hnodup hcell hident
  refine takes_trackingFrom_of htracked.1 hpair ?_
    (takes_convertFields hready htracked.2 hhandled hpair hlookup)
  exact fun _ _ _ hspec =>
    exists_data_of_convertFields hready htracked.2 hhandled hpair hlookup hspec

/-- An upgrade keeps the fields of the earlier version. -/
theorem exists_data_of_trackingFrom (htracked : self.IsTracked versions)
    (hhandled : self.IsHandled crate versions) (hpair : [version, nextVersion] <:+: versions)
    {parent : String} {status status' : ChangedValues Yaml} {result : StructValue Leaf}
    (hrun : (self.trackingFrom crate .upgrade version nextVersion (self.valueIn version.inner data)
      parent).run status = .ok (result, status')) :
    ∃ data' : self.Data Leaf, result = self.valueIn nextVersion.inner data' ∧
      self.valueIn version.inner data' = self.valueIn version.inner data := by
  have hnodup := htracked.1.nodup version (mem_of_infix_pair hpair).1
  refine exists_data_of_trackingFrom_of htracked.1 hhandled hpair ?_ hrun
  exact fun _ _ _ hspec => exists_data_of_convertFields (Struct.ready htracked.1 hpair parent)
    htracked.2 hhandled hpair (fun cell hcell ident hident => lookup_valueIn hnodup hcell hident)
    hspec

end Struct

end Upgrade

end VersionedMacros

end StackableOperator
