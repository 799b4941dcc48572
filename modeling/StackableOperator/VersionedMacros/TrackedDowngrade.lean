import Mathlib
import StackableOperator.VersionedMacros.TrackedConversion

/-!
# Tracked downgrades

A downgrade converts a value to an earlier version and pushes the values of all added fields, for
the later version (`Struct.pushes_trackingFrom`). The impl of a struct pushes its own values before
the conversions of its fields push theirs.
-/

namespace StackableOperator

namespace VersionedMacros

open IterMap (get?)

variable {Leaf : RustType → Type} {Yaml : Type}

/-! ### Computations that push changes -/

/-- A computation that pushes changes for a version. -/
def Pushes {α : Type} (version : String) (c : Tracking Yaml α) (changes : List (ChangedValue Yaml))
    (x : α) : Prop :=
  ∀ status, c.run status = .ok (x, status.pushAll version changes)

namespace Pushes

variable {α β : Type} {version : String} {c : Tracking Yaml α} {x : α}
  {changes changes' : List (ChangedValue Yaml)}

theorem pure (x : α) : Pushes version (pure x : Tracking Yaml α) [] x :=
  fun _ => rfl

theorem map (h : Pushes version c changes x) (f : α → β) :
    Pushes version (f <$> c) changes (f x) := by
  intro status
  rw [StateT.run_map, h status]
  rfl

theorem bind (h : Pushes version c changes x) {f : α → Tracking Yaml β} {y : β}
    (h' : Pushes version (f x) changes' y) : Pushes version (c >>= f) (changes ++ changes') y := by
  intro status
  rw [StateT.run_bind, h status, ChangedValues.pushAll_append]
  exact h' _

/-- One computation after the other. -/
theorem bind_map {γ : Type} {d : Tracking Yaml β} {y : β} (hc : Pushes version c changes x)
    (hd : Pushes version d changes' y) (f : α → β → γ) :
    Pushes version (c >>= fun a => f a <$> d) (changes ++ changes') (f x y) :=
  hc.bind (hd.map (f x))

theorem mapM {δ : Type} {c : δ → Tracking Yaml α} {changes : δ → List (ChangedValue Yaml)}
    {x : δ → α} {l : List δ} (h : ∀ a ∈ l, Pushes version (c a) (changes a) (x a)) :
    Pushes version (l.mapM c) (l.flatMap changes) (l.map x) := by
  induction l with
  | nil => exact Pushes.pure []
  | cons a l ih =>
    obtain ⟨ha, hl⟩ := List.forall_mem_cons.mp h
    have hbind := ha.bind (f := fun b => (b :: ·) <$> l.mapM c) ((ih hl).map (x a :: ·))
    simpa only [List.mapM_cons, List.flatMap_cons, List.map_cons, map_eq_pure_bind] using hbind

end Pushes

section Downgrade

variable [Lowercase] {crate : Crate Leaf Yaml} {version nextVersion : VersionDefinition}
  {paths : List (Ident × String)} {versions : List VersionDefinition}

omit [Lowercase] in
theorem changesOf_visit_downgrade (added : List (AddedField Leaf))
    (nested : List (List (AddedField Leaf))) :
    changesOf crate (visit .downgrade added nested) =
      added.filterMap (AddedField.change crate) ++ changesOf crate nested := by
  rw [visit]
  split_ifs with h
  · rw [h]
    rfl
  · rfl

theorem insertion_of_ne {crossing : Crossing}
    (h : ∀ ident defaultFn, crossing ≠ .added ident defaultFn) : crossing.insertion = none := by
  rcases crossing with _ | ⟨ident, defaultFn⟩ | _
  · rfl
  · exact absurd rfl (h ident defaultFn)
  · rfl

omit [Lowercase] in
theorem pushes_runInsertion {value : StructValue Leaf} {insertion : StatusInsertion} {path : String}
    (hpath : paths.lookup insertion.jsonPath = some path) {field : SpecValue Leaf}
    (hfield : value.lookup insertion.ident = some field) {yaml : Yaml}
    (hyaml : crate.toValue field = .ok yaml) :
    Pushes version.inner.display
      (runInsertion crate version.inner.display paths value insertion) [⟨path, yaml⟩] () := by
  intro status
  simp only [runInsertion, lookupIdent, hpath, hfield, hyaml, unwrap, pure_bind]
  rfl

theorem pushes_forM {cells : List (VersionedField × SpecValue Leaf)} {value : StructValue Leaf}
    (hready : Ready version nextVersion (cells.map Prod.fst) paths)
    (hvalue : ∀ cell ∈ cells, ∀ ident ∈ cell.1.nameIn nextVersion.inner,
      value.lookup ident = some cell.2)
    (hto : ∀ field ∈ addedFields crate version nextVersion paths cells,
      ∃ yaml, crate.toValue field.value = .ok yaml) :
    Pushes nextVersion.inner.display
      (((cells.map Prod.fst).filterMap fun field =>
        (field.crossing version nextVersion).insertion).forM
          (runInsertion crate nextVersion.inner.display paths value))
      ((addedFields crate version nextVersion paths cells).filterMap (AddedField.change crate))
      () := by
  induction cells with
  | nil => exact Pushes.pure ()
  | cons cell cells ih =>
    obtain ⟨hcell, hcells⟩ := List.forall_mem_cons.mp hvalue
    have hih := ih hready.tail hcells
    rw [List.map_cons, List.filterMap_cons]
    -- only an added field has an insertion
    by_cases hadded : ∃ ident defaultFn,
        cell.1.crossing version nextVersion = .added ident defaultFn
    · obtain ⟨ident, defaultFn, hcrossing⟩ := hadded
      have hcrosses := hready.crosses cell.1 List.mem_cons_self
      have hlookup := hready.exists_lookup cell.1 List.mem_cons_self .downgrade
      rw [hcrossing] at hcrosses hlookup
      obtain ⟨path, hpath⟩ := hlookup (jsonPathIdent ident) (by simp [VersionedField.pathIdents])
      rw [addedFields_cons_of_added hcrossing, List.forall_mem_cons] at hto
      obtain ⟨⟨yaml, hyaml⟩, hto⟩ := hto
      -- its value is pushed under its path
      have hinsertion : Pushes nextVersion.inner.display
          (runInsertion crate nextVersion.inner.display paths value ⟨jsonPathIdent ident, ident⟩)
          [⟨path, yaml⟩] () :=
        pushes_runInsertion hpath (hcell ident hcrosses.nameIn_next) hyaml
      rw [addedFields_cons_of_added hcrossing, List.filterMap_cons, hcrossing]
      simp only [AddedField.change, hyaml, hpath, Option.getD_some]
      exact hinsertion.bind (hih hto)
    · have hne : ∀ ident defaultFn, cell.1.crossing version nextVersion ≠
          .added ident defaultFn := fun ident defaultFn h => hadded ⟨ident, defaultFn, h⟩
      rw [addedFields_cons_of_ne hne] at hto ⊢
      rw [insertion_of_ne hne]
      exact hih hto

theorem pushes_runInserts {cells : List (VersionedField × SpecValue Leaf)}
    {value : StructValue Leaf} (hready : Ready version nextVersion (cells.map Prod.fst) paths)
    (hvalue : ∀ cell ∈ cells, ∀ ident ∈ cell.1.nameIn nextVersion.inner,
      value.lookup ident = some cell.2)
    (hto : ∀ field ∈ addedFields crate version nextVersion paths cells,
      ∃ yaml, crate.toValue field.value = .ok yaml) :
    Pushes nextVersion.inner.display
      (runInserts crate paths value (if needsTracking (cells.map Prod.fst) nextVersion then
          some ⟨nextVersion.inner.display, (cells.map Prod.fst).filterMap fun field =>
            (field.crossing version nextVersion).insertion⟩
        else none))
      ((addedFields crate version nextVersion paths cells).filterMap (AddedField.change crate))
      () := by
  match hadded : addedFields crate version nextVersion paths cells with
  | [] =>
    rw [(addedFields_eq_nil_iff hready.crosses).mp hadded]
    exact Pushes.pure ()
  | field :: fields =>
    have hneeds : needsTracking (cells.map Prod.fst) nextVersion = true := by
      rw [← Bool.not_eq_false]
      intro hneeds
      have hnil : addedFields crate version nextVersion paths cells = [] :=
        (addedFields_eq_nil_iff hready.crosses).mpr hneeds
      exact List.cons_ne_nil field fields (hadded.symm.trans hnil)
    have hforM := pushes_forM hready hvalue hto
    obtain ⟨yaml, hyaml⟩ := hto field (hadded ▸ List.mem_cons_self)
    rw [hadded] at hforM
    have hne : (field :: fields).filterMap (AddedField.change crate) ≠ [] := by
      simp [AddedField.change, hyaml]
    intro status
    rw [hneeds, if_pos rfl, runInserts, StateT.run_bind]
    refine (hforM (status.orDefault nextVersion.inner.display)).trans ?_
    rw [ChangedValues.pushAll_orDefault hne]

namespace Struct

/-- Values of added fields can be tracked. -/
theorem exists_toValue {self : Struct} {data : self.Data Leaf}
    (hhandled : self.IsHandled crate versions) (hpair : [version, nextVersion] <:+: versions) :
    ∀ field ∈ addedFields crate version nextVersion paths (self.cells nextVersion.inner data),
      ∃ yaml, crate.toValue field.value = .ok yaml ∧
        crate.fromValue nextVersion.inner field.ty yaml = .ok field.value := by
  have hcell {field : VersionedField} {x : SpecValue Leaf}
      {cells : List (VersionedField × SpecValue Leaf)} {IsValue : SpecValue Leaf → Prop}
      (hhandles : ∀ ident defaultFn, field.crossing version nextVersion = .added ident defaultFn →
        crate.Handles nextVersion field.ty defaultFn IsValue) (hx : IsValue x)
      (hcells : ∀ added ∈ addedFields crate version nextVersion paths cells,
        ∃ yaml, crate.toValue added.value = .ok yaml ∧
          crate.fromValue nextVersion.inner added.ty yaml = .ok added.value) :
      ∀ added ∈ addedFields crate version nextVersion paths ((field, x) :: cells),
        ∃ yaml, crate.toValue added.value = .ok yaml ∧
          crate.fromValue nextVersion.inner added.ty yaml = .ok added.value := by
    by_cases hadded : ∃ ident defaultFn, field.crossing version nextVersion = .added ident defaultFn
    · obtain ⟨ident, defaultFn, hcrossing⟩ := hadded
      rw [addedFields_cons_of_added hcrossing, List.forall_mem_cons]
      exact ⟨(hhandles ident defaultFn hcrossing).toValue x hx, hcells⟩
    · rw [addedFields_cons_of_ne fun ident defaultFn h => hadded ⟨ident, defaultFn, h⟩]
      exact hcells
  induction self with
  | nil => exact fun _ h => absurd h List.not_mem_nil
  | leaf field rest ih =>
    exact hcell (hhandled.1 version nextVersion hpair) ⟨data.1, rfl⟩ (ih hhandled.2)
  | nested field struct rest _ ih =>
    refine hcell (hhandled.1 version nextVersion hpair) ?_ (ih hhandled.2.2)
    exact ⟨data.1.1, data.1.2, rfl⟩

/-- The impl of a downgrade pushes the values of the added fields before the conversions of the
fields push theirs. -/
theorem pushes_trackingFrom_of {self : Struct} {data : self.Data Leaf} {parent : String}
    (htracks : Tracks self.fields versions) (hhandled : self.IsHandled crate versions)
    (hpair : [version, nextVersion] <:+: versions)
    (hconvert : Pushes nextVersion.inner.display
      (convertFields crate .downgrade version nextVersion (self.paths nextVersion parent)
        (self.valueIn nextVersion.inner data) (self.impls crate .downgrade version nextVersion))
      (changesOf crate (self.nestedInstances crate version nextVersion .downgrade
        (self.paths nextVersion parent) data))
      (self.valueIn version.inner data)) :
    Pushes nextVersion.inner.display
      (self.trackingFrom crate .downgrade version nextVersion
        (self.valueIn nextVersion.inner data) parent)
      (changesOf crate (self.instances crate version nextVersion .downgrade data parent))
      (self.valueIn version.inner data) := by
  have hcells := self.map_fst_cells nextVersion.inner data
  have hready : Ready version nextVersion ((self.cells nextVersion.inner data).map Prod.fst)
      (self.paths nextVersion parent) := by
    rw [hcells]
    exact Struct.ready htracks hpair parent
  have hnodup := htracks.nodup nextVersion (mem_of_infix_pair hpair).2
  -- the values of the added fields have a YAML form
  have hto : ∀ field ∈ addedFields crate version nextVersion (self.paths nextVersion parent)
      (self.cells nextVersion.inner data), ∃ yaml, crate.toValue field.value = .ok yaml := by
    intro field hfield
    obtain ⟨yaml, hyaml, -⟩ := exists_toValue hhandled hpair field hfield
    exact ⟨yaml, hyaml⟩
  -- the insertions, and after them the conversions of the fields
  have hinserts := pushes_runInserts hready
    (fun cell hcell ident hident => lookup_valueIn hnodup hcell hident) hto
  have hremovals := hconvert.bind (Pushes.pure (self.valueIn version.inner data))
  rw [List.append_nil] at hremovals
  rw [hcells] at hinserts
  rw [instances, changesOf_visit_downgrade, trackingFrom, generateTrackingFromImpl, map_fst_impls,
    htracks.generateJsonPaths_eq hpair, htracks.generateTrackingInserts_eq hpair,
    htracks.generateTrackingRemovals_eq hpair]
  simp only [generated, pure_bind]
  exact hinserts.bind hremovals

/-- The conversions of the fields push the values of all added fields in nested values. -/
theorem pushes_convertFields {self : Struct} {data : self.Data Leaf} {value : StructValue Leaf}
    (hready : Ready version nextVersion self.fields paths) (hnested : self.NestedTrack versions)
    (hhandled : self.IsHandled crate versions) (hpair : [version, nextVersion] <:+: versions)
    (hvalue : ∀ cell ∈ self.cells nextVersion.inner data,
      ∀ ident ∈ cell.1.nameIn nextVersion.inner, value.lookup ident = some cell.2) :
    Pushes nextVersion.inner.display
      (convertFields crate .downgrade version nextVersion paths value
        (self.impls crate .downgrade version nextVersion))
      (changesOf crate (self.nestedInstances crate version nextVersion .downgrade paths data))
      (self.valueIn version.inner data) := by
  induction self generalizing paths value with
  | nil => exact Pushes.pure []
  | leaf field rest ih =>
    obtain ⟨hcell, hcells⟩ := List.forall_mem_cons.mp hvalue
    have hrest := ih hready.tail hnested.2 hhandled.2 hcells
    have hcrosses := hready.crosses field List.mem_cons_self
    have hfrom := hcrosses.fromImpl .downgrade
    -- a leaf pushes nothing, the struct above it does
    match hcrossing : field.crossing version nextVersion with
    | .absent =>
      rw [hcrossing] at hcrosses hfrom
      rw [impls, nestedInstances, convertFields_cons_of_none hfrom, valueIn, cells,
        emit_cons_of_none hcrosses.nameIn_version]
      exact hrest
    | .added ident defaultFn =>
      rw [hcrossing] at hcrosses hfrom
      rw [impls, nestedInstances, convertFields_cons_of_none hfrom, valueIn, cells,
        emit_cons_of_none hcrosses.nameIn_version]
      exact hrest
    | .kept old next =>
      rw [hcrossing] at hcrosses hfrom
      have hx := hcell next hcrosses.nameIn_next
      rw [impls, nestedInstances, convertFields_cons_of_leaf hnested.1 hfrom hx, valueIn, cells,
        emit_cons_of_some hcrosses.nameIn_version]
      exact hrest.map _
  | nested field struct rest ihs ih =>
    obtain ⟨hcell, hcells⟩ := List.forall_mem_cons.mp hvalue
    have hrest := ih hready.tail hnested.2.2.2 hhandled.2.2 hcells
    have hcrosses := hready.crosses field List.mem_cons_self
    have hfrom := hcrosses.fromImpl .downgrade
    match hcrossing : field.crossing version nextVersion with
    | .absent =>
      rw [hcrossing] at hcrosses hfrom
      rw [impls, nestedInstances, convertFields_cons_of_none hfrom, valueIn, cells,
        emit_cons_of_none hcrosses.nameIn_version, hcrossing]
      exact hrest
    | .added ident defaultFn =>
      rw [hcrossing] at hcrosses hfrom
      rw [impls, nestedInstances, convertFields_cons_of_none hfrom, valueIn, cells,
        emit_cons_of_none hcrosses.nameIn_version, hcrossing]
      exact hrest
    | .kept old next =>
      rw [hcrossing] at hcrosses hfrom
      have hx := hcell next hcrosses.nameIn_next
      have hlookup := hready.exists_lookup field List.mem_cons_self .downgrade
      rw [hcrossing] at hlookup
      obtain ⟨path, hpath⟩ := hlookup (jsonPathIdent old)
        (by simp [VersionedField.pathIdents, hnested.1])
      have hlength : Admits field.hint
          (data.1.1.map fun value => struct.valueIn nextVersion.inner value).length := by
        rw [List.length_map]
        exact data.1.2
      -- every nested value pushes its own changes, from its own induction hypothesis
      have hstruct : ∀ value ∈ data.1.1, Pushes nextVersion.inner.display
          (struct.trackingFrom crate .downgrade version nextVersion
            (struct.valueIn nextVersion.inner value) path)
          (changesOf crate (struct.instances crate version nextVersion .downgrade value path))
          (struct.valueIn version.inner value) := by
        intro value _
        refine pushes_trackingFrom_of hnested.2.1 hhandled.2.1 hpair ?_
        have hnodup := hnested.2.1.nodup nextVersion (mem_of_infix_pair hpair).2
        exact ihs (Struct.ready hnested.2.1 hpair path) hnested.2.2.1 hhandled.2.1
          fun cell hcell ident hident => lookup_valueIn hnodup hcell hident
      -- all the nested values, one after the other
      have hvalues := (Pushes.mapM hstruct).map (wrap field.hint)
      have hmapM : (data.1.1.map fun value => struct.valueIn nextVersion.inner value).mapM
            (fun value => generateTrackingFromImpl crate .downgrade version nextVersion
              (struct.impls crate .downgrade version nextVersion) value path) =
          data.1.1.mapM fun value => struct.trackingFrom crate .downgrade version nextVersion
            (struct.valueIn nextVersion.inner value) path :=
        List.mapM_map
      -- the changes of the nested values come before those of the other fields
      have hchanges : changesOf crate
          ((data.1.1.flatMap fun value =>
              struct.instances crate version nextVersion .downgrade value path) ++
            rest.nestedInstances crate version nextVersion .downgrade paths data.2) =
          (data.1.1.flatMap fun value =>
              changesOf crate (struct.instances crate version nextVersion .downgrade value path)) ++
            changesOf crate
              (rest.nestedInstances crate version nextVersion .downgrade paths data.2) := by
        rw [changesOf, List.flatMap_append, List.flatMap_assoc]
        rfl
      have hbind := hvalues.bind_map hrest fun y spec => (old, y) :: spec
      rw [← hmapM, ← hchanges] at hbind
      rw [impls, nestedInstances, convertFields_cons_of_nested hnested.1 hfrom hlength hx hpath,
        valueIn, cells, emit_cons_of_some hcrosses.nameIn_version, hcrossing]
      simp only [hpath, Option.getD_some]
      exact hbind

/-- **Downgrades** succeed, and push the values of all added fields. -/
theorem pushes_trackingFrom {self : Struct} {data : self.Data Leaf} (parent : String)
    (htracked : self.IsTracked versions) (hhandled : self.IsHandled crate versions)
    (hpair : [version, nextVersion] <:+: versions) :
    Pushes nextVersion.inner.display
      (self.trackingFrom crate .downgrade version nextVersion
        (self.valueIn nextVersion.inner data) parent)
      (changesOf crate (self.instances crate version nextVersion .downgrade data parent))
      (self.valueIn version.inner data) := by
  have hnodup := htracked.1.nodup nextVersion (mem_of_infix_pair hpair).2
  exact pushes_trackingFrom_of htracked.1 hhandled hpair
    (pushes_convertFields (Struct.ready htracked.1 hpair parent) htracked.2 hhandled hpair
      fun cell hcell ident hident => lookup_valueIn hnodup hcell hident)

end Struct

end Downgrade

end VersionedMacros

end StackableOperator
