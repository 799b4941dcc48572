import Mathlib
import StackableOperator.VersionedMacros.TrackedDowngrade
import StackableOperator.VersionedMacros.TrackedUpgrade

/-!
# Tracked round trips

A downgrade to the version before and an upgrade back restore a value and the tracked changes iff
`Struct.Restores` (`Struct.run_roundTrip_iff`). The conversions down to any earlier version and back
restore an object iff this holds of every version on the way
(`CustomResource.convertAlong_thereAndBack_iff`).
-/

namespace StackableOperator

namespace VersionedMacros

open IterMap (get?)

section Lowercase

variable [Lowercase] {Leaf : RustType → Type} {Yaml : Type} {crate : Crate Leaf Yaml}
  {version nextVersion : VersionDefinition} {versions : List VersionDefinition}

/-! ### Instances -/

omit [Lowercase] in
theorem visit_eq_nil_iff {direction : Direction} {added : List (AddedField Leaf)}
    {nested : List (List (AddedField Leaf))} :
    visit direction added nested = [] ↔ added = [] ∧ nested = [] := by
  unfold visit
  split_ifs with hadded
  · simp [hadded]
  · rcases direction with _ | _ <;> simp [hadded]

theorem addedFields_eq_nil_iff_crossing {paths : List (Ident × String)}
    {cells : List (VersionedField × SpecValue Leaf)} :
    addedFields crate version nextVersion paths cells = [] ↔
      ∀ cell ∈ cells, ∀ ident defaultFn,
        cell.1.crossing version nextVersion ≠ .added ident defaultFn := by
  rw [addedFields, List.filterMap_eq_nil_iff]
  refine forall₂_congr fun cell _ => ?_
  cases cell.1.crossing version nextVersion with
  | absent => simp
  | added ident defaultFn => simp
  | kept old next => simp

namespace Struct

variable {self : Struct}

/-- Whether there are instances depends neither on the direction nor on the paths. -/
theorem nestedInstances_eq_nil_congr {direction direction' : Direction}
    {paths paths' : List (Ident × String)} {data : self.Data Leaf} :
    self.nestedInstances crate version nextVersion direction paths data = [] ↔
      self.nestedInstances crate version nextVersion direction' paths' data = [] := by
  induction self generalizing direction direction' paths paths' with
  | nil => rfl
  | leaf field rest ih => exact ih
  | nested field struct rest ihs ih =>
    rw [nestedInstances, nestedInstances, List.append_eq_nil_iff, List.append_eq_nil_iff]
    refine and_congr ?_ ih
    cases field.crossing version nextVersion with
    | absent => rfl
    | added _ _ => rfl
    | kept old next =>
      dsimp only
      rw [List.flatMap_eq_nil_iff, List.flatMap_eq_nil_iff]
      refine forall₂_congr fun value _ => ?_
      rw [visit_eq_nil_iff, visit_eq_nil_iff, addedFields_eq_nil_iff_crossing,
        addedFields_eq_nil_iff_crossing]
      exact and_congr_right fun _ => ihs

theorem instances_eq_nil_congr {direction direction' : Direction} {data : self.Data Leaf}
    {parent : String} :
    self.instances crate version nextVersion direction data parent = [] ↔
      self.instances crate version nextVersion direction' data parent = [] := by
  rw [instances, instances, visit_eq_nil_iff, visit_eq_nil_iff]
  exact and_congr_right fun _ => nestedInstances_eq_nil_congr

end Struct

/-- An instance with a value that can be tracked. -/
def IsTrackable (crate : Crate Leaf Yaml) (added : List (AddedField Leaf)) : Prop :=
  ∃ field ∈ added, ∃ yaml, crate.toValue field.value = .ok yaml

omit [Lowercase] in
theorem forall_mem_visit {direction : Direction} {added : List (AddedField Leaf)}
    {nested : List (List (AddedField Leaf))}
    (hadded : ∀ field ∈ added, ∃ yaml, crate.toValue field.value = .ok yaml)
    (hnested : ∀ instance' ∈ nested, IsTrackable crate instance') :
    ∀ instance' ∈ visit direction added nested, IsTrackable crate instance' := by
  unfold visit
  split_ifs with hnil
  · exact hnested
  · obtain ⟨field, hfield⟩ := List.exists_mem_of_ne_nil added hnil
    have hown : IsTrackable crate added := ⟨field, hfield, hadded field hfield⟩
    rcases direction with _ | _
    · exact List.forall_mem_append.mpr ⟨hnested, List.forall_mem_singleton.mpr hown⟩
    · exact List.forall_mem_cons.mpr ⟨hown, hnested⟩

namespace Struct

variable {self : Struct} {data : self.Data Leaf}

theorem exists_toValue_of_isHandled {paths : List (Ident × String)}
    (hhandled : self.IsHandled crate versions) (hpair : [version, nextVersion] <:+: versions) :
    ∀ field ∈ addedFields crate version nextVersion paths (self.cells nextVersion.inner data),
      ∃ yaml, crate.toValue field.value = .ok yaml := by
  intro field hfield
  obtain ⟨yaml, hyaml, -⟩ := exists_toValue hhandled hpair field hfield
  exact ⟨yaml, hyaml⟩

theorem isTrackable_of_mem_nestedInstances {direction : Direction}
    {paths : List (Ident × String)} (hhandled : self.IsHandled crate versions)
    (hpair : [version, nextVersion] <:+: versions) :
    ∀ instance' ∈ self.nestedInstances crate version nextVersion direction paths data,
      IsTrackable crate instance' := by
  induction self generalizing paths with
  | nil => exact fun _ h => absurd h List.not_mem_nil
  | leaf field rest ih => exact ih hhandled.2
  | nested field struct rest ihs ih =>
    rw [nestedInstances]
    refine List.forall_mem_append.mpr ⟨?_, ih hhandled.2.2⟩
    cases field.crossing version nextVersion with
    | absent => exact fun _ h => absurd h List.not_mem_nil
    | added _ _ => exact fun _ h => absurd h List.not_mem_nil
    | kept old next =>
      intro instance' hmem
      obtain ⟨value, -, hvisit⟩ := List.mem_flatMap.mp hmem
      exact forall_mem_visit (exists_toValue_of_isHandled hhandled.2.1 hpair)
        (ihs hhandled.2.1) instance' hvisit

/-- Something is tracked for every instance. -/
theorem trackedChanges_eq_nil_iff (hhandled : self.IsHandled crate versions)
    (hpair : [version, nextVersion] <:+: versions) (parent : String) :
    self.trackedChanges crate version nextVersion data parent = [] ↔
      self.instances crate version nextVersion .upgrade data parent = [] := by
  have hcongr : self.instances crate version nextVersion .upgrade data parent = [] ↔
      self.instances crate version nextVersion .downgrade data parent = [] :=
    instances_eq_nil_congr
  rw [hcongr, trackedChanges]
  constructor
  · intro hchanges
    refine List.eq_nil_iff_forall_not_mem.mpr fun instance' hmem => ?_
    obtain ⟨field, hfield, yaml, hyaml⟩ : IsTrackable crate instance' :=
      forall_mem_visit (exists_toValue_of_isHandled hhandled hpair)
        (isTrackable_of_mem_nestedInstances hhandled hpair) instance' hmem
    have hchange : AddedField.change crate field = some ⟨field.jsonPath, yaml⟩ := by
      rw [AddedField.change, hyaml]
    have hmemChanges : (⟨field.jsonPath, yaml⟩ : ChangedValue Yaml) ∈
        changesOf crate (self.instances crate version nextVersion .downgrade data parent) :=
      List.mem_flatMap.mpr ⟨instance', hmem, List.mem_filterMap.mpr ⟨field, hfield, hchange⟩⟩
    rw [hchanges] at hmemChanges
    exact absurd hmemChanges List.not_mem_nil
  · intro hinstances
    rw [hinstances]
    rfl

/-! ### One version down and up -/

omit [Lowercase] in
theorem run_bind_of_run_eq {α β : Type} {c : Tracking Yaml α} {f : α → Tracking Yaml β} {x : α}
    {status status' : ChangedValues Yaml} (h : c.run status = .ok (x, status')) :
    (c >>= f).run status = (f x).run status' := by
  rw [StateT.run_bind, h]
  rfl

/-- A downgrade and an upgrade back. -/
def roundTrip (crate : Crate Leaf Yaml) (version nextVersion : VersionDefinition) (self : Struct)
    (spec : StructValue Leaf) : Tracking Yaml (StructValue Leaf) :=
  self.trackingFrom crate .downgrade version nextVersion spec "$" >>= fun spec =>
    self.trackingFrom crate .upgrade version nextVersion spec "$"

omit [Lowercase] in
theorem clear_pushAll_eq_iff {key : String} {status : ChangedValues Yaml}
    {changes : List (ChangedValue Yaml)} :
    (upgradesSlot key).clear (status.pushAll key changes) = status ↔
      get? (M := BTreeMap String) status.upgrades key = none := by
  constructor
  · intro heq
    rw [← heq]
    exact (upgradesSlot key).get?_clear _
  · intro hnone
    refine ChangedValues.ext ChangedValues.downgrades_pushAll fun key' => ?_
    by_cases hkey : key' = key
    · rw [hkey, hnone]
      exact (upgradesSlot key).get?_clear _
    · exact (BTreeMap.get?_remove_of_ne _ hkey).trans (ChangedValues.get?_pushAll_of_ne hkey)

/-- **One version down and up** restores the value and the tracked changes iff `Restores` holds. -/
theorem run_roundTrip_iff (htracked : self.IsTracked versions)
    (hhandled : self.IsHandled crate versions) (hpair : [version, nextVersion] <:+: versions)
    (status : ChangedValues Yaml) :
    (self.roundTrip crate version nextVersion (self.valueIn nextVersion.inner data)).run status =
        .ok (self.valueIn nextVersion.inner data, status) ↔
      self.Restores crate version nextVersion data status := by
  -- the downgrade pushes the changes, and the upgrade is to take exactly them
  have hdown : (self.trackingFrom crate .downgrade version nextVersion
      (self.valueIn nextVersion.inner data) "$").run status =
        .ok (self.valueIn version.inner data, status.pushAll nextVersion.inner.display
          (self.trackedChanges crate version nextVersion data "$")) :=
    pushes_trackingFrom "$" htracked hhandled hpair status
  have hup := takes_trackingFrom htracked hhandled hpair data "$"
  have hnil : self.trackedChanges crate version nextVersion data "$" = [] ↔
      self.instances crate version nextVersion .upgrade data "$" = [] :=
    trackedChanges_eq_nil_iff hhandled hpair "$"
  rw [roundTrip, run_bind_of_run_eq hdown, Restores]
  -- without added fields nothing is pushed or taken
  by_cases hinstances : self.instances crate version nextVersion .upgrade data "$" = []
  · rw [hnil.mpr hinstances]
    exact iff_of_true (hup.of_no_user hinstances status) (.inl hinstances)
  · have hchanges : self.trackedChanges crate version nextVersion data "$" ≠ [] :=
      fun h => hinstances (hnil.mp h)
    have hget := @ChangedValues.get?_pushAll_self _ status nextVersion.inner.display _ hchanges
    have hrun := hup.run_eq_iff hinstances _ _ hget
    rw [or_iff_right hinstances]
    -- the upgrade clears the whole entry, so there may be none before
    constructor
    · intro hok
      have hstate := hup.eq_clear hinstances _ _ hget _ _ hok
      have hnone := clear_pushAll_eq_iff.mp hstate.symm
      rw [← hstate] at hrun
      have hcontent := hrun.mp hok
      rw [hnone, Option.getD_none, List.nil_append] at hcontent
      exact ⟨hnone, hcontent⟩
    · rintro ⟨hnone, hcontent⟩
      rw [hnone, Option.getD_none, List.nil_append, clear_pushAll_eq_iff.mpr hnone] at hrun
      exact hrun.mpr hcontent

/-! ### All versions down and up -/

/-- Downgrades to the given earlier versions, and upgrades back. -/
def roundTripAlong (crate : Crate Leaf Yaml) (self : Struct) :
    VersionDefinition → List VersionDefinition → StructValue Leaf →
      Tracking Yaml (StructValue Leaf)
  | _, [], spec => pure spec
  | current, next :: below, spec =>
    self.trackingFrom crate .downgrade next current spec "$" >>= fun spec =>
      self.roundTripAlong crate next below spec >>= fun spec =>
        self.trackingFrom crate .upgrade next current spec "$"

omit [Lowercase] in
theorem infix_of_reverse_cons {current next : VersionDefinition} {below : List VersionDefinition}
    (h : (current :: next :: below).reverse <:+: versions) :
    [next, current] <:+: versions ∧ (next :: below).reverse <:+: versions := by
  rw [List.reverse_cons, List.reverse_cons] at h
  constructor
  · refine List.IsInfix.trans ?_ h
    exact ⟨below.reverse, [], by simp⟩
  · rw [List.reverse_cons]
    exact (List.prefix_append _ _).isInfix.trans h

/-- What the conversions leave as it is. -/
theorem frame_of_roundTripAlong (htracked : self.IsTracked versions)
    (hhandled : self.IsHandled crate versions) {current : VersionDefinition}
    {below : List VersionDefinition} (hsegment : (current :: below).reverse <:+: versions)
    {status status' : ChangedValues Yaml} {result : StructValue Leaf}
    (hrun : (self.roundTripAlong crate current below (self.valueIn current.inner data)).run
      status = .ok (result, status')) :
    (∃ data' : self.Data Leaf, result = self.valueIn current.inner data') ∧
      status'.downgrades = status.downgrades ∧
      ∀ key, (∀ v ∈ current :: below, key ≠ v.inner.display) →
        get? (M := BTreeMap String) status'.upgrades key =
          get? (M := BTreeMap String) status.upgrades key := by
  induction below generalizing current data status status' result with
  | nil =>
    obtain ⟨rfl, rfl⟩ := Prod.mk.inj (Except.ok.inj hrun)
    exact ⟨⟨data, rfl⟩, rfl, fun _ _ => rfl⟩
  | cons next below ih =>
    obtain ⟨hpair, hrest⟩ := infix_of_reverse_cons hsegment
    -- the downgrade adds to the entry of the current version only
    have hdown := @pushes_trackingFrom _ _ _ crate next current versions self data "$" htracked
      hhandled hpair status
    rw [roundTripAlong, run_bind_of_run_eq hdown] at hrun
    obtain ⟨spec, status₁, hinner, hup⟩ := Slot.Takes.run_bind_eq_ok_iff.mp hrun
    obtain ⟨⟨data', rfl⟩, hdowngrades, hframe⟩ := ih hrest hinner
    obtain ⟨data'', rfl, -⟩ := exists_data_of_trackingFrom htracked hhandled hpair hup
    refine ⟨⟨data'', rfl⟩, ?_, fun key hkey => ?_⟩
    · rw [ChangedValues.downgrades_pushAll] at hdowngrades
      rw [← hdowngrades]
      -- the upgrade leaves the state, or removes that entry
      rcases (takes_trackingFrom htracked hhandled hpair data' "$").state_eq hup with rfl | rfl
      · rfl
      · rfl
    · obtain ⟨hcurrent, hbelow⟩ := List.forall_mem_cons.mp hkey
      have hpush := hframe key hbelow
      rw [ChangedValues.get?_pushAll_of_ne hcurrent] at hpush
      rw [← hpush]
      rcases (takes_trackingFrom htracked hhandled hpair data' "$").state_eq hup with rfl | rfl
      · rfl
      · exact BTreeMap.get?_remove_of_ne _ hcurrent

/-- The value in a version determines the value in the version before. -/
theorem valueIn_eq_of_valueIn_eq (htracked : self.IsTracked versions)
    (hhandled : self.IsHandled crate versions) (hpair : [version, nextVersion] <:+: versions)
    {data data' : self.Data Leaf}
    (h : self.valueIn nextVersion.inner data = self.valueIn nextVersion.inner data') :
    self.valueIn version.inner data = self.valueIn version.inner data' := by
  have hrun (data : self.Data Leaf) := @pushes_trackingFrom _ _ _ crate version nextVersion versions
    self data "$" htracked hhandled hpair .empty
  have hdata := hrun data
  have hdata' := hrun data'
  rw [h] at hdata
  exact (Prod.mk.inj (Except.ok.inj (hdata.symm.trans hdata'))).1

theorem restores_congr {status status' : ChangedValues Yaml}
    (h : get? (M := BTreeMap String) status.upgrades nextVersion.inner.display =
      get? (M := BTreeMap String) status'.upgrades nextVersion.inner.display) :
    self.Restores crate version nextVersion data status ↔
      self.Restores crate version nextVersion data status' := by
  rw [Restores, Restores, h]

variable (crate) in
/-- Each of the conversions, from a version to the one before and back, restores the value. -/
def RestoresAlong (self : Struct) (current : VersionDefinition) (below : List VersionDefinition)
    (data : self.Data Leaf) (status : ChangedValues Yaml) : Prop :=
  List.IsChain (fun nextVersion version => self.Restores crate version nextVersion data status)
    (current :: below)

theorem restoresAlong_congr {current : VersionDefinition} {below : List VersionDefinition}
    {status status' : ChangedValues Yaml}
    (h : ∀ v ∈ current :: below, get? (M := BTreeMap String) status.upgrades v.inner.display =
      get? (M := BTreeMap String) status'.upgrades v.inner.display) :
    self.RestoresAlong crate current below data status ↔
      self.RestoresAlong crate current below data status' := by
  induction below generalizing current with
  | nil => exact iff_of_true (List.isChain_singleton _) (List.isChain_singleton _)
  | cons next below ih =>
    obtain ⟨hcurrent, hbelow⟩ := List.forall_mem_cons.mp h
    rw [RestoresAlong, RestoresAlong, List.isChain_cons_cons, List.isChain_cons_cons]
    exact and_congr (restores_congr hcurrent) (ih hbelow)

/-- **All versions down and up**: the value and the tracked changes are restored iff they are at
every version. -/
theorem run_roundTripAlong_iff (htracked : self.IsTracked versions)
    (hhandled : self.IsHandled crate versions) (hsorted : versions.Pairwise (·.inner < ·.inner))
    {current : VersionDefinition} {below : List VersionDefinition}
    (hsegment : (current :: below).reverse <:+: versions) (status : ChangedValues Yaml) :
    (self.roundTripAlong crate current below (self.valueIn current.inner data)).run status =
        .ok (self.valueIn current.inner data, status) ↔
      self.RestoresAlong crate current below data status := by
  induction below generalizing current status with
  | nil => exact iff_of_true rfl (List.isChain_singleton _)
  | cons next below ih =>
    obtain ⟨hpair, hrest⟩ := infix_of_reverse_cons hsegment
    have hcurrent : ∀ v ∈ next :: below, v.inner.display ≠ current.inner.display := by
      intro v hv heq
      have hchain := hsorted.sublist hsegment.sublist
      rw [List.reverse_cons, List.pairwise_append] at hchain
      have hlt := hchain.2.2 v (List.mem_reverse.mpr hv) current (List.mem_singleton_self _)
      rw [Version.display_injective heq] at hlt
      exact lt_irrefl _ hlt
    have hdown : (self.trackingFrom crate .downgrade next current
        (self.valueIn current.inner data) "$").run status = .ok (self.valueIn next.inner data,
          status.pushAll current.inner.display
            (self.trackedChanges crate next current data "$")) :=
      pushes_trackingFrom "$" htracked hhandled hpair status
    have hone : (self.roundTrip crate next current (self.valueIn current.inner data)).run status =
        .ok (self.valueIn current.inner data, status) ↔
          self.Restores crate next current data status :=
      run_roundTrip_iff htracked hhandled hpair status
    rw [roundTrip, run_bind_of_run_eq hdown] at hone
    have hbelow := ih hrest (status.pushAll current.inner.display
      (self.trackedChanges crate next current data "$"))
    rw [restoresAlong_congr fun v hv => ChangedValues.get?_pushAll_of_ne (hcurrent v hv)] at hbelow
    rw [RestoresAlong, List.isChain_cons_cons, roundTripAlong,
      run_bind_of_run_eq hdown]
    change _ ↔ _ ∧ self.RestoresAlong crate next below data status
    rw [← hone, ← hbelow]
    constructor
    · intro hrun
      obtain ⟨spec, status', hinner, hup⟩ := Slot.Takes.run_bind_eq_ok_iff.mp hrun
      obtain ⟨⟨data', rfl⟩, hdowngrades, hframe⟩ :=
        frame_of_roundTripAlong htracked hhandled hrest hinner
      -- the upgrade to the current version only takes what was tracked for this version
      obtain ⟨data'', hdata, hdata'⟩ := exists_data_of_trackingFrom htracked hhandled hpair hup
      have hspec : self.valueIn next.inner data' = self.valueIn next.inner data := by
        rw [← hdata', valueIn_eq_of_valueIn_eq htracked hhandled hpair hdata]
      have hstatus : status' = status.pushAll current.inner.display
          (self.trackedChanges crate next current data "$") := by
        refine ChangedValues.ext hdowngrades fun key => ?_
        by_cases hkey : key = current.inner.display
        · exact hframe key fun v hv => hkey ▸ (hcurrent v hv).symm
        · rw [ChangedValues.get?_pushAll_of_ne hkey]
          rcases (takes_trackingFrom htracked hhandled hpair data' "$").state_eq hup with rfl | rfl
          · rfl
          · exact (BTreeMap.get?_remove_of_ne _ hkey).symm
      rw [hspec, hstatus] at hinner hup
      exact ⟨hup, hinner⟩
    · rintro ⟨hup, hinner⟩
      exact Slot.Takes.run_bind_eq_ok_iff.mpr ⟨_, _, hinner, hup⟩

end Struct

/-! ### Objects -/

/-- From a version down to the given earlier versions, and back. -/
def thereAndBack : VersionDefinition → List VersionDefinition → List VersionDefinition
  | _, [] => []
  | current, next :: below => next :: (thereAndBack next below ++ [current])

omit [Lowercase] in
theorem getLastD_thereAndBack (current : VersionDefinition) (below : List VersionDefinition) :
    (thereAndBack current below).getLastD current = current := by
  cases below with
  | nil => rfl
  | cons next below => rw [thereAndBack, ← List.cons_append, List.getLastD_concat]

namespace CustomResource

variable {Metadata Status : Type}

/-- The conversion gives an object with the spec and the tracked changes. -/
def Yields (result : Except Fault (CustomResource Metadata Status Leaf Yaml))
    (spec : StructValue Leaf) (changes : ChangedValues Yaml) : Prop :=
  ∃ object, result = .ok object ∧ object.spec = spec ∧ object.changes = changes

omit [Lowercase] in
theorem yields_bind_iff {result : Except Fault (CustomResource Metadata Status Leaf Yaml)}
    {f : CustomResource Metadata Status Leaf Yaml →
      Except Fault (CustomResource Metadata Status Leaf Yaml)}
    {c : Tracking Yaml (StructValue Leaf)}
    {d : StructValue Leaf → Tracking Yaml (StructValue Leaf)} {status : ChangedValues Yaml}
    (hresult : ∀ spec changes, Yields result spec changes ↔ c.run status = .ok (spec, changes))
    (hf : ∀ object spec changes,
      Yields (f object) spec changes ↔ (d object.spec).run object.changes = .ok (spec, changes))
    (spec : StructValue Leaf) (changes : ChangedValues Yaml) :
    Yields (result >>= f) spec changes ↔ (c >>= d).run status = .ok (spec, changes) := by
  rw [Slot.Takes.run_bind_eq_ok_iff]
  constructor
  · rintro ⟨object', hok, hspec, hchanges⟩
    cases hobject : result with
    | error e =>
      rw [hobject] at hok
      cases hok
    | ok object =>
      rw [hobject] at hok
      exact ⟨object.spec, object.changes, (hresult _ _).mp ⟨object, hobject, rfl, rfl⟩,
        (hf object spec changes).mp ⟨object', hok, hspec, hchanges⟩⟩
  · rintro ⟨spec₁, changes₁, hc, hd⟩
    obtain ⟨object, rfl, rfl, rfl⟩ := (hresult spec₁ changes₁).mpr hc
    exact (hf object spec changes).mpr hd

variable [Inhabited Status]

theorem yields_convert_iff (direction : Direction) (struct : Struct)
    (object : CustomResource Metadata Status Leaf Yaml) (spec : StructValue Leaf)
    (changes : ChangedValues Yaml) :
    Yields (object.convert crate direction version nextVersion struct) spec changes ↔
      (struct.trackingFrom crate direction version nextVersion object.spec "$").run object.changes =
        .ok (spec, changes) := by
  have hchanges : (object.status.getD ⟨.empty, default⟩).changedValues = object.changes := by
    rw [CustomResource.changes]
    cases object.status <;> rfl
  rw [convert, hchanges]
  cases hrun : (struct.trackingFrom crate direction version nextVersion object.spec "$").run
      object.changes with
  | error e => simp [Yields, bind, Except.bind]
  | ok r =>
    obtain ⟨spec', changes'⟩ := r
    simp [Yields, bind, Except.bind, pure, Except.pure, CustomResource.changes]

theorem convertAlong_cons (struct : Struct) (current next : VersionDefinition)
    (path : List VersionDefinition) (object : CustomResource Metadata Status Leaf Yaml) :
    convertAlong crate struct current (next :: path) object =
      convertAlong crate struct current [next] object >>= convertAlong crate struct next path := by
  rw [convertAlong, convertAlong]
  split_ifs with hlt
  · cases object.convert crate .upgrade current next struct <;> rfl
  · cases object.convert crate .downgrade next current struct <;> rfl

theorem convertAlong_concat (struct : Struct) (current last : VersionDefinition)
    (path : List VersionDefinition) (object : CustomResource Metadata Status Leaf Yaml) :
    convertAlong crate struct current (path ++ [last]) object =
      convertAlong crate struct current path object >>=
        convertAlong crate struct (path.getLastD current) [last] := by
  induction path generalizing current object with
  | nil => rfl
  | cons next path ih =>
    rw [List.cons_append, convertAlong_cons, convertAlong_cons _ _ _ path, bind_assoc]
    refine bind_congr fun object => ?_
    rw [ih, List.getLastD_cons]

/-- The conversions of objects are those of their specs. -/
theorem yields_convertAlong_iff (struct : Struct) {current : VersionDefinition}
    {below : List VersionDefinition}
    (hsorted : (current :: below).Pairwise fun later earlier => earlier.inner < later.inner)
    (object : CustomResource Metadata Status Leaf Yaml) (spec : StructValue Leaf)
    (changes : ChangedValues Yaml) :
    Yields (convertAlong crate struct current (thereAndBack current below) object) spec changes ↔
      (struct.roundTripAlong crate current below object.spec).run object.changes =
        .ok (spec, changes) := by
  induction below generalizing current object spec changes with
  | nil => simp [thereAndBack, convertAlong, Struct.roundTripAlong, Yields, pure, StateT.pure,
      StateT.run, Except.pure]
  | cons next below ih =>
    obtain ⟨hcurrent, hrest⟩ := List.pairwise_cons.mp hsorted
    have hlt := hcurrent next List.mem_cons_self
    have hdown (object : CustomResource Metadata Status Leaf Yaml) :
        convertAlong crate struct current [next] object =
          object.convert crate .downgrade next current struct := by
      rw [convertAlong, if_neg (not_lt_of_gt hlt)]
      cases object.convert crate .downgrade next current struct <;> rfl
    have hup (object : CustomResource Metadata Status Leaf Yaml) :
        convertAlong crate struct next [current] object =
          object.convert crate .upgrade next current struct := by
      rw [convertAlong, if_pos hlt]
      cases object.convert crate .upgrade next current struct <;> rfl
    rw [thereAndBack, convertAlong_cons, hdown, Struct.roundTripAlong]
    refine yields_bind_iff (yields_convert_iff .downgrade struct object) ?_ spec changes
    intro object spec changes
    rw [convertAlong_concat, getLastD_thereAndBack]
    refine yields_bind_iff (ih hrest object) ?_ spec changes
    intro object spec changes
    rw [hup]
    exact yields_convert_iff .upgrade struct object spec changes

/-- **Tracked conversions lose nothing iff every version on the way down restores the value.** -/
theorem convertAlong_thereAndBack_iff {struct : Struct} (htracked : struct.IsTracked versions)
    (hhandled : struct.IsHandled crate versions)
    (hsorted : versions.Pairwise (·.inner < ·.inner)) {current : VersionDefinition}
    {below : List VersionDefinition} (hsegment : (current :: below).reverse <:+: versions)
    (object : CustomResource Metadata Status Leaf Yaml) (data : struct.Data Leaf)
    (hspec : object.spec = struct.valueIn current.inner data) :
    (∃ object', convertAlong crate struct current (thereAndBack current below) object =
        .ok object' ∧ object'.spec = object.spec ∧ object'.changes = object.changes) ↔
      struct.RestoresAlong crate current below data object.changes := by
  have hdescending : (current :: below).Pairwise fun later earlier =>
      earlier.inner < later.inner := by
    have hsegmentSorted := hsorted.sublist hsegment.sublist
    rwa [List.pairwise_reverse] at hsegmentSorted
  have hyields := @yields_convertAlong_iff _ _ _ crate _ _ _ struct current below hdescending object
    object.spec object.changes
  rw [Yields, hspec, Struct.run_roundTripAlong_iff htracked hhandled hsorted hsegment] at hyields
  rw [hspec]
  exact hyields

end CustomResource

end Lowercase

/-! ### Structs with added fields -/

section Examples

attribute [local instance] asciiLowercase

def alphaVersion : VersionDefinition := ⟨none, false, ⟨1, some (.alpha 1)⟩⟩

def stableVersion : VersionDefinition := ⟨none, false, ⟨1, none⟩⟩

/-- The changes of a field `limit: u32` that is added in `v1`. -/
def limitChanges : Changeset :=
  IterMap.insert (IterMap.insert IterMap.empty alphaVersion.inner .notPresent)
    stableVersion.inner (.addition "limit" ⟨true, ["std", "default", "Default", "default"]⟩ "u32")

def limitField : VersionedField where
  originalAttributes := []
  changes := some limitChanges
  idents := ⟨"limit", "limit", jsonPathIdent "limit"⟩
  hint := none
  nested := false
  ty := "u32"

/-- A field of the type `Job`, a struct with a limit. -/
def jobField (ident : Ident) : VersionedField where
  originalAttributes := []
  changes := none
  idents := ⟨ident, ident, jsonPathIdent ident⟩
  hint := none
  nested := true
  ty := "Job"

def jobStruct : Struct := .nested (jobField "first") (.leaf limitField .nil) .nil

/-- Two sibling structs with an added field. -/
def siblingsStruct : Struct :=
  .nested (jobField "first") (.leaf limitField .nil)
    (.nested (jobField "second") (.leaf limitField .nil) .nil)

def jobData (limit : ℕ) : jobStruct.Data fun _ => ℕ := (⟨[(limit, ())], rfl⟩, ())

def siblingsData (first second : ℕ) : siblingsStruct.Data fun _ => ℕ :=
  (⟨[(first, ())], rfl⟩, ⟨[(second, ())], rfl⟩, ())

/-- Numbers are written as they are, and the default is zero. -/
def numberCrate : Crate (fun _ => ℕ) ℕ where
  default _ ty _ := .leaf ty 0
  convert _ value := value
  toValue
    | .leaf _ value => .ok value
    | _ => .error ""
  fromValue _ ty value := .ok (.leaf ty value)

/-- A new object in `v1`. -/
def newObject {struct : Struct} (data : struct.Data fun _ => ℕ) :
    CustomResource Unit Unit (fun _ => ℕ) ℕ where
  metadata := ()
  status := none
  spec := struct.valueIn stableVersion.inner data

theorem pair_eq_of_infix {v w : VersionDefinition} (h : [v, w] <:+: [alphaVersion, stableVersion]) :
    v = alphaVersion ∧ w = stableVersion := by
  simpa using h.eq_of_length rfl

theorem get?_limitChanges {v : Version} {status : ItemStatus}
    (h : get? (M := BTreeMap Version) limitChanges v = some status) :
    status = .notPresent ∨
      status = .addition "limit" ⟨true, ["std", "default", "Default", "default"]⟩ "u32" := by
  by_cases hstable : v = stableVersion.inner
  · rw [hstable, limitChanges, IterMap.get?_insert_self] at h
    exact .inr (Option.some.inj h).symm
  · rw [limitChanges, IterMap.get?_insert_of_ne _ _ hstable] at h
    by_cases halpha : v = alphaVersion.inner
    · rw [halpha, IterMap.get?_insert_self] at h
      exact .inl (Option.some.inj h).symm
    · rw [IterMap.get?_insert_of_ne _ _ halpha, IterMap.get?_empty] at h
      cases h

theorem tracks_limitField : Tracks [limitField] [alphaVersion, stableVersion] where
  keepsType := by
    intro field hfield changes hchanges v status hstatus
    obtain rfl := List.mem_singleton.mp hfield
    obtain rfl : limitChanges = changes := Option.some.inj hchanges
    obtain rfl | rfl := get?_limitChanges hstatus
    · trivial
    · rfl
  converts := by
    intro field hfield version nextVersion hpair
    obtain rfl := List.mem_singleton.mp hfield
    obtain ⟨rfl, rfl⟩ := pair_eq_of_infix hpair
    have hold : get? (M := BTreeMap Version) limitChanges alphaVersion.inner =
        some .notPresent := rfl
    have hnext : get? (M := BTreeMap Version) limitChanges stableVersion.inner =
        some (.addition "limit" ⟨true, ["std", "default", "Default", "default"]⟩ "u32") := rfl
    exact (VersionedField.converts_iff rfl hold hnext).mpr rfl
  nodup := by decide
  declares := by
    intro version nextVersion hpair field hfield direction ident hident
    obtain rfl := List.mem_singleton.mp hfield
    obtain ⟨rfl, rfl⟩ := pair_eq_of_infix hpair
    have hcrossing : limitField.crossing alphaVersion stableVersion =
        .added "limit" ⟨true, ["std", "default", "Default", "default"]⟩ := rfl
    rw [hcrossing] at hident
    obtain rfl := List.mem_singleton.mp hident
    exact ⟨⟨jsonPathIdent "limit", "limit"⟩, List.mem_singleton_self _, rfl⟩

/-- Jobs in fields with different names. -/
theorem tracks_jobFields {idents : List Ident} (hnodup : idents.Nodup) :
    Tracks (idents.map jobField) [alphaVersion, stableVersion] where
  keepsType := by
    intro field hfield changes hchanges
    obtain ⟨ident, -, rfl⟩ := List.mem_map.mp hfield
    cases hchanges
  converts := by
    intro field hfield version nextVersion hpair
    obtain ⟨ident, -, rfl⟩ := List.mem_map.mp hfield
    have hemits (v : VersionDefinition) : (jobField ident).Emits v (some (ident, "Job")) :=
      ⟨_, rfl, rfl⟩
    exact ⟨_, _, _, _, hemits version, hemits nextVersion, rfl, rfl, ⟨_, _, rfl, rfl, rfl⟩,
      ⟨_, _, rfl, rfl, rfl⟩⟩
  nodup := by
    intro version _
    rw [List.filterMap_map]
    exact (List.filterMap_some (l := idents)).symm ▸ hnodup
  declares := by
    intro version nextVersion hpair field hfield direction ident hident
    obtain ⟨old, hold, rfl⟩ := List.mem_map.mp hfield
    have hpaths : ((idents.map jobField).mapM fun field => field.generateForJsonPath nextVersion) =
        .ok (idents.map fun ident => some ⟨jsonPathIdent ident, ident⟩) := by
      rw [mapM_eq_ok_iff, List.forall₂_map_left_iff, List.forall₂_map_right_iff, List.forall₂_same]
      exact fun ident _ => rfl
    have hjsonPaths : (generateJsonPaths (idents.map jobField) nextVersion).toOption.getD [] =
        idents.map fun ident => ⟨jsonPathIdent ident, ident⟩ := by
      rw [generateJsonPaths, hpaths]
      simp [bind, Except.bind, pure, Except.pure, Except.toOption, List.reduceOption,
        List.filterMap_map]
    rw [hjsonPaths]
    refine ⟨_, List.mem_map_of_mem hold, ?_⟩
    have hcrossing : (jobField old).crossing version nextVersion = .kept old old := rfl
    rw [hcrossing] at hident
    cases direction with
    | upgrade => exact (List.mem_singleton.mp hident).symm
    | downgrade => exact (List.mem_singleton.mp hident).symm

theorem isTracked_jobStruct : jobStruct.IsTracked [alphaVersion, stableVersion] :=
  ⟨tracks_jobFields (List.nodup_singleton "first"), rfl, tracks_limitField, ⟨rfl, trivial⟩, trivial⟩

theorem isTracked_siblingsStruct : siblingsStruct.IsTracked [alphaVersion, stableVersion] :=
  have hnodup : ["first", "second"].Nodup := by decide
  ⟨tracks_jobFields hnodup, rfl, tracks_limitField, ⟨rfl, trivial⟩, rfl, tracks_limitField,
    ⟨rfl, trivial⟩, trivial⟩

/-- A job adds nothing but its limit. -/
theorem isHandled_nested_jobField (ident : Ident) {rest : Struct}
    (hrest : rest.IsHandled numberCrate [alphaVersion, stableVersion]) :
    (Struct.nested (jobField ident) (.leaf limitField .nil) rest).IsHandled numberCrate
      [alphaVersion, stableVersion] := by
  refine ⟨?_, ⟨?_, trivial⟩, hrest⟩
  · intro version nextVersion _ ident' defaultFn hcrossing
    have hkept : (jobField ident).crossing version nextVersion = .kept ident ident := rfl
    rw [hkept] at hcrossing
    cases hcrossing
  · intro version nextVersion _ ident' defaultFn _
    refine ⟨⟨0, rfl⟩, ?_, ?_⟩
    · rintro yaml value hvalue
      exact ⟨yaml, (Except.ok.inj hvalue).symm⟩
    · rintro value ⟨leaf, rfl⟩
      exact ⟨leaf, rfl, rfl⟩

theorem isHandled_jobStruct : jobStruct.IsHandled numberCrate [alphaVersion, stableVersion] :=
  isHandled_nested_jobField "first" trivial

theorem isHandled_siblingsStruct :
    siblingsStruct.IsHandled numberCrate [alphaVersion, stableVersion] :=
  isHandled_nested_jobField "first" (isHandled_nested_jobField "second" trivial)

/-- The path of the limit of the first job. -/
def limitPath : String := jthongPath (jthongPath "$" "first") "limit"

/-- The job is the only instance. -/
theorem instances_jobStruct (direction : Direction) (limit : ℕ) :
    jobStruct.instances numberCrate alphaVersion stableVersion direction (jobData limit) "$" =
      [[⟨limitPath, "limit", "u32", .leaf "u32" limit, .leaf "u32" 0⟩]] := by
  have hjob : (jobField "first").crossing alphaVersion stableVersion = .kept "first" "first" := rfl
  have hlimit : limitField.crossing alphaVersion stableVersion =
      .added "limit" ⟨true, ["std", "default", "Default", "default"]⟩ := rfl
  have hty : limitField.ty = "u32" := rfl
  have hpaths : jobStruct.paths stableVersion "$" =
      [(jsonPathIdent "first", jthongPath "$" "first")] := rfl
  have hjobPaths (parent : String) : (Struct.leaf limitField .nil).paths stableVersion parent =
      [(jsonPathIdent "limit", jthongPath parent "limit")] := rfl
  rw [Struct.instances, hpaths]
  cases direction <;>
    simp [jobStruct, jobData, Struct.nestedInstances, Struct.cells, addedFields, hjob, hlimit, hty,
      hjobPaths, visit, numberCrate, limitPath]
  · rfl
  · rfl

/-- One job comes back. -/
theorem CustomResource.convertAlong_oneJob :
    ∃ object', convertAlong numberCrate jobStruct stableVersion
        (thereAndBack stableVersion [alphaVersion]) (newObject (jobData 7)) = .ok object' ∧
      object'.spec = (newObject (jobData 7)).spec ∧
      object'.changes = (newObject (jobData 7)).changes := by
  refine (convertAlong_thereAndBack_iff isTracked_jobStruct isHandled_jobStruct (by decide)
    (List.infix_refl _) (newObject (jobData 7)) (jobData 7) rfl).mpr ?_
  have hchanges : jobStruct.trackedChanges numberCrate alphaVersion stableVersion (jobData 7) "$" =
      [⟨limitPath, 7⟩] := by
    rw [Struct.trackedChanges, instances_jobStruct]
    rfl
  have hdecode : decode numberCrate stableVersion
      [⟨limitPath, "limit", "u32", .leaf "u32" 7, .leaf "u32" 0⟩] ⟨limitPath, 7⟩ =
        some ("limit", .leaf "u32" 7) := by
    simp [decode, numberCrate]
    rfl
  refine List.isChain_pair.mpr (.inr ⟨rfl, ?_⟩)
  rw [hchanges, instances_jobStruct]
  refine ⟨⟨List.forall_mem_singleton.mpr ?_, List.forall_mem_singleton.mpr ?_⟩,
    fun _ h => absurd h List.not_mem_nil⟩
  · rw [hdecode]
    rfl
  · rw [List.filterMap_cons, hdecode]
    rfl

instance {α : Type} (result : Except Fault α) : Decidable (result = .error .panic) :=
  match result with
  | .ok _ => isFalse nofun
  | .error fault => decidable_of_iff (fault = .panic) (by simp)

/-- The first one of two siblings takes the tracked limits of both and finds no field for the path
of the second one. -/
theorem CustomResource.convertAlong_siblings :
    convertAlong numberCrate siblingsStruct stableVersion
        (thereAndBack stableVersion [alphaVersion]) (newObject (siblingsData 7 8)) =
      .error .panic ∧
    ¬ ∀ (struct : Struct) (versions : List VersionDefinition) (crate : Crate (fun _ => ℕ) ℕ),
      struct.IsTracked versions → struct.IsHandled crate versions →
      versions.Pairwise (·.inner < ·.inner) →
      ∀ (current : VersionDefinition) (below : List VersionDefinition),
        (current :: below).reverse <:+: versions →
        ∀ (object : CustomResource Unit Unit (fun _ => ℕ) ℕ) (data : struct.Data fun _ => ℕ),
          object.spec = struct.valueIn current.inner data →
          ∃ object', convertAlong crate struct current (thereAndBack current below) object =
              .ok object' ∧
            object'.spec = object.spec ∧ object'.changes = object.changes := by
  have hpanic : convertAlong numberCrate siblingsStruct stableVersion
      (thereAndBack stableVersion [alphaVersion]) (newObject (siblingsData 7 8)) =
        .error .panic := by decide +kernel
  refine ⟨hpanic, fun h => ?_⟩
  obtain ⟨object', hok, -⟩ := h siblingsStruct [alphaVersion, stableVersion] numberCrate
    isTracked_siblingsStruct isHandled_siblingsStruct (by decide) stableVersion [alphaVersion]
    (List.infix_refl _) (newObject (siblingsData 7 8)) (siblingsData 7 8) rfl
  rw [hpanic] at hok
  cases hok

end Examples

end VersionedMacros

end StackableOperator
