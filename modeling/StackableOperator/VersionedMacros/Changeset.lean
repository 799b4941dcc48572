import Mathlib
import StackableOperator.ForMathlib.IterMap
import StackableOperator.VersionedMacros.Attrs

/-!
# Changesets

The actions of an item become a map from versions to statuses (`intoChangeset`).
`exists_intoChangeset` gives this map by its lookups: names and types are followed backwards through
the *declared* order of the changes, and of several changes in one version the first declared one
counts. A name that is no identifier makes the macro panic.
-/

namespace StackableOperator

namespace VersionedMacros

open IterMap (get?)

/-! ### The model of the source -/

/-- The status of an item in a version. -/
inductive ItemStatus : Type
  | addition (ident : Ident) (defaultFn : Path) (ty : RustType)
  | change (downgradeWith upgradeWith : Option Path) (fromIdent toIdent : Ident)
    (fromType toType : RustType)
  | deprecation (previousIdent : Ident) (note : Option String) (ident : Ident)
  | noChange (previouslyDeprecated : Bool) (ident : Ident) (ty : RustType)
  | notPresent
  deriving DecidableEq

namespace ItemStatus

def getIdent : ItemStatus → Except Failure Ident
  | addition ident _ _ => .ok ident
  | change _ _ _ toIdent _ _ => .ok toIdent
  | deprecation _ _ ident => .ok ident
  | noChange _ ident _ => .ok ident
  | notPresent => .error .panic

def IsAction : ItemStatus → Prop
  | addition _ _ _ | change _ _ _ _ _ _ | deprecation _ _ _ => True
  | noChange _ _ _ | notPresent => False

def IsAddition : ItemStatus → Prop
  | addition _ _ _ => True
  | _ => False

def IsDeprecation : ItemStatus → Prop
  | deprecation _ _ _ => True
  | _ => False

end ItemStatus

abbrev Changeset : Type := BTreeMap Version ItemStatus

section IntoChangeset

variable (isIdent : String → Bool)

/-- `format_ident!` accepts identifiers and panics on other strings. -/
def formatIdent (name : String) : Except Failure Ident :=
  if isIdent name then .ok name else .error .panic

/-- The name before a change, given the one after it. -/
def fromIdent (change : ChangedAttributes) (ident : Ident) : Except Failure Ident :=
  match change.fromName with
  | some name => formatIdent isIdent name
  | none => .ok ident

/-- Insert the changes in the reverse of the order in which they are declared. The result has the
name and the type before the first of them. -/
def insertChanges (actions : Changeset) (last : Ident × RustType) :
    List ChangedAttributes → Except Failure ((Ident × RustType) × Changeset)
  | [] => .ok (last, actions)
  | change :: changes => do
    let ((ident, ty), actions) ← insertChanges actions last changes
    let fromIdent ← fromIdent isIdent change ident
    let fromType := change.fromType.getD ty
    return ((fromIdent, fromType), IterMap.insert (M := BTreeMap Version) actions change.since
      (.change change.downgradeWith change.upgradeWith fromIdent ident fromType ty))

/-- Insert the addition, if there is one. -/
def insertAdded (added : Option AddedAttributes) (first : Ident × RustType)
    (actions : Changeset) : Changeset :=
  match added with
  | some added =>
    IterMap.insert (M := BTreeMap Version) actions added.since
      (.addition first.1 added.defaultFn first.2)
  | none => actions

def CommonItemAttributes.intoChangeset {T : Type} [ItemIdents T] (self : CommonItemAttributes)
    (idents : T) (ty : RustType) : Except Failure (Option Changeset) :=
  match self.deprecated with
  | some deprecated => do
    let ident := ItemIdents.cleaned idents
    let actions := IterMap.insert (M := BTreeMap Version) IterMap.empty deprecated.since
      (.deprecation ident deprecated.note (ItemIdents.original idents))
    let (first, actions) ← insertChanges isIdent actions (ident, ty) self.changes
    return some (insertAdded self.added first actions)
  | none =>
    if !self.changes.isEmpty then do
      let ident := ItemIdents.original idents
      let (first, actions) ← insertChanges isIdent IterMap.empty (ident, ty) self.changes
      return some (insertAdded self.added first actions)
    else
      match self.added with
      | some added =>
        return some (IterMap.insert (M := BTreeMap Version) IterMap.empty added.since
          (.addition (ItemIdents.original idents) added.defaultFn ty))
      | none => return none

end IntoChangeset

/-! ### The actions -/

/-- The name and the type of an item before its changes, in the order of their declaration. -/
def before (last : Ident × RustType) : List ChangedAttributes → Ident × RustType
  | [] => last
  | change :: changes =>
    (change.fromName.getD (before last changes).1, change.fromType.getD (before last changes).2)

/-- A change with the name and the type before and after it. -/
structure Step where
  attributes : ChangedAttributes
  source : Ident × RustType
  target : Ident × RustType

def Step.status (step : Step) : ItemStatus :=
  .change step.attributes.downgradeWith step.attributes.upgradeWith step.source.1 step.target.1
    step.source.2 step.target.2

/-- The change of a version. Of several ones, the first declared one counts. -/
def stepAt (last : Ident × RustType) : List ChangedAttributes → Version → Option Step
  | [], _ => none
  | change :: changes, v =>
    if change.since = v then some ⟨change, before last (change :: changes), before last changes⟩
    else stepAt last changes v

section Actions

variable {isIdent : String → Bool} {last : Ident × RustType} {actions : Changeset}
  {changes : List ChangedAttributes}

/-- All names that changes state are identifiers. -/
def NamesAreIdents (isIdent : String → Bool) (changes : List ChangedAttributes) : Prop :=
  ∀ change ∈ changes, ∀ name ∈ change.fromName, isIdent name = true

theorem stepAt_isSome_iff {v : Version} :
    (stepAt last changes v).isSome = true ↔ ∃ change ∈ changes, change.since = v := by
  induction changes with
  | nil => simp [stepAt]
  | cons change changes ih =>
    rw [stepAt]
    split_ifs with h
    · simp [h]
    · simp [ih, h]

theorem fromIdent_eq_ok {change : ChangedAttributes} {ident : Ident}
    (h : ∀ name ∈ change.fromName, isIdent name = true) :
    fromIdent isIdent change ident = .ok (change.fromName.getD ident) := by
  rw [fromIdent]
  rcases hfrom : change.fromName with _ | name
  · rfl
  · simp [formatIdent, h name (by rw [hfrom]; rfl)]

theorem namesAreIdents_cons_iff {change : ChangedAttributes} :
    NamesAreIdents isIdent (change :: changes) ↔
      (∀ name ∈ change.fromName, isIdent name = true) ∧ NamesAreIdents isIdent changes :=
  List.forall_mem_cons

/-- **The changes, by their lookups.** -/
theorem exists_insertChanges (h : NamesAreIdents isIdent changes) :
    ∃ result, insertChanges isIdent actions last changes = .ok (before last changes, result) ∧
      ∀ v, get? (M := BTreeMap Version) result v =
        ((stepAt last changes v).map Step.status).or (get? (M := BTreeMap Version) actions v) := by
  induction changes with
  | nil => exact ⟨actions, rfl, fun v => rfl⟩
  | cons change changes ih =>
    obtain ⟨hname, htail⟩ := namesAreIdents_cons_iff.mp h
    obtain ⟨result, hresult, hget⟩ := ih htail
    refine ⟨IterMap.insert (M := BTreeMap Version) result change.since
      (Step.status ⟨change, before last (change :: changes), before last changes⟩), ?_, ?_⟩
    · rw [insertChanges, hresult]
      simp only [bind, Except.bind, fromIdent_eq_ok hname]
      rfl
    · intro v
      rw [stepAt]
      split_ifs with hv
      · rw [← hv, IterMap.get?_insert_self]
        rfl
      · rw [IterMap.get?_insert_of_ne _ _ (Ne.symm hv), hget v]

/-- A name that is no identifier makes the macro panic. -/
theorem insertChanges_eq_error (h : ¬ NamesAreIdents isIdent changes) :
    insertChanges isIdent actions last changes = .error .panic := by
  induction changes with
  | nil => exact absurd (fun c hc => absurd hc List.not_mem_nil) h
  | cons change changes ih =>
    rw [namesAreIdents_cons_iff] at h
    rw [insertChanges]
    by_cases htail : NamesAreIdents isIdent changes
    · obtain ⟨result, hresult, -⟩ : ∃ result, insertChanges isIdent actions last changes =
        .ok (before last changes, result) ∧ _ := exists_insertChanges htail
      have hpanic : fromIdent isIdent change (before last changes).1 = .error .panic := by
        rcases hfrom : change.fromName with _ | name
        · exact absurd ⟨by simp [hfrom], htail⟩ h
        · have hident : isIdent name ≠ true := by
            intro hident
            exact h ⟨by simp [hfrom, hident], htail⟩
          simp [fromIdent, hfrom, formatIdent, hident]
      rw [hresult]
      simp only [bind, Except.bind, hpanic]
    · rw [ih htail]
      rfl

end Actions

namespace CommonItemAttributes

variable {T : Type} [ItemIdents T] (self : CommonItemAttributes) (idents : T) (ty : RustType)

/-- The name and the type after all changes. A deprecation only adds its marker to the name. -/
def last : Ident × RustType :=
  (if self.deprecated.isSome then ItemIdents.cleaned idents else ItemIdents.original idents, ty)

/-- The name and the type before all changes. -/
def first : Ident × RustType := before (self.last idents ty) self.changes

/-- The action of an item in a version. -/
def actionAt (v : Version) : Option ItemStatus :=
  ((self.added.filter fun added => added.since = v).map fun added =>
      .addition (self.first idents ty).1 added.defaultFn (self.first idents ty).2).or
    (((stepAt (self.last idents ty) self.changes v).map Step.status).or
      ((self.deprecated.filter fun deprecated => deprecated.since = v).map fun deprecated =>
        .deprecation (ItemIdents.cleaned idents) deprecated.note (ItemIdents.original idents)))

/-- The item has an action. -/
def IsVersioned : Prop := self.added ≠ none ∨ self.changes ≠ [] ∨ self.deprecated ≠ none

variable {self idents ty} {isIdent : String → Bool}

theorem get?_insertAdded {first : Ident × RustType} {actions : Changeset}
    {added : Option AddedAttributes} (v : Version) :
    get? (M := BTreeMap Version) (insertAdded added first actions) v =
      ((added.filter fun added => added.since = v).map fun added =>
        .addition first.1 added.defaultFn first.2).or
          (get? (M := BTreeMap Version) actions v) := by
  rcases added with _ | added
  · rfl
  · rw [insertAdded, Option.filter_some]
    by_cases hv : added.since = v
    · subst hv
      simp [IterMap.get?_insert_self]
    · simp [hv, IterMap.get?_insert_of_ne _ _ (Ne.symm hv)]

/-- **The changeset has the actions of the item**, if it has any. -/
theorem exists_intoChangeset (h : NamesAreIdents isIdent self.changes) :
    ∃ result, self.intoChangeset isIdent idents ty = .ok result ∧
      (result.isSome = true ↔ self.IsVersioned) ∧
      ∀ actions ∈ result, ∀ v,
        get? (M := BTreeMap Version) actions v = self.actionAt idents ty v := by
  rw [intoChangeset]
  rcases hdeprecated : self.deprecated with _ | deprecated
  -- not deprecated: the last name is the one in the source
  · have hlast : self.last idents ty = (ItemIdents.original idents, ty) := by
      simp [last, hdeprecated]
    by_cases hchanges : self.changes = []
    · rcases hadded : self.added with _ | added
      · refine ⟨none, by simp [hchanges, pure, Except.pure], ?_, by simp⟩
        simp [IsVersioned, hadded, hchanges, hdeprecated]
      · refine ⟨some _, by simp [hchanges, pure, Except.pure]; rfl, ?_, ?_⟩
        · simp [IsVersioned, hadded]
        · rintro actions ⟨⟩ v
          rw [actionAt, first, hlast, hadded, hdeprecated, hchanges]
          have hget : get? (M := BTreeMap Version) (insertAdded (some added)
              (ItemIdents.original idents, ty) IterMap.empty) v = _ := get?_insertAdded v
          rw [IterMap.get?_empty] at hget
          exact hget
    · obtain ⟨result, hresult, hget⟩ : ∃ result, insertChanges isIdent IterMap.empty
          (ItemIdents.original idents, ty) self.changes = .ok (before _ self.changes, result) ∧ _ :=
        exists_insertChanges h
      refine ⟨some _, by simp [hchanges, hresult, bind, Except.bind, pure, Except.pure]; rfl, ?_,
        ?_⟩
      · simp [IsVersioned, hchanges]
      · rintro actions ⟨⟩ v
        rw [get?_insertAdded, hget, actionAt, first, hlast, hdeprecated, IterMap.get?_empty]
        rfl
  -- deprecated: the last name is the one without the prefix
  · have hlast : self.last idents ty = (ItemIdents.cleaned idents, ty) := by
      simp [last, hdeprecated]
    obtain ⟨result, hresult, hget⟩ : ∃ result, insertChanges isIdent
        (IterMap.insert (M := BTreeMap Version) IterMap.empty deprecated.since
          (.deprecation (ItemIdents.cleaned idents) deprecated.note (ItemIdents.original idents)))
        (ItemIdents.cleaned idents, ty) self.changes = .ok (before _ self.changes, result) ∧ _ :=
      exists_insertChanges h
    refine ⟨some _, by simp [hresult, bind, Except.bind, pure, Except.pure]; rfl, ?_, ?_⟩
    · simp [IsVersioned, hdeprecated]
    · rintro actions ⟨⟩ v
      rw [get?_insertAdded, hget, actionAt, first, hlast, hdeprecated, Option.filter_some]
      by_cases hv : deprecated.since = v
      · subst hv
        simp [IterMap.get?_insert_self]
      · simp [hv, IterMap.get?_insert_of_ne _ _ (Ne.symm hv), IterMap.get?_empty]

/-- A name that is no identifier makes the macro panic. -/
theorem intoChangeset_eq_error (h : ¬ NamesAreIdents isIdent self.changes) :
    self.intoChangeset isIdent idents ty = .error .panic := by
  rw [intoChangeset]
  rcases self.deprecated with _ | deprecated
  · have hne : self.changes ≠ [] := by
      intro hnil
      rw [hnil] at h
      exact h fun c hc => absurd hc List.not_mem_nil
    simp [hne, insertChanges_eq_error h, bind, Except.bind]
  · simp [insertChanges_eq_error h, bind, Except.bind]

end CommonItemAttributes

/-! ### The order of the actions -/

/-- A changeset with actions only, the addition being the first one and the deprecation the last
one. -/
structure Changeset.IsActions (actions : Changeset) : Prop where
  nonempty : ∃ v status, get? (M := BTreeMap Version) actions v = some status
  isAction : ∀ {v status}, get? (M := BTreeMap Version) actions v = some status → status.IsAction
  addition_first : ∀ {v status v' status'},
    get? (M := BTreeMap Version) actions v = some status → status.IsAddition →
      get? (M := BTreeMap Version) actions v' = some status' → v ≤ v'
  deprecation_last : ∀ {v status v' status'},
    get? (M := BTreeMap Version) actions v = some status → status.IsDeprecation →
      get? (M := BTreeMap Version) actions v' = some status' → v' ≤ v

namespace CommonItemAttributes

variable {T : Type} [ItemIdents T] {self : CommonItemAttributes} {idents : T} {ty : RustType}
  {v w : Version} {status : ItemStatus}

/-- The three kinds of actions. -/
theorem actionAt_cases (h : self.actionAt idents ty v = some status) :
    (∃ added ∈ self.added, added.since = v ∧
      status = .addition (self.first idents ty).1 added.defaultFn (self.first idents ty).2) ∨
    (∃ step, stepAt (self.last idents ty) self.changes v = some step ∧ status = step.status) ∨
    ∃ deprecated ∈ self.deprecated, deprecated.since = v ∧
      status = .deprecation (ItemIdents.cleaned idents) deprecated.note
        (ItemIdents.original idents) := by
  rw [actionAt, Option.or_eq_some_iff] at h
  rcases h with hadded | ⟨-, h⟩
  · left
    obtain ⟨added, hmem, rfl⟩ := Option.map_eq_some_iff.mp hadded
    obtain ⟨hmem, hsince⟩ := Option.filter_eq_some_iff.mp hmem
    exact ⟨added, hmem, by simpa using hsince, rfl⟩
  · right
    rw [Option.or_eq_some_iff] at h
    rcases h with hstep | ⟨-, hdeprecated⟩
    · obtain ⟨step, hstepAt, rfl⟩ := Option.map_eq_some_iff.mp hstep
      exact .inl ⟨step, hstepAt, rfl⟩
    · obtain ⟨deprecated, hmem, rfl⟩ := Option.map_eq_some_iff.mp hdeprecated
      obtain ⟨hmem, hsince⟩ := Option.filter_eq_some_iff.mp hmem
      exact .inr ⟨deprecated, hmem, by simpa using hsince, rfl⟩

theorem exists_change_of_stepAt {last : Ident × RustType} {changes : List ChangedAttributes}
    {step : Step} (h : stepAt last changes v = some step) : ∃ change ∈ changes, change.since = v :=
  stepAt_isSome_iff.mp (by rw [h]; rfl)

variable (idents ty) in
theorem actionAt_added {added : AddedAttributes} (h : added ∈ self.added) :
    self.actionAt idents ty added.since =
      some (.addition (self.first idents ty).1 added.defaultFn (self.first idents ty).2) := by
  rw [Option.mem_def] at h
  rw [actionAt, h, Option.filter_some]
  simp

theorem actionAt_changed (hordered : self.Ordered) {step : Step}
    (h : stepAt (self.last idents ty) self.changes v = some step) :
    self.actionAt idents ty v = some step.status := by
  obtain ⟨change, hmem, hsince⟩ := exists_change_of_stepAt h
  have hadded : (self.added.filter fun added => added.since = v) = none := by
    rw [Option.filter_eq_none_iff]
    intro added hadded
    have hlt := hordered.added_lt_changed added hadded change hmem
    simp [(hsince ▸ hlt).ne]
  rw [actionAt, hadded, h]
  rfl

theorem actionAt_deprecated (hordered : self.Ordered) {deprecated : DeprecatedAttributes}
    (h : deprecated ∈ self.deprecated) :
    self.actionAt idents ty deprecated.since = some (.deprecation (ItemIdents.cleaned idents)
      deprecated.note (ItemIdents.original idents)) := by
  have hadded : (self.added.filter fun added => added.since = deprecated.since) = none := by
    rw [Option.filter_eq_none_iff]
    intro added hadded
    simp [(hordered.added_lt_deprecated added hadded deprecated h).ne]
  have hstep : stepAt (self.last idents ty) self.changes deprecated.since = none := by
    rcases hstep : stepAt (self.last idents ty) self.changes deprecated.since with _ | step
    · rfl
    · obtain ⟨change, hmem, hsince⟩ := exists_change_of_stepAt hstep
      exact absurd hsince (hordered.changed_lt_deprecated deprecated h change hmem).ne
  rw [Option.mem_def] at h
  rw [actionAt, hadded, hstep, h, Option.filter_some]
  simp

/-- The addition comes first. -/
theorem le_of_actionAt_of_added (hordered : self.Ordered) {added : AddedAttributes}
    (hadded : added ∈ self.added) (h : self.actionAt idents ty v = some status) :
    added.since ≤ v := by
  rcases actionAt_cases h with ⟨added', hadded', rfl, -⟩ | ⟨step, hstep, -⟩ |
    ⟨deprecated, hdeprecated, rfl, -⟩
  · rw [Option.mem_unique hadded hadded']
  · obtain ⟨change, hmem, rfl⟩ := exists_change_of_stepAt hstep
    exact (hordered.added_lt_changed added hadded change hmem).le
  · exact (hordered.added_lt_deprecated added hadded deprecated hdeprecated).le

/-- The deprecation comes last. -/
theorem le_of_actionAt_of_deprecated (hordered : self.Ordered)
    {deprecated : DeprecatedAttributes} (hdeprecated : deprecated ∈ self.deprecated)
    (h : self.actionAt idents ty v = some status) : v ≤ deprecated.since := by
  rcases actionAt_cases h with ⟨added, hadded, rfl, -⟩ | ⟨step, hstep, -⟩ |
    ⟨deprecated', hdeprecated', rfl, -⟩
  · exact (hordered.added_lt_deprecated added hadded deprecated hdeprecated).le
  · obtain ⟨change, hmem, rfl⟩ := exists_change_of_stepAt hstep
    exact (hordered.changed_lt_deprecated deprecated hdeprecated change hmem).le
  · rw [Option.mem_unique hdeprecated hdeprecated']

/-- The changeset of an item with actions. -/
theorem isActions_of_get? (hordered : self.Ordered) (hversioned : self.IsVersioned)
    {actions : Changeset}
    (hget : ∀ v, get? (M := BTreeMap Version) actions v = self.actionAt idents ty v) :
    actions.IsActions where
  nonempty := by
    rcases hversioned with hadded | hchanges | hdeprecated
    · obtain ⟨added, hadded⟩ := Option.ne_none_iff_exists'.mp hadded
      exact ⟨added.since, _, (hget _).trans (actionAt_added idents ty hadded)⟩
    · obtain ⟨change, hmem⟩ := List.exists_mem_of_ne_nil _ hchanges
      have hsome : (stepAt (self.last idents ty) self.changes change.since).isSome = true :=
        stepAt_isSome_iff.mpr ⟨change, hmem, rfl⟩
      obtain ⟨step, hstep⟩ := Option.isSome_iff_exists.mp hsome
      exact ⟨change.since, _, (hget _).trans (actionAt_changed hordered hstep)⟩
    · obtain ⟨deprecated, hdeprecated⟩ := Option.ne_none_iff_exists'.mp hdeprecated
      exact ⟨deprecated.since, _, (hget _).trans (actionAt_deprecated hordered hdeprecated)⟩
  isAction := by
    intro v status h
    rw [hget] at h
    rcases actionAt_cases h with ⟨_, -, -, rfl⟩ | ⟨_, -, rfl⟩ | ⟨_, -, -, rfl⟩ <;> trivial
  addition_first := by
    intro v status v' status' h hstatus h'
    rw [hget] at h h'
    rcases actionAt_cases h with ⟨added, hmem, rfl, -⟩ | ⟨_, -, rfl⟩ | ⟨_, -, -, rfl⟩
    · exact le_of_actionAt_of_added hordered hmem h'
    · exact absurd hstatus id
    · exact absurd hstatus id
  deprecation_last := by
    intro v status v' status' h hstatus h'
    rw [hget] at h h'
    rcases actionAt_cases h with ⟨_, -, -, rfl⟩ | ⟨_, -, rfl⟩ | ⟨deprecated, hmem, rfl, -⟩
    · exact absurd hstatus id
    · exact absurd hstatus id
    · exact le_of_actionAt_of_deprecated hordered hmem h'

end CommonItemAttributes

end VersionedMacros

end StackableOperator
