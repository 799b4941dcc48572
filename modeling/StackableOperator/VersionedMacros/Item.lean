import Mathlib
import StackableOperator.VersionedMacros.Changes

/-!
# The statuses of an accepted item

A field or variant that passes the validation, and whose changes state identifiers, gets a status
in every declared version (`exists_hasStatuses`). It is absent exactly before its addition
(`HasStatuses.eq_notPresent_iff`).
-/

namespace StackableOperator

namespace VersionedMacros

open IterMap (get?)

/-- The direction of a conversion. -/
inductive Direction : Type
  | upgrade
  | downgrade
  deriving DecidableEq

/-- Remove the first text from the start of the second one as often as possible, at most `n`
times. -/
def trimStart (p : List Char) : ℕ → List Char → List Char
  | 0, cs => cs
  | n + 1, cs => if p.isPrefixOf cs then trimStart p n (cs.drop p.length) else cs

def trimStartMatches (s p : String) : String :=
  String.ofList (trimStart p.toList s.length s.toList)

/-- The name and the type that a status defines in a version, for an item of a declared type. -/
def ItemStatus.emitted (ty : RustType) : ItemStatus → Option (Ident × RustType)
  | addition ident _ ty => some (ident, ty)
  | change _ _ _ toIdent _ toType => some (toIdent, toType)
  | deprecation _ _ ident => some (ident, ty)
  | noChange _ ident ty => some (ident, ty)
  | notPresent => none

theorem ItemStatus.isSome_emitted_iff {ty : RustType} {status : ItemStatus} :
    (status.emitted ty).isSome = true ↔ status ≠ .notPresent := by
  rcases status <;> simp [ItemStatus.emitted]

namespace CommonItemAttributes

variable {T : Type} [ItemIdents T]

/-- The statuses of an item with actions, in all declared versions. -/
structure HasStatuses (attributes : CommonItemAttributes) (idents : T) (ty : RustType)
    (versions : List VersionDefinition) (actions changes : Changeset) : Prop where
  isVersioned : attributes.IsVersioned
  ordered : attributes.Ordered
  get?_actions : ∀ v, get? (M := BTreeMap Version) actions v = attributes.actionAt idents ty v
  get?_changes : ∀ v, get? (M := BTreeMap Version) changes v =
    if v ∈ versions.map VersionDefinition.inner then some (Changeset.statusAt ty actions v)
    else none

variable {self : CommonItemAttributes} {idents : T} {ty : RustType} {actions changes : Changeset}
  {versions : List VersionDefinition} {isIdent : String → Bool}

/-- The actions of an accepted item use declared versions. -/
theorem mem_of_actionAt (h : self.validateVersions versions = .ok ()) {v : Version}
    {status : ItemStatus} (haction : self.actionAt idents ty v = some status) :
    v ∈ versions.map VersionDefinition.inner := by
  obtain ⟨hadded, hchanges, hdeprecated⟩ := declared_of_validateVersions h
  rcases actionAt_cases haction with ⟨added, hmem, rfl, -⟩ | ⟨_, hstep, -⟩ |
    ⟨deprecated, hmem, rfl, -⟩
  · exact hadded added hmem
  · obtain ⟨change, hmem, rfl⟩ := exists_change_of_stepAt hstep
    exact hchanges change hmem
  · exact hdeprecated deprecated hmem

variable (idents ty) in
/-- **An accepted item whose names are identifiers** gets the statuses of its actions. -/
theorem exists_hasStatuses (hversions : (versions.map VersionDefinition.inner).Pairwise (· < ·))
    (hordered : self.Ordered) (hdeclared : self.validateVersions versions = .ok ())
    (hnames : NamesAreIdents isIdent self.changes) :
    (self.intoChangeset isIdent idents ty = .ok none ∧ ¬ self.IsVersioned) ∨
      ∃ actions changes, self.intoChangeset isIdent idents ty = .ok (some actions) ∧
        insertContainerVersions ty actions versions = .ok changes ∧
        self.HasStatuses idents ty versions actions changes := by
  obtain ⟨result, hresult, hversioned, hget⟩ : ∃ result,
      self.intoChangeset isIdent idents ty = .ok result ∧ _ := exists_intoChangeset hnames
  rcases result with _ | actions
  · exact Or.inl ⟨hresult, by simpa using hversioned⟩
  · have hisVersioned := hversioned.mp rfl
    have hactions := isActions_of_get? hordered hisVersioned (hget actions rfl)
    obtain ⟨changes, hchanges, hstatus⟩ := Changeset.exists_insertContainerVersions hactions
      hversions (fun k status hk => mem_of_actionAt hdeclared ((hget actions rfl k).symm.trans hk))
    exact Or.inr ⟨actions, changes, hresult, hchanges,
      ⟨hisVersioned, hordered, hget actions rfl, hstatus⟩⟩

namespace HasStatuses

theorem isActions (h : self.HasStatuses idents ty versions actions changes) : actions.IsActions :=
  isActions_of_get? h.ordered h.isVersioned h.get?_actions

/-- The status of a declared version. -/
theorem get?_of_mem (h : self.HasStatuses idents ty versions actions changes)
    {version : VersionDefinition} (hversion : version ∈ versions) :
    get? (M := BTreeMap Version) changes version.inner =
      some (Changeset.statusAt ty actions version.inner) := by
  rw [h.get?_changes, if_pos (List.mem_map_of_mem hversion)]

/-- An item is absent exactly before its addition. -/
theorem eq_notPresent_iff (h : self.HasStatuses idents ty versions actions changes)
    {v : Version} :
    Changeset.statusAt ty actions v = .notPresent ↔ ∃ added ∈ self.added, v < added.since := by
  constructor
  · intro hstatus
    have hv : get? (M := BTreeMap Version) actions v = none := by
      rcases hv : get? (M := BTreeMap Version) actions v with _ | status
      · rfl
      · rw [Changeset.statusAt_of_get? hv] at hstatus
        exact absurd hstatus (ItemStatus.ne_notPresent (h.isActions.isAction hv))
    -- an absent item has no action so far, and one later, which is the addition
    obtain ⟨⟨k, status⟩, hup⟩ := Changeset.exists_upBound_of_eq_notPresent h.isActions hstatus
    obtain ⟨hk, hvk, -⟩ := BTreeMap.upBound_eq_some_iff.mp hup
    rcases hlo : BTreeMap.loBound actions v with _ | ⟨k', status'⟩
    · rw [Changeset.statusAt_of_upBound hv hlo hup] at hstatus
      rw [h.get?_actions] at hk
      rcases actionAt_cases hk with ⟨added, hadded, rfl, -⟩ | ⟨_, -, rfl⟩ | ⟨_, -, -, rfl⟩
      · exact ⟨added, hadded, hvk⟩
      · simp [ItemStatus.backfill, Step.status] at hstatus
      · simp [ItemStatus.backfill] at hstatus
    · rw [Changeset.statusAt_of_loBound hv hlo] at hstatus
      obtain ⟨hk', -⟩ := BTreeMap.loBound_eq_some_iff.mp hlo
      exact absurd hstatus (ItemStatus.carry_ne_notPresent (h.isActions.isAction hk'))
  · rintro ⟨added, hadded, hlt⟩
    -- conversely no action comes before the addition
    have hle : ∀ k status, get? (M := BTreeMap Version) actions k = some status →
        added.since ≤ k := by
      intro k status hk
      rw [h.get?_actions] at hk
      exact le_of_actionAt_of_added h.ordered hadded hk
    have hnone : ∀ k ≤ v, get? (M := BTreeMap Version) actions k = none := by
      intro k hkv
      rcases hk : get? (M := BTreeMap Version) actions k with _ | status
      · rfl
      · exact absurd (hle k status hk) (not_le.mpr (hkv.trans_lt hlt))
    have hlo : BTreeMap.loBound actions v = none :=
      BTreeMap.loBound_eq_none_iff.mpr fun k hk => hnone k hk.le
    have hup : BTreeMap.upBound actions v = some (added.since, .addition (self.first idents ty).1
        added.defaultFn (self.first idents ty).2) :=
      BTreeMap.upBound_eq_some_iff.mpr
        ⟨(h.get?_actions _).trans (actionAt_added idents ty hadded), hlt,
          fun k status _ hk => hle k status hk⟩
    rw [Changeset.statusAt_of_upBound (hnone v le_rfl) hlo hup]
    rfl

/-- Only the version of the addition has an addition. -/
theorem isAddition_iff (h : self.HasStatuses idents ty versions actions changes) {v : Version} :
    (Changeset.statusAt ty actions v).IsAddition ↔ ∃ added ∈ self.added, added.since = v := by
  constructor
  · intro haddition
    rcases hv : get? (M := BTreeMap Version) actions v with _ | status
    · exact absurd haddition (Changeset.not_isAddition_statusAt hv)
    · rw [Changeset.statusAt_of_get? hv] at haddition
      rw [h.get?_actions] at hv
      rcases actionAt_cases hv with ⟨added, hadded, rfl, -⟩ | ⟨_, -, rfl⟩ | ⟨_, -, -, rfl⟩
      · exact ⟨added, hadded, rfl⟩
      · exact absurd haddition id
      · exact absurd haddition id
  · rintro ⟨added, hadded, rfl⟩
    rw [Changeset.statusAt_of_get? ((h.get?_actions _).trans (actionAt_added idents ty hadded))]
    trivial

end HasStatuses

end CommonItemAttributes

/-! ### Three versions -/

/-- The ASCII identifiers. -/
def isAsciiIdent (name : String) : Bool :=
  match name.toList with
  | [] => false
  | c :: cs => (c.isAlpha || c == '_') && cs.all fun c => c.isAlphanum || c == '_'

/-- `v1alpha1`, `v1beta1` and `v1`. -/
def threeArguments : List VersionArguments :=
  [⟨none, false, ⟨1, some (.alpha 1)⟩⟩, ⟨none, false, ⟨1, some (.beta 1)⟩⟩,
    ⟨none, false, ⟨1, none⟩⟩]

def threeVersions : List VersionDefinition := threeArguments.map VersionArguments.toDefinition

def renamedIn (version : Version) (fromName : String) : ChangedAttributes where
  since := version
  fromName := some fromName
  fromType := none
  upgradeWith := none
  downgradeWith := none

end VersionedMacros

end StackableOperator
