import Mathlib
import StackableOperator.ForMathlib.Neighbors
import StackableOperator.VersionedMacros.Changeset

/-!
# The statuses of all declared versions

Declared versions without an action get a status from their neighbours. `statusAt` is the status
that a version gets from the actions alone, and `exists_insertContainerVersions` says that the
loop, which reads the map that it fills, assigns exactly these statuses and never reaches an
`unreachable!`.
-/

namespace StackableOperator

namespace VersionedMacros

open IterMap (get?)

/-! ### The model of the source -/

/-- The values of the keys that are neighbours of a key. -/
def getNeighbors (self : Changeset) (key : Version) :
    Except Failure (Option ItemStatus × Option ItemStatus) :=
  match BTreeMap.loBound self key, BTreeMap.upBound self key with
  | some (k, v), none =>
    if key > k then .ok (some v, none)
    else .ok ((BTreeMap.loBound self k).map Prod.snd, none)
  | none, some (k, v) =>
    if key < k then .ok (none, some v)
    else .ok (none, (BTreeMap.upBound self k).map Prod.snd)
  | some (_, lo), some (_, up) => .ok (some lo, some up)
  | none, none => .error .panic

/-- The status of a version without an action, from its neighbours. -/
def neighborStatus (ty : RustType) :
    Option ItemStatus × Option ItemStatus → Except Failure ItemStatus
  | (none, some status) =>
    match status with
    | .addition _ _ _ => .ok .notPresent
    | .change _ _ fromIdent _ fromType _ => .ok (.noChange false fromIdent fromType)
    | .deprecation previousIdent _ _ => .ok (.noChange false previousIdent ty)
    | .noChange previouslyDeprecated ident ty => .ok (.noChange previouslyDeprecated ident ty)
    | .notPresent => .error .panic
  | (some status, none) =>
    match status with
    | .addition ident _ ty => .ok (.noChange false ident ty)
    | .change _ _ _ toIdent _ toType => .ok (.noChange false toIdent toType)
    | .deprecation _ _ ident => .ok (.noChange true ident ty)
    | .noChange previouslyDeprecated ident ty => .ok (.noChange previouslyDeprecated ident ty)
    | .notPresent => .error .panic
  | (some status, some _) =>
    match status with
    | .addition ident _ ty => .ok (.noChange false ident ty)
    | .change _ _ _ toIdent _ toType => .ok (.noChange false toIdent toType)
    | .noChange previouslyDeprecated ident ty => .ok (.noChange previouslyDeprecated ident ty)
    | .notPresent => .ok .notPresent
    | .deprecation _ _ _ => .error .panic
  | (none, none) => .error .panic

def insertContainerVersions (ty : RustType) :
    Changeset → List VersionDefinition → Except Failure Changeset
  | self, [] => .ok self
  | self, version :: versions =>
    if (get? (M := BTreeMap Version) self version.inner).isSome then
      insertContainerVersions ty self versions
    else do
      let neighbors ← getNeighbors self version.inner
      let status ← neighborStatus ty neighbors
      insertContainerVersions ty
        (IterMap.insert (M := BTreeMap Version) self version.inner status) versions

/-! ### The versions without an action -/

namespace ItemStatus

/-- The status after a version with the given status. -/
def carry (ty : RustType) : ItemStatus → ItemStatus
  | addition ident _ ty => noChange false ident ty
  | change _ _ _ toIdent _ toType => noChange false toIdent toType
  | deprecation _ _ ident => noChange true ident ty
  | noChange previouslyDeprecated ident ty => noChange previouslyDeprecated ident ty
  | notPresent => notPresent

/-- The status before the first action. -/
def backfill (ty : RustType) : ItemStatus → ItemStatus
  | addition _ _ _ => notPresent
  | change _ _ fromIdent _ fromType _ => noChange false fromIdent fromType
  | deprecation previousIdent _ _ => noChange false previousIdent ty
  | noChange previouslyDeprecated ident ty => noChange previouslyDeprecated ident ty
  | notPresent => notPresent

@[simp] theorem carry_carry (ty : RustType) (s : ItemStatus) :
    (s.carry ty).carry ty = s.carry ty := by
  rcases s <;> rfl

@[simp] theorem carry_backfill (ty : RustType) (s : ItemStatus) :
    (s.backfill ty).carry ty = s.backfill ty := by
  rcases s <;> rfl

theorem not_isDeprecation_carry {ty : RustType} {s : ItemStatus} :
    ¬ (s.carry ty).IsDeprecation := by
  rcases s <;> exact id

theorem not_isDeprecation_backfill {ty : RustType} {s : ItemStatus} :
    ¬ (s.backfill ty).IsDeprecation := by
  rcases s <;> exact id

theorem not_isAddition_carry {ty : RustType} {s : ItemStatus} : ¬ (s.carry ty).IsAddition := by
  rcases s <;> exact id

theorem not_isAddition_backfill {ty : RustType} {s : ItemStatus} :
    ¬ (s.backfill ty).IsAddition := by
  rcases s <;> exact id

theorem carry_ne_notPresent {ty : RustType} {s : ItemStatus} (h : s.IsAction) :
    s.carry ty ≠ notPresent := by
  rcases s <;> simp_all [IsAction, carry]

theorem ne_notPresent {s : ItemStatus} (h : s.IsAction) : s ≠ notPresent := by
  rintro rfl
  exact h

end ItemStatus

namespace Changeset

/-- The status of a version: its action, else what the last action before it left, else what the
first action after it found. -/
def statusAt (ty : RustType) (actions : Changeset) (v : Version) : ItemStatus :=
  match get? (M := BTreeMap Version) actions v with
  | some status => status
  | none =>
    match BTreeMap.loBound actions v with
    | some (_, status) => status.carry ty
    | none =>
      match BTreeMap.upBound actions v with
      | some (_, status) => status.backfill ty
      | none => .notPresent

section StatusAt

variable {ty : RustType} {actions : Changeset} {v w : Version} {status : ItemStatus}

theorem statusAt_of_get? (h : get? (M := BTreeMap Version) actions v = some status) :
    statusAt ty actions v = status := by
  rw [statusAt, h]

theorem statusAt_of_loBound {k : Version} (h : get? (M := BTreeMap Version) actions v = none)
    (hlo : BTreeMap.loBound actions v = some (k, status)) :
    statusAt ty actions v = status.carry ty := by
  rw [statusAt, h, hlo]

theorem statusAt_of_upBound {k : Version} (h : get? (M := BTreeMap Version) actions v = none)
    (hlo : BTreeMap.loBound actions v = none)
    (hup : BTreeMap.upBound actions v = some (k, status)) :
    statusAt ty actions v = status.backfill ty := by
  rw [statusAt, h, hlo, hup]

theorem not_isAddition_statusAt (h : get? (M := BTreeMap Version) actions v = none) :
    ¬ (statusAt ty actions v).IsAddition := by
  rw [statusAt, h]
  rcases BTreeMap.loBound actions v with _ | e
  · rcases BTreeMap.upBound actions v with _ | e
    · exact id
    · exact ItemStatus.not_isAddition_backfill
  · exact ItemStatus.not_isAddition_carry

/-- **A version without an action continues the version before it.** -/
theorem statusAt_eq_carry (hvw : v < w)
    (hgap : ∀ k, v < k → k ≤ w → get? (M := BTreeMap Version) actions k = none) :
    statusAt ty actions w = (statusAt ty actions v).carry ty := by
  have hw : get? (M := BTreeMap Version) actions w = none := hgap w hvw le_rfl
  rcases hv : get? (M := BTreeMap Version) actions v with _ | status
  · have hlo : BTreeMap.loBound actions w = BTreeMap.loBound actions v := by
      refine BTreeMap.loBound_eq_of_gap hvw.le ?_
      intro k hk hkw
      rcases hk.eq_or_lt with rfl | hk
      · exact hv
      · exact hgap k hk hkw.le
    have hup : BTreeMap.upBound actions w = BTreeMap.upBound actions v :=
      BTreeMap.upBound_eq_of_gap hvw.le hgap
    rw [statusAt, statusAt, hv, hw, hlo, hup]
    rcases BTreeMap.loBound actions v with _ | e
    · rcases BTreeMap.upBound actions v with _ | e
      · rfl
      · exact (ItemStatus.carry_backfill ty e.2).symm
    · exact (ItemStatus.carry_carry ty e.2).symm
  · have hlo : BTreeMap.loBound actions w = some (v, status) := by
      refine BTreeMap.loBound_eq_some_iff.mpr ⟨hv, hvw, ?_⟩
      intro k status' hk hstatus'
      by_contra hlt
      exact absurd (hstatus'.symm.trans (hgap k (not_le.mp hlt) hk.le)) (by simp)
    rw [statusAt_of_loBound hw hlo, statusAt_of_get? hv]

/-- A deprecated version has no action after it. -/
theorem upBound_eq_none_of_isDeprecation (hactions : actions.IsActions)
    (h : (statusAt ty actions v).IsDeprecation) : BTreeMap.upBound actions v = none := by
  rcases hv : get? (M := BTreeMap Version) actions v with _ | status
  · rcases hlo : BTreeMap.loBound actions v with _ | e
    · rcases hup : BTreeMap.upBound actions v with _ | e
      · rfl
      · rw [statusAt_of_upBound hv hlo hup] at h
        exact absurd h ItemStatus.not_isDeprecation_backfill
    · rw [statusAt_of_loBound hv hlo] at h
      exact absurd h ItemStatus.not_isDeprecation_carry
  · rw [statusAt_of_get? hv] at h
    refine BTreeMap.upBound_eq_none_iff.mpr fun k hk => ?_
    rcases hstatus : get? (M := BTreeMap Version) actions k with _ | status'
    · rfl
    · exact absurd hk (not_lt.mpr (hactions.deprecation_last hv h hstatus))

/-- An item is absent only before its addition. -/
theorem exists_upBound_of_eq_notPresent (hactions : actions.IsActions)
    (h : statusAt ty actions v = .notPresent) : ∃ e, BTreeMap.upBound actions v = some e := by
  rcases hv : get? (M := BTreeMap Version) actions v with _ | status
  · rw [statusAt, hv] at h
    rcases hlo : BTreeMap.loBound actions v with _ | e
    · rcases hup : BTreeMap.upBound actions v with _ | e
      · obtain ⟨k, status, hk⟩ := hactions.nonempty
        rcases lt_trichotomy k v with hlt | rfl | hlt
        · exact absurd (hk.symm.trans (BTreeMap.loBound_eq_none_iff.mp hlo k hlt)) (by simp)
        · exact absurd (hk.symm.trans hv) (by simp)
        · exact absurd (hk.symm.trans (BTreeMap.upBound_eq_none_iff.mp hup k hlt)) (by simp)
      · exact ⟨e, rfl⟩
    · rw [hlo] at h
      obtain ⟨he, -⟩ := BTreeMap.loBound_eq_some_iff.mp hlo
      exact absurd h (ItemStatus.carry_ne_notPresent (hactions.isAction he))
  · rw [statusAt_of_get? hv] at h
    exact absurd h (ItemStatus.ne_notPresent (hactions.isAction hv))

end StatusAt

/-! ### The loop -/

section Loop

variable {ty : RustType} {actions filled : Changeset} {done : List Version}

/-- The statuses of the versions in the list have been inserted. -/
def Fills (ty : RustType) (actions : Changeset) (done : List Version) (filled : Changeset) : Prop :=
  ∀ v, get? (M := BTreeMap Version) filled v =
    if v ∈ done then some (statusAt ty actions v) else get? (M := BTreeMap Version) actions v

theorem getNeighbors_eq_ok {v : Version} {lo up : Option (Version × ItemStatus)}
    (hlo : BTreeMap.loBound filled v = lo) (hup : BTreeMap.upBound filled v = up)
    (h : lo ≠ none ∨ up ≠ none) :
    getNeighbors filled v = .ok (lo.map Prod.snd, up.map Prod.snd) := by
  rw [getNeighbors, hlo, hup]
  rcases lo with _ | lo <;> rcases up with _ | up
  · simp at h
  · have hlt : v < up.1 := (BTreeMap.upBound_eq_some_iff.mp hup).2.1
    simp [hlt]
  · have hlt : lo.1 < v := (BTreeMap.loBound_eq_some_iff.mp hlo).2.1
    simp [hlt]
  · rfl

theorem neighborStatus_of_some {status : ItemStatus} {up : Option ItemStatus}
    (hdeprecation : status.IsDeprecation → up = none)
    (hpresent : status = .notPresent → up ≠ none) :
    neighborStatus ty (some status, up) = .ok (status.carry ty) := by
  rcases up with _ | up
  · rcases status with _ | _ | _ | _ | _
    · rfl
    · rfl
    · rfl
    · rfl
    · exact absurd rfl (hpresent rfl)
  · rcases status with _ | _ | _ | _ | _
    · rfl
    · rfl
    · exact absurd (hdeprecation trivial) (by simp)
    · rfl
    · rfl

theorem neighborStatus_of_none {status : ItemStatus} (h : status.IsAction) :
    neighborStatus ty (none, some status) = .ok (status.backfill ty) := by
  rcases status with _ | _ | _ | _ | _
  · rfl
  · rfl
  · rfl
  · exact absurd h id
  · exact absurd h id

/-- The neighbours of the next version determine its status. -/
theorem neighborStatus_eq_ok (hactions : actions.IsActions) (hfills : Fills ty actions done filled)
    {v : Version} (hdone : ∀ w ∈ done, w < v) (hsorted : done.Pairwise (· < ·))
    (hkeys : ∀ k status, get? (M := BTreeMap Version) actions k = some status → k < v → k ∈ done)
    (hv : get? (M := BTreeMap Version) actions v = none) :
    ∃ neighbors, getNeighbors filled v = .ok neighbors ∧
      neighborStatus ty neighbors = .ok (statusAt ty actions v) := by
  -- above the version only the actions count
  have hup : BTreeMap.upBound filled v = BTreeMap.upBound actions v := by
    refine BTreeMap.upBound_congr fun k hk => ?_
    rw [hfills k, if_neg fun hmem => absurd (hdone k hmem) (not_lt.mpr hk.le)]
  -- the first version has no neighbour below, any other one the version before it
  rcases List.eq_nil_or_concat done with rfl | ⟨d, p, rfl⟩
  -- nothing is filled in yet
  · have hlo : BTreeMap.loBound filled v = none := by
      refine BTreeMap.loBound_eq_none_iff.mpr fun k hk => ?_
      rw [hfills k, if_neg List.not_mem_nil]
      rcases hstatus : get? (M := BTreeMap Version) actions k with _ | status
      · rfl
      · exact absurd (hkeys k status hstatus hk) List.not_mem_nil
    have hlo' : BTreeMap.loBound actions v = none := by
      rw [← hlo]
      exact (BTreeMap.loBound_congr fun k _ => by rw [hfills k, if_neg List.not_mem_nil]).symm
    -- an action lies above, since there is one at all
    rcases hup' : BTreeMap.upBound actions v with _ | e
    · obtain ⟨k, status, hk⟩ := hactions.nonempty
      rcases lt_trichotomy k v with hlt | rfl | hlt
      · exact absurd (hkeys k status hk hlt) List.not_mem_nil
      · exact absurd (hk.symm.trans hv) (by simp)
      · exact absurd (hk.symm.trans (BTreeMap.upBound_eq_none_iff.mp hup' k hlt)) (by simp)
    · refine ⟨(none, some e.2), getNeighbors_eq_ok hlo (hup.trans hup') (by simp), ?_⟩
      obtain ⟨he, -⟩ := BTreeMap.upBound_eq_some_iff.mp hup'
      rw [statusAt_of_upBound hv hlo' hup', neighborStatus_of_none (hactions.isAction he)]
  · rw [List.concat_eq_append] at *
    have hpv : p < v := hdone p (by simp)
    have hle : ∀ k ∈ d ++ [p], k ≤ p := by
      intro k hk
      rcases List.mem_append.mp hk with hk | hk
      · exact ((List.pairwise_append.mp hsorted).2.2 k hk p (by simp)).le
      · exact (List.mem_singleton.mp hk).le
    -- no action lies between the version before and this one
    have hgap : ∀ k, p < k → k ≤ v → get? (M := BTreeMap Version) actions k = none := by
      intro k hpk hkv
      rcases hkv.eq_or_lt with rfl | hkv
      · exact hv
      · rcases hstatus : get? (M := BTreeMap Version) actions k with _ | status
        · rfl
        · exact absurd (hle k (hkeys k status hstatus hkv)) (not_le.mpr hpk)
    -- so the version before is the neighbour, with its status
    have hlo : BTreeMap.loBound filled v = some (p, statusAt ty actions p) := by
      refine BTreeMap.loBound_eq_some_iff.mpr ⟨?_, hpv, ?_⟩
      · rw [hfills p, if_pos (by simp)]
      · intro k status hkv hk
        rw [hfills k] at hk
        split_ifs at hk with hmem
        · exact hle k hmem
        · exact hle k (hkeys k status hk hkv)
    have hup' : BTreeMap.upBound actions v = BTreeMap.upBound actions p :=
      BTreeMap.upBound_eq_of_gap hpv.le hgap
    refine ⟨_, getNeighbors_eq_ok hlo (hup.trans hup') (by simp), ?_⟩
    rw [statusAt_eq_carry hpv hgap]
    refine neighborStatus_of_some ?_ ?_
    · intro hdeprecation
      rw [upBound_eq_none_of_isDeprecation hactions hdeprecation]
      rfl
    · intro hpresent
      obtain ⟨e, he⟩ := exists_upBound_of_eq_notPresent hactions hpresent
      rw [he]
      simp

/-- What one round of the loop inserts. -/
theorem Fills.insert (h : Fills ty actions done filled) (v : Version) :
    Fills ty actions (done ++ [v])
      (IterMap.insert (M := BTreeMap Version) filled v (statusAt ty actions v)) := by
  intro k
  by_cases hk : k = v
  · subst hk
    rw [IterMap.get?_insert_self, if_pos (by simp)]
  · rw [IterMap.get?_insert_of_ne _ _ hk, h k]
    simp [hk]

/-- A version with an action already has its status. -/
theorem Fills.skip (h : Fills ty actions done filled) {v : Version} {status : ItemStatus}
    (hv : get? (M := BTreeMap Version) actions v = some status) :
    Fills ty actions (done ++ [v]) filled := by
  intro k
  rw [h k]
  by_cases hk : k = v
  · subst hk
    rw [if_pos (by simp : k ∈ done ++ [k]), hv, statusAt_of_get? hv, ite_self]
  · simp [hk]

theorem exists_insertContainerVersions_of_fills (hactions : actions.IsActions)
    {versions : List VersionDefinition} (hfills : Fills ty actions done filled)
    (hsorted : (done ++ versions.map VersionDefinition.inner).Pairwise (· < ·))
    (hkeys : ∀ k status, get? (M := BTreeMap Version) actions k = some status →
      k ∈ done ++ versions.map VersionDefinition.inner) :
    ∃ result, insertContainerVersions ty filled versions = .ok result ∧
      Fills ty actions (done ++ versions.map VersionDefinition.inner) result := by
  induction versions generalizing done filled with
  | nil => exact ⟨filled, rfl, by simpa using hfills⟩
  | cons version versions ih =>
    rw [List.map_cons, List.append_cons] at hsorted hkeys ⊢
    obtain ⟨hdone, -, hlt⟩ := List.pairwise_append.mp (List.pairwise_append.mp hsorted).1
    have hnot : version.inner ∉ done := by
      intro hmem
      exact absurd (hlt _ hmem version.inner (by simp)) (lt_irrefl _)
    -- the version is not filled in yet
    have hget : get? (M := BTreeMap Version) filled version.inner =
        get? (M := BTreeMap Version) actions version.inner := by
      rw [hfills, if_neg hnot]
    rw [insertContainerVersions, hget]
    rcases hv : get? (M := BTreeMap Version) actions version.inner with _ | status
    -- every action below the version is filled in
    · have hbelow : ∀ k status, get? (M := BTreeMap Version) actions k = some status →
          k < version.inner → k ∈ done := by
        intro k status hstatus hk
        rcases List.mem_append.mp (hkeys k status hstatus) with hmem | hmem
        · rcases List.mem_append.mp hmem with hmem | hmem
          · exact hmem
          · exact absurd hk (by simp [List.mem_singleton.mp hmem])
        · have hgt := (List.pairwise_append.mp hsorted).2.2 version.inner (by simp) k hmem
          exact absurd hk (not_lt.mpr hgt.le)
      obtain ⟨neighbors, hneighbors, hstatus⟩ := neighborStatus_eq_ok hactions hfills
        (fun w hw => hlt w hw version.inner (by simp)) hdone hbelow hv
      simp only [Option.isSome_none, Bool.false_eq_true, if_false, hneighbors, hstatus, bind,
        Except.bind]
      exact ih (hfills.insert version.inner) hsorted hkeys
    · exact ih (hfills.skip hv) hsorted hkeys

/-- **Every declared version gets its status**, and no `unreachable!` is reached. -/
theorem exists_insertContainerVersions (hactions : actions.IsActions)
    {versions : List VersionDefinition}
    (hsorted : (versions.map VersionDefinition.inner).Pairwise (· < ·))
    (hkeys : ∀ k status, get? (M := BTreeMap Version) actions k = some status →
      k ∈ versions.map VersionDefinition.inner) :
    ∃ result, insertContainerVersions ty actions versions = .ok result ∧ ∀ v,
      get? (M := BTreeMap Version) result v =
        if v ∈ versions.map VersionDefinition.inner then some (statusAt ty actions v)
        else none := by
  have hfills : Fills ty actions [] actions := fun v => (if_neg List.not_mem_nil).symm
  obtain ⟨result, hresult, hget⟩ :=
    exists_insertContainerVersions_of_fills hactions hfills hsorted hkeys
  refine ⟨result, hresult, ?_⟩
  intro v
  rw [hget v, List.nil_append]
  split_ifs with hmem
  · rfl
  · rcases hstatus : get? (M := BTreeMap Version) actions v with _ | status
    · rfl
    · exact absurd (hkeys v status hstatus) hmem

end Loop

end Changeset

end VersionedMacros

end StackableOperator
