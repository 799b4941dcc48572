import Mathlib
import StackableOperator.Status.Condition

/-!
# What the merged conditions say

For a type, the **reports** of a list of builders are the conditions of this type that their
sets hold, in the order of the builders. `computeConditions` works on reports:
`computeConditions_eq` describes its result type by type as the stored condition merged with
the fold of the reports.

Not all reports count, however. A builder that returns the default set discards what the
builders before it reported, so that only the **effective** builders remain, those after the
last default set. `computeConditions_complete_iff` says exactly when no reported type is lost.

Status and message of a merged condition are described by `computeConditions_merged_iff`. The
status is the highest one among the effective reports. The message joins the messages of the
reports with this status, except that two absent messages at the start leave an empty line
(`residue`).
-/

namespace StackableOperator

open ConditionMap (Combines)

/-! ### Reports -/

/-- The conditions of a type that the builders report. -/
def reports (t : ClusterConditionType) (builders : List ConditionBuilder) :
    List ClusterCondition :=
  builders.filterMap fun b => b.buildConditions.get? t

/-- The builder returns the default set. -/
def ConditionBuilder.isDefault (b : ConditionBuilder) : Bool := b.buildConditions.conditions.isEmpty

/-- The builders after the last one that returns the default set. -/
def effective (builders : List ConditionBuilder) : List ConditionBuilder :=
  builders.rtakeWhile fun b => !b.isDefault

/-- The builders up to the last one that returns the default set. -/
def discarded (builders : List ConditionBuilder) : List ConditionBuilder :=
  builders.rdropWhile fun b => !b.isDefault

/-- Fold the reports for one type. -/
def mergeReports : List ClusterCondition → Option ClusterCondition
  | [] => none
  | r :: rs => some (rs.foldl higherStatus r)

theorem mergeReports_concat (rs : List ClusterCondition) (r : ClusterCondition) :
    mergeReports (rs ++ [r]) = (mergeReports rs).merge higherStatus (some r) := by
  cases rs with
  | nil => rfl
  | cons r' rs => simp [mergeReports]

theorem mergeReports_eq_none_iff {rs : List ClusterCondition} :
    mergeReports rs = none ↔ rs = [] := by
  cases rs <;> simp [mergeReports]

theorem reports_append (t : ClusterConditionType) (bs bs' : List ConditionBuilder) :
    reports t (bs ++ bs') = reports t bs ++ reports t bs' := List.filterMap_append

/-- The reports of the discarded builders come before the ones of the effective builders. -/
theorem reports_eq_append (t : ClusterConditionType) (builders : List ConditionBuilder) :
    reports t builders = reports t (discarded builders) ++ reports t (effective builders) := by
  rw [← reports_append, discarded, effective, List.rdropWhile_append_rtakeWhile]

/-- A set that a builder returns holds each condition in the slot of its type. -/
theorem type_of_mem_reports {t : ClusterConditionType} {builders : List ConditionBuilder}
    {r : ClusterCondition} (h : r ∈ reports t builders) : r.type_ = t := by
  obtain ⟨b, -, hget⟩ := List.mem_filterMap.mp h
  rcases ConditionMap.eq_default_or_exists_toSet b.constructible with hset | ⟨m, hset⟩
  · rw [hset] at hget
    cases hget
  · rw [hset, ConditionMap.get?_toSet] at hget
    exact m.type_get hget

/-- Folding conditions of one type gives a condition of this type. -/
theorem type_of_mergeReports {t : ClusterConditionType} {rs : List ClusterCondition}
    (hrs : ∀ r ∈ rs, r.type_ = t) {c : ClusterCondition} (h : mergeReports rs = some c) :
    c.type_ = t := by
  induction rs using List.reverseRecOn generalizing c with
  | nil => cases h
  | append_singleton rs r ih =>
    have hr : r.type_ = t := hrs r (by simp)
    rw [mergeReports_concat] at h
    rcases Option.merge_eq_some_iff.mp h with ⟨-, h⟩ | ⟨-, h⟩ | ⟨a, b, ha, hb, rfl⟩
    · simp at h
    · rwa [← Option.some.inj h]
    · obtain rfl := Option.some.inj hb
      have hat : a.type_ = t := ih (fun x hx => hrs x (by simp [hx])) ha
      rw [ConditionMap.combines_updateMessage.type_eq (hat.trans hr.symm), hr]

namespace ConditionMap

/-- The family of merged reports. -/
def ofReports (builders : List ConditionBuilder) : ConditionMap where
  get t := mergeReports (reports t builders)
  type_get h := type_of_mergeReports (fun _ => type_of_mem_reports) h

/-- Merging the sets of all builders gives the merged reports of the effective ones. -/
theorem foldlM_merge_builders (builders : List ConditionBuilder) :
    builders.foldlM (fun conditions cb => conditions.merge updateMessage cb.buildConditions)
      ClusterConditionSet.new = some (ofReports (effective builders)).toSet := by
  induction builders using List.reverseRecOn with
  | nil => rfl
  | append_singleton builders b ih =>
    simp only [List.foldlM_append, ih, List.foldlM_cons, List.foldlM_nil, Option.bind_eq_bind,
      Option.bind_some, Option.pure_def, Option.bind_fun_some]
    rcases eq_default_or_exists_toSet b.constructible with hset | ⟨m, hset⟩
    · -- a default set discards what was reported so far
      have heff : effective (builders ++ [b]) = [] := by
        rw [effective, List.rtakeWhile_concat_neg]
        simp [ConditionBuilder.isDefault, hset, ClusterConditionSet.default]
      rw [hset, merge_default, heff]
      rfl
    · have heff : effective (builders ++ [b]) = effective builders ++ [b] := by
        rw [effective, List.rtakeWhile_concat_pos, effective]
        simp [ConditionBuilder.isDefault, hset, toSet, ClusterConditionType.all]
      have hmerge : merge combines_updateMessage (ofReports (effective builders)) m =
          ofReports (effective builders ++ [b]) := by
        ext1
        funext t
        have hb : reports t [b] = (m.get t).toList := by
          cases hm : m.get t <;> simp [reports, hset, hm]
        change (mergeReports _).merge higherStatus (m.get t) = mergeReports _
        rw [reports_append, hb]
        cases m.get t with
        | none => simp
        | some r => exact (mergeReports_concat _ r).symm
      rw [hset, merge_toSet combines_updateMessage, heff, hmerge]

/-- The stored conditions merged with the reports of the effective builders. -/
def computed (resource : List ClusterCondition) (builders : List ConditionBuilder)
    (now : ClusterConditionType → Time) : ConditionMap :=
  merge (combines_updateTimestamps now) (ofList resource) (ofReports (effective builders))

theorem get_computed (resource : List ClusterCondition) (builders : List ConditionBuilder)
    (now : ClusterConditionType → Time) (t : ClusterConditionType) :
    (computed resource builders now).get t =
      ((ofList resource).get t).merge (fun old new => transition (now new.type_) old new)
        (mergeReports (reports t (effective builders))) := rfl

end ConditionMap

/-- **The computed conditions**: they never panic, and list the stored conditions merged with
the reports of the effective builders. -/
theorem computeConditions_eq (resource : List ClusterCondition)
    (builders : List ConditionBuilder) (now : ClusterConditionType → Time) :
    computeConditions resource builders now =
      some (ConditionMap.computed resource builders now).toList := by
  unfold computeConditions
  rw [ConditionMap.foldlM_merge_builders, ConditionMap.fromVec_eq]
  simp only [bind, Option.bind]
  rw [ConditionMap.merge_toSet (ConditionMap.combines_updateTimestamps now)]
  exact congrArg some (ConditionMap.toVec_toSet _)

/-! ### No type is lost -/

/-- A condition of the type is stored or is in the set of a builder. -/
def Present (resource : List ClusterCondition) (builders : List ConditionBuilder)
    (t : ClusterConditionType) : Prop :=
  (∃ c ∈ resource, c.type_ = t) ∨ ∃ b ∈ builders, ∃ c ∈ b.buildConditions.toVec, c.type_ = t

/-- The list has one condition for each type of which `p` holds and no other conditions, and
it is in the order of the types. -/
structure ListsTypes (p : ClusterConditionType → Prop) (conditions : List ClusterCondition) :
    Prop where
  one : ∀ t, p t → (conditions.filter fun c => c.type_ = t).length = 1
  none : ∀ t, ¬ p t → (conditions.filter fun c => c.type_ = t) = []
  sorted : conditions.Pairwise fun a b => a.type_.toUsize < b.type_.toUsize

theorem ConditionMap.listsTypes_toList_iff {p : ClusterConditionType → Prop} {m : ConditionMap} :
    ListsTypes p m.toList ↔ ∀ t, p t ↔ (m.get t).isSome = true := by
  constructor
  · intro h t
    constructor
    · intro hp
      have hone := h.one t hp
      rw [filter_toList] at hone
      cases hget : m.get t with
      | none => simp [hget] at hone
      | some c => rfl
    · intro hget
      by_contra hp
      have hnone := h.none t hp
      rw [filter_toList] at hnone
      cases hm : m.get t <;> simp [hm] at hnone hget
  · intro h
    refine ⟨fun t hp => ?_, fun t hp => ?_, m.pairwise_toList⟩
    · obtain ⟨c, hc⟩ := Option.isSome_iff_exists.mp ((h t).mp hp)
      rw [filter_toList, hc]
      rfl
    · have hnone : m.get t = Option.none :=
        Option.not_isSome_iff_eq_none.mp (mt (h t).mpr hp)
      rw [filter_toList, hnone]
      rfl

/-- What a builder reports for a type is the condition of this type in its set. -/
theorem get?_buildConditions_eq_some_iff {b : ConditionBuilder} {t : ClusterConditionType}
    {c : ClusterCondition} :
    b.buildConditions.get? t = some c ↔ c ∈ b.buildConditions.toVec ∧ c.type_ = t := by
  rcases ConditionMap.eq_default_or_exists_toSet b.constructible with hset | ⟨m, hset⟩
  · rw [hset]
    simp [ClusterConditionSet.get?, ClusterConditionSet.toVec, ClusterConditionSet.default,
      List.reduceOption]
  · rw [hset, ConditionMap.get?_toSet, ConditionMap.toVec_toSet, ConditionMap.mem_toList]
    constructor
    · intro hc
      obtain rfl := m.type_get hc
      exact ⟨hc, rfl⟩
    · rintro ⟨hc, rfl⟩
      exact hc

/-- The reports for a type are the conditions of this type in the sets of the builders. -/
theorem mem_reports_iff {t : ClusterConditionType} {builders : List ConditionBuilder}
    {c : ClusterCondition} :
    c ∈ reports t builders ↔ ∃ b ∈ builders, c ∈ b.buildConditions.toVec ∧ c.type_ = t := by
  rw [reports, List.mem_filterMap]
  exact exists_congr fun b => and_congr_right fun _ => get?_buildConditions_eq_some_iff

theorem isSome_mergeReports {t : ClusterConditionType} {builders : List ConditionBuilder} :
    (mergeReports (reports t builders)).isSome = true ↔
      ∃ b ∈ builders, ∃ c ∈ b.buildConditions.toVec, c.type_ = t := by
  rw [Option.isSome_iff_ne_none, Ne, mergeReports_eq_none_iff]
  constructor
  · intro h
    obtain ⟨c, hc⟩ := List.exists_mem_of_ne_nil _ h
    obtain ⟨b, hb, hmem⟩ := mem_reports_iff.mp hc
    exact ⟨b, hb, c, hmem⟩
  · rintro ⟨b, hb, c, hmem⟩
    exact List.ne_nil_of_mem (mem_reports_iff.mpr ⟨b, hb, hmem⟩)

/-- **When no type is lost**: the computed conditions have exactly one condition for each type
that was stored or reported, in the order of the types, iff each of these types was stored or
is reported by a builder after the last one that returned the default set. -/
theorem computeConditions_complete_iff (resource : List ClusterCondition)
    (builders : List ConditionBuilder) (now : ClusterConditionType → Time) :
    ∃ conditions, computeConditions resource builders now = some conditions ∧
      (ListsTypes (Present resource builders) conditions ↔
        ∀ t, Present resource builders t → Present resource (effective builders) t) := by
  refine ⟨_, computeConditions_eq resource builders now, ?_⟩
  rw [ConditionMap.listsTypes_toList_iff]
  have hget : ∀ t, ((ConditionMap.computed resource builders now).get t).isSome = true ↔
      Present resource (effective builders) t := by
    intro t
    rw [ConditionMap.get_computed, Option.isSome_merge, Bool.or_eq_true,
      ConditionMap.isSome_get_ofList, isSome_mergeReports, Present]
  have hsub : ∀ t, Present resource (effective builders) t → Present resource builders t := by
    rintro t (h | ⟨b, hb, h⟩)
    · exact .inl h
    · exact .inr ⟨b, (List.rtakeWhile_suffix _ _).subset hb, h⟩
  refine forall_congr' fun t => ?_
  rw [hget t]
  exact ⟨Iff.mp, fun h => ⟨h, hsub t⟩⟩

/-- A builder that converts a list of conditions. -/
def ConditionBuilder.ofConditions (conditions : List ClusterCondition) : ConditionBuilder :=
  ⟨(ConditionMap.ofList conditions).toSet, .fromVec (ConditionMap.fromVec_eq conditions)⟩

/-- A builder that returns the default set. -/
def ConditionBuilder.ofDefault : ConditionBuilder := ⟨.default, .default⟩

/-- The cluster is available, without a message. -/
def availableCondition : ClusterCondition := ⟨none, none, none, .true, .available⟩

/-- A default set after a report loses the report. -/
theorem computeConditions_default_loses :
    ∃ conditions,
      computeConditions [] [.ofConditions [availableCondition], .ofDefault] (fun _ => 0) =
        some conditions ∧
      ¬ ListsTypes (Present [] [.ofConditions [availableCondition], .ofDefault]) conditions := by
  refine ⟨[], rfl, fun h => ?_⟩
  have hpresent : Present [] [.ofConditions [availableCondition], .ofDefault] .available :=
    .inr ⟨.ofConditions [availableCondition], by simp, availableCondition,
      List.mem_singleton.mpr rfl, rfl⟩
  exact absurd (h.one .available hpresent) (by simp)

/-! ### Status and message of merged reports -/

/-- The messages of the reports with a given status. -/
def messagesAt (s : ClusterConditionStatus) (rs : List ClusterCondition) :
    List (Option String) :=
  (rs.filter fun r => r.status = s).map fun r => r.message

/-- Join lines; no lines give no message. -/
def joinLines (lines : List String) : Option String :=
  if lines = [] then none else some ("\n".intercalate lines)

/-- The line that two absent messages at the start leave behind. -/
def residue : List (Option String) → List String
  | none :: none :: _ => [""]
  | _ => []

/-- Fold the messages of reports with the same status. -/
def foldMessages : List (Option String) → Option String
  | [] => none
  | m :: ms => ms.foldl joinMessage m

theorem foldMessages_concat {ms : List (Option String)} (h : ms ≠ []) (m : Option String) :
    foldMessages (ms ++ [m]) = joinMessage (foldMessages ms) m := by
  cases ms with
  | nil => exact absurd rfl h
  | cons m' ms => simp [foldMessages]

theorem foldl_joinMessage_some (line : String) (ms : List (Option String)) :
    ms.foldl joinMessage (some line) = some ("\n".intercalate (line :: ms.reduceOption)) := by
  induction ms generalizing line with
  | nil => simp
  | cons m ms ih =>
    cases m with
    | none =>
      have hjoin : joinMessage (some line) none = some line := by simp [joinMessage]
      rw [List.foldl_cons, hjoin, ih, List.reduceOption_cons_of_none]
    | some line' =>
      have hjoin : joinMessage (some line) (some line') = some (line ++ "\n" ++ line') := by
        simp [joinMessage, String.intercalate_cons_cons]
      rw [List.foldl_cons, hjoin, ih, List.reduceOption_cons_of_some,
        String.intercalate_cons_append, String.intercalate_cons_cons]

/-- **What the fold of messages gives**: the present messages, one on each line, after an empty
line if the first two messages are absent. -/
theorem foldMessages_eq (ms : List (Option String)) :
    foldMessages ms = joinLines (residue ms ++ ms.reduceOption) := by
  match ms with
  | [] => rfl
  | [none] => rfl
  | [some line] => simp [foldMessages, joinLines, residue]
  | some line :: m :: ms =>
    rw [foldMessages, foldl_joinMessage_some]
    simp [joinLines, residue]
  | none :: some line :: ms =>
    have hjoin : joinMessage none (some line) = some line := by simp [joinMessage]
    rw [foldMessages, List.foldl_cons, hjoin, foldl_joinMessage_some]
    simp [joinLines, residue]
  | none :: none :: ms =>
    have hjoin : joinMessage none none = some "" := by simp [joinMessage]
    rw [foldMessages, List.foldl_cons, hjoin, foldl_joinMessage_some]
    simp [joinLines, residue]

/-- The statuses that the builders report for a type. -/
def reportedStatuses (t : ClusterConditionType) (builders : List ConditionBuilder) :
    Set ClusterConditionStatus :=
  {s | ∃ r ∈ reports t builders, r.status = s}

theorem messagesAt_concat (s : ClusterConditionStatus) (rs : List ClusterCondition)
    (r : ClusterCondition) :
    messagesAt s (rs ++ [r]) =
      messagesAt s rs ++ if r.status = s then [r.message] else [] := by
  by_cases h : r.status = s <;> simp [messagesAt, h]

theorem messagesAt_append (s : ClusterConditionStatus) (rs rs' : List ClusterCondition) :
    messagesAt s (rs ++ rs') = messagesAt s rs ++ messagesAt s rs' := by
  simp [messagesAt]

theorem messagesAt_ne_nil {s : ClusterConditionStatus} {rs : List ClusterCondition} :
    messagesAt s rs ≠ [] ↔ ∃ r ∈ rs, r.status = s := by
  simp [messagesAt, List.filter_eq_nil_iff]

/-- A condition that reports have been merged into: it has the highest status, the messages of
the reports with this status, and the transition time of one of them. -/
structure IsMergeOf (rs : List ClusterCondition) (c : ClusterCondition) : Prop where
  status : IsGreatest {s | ∃ r ∈ rs, r.status = s} c.status
  message : c.message = foldMessages (messagesAt c.status rs)
  lastTransitionTime : ∃ r ∈ rs, r.status = c.status ∧ r.lastTransitionTime = c.lastTransitionTime

/-- The fold of one more report keeps the highest status and its messages. -/
theorem IsMergeOf.higherStatus {rs : List ClusterCondition} {c : ClusterCondition}
    (h : IsMergeOf rs c) (r : ClusterCondition) :
    IsMergeOf (rs ++ [r]) (higherStatus c r) := by
  have hmem : ∀ {x}, x ∈ rs → x ∈ rs ++ [r] := fun hx => List.mem_append_left _ hx
  have hr : r ∈ rs ++ [r] := by simp
  obtain ⟨r', hr', hstatus, htime⟩ := h.lastTransitionTime
  have hle : ∀ x ∈ rs, x.status ≤ c.status := fun x hx => h.status.2 ⟨x, hx, rfl⟩
  unfold StackableOperator.higherStatus
  cases hcmp : compare c.status r.status with
  | eq =>
    have heq : c.status = r.status := compare_eq_iff_eq.mp hcmp
    refine ⟨⟨⟨r, hr, rfl⟩, ?_⟩, ?_, r, hr, rfl, rfl⟩
    · rintro _ ⟨x, hx, rfl⟩
      rcases List.mem_append.mp hx with hx | hx
      · exact (hle x hx).trans heq.le
      · rw [List.mem_singleton.mp hx]
    · have hne : messagesAt r.status rs ≠ [] :=
        messagesAt_ne_nil.mpr ⟨r', hr', hstatus.trans heq⟩
      rw [messagesAt_concat, if_pos rfl, foldMessages_concat hne, h.message, heq]
  | lt =>
    have hlt : c.status < r.status := compare_lt_iff_lt.mp hcmp
    refine ⟨⟨⟨r, hr, rfl⟩, ?_⟩, ?_, r, hr, rfl, rfl⟩
    · rintro _ ⟨x, hx, rfl⟩
      rcases List.mem_append.mp hx with hx | hx
      · exact (hle x hx).trans hlt.le
      · rw [List.mem_singleton.mp hx]
    · -- no earlier report has the new status
      have hnil : messagesAt r.status rs = [] := by
        by_contra hne
        obtain ⟨x, hx, hxs⟩ := messagesAt_ne_nil.mp hne
        exact absurd (hle x hx) (not_le_of_gt (hxs ▸ hlt))
      rw [messagesAt_concat, if_pos rfl, hnil]
      rfl
  | gt =>
    have hgt : r.status < c.status := compare_gt_iff_gt.mp hcmp
    refine ⟨⟨⟨r', hmem hr', hstatus⟩, ?_⟩, ?_, r', hmem hr', hstatus, htime⟩
    · rintro _ ⟨x, hx, rfl⟩
      rcases List.mem_append.mp hx with hx | hx
      · exact hle x hx
      · rw [List.mem_singleton.mp hx]
        exact hgt.le
    · rw [messagesAt_concat, if_neg hgt.ne, List.append_nil]
      exact h.message

/-- **The fold of reports** merges all of them. -/
theorem isMergeOf_of_mergeReports {rs : List ClusterCondition} {c : ClusterCondition}
    (h : mergeReports rs = some c) : IsMergeOf rs c := by
  induction rs using List.reverseRecOn generalizing c with
  | nil => cases h
  | append_singleton rs r ih =>
    rw [mergeReports_concat] at h
    cases hrs : mergeReports rs with
    | some c' =>
      rw [hrs] at h
      obtain rfl : higherStatus c' r = c := Option.some.inj h
      exact (ih hrs).higherStatus r
    | none =>
      rw [hrs] at h
      obtain rfl : r = c := Option.some.inj h
      obtain rfl : rs = [] := mergeReports_eq_none_iff.mp hrs
      refine ⟨⟨⟨r, by simp, rfl⟩, ?_⟩, by simp [messagesAt, foldMessages], r, by simp, rfl, rfl⟩
      rintro _ ⟨x, hx, rfl⟩
      rw [List.mem_singleton.mp hx]

theorem joinLines_of_ne_nil {lines : List String} (h : lines ≠ []) :
    joinLines lines = some ("\n".intercalate lines) := if_neg h

/-- Lines before other lines always change the text. -/
theorem joinLines_eq_append_iff {lines rest : List String} :
    joinLines rest = joinLines (lines ++ rest) ↔ lines = [] := by
  refine ⟨fun h => ?_, fun h => by rw [h, List.nil_append]⟩
  by_contra hlines
  have happend : lines ++ rest ≠ [] := by simp [hlines]
  rw [joinLines_of_ne_nil happend] at h
  by_cases hrest : rest = []
  · rw [hrest] at h
    simp [joinLines] at h
  · rw [joinLines_of_ne_nil hrest, String.intercalate_append_of_ne_nil hlines hrest] at h
    have hlength := congrArg String.length (Option.some.inj h)
    simp only [String.length_append] at hlength
    have hnewline : "\n".length = 1 := rfl
    omega

/-- Only the one empty line gives an empty text. -/
theorem intercalate_eq_empty_iff {lines : List String} (h : lines ≠ []) :
    "\n".intercalate lines = "" ↔ lines = [""] := by
  match lines with
  | [line] => simp
  | line :: line' :: lines =>
    refine ⟨fun heq => ?_, fun heq => by simp at heq⟩
    rw [String.intercalate_cons_cons] at heq
    have hlength := congrArg String.length heq
    simp only [String.length_append, String.length_empty] at hlength
    have hnewline : "\n".length = 1 := rfl
    omega

/-- Only an empty line can stand for an empty line before other lines. -/
theorem joinLines_emptyLine_append_iff {lines rest : List String} :
    joinLines ([""] ++ rest) = joinLines (lines ++ rest) ↔ lines = [""] := by
  refine ⟨fun h => ?_, fun h => by rw [h]⟩
  have hlines : lines ≠ [] := by
    rintro rfl
    exact absurd (joinLines_eq_append_iff.mp h.symm) (by simp)
  rw [joinLines_of_ne_nil (by simp), joinLines_of_ne_nil (by simp [hlines])] at h
  refine (intercalate_eq_empty_iff hlines).mp ?_
  by_cases hrest : rest = []
  · simpa [hrest] using (Option.some.inj h).symm
  · rw [String.intercalate_append_of_ne_nil (by simp) hrest,
      String.intercalate_append_of_ne_nil hlines hrest] at h
    have hcancel := Option.some.inj h
    rw [String.append_assoc, String.append_assoc, String.append_left_inj] at hcancel
    rw [← hcancel, String.intercalate_singleton]

/-- Before other lines, exactly the residue gives the text of the residue. -/
theorem joinLines_residue_append_iff {ms : List (Option String)} {lines rest : List String} :
    joinLines (residue ms ++ rest) = joinLines (lines ++ rest) ↔ lines = residue ms := by
  unfold residue
  split
  · exact joinLines_emptyLine_append_iff
  · exact joinLines_eq_append_iff

/-- Storing a computed condition changes neither its status nor its message. -/
theorem exists_merge_transition_iff {now : ClusterConditionType → Time}
    {stored : Option ClusterCondition} {c : ClusterCondition} {s : ClusterConditionStatus}
    {message : Option String} :
    (∃ c', stored.merge (fun old new => transition (now new.type_) old new) (some c) = some c' ∧
      c'.status = s ∧ c'.message = message) ↔ c.status = s ∧ c.message = message := by
  cases stored <;> simp

/-- The builders merge their reports as announced: the condition of the type has the highest
reported status and the present messages of the reports with this status. -/
def MergesReports (t : ClusterConditionType) (builders : List ConditionBuilder)
    (conditions : List ClusterCondition) : Prop :=
  ∀ s, IsGreatest (reportedStatuses t builders) s → ∃ c ∈ conditions, c.type_ = t ∧
    c.status = s ∧ c.message = joinLines (messagesAt s (reports t builders)).reduceOption

/-- **When reports are merged as announced**: iff, for the highest reported status, either an
effective report has it, and the messages that were discarded are the residue of the effective
ones; or there is no effective report, and the stored condition happens to be the right one. -/
theorem computeConditions_merged_iff (resource : List ClusterCondition)
    (builders : List ConditionBuilder) (now : ClusterConditionType → Time)
    (t : ClusterConditionType) :
    ∃ conditions, computeConditions resource builders now = some conditions ∧
      (MergesReports t builders conditions ↔
        ∀ s, IsGreatest (reportedStatuses t builders) s →
          (messagesAt s (reports t (effective builders)) ≠ [] ∧
            (messagesAt s (reports t (discarded builders))).reduceOption =
              residue (messagesAt s (reports t (effective builders)))) ∨
          (reports t (effective builders) = [] ∧
            ∃ c, (resource.reverse.find? fun c => c.type_ = t) = some c ∧ c.status = s ∧
              c.message = joinLines (messagesAt s (reports t builders)).reduceOption)) := by
  refine ⟨_, computeConditions_eq resource builders now, forall_congr' fun s =>
    imp_congr_right fun hs => ?_⟩
  rw [ConditionMap.exists_mem_toList_iff, ConditionMap.get_computed]
  cases hmerged : mergeReports (reports t (effective builders)) with
  | none =>
    -- the stored condition is kept
    have heff : reports t (effective builders) = [] := mergeReports_eq_none_iff.mp hmerged
    rw [Option.merge_none_right, ConditionMap.get_ofList, heff]
    simp [messagesAt]
  | some c =>
    have hc := isMergeOf_of_mergeReports hmerged
    have hne : reports t (effective builders) ≠ [] := fun heff => by
      simp [heff, mergeReports] at hmerged
    rw [exists_merge_transition_iff]
    have hstatus : c.status = s ↔ messagesAt s (reports t (effective builders)) ≠ [] := by
      rw [messagesAt_ne_nil]
      constructor
      · rintro rfl
        exact hc.status.1
      · intro hmem
        obtain ⟨r, hr, hrs⟩ := hc.status.1
        refine le_antisymm (hs.2 ⟨r, ?_, hrs⟩) (hc.status.2 hmem)
        rw [reports_eq_append]
        exact List.mem_append_right _ hr
    have hmessage : c.status = s → (c.message =
        joinLines (messagesAt s (reports t builders)).reduceOption ↔
          (messagesAt s (reports t (discarded builders))).reduceOption =
            residue (messagesAt s (reports t (effective builders)))) := by
      rintro rfl
      rw [hc.message, foldMessages_eq, reports_eq_append t builders, messagesAt_append,
        List.reduceOption_append, joinLines_residue_append_iff]
    rw [← hstatus, and_congr_right hmessage]
    simp [hne]

/-- Two reports without a message give an empty message, not an absent one. -/
theorem computeConditions_absent_messages :
    ∃ conditions,
      computeConditions []
        [.ofConditions [availableCondition], .ofConditions [availableCondition]] (fun _ => 0) =
        some conditions ∧
      ¬ MergesReports .available
        [.ofConditions [availableCondition], .ofConditions [availableCondition]] conditions := by
  refine ⟨[{ availableCondition with message := some "" }], rfl, fun h => ?_⟩
  have hreports : reports .available
      [.ofConditions [availableCondition], .ofConditions [availableCondition]] =
        [availableCondition, availableCondition] := rfl
  have hgreatest : IsGreatest (reportedStatuses .available
      [.ofConditions [availableCondition], .ofConditions [availableCondition]]) .true := by
    rw [reportedStatuses, hreports]
    refine ⟨⟨availableCondition, by simp, rfl⟩, ?_⟩
    rintro _ ⟨r, hr, rfl⟩
    have hr : r = availableCondition := by simpa using hr
    rw [hr]
    exact le_refl _
  obtain ⟨c, hc, -, -, hmessage⟩ := h .true hgreatest
  rw [List.mem_singleton.mp hc, hreports] at hmessage
  exact absurd hmessage (by decide)

end StackableOperator
