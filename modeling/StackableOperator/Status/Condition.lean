import Mathlib

/-!
# Cluster conditions

The status of a cluster lists conditions, at most one for each type. In every reconciliation
the condition builders report conditions; `computeConditions` merges the reports of all
builders and then merges the result into the conditions that were stored before.

`ClusterConditionSet` is the vector of the source, with one slot for each type at the index of
that type. The operations are modelled with their panics: `none` stands for an index out of
bounds in `put` and for a failed assertion in one of the two combiners.

`ConditionMap` is what a set stands for: a family with at most one condition for each type,
which has this type. The **refinement lemmas** say that on the sets which represent such
families `put`, `merge` and the conversions never panic and act on the families slot by slot.
The empty vector of `ClusterConditionSet::default` represents no family: `merge_default` says
that merging it in discards everything.
-/

namespace StackableOperator

/-- A point in time, in nanoseconds. -/
abbrev Time : Type := ℤ

inductive ClusterConditionType : Type
  | available
  | degraded
  | progressing
  | reconciliationPaused
  | stopped
  deriving DecidableEq, Repr

namespace ClusterConditionType

/-- The index of a type in the vector of a set. -/
def toUsize : ClusterConditionType → ℕ
  | available => 0
  | degraded => 1
  | progressing => 2
  | reconciliationPaused => 3
  | stopped => 4

/-- The number of types. -/
def count : ℕ := 5

/-- All types, each at its index. -/
def all : List ClusterConditionType :=
  [available, degraded, progressing, reconciliationPaused, stopped]

@[simp] theorem mem_all (t : ClusterConditionType) : t ∈ all := by
  cases t <;> simp [all]

theorem getElem?_all (t : ClusterConditionType) : all[t.toUsize]? = some t := by
  cases t <;> rfl

theorem pairwise_all : all.Pairwise fun t u => t.toUsize < u.toUsize := by
  decide

end ClusterConditionType

inductive ClusterConditionStatus : Type
  | true
  | false
  | unknown
  deriving DecidableEq, Repr

namespace ClusterConditionStatus

/-- The position in the declaration, by which statuses are ordered. -/
def rank : ClusterConditionStatus → ℕ
  | .true => 0
  | .false => 1
  | .unknown => 2

theorem rank_injective : Function.Injective rank := by
  intro a b h
  cases a <;> cases b <;> first | rfl | cases h

instance : LinearOrder ClusterConditionStatus := LinearOrder.lift' rank rank_injective

end ClusterConditionStatus

structure ClusterCondition where
  /-- Last time the condition transitioned from one status to another. -/
  lastTransitionTime : Option Time
  message : Option String
  reason : Option String
  status : ClusterConditionStatus
  type_ : ClusterConditionType
  deriving DecidableEq

/-! ### Sets of conditions -/

/-- A vector of slots for conditions. -/
structure ClusterConditionSet where
  conditions : List (Option ClusterCondition)

namespace ClusterConditionSet

/-- A set with one empty slot for each type. -/
def new : ClusterConditionSet := ⟨List.replicate ClusterConditionType.count none⟩

/-- The derived default: a set without slots. -/
def default : ClusterConditionSet := ⟨[]⟩

/-- Put a condition into the slot of its type; panics if there is no such slot. -/
def put (self : ClusterConditionSet) (condition : ClusterCondition) :
    Option ClusterConditionSet :=
  if condition.type_.toUsize < self.conditions.length then
    some ⟨self.conditions.set condition.type_.toUsize (some condition)⟩
  else none

section Merge

variable (conditionCombiner : ClusterCondition → ClusterCondition → Option ClusterCondition)

/-- The condition for one slot; only the combiner can panic. -/
def mergeSlot : Option ClusterCondition → Option ClusterCondition →
    Option (Option ClusterCondition)
  | some old, some new => (conditionCombiner old new).map some
  -- no new condition is computed, keep the old one
  | some old, none => some (some old)
  -- no condition of that type existed, use the new one
  | none, some new => some (some new)
  | none, none => some none

/-- One round of the merging loop. -/
def mergeStep (result : ClusterConditionSet)
    (slots : Option ClusterCondition × Option ClusterCondition) : Option ClusterConditionSet :=
  (mergeSlot conditionCombiner slots.1 slots.2).bind fun
    | some condition => result.put condition
    | none => some result

/-- Merge two sets slot by slot, as far as both of them have slots. -/
def merge (self other : ClusterConditionSet) : Option ClusterConditionSet :=
  (self.conditions.zip other.conditions).foldlM (mergeStep conditionCombiner) new

end Merge

/-- The conditions of a set, in the order of the slots. -/
def toVec (self : ClusterConditionSet) : List ClusterCondition := self.conditions.reduceOption

/-- Put conditions into a new set one after the other. -/
def fromVec (value : List ClusterCondition) : Option ClusterConditionSet :=
  value.foldlM put new

/-- What the slot of a type holds. -/
def get? (self : ClusterConditionSet) (t : ClusterConditionType) : Option ClusterCondition :=
  (self.conditions[t.toUsize]?).join

/-- The sets that can be made outside of the module that defines them. -/
inductive Constructible : ClusterConditionSet → Prop
  | new : Constructible new
  | default : Constructible default
  | fromVec {value : List ClusterCondition} {set : ClusterConditionSet}
      (h : fromVec value = some set) : Constructible set

end ClusterConditionSet

/-! ### Combiners -/

/-- Join the message of a new condition to an old one. -/
def joinMessage (old new : Option String) : Option String :=
  some ("\n".intercalate [old, new].reduceOption)

/-- The condition with the higher status; of two with the same status the new one, with the
messages joined. -/
def higherStatus (old new : ClusterCondition) : ClusterCondition :=
  match compare old.status new.status with
  | .eq => { new with message := joinMessage old.message new.message }
  | .lt => new
  | .gt => old

/-- The combiner for the reports of several builders. -/
def updateMessage (old new : ClusterCondition) : Option ClusterCondition :=
  -- sanity check
  if old.type_ = new.type_ then some (higherStatus old new) else none

/-- The new condition; its transition time is kept from the old one if that has the same
status, else it is the current time. -/
def transition (now : Time) (old new : ClusterCondition) : ClusterCondition :=
  if old.status = new.status then { new with lastTransitionTime := old.lastTransitionTime }
  else { new with lastTransitionTime := some now }

@[simp] theorem transition_status (now : Time) (old new : ClusterCondition) :
    (transition now old new).status = new.status := by
  unfold transition
  split <;> rfl

@[simp] theorem transition_message (now : Time) (old new : ClusterCondition) :
    (transition now old new).message = new.message := by
  unfold transition
  split <;> rfl

theorem transition_of_status_eq {now : Time} {old new : ClusterCondition}
    (h : old.status = new.status) :
    transition now old new = { new with lastTransitionTime := old.lastTransitionTime } := if_pos h

theorem transition_of_status_ne {now : Time} {old new : ClusterCondition}
    (h : old.status ≠ new.status) :
    transition now old new = { new with lastTransitionTime := some now } := if_neg h

/-- A second transition to the same condition changes nothing. -/
theorem transition_transition (now now' : Time) (old new : ClusterCondition) :
    transition now' (transition now old new) new = transition now old new := by
  rw [transition_of_status_eq (transition_status now old new)]
  unfold transition
  split <;> rfl

/-- The combiner for stored and computed conditions. The clock is read anew for each pair. -/
def updateTimestamps (now : ClusterConditionType → Time) (old new : ClusterCondition) :
    Option ClusterCondition :=
  -- sanity check
  if old.type_ = new.type_ then some (transition (now new.type_) old new) else none

/-! ### Computing conditions -/

/-- A condition builder can only return what the interface of sets lets it construct. -/
structure ConditionBuilder where
  buildConditions : ClusterConditionSet
  constructible : buildConditions.Constructible

/-- Merge the sets of all builders, then merge the result into the stored conditions. -/
def computeConditions (resource : List ClusterCondition)
    (conditionBuilders : List ConditionBuilder) (now : ClusterConditionType → Time) :
    Option (List ClusterCondition) := do
  let newResourceConditions ← conditionBuilders.foldlM
    (fun conditions cb => conditions.merge updateMessage cb.buildConditions)
    ClusterConditionSet.new
  let oldResourceConditions ← ClusterConditionSet.fromVec resource
  let conditions ← oldResourceConditions.merge (updateTimestamps now) newResourceConditions
  return conditions.toVec

/-! ### The families of conditions that sets represent -/

/-- At most one condition for each type, which has this type. -/
@[ext]
structure ConditionMap where
  get : ClusterConditionType → Option ClusterCondition
  type_get : ∀ {t c}, get t = some c → c.type_ = t

namespace ConditionMap

open ClusterConditionType (all)
open ClusterConditionSet (mergeStep mergeSlot)

/-- No conditions. -/
def empty : ConditionMap := ⟨fun _ => none, fun h => by cases h⟩

/-- Replace the condition of one type. -/
def insert (m : ConditionMap) (c : ClusterCondition) : ConditionMap where
  get t := if t = c.type_ then some c else m.get t
  type_get {t c'} h := by
    split at h
    · rename_i ht
      rw [← Option.some.inj h, ht]
    · exact m.type_get h

/-- The set that represents a family. -/
def toSet (m : ConditionMap) : ClusterConditionSet := ⟨all.map m.get⟩

/-- A combiner that never panics on two conditions of one type and returns a condition of that
type. -/
structure Combines (combiner : ClusterCondition → ClusterCondition → Option ClusterCondition)
    (f : ClusterCondition → ClusterCondition → ClusterCondition) : Prop where
  eq_some : ∀ {old new}, old.type_ = new.type_ → combiner old new = some (f old new)
  type_eq : ∀ {old new}, old.type_ = new.type_ → (f old new).type_ = new.type_

/-- Combine two families type by type. -/
def merge {combiner : ClusterCondition → ClusterCondition → Option ClusterCondition}
    {f : ClusterCondition → ClusterCondition → ClusterCondition} (hf : Combines combiner f)
    (m m' : ConditionMap) : ConditionMap where
  get t := (m.get t).merge f (m'.get t)
  type_get {t c} h := by
    rcases Option.merge_eq_some_iff.mp h with ⟨h, -⟩ | ⟨-, h⟩ | ⟨a, b, ha, hb, rfl⟩
    · exact m.type_get h
    · exact m'.type_get h
    · rw [hf.type_eq ((m.type_get ha).trans (m'.type_get hb).symm), m'.type_get hb]

/-- The last condition of each type. -/
def ofList (l : List ClusterCondition) : ConditionMap := l.foldl insert empty

/-- The conditions in the order of their types. -/
def toList (m : ConditionMap) : List ClusterCondition := all.filterMap m.get

/-! ### Refinement -/

theorem toSet_empty : empty.toSet = ClusterConditionSet.new := rfl

@[simp] theorem get?_toSet (m : ConditionMap) (t : ClusterConditionType) :
    m.toSet.get? t = m.get t := by
  rw [ClusterConditionSet.get?, toSet, List.getElem?_map, ClusterConditionType.getElem?_all]
  rfl

/-- Writing the slot of a type changes the represented family at that type. -/
theorem set_map_all (g : ClusterConditionType → Option ClusterCondition)
    (t : ClusterConditionType) (x : Option ClusterCondition) :
    (all.map g).set t.toUsize x = all.map fun u => if u = t then x else g u := by
  cases t <;> rfl

/-- `put` on a represented family is insertion. -/
theorem put_toSet (m : ConditionMap) (c : ClusterCondition) :
    m.toSet.put c = some (m.insert c).toSet := by
  have hlt : c.type_.toUsize < m.toSet.conditions.length := by
    cases c.type_ <;> simp [toSet, all, ClusterConditionType.toUsize]
  rw [ClusterConditionSet.put, if_pos hlt, toSet, set_map_all]
  rfl

theorem fromVec_eq (l : List ClusterCondition) :
    ClusterConditionSet.fromVec l = some (ofList l).toSet := by
  have h : ∀ m : ConditionMap,
      l.foldlM ClusterConditionSet.put m.toSet = some (l.foldl insert m).toSet := by
    induction l with
    | nil => exact fun m => rfl
    | cons c l ih =>
      intro m
      rw [List.foldlM_cons, put_toSet, List.foldl_cons, ← ih]
      rfl
  exact h empty

@[simp] theorem toVec_toSet (m : ConditionMap) : m.toSet.toVec = m.toList := by
  unfold ClusterConditionSet.toVec toSet toList
  simp [List.reduceOption]

section Merge

variable {combiner : ClusterCondition → ClusterCondition → Option ClusterCondition}
  {f : ClusterCondition → ClusterCondition → ClusterCondition}

/-- One slot of two represented families is merged without a panic. -/
theorem mergeSlot_eq (hf : Combines combiner f) (m m' : ConditionMap)
    (t : ClusterConditionType) :
    mergeSlot combiner (m.get t) (m'.get t) = some ((m.get t).merge f (m'.get t)) := by
  cases h : m.get t with
  | none => cases m'.get t <;> rfl
  | some c =>
    cases h' : m'.get t with
    | none => rfl
    | some c' =>
      have htype : c.type_ = c'.type_ := (m.type_get h).trans (m'.type_get h').symm
      rw [mergeSlot, hf.eq_some htype]
      rfl

/-- One round of the merging loop puts the merged condition, if there is one. -/
theorem mergeStep_eq (hf : Combines combiner f) (m m' : ConditionMap)
    (t : ClusterConditionType) (result : ClusterConditionSet) :
    mergeStep combiner result (m.get t, m'.get t) =
      match (merge hf m m').get t with
      | some c => result.put c
      | none => some result := by
  rw [mergeStep, mergeSlot_eq hf]
  rfl

/-- The merging loop over the slots of some types. -/
theorem foldlM_mergeStep (hf : Combines combiner f) (m m' : ConditionMap)
    (types : List ClusterConditionType) (acc : ConditionMap) :
    ∃ r : ConditionMap,
      (types.map fun t => (m.get t, m'.get t)).foldlM (mergeStep combiner) acc.toSet =
        some r.toSet ∧
      ∀ t, r.get t =
        if t ∈ types then ((merge hf m m').get t).or (acc.get t) else acc.get t := by
  induction types generalizing acc with
  | nil => exact ⟨acc, rfl, fun t => by simp⟩
  | cons u types ih =>
    cases hu : (merge hf m m').get u with
    -- neither side has a condition of this type
    | none =>
      have hstep : mergeStep combiner acc.toSet (m.get u, m'.get u) = some acc.toSet := by
        rw [mergeStep_eq hf, hu]
      obtain ⟨r, hr, hget⟩ := ih acc
      refine ⟨r, ?_, fun t => ?_⟩
      · rw [List.map_cons, List.foldlM_cons, hstep]
        exact hr
      · rw [hget t]
        by_cases ht : t = u
        · subst ht
          simp [hu]
        · simp [ht]
    -- the combined condition is inserted under its type
    | some c =>
      have htype : c.type_ = u := (merge hf m m').type_get hu
      have hstep : mergeStep combiner acc.toSet (m.get u, m'.get u) =
          some (acc.insert c).toSet := by
        rw [mergeStep_eq hf, hu]
        exact acc.put_toSet c
      obtain ⟨r, hr, hget⟩ := ih (acc.insert c)
      refine ⟨r, ?_, fun t => ?_⟩
      · rw [List.map_cons, List.foldlM_cons, hstep]
        exact hr
      · rw [hget t]
        by_cases ht : t = u
        · subst ht
          simp [hu, insert, htype]
        · simp [ht, insert, htype]

/-- **`merge` on represented families** merges them type by type and does not panic. -/
theorem merge_toSet (hf : Combines combiner f) (m m' : ConditionMap) :
    m.toSet.merge combiner m'.toSet = some (merge hf m m').toSet := by
  obtain ⟨r, hr, hget⟩ := foldlM_mergeStep hf m m' all empty
  have heq : r = merge hf m m' := by
    ext1
    funext t
    rw [hget t, if_pos (ClusterConditionType.mem_all t)]
    exact Option.or_none
  rw [← heq, ← hr, ClusterConditionSet.merge, toSet, toSet, List.zip_map']
  rfl

end Merge

/-- **A default set discards everything**: it has no slots to merge. -/
theorem merge_default (combiner : ClusterCondition → ClusterCondition → Option ClusterCondition)
    (set : ClusterConditionSet) :
    set.merge combiner .default = some empty.toSet := by
  rw [ClusterConditionSet.merge, ClusterConditionSet.default, List.zip_nil_right]
  rfl

/-- A set that can be constructed is the default set or represents a family. -/
theorem eq_default_or_exists_toSet {set : ClusterConditionSet} (h : set.Constructible) :
    set = .default ∨ ∃ m : ConditionMap, set = m.toSet := by
  cases h with
  | new => exact .inr ⟨empty, toSet_empty.symm⟩
  | default => exact .inl rfl
  | fromVec h => exact .inr ⟨_, Option.some.inj (h.symm.trans (fromVec_eq _))⟩

/-! ### Lists of conditions -/

/-- The family of a list has the last condition of each type. -/
theorem get_ofList (l : List ClusterCondition) (t : ClusterConditionType) :
    (ofList l).get t = l.reverse.find? fun c => c.type_ = t := by
  induction l using List.reverseRecOn with
  | nil => rfl
  | append_singleton l c ih =>
    rw [ofList, List.foldl_concat, List.reverse_concat, List.find?_cons, ← ih]
    by_cases h : c.type_ = t
    · simp [insert, h]
    · have hne : t ≠ c.type_ := fun hc => h hc.symm
      simp [insert, h, hne, ofList]

theorem isSome_get_ofList {l : List ClusterCondition} {t : ClusterConditionType} :
    ((ofList l).get t).isSome = true ↔ ∃ c ∈ l, c.type_ = t := by
  rw [get_ofList, List.find?_isSome]
  simp

theorem mem_toList {m : ConditionMap} {c : ClusterCondition} :
    c ∈ m.toList ↔ m.get c.type_ = some c := by
  rw [toList, List.mem_filterMap]
  constructor
  · rintro ⟨t, -, h⟩
    rwa [m.type_get h]
  · exact fun h => ⟨c.type_, ClusterConditionType.mem_all _, h⟩

/-- The condition of a type, read off the list. -/
theorem exists_mem_toList_iff {m : ConditionMap} {t : ClusterConditionType}
    {p : ClusterCondition → Prop} :
    (∃ c ∈ m.toList, c.type_ = t ∧ p c) ↔ ∃ c, m.get t = some c ∧ p c := by
  constructor
  · rintro ⟨c, hc, rfl, hp⟩
    exact ⟨c, mem_toList.mp hc, hp⟩
  · rintro ⟨c, hc, hp⟩
    obtain rfl := m.type_get hc
    exact ⟨c, mem_toList.mpr hc, rfl, hp⟩

/-- The conditions of a family are listed in the order of their types, each type once. -/
theorem pairwise_toList (m : ConditionMap) :
    m.toList.Pairwise fun a b => a.type_.toUsize < b.type_.toUsize := by
  rw [toList, List.pairwise_filterMap]
  refine ClusterConditionType.pairwise_all.imp fun {t u} htu a ha b hb => ?_
  rwa [m.type_get ha, m.type_get hb]

/-- The condition of a type in a list is the only one with this type. -/
theorem filter_toList (m : ConditionMap) (t : ClusterConditionType) :
    (m.toList.filter fun c => c.type_ = t) = (m.get t).toList := by
  rw [toList, List.filter_filterMap]
  have hget : ∀ u, (m.get u).filter (fun c => decide (c.type_ = t)) =
      if u = t then m.get t else none := by
    intro u
    cases h : m.get u with
    | none =>
      split
      · rename_i hu
        rw [← hu, h]
        rfl
      · rfl
    | some c =>
      have hc := m.type_get h
      by_cases hu : u = t
      · subst hu
        simp [Option.filter, hc, h]
      · simp [Option.filter, hc, hu]
  simp only [hget]
  cases t <;> cases h : m.get _ <;> rfl

/-- Reading a list of conditions back gives the family it was made from. -/
@[simp] theorem ofList_toList (m : ConditionMap) : ofList m.toList = m := by
  ext1
  funext t
  rw [get_ofList, ← List.head?_filter, List.filter_reverse, filter_toList]
  cases m.get t <;> rfl

/-! ### The two combiners -/

theorem combines_updateMessage : Combines updateMessage higherStatus where
  eq_some h := if_pos h
  type_eq {old new} h := by
    unfold higherStatus
    split
    · rfl
    · rfl
    · exact h

theorem combines_updateTimestamps (now : ClusterConditionType → Time) :
    Combines (updateTimestamps now) fun old new => transition (now new.type_) old new where
  eq_some h := if_pos h
  type_eq {old new} _ := by
    unfold transition
    split <;> rfl

end ConditionMap

end StackableOperator
