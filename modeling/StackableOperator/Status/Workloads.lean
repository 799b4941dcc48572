import Mathlib
import StackableOperator.Kube.Object
import StackableOperator.Status.ConditionRun

/-!
# Conditions from workloads

The builders that operators use: one for each kind of workload, which says whether all workloads
of the kind are available, and one for the operations on a cluster, which says whether its
reconciliation is paused and whether it is stopped.

The workloads come out of a hash map, so that their order may be another one in every
reconcile. `workloadsAvailable_eq` says what a builder reports in terms of the names of its
unavailable workloads, and that is why their order does not show. `StatusBuilder.available_run`
is about runs in which these builders compute the conditions of a cluster.
-/

namespace StackableOperator

/-! ### Workloads -/

structure StatefulSetSpec where
  replicas : Option Int32

structure StatefulSetStatus where
  availableReplicas : Option Int32

structure StatefulSet where
  metadata : ObjectMeta
  spec : Option StatefulSetSpec
  status : Option StatefulSetStatus

structure DeploymentSpec where
  replicas : Option Int32

structure DeploymentStatus where
  availableReplicas : Option Int32

structure Deployment where
  metadata : ObjectMeta
  spec : Option DeploymentSpec
  status : Option DeploymentStatus

structure DaemonSetStatus where
  numberReady : Int32

structure DaemonSet where
  metadata : ObjectMeta
  status : Option DaemonSetStatus

/-- All requested replicas are available, and there is at least one of them. -/
def replicasAvailable (requestedReplicas availableReplicas : Int32) : ClusterConditionStatus :=
  if requestedReplicas = availableReplicas ∧ requestedReplicas ≠ 0 then .true else .false

def statefulSetAvailable (sts : StatefulSet) : ClusterConditionStatus :=
  replicasAvailable ((sts.spec.bind fun spec => spec.replicas).getD 0)
    ((sts.status.bind fun status => status.availableReplicas).getD 0)

def deploymentAvailable (deployment : Deployment) : ClusterConditionStatus :=
  replicasAvailable ((deployment.spec.bind fun spec => spec.replicas).getD 0)
    ((deployment.status.bind fun status => status.availableReplicas).getD 0)

/-- Some pod is ready. -/
def daemonSetAvailable (ds : DaemonSet) : ClusterConditionStatus :=
  if (ds.status.map fun status => status.numberReady).getD 0 > 0 then .true else .false

theorem statefulSetAvailable_ne_unknown (sts : StatefulSet) :
    statefulSetAvailable sts ≠ .unknown := by
  unfold statefulSetAvailable replicasAvailable
  split <;> simp

theorem deploymentAvailable_ne_unknown (deployment : Deployment) :
    deploymentAvailable deployment ≠ .unknown := by
  unfold deploymentAvailable replicasAvailable
  split <;> simp

theorem daemonSetAvailable_ne_unknown (ds : DaemonSet) : daemonSetAvailable ds ≠ .unknown := by
  unfold daemonSetAvailable
  split <;> simp

/-! ### The loop over the workloads of a kind -/

/-- The debug output of a list of strings, given the one of a string. -/
def debugList (debug : String → String) (names : List String) : String :=
  "[" ++ ", ".intercalate (names.map debug) ++ "]"

section Loop

variable {α : Type} (debug : String → String) (kind allReady : String)
  (status : α → ClusterConditionStatus) (metadata : α → ObjectMeta)

/-- The highest status of the workloads, and the names of those that are not available. -/
def workloadsLoop (workloads : List α) : ClusterConditionStatus × List String :=
  workloads.foldl (fun (available, unavailableResources) w =>
    (max available (status w),
      if status w ≠ .true then unavailableResources ++ [(metadata w).nameAny]
      else unavailableResources)) (.true, [])

/-- The condition that the workloads of one kind are available. -/
def workloadsAvailable (workloads : List α) : ClusterCondition :=
  let (available, unavailableResources) := workloadsLoop status metadata workloads
  -- roles and role groups must not change position due to the random order of a hash map
  let unavailableResources := unavailableResources.insertionSort (· ≤ ·)
  { reason := none
    message := some (match available with
      | .true => allReady
      | .false => kind ++ " " ++ debugList debug unavailableResources ++ " missing ready replicas."
      | .unknown => kind ++ " status cannot be determined.")
    status := available
    type_ := .available
    lastTransitionTime := none }

/-- The names of the workloads that are not available. -/
def unavailableNames (workloads : List α) : List String :=
  (workloads.filter fun w => status w ≠ .true).map fun w => (metadata w).nameAny

/-- The text about the unavailable workloads of a kind. -/
def missingReplicas (names : List String) : String :=
  kind ++ " " ++ debugList debug (names.insertionSort (· ≤ ·)) ++ " missing ready replicas."

variable {status metadata}

theorem unavailableNames_perm {workloads workloads' : List α} (h : workloads.Perm workloads') :
    (unavailableNames status metadata workloads).Perm
      (unavailableNames status metadata workloads') :=
  (h.filter _).map _

/-- The order of the workloads does not show in the text. -/
theorem missingReplicas_perm {names names' : List String} (h : names.Perm names') :
    missingReplicas debug kind names = missingReplicas debug kind names' := by
  have hsorted : names.insertionSort (· ≤ ·) = names'.insertionSort (· ≤ ·) :=
    List.Perm.eq_of_pairwise' (List.pairwise_insertionSort _ _) (List.pairwise_insertionSort _ _)
      ((List.perm_insertionSort _ _).trans (h.trans (List.perm_insertionSort _ _).symm))
  rw [missingReplicas, missingReplicas, hsorted]

/-- What the loop computes if the status of every workload is known. -/
theorem workloadsLoop_eq (hknown : ∀ w, status w ≠ .unknown) (workloads : List α) :
    workloadsLoop status metadata workloads =
      (if unavailableNames status metadata workloads = [] then .true else .false,
        unavailableNames status metadata workloads) := by
  induction workloads using List.reverseRecOn with
  | nil => rfl
  | append_singleton workloads w ih =>
    have happend : unavailableNames status metadata (workloads ++ [w]) =
        unavailableNames status metadata workloads ++
          if status w ≠ .true then [(metadata w).nameAny] else [] := by
      by_cases hw : status w = .true <;> simp [unavailableNames, hw]
    rw [workloadsLoop, List.foldl_concat, ← workloadsLoop, ih, happend]
    cases hw : status w with
    | true =>
      have hmax : max (if unavailableNames status metadata workloads = [] then
          ClusterConditionStatus.true else .false) .true =
          if unavailableNames status metadata workloads = [] then .true else .false := by
        split <;> rfl
      simp [hmax]
    | false =>
      have hmax : max (if unavailableNames status metadata workloads = [] then
          ClusterConditionStatus.true else .false) .false = .false := by
        split <;> rfl
      simp [hmax]
    | unknown => exact absurd hw (hknown w)

/-- **What is reported for the workloads of a kind**: they are available iff each of them is,
and else the sorted names of the others are listed. -/
theorem workloadsAvailable_eq (hknown : ∀ w, status w ≠ .unknown) (workloads : List α) :
    workloadsAvailable debug kind allReady status metadata workloads =
      if unavailableNames status metadata workloads = [] then
        ⟨none, some allReady, none, .true, .available⟩
      else
        ⟨none, some (missingReplicas debug kind (unavailableNames status metadata workloads)), none,
          .false, .available⟩ := by
  unfold workloadsAvailable
  rw [workloadsLoop_eq hknown]
  by_cases h : unavailableNames status metadata workloads = []
  · rw [if_pos h, if_pos h]
  · rw [if_neg h, if_neg h]
    rfl

end Loop

/-! ### The builders -/

structure StatefulSetConditionBuilder where
  statefulSets : List StatefulSet

namespace StatefulSetConditionBuilder

/-- Without stateful sets. -/
def default : StatefulSetConditionBuilder := ⟨[]⟩

def add (self : StatefulSetConditionBuilder) (sts : StatefulSet) : StatefulSetConditionBuilder :=
  ⟨self.statefulSets ++ [sts]⟩

def available (debug : String → String) (self : StatefulSetConditionBuilder) : ClusterCondition :=
  workloadsAvailable debug "StatefulSet"
    "All StatefulSet have the requested amount of ready replicas." statefulSetAvailable
    (fun sts => sts.metadata) self.statefulSets

end StatefulSetConditionBuilder

structure DeploymentConditionBuilder where
  deployments : List Deployment

namespace DeploymentConditionBuilder

/-- Without deployments. -/
def default : DeploymentConditionBuilder := ⟨[]⟩

def add (self : DeploymentConditionBuilder) (deployment : Deployment) :
    DeploymentConditionBuilder :=
  ⟨self.deployments ++ [deployment]⟩

def available (debug : String → String) (self : DeploymentConditionBuilder) : ClusterCondition :=
  workloadsAvailable debug "Deployment"
    "All Deployments have the requested amount of ready replicas." deploymentAvailable
    (fun deployment => deployment.metadata) self.deployments

end DeploymentConditionBuilder

structure DaemonSetConditionBuilder where
  daemonSets : List DaemonSet

namespace DaemonSetConditionBuilder

/-- Without daemon sets. -/
def default : DaemonSetConditionBuilder := ⟨[]⟩

def add (self : DaemonSetConditionBuilder) (ds : DaemonSet) : DaemonSetConditionBuilder :=
  ⟨self.daemonSets ++ [ds]⟩

def available (debug : String → String) (self : DaemonSetConditionBuilder) : ClusterCondition :=
  workloadsAvailable debug "DaemonSet"
    "All DaemonSet have the requested amount of ready replicas." daemonSetAvailable
    (fun ds => ds.metadata) self.daemonSets

end DaemonSetConditionBuilder

/-- What an administrator asks for besides the normal reconciliation. -/
structure ClusterOperation where
  stopped : Bool
  reconciliationPaused : Bool

structure ClusterOperationsConditionBuilder where
  clusterOperation : ClusterOperation

namespace ClusterOperationsConditionBuilder

variable (self : ClusterOperationsConditionBuilder)

def reconciliationPaused : ClusterCondition :=
  let status : ClusterConditionStatus :=
    if self.clusterOperation.reconciliationPaused then .true else .false
  { reason := none
    message := some (match status with
      | .true => "The cluster reconciliation is paused. Only the cluster status is reconciled."
      | .false => "The cluster is reconciled normally."
      | .unknown => "The cluster reconciliation status could not be determined.")
    status
    type_ := .reconciliationPaused
    lastTransitionTime := none }

def clusterStopped : ClusterCondition :=
  let status : ClusterConditionStatus :=
    if self.clusterOperation.stopped && self.clusterOperation.reconciliationPaused then .unknown
    else if self.clusterOperation.stopped then .true
    else .false
  { reason := none
    message := some (match status with
      | .true => "The cluster is stopped."
      | .false => "The cluster is running."
      | .unknown => "The cluster stopped status could not be determined. This might be due to " ++
          "the cluster reconciliation being paused.")
    status
    type_ := .stopped
    lastTransitionTime := none }

end ClusterOperationsConditionBuilder

/-- The condition builders of the framework. -/
inductive StatusBuilder : Type
  | statefulSet (self : StatefulSetConditionBuilder)
  | deployment (self : DeploymentConditionBuilder)
  | daemonSet (self : DaemonSetConditionBuilder)
  | clusterOperations (self : ClusterOperationsConditionBuilder)

namespace StatusBuilder

/-- The conditions that a builder puts into its set. -/
def conditions (debug : String → String) : StatusBuilder → List ClusterCondition
  | statefulSet self => [self.available debug]
  | deployment self => [self.available debug]
  | daemonSet self => [self.available debug]
  | clusterOperations self => [self.reconciliationPaused, self.clusterStopped]

def buildConditions (debug : String → String) (b : StatusBuilder) : ConditionBuilder :=
  .ofConditions (b.conditions debug)

/-! ### What the builders are about -/

/-- The names of the unavailable workloads, for a builder that is about workloads. -/
def unavailable? : StatusBuilder → Option (List String)
  | statefulSet self =>
    some (unavailableNames statefulSetAvailable (fun sts => sts.metadata) self.statefulSets)
  | deployment self =>
    some (unavailableNames deploymentAvailable (fun deployment => deployment.metadata)
      self.deployments)
  | daemonSet self =>
    some (unavailableNames daemonSetAvailable (fun ds => ds.metadata) self.daemonSets)
  | clusterOperations _ => none

/-- The kind of the workloads. -/
def kind : StatusBuilder → String
  | statefulSet _ => "StatefulSet"
  | deployment _ => "Deployment"
  | daemonSet _ => "DaemonSet"
  | clusterOperations _ => ""

/-- The text if all workloads are available. -/
def allReady : StatusBuilder → String
  | statefulSet _ => "All StatefulSet have the requested amount of ready replicas."
  | deployment _ => "All Deployments have the requested amount of ready replicas."
  | daemonSet _ => "All DaemonSet have the requested amount of ready replicas."
  | clusterOperations _ => ""

/-- The line of a builder whose workloads are all available. -/
def availableLine (b : StatusBuilder) : Option String :=
  if b.unavailable? = some [] then some b.allReady else none

/-- The line of a builder with an unavailable workload. -/
def unavailableLine (debug : String → String) (b : StatusBuilder) : Option String :=
  (b.unavailable?.filter fun names => names ≠ []).map (missingReplicas debug b.kind)

/-- Some builder is about workloads. -/
def HasWorkloads (builders : List StatusBuilder) : Prop :=
  ∃ b ∈ builders, b.unavailable? ≠ none

/-- No builder has an unavailable workload. -/
def AllAvailable (builders : List StatusBuilder) : Prop :=
  ∀ b ∈ builders, ∀ names ∈ b.unavailable?, names = []

/-- The message about the workloads of all builders. -/
def availableMessage (debug : String → String) (builders : List StatusBuilder) : String :=
  "\n".intercalate (if builders.filterMap (unavailableLine debug) = [] then
    builders.filterMap availableLine else builders.filterMap (unavailableLine debug))

/-- Builders with the same workloads in any order, or with the same operations. -/
inductive Equiv : StatusBuilder → StatusBuilder → Prop
  | statefulSet {self self' : StatefulSetConditionBuilder}
      (h : self.statefulSets.Perm self'.statefulSets) : Equiv (statefulSet self) (statefulSet self')
  | deployment {self self' : DeploymentConditionBuilder}
      (h : self.deployments.Perm self'.deployments) : Equiv (deployment self) (deployment self')
  | daemonSet {self self' : DaemonSetConditionBuilder}
      (h : self.daemonSets.Perm self'.daemonSets) : Equiv (daemonSet self) (daemonSet self')
  | clusterOperations (self : ClusterOperationsConditionBuilder) :
      Equiv (clusterOperations self) (clusterOperations self)

variable {debug : String → String}

/-- Equivalent builders report the same. -/
theorem Equiv.conditions_eq {b b' : StatusBuilder} (h : Equiv b b') :
    b.conditions debug = b'.conditions debug := by
  -- the report depends on the unavailable names only up to their order
  have hreport : ∀ {α : Type} {status : α → ClusterConditionStatus} {metadata : α → ObjectMeta}
      (kind allReady : String) {ws ws' : List α}, (∀ w, status w ≠ .unknown) → ws.Perm ws' →
      workloadsAvailable debug kind allReady status metadata ws =
        workloadsAvailable debug kind allReady status metadata ws' := by
    intro α status metadata kind allReady ws ws' hknown hperm
    have hnames : (unavailableNames status metadata ws).Perm
        (unavailableNames status metadata ws') := unavailableNames_perm hperm
    rw [workloadsAvailable_eq _ _ _ hknown, workloadsAvailable_eq _ _ _ hknown,
      missingReplicas_perm debug kind hnames]
    exact if_congr ⟨fun h => (h ▸ hnames).symm.eq_nil, fun h => (h ▸ hnames).eq_nil⟩ rfl rfl
  cases h with
  | statefulSet h => exact congrArg (fun c => [c]) (hreport _ _ statefulSetAvailable_ne_unknown h)
  | deployment h => exact congrArg (fun c => [c]) (hreport _ _ deploymentAvailable_ne_unknown h)
  | daemonSet h => exact congrArg (fun c => [c]) (hreport _ _ daemonSetAvailable_ne_unknown h)
  | clusterOperations self => rfl

/-- Availability as a builder reports it. -/
def report? (debug : String → String) (b : StatusBuilder) : Option ClusterCondition :=
  b.unavailable?.map fun names =>
    if names = [] then ⟨none, some b.allReady, none, .true, .available⟩
    else ⟨none, some (missingReplicas debug b.kind names), none, .false, .available⟩

/-- **The reports about availability** are those of the builders that are about workloads. -/
theorem get?_buildConditions_available (b : StatusBuilder) :
    (b.buildConditions debug).buildConditions.get? .available = b.report? debug := by
  have hget : (b.buildConditions debug).buildConditions.get? .available =
      (b.conditions debug).reverse.find? fun c => c.type_ = .available := by
    rw [buildConditions, ConditionBuilder.ofConditions, ConditionMap.get?_toSet,
      ConditionMap.get_ofList]
  rw [hget]
  cases b with
  | statefulSet self =>
    rw [conditions, StatefulSetConditionBuilder.available,
      workloadsAvailable_eq _ _ _ statefulSetAvailable_ne_unknown]
    by_cases h : unavailableNames statefulSetAvailable (fun sts => sts.metadata)
      self.statefulSets = [] <;> simp [report?, unavailable?, kind, allReady, h]
  | deployment self =>
    rw [conditions, DeploymentConditionBuilder.available,
      workloadsAvailable_eq _ _ _ deploymentAvailable_ne_unknown]
    by_cases h : unavailableNames deploymentAvailable (fun deployment => deployment.metadata)
      self.deployments = [] <;> simp [report?, unavailable?, kind, allReady, h]
  | daemonSet self =>
    rw [conditions, DaemonSetConditionBuilder.available,
      workloadsAvailable_eq _ _ _ daemonSetAvailable_ne_unknown]
    by_cases h : unavailableNames daemonSetAvailable (fun ds => ds.metadata) self.daemonSets = []
      <;> simp [report?, unavailable?, kind, allReady, h]
  | clusterOperations self => rfl

/-- The sets of these builders have all slots, so that nothing is discarded. -/
theorem effective_map (builders : List StatusBuilder) :
    effective (builders.map (buildConditions debug)) = builders.map (buildConditions debug) := by
  refine List.rtakeWhile_eq_self_iff.mpr fun b hb => ?_
  obtain ⟨b', -, rfl⟩ := List.mem_map.mp hb
  rfl

theorem reports_available (builders : List StatusBuilder) :
    reports .available (builders.map (buildConditions debug)) =
      builders.filterMap (report? debug) := by
  rw [reports, List.filterMap_map]
  exact List.filterMap_congr fun b _ => get?_buildConditions_available b

/-! ### What the merged condition tells -/

/-- The condition says whether all workloads are available, and which ones are not. -/
structure Tells (debug : String → String) (builders : List StatusBuilder) (c : ClusterCondition) :
    Prop where
  available : c.status = .true ↔ AllAvailable builders
  unavailable : c.status = .false ↔ ¬ AllAvailable builders
  message : c.message = some (availableMessage debug builders)

theorem report?_eq_some_iff {b : StatusBuilder} {r : ClusterCondition} :
    b.report? debug = some r ↔
      (∃ line ∈ b.availableLine, r = ⟨none, some line, none, .true, .available⟩) ∨
        ∃ line ∈ b.unavailableLine debug, r = ⟨none, some line, none, .false, .available⟩ := by
  unfold report? availableLine unavailableLine
  cases h : b.unavailable? with
  | none => simp
  | some names => by_cases hnames : names = [] <;> simp [hnames, Option.filter, eq_comm]

/-- The messages about the kinds of which all workloads are available. -/
theorem messagesAt_true (builders : List StatusBuilder) :
    messagesAt .true (builders.filterMap (report? debug)) =
      (builders.filterMap availableLine).map some := by
  induction builders with
  | nil => rfl
  | cons b builders ih =>
    cases h : b.unavailable? with
    | none => simpa [report?, availableLine, h] using ih
    | some names =>
      rw [messagesAt] at ih
      by_cases hnames : names = [] <;> simp [report?, availableLine, messagesAt, h, hnames, ih]

/-- The messages about the kinds with an unavailable workload. -/
theorem messagesAt_false (builders : List StatusBuilder) :
    messagesAt .false (builders.filterMap (report? debug)) =
      (builders.filterMap (unavailableLine debug)).map some := by
  induction builders with
  | nil => rfl
  | cons b builders ih =>
    cases h : b.unavailable? with
    | none => simpa [report?, unavailableLine, h] using ih
    | some names =>
      rw [messagesAt] at ih
      by_cases hnames : names = [] <;>
        simp [report?, unavailableLine, messagesAt, h, hnames, ih, Option.filter]

theorem allAvailable_iff {builders : List StatusBuilder} :
    AllAvailable builders ↔ builders.filterMap (unavailableLine debug) = [] := by
  rw [List.filterMap_eq_nil_iff]
  refine forall₂_congr fun b _ => ?_
  unfold unavailableLine
  cases b.unavailable? with
  | none => simp
  | some names => by_cases hnames : names = [] <;> simp [hnames, Option.filter]

/-- Present messages are joined as they are. -/
theorem foldMessages_map_some {lines : List String} (h : lines ≠ []) :
    foldMessages (lines.map some) = some ("\n".intercalate lines) := by
  have hresidue : residue (lines.map some) = [] := by
    cases lines with
    | nil => rfl
    | cons line lines => rfl
  have hpresent : (lines.map some).reduceOption = lines := by simp [List.reduceOption]
  rw [foldMessages_eq, hresidue, List.nil_append, hpresent, joinLines_of_ne_nil h]

/-- **The merged reports tell** about the workloads of all builders. -/
theorem tells_of_mergeReports {builders : List StatusBuilder} {c : ClusterCondition}
    (h : mergeReports (builders.filterMap (report? debug)) = some c) :
    Tells debug builders c := by
  have hc := isMergeOf_of_mergeReports h
  obtain ⟨r, hr, hrs⟩ := hc.status.1
  obtain ⟨b, hb, hreport⟩ := List.mem_filterMap.mp hr
  by_cases hall : AllAvailable builders
  · have hnil : builders.filterMap (unavailableLine debug) = [] := allAvailable_iff.mp hall
    have hnone : b.unavailableLine debug = none := List.filterMap_eq_nil_iff.mp hnil b hb
    obtain ⟨line, hline, rfl⟩ | ⟨line, hline, -⟩ := report?_eq_some_iff.mp hreport
    · have hne : builders.filterMap availableLine ≠ [] :=
        List.ne_nil_of_mem (List.mem_filterMap.mpr ⟨b, hb, hline⟩)
      refine ⟨iff_of_true hrs.symm hall, iff_of_false (by simp [← hrs]) (by simpa using hall), ?_⟩
      rw [hc.message, ← hrs, messagesAt_true, foldMessages_map_some hne, availableMessage,
        if_pos hnil]
    · rw [hnone] at hline
      cases hline
  · have hne : builders.filterMap (unavailableLine debug) ≠ [] := mt allAvailable_iff.mpr hall
    obtain ⟨line, hmem⟩ := List.exists_mem_of_ne_nil _ hne
    obtain ⟨b', hb', hline⟩ := List.mem_filterMap.mp hmem
    -- a report of an unavailable workload is the highest one there is
    have hle : ClusterConditionStatus.false ≤ c.status :=
      hc.status.2 ⟨_, List.mem_filterMap.mpr ⟨b', hb', report?_eq_some_iff.mpr
        (.inr ⟨line, hline, rfl⟩)⟩, rfl⟩
    have hstatus : c.status = .false := by
      obtain ⟨_, -, rfl⟩ | ⟨_, -, rfl⟩ := report?_eq_some_iff.mp hreport
      · have hlt : ClusterConditionStatus.true < .false := by decide
        exact absurd (hle.trans_eq hrs.symm) (not_le_of_gt hlt)
      · exact hrs.symm
    refine ⟨iff_of_false (by simp [hstatus]) hall, iff_of_true hstatus hall, ?_⟩
    rw [hc.message, hstatus, messagesAt_false, foldMessages_map_some hne, availableMessage,
      if_neg hne]

/-! ### Runs -/

/-- The run in which these builders compute the conditions of a cluster. -/
def run (debug : String → String) (initial : List ClusterCondition)
    (builders : ℕ → List StatusBuilder) (now : ℕ → ClusterConditionType → Time) : Run :=
  .ofBuilders initial (fun n => (builders n).map (buildConditions debug)) now

variable {initial : List ClusterCondition} {builders : ℕ → List StatusBuilder}
  {now : ℕ → ClusterConditionType → Time}

/-- What a step with workloads stores. -/
theorem exists_stored_tells {n : ℕ} (h : HasWorkloads (builders n)) :
    ∃ c, (run debug initial builders now).stored (n + 1) .available = some c ∧
      Tells debug (builders n) c := by
  obtain ⟨b, hb, hne⟩ := h
  have hreport : b.report? debug ≠ none := by
    rwa [report?, Ne, Option.map_eq_none_iff]
  obtain ⟨r, hr⟩ : ∃ r, mergeReports ((builders n).filterMap (report? debug)) = some r := by
    rw [← Option.ne_none_iff_exists', Ne, mergeReports_eq_none_iff, List.filterMap_eq_nil_iff]
    exact fun h => hreport (h b hb)
  have htells := tells_of_mergeReports hr
  rw [Run.stored_succ]
  change ∃ c, Option.merge _ _ (mergeReports (reports .available (effective
    ((builders n).map (buildConditions debug))))) = some c ∧ _
  rw [effective_map, reports_available, hr]
  cases (run debug initial builders now).stored n .available with
  | none => exact ⟨r, rfl, htells⟩
  | some c =>
    refine ⟨_, rfl, ?_, ?_, ?_⟩
    · rw [transition_status]
      exact htells.available
    · rw [transition_status]
      exact htells.unavailable
    · rw [transition_message]
      exact htells.message

/-- Availability changes in the status iff it changes for the workloads. -/
theorem transition_iff {n : ℕ} (h : HasWorkloads (builders n))
    (h' : HasWorkloads (builders (n + 1))) :
    (run debug initial builders now).Transition (n + 1) .available ↔
      ¬ (AllAvailable (builders n) ↔ AllAvailable (builders (n + 1))) := by
  have hstored : ∀ {m}, HasWorkloads (builders m) →
      ∃ c, (run debug initial builders now).stored (m + 1) .available = some c ∧
        Tells debug (builders m) c := exists_stored_tells
  obtain ⟨c, hc, htells⟩ := hstored h
  obtain ⟨c', hc', htells'⟩ := hstored h'
  have hiff : (run debug initial builders now).Transition (n + 1) .available ↔
      c.status ≠ c'.status := by
    constructor
    · rintro ⟨d, d', hd, hd', hne⟩
      rwa [Option.some.inj (hc.symm.trans hd), Option.some.inj (hc'.symm.trans hd')]
    · exact fun hne => ⟨c, c', hc, hc', hne⟩
  rw [hiff, ← htells.available, ← htells'.available]
  have hknown := htells.unavailable
  have hknown' := htells'.unavailable
  rw [← htells.available] at hknown
  rw [← htells'.available] at hknown'
  cases hs : c.status <;> cases hs' : c'.status <;> simp_all

/-- **What the status of a cluster says about its workloads**, over a run of reconciles that
starts with any conditions.

After a reconcile with workloads, the condition says whether all of them are available, and
its message lists exactly the unavailable ones. The time of the condition is that of the latest
reconcile in which availability was another one than in the reconcile before. A reconcile with
the same builders, whose workloads may come in another order, leaves the status as it is. -/
theorem available_run (debug : String → String) (initial : List ClusterCondition)
    (builders : ℕ → List StatusBuilder) (now : ℕ → ClusterConditionType → Time) :
    (∀ n, HasWorkloads (builders n) →
      ∃ c, (run debug initial builders now).stored (n + 1) .available = some c ∧
        Tells debug (builders n) c) ∧
    (∀ n k c, (∀ i ≤ k + 1, HasWorkloads (builders (n + i))) →
      ¬ (AllAvailable (builders n) ↔ AllAvailable (builders (n + 1))) →
      (∀ i ≤ k, AllAvailable (builders (n + 1 + i)) ↔ AllAvailable (builders (n + 1))) →
      (run debug initial builders now).stored (n + 2 + k) .available = some c →
      c.lastTransitionTime = some (now (n + 1) .available)) ∧
    ∀ n, List.Forall₂ Equiv (builders n) (builders (n + 1)) →
      (run debug initial builders now).conditions (n + 2) =
        (run debug initial builders now).conditions (n + 1) := by
  refine ⟨fun n h => exists_stored_tells h, fun n k c hworkloads hne hsame hc => ?_,
    fun n h => ?_⟩
  · have hworkloads' : ∀ i ≤ k, HasWorkloads (builders (n + 1 + i)) := fun i hi => by
      rw [Nat.add_assoc, Nat.add_comm 1 i]
      exact hworkloads (i + 1) (by omega)
    have htransition : (run debug initial builders now).Transition (n + 1) .available :=
      (transition_iff (hworkloads 0 (by omega)) (hworkloads 1 (by omega))).mpr hne
    obtain ⟨c₀, c₁, h₀, h₁, hstatus⟩ := htransition
    obtain ⟨c₂, h₂, -, hnow⟩ := Run.exists_stored_succ h₀
    obtain rfl : c₁ = c₂ := Option.some.inj (h₁.symm.trans h₂)
    rw [Run.lastTransitionTime_add h₁ hc fun i hi hlt => ?_]
    · exact hnow hstatus
    · -- no step after the change is a transition
      obtain ⟨j, rfl⟩ : ∃ j, i = n + 1 + j + 1 := ⟨i - (n + 2), by omega⟩
      rw [transition_iff (hworkloads' j (by omega)) (hworkloads' (j + 1) (by omega)), not_not]
      exact (hsame j (by omega)).trans (hsame (j + 1) (by omega)).symm
  · have hbuilders : (builders (n + 1)).map (buildConditions debug) =
        (builders n).map (buildConditions debug) := by
      rw [← List.forall₂_eq_eq_eq, List.forall₂_map_left_iff, List.forall₂_map_right_iff]
      exact h.flip.imp fun b b' hb => congrArg ConditionBuilder.ofConditions hb.conditions_eq.symm
    have hstep : ∀ m, (run debug initial builders now).conditions (m + 1) =
        (ConditionMap.computed ((run debug initial builders now).conditions m)
          ((builders m).map (buildConditions debug)) (now m)).toList := fun m => rfl
    rw [hstep (n + 1), hbuilders, hstep n, Run.computed_computed]

end StatusBuilder

end StackableOperator
