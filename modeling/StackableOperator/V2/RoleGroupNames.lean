import Mathlib
import StackableOperator.RoleUtils
import StackableOperator.V2.RoleGroupUtils

/-!
# Ambiguous names of role groups

Names of clusters, roles and role groups may contain the dash that separates them. So the names of
two role groups of a cluster are equal if the roles and role groups joined by a dash are, or if the
name of one is spelled like the shortened name of the other, with its hash. `distinct_iff` says
that there are no other reasons.
-/

namespace StackableOperator

namespace V2

namespace RoleGroupUtils

variable (hexDigest : String → String)

/-- The name fits, and it is the shortened name of the other one: its beginning, a dash and its
hash. -/
def Shadows (names names' : ResourceNames) : Prop :=
  names.concatenatedName.utf8ByteSize ≤ 52 ∧ 52 < names'.concatenatedName.utf8ByteSize ∧
    names.concatenatedName.toList = cutName (names'.concatenatedName.toList.take 46) ++
      '-' :: hashOf hexDigest 6 names'.concatenatedName

/-- The reference to the role group, without validated names. -/
def ResourceNames.roleGroupRef (self : ResourceNames) : RoleGroupRef :=
  ⟨self.clusterName.1, self.roleName.1, self.roleGroupName.1⟩

/-- Resources of the same kind have different names. -/
structure Distinct (names names' : ResourceNames) : Prop where
  qualifiedRoleGroupName :
    names.qualifiedRoleGroupName hexDigest ≠ names'.qualifiedRoleGroupName hexDigest
  roleGroupConfigMap : names.roleGroupConfigMap hexDigest ≠ names'.roleGroupConfigMap hexDigest
  daemonSetName : names.daemonSetName hexDigest ≠ names'.daemonSetName hexDigest
  deploymentName : names.deploymentName hexDigest ≠ names'.deploymentName hexDigest
  statefulSetName : names.statefulSetName hexDigest ≠ names'.statefulSetName hexDigest
  headlessServiceName : names.headlessServiceName hexDigest ≠ names'.headlessServiceName hexDigest
  metricsServiceName : names.metricsServiceName hexDigest ≠ names'.metricsServiceName hexDigest
  headless_ne_metrics : names.headlessServiceName hexDigest ≠ names'.metricsServiceName hexDigest
  metrics_ne_headless : names.metricsServiceName hexDigest ≠ names'.headlessServiceName hexDigest
  listenerName : names.listenerName hexDigest ≠ names'.listenerName hexDigest
  objectName : names.roleGroupRef.objectName ≠ names'.roleGroupRef.objectName
  rolegroupHeadlessServiceName : names.roleGroupRef.rolegroupHeadlessServiceName ≠
    names'.roleGroupRef.rolegroupHeadlessServiceName
  rolegroupMetricsServiceName : names.roleGroupRef.rolegroupMetricsServiceName ≠
    names'.roleGroupRef.rolegroupMetricsServiceName

variable {hexDigest} {names names' : ResourceNames}

/-- A concatenated name that is too long is shortened to its beginning, a dash and its hash. -/
theorem ensureMaxStringLength_concatenatedName (hdigest : IsHexDigest hexDigest)
    (hlong : 52 < names.concatenatedName.utf8ByteSize) :
    ensureMaxStringLength hexDigest names.concatenatedName 52 6 =
      some (String.ofList (cutName (names.concatenatedName.toList.take 46) ++
        '-' :: hashOf hexDigest 6 names.concatenatedName)) := by
  have hascii := toNat_lt_of_label
    (Validation.matchesLowercaseRfc1123Label_of_rfc1035 names.isLabel_concatenatedName)
  have hlength : 52 < names.concatenatedName.toList.length := by
    rwa [utf8ByteSize_eq_utf8Size, utf8Size_eq_length hascii] at hlong
  obtain ⟨hfits, -⟩ | ⟨-, hzero, -⟩ | ⟨-, -, heq⟩ :=
    ensureMaxStringLength_cases hdigest (by decide : 6 ≤ 64)
      (by decide : 1 + 1 + 6 ≤ 52) names.concatenatedName
  · omega
  · omega
  · rw [heq, fitting_eq_take hascii, withHash_eq_append (by rw [List.length_take]; omega)]

/-- The same hash behind two names. -/
theorem hashOf_eq_of_append (hdigest : IsHexDigest hexDigest) {cut cut' : List Char}
    {s s' : String}
    (h : cut ++ '-' :: hashOf hexDigest 6 s = cut' ++ '-' :: hashOf hexDigest 6 s') :
    hashOf hexDigest 6 s = hashOf hexDigest 6 s' := by
  have hlength : ('-' :: hashOf hexDigest 6 s).length = ('-' :: hashOf hexDigest 6 s').length := by
    rw [List.length_cons, List.length_cons, length_hashOf hdigest (by decide),
      length_hashOf hdigest (by decide)]
  exact (List.cons.inj (List.append_inj_right' h hlength)).2

/-- **When qualified names are equal**, if the hash has no collision. -/
theorem qualifiedRoleGroupName_eq_iff (hdigest : IsHexDigest hexDigest)
    (hcollision : hashOf hexDigest 6 names.concatenatedName =
      hashOf hexDigest 6 names'.concatenatedName →
        names.concatenatedName = names'.concatenatedName) :
    names.qualifiedRoleGroupName hexDigest = names'.qualifiedRoleGroupName hexDigest ↔
      names.concatenatedName = names'.concatenatedName ∨
        Shadows hexDigest names names' ∨ Shadows hexDigest names' names := by
  obtain ⟨q, hq, hensure⟩ := names.exists_qualifiedRoleGroupName hdigest
  obtain ⟨q', hq', hensure'⟩ := names'.exists_qualifiedRoleGroupName hdigest
  have hfits (n : ResourceNames) (h : n.concatenatedName.utf8ByteSize ≤ 52) :
      ensureMaxStringLength hexDigest n.concatenatedName 52 6 = some n.concatenatedName :=
    ensureMaxStringLength_of_le (by decide) (by decide) h
  rw [hq, hq', Option.some_inj, Subtype.ext_iff]
  obtain hle | hlt := le_or_gt names.concatenatedName.utf8ByteSize 52 <;>
    obtain hle' | hlt' := le_or_gt names'.concatenatedName.utf8ByteSize 52
  · -- both names are kept
    rw [← Option.some.inj ((hfits names hle).symm.trans hensure),
      ← Option.some.inj ((hfits names' hle').symm.trans hensure')]
    have hno : ¬ Shadows hexDigest names names' := fun h => absurd h.2.1 (by omega)
    have hno' : ¬ Shadows hexDigest names' names := fun h => absurd h.2.1 (by omega)
    simp only [hno, hno', or_false]
  · rw [← Option.some.inj ((hfits names hle).symm.trans hensure),
      ← Option.some.inj ((ensureMaxStringLength_concatenatedName hdigest hlt').symm.trans hensure')]
    have hne : names.concatenatedName ≠ names'.concatenatedName := by
      intro heq
      rw [heq] at hle
      omega
    have hno' : ¬ Shadows hexDigest names' names := fun h => absurd h.1 (by omega)
    simp only [hne, hno', or_false, false_or]
    rw [Shadows, and_iff_right hle, and_iff_right hlt', ← String.toList_inj, String.toList_ofList]
  · rw [← Option.some.inj ((hfits names' hle').symm.trans hensure'),
      ← Option.some.inj ((ensureMaxStringLength_concatenatedName hdigest hlt).symm.trans hensure)]
    have hne : names.concatenatedName ≠ names'.concatenatedName := by
      intro heq
      rw [heq] at hlt
      omega
    have hno : ¬ Shadows hexDigest names names' := fun h => absurd h.1 (by omega)
    simp only [hne, hno, false_or]
    rw [Shadows, and_iff_right hle', and_iff_right hlt, ← String.toList_inj, String.toList_ofList,
      eq_comm]
  · -- both names end with their hash
    rw [← Option.some.inj ((ensureMaxStringLength_concatenatedName hdigest hlt).symm.trans hensure),
      ← Option.some.inj ((ensureMaxStringLength_concatenatedName hdigest hlt').symm.trans hensure')]
    have hno : ¬ Shadows hexDigest names names' := fun h => absurd h.1 (by omega)
    have hno' : ¬ Shadows hexDigest names' names := fun h => absurd h.1 (by omega)
    simp only [hno, hno', or_false]
    constructor
    · intro h
      exact hcollision (hashOf_eq_of_append hdigest (String.ofList_injective h))
    · intro h
      rw [h]

/-- The names of resources differ iff the qualified names do. -/
theorem resourceName_ne_iff (hdigest : IsHexDigest hexDigest) {attributes : List Attribute}
    {suffix : String} (hcheck : ∀ q : QualifiedRoleGroupName, ∀ a ∈ attributes,
      a.check attributes (q.1 ++ suffix) = .ok ()) :
    names.resourceName attributes suffix hexDigest ≠
        names'.resourceName attributes suffix hexDigest ↔
      names.qualifiedRoleGroupName hexDigest ≠ names'.qualifiedRoleGroupName hexDigest := by
  obtain ⟨q, hq, -⟩ := names.exists_qualifiedRoleGroupName hdigest
  obtain ⟨q', hq', -⟩ := names'.exists_qualifiedRoleGroupName hdigest
  obtain ⟨name, hname, heq⟩ := names.exists_resourceName hq (hcheck q)
  obtain ⟨name', hname', heq'⟩ := names'.exists_resourceName hq' (hcheck q')
  rw [hq, hq', hname, hname', Ne, Option.some_inj, Ne, Option.some_inj, Subtype.ext_iff,
    Subtype.ext_iff, heq, heq', String.append_left_inj]

/-- The names of a headless Service and of a metrics Service differ in their suffixes. -/
theorem headlessServiceName_ne_metricsServiceName (hdigest : IsHexDigest hexDigest) :
    names.headlessServiceName hexDigest ≠ names'.metricsServiceName hexDigest := by
  obtain ⟨_, _, _, _, _, _, ⟨name, hname, heq⟩, _⟩ := names.exists_names hdigest
  obtain ⟨_, _, _, _, _, _, _, ⟨name', hname', heq'⟩, _⟩ := names'.exists_names hdigest
  rw [hname, hname', Ne, Option.some_inj, Subtype.ext_iff, heq, heq', ← String.toList_inj,
    String.toList_append, String.toList_append]
  intro h
  have hlast := congrArg (fun l => l.reverse.take 8) h
  simp [List.reverse_append] at hlast

/-- The names of a cluster's role groups are joined the same way iff roles and role groups are. -/
theorem concatenatedName_eq_iff (clusterName : ClusterName) {roleName roleName' : RoleName}
    {roleGroupName roleGroupName' : RoleGroupName} :
    ResourceNames.concatenatedName ⟨clusterName, roleName, roleGroupName⟩ =
        ResourceNames.concatenatedName ⟨clusterName, roleName', roleGroupName'⟩ ↔
      roleName.1 ++ "-" ++ roleGroupName.1 = roleName'.1 ++ "-" ++ roleGroupName'.1 := by
  have hassoc (role roleGroup : String) : clusterName.1 ++ "-" ++ role ++ "-" ++ roleGroup =
      clusterName.1 ++ "-" ++ (role ++ "-" ++ roleGroup) := by
    simp only [String.append_assoc]
  rw [ResourceNames.concatenatedName, ResourceNames.concatenatedName, hassoc, hassoc,
    String.append_right_inj]

/-- **The names of two role groups of a cluster are distinct** iff the roles and role groups joined
by a dash differ and none of the two names is the shortened name of the other one. -/
theorem distinct_iff (hdigest : IsHexDigest hexDigest) (clusterName : ClusterName)
    (roleName roleName' : RoleName) (roleGroupName roleGroupName' : RoleGroupName)
    (hcollision :
      hashOf hexDigest 6 (ResourceNames.concatenatedName ⟨clusterName, roleName, roleGroupName⟩) =
        hashOf hexDigest 6
          (ResourceNames.concatenatedName ⟨clusterName, roleName', roleGroupName'⟩) →
      ResourceNames.concatenatedName ⟨clusterName, roleName, roleGroupName⟩ =
        ResourceNames.concatenatedName ⟨clusterName, roleName', roleGroupName'⟩) :
    Distinct hexDigest ⟨clusterName, roleName, roleGroupName⟩
        ⟨clusterName, roleName', roleGroupName'⟩ ↔
      roleName.1 ++ "-" ++ roleGroupName.1 ≠ roleName'.1 ++ "-" ++ roleGroupName'.1 ∧
        ¬ Shadows hexDigest ⟨clusterName, roleName, roleGroupName⟩
          ⟨clusterName, roleName', roleGroupName'⟩ ∧
        ¬ Shadows hexDigest ⟨clusterName, roleName', roleGroupName'⟩
          ⟨clusterName, roleName, roleGroupName⟩ := by
  -- the qualified names are equal iff the joined names are, or one shadows the other
  have hqualified := (qualifiedRoleGroupName_eq_iff hdigest hcollision).not
  rw [not_or, not_or] at hqualified
  rw [Ne, ← concatenatedName_eq_iff clusterName, ← hqualified]
  constructor
  · exact fun h => h.qualifiedRoleGroupName
  · intro hne
    have hjoined := (hqualified.mp hne).1
    -- a suffix keeps different names apart
    have hsubdomain := (resourceName_ne_iff hdigest ResourceNames.check_subdomain).mpr hne
    exact {
      qualifiedRoleGroupName := hne
      roleGroupConfigMap := hsubdomain
      daemonSetName := hsubdomain
      deploymentName := (resourceName_ne_iff hdigest ResourceNames.check_deployment).mpr hne
      statefulSetName := (resourceName_ne_iff hdigest ResourceNames.check_statefulSet).mpr hne
      headlessServiceName := (resourceName_ne_iff hdigest fun q =>
        ResourceNames.check_service q _ rfl (by decide) (by decide)).mpr hne
      metricsServiceName := (resourceName_ne_iff hdigest fun q =>
        ResourceNames.check_service q _ rfl (by decide) (by decide)).mpr hne
      headless_ne_metrics := headlessServiceName_ne_metricsServiceName hdigest
      metrics_ne_headless := (headlessServiceName_ne_metricsServiceName hdigest).symm
      listenerName := hsubdomain
      objectName := hjoined
      rolegroupHeadlessServiceName := (String.append_left_inj _).not.mpr hjoined
      rolegroupMetricsServiceName := (String.append_left_inj _).not.mpr hjoined }

/-- The role groups `b` and `c` of a role `a`. -/
def namesB : ResourceNames := ⟨⟨"c", by decide⟩, ⟨"a", by decide⟩, ⟨"b", by decide⟩⟩

def namesC : ResourceNames := ⟨⟨"c", by decide⟩, ⟨"a", by decide⟩, ⟨"c", by decide⟩⟩

/-- The SHA-256 digests of the two concatenated names. -/
def digestOfNames (s : String) : String :=
  if s = "c-a-b" then "c50d289f74270b0945239d430044cec2f8890a869b4980cd7138d28fc5ea7d42"
  else "269d173967d1a195873015abdb27b5795c1ca16966155618524b8400aa5cbf56"

theorem isHexDigest_digestOfNames : IsHexDigest digestOfNames := by
  intro s
  rw [digestOfNames]
  split
  · exact ⟨rfl, List.all_eq_true.mp rfl⟩
  · exact ⟨rfl, List.all_eq_true.mp rfl⟩

/-- Two role groups of one role, with short names. -/
theorem distinct_namesB_namesC : Distinct digestOfNames namesB namesC := by
  refine (distinct_iff isHexDigest_digestOfNames namesB.clusterName namesB.roleName namesC.roleName
    namesB.roleGroupName namesC.roleGroupName (by decide)).mpr ⟨by decide, ?_, ?_⟩
  · exact fun h => absurd h.2.1 (by decide)
  · exact fun h => absurd h.2.1 (by decide)

/-- The role group `c` of a role `a-b`. -/
def namesAB : ResourceNames := ⟨⟨"c", by decide⟩, ⟨"a-b", by decide⟩, ⟨"c", by decide⟩⟩

/-- The role group `b-c` of a role `a`. -/
def namesBC : ResourceNames := ⟨⟨"c", by decide⟩, ⟨"a", by decide⟩, ⟨"b-c", by decide⟩⟩

/-- The SHA-256 digest of the concatenated name of both. -/
def digestOfDashes : String := "79dbe4e46a81bf774f1515ac4b28e406442fc8e4c65a34e8fa47e0b341b5872c"

/-- The StatefulSets of two role groups have the same name. -/
theorem not_distinct_dashes : (namesAB.roleName.1, namesAB.roleGroupName.1) ≠
      (namesBC.roleName.1, namesBC.roleGroupName.1) ∧
    namesAB.statefulSetName (fun _ => digestOfDashes) =
      namesBC.statefulSetName (fun _ => digestOfDashes) ∧
    ¬ Distinct (fun _ => digestOfDashes) namesAB namesBC := by
  have heq : namesAB.statefulSetName (fun _ => digestOfDashes) =
      namesBC.statefulSetName (fun _ => digestOfDashes) := rfl
  exact ⟨by decide, heq, fun h => h.statefulSetName heq⟩

end RoleGroupUtils

end V2

end StackableOperator
