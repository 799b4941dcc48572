import Mathlib
import StackableOperator.ClusterResources.Add
import StackableOperator.Kvp.Label
import StackableOperator.V2.Types.Operator

/-!
# Recommended labels

The labels that operators put on their resources, built from validated names. A function that
panics has no result (`none`); `exists_collectLabels` says that none of them does, and which
labels the resources get.
-/

namespace StackableOperator

namespace V2

open Kvp

/-! ### The model of the source -/

/-- The operator and the controller name with an underscore in between, if that is the name of a
controller, else the operator name. -/
def fullControllerName (operatorName : OperatorName) (controllerName : ControllerName) :
    Option ControllerName :=
  match AttributedString.fromStr [.isValidLabelValue]
      (operatorName.1 ++ "_" ++ controllerName.1) with
  | .ok fullControllerName => some fullControllerName
  | .error _ => (AttributedString.fromStr [.isValidLabelValue] operatorName.1).toOption

def labelAppKubernetesIoInstance (clusterName : ClusterName) : Option Label :=
  (Label.instance clusterName.1).toOption

def labelAppKubernetesIoName (productName : ProductName) : Option Label :=
  (Label.name productName.1).toOption

def labelAppKubernetesIoVersion (productVersion : ProductVersion) : Option Label :=
  (Label.version productVersion.1).toOption

/-- The `app.kubernetes.io/managed-by` label with the full controller name as its value. -/
def labelAppKubernetesIoManagedBy (operatorName : OperatorName)
    (controllerName : ControllerName) : Option Label :=
  (fullControllerName operatorName controllerName).bind fun fullControllerName =>
    (Label.tryFrom k8sAppManagedByKey fullControllerName.1).toOption

def labelAppKubernetesIoComponent (roleName : RoleName) : Option Label :=
  (Label.component roleName.1).toOption

def labelAppKubernetesIoRoleGroup (roleGroupName : RoleGroupName) : Option Label :=
  (Label.roleGroup roleGroupName.1).toOption

def labelStackableTechVendor : Option Label := Label.stackableVendor.toOption

/-- Collect labels, each of which may panic. -/
def collectLabels (labels : List (Option Label)) : Option Labels :=
  (labels.mapM id).map Labels.fromIter

section Recommended

variable (clusterName : ClusterName) (productName : ProductName)
  (productVersion : ProductVersion) (operatorName : OperatorName)
  (controllerName : ControllerName) (roleName : RoleName) (roleGroupName : RoleGroupName)

def recommendedLabelsForClusterResources : Option Labels :=
  collectLabels [
    labelAppKubernetesIoInstance clusterName,
    labelAppKubernetesIoName productName,
    labelAppKubernetesIoVersion productVersion,
    labelAppKubernetesIoManagedBy operatorName controllerName,
    labelStackableTechVendor]

def recommendedLabelsForRoleResources : Option Labels :=
  collectLabels [
    labelAppKubernetesIoInstance clusterName,
    labelAppKubernetesIoName productName,
    labelAppKubernetesIoVersion productVersion,
    labelAppKubernetesIoComponent roleName,
    labelAppKubernetesIoManagedBy operatorName controllerName,
    labelStackableTechVendor]

/-- The role selector. -/
def roleSelector : Option Labels :=
  collectLabels [
    labelAppKubernetesIoInstance clusterName,
    labelAppKubernetesIoName productName,
    labelAppKubernetesIoComponent roleName]

def recommendedLabelsForRoleGroupResources : Option Labels :=
  collectLabels [
    labelAppKubernetesIoInstance clusterName,
    labelAppKubernetesIoName productName,
    labelAppKubernetesIoVersion productVersion,
    labelAppKubernetesIoComponent roleName,
    labelAppKubernetesIoRoleGroup roleGroupName,
    labelAppKubernetesIoManagedBy operatorName controllerName,
    labelStackableTechVendor]

/-- The labels of role group resources that cannot be mutated. -/
def recommendedLabelsForUnversionedRoleGroupResources : Option Labels :=
  collectLabels [
    labelAppKubernetesIoInstance clusterName,
    labelAppKubernetesIoName productName,
    labelAppKubernetesIoComponent roleName,
    labelAppKubernetesIoRoleGroup roleGroupName,
    labelAppKubernetesIoManagedBy operatorName controllerName,
    labelStackableTechVendor]

/-- The role group selector. -/
def roleGroupSelector : Option Labels :=
  collectLabels [
    labelAppKubernetesIoInstance clusterName,
    labelAppKubernetesIoName productName,
    labelAppKubernetesIoComponent roleName,
    labelAppKubernetesIoRoleGroup roleGroupName]

end Recommended

/-! ### The full controller name -/

section FullControllerName

variable {operatorName : OperatorName} {controllerName : ControllerName}

theorem isNameChar_of_isAlphanum (c : Char) (h : c.isAlphanum = true) :
    isNameChar c = true := by
  rw [isNameChar, h]
  rfl

/-- Joined names are only rejected because of their length. -/
theorem check_join_eq_ok_iff {s t : String} (hs : LabelValue.check s = .ok ())
    (ht : LabelValue.check t = .ok ()) :
    LabelValue.check (s ++ "_" ++ t) = .ok () ↔
      s.utf8ByteSize + 1 + t.utf8ByteSize ≤ labelValueMaxLen := by
  obtain ⟨-, hsascii, hsname⟩ := LabelValue.check_eq_ok_iff.mp hs
  obtain ⟨-, htascii, htname⟩ := LabelValue.check_eq_ok_iff.mp ht
  have htoList : (s ++ "_" ++ t).toList = s.toList ++ '_' :: t.toList := by
    simp [String.toList_append]
  have hsize : (s ++ "_" ++ t).utf8ByteSize = s.utf8ByteSize + 1 + t.utf8ByteSize := by
    rw [String.utf8ByteSize_append, String.utf8ByteSize_append]
    rfl
  have hascii : isAscii (s ++ "_" ++ t) = true := by
    rw [isAscii, htoList, List.all_append, List.all_cons, Bool.and_eq_true, Bool.and_eq_true]
    exact ⟨hsascii, by decide, htascii⟩
  have hname : matchesName (s ++ "_" ++ t).toList = true := by
    rw [htoList]
    exact isSegment_append isNameChar_of_isAlphanum isNameChar_of_isAlphanum (fun _ h => h)
      (by decide) hsname htname
  rw [LabelValue.check_eq_ok_iff, hsize]
  exact ⟨fun h => h.1, fun h => ⟨h, hascii, hname⟩⟩

/-- A string is the name of a controller iff it is a valid label value. -/
theorem fromStr_labelValue {s : String} (h : LabelValue.check s = .ok ()) :
    ∃ name, AttributedString.fromStr [.isValidLabelValue] s = .ok name ∧ name.1 = s := by
  have hattributes : ∀ a ∈ [Attribute.isValidLabelValue],
      a.check [.isValidLabelValue] s = .ok () := by
    intro a ha
    obtain rfl := List.mem_singleton.mp ha
    rw [Attribute.check, h]
    rfl
  exact ⟨⟨s, hattributes⟩, AttributedString.fromStr_eq_ok_iff.mpr rfl, rfl⟩

/-- Names that fit are joined. -/
theorem fullControllerName_of_le
    (h : operatorName.1.utf8ByteSize + 1 + controllerName.1.utf8ByteSize ≤ labelValueMaxLen) :
    ∃ name, fullControllerName operatorName controllerName = some name ∧
      name.1 = formatFullControllerName operatorName.1 controllerName.1 := by
  have hcheck : LabelValue.check (operatorName.1 ++ "_" ++ controllerName.1) = .ok () :=
    (check_join_eq_ok_iff (AttributedString.check_labelValue (by simp) operatorName)
      (AttributedString.check_labelValue (by simp) controllerName)).mpr h
  obtain ⟨name, hname, hval⟩ := fromStr_labelValue hcheck
  refine ⟨name, ?_, hval⟩
  rw [fullControllerName, hname]

/-- Of names that do not fit only the operator name is left. -/
theorem fullControllerName_of_lt
    (h : labelValueMaxLen < operatorName.1.utf8ByteSize + 1 + controllerName.1.utf8ByteSize) :
    ∃ name, fullControllerName operatorName controllerName = some name ∧
      name.1 = operatorName.1 := by
  have hoperator := AttributedString.check_labelValue (by simp) operatorName
  have hcontroller := AttributedString.check_labelValue (by simp) controllerName
  rw [fullControllerName]
  split
  · rename_i name hname
    have hcheck := AttributedString.check_labelValue (by simp) name
    rw [AttributedString.fromStr_eq_ok_iff.mp hname,
      check_join_eq_ok_iff hoperator hcontroller] at hcheck
    exact absurd hcheck (Nat.not_le.mpr h)
  · obtain ⟨name, hname, hval⟩ := fromStr_labelValue hoperator
    exact ⟨name, by rw [hname]; rfl, hval⟩

theorem formatFullControllerName_ne (operatorName controllerName : String) :
    formatFullControllerName operatorName controllerName ≠ operatorName := by
  intro h
  have hsize := congrArg String.utf8ByteSize h
  rw [formatFullControllerName, String.utf8ByteSize_append, String.utf8ByteSize_append] at hsize
  have hone : "_".utf8ByteSize = 1 := rfl
  omega

/-- The value of the `app.kubernetes.io/managed-by` label. -/
def managedBy (operatorName : OperatorName) (controllerName : ControllerName) : String :=
  if operatorName.1.utf8ByteSize + 1 + controllerName.1.utf8ByteSize ≤ labelValueMaxLen then
    formatFullControllerName operatorName.1 controllerName.1
  else operatorName.1

theorem exists_fullControllerName (operatorName : OperatorName)
    (controllerName : ControllerName) :
    ∃ name, fullControllerName operatorName controllerName = some name ∧
      name.1 = managedBy operatorName controllerName := by
  rw [managedBy]
  split_ifs with h
  · exact fullControllerName_of_le h
  · exact fullControllerName_of_lt (Nat.not_le.mp h)

theorem managedBy_eq_iff (operatorName : OperatorName) (controllerName : ControllerName) :
    managedBy operatorName controllerName =
        formatFullControllerName operatorName.1 controllerName.1 ↔
      operatorName.1.utf8ByteSize + 1 + controllerName.1.utf8ByteSize ≤ labelValueMaxLen := by
  rw [managedBy]
  split_ifs with h
  · exact iff_of_true rfl h
  · exact iff_of_false (formatFullControllerName_ne _ _).symm h

end FullControllerName

/-! ### The labels -/

/-- The function does not panic and gives this label. -/
def GivesLabel (label? : Option Label) (e : String × String) : Prop :=
  ∃ label, label? = some label ∧ label.key.string = e.1 ∧ label.value.1 = e.2

theorem givesLabel_tryFrom {key value : String}
    (hkey : (Key.fromStr key).map Key.string = .ok key)
    (hvalue : LabelValue.check value = .ok ()) :
    GivesLabel (Label.tryFrom key value).toOption (key, value) := by
  rcases hk : Key.fromStr key with e | k
  · rw [hk] at hkey
    exact absurd hkey (by simp [Except.map])
  · rw [hk] at hkey
    refine ⟨⟨k, ⟨value, hvalue⟩⟩, ?_, Except.ok.inj hkey, rfl⟩
    rw [Label.tryFrom_eq_ok hk hvalue]
    rfl

theorem givesLabel_managedBy (operatorName : OperatorName) (controllerName : ControllerName) :
    GivesLabel (labelAppKubernetesIoManagedBy operatorName controllerName)
      (k8sAppManagedByKey, managedBy operatorName controllerName) := by
  obtain ⟨name, hname, hval⟩ := exists_fullControllerName operatorName controllerName
  rw [labelAppKubernetesIoManagedBy, hname, ← hval]
  exact givesLabel_tryFrom (by decide) (AttributedString.check_labelValue (by simp) name)

/-- A label whose value is a validated name. -/
theorem givesLabel_name {attributes : List Attribute} (hmem : .isValidLabelValue ∈ attributes)
    {key : String} (hkey : (Key.fromStr key).map Key.string = .ok key)
    (name : AttributedString attributes) :
    GivesLabel (Label.tryFrom key name.1).toOption (key, name.1) :=
  givesLabel_tryFrom hkey (AttributedString.check_labelValue hmem name)

theorem exists_mapM {labels : List (Option Label)} {entries : List (String × String)}
    (h : List.Forall₂ GivesLabel labels entries) :
    ∃ ls, labels.mapM id = some ls ∧
      ls.map (fun label => (label.key.string, label.value.1)) = entries := by
  induction h with
  | nil => exact ⟨[], rfl, rfl⟩
  | cons hlabel _ ih =>
    obtain ⟨label, rfl, hkey, hvalue⟩ := hlabel
    obtain ⟨ls, hls, hentries⟩ := ih
    refine ⟨label :: ls, ?_, ?_⟩
    · rw [List.mapM_cons, hls]
      rfl
    · rw [List.map_cons, hentries, hkey, hvalue]

/-- **Collected labels** do not panic and are the listed ones. -/
theorem exists_collectLabels {labels : List (Option Label)} {entries : List (String × String)}
    (h : List.Forall₂ GivesLabel labels entries) (hnodup : (entries.map Prod.fst).Nodup) :
    ∃ result, collectLabels labels = some result ∧ ∀ key value,
      IterMap.get? (M := BTreeMap String) result.toBTreeMap key = some value ↔
        (key, value) ∈ entries := by
  obtain ⟨ls, hls, rfl⟩ := exists_mapM h
  refine ⟨Labels.fromIter ls, by rw [collectLabels, hls]; rfl, ?_⟩
  intro key value
  rw [List.map_map] at hnodup
  rw [Labels.get?_toBTreeMap_fromIter hnodup, List.mem_map]
  simp only [Prod.mk.injEq]

end V2

end StackableOperator
