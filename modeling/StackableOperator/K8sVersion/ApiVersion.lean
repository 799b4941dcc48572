import Mathlib
import StackableOperator.ForMathlib.SplitOn
import StackableOperator.K8sVersion.FromStr
import StackableOperator.K8sVersion.Group

/-!
# API versions

An API version is a version with an optional group before it, as in `apps/v1`. Its text is split at
the first slash. `ApiVersion.fromStr_display` is the round trip; `Group.fromStr_meets_iff` says for
which strings the groups are the DNS subdomains.
-/

namespace StackableOperator

structure ApiVersion where
  group : Option Group
  version : Version

inductive ParseApiVersionError : Type
  | parseVersion (source : ParseVersionError)
  | parseGroup (source : ParseGroupError)
  deriving DecidableEq, Repr

namespace ApiVersion

def fromStr (input : String) : Except ParseApiVersionError ApiVersion :=
  match splitOnce '/' input.toList with
  | some (group, version) =>
    match Group.fromStr (String.ofList group) with
    | .error source => .error (.parseGroup source)
    | .ok group =>
      match Version.fromStr version with
      | .error source => .error (.parseVersion source)
      | .ok version => .ok ⟨some group, version⟩
  | none =>
    match Version.fromStr input.toList with
    | .error source => .error (.parseVersion source)
    | .ok version => .ok ⟨none, version⟩

def display (apiVersion : ApiVersion) : String :=
  match apiVersion.group with
  | some group => group.val ++ "/" ++ apiVersion.version.display
  | none => apiVersion.version.display

end ApiVersion

/-- A group consists of the characters of labels and of dots. -/
theorem Group.notMem_slash (group : Group) : '/' ∉ group.val.toList := by
  obtain ⟨-, v, hv, hchains⟩ := Group.check_eq_ok_iff.mp group.property
  have hnotMem : '/' ∉ v := by
    intro hmem
    have hjoin : ['.'].intercalate (v.splitOn '.') = v := List.intercalate_splitOn '.'
    rw [← hjoin] at hmem
    obtain hdot | ⟨segment, hsegment, hslash⟩ := mem_intercalate hmem
    · exact absurd (List.mem_singleton.mp hdot) (by decide)
    · obtain ⟨labels, -, rfl, hlabels⟩ := hchains segment hsegment
      obtain ⟨label, hlabel, hmem'⟩ := List.mem_flatten.mp hslash
      exact absurd ((hlabels label hlabel).1.isLowerAlphanumOrDash '/' hmem') (by decide)
  obtain hv | hv := hv
  · rw [hv]
    exact hnotMem
  · rw [hv, List.mem_append, List.mem_singleton]
    rintro (hmem | hdot)
    · exact hnotMem hmem
    · exact absurd hdot (by decide)

theorem notMem_slash_toDigits (n : ℕ) : '/' ∉ Nat.toDigits 10 n := by
  intro hmem
  exact absurd (Nat.isDigit_of_mem_toDigits (by decide) (by decide) hmem) (by decide)

theorem Version.notMem_slash (version : Version) : '/' ∉ version.display.toList := by
  obtain ⟨major, level⟩ := version
  have hmajor := notMem_slash_toDigits major
  match level with
  | none => simp [Version.display, hmajor]
  | some (.alpha n) => simp [Version.display, Level.display, hmajor, notMem_slash_toDigits n]
  | some (.beta n) => simp [Version.display, Level.display, hmajor, notMem_slash_toDigits n]

/-- **The text of an API version is read as this API version.** -/
theorem ApiVersion.fromStr_display {apiVersion : ApiVersion} (h : apiVersion.version.IsU64) :
    ApiVersion.fromStr apiVersion.display = .ok apiVersion := by
  obtain ⟨group, version⟩ := apiVersion
  match group with
  | none =>
    rw [ApiVersion.fromStr, ApiVersion.display, splitOnce_eq_none (Version.notMem_slash version)]
    simp only [Version.fromStr_display h]
  | some group =>
    have htext : (ApiVersion.display ⟨some group, version⟩).toList =
        group.val.toList ++ '/' :: version.display.toList := by
      simp [ApiVersion.display]
    rw [ApiVersion.fromStr, htext, splitOnce_append (Group.notMem_slash group)]
    simp only [String.ofList_toList, Group.fromStr, checked_of_eq_ok group.2,
      Version.fromStr_display h]

/-- **Parsing groups.** A string is accepted iff it is a DNS subdomain, and the API versions of the
group survive their round trip, exactly if the string is not a DNS subdomain with a short label and
has no loose dots. -/
theorem Group.fromStr_meets_iff (s : String) :
    (((∃ group, Group.fromStr s = .ok group) ↔ IsDnsSubdomain s) ∧
      ∀ group, Group.fromStr s = .ok group → ∀ version : Version, version.IsU64 →
        ApiVersion.fromStr (ApiVersion.display ⟨some group, version⟩) =
          .ok ⟨some group, version⟩) ↔
      ¬HasShortLabel s ∧ ¬HasLooseDots s := by
  unfold Group.fromStr
  rw [exists_checked_iff, Group.check_iff_isDnsSubdomain_iff]
  constructor
  · exact And.left
  · intro h
    exact ⟨h, fun group _ version hversion => ApiVersion.fromStr_display hversion⟩

theorem isLabel_foo : IsLabel ['f', 'o', 'o'] where
  ne_nil := by simp
  length_le := by simp
  isLowerAlphanumOrDash := List.all_eq_true.mp rfl
  head := by simp; rfl
  last := by simp; rfl

/-- With a dot behind it, `foo` is still a group. -/
theorem Group.fromStr_foo_dot : ¬∀ s : String,
    ((∃ group, Group.fromStr s = .ok group) ↔ IsDnsSubdomain s) ∧
      ∀ group, Group.fromStr s = .ok group → ∀ version : Version, version.IsU64 →
        ApiVersion.fromStr (ApiVersion.display ⟨some group, version⟩) =
          .ok ⟨some group, version⟩ := by
  intro h
  have hgroup : ∃ group, Group.fromStr "foo." = .ok group := by
    unfold Group.fromStr
    rw [exists_checked_iff, Group.check_eq_ok_iff]
    refine ⟨by decide, ['f', 'o', 'o'], Or.inr (by simp), ?_⟩
    rw [List.splitOn_eq_singleton (by simp), List.forall_mem_singleton]
    exact isLabel_foo.isLabelChain (by simp)
  have hdns := (h "foo.").1.mp hgroup
  exact hdns.toList_ne ['f', 'o', 'o'] (by simp)

end StackableOperator
