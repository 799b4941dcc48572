import Mathlib
import StackableOperator.RustStd.CharBoundary
import StackableOperator.Validation

/-!
# Prefixes of DNS labels

`nameIsDnsLabel` replaces a final dash of a prefix before it checks the label. The prefixes that it
accepts are the beginnings of labels and the single dash (`matches_maskTrailingDash_iff`), which is
the only one that no label begins with (`isSound_nameIsDnsLabel_iff`).
-/

namespace StackableOperator

namespace Validation

/-- Replace the final character by one that may stand at the end if it is a dash. -/
def maskTrailingDash (name : String) : String :=
  if name.toList.getLast? = some '-' then String.ofList (name.toList.dropLast ++ ['a']) else name

/-- Check whether a name, or what the name is a prefix of, is a label. -/
def nameIsDnsLabel (name : String) (isPrefix : Bool) : Except Errors Unit :=
  let name := if isPrefix then maskTrailingDash name else name
  isLowercaseRfc1035Label name

def validateNamespaceName (name : String) (isPrefix : Bool) : Except Errors Unit :=
  nameIsDnsLabel name isPrefix

/-- If the prefix is accepted, then it is with every suffix. -/
def IsSound (validate : String → Bool → Except Errors Unit) (p : String) : Prop :=
  validate p true = .ok () → ∀ s : String, s ≠ "" → s.toList.all isLowerAlphanum = true →
    (p ++ s).utf8ByteSize ≤ 63 → validate (p ++ s) false = .ok ()

/-- What a label begins with. -/
def IsLabelStart (p : List Char) : Prop :=
  ∃ c cs, p = c :: cs ∧ c.isLower = true ∧ ∀ x ∈ cs, isLowerAlphanumOrDash x = true

theorem isLabelStart_of_matches {p : List Char} (h : matchesLowercaseRfc1035Label p = true) :
    IsLabelStart p := by
  have hall := all_of_isSegment
    (fun c hc => isLowerAlphanumOrDash_of_isLowerAlphanum c (isLowerAlphanum_of_isLower c hc))
    isLowerAlphanumOrDash_of_isLowerAlphanum h
  match p with
  | [] => cases h
  | c :: cs => exact ⟨c, cs, rfl, (isSegment_cons_iff.mp h).1, fun x hx =>
      hall x (List.mem_cons_of_mem c hx)⟩

/-- A label begins with all of its prefixes. -/
theorem IsLabelStart.of_append {p q : List Char} (hne : p ≠ []) (h : IsLabelStart (p ++ q)) :
    IsLabelStart p := by
  obtain ⟨c, cs, rfl⟩ := List.exists_cons_of_ne_nil hne
  obtain ⟨d, ds, heq, hd, hds⟩ := h
  obtain ⟨rfl, rfl⟩ := List.cons.inj heq
  exact ⟨c, cs, rfl, hd, fun x hx => hds x (List.mem_append_left q hx)⟩

/-- **A beginning of a label is a label with every suffix.** -/
theorem IsLabelStart.matches_append {p s : List Char} (h : IsLabelStart p) (hne : s ≠ [])
    (hs : s.all isLowerAlphanum = true) : matchesLowercaseRfc1035Label (p ++ s) = true := by
  obtain ⟨c, cs, rfl, hc, hcs⟩ := h
  obtain ⟨front, z, rfl⟩ := (List.eq_nil_or_concat' s).resolve_left hne
  rw [List.all_append, Bool.and_eq_true, List.all_eq_true, List.all_cons, Bool.and_eq_true] at hs
  refine isSegment_cons_iff.mpr ⟨hc, .inr ⟨cs ++ front, z, (List.append_assoc _ _ _).symm, ?_,
    hs.2.1⟩⟩
  refine List.forall_mem_append.mpr ⟨hcs, fun x hx => ?_⟩
  exact isLowerAlphanumOrDash_of_isLowerAlphanum x (hs.1 x hx)

theorem toList_maskTrailingDash_concat (q : List Char) :
    (maskTrailingDash (String.ofList (q ++ ['-']))).toList = q ++ ['a'] := by
  rw [maskTrailingDash, String.toList_ofList, List.getLast?_concat, if_pos rfl,
    List.dropLast_concat, String.toList_ofList]

/-- The masked name has as many bytes. -/
theorem utf8ByteSize_maskTrailingDash (name : String) :
    (maskTrailingDash name).utf8ByteSize = name.utf8ByteSize := by
  unfold maskTrailingDash
  split_ifs with hdash
  · obtain ⟨q, hq⟩ := List.getLast?_eq_some_iff.mp hdash
    rw [hq, List.dropLast_concat, utf8ByteSize_ofList, utf8ByteSize_eq_utf8Size, hq,
      utf8Size_append, utf8Size_append]
    rfl
  · rfl

/-- **The accepted prefixes** are the beginnings of labels and the single dash. -/
theorem matches_maskTrailingDash_iff {p : String} :
    matchesLowercaseRfc1035Label (maskTrailingDash p).toList = true ↔
      p = "-" ∨ IsLabelStart p.toList := by
  obtain ⟨p, rfl⟩ : ∃ cs, p = String.ofList cs := ⟨p.toList, String.ofList_toList.symm⟩
  rw [String.toList_ofList]
  by_cases hdash : p.getLast? = some '-'
  · obtain ⟨q, rfl⟩ := List.getLast?_eq_some_iff.mp hdash
    rw [toList_maskTrailingDash_concat]
    constructor
    · intro h
      match q with
      | [] => exact .inl rfl
      | c :: cs =>
        obtain ⟨d, ds, heq, hd, hds⟩ := isLabelStart_of_matches h
        obtain ⟨rfl, rfl⟩ := List.cons.inj heq
        obtain ⟨hcs, -⟩ := List.forall_mem_append.mp hds
        refine .inr ⟨c, cs ++ ['-'], rfl, hd, List.forall_mem_append.mpr ⟨hcs, ?_⟩⟩
        exact List.forall_mem_singleton.mpr rfl
    · rintro (hp | hstart)
      · obtain rfl : q = [] := by
          have hlist := congrArg String.toList hp
          rw [String.toList_ofList] at hlist
          simpa using hlist
        rfl
      · match q with
        | [] =>
          obtain ⟨c, cs, heq, hc, -⟩ := hstart
          obtain ⟨rfl, -⟩ := List.cons.inj heq
          cases hc
        | c :: cs => exact (hstart.of_append (List.cons_ne_nil c cs)).matches_append (by simp) rfl
  · have hmask : maskTrailingDash (String.ofList p) = String.ofList p :=
      if_neg (by rwa [String.toList_ofList])
    rw [hmask, String.toList_ofList]
    constructor
    · exact fun h => .inr (isLabelStart_of_matches h)
    · rintro (hp | ⟨c, cs, rfl, hc, hcs⟩)
      · refine absurd ?_ hdash
        have hlist := congrArg String.toList hp
        rw [String.toList_ofList] at hlist
        rw [hlist]
        rfl
      · -- the last character is no dash
        refine isSegment_cons_iff.mpr ⟨hc, ?_⟩
        obtain rfl | ⟨front, z, rfl⟩ := List.eq_nil_or_concat' cs
        · exact .inl rfl
        · obtain ⟨hfront, hz⟩ := List.forall_mem_append.mp hcs
          refine .inr ⟨front, z, rfl, hfront, ?_⟩
          have hz := hz z (List.mem_singleton_self z)
          rw [isLowerAlphanumOrDash, Bool.or_eq_true, beq_iff_eq] at hz
          refine hz.resolve_left ?_
          rintro rfl
          exact hdash (List.getLast?_concat (l := c :: front))

theorem nameIsDnsLabel_true_iff {p : String} : nameIsDnsLabel p true = .ok () ↔
    p.utf8ByteSize ≤ rfc1035LabelMaxLength ∧ (p = "-" ∨ IsLabelStart p.toList) := by
  rw [nameIsDnsLabel, if_pos rfl, isLowercaseRfc1035Label_eq_ok_iff,
    utf8ByteSize_maskTrailingDash, matches_maskTrailingDash_iff]

/-- **The only prefix for which the check is unsound is the single dash.** -/
theorem isSound_nameIsDnsLabel_iff (p : String) :
    (IsSound nameIsDnsLabel p ↔ p ≠ "-") ∧ (IsSound validateNamespaceName p ↔ p ≠ "-") := by
  have hname : IsSound nameIsDnsLabel p ↔ p ≠ "-" := by
    constructor
    · rintro hsound rfl
      have hlabel : nameIsDnsLabel ("-" ++ "a") false = .ok () :=
        hsound (by decide +kernel) "a" (by decide) rfl (by decide)
      exact absurd hlabel (by decide +kernel)
    · intro hne haccepted s hs hall hsize
      obtain ⟨-, hp⟩ := nameIsDnsLabel_true_iff.mp haccepted
      have hlabel : matchesLowercaseRfc1035Label (p ++ s).toList = true := by
        rw [String.toList_append]
        exact (hp.resolve_left hne).matches_append (mt String.toList_eq_nil_iff.mp hs) hall
      exact isLowercaseRfc1035Label_eq_ok_iff.mpr ⟨hsize, hlabel⟩
  exact ⟨hname, hname⟩

/-- The dash is accepted as a prefix, but a label does not begin with it. -/
theorem not_isSound_dash :
    ¬ ((∀ p, IsSound nameIsDnsLabel p) ∧ ∀ p, IsSound validateNamespaceName p) := by
  rintro ⟨h, -⟩
  have hlabel : nameIsDnsLabel ("-" ++ "x") false = .ok () :=
    h "-" (by decide +kernel) "x" (by decide) rfl (by decide)
  exact absurd hlabel (by decide +kernel)

end Validation

end StackableOperator
