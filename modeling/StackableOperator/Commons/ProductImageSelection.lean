import Mathlib
import StackableOperator.RustStd.CharBoundary
import StackableOperator.Kvp.KeyFromStr
import StackableOperator.Kvp.Label
import StackableOperator.Regex

/-!
# Product image selection

The product image of a custom resource is either given, or put together from the product version and
the Stackable version. `resolve` also prepares a label value from the version: the text is truncated
to 63 bytes, colons are replaced by dashes, and the result is checked. Truncating inside of a
character panics (`none`).

`resolve_iff` says when `resolve` does not panic and gives a label value to every version that
consists of the characters of label values.
-/

namespace StackableOperator

namespace ProductImageSelection

/-- `k8s_openapi::api::core::v1::LocalObjectReference` -/
structure LocalObjectReference where
  name : String
  deriving DecidableEq

/-- The parts of an image reference that matter here. -/
structure ImageRef where
  tag : Option String
  hash : Option String

/-- The app version is no label value. -/
structure Error where
  source : Kvp.LabelValueError
  appVersion : String

structure CustomProductImage where
  custom : String
  productVersion : String

structure AutoProductImage where
  productVersion : String
  stackableVersion : Option String
  repo : Option String

inductive Selection : Type
  | custom (image : CustomProductImage)
  | auto (image : AutoProductImage)

inductive PullPolicy : Type
  | ifNotPresent
  | always
  | never

def PullPolicy.asRef : PullPolicy → String
  | ifNotPresent => "IfNotPresent"
  | always => "Always"
  | never => "Never"

structure ProductImage where
  imageSelection : Selection
  pullPolicy : PullPolicy := .always
  pullSecrets : Option (List LocalObjectReference)

structure ResolvedProductImage where
  productVersion : String
  appVersionLabelValue : Kvp.LabelValue
  image : String
  imagePullPolicy : String
  pullSecrets : Option (List LocalObjectReference)

/-- Colons, as in the hash of an image, are no characters of label values. -/
def replaceColons (cs : List Char) : List Char := cs.map fun c => if c = ':' then '-' else c

/-- The label value of an app version. -/
def prepareAppVersionLabelValue (appVersion : String) : Option (Except Error Kvp.LabelValue) :=
  (truncate appVersion.toList Kvp.labelValueMaxLen).map fun formattedAppVersion =>
    let formattedAppVersion := String.ofList (replaceColons formattedAppVersion)
    match Kvp.LabelValue.fromStr formattedAppVersion with
    | .ok value => .ok value
    | .error source => .error ⟨source, formattedAppVersion⟩

namespace ProductImage

section Resolve

variable (parseImageRef : String → ImageRef)

/-- Without whitespace at both ends. -/
def trimmed (s : String) : String := String.ofList (Kvp.trim s.toList)

/-- The version of the product and what is joined to it with a dash: the tag or the hash of a
custom image, or the Stackable version. -/
def versions (self : ProductImage) (operatorVersion : String) : String × String :=
  match self.imageSelection with
  | .custom image =>
    let imageRef := parseImageRef image.custom
    (image.productVersion, (imageRef.tag.or imageRef.hash).getD "latest")
  | .auto image =>
    let stackableVersion :=
      match image.stackableVersion with
      | some stackableVersion => stackableVersion
      | none => if operatorVersion.startsWith "0.0.0-pr" then "0.0.0-dev" else operatorVersion
    (image.productVersion, "stackable" ++ stackableVersion)

def appVersion (self : ProductImage) (operatorVersion : String) : String :=
  (self.versions parseImageRef operatorVersion).1 ++ "-" ++
    (self.versions parseImageRef operatorVersion).2

/-- The image itself. -/
def image (self : ProductImage) (imageName imageRepository operatorVersion : String) : String :=
  match self.imageSelection with
  | .custom image => image.custom
  | .auto image =>
    let imageRepository := trimEndMatches '/' (trimmed (image.repo.getD imageRepository))
    let imageName := trimStartMatches '/' (trimmed imageName)
    imageRepository ++ "/" ++ imageName ++ ":" ++ self.appVersion parseImageRef operatorVersion

/-- Resolve the product image to be used for containers. -/
def resolve (self : ProductImage) (imageName imageRepository operatorVersion : String) :
    Option (Except Error ResolvedProductImage) :=
  (prepareAppVersionLabelValue (self.appVersion parseImageRef operatorVersion)).map fun
    | .error e => .error e
    | .ok appVersionLabelValue => .ok {
        productVersion := (self.versions parseImageRef operatorVersion).1
        appVersionLabelValue := appVersionLabelValue
        image := self.image parseImageRef imageName imageRepository operatorVersion
        imagePullPolicy := self.pullPolicy.asRef
        pullSecrets := self.pullSecrets }

/-- The versions consist of characters of label values or colons, and the product version starts
with an alphanumeric one. -/
def IsClean (self : ProductImage) (operatorVersion : String) : Prop :=
  (self.versions parseImageRef operatorVersion).1.toList.head?.any Char.isAlphanum = true ∧
    ∀ c ∈ (self.versions parseImageRef operatorVersion).1.toList ++
      (self.versions parseImageRef operatorVersion).2.toList, Kvp.isNameChar c = true ∨ c = ':'

/-- The image is resolved with a valid label value of at most 63 characters. -/
def ResolvesWithLabel (self : ProductImage) (imageName imageRepository operatorVersion : String) :
    Prop :=
  ∃ resolved, self.resolve parseImageRef imageName imageRepository operatorVersion =
      some (.ok resolved) ∧
    resolved.appVersionLabelValue.1.length ≤ 63 ∧
    Kvp.matchesName resolved.appVersionLabelValue.1.toList = true

end Resolve

/-! ### Label values of versions -/

section Label

theorem truncate_eq_none_iff {cs : List Char} {n : ℕ} :
    truncate cs n = none ↔ ¬(utf8Size cs ≤ n ∨ isCharBoundary cs n = true) := by
  rw [truncate, isCharBoundary]
  split_ifs with h
  · simp [h]
  · simp [h]

theorem isAlphanum_replaceColon {c : Char} :
    (if c = ':' then '-' else c).isAlphanum = true ↔ c.isAlphanum = true := by
  split_ifs with h
  · subst h
    decide
  · rfl

/-- What becomes a label value is decided by the first and the last character. -/
theorem matchesName_replaceColons_iff {c : Char} {cs : List Char} (hc : c.isAlphanum = true)
    (h : ∀ d ∈ c :: cs, Kvp.isNameChar d = true ∨ d = ':') :
    Kvp.matchesName (replaceColons (c :: cs)) = true ↔
      (c :: cs).getLast?.any Char.isAlphanum = true := by
  have hinner : ∀ d ∈ replaceColons cs, Kvp.isNameChar d = true := by
    intro d hd
    obtain ⟨e, he, rfl⟩ := List.mem_map.mp hd
    split_ifs with hcolon
    · decide
    · exact (h e (List.mem_cons_of_mem c he)).resolve_right hcolon
  rw [replaceColons, List.map_cons, Kvp.matchesName, isSegment_cons_iff, isAlphanum_replaceColon,
    and_iff_right hc]
  rw [replaceColons] at hinner
  obtain rfl | ⟨front, z, rfl⟩ := List.eq_nil_or_concat' cs
  · simp [hc]
  · rw [getLast?_cons_concat, Option.any_some, ← isAlphanum_replaceColon, List.map_append,
      List.map_singleton]
    rw [List.map_append, List.forall_mem_append] at hinner
    constructor
    · rintro (hnil | ⟨front', z', heq, -, hz⟩)
      · exact absurd hnil (by simp)
      · obtain ⟨-, rfl⟩ := List.append_singleton_inj.mp heq
        exact hz
    · intro hz
      exact .inr ⟨_, _, rfl, hinner.1, hz⟩

theorem toNat_lt_of_isNameChar_or {c : Char} (h : Kvp.isNameChar c = true ∨ c = ':') :
    c.toNat < 128 := by
  obtain h | rfl := h
  · exact Kvp.toNat_lt_of_isNameChar h
  · decide

/-- **The label value of a clean version** is its beginning, if that ends in an alphanumeric
character. -/
theorem prepareAppVersionLabelValue_eq_ok_iff {appVersion : String}
    (hfirst : appVersion.toList.head?.any Char.isAlphanum = true)
    (h : ∀ c ∈ appVersion.toList, Kvp.isNameChar c = true ∨ c = ':') :
    (∃ value, prepareAppVersionLabelValue appVersion = some (.ok value)) ↔
      (appVersion.toList.take 63).getLast?.any Char.isAlphanum = true := by
  -- a clean version is ASCII, so characters and bytes are cut off alike
  have hascii : ∀ c ∈ appVersion.toList, c.toNat < 128 := fun c hc =>
    toNat_lt_of_isNameChar_or (h c hc)
  have htruncate : truncate appVersion.toList Kvp.labelValueMaxLen =
      some (appVersion.toList.take 63) := by
    by_cases hlength : 63 ≤ appVersion.toList.length
    · exact truncate_eq_take hascii hlength
    · have hle : appVersion.toList.length ≤ 63 := Nat.le_of_not_le hlength
      rw [truncate, utf8Size_eq_length hascii, Kvp.labelValueMaxLen, if_pos hle,
        List.take_of_length_le hle]
  have hclean : ∀ c ∈ appVersion.toList.take 63, Kvp.isNameChar c = true ∨ c = ':' := fun c hc =>
    h c (List.mem_of_mem_take hc)
  -- its beginning is not empty
  obtain ⟨c, cs, hcs, hc⟩ : ∃ c cs, appVersion.toList.take 63 = c :: cs ∧
      c.isAlphanum = true := by
    cases hlist : appVersion.toList with
    | nil => simp [hlist] at hfirst
    | cons c cs => exact ⟨c, cs.take 62, rfl, by simpa [hlist] using hfirst⟩
  have hlength : (c :: cs).length ≤ Kvp.labelValueMaxLen :=
    hcs ▸ List.length_take_le 63 appVersion.toList
  rw [hcs] at htruncate hclean ⊢
  rw [← matchesName_replaceColons_iff hc hclean, prepareAppVersionLabelValue, htruncate,
    Option.map_some]
  have hreplaced : ∀ d ∈ replaceColons (c :: cs), d.toNat < 128 := by
    intro d hd
    obtain ⟨e, he, rfl⟩ := List.mem_map.mp hd
    split_ifs
    · decide
    · exact toNat_lt_of_isNameChar_or (hclean e he)
  -- only the last character can violate the format of a label value
  have hcheck : Kvp.LabelValue.check (String.ofList (replaceColons (c :: cs))) = .ok () ↔
      Kvp.matchesName (replaceColons (c :: cs)) = true := by
    rw [Kvp.LabelValue.check_eq_ok_iff, String.toList_ofList, utf8ByteSize_ofList,
      utf8Size_eq_length hreplaced, Kvp.isAscii, String.toList_ofList, List.all_eq_true,
      replaceColons, List.length_map, and_iff_right hlength, and_iff_right]
    exact fun d hd => decide_eq_true (hreplaced d hd)
  rw [← hcheck]
  dsimp only
  constructor
  · rintro ⟨value, hvalue⟩
    by_contra hinvalid
    cases hfrom : Kvp.LabelValue.fromStr (String.ofList (replaceColons (c :: cs))) with
    | ok v => exact hinvalid (exists_checked_iff.mp ⟨v, hfrom⟩)
    | error e =>
      rw [hfrom] at hvalue
      cases hvalue
  · intro hok
    rw [Kvp.LabelValue.fromStr, checked_of_eq_ok hok]
    exact ⟨_, rfl⟩

end Label

section Resolve

variable {parseImageRef : String → ImageRef} {self : ProductImage}
  {imageName imageRepository operatorVersion : String}

theorem toList_appVersion : (self.appVersion parseImageRef operatorVersion).toList =
    (self.versions parseImageRef operatorVersion).1.toList ++
      '-' :: (self.versions parseImageRef operatorVersion).2.toList := by
  simp [appVersion]

theorem resolve_eq_none_iff :
    self.resolve parseImageRef imageName imageRepository operatorVersion = none ↔
      ¬((self.appVersion parseImageRef operatorVersion).utf8ByteSize ≤ 63 ∨
        isCharBoundary (self.appVersion parseImageRef operatorVersion).toList 63 = true) := by
  rw [resolve, Option.map_eq_none_iff, prepareAppVersionLabelValue, Option.map_eq_none_iff,
    truncate_eq_none_iff, utf8ByteSize_eq_utf8Size]
  rfl

/-- Label values are valid. -/
theorem resolvesWithLabel_iff :
    self.ResolvesWithLabel parseImageRef imageName imageRepository operatorVersion ↔
      ∃ value, prepareAppVersionLabelValue (self.appVersion parseImageRef operatorVersion) =
        some (.ok value) := by
  constructor
  · rintro ⟨resolved, hresolved, -, -⟩
    obtain ⟨result, hresult, heq⟩ := Option.map_eq_some_iff.mp hresolved
    match result with
    | .ok value => exact ⟨value, hresult⟩
    | .error e => cases heq
  · rintro ⟨value, hvalue⟩
    refine ⟨_, by rw [resolve, hvalue, Option.map_some], ?_⟩
    obtain ⟨hlength, hascii, hmatch⟩ := Kvp.LabelValue.check_eq_ok_iff.mp value.2
    rw [Kvp.isAscii, List.all_eq_true] at hascii
    refine ⟨?_, hmatch⟩
    rwa [utf8ByteSize_eq_length fun c hc => of_decide_eq_true (hascii c hc)] at hlength

/-- **Product images are resolved without a panic, and clean versions get a label value**, iff byte
63 of the app version is not inside of a character, and what is left of a clean app version ends in
an alphanumeric character. -/
theorem resolve_iff (parseImageRef : String → ImageRef) (self : ProductImage)
    (imageName imageRepository operatorVersion : String) :
    (self.resolve parseImageRef imageName imageRepository operatorVersion ≠ none ∧
        (self.IsClean parseImageRef operatorVersion →
          self.ResolvesWithLabel parseImageRef imageName imageRepository operatorVersion)) ↔
      ((self.appVersion parseImageRef operatorVersion).utf8ByteSize ≤ 63 ∨
          isCharBoundary (self.appVersion parseImageRef operatorVersion).toList 63 = true) ∧
        (self.IsClean parseImageRef operatorVersion →
          ((self.appVersion parseImageRef operatorVersion).toList.take 63).getLast?.any
            Char.isAlphanum = true) := by
  refine and_congr (by rw [Ne, resolve_eq_none_iff, not_not]) (forall_congr' fun hclean => ?_)
  obtain ⟨hfirst, hall⟩ := hclean
  rw [resolvesWithLabel_iff]
  refine prepareAppVersionLabelValue_eq_ok_iff ?_ fun c hc => ?_
  · rw [toList_appVersion]
    match (self.versions parseImageRef operatorVersion).1.toList, hfirst with
    | c :: cs, hfirst => exact hfirst
  · rw [toList_appVersion] at hc
    obtain hc | hc := List.mem_append.mp hc
    · exact hall c (List.mem_append_left _ hc)
    · obtain rfl | hc := List.mem_cons.mp hc
      · exact .inl (by decide)
      · exact hall c (List.mem_append_right _ hc)

/-- A custom image with a tag, and a product version of this many equal characters. -/
def repeated (c : Char) (n : ℕ) : ProductImage where
  imageSelection := .custom {
    custom := "registry/app:1"
    productVersion := String.ofList (List.replicate n c) }
  pullSecrets := none

/-- A version of 32 umlauts is cut inside of one. -/
theorem resolve_umlauts : ¬ ∀ (self : ProductImage) (operatorVersion : String),
    self.resolve (fun _ => ⟨some "1", none⟩) "app" "registry" operatorVersion ≠ none ∧
      (self.IsClean (fun _ => ⟨some "1", none⟩) operatorVersion →
        self.ResolvesWithLabel (fun _ => ⟨some "1", none⟩) "app" "registry" operatorVersion) := by
  intro h
  refine (h (repeated 'ä' 32) "").1 (resolve_eq_none_iff.mpr ?_)
  decide +kernel

/-- Of a version of 62 letters and a tag, the letters and the dash are left. -/
example :
    ¬ (repeated 'a' 62).ResolvesWithLabel (fun _ => ⟨some "1", none⟩) "app" "registry" "" := by
  rw [resolvesWithLabel_iff, prepareAppVersionLabelValue_eq_ok_iff (by decide +kernel)]
  · decide +kernel
  · intro c hc
    simp [repeated, appVersion, versions] at hc
    obtain rfl | rfl | rfl := hc <;> exact .inl (by decide)

end Resolve

end ProductImage

end ProductImageSelection

end StackableOperator
