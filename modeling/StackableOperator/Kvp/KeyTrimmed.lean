import Mathlib
import StackableOperator.Kvp.KeyFromStr
import StackableOperator.Utils.LengthEnforcement

/-!
# Keys with shortened names

`Key.newTrimmed` shortens a name before it parses the key. A shortened name is a name
(`exists_newTrimmed`), as it begins like the name did and ends with a hexadecimal digit.
-/

namespace StackableOperator

namespace Kvp

/-- Shorten the name and parse the key, or panic (`none`). -/
def Key.newTrimmed (hexDigest : String → String) (keyPrefix : Option String) (name : String) :
    Option (Except KeyError Key) := do
  let name ← ensureMaxStringLength hexDigest name keyNameMaxLen 8
  let key :=
    match keyPrefix with
    | some keyPrefix => keyPrefix ++ "/" ++ name
    | none => name
  return Key.fromStr key

variable {hexDigest : String → String}

theorem isAlphanum_of_isLowerHexDigit (c : Char) (h : isLowerHexDigit c = true) :
    c.isAlphanum = true :=
  Validation.isAlphanum_of_isLowerAlphanum c (isLowerAlphanum_of_isLowerHexDigit c h)

/-- A shortened name is a name. -/
theorem exists_check_ensureMaxStringLength (hdigest : IsHexDigest hexDigest) {name : String}
    (hname : matchesName name.toList = true) :
    ∃ result, ensureMaxStringLength hexDigest name keyNameMaxLen 8 = some result ∧
      KeyName.check result = .ok () := by
  have halphanum : ∀ c, Char.isAlphanum c = true → isNameChar c = true := by
    intro c hc
    rw [isNameChar, hc]
    rfl
  obtain ⟨result, hresult, hsize, hsegment⟩ :=
    exists_isSegment_ensureMaxStringLength hdigest (by decide : 8 ≤ 64)
      (by decide : 1 + 1 + 8 ≤ keyNameMaxLen) (by decide) halphanum halphanum
      (fun _ => toNat_lt_of_isNameChar) rfl rfl isAlphanum_of_isLowerHexDigit hname
  refine ⟨result, hresult, KeyName.check_eq_ok_iff.mpr ⟨hsegment, ?_⟩⟩
  have hchars := isNameChar_of_matchesName hsegment
  rw [utf8ByteSize_eq_length fun c hc => toNat_lt_of_isNameChar (hchars c hc)] at hsize
  rw [String.length_toList]
  exact hsize

/-- A key with a shortened name has the same prefix. -/
theorem exists_newTrimmed (hdigest : IsHexDigest hexDigest) (keyPrefix : Option KeyPrefix)
    {name : String} (hname : matchesName name.toList = true) :
    ∃ key, Key.newTrimmed hexDigest (keyPrefix.map Subtype.val) name = some (.ok key) ∧
      key.keyPrefix = keyPrefix := by
  obtain ⟨result, hresult, hcheck⟩ := exists_check_ensureMaxStringLength hdigest hname
  refine ⟨Key.ofParts keyPrefix ⟨result, hcheck⟩, ?_, rfl⟩
  have hkey := fromStr_ofParts keyPrefix ⟨result, hcheck⟩
  rw [Key.newTrimmed, hresult, Option.bind_eq_bind, Option.bind_some]
  match keyPrefix with
  | none => exact congrArg some hkey
  | some keyPrefix => exact congrArg some hkey

/-- **Length enforcement**, and keys with names of any length: for all parameters that do not
panic, a text is shortened and shortening it again changes nothing, and every name with valid
characters and edges becomes the name of a key with the same prefix. -/
theorem isShortened_newTrimmed (hdigest : IsHexDigest hexDigest) :
    (∀ (original : String) (maxLengthBytes hashLength : ℕ), hashLength ≤ 64 →
      1 + 1 + hashLength ≤ maxLengthBytes →
        ∃ result, ensureMaxStringLength hexDigest original maxLengthBytes hashLength =
            some result ∧
          IsShortened hexDigest maxLengthBytes hashLength original result ∧
          ensureMaxStringLength hexDigest result maxLengthBytes hashLength = some result) ∧
      ∀ (keyPrefix : Option KeyPrefix) (name : String), name.toList ∈ keyNameRegex.matches' →
        ∃ key, Key.newTrimmed hexDigest (keyPrefix.map Subtype.val) name = some (.ok key) ∧
          key.keyPrefix = keyPrefix := by
  refine ⟨fun original maxLengthBytes hashLength hhash hmax => ?_, fun keyPrefix name hname => ?_⟩
  · obtain ⟨result, hresult, hshortened⟩ :=
      isShortened_ensureMaxStringLength hdigest hhash hmax original
    exact ⟨result, hresult, hshortened, ensureMaxStringLength_of_le hhash hmax hshortened.size⟩
  · exact exists_newTrimmed hdigest keyPrefix (mem_keyNameRegex_iff.mp hname)

/-- A name that is one character too long. -/
def longName : String := String.ofList (List.replicate 64 'a')

/-- The SHA-256 digest of `longName`. -/
def longNameDigest : String := "ffe054fe7ae0cb6dc65c3af9b61d5209f439851db43d0ba5997337df154668eb"

theorem isHexDigest_longNameDigest : IsHexDigest fun _ => longNameDigest :=
  isHexDigest_const rfl rfl

def stackablePrefix : KeyPrefix := ⟨"stackable.tech", by decide⟩

/-- The hash replaces the end of a long name. -/
theorem isShortened_longName :
    (∃ result, ensureMaxStringLength (fun _ => longNameDigest) longName 63 8 = some result ∧
      ∃ cut, cut <+: longName.toList ∧ result.toList = cut ++ "-ffe054fe".toList) ∧
    ∃ key, Key.newTrimmed (fun _ => longNameDigest) (some "stackable.tech") longName =
      some (.ok key) ∧ key.keyPrefix = some stackablePrefix := by
  obtain ⟨hshortened, htrimmed⟩ := isShortened_newTrimmed isHexDigest_longNameDigest
  obtain ⟨result, hresult, hresultShortened, -⟩ := hshortened longName 63 8 (by decide) (by decide)
  refine ⟨⟨result, hresult, ?_⟩, htrimmed (some stackablePrefix) longName ?_⟩
  · exact hresultShortened.exists_isPrefix (by decide +kernel) (by decide) (by decide +kernel)
  · exact mem_keyNameRegex_iff.mpr (by decide +kernel)

/-- Three characters of four bytes each leave only the hash. -/
theorem ensureMaxStringLength_rockets :
    ensureMaxStringLength
        (fun _ => "d24d1e12b3a066c162e0b35444a112f40052fef1165c932d80c324a0ec364082")
        "🚀🚀🚀" 6 4 = some "d24d" ∧
      ¬ ∃ cut, cut <+: "🚀🚀🚀".toList ∧
        "d24d".toList = cut ++ '-' :: "d24d".toList := by
  refine ⟨by decide +kernel, ?_⟩
  rintro ⟨cut, -, hcut⟩
  have hmem : '-' ∈ "d24d".toList := hcut ▸ List.mem_append_right cut List.mem_cons_self
  exact absurd hmem (by decide)

end Kvp

end StackableOperator
