import Mathlib
import StackableOperator.Commons.IpAddrFromStr
import StackableOperator.RustStd.CharBoundary
import StackableOperator.Validation.Grammar

/-!
# Reading host names

`HostName.fromStr` tries an IP address first and a domain name then. Four decimal numbers are both,
so that a domain name of this form does not come back (`fromStr_display_eq_self_iff`).
-/

namespace StackableOperator

open Validation

inductive HostNameParseError : Type
  | invalidHostname (hostname : String)
  deriving DecidableEq

def HostName.fromStr (value : String) : Except HostNameParseError HostName :=
  match IpAddr.fromStr value with
  | some ip => .ok (.ipAddress ip)
  | none =>
    match DomainName.fromStr value with
    | .ok name => .ok (.domainName name)
    | .error _ => .error (.invalidHostname value)

/-- Four decimal numbers with dots between them. -/
def IsIpv4Text (value : String) : Prop := ∃ ip : Ipv4Addr, value = ip.display

theorem isSegment_of_forall {first inner last : Char → Bool} {s : List Char} (hne : s ≠ [])
    (h : ∀ c ∈ s, first c = true ∧ inner c = true ∧ last c = true) :
    isSegment first inner last s = true := by
  obtain ⟨c, cs, rfl⟩ := List.exists_cons_of_ne_nil hne
  refine isSegment_cons_iff.mpr ⟨(h c List.mem_cons_self).1, ?_⟩
  rcases List.eq_nil_or_concat' cs with rfl | ⟨front, z, rfl⟩
  · exact .inl rfl
  · refine .inr ⟨front, z, rfl, fun x hx => (h x ?_).2.1, (h z (by simp)).2.2⟩
    exact List.mem_cons_of_mem c (List.mem_append_left _ hx)

/-- Decimal numbers are labels. -/
theorem matchesRfc1123Label_toDigits (n : ℕ) :
    matchesRfc1123Label (Nat.toDigits 10 n) = true := by
  refine isSegment_of_forall Nat.toDigits_ne_nil fun c hc => ?_
  have hdigit : c.isDigit = true := Nat.isDigit_of_mem_toDigits (by decide) (by decide) hc
  have halphanum : c.isAlphanum = true := by rw [Char.isAlphanum, hdigit, Bool.or_true]
  exact ⟨halphanum, isAlphanumOrDash_of_isAlphanum c halphanum, halphanum⟩

/-- The length of numbers with a separator before all but the first. -/
theorem length_numbersText_le {sep : Char} {index : ℕ} {ns : List ℕ} (h : ∀ n ∈ ns, n < 256) :
    (numbersText sep 10 index ns).length ≤ 4 * ns.length := by
  induction ns generalizing index with
  | nil => exact Nat.le_refl 0
  | cons n ns ih =>
    obtain ⟨hn, hns⟩ := List.forall_mem_cons.mp h
    have hdigits : (Nat.toDigits 10 n).length ≤ 3 :=
      (Nat.length_toDigits_le_iff (by decide) (by decide)).mpr (by omega)
    have htail : (numbersText sep 10 (index + 1) ns).length ≤ 4 * ns.length := ih hns
    rw [numbersText, List.length_append, List.length_append, List.length_cons]
    split_ifs <;> simp only [List.length_cons, List.length_nil] <;> omega

theorem utf8Size_le_length (cs : List Char) : utf8Size cs ≤ 4 * cs.length := by
  induction cs with
  | nil => exact Nat.le_refl 0
  | cons c cs ih =>
    have hc := c.utf8Size_le_four
    rw [utf8Size_cons, List.length_cons]
    omega

/-- **The text of an IPv4 address is a domain.** -/
theorem isDomain_of_isIpv4Text {value : String} (h : IsIpv4Text value) :
    isDomain value = .ok () := by
  obtain ⟨ip, rfl⟩ := h
  have htext : (Ipv4Addr.display ip).toList =
      ['.'].intercalate ((ip.octets.map UInt8.toNat).map (Nat.toDigits 10)) := by
    rw [Ipv4Addr.display, String.toList_ofList, displayOctets_eq_numbersText,
      numbersText_eq_intercalate]
  have hlabels : ∀ piece ∈ (ip.octets.map UInt8.toNat).map (Nat.toDigits 10),
      matchesRfc1123Label piece = true := by
    intro piece hpiece
    obtain ⟨n, -, rfl⟩ := List.mem_map.mp hpiece
    exact matchesRfc1123Label_toDigits n
  have hne : (ip.octets.map UInt8.toNat).map (Nat.toDigits 10) ≠ [] := by
    refine List.ne_nil_of_length_pos ?_
    rw [List.length_map, List.length_map, ip.length_eq]
    decide
  have hsplit := List.splitOn_intercalate '.'
    (fun piece hpiece => dot_notMem_of_matchesRfc1123Label (hlabels piece hpiece)) hne
  refine isDomain_eq_ok_iff.mpr ⟨?_, matchesDomain_iff.mpr ⟨_, ?_, .inl rfl⟩⟩
  · have hlength : (Ipv4Addr.display ip).toList.length ≤ 16 := by
      rw [Ipv4Addr.display, String.toList_ofList, displayOctets_eq_numbersText]
      refine (length_numbersText_le fun n hn => ?_).trans ?_
      · obtain ⟨octet, -, rfl⟩ := List.mem_map.mp hn
        exact octet.toNat_lt
      · rw [List.length_map, ip.length_eq]
    have hsize := utf8Size_le_length (Ipv4Addr.display ip).toList
    rw [utf8ByteSize_eq_utf8Size]
    have hmax : domainMaxLength = 253 := rfl
    omega
  · rw [htext, hsplit]
    exact List.all_eq_true.mpr hlabels

/-- A domain has no colon. -/
theorem colon_notMem_of_isDomain {value : String} (h : isDomain value = .ok ()) :
    ':' ∉ value.toList := by
  intro hcolon
  obtain ⟨u, hall, htext⟩ := matchesDomain_iff.mp (isDomain_eq_ok_iff.mp h).2
  have hu : ':' ∈ u := by
    rcases htext with htext | htext
    · exact htext ▸ hcolon
    · rw [htext] at hcolon
      simpa using hcolon
  rcases eq_or_exists_mem_splitOn (a := '.') hu with hdot | ⟨piece, hpiece, hmem⟩
  · exact absurd hdot (by decide)
  · have hinner := all_of_isSegment isAlphanumOrDash_of_isAlphanum isAlphanumOrDash_of_isAlphanum
      (List.all_eq_true.mp hall piece hpiece) ':' hmem
    exact absurd hinner (by decide)

/-- A domain is an IP address exactly if it is four decimal numbers. -/
theorem isSome_fromStr_iff {value : String} (h : isDomain value = .ok ()) :
    (IpAddr.fromStr value).isSome = true ↔ IsIpv4Text value := by
  constructor
  · intro hsome
    obtain ⟨ip, hip⟩ := Option.isSome_iff_exists.mp hsome
    rcases IpAddr.of_fromStr hip with ⟨ip', -, htext⟩ | hcolon
    · exact ⟨ip', htext⟩
    · exact absurd hcolon (colon_notMem_of_isDomain h)
  · rintro ⟨ip, rfl⟩
    have hread : IpAddr.fromStr ip.display = some (.v4 ip) := IpAddr.fromStr_display (.v4 ip)
    rw [hread]
    rfl

/-- **A host name comes back iff it is an IP address or not the text of one.** -/
theorem HostName.fromStr_display_eq_self_iff (value : String) (host : HostName) :
    (¬ ((IpAddr.fromStr value).isSome = true ∧ ∃ name, DomainName.fromStr value = .ok name) ↔
        ¬ IsIpv4Text value) ∧
      (fromStr host.display = .ok host ↔
        ∀ name, host = .domainName name → ¬ IsIpv4Text name.1) := by
  have hdomain : (∃ name, DomainName.fromStr value = .ok name) ↔ isDomain value = .ok () :=
    exists_checked_iff
  constructor
  · rw [hdomain]
    refine not_congr ⟨fun ⟨hip, h⟩ => (isSome_fromStr_iff h).mp hip, fun h => ?_⟩
    have hvalue := isDomain_of_isIpv4Text h
    exact ⟨(isSome_fromStr_iff hvalue).mpr h, hvalue⟩
  · cases host with
    | ipAddress ip =>
      refine iff_of_true ?_ fun name hname => by cases hname
      have hread := IpAddr.fromStr_display ip
      simp only [fromStr, display, hread]
    | domainName name =>
      have hiff := isSome_fromStr_iff name.2
      cases hip : IpAddr.fromStr name.1 with
      | some ip =>
        have htext := hiff.mp (by rw [hip]; rfl)
        refine iff_of_false ?_ fun h => h name rfl htext
        simp [fromStr, display, hip]
      | none =>
        have htext : ¬ IsIpv4Text name.1 := fun h => by
          have hsome := hiff.mpr h
          rw [hip] at hsome
          cases hsome
        refine iff_of_true ?_ fun name' hname => (HostName.domainName.inj hname) ▸ htext
        simp only [fromStr, display, hip, DomainName.fromStr, checked_of_eq_ok name.2]

/-- A `DomainName` with the text of an IPv4 address. -/
def ipv4DomainName : DomainName := ⟨"192.0.2.1", by decide +kernel⟩

/-- It is read as an IP address. -/
theorem HostName.fromStr_display_ipv4DomainName :
    ¬ ((∀ value : String, ¬ ((IpAddr.fromStr value).isSome = true ∧
        ∃ name, DomainName.fromStr value = .ok name)) ∧
      ∀ host : HostName, fromStr host.display = .ok host) := by
  rintro ⟨-, h⟩
  have hread : fromStr (display (.domainName ipv4DomainName)) =
      .ok (.ipAddress (.v4 ⟨[192, 0, 2, 1], rfl⟩)) := by decide +kernel
  rw [h (.domainName ipv4DomainName)] at hread
  cases hread

end StackableOperator
