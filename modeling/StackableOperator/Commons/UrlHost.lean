import Mathlib
import StackableOperator.Commons.HostNameFromStr
import StackableOperator.Commons.Url

/-!
# Hosts and ports of URLs

`HasHostAndPort` reads a URL with the grammar of URIs. A URL with the text of a host without
brackets has the host and the port iff the host is not an IPv6 address
(`hasHostAndPort_displayAuthority_iff`).
-/

namespace StackableOperator

open Validation

/-! ### Texts of hosts -/

/-- The host is an IPv6 address. -/
def HostName.IsIpv6 (self : HostName) : Prop := ∃ ip, self = .ipAddress (.v6 ip)

theorem isUriNameChar_of_isHostNameChar {c : Char} (h : isHostNameChar c = true) :
    isUriNameChar c = true := by
  simp only [isHostNameChar, Bool.or_eq_true, beq_iff_eq] at h
  obtain (h | rfl) | rfl := h
  · rw [isUriNameChar, h, Bool.true_or]
  · rfl
  · rfl

theorem isUriNameChar_of_isHexDigit {c : Char} (h : isHexDigit c = true) :
    isUriNameChar c = true := by
  simp only [isHexDigit, Bool.or_eq_true, Bool.and_eq_true, decide_eq_true_eq] at h
  have halphanum : c.isAlphanum = true := by
    obtain (hdigit | hlower) | hupper := h
    · rw [Char.isAlphanum, hdigit, Bool.or_true]
    · have hc : c.isLower = true := by
        simp only [Char.isLower, Bool.and_eq_true, decide_eq_true_eq]
        exact ⟨hlower.1, UInt32.le_trans hlower.2 (by decide)⟩
      rw [Char.isAlphanum, Char.isAlpha, hc, Bool.or_true, Bool.true_or]
    · have hc : c.isUpper = true := by
        simp only [Char.isUpper, decide_eq_true_eq]
        exact ⟨hupper.1, UInt32.le_trans hupper.2 (by decide)⟩
      rw [Char.isAlphanum, Char.isAlpha, hc, Bool.true_or, Bool.true_or]
  rw [isUriNameChar, halphanum, Bool.true_or]

/-- The characters of a domain name. -/
theorem all_isHostNameChar_of_isDomain {value : String} (h : isDomain value = .ok ()) :
    value ≠ "" ∧ value.toList.all isHostNameChar = true := by
  obtain ⟨u, hall, htext⟩ := matchesDomain_iff.mp (isDomain_eq_ok_iff.mp h).2
  have hchar : ∀ c ∈ u, isHostNameChar c = true := by
    intro c hc
    obtain rfl | ⟨piece, hpiece, hmem⟩ := eq_or_exists_mem_splitOn (a := '.') hc
    · rfl
    · have hinner := all_of_isSegment isAlphanumOrDash_of_isAlphanum
        isAlphanumOrDash_of_isAlphanum (List.all_eq_true.mp hall piece hpiece) c hmem
      simp only [isAlphanumOrDash, Bool.or_eq_true, beq_iff_eq] at hinner
      obtain rfl | hinner := hinner
      · rfl
      · rw [isHostNameChar, hinner, Bool.true_or, Bool.true_or]
  have hne : u ≠ [] := by
    rintro rfl
    cases hall
  obtain htext | htext := htext
  · refine ⟨?_, htext ▸ List.all_eq_true.mpr hchar⟩
    rintro rfl
    exact hne htext.symm
  · refine ⟨?_, ?_⟩
    · rintro rfl
      simp at htext
    · rw [htext, List.all_append, Bool.and_eq_true_iff]
      exact ⟨List.all_eq_true.mpr hchar, rfl⟩

theorem isHexDigit_of_isSome_toDigit {c : Char} (h : (toDigit 16 c).isSome) :
    isHexDigit c = true := by
  have hsome : ∃ d, hexDigit c = some d := by
    obtain ⟨d, hd⟩ := Option.isSome_iff_exists.mp h
    exact ⟨d, (Option.filter_eq_some_iff.mp hd).1⟩
  obtain ⟨d, hd⟩ := hsome
  rw [isHexDigit, Bool.or_eq_true, Bool.or_eq_true, Bool.and_eq_true, Bool.and_eq_true,
    decide_eq_true_iff, decide_eq_true_iff, decide_eq_true_iff, decide_eq_true_iff]
  unfold hexDigit at hd
  split_ifs at hd with hdigit hlower hupper
  · refine Or.inl (Or.inl ?_)
    rw [Char.isDigit, Bool.and_eq_true, decide_eq_true_iff, decide_eq_true_iff]
    exact hdigit
  · exact Or.inl (Or.inr hlower)
  · exact Or.inr hupper

/-- The characters of an IPv4 address. -/
theorem mem_displayOctets {octets : List UInt8} {c : Char} (h : c ∈ displayOctets octets) :
    c.isDigit = true ∨ c = '.' := by
  obtain hdot | ⟨piece, hpiece, hmem⟩ := mem_intercalate h
  · exact .inr (List.mem_singleton.mp hdot)
  · obtain ⟨octet, -, rfl⟩ := List.mem_map.mp hpiece
    rw [Nat.toString_eq_repr, Nat.toList_repr] at hmem
    exact .inl (Nat.isDigit_of_mem_toDigits (by decide) (by decide) hmem)

theorem all_isIpAddrChar_displayOctets (octets : List UInt8) :
    (displayOctets octets).all isIpAddrChar = true := by
  refine List.all_eq_true.mpr fun c hc => ?_
  obtain hdigit | rfl := mem_displayOctets hc
  · rw [isIpAddrChar, isHexDigit, hdigit, Bool.true_or, Bool.true_or, Bool.true_or, Bool.true_or]
  · rfl

theorem all_isIpAddrChar_fmtSubslice (chunk : List UInt16) :
    (Ipv6Addr.fmtSubslice chunk).all isIpAddrChar = true := by
  refine List.all_eq_true.mpr fun c hc => ?_
  obtain hcolon | ⟨piece, hpiece, hmem⟩ := mem_intercalate hc
  · rw [List.mem_singleton.mp hcolon]
    rfl
  · obtain ⟨segment, -, rfl⟩ := List.mem_map.mp hpiece
    have hdigit := (toDigits_spec (by decide) (by decide) segment.toNat).1 c hmem
    rw [isIpAddrChar, isHexDigit_of_isSome_toDigit hdigit, Bool.true_or, Bool.true_or]

/-- The characters of an IPv6 address, a colon among them. -/
theorem displayChars_spec (ip : Ipv6Addr) :
    ip.displayChars.all isIpAddrChar = true ∧ ':' ∈ ip.displayChars := by
  refine ⟨?_, Ipv6Addr.colon_mem_of_readIpv6Addr ip.readIpv6Addr_displayChars⟩
  unfold Ipv6Addr.displayChars
  split
  · rw [List.all_append, all_isIpAddrChar_displayOctets]
    decide
  · dsimp only
    split_ifs
    · rw [List.all_append, List.all_append, all_isIpAddrChar_fmtSubslice,
        all_isIpAddrChar_fmtSubslice]
      decide
    · exact all_isIpAddrChar_fmtSubslice _

theorem isUriHost_of_all {cs : List Char} (h : cs.all isHostNameChar = true) :
    isUriHost cs = true := by
  have hname : isUriComponent isUriNameChar cs = true := by
    refine isUriComponent_of_all (fun c hc => ?_) fun hpercent => ?_
    · exact isUriNameChar_of_isHostNameChar (List.all_eq_true.mp h c hc)
    · exact absurd (List.all_eq_true.mp h '%' hpercent) (by decide)
  rw [isUriHost.eq_2]
  · exact hname
  · rintro ds rfl
    exact absurd (List.all_eq_true.mp h '[' List.mem_cons_self) (by decide)

theorem all_isHostNameChar_displayOctets (octets : List UInt8) :
    (displayOctets octets).all isHostNameChar = true := by
  refine List.all_eq_true.mpr fun c hc => ?_
  obtain hdigit | rfl := mem_displayOctets hc
  · rw [isHostNameChar, Char.isAlphanum, hdigit, Bool.or_true, Bool.true_or, Bool.true_or]
  · rfl

theorem displayOctets_ne_nil (ip : Ipv4Addr) : displayOctets ip.octets ≠ [] := by
  intro hnil
  have hread := IpAddr.fromStr_display (.v4 ip)
  have hempty : IpAddr.fromStr "" = none := by decide
  rw [IpAddr.display, Ipv4Addr.display, hnil, String.ofList_nil, hempty] at hread
  cases hread

namespace HostName

/-- The characters of a host that is not an IPv6 address. -/
theorem display_spec {host : HostName} (h : ¬ host.IsIpv6) :
    host.display ≠ "" ∧ host.display.toList.all isHostNameChar = true := by
  cases host with
  | domainName name => exact all_isHostNameChar_of_isDomain name.2
  | ipAddress ip =>
    cases ip with
    | v4 ip =>
      have htext : (display (.ipAddress (.v4 ip))).toList = displayOctets ip.octets :=
        String.toList_ofList
      refine ⟨fun hempty => displayOctets_ne_nil ip ?_, ?_⟩
      · rw [← htext, hempty]
        rfl
      · rw [htext]
        exact all_isHostNameChar_displayOctets ip.octets
    | v6 ip => exact absurd ⟨ip, rfl⟩ h

/-- The characters of an IPv6 address, a colon among them. -/
theorem IsIpv6.display_spec {host : HostName} (h : host.IsIpv6) :
    host.display.toList.all isIpAddrChar = true ∧ ':' ∈ host.display.toList := by
  obtain ⟨ip, rfl⟩ := h
  have htext : (display (.ipAddress (.v6 ip))).toList = ip.displayChars := String.toList_ofList
  rw [htext]
  exact displayChars_spec ip

/-! ### The host and the port of a URL -/

/-- The text of the host in a URL. Names are compared without regard to case. -/
def IsDenotedBy (self : HostName) (text : List Char) : Prop :=
  match self with
  | .domainName name => text.map Char.toLower = name.1.toList.map Char.toLower
  | .ipAddress (.v4 ip) => text = ip.display.toList
  | .ipAddress (.v6 ip) =>
    ∃ literal, text = '[' :: (literal ++ [']']) ∧
      IpAddr.fromStr (String.ofList literal) = some (.v6 ip)

theorem isDenotedBy_display {host : HostName} (h : ¬ host.IsIpv6) :
    host.IsDenotedBy host.display.toList := by
  cases host with
  | domainName name => exact rfl
  | ipAddress ip =>
    cases ip with
    | v4 ip => exact rfl
    | v6 ip => exact absurd ⟨ip, rfl⟩ h

end HostName

/-- The port of a URL that names none. -/
def defaultPort (scheme : List Char) : Option ℕ :=
  [("http", 80), ("https", 443), ("ldap", 389), ("ldaps", 636)].lookup (String.ofList scheme)

def UriAuthority.effectivePort (self : UriAuthority) (scheme : List Char) : Option ℕ :=
  match self.port with
  | some (d :: ds) => some (digitsValue 10 0 (d :: ds))
  | _ => defaultPort scheme

/-- The URL has the host and the port. -/
def HasHostAndPort (url : List Char) (host : HostName) (port : UInt16) : Prop :=
  ∃ scheme authority, readUri url = some (scheme, authority) ∧
    host.IsDenotedBy authority.host ∧ authority.effectivePort scheme = some port.toNat

theorem hasHostAndPort_iff {url scheme : List Char} {authority : UriAuthority} {host : HostName}
    {port : UInt16} (h : readUri url = some (scheme, authority)) :
    HasHostAndPort url host port ↔
      host.IsDenotedBy authority.host ∧ authority.effectivePort scheme = some port.toNat := by
  constructor
  · rintro ⟨scheme', authority', hread, hhost, hport⟩
    obtain ⟨rfl, rfl⟩ := Prod.mk.inj (Option.some.inj (h.symm.trans hread))
    exact ⟨hhost, hport⟩
  · rintro ⟨hhost, hport⟩
    exact ⟨scheme, authority, h, hhost, hport⟩

/-- The digits of a port. -/
def portDigits (port : UInt16) : List Char := Nat.toDigits 10 port.toNat

theorem toList_portText (port : Option UInt16) :
    (portText port).toList = (port.map portDigits).elim [] (':' :: ·) := by
  cases port with
  | none => rfl
  | some port =>
    rw [portText, Option.elim_some, String.toList_append, Nat.toString_eq_repr, Nat.toList_repr]
    rfl

theorem all_isDigit_portDigits (port : UInt16) : (portDigits port).all Char.isDigit = true :=
  List.all_eq_true.mpr fun _ hc => Nat.isDigit_of_mem_toDigits (by decide) (by decide) hc

/-- An explicit port is the effective one. -/
theorem effectivePort_of_some {authority : UriAuthority} {port : UInt16}
    (h : authority.port = some (portDigits port)) (scheme : List Char) :
    authority.effectivePort scheme = some port.toNat := by
  have hne : Nat.toDigits 10 port.toNat ≠ [] := Nat.toDigits_ne_nil
  obtain ⟨d, ds, hdigits⟩ := List.exists_cons_of_ne_nil hne
  have hvalue := (toDigits_spec (by decide) (by decide) port.toNat : _ ∧ digitsValue 10 0 _ = _).2
  rw [portDigits, hdigits] at h
  rw [hdigits] at hvalue
  rw [UriAuthority.effectivePort, h]
  exact congrArg some hvalue

/-! ### URLs with the text of a host -/

/-- The authority with the text of a host and a port. -/
def displayAuthority (userinfo : Option (List Char)) (host : HostName) (port : UInt16) :
    UriAuthority where
  userinfo := userinfo
  host := host.display.toList
  port := some (portDigits port)

/-- The characters of an IPv6 address without brackets and a port. -/
theorem all_isIpAddrChar_hostPort {cs : List Char} (h : cs.all isIpAddrChar = true)
    (port : UInt16) : (cs ++ ':' :: portDigits port).all isIpAddrChar = true := by
  rw [List.all_append, List.all_cons, h, Bool.true_and, Bool.and_eq_true_iff]
  refine ⟨rfl, List.all_eq_true.mpr fun c hc => ?_⟩
  have hdigit := List.all_eq_true.mp (all_isDigit_portDigits port) c hc
  rw [isIpAddrChar, isHexDigit, hdigit, Bool.true_or, Bool.true_or, Bool.true_or, Bool.true_or]

/-- **Without brackets, exactly the IPv6 addresses are lost.** -/
theorem hasHostAndPort_displayAuthority_iff {scheme rest : List Char}
    {userinfo : Option (List Char)} {host : HostName} {port : UInt16} (hscheme : ':' ∉ scheme)
    (hinfo : ∀ info ∈ userinfo, isUserinfo info = true)
    (hrest : ∀ c ∈ rest.head?, c = '/' ∨ c = '?' ∨ c = '#') :
    HasHostAndPort
        (scheme ++ ':' :: '/' :: '/' :: ((displayAuthority userinfo host port).text ++ rest))
        host port ↔
      ¬ host.IsIpv6 := by
  constructor
  · rintro ⟨scheme', authority, hread, -⟩ hv6
    obtain ⟨hchars, hcolon⟩ := hv6.display_spec
    have hall := List.all_eq_true.mp (all_isIpAddrChar_hostPort hchars port)
    have hnone : readUri (scheme ++ ':' :: '/' :: '/' ::
        ((displayAuthority userinfo host port).text ++ rest)) = none := by
      refine readUri_eq_none hscheme hinfo (fun c hc => ?_) (fun hhead => ?_) ?_ hrest
      · refine ⟨?_, ?_, ?_, ?_⟩ <;> rintro rfl <;> exact absurd (hall _ hc) (by decide)
      · exact absurd (hall '[' (List.mem_of_mem_head? hhead)) (by decide)
      · rw [UriAuthority.hostPortText, List.count_append]
        have hhost : 0 < (displayAuthority userinfo host port).host.count ':' :=
          List.count_pos_iff.mpr hcolon
        have hport : 0 < (':' :: portDigits port).count ':' :=
          List.count_pos_iff.mpr List.mem_cons_self
        exact Nat.add_le_add hhost hport
    rw [hnone] at hread
    cases hread
  · intro hv6
    have hwell : (displayAuthority userinfo host port).IsWellFormed :=
      { userinfo := hinfo
        host := isUriHost_of_all (HostName.display_spec hv6).2
        port := by
          rintro digits ⟨⟩
          exact all_isDigit_portDigits port }
    exact (hasHostAndPort_iff (readUri_text hwell hscheme hrest)).mpr
      ⟨HostName.isDenotedBy_display hv6, effectivePort_of_some rfl scheme⟩

/-- What follows the scheme of a URL with the text of a host. -/
theorem text_displayAuthority_append (userinfo : Option (List Char)) (host : HostName)
    (port : UInt16) (rest : String) :
    (displayAuthority userinfo host port).text ++ rest.toList =
      (userinfo.elim [] fun info => info ++ ['@']) ++
        (host.display ++ portText (some port) ++ rest).toList := by
  rw [String.toList_append, String.toList_append, toList_portText, UriAuthority.text,
    UriAuthority.hostPortText, List.append_assoc]
  rfl

end StackableOperator
