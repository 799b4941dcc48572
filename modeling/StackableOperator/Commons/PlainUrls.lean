import Mathlib
import StackableOperator.Commons.UrlHost

/-!
# A small library of URLs

The URLs of connections are read by a library, which the development takes as a parameter
`UrlLibrary`. Results about connections assume that it is standard (`UrlLibrary.IsStandard`).
`plainUrls` is a library that can be computed, and `isStandard_plainUrls` shows that the assumptions
can be met, so that those results can be used on examples.

It reads just what connections need. Hosts are IP addresses or names, which are lower-cased; a name
that ends in a number is not read, since such names are taken for IPv4 addresses. URLs of HTTP are
read into their parts, and a port is left out if it is the default one of the scheme. Of the URLs
with other schemes only the authority is checked (`readUri`), and those of JDBC are kept as they
are.

The proofs that the library is standard follow the schemes: `parseHost_name`, `parse_http`,
`parse_ldap` and `parse_jdbc` each say what becomes of the texts that a connection builds.
-/

namespace StackableOperator

/-- A URL: with its parts, or as the text that was read. -/
inductive PlainUrl : Type
  /-- A URL of the web. -/
  | web (scheme host : String) (port : Option UInt16) (path : String)
  | other (text : String)
  deriving DecidableEq

namespace PlainUrl

/-- A host is an IPv6 address in brackets, an IPv4 address, or a name that does not end in a number.
Addresses are written in their usual way, names in lower case. -/
def parseHost (text : String) : Option String :=
  if text.toList.head? = some '[' then
    match IpAddr.fromStr (String.ofList text.toList.tail.dropLast) with
    | some (.v6 ip) => some ("[" ++ ip.display ++ "]")
    | _ => none
  else
    match IpAddr.fromStr text with
    | some (.v4 ip) => some ip.display
    | _ =>
      if text.toList.all isHostNameChar && !endsInNumber text.toList then
        some (String.ofList (text.toList.map Char.toLower))
      else none

/-- A URL of HTTP without a path. -/
def parseHttp (text : String) : Option PlainUrl := do
  let (_, authority) ← readUri text.toList
  let host ← parseHost (String.ofList authority.host)
  let port := authority.port.map fun digits => UInt16.ofNat (digitsValue 10 0 digits)
  some (.web "http" host (if port = some 80 then none else port) "/")

/-- The scheme decides how a URL is read. -/
def parse (text : String) : Option PlainUrl :=
  match splitOnce ':' text.toList with
  | none => none
  | some (scheme, _) =>
    if scheme = "jdbc".toList then some (.other text)
    else if scheme = "http".toList then parseHttp text
    else (readUri text.toList).map fun _ => .other text

/-- Only a URL of the web changes its scheme, and it loses its port if this is the default one of
HTTPS. -/
def setScheme : PlainUrl → String → Option PlainUrl
  | .web _ host port path, "https" =>
    some (.web "https" host (if port = some 443 then none else port) path)
  | _, _ => none

/-- A path gets a slash in front, if it has none. -/
def setPath : PlainUrl → String → PlainUrl
  | .web scheme host port _, text =>
    .web scheme host port (if text.toList.head? = some '/' then text else "/" ++ text)
  | .other text, _ => .other text

/-- The text of a URL. -/
def asStr : PlainUrl → String
  | .web scheme host port path => scheme ++ "://" ++ host ++ portText port ++ path
  | .other text => text

end PlainUrl

/-- The library. A URL consists of the parts that it was read into. -/
def plainUrls : UrlLibrary where
  Url := PlainUrl
  parse := PlainUrl.parse
  setScheme := PlainUrl.setScheme
  setPath := PlainUrl.setPath
  asStr := PlainUrl.asStr
  parseHost := PlainUrl.parseHost
  Consists url scheme host port path := url = .web scheme host port path

namespace PlainUrl

/-- The text of an IPv4 address is read as it is. -/
theorem parseHost_v4 (ip : Ipv4Addr) : parseHost ip.display = some ip.display := by
  have hhead : ip.display.toList.head? ≠ some '[' := by
    intro hhead
    rw [Ipv4Addr.display, String.toList_ofList] at hhead
    obtain hdigit | hdot := mem_displayOctets (List.mem_of_mem_head? hhead)
    · exact absurd hdigit (by decide)
    · exact absurd hdot (by decide)
  have hread : IpAddr.fromStr ip.display = some (.v4 ip) := IpAddr.fromStr_display (.v4 ip)
  rw [parseHost, if_neg hhead, hread]

/-- The text of an IPv6 address in brackets is read as it is. -/
theorem parseHost_v6 (ip : Ipv6Addr) :
    parseHost ("[" ++ ip.display ++ "]") = some ("[" ++ ip.display ++ "]") := by
  have htext : ("[" ++ ip.display ++ "]").toList = '[' :: (ip.display.toList ++ [']']) := by
    simp only [String.toList_append]
    rfl
  have hread : IpAddr.fromStr ip.display = some (.v6 ip) := IpAddr.fromStr_display (.v6 ip)
  rw [parseHost, htext, List.head?_cons, if_pos rfl, List.tail_cons, List.dropLast_concat,
    String.ofList_toList, hread]

/-- What a text without brackets is read as. -/
theorem of_parseHost {text host : String} (h : parseHost text = some host)
    (hhead : text.toList.head? ≠ some '[') :
    (∃ ip : Ipv4Addr, host = ip.display ∧ (text = ip.display ∨ ':' ∈ text.toList)) ∨
      (text.toList.all isHostNameChar = true ∧ endsInNumber text.toList = false) ∧
        host = String.ofList (text.toList.map Char.toLower) := by
  rw [parseHost, if_neg hhead] at h
  split at h
  · rename_i ip hread
    refine Or.inl ⟨ip, (Option.some.inj h).symm, ?_⟩
    obtain ⟨ip', hip, rfl⟩ | hcolon := IpAddr.of_fromStr hread
    · rw [IpAddr.v4.inj hip]
      exact Or.inl rfl
    · exact Or.inr hcolon
  · split_ifs at h with hname
    rw [Bool.and_eq_true, Bool.not_eq_true'] at hname
    exact Or.inr ⟨hname, (Option.some.inj h).symm⟩

/-- A name has no brackets. -/
theorem head?_ne_of_all {cs : List Char} (h : cs.all isHostNameChar = true) :
    cs.head? ≠ some '[' := fun hhead =>
  absurd (List.all_eq_true.mp h '[' (List.mem_of_mem_head? hhead)) (by decide)

/-- Names change in upper and lower case only. -/
theorem parseHost_name {text host : String} (hchars : text.toList.all isHostNameChar = true)
    (h : parseHost text = some host) :
    host.toList.map Char.toLower = text.toList.map Char.toLower := by
  obtain ⟨ip, rfl, rfl | hcolon⟩ | ⟨-, rfl⟩ := of_parseHost h (head?_ne_of_all hchars)
  · rfl
  · exact absurd (List.all_eq_true.mp hchars ':' hcolon) (by decide)
  · rw [String.toList_ofList, List.map_map]
    exact List.map_congr_left fun c _ => Char.toLower_toLower_eq_toLower c

/-- What ends in a number is an IPv4 address, if it is read at all. -/
theorem parseHost_number {text host : String} (hchars : text.toList.all isHostNameChar = true)
    (hnumber : endsInNumber text.toList = true) (h : parseHost text = some host) :
    ∃ ip : Ipv4Addr, host = ip.display := by
  obtain ⟨ip, rfl, -⟩ | ⟨⟨-, hfalse⟩, -⟩ := of_parseHost h (head?_ne_of_all hchars)
  · exact ⟨ip, rfl⟩
  · exact absurd (hfalse.symm.trans hnumber) Bool.false_ne_true

/-- Lower case keeps the characters of names. -/
theorem isHostNameChar_toLower {c : Char} (h : isHostNameChar c = true) :
    isHostNameChar c.toLower = true := by
  by_cases hupper : c.isUpper = true
  · have halpha : c.toLower.isAlpha = true := by
      rw [Char.isAlpha_toLower_eq_isAlpha, Char.isAlpha, hupper, Bool.true_or]
    rw [isHostNameChar, Char.isAlphanum, halpha]
    rfl
  · rw [Char.toLower_eq_of_not_isUpper hupper]
    exact h

/-- An IPv6 address in brackets is a host of a URI. -/
theorem isUriHost_display_v6 (ip : Ipv6Addr) :
    isUriHost ("[" ++ ip.display ++ "]").toList = true := by
  have htext : ("[" ++ ip.display ++ "]").toList = '[' :: (ip.displayChars ++ [']']) := by
    have hchars : ip.display.toList = ip.displayChars := String.toList_ofList
    simp only [String.toList_append, hchars]
    rfl
  rw [htext, isUriHost, List.getLast?_concat, List.dropLast_concat, beq_self_eq_true,
    Bool.true_and]
  refine List.all_eq_true.mpr fun c hc => ?_
  have hchar := List.all_eq_true.mp (displayChars_spec ip).1 c hc
  simp only [isIpAddrChar, Bool.or_eq_true, beq_iff_eq] at hchar
  obtain (hhex | rfl) | rfl := hchar
  · rw [isUriNameChar_of_isHexDigit hhex, Bool.true_or]
  · rfl
  · rfl

/-- Hosts that are read are hosts of URIs. -/
theorem isUriHost_of_parseHost {text host : String} (h : parseHost text = some host) :
    isUriHost host.toList = true := by
  by_cases hhead : text.toList.head? = some '['
  · rw [parseHost, if_pos hhead] at h
    split at h
    · rw [← Option.some.inj h]
      exact isUriHost_display_v6 _
    · cases h
  · obtain ⟨ip, rfl, -⟩ | ⟨⟨hchars, -⟩, rfl⟩ := of_parseHost h hhead
    · rw [Ipv4Addr.display, String.toList_ofList]
      exact isUriHost_of_all (all_isHostNameChar_displayOctets ip.octets)
    · rw [String.toList_ofList]
      refine isUriHost_of_all (List.all_eq_true.mpr fun c hc => ?_)
      obtain ⟨d, hd, rfl⟩ := List.mem_map.mp hc
      exact isHostNameChar_toLower (List.all_eq_true.mp hchars d hd)

/-- Any host is one of a URI. -/
theorem isUriHost_asUrlHost (host : HostName) : isUriHost host.asUrlHost.toList = true := by
  cases host with
  | domainName name => exact isUriHost_of_all (all_isHostNameChar_of_isDomain name.2).2
  | ipAddress ip =>
    cases ip with
    | v4 ip =>
      rw [HostName.asUrlHost, Ipv4Addr.display, String.toList_ofList]
      exact isUriHost_of_all (all_isHostNameChar_displayOctets ip.octets)
    | v6 ip => exact isUriHost_display_v6 ip

/-- Reading depends on the scheme. -/
theorem parse_of_toList {text : String} {scheme rest : List Char} (hscheme : ':' ∉ scheme)
    (htext : text.toList = scheme ++ ':' :: rest) :
    parse text =
      if scheme = "jdbc".toList then some (.other text)
      else if scheme = "http".toList then parseHttp text
      else (readUri text.toList).map fun _ => .other text := by
  unfold parse
  rw [htext, splitOnce_append hscheme]

/-- A host and a port are found in the URL that was built of them. -/
theorem readUri_of_host {text : String} {scheme host : List Char} (port : UInt16)
    (hscheme : ':' ∉ scheme) (hhost : isUriHost host = true)
    (htext : text.toList = scheme ++ ':' :: '/' :: '/' :: (host ++ ':' :: portDigits port)) :
    readUri text.toList = some (scheme, ⟨none, host, some (portDigits port)⟩) := by
  have hwell : UriAuthority.IsWellFormed ⟨none, host, some (portDigits port)⟩ :=
    { userinfo := by simp
      host := hhost
      port := by
        rintro digits ⟨⟩
        exact all_isDigit_portDigits port }
  have hrest : ∀ c ∈ ([] : List Char).head?, c = '/' ∨ c = '?' ∨ c = '#' := by simp
  have hread := readUri_text hwell hscheme hrest
  rw [List.append_nil] at hread
  rw [htext]
  exact hread

/-- **A URL of HTTP** is read iff its host is, and the port 80 is left out. -/
theorem parse_http (host : HostName) (port : UInt16) :
    parse ("http://" ++ host.asUrlHost ++ portText (some port)) =
      (parseHost host.asUrlHost).map fun text =>
        .web "http" text (if port = 80 then none else some port) "/" := by
  have htext : ("http://" ++ host.asUrlHost ++ portText (some port)).toList =
      "http".toList ++ ':' :: '/' :: '/' :: (host.asUrlHost.toList ++ ':' :: portDigits port) := by
    simp only [String.toList_append, toList_portText, List.append_assoc]
    rfl
  have hscheme : ':' ∉ "http".toList := by decide
  have hread := readUri_of_host port hscheme (isUriHost_asUrlHost host) htext
  have hport : UInt16.ofNat (digitsValue 10 0 (portDigits port)) = port := by
    rw [portDigits, (toDigits_spec (by decide) (by decide) port.toNat).2, UInt16.ofNat_toNat]
  rw [parse_of_toList hscheme htext, if_neg (by decide), if_pos rfl, parseHttp, hread,
    Option.bind_eq_bind, Option.bind_some]
  simp only [String.ofList_toList, Option.map_some, hport]
  cases parseHost host.asUrlHost with
  | none => rfl
  | some text =>
    simp

/-- A URL of LDAP with a name or an IPv4 address is kept as it is. -/
theorem parse_ldap {scheme host : String} (port : UInt16)
    (hscheme : scheme = "ldap" ∨ scheme = "ldaps")
    (hhost : host.toList.all isHostNameChar = true) :
    parse (scheme ++ "://" ++ host ++ portText (some port)) =
      some (.other (scheme ++ "://" ++ host ++ portText (some port))) := by
  have htext : (scheme ++ "://" ++ host ++ portText (some port)).toList =
      scheme.toList ++ ':' :: '/' :: '/' :: (host.toList ++ ':' :: portDigits port) := by
    simp only [String.toList_append, toList_portText, List.append_assoc]
    rfl
  obtain ⟨hcolon, hjdbc, hhttp⟩ : ':' ∉ scheme.toList ∧ scheme.toList ≠ "jdbc".toList ∧
      scheme.toList ≠ "http".toList := by
    obtain rfl | rfl := hscheme <;> decide
  rw [parse_of_toList hcolon htext, if_neg hjdbc, if_neg hhttp,
    readUri_of_host port hcolon (isUriHost_of_all hhost) htext]
  rfl

/-- A URL of LDAP with an IPv6 address, which has no brackets there, is not read. -/
theorem parse_ldap_eq_none {scheme authority : String}
    (hscheme : scheme = "ldap" ∨ scheme = "ldaps")
    (hchars : authority.toList.all isIpAddrChar = true)
    (hcolons : 2 ≤ authority.toList.count ':') : parse (scheme ++ "://" ++ authority) = none := by
  have htext : (scheme ++ "://" ++ authority).toList =
      scheme.toList ++ ':' :: '/' :: '/' :: authority.toList := by
    simp only [String.toList_append, List.append_assoc]
    rfl
  obtain ⟨hcolon, hjdbc, hhttp⟩ : ':' ∉ scheme.toList ∧ scheme.toList ≠ "jdbc".toList ∧
      scheme.toList ≠ "http".toList := by
    obtain rfl | rfl := hscheme <;> decide
  have hall := List.all_eq_true.mp hchars
  have hinfo : ∀ info ∈ (none : Option (List Char)), isUserinfo info = true := by simp
  have hrest : ∀ c ∈ ([] : List Char).head?, c = '/' ∨ c = '?' ∨ c = '#' := by simp
  have hdelimiters : ∀ c ∈ authority.toList, c ≠ '@' ∧ c ≠ '/' ∧ c ≠ '?' ∧ c ≠ '#' := by
    intro c hc
    refine ⟨?_, ?_, ?_, ?_⟩ <;> rintro rfl <;> exact absurd (hall _ hc) (by decide)
  have hhead : authority.toList.head? ≠ some '[' := fun hhead =>
    absurd (hall '[' (List.mem_of_mem_head? hhead)) (by decide)
  have hread := readUri_eq_none hcolon hinfo hdelimiters hhead hcolons hrest
  rw [Option.elim_none, List.nil_append, List.append_nil] at hread
  rw [parse_of_toList hcolon htext, if_neg hjdbc, if_neg hhttp, htext, hread]
  rfl

/-- A URL of JDBC is kept as it is. -/
theorem parse_jdbc (text : String) :
    parse ("jdbc:" ++ text) = some (.other ("jdbc:" ++ text)) := by
  have hcolon : ':' ∉ "jdbc".toList := by decide
  have htext : ("jdbc:" ++ text).toList = "jdbc".toList ++ ':' :: text.toList := by
    rw [String.toList_append]
    rfl
  rw [parse_of_toList hcolon htext, if_pos rfl]

end PlainUrl

/-- **There is a standard library.** -/
theorem isStandard_plainUrls : plainUrls.IsStandard where
  parseHost_v4 := PlainUrl.parseHost_v4
  parseHost_v6 ip := ⟨ip.display, IpAddr.fromStr_display (.v6 ip), PlainUrl.parseHost_v6 ip⟩
  parseHost_name hchars _ h := PlainUrl.parseHost_name hchars h
  parseHost_number := PlainUrl.parseHost_number
  isUriHost_of_parseHost h := PlainUrl.isUriHost_of_parseHost h
  parse_http {host _} port h :=
    ⟨_, (PlainUrl.parse_http host port).trans (congrArg _ h), rfl⟩
  parse_http_eq_none {host} port h := (PlainUrl.parse_http host port).trans (congrArg _ h)
  setScheme_https h := ⟨_, by rw [h]; rfl, rfl⟩
  consists_setPath {url _ _ _ _} text h := by
    obtain rfl := h
    by_cases hhead : text.toList.head? = some '/'
    · exact ⟨text, hhead, congrArg (PlainUrl.web _ _ _) (if_pos hhead)⟩
    · refine ⟨"/" ++ text, ?_, congrArg (PlainUrl.web _ _ _) (if_neg hhead)⟩
      rw [String.toList_append]
      rfl
  asStr_of_consists h := by
    rw [h]
    rfl
  parse_ldap port hscheme _ hhost := ⟨_, PlainUrl.parse_ldap port hscheme hhost, rfl⟩
  parse_ldap_eq_none := PlainUrl.parse_ldap_eq_none
  parse_jdbc {front} rest _ _ _ := by
    refine ⟨PlainUrl.other ("jdbc:" ++ front ++ rest), rest, ?_, rfl⟩
    rw [String.append_assoc]
    exact PlainUrl.parse_jdbc (front ++ rest)

end StackableOperator
