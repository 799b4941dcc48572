import Mathlib
import StackableOperator.Commons.IpAddrFromStr
import StackableOperator.Readers.UriAuthority

/-!
# URLs of another library

A `UrlLibrary` parses and changes URLs. `UrlLibrary.IsStandard` says what its documentation says
about the URLs that are built here: those of the web are normalized, so that their default port is
left out, and other ones stay as they are.
-/

namespace StackableOperator

/-- URLs, as another library implements them. -/
structure UrlLibrary where
  Url : Type
  parse : String → Option Url
  setScheme : Url → String → Option Url
  setPath : Url → String → Url
  asStr : Url → String
  /-- The text of a host in a URL of the web. -/
  parseHost : String → Option String
  /-- The URL consists of a scheme, a host, a port that is not the default one, and a path. -/
  Consists : Url → (scheme host : String) → (port : Option UInt16) → (path : String) → Prop

/-- A port behind a host. -/
def portText (port : Option UInt16) : String :=
  port.elim "" fun port => ":" ++ toString port.toNat

/-- Characters of hosts that are no literals. -/
def isHostNameChar (c : Char) : Bool := c.isAlphanum || c == '-' || c == '.'

/-- A label that is read as a part of an IPv4 address, in decimal or hexadecimal. -/
def isIpv4Number (label : List Char) : Bool :=
  (label ≠ [] && label.all Char.isDigit) ||
    (["0x".toList, "0X".toList].contains (label.take 2) && (label.drop 2).all isHexDigit)

/-- The last label of a name, before a dot at the end, is a number. -/
def endsInNumber (name : List Char) : Bool :=
  match (name.splitOn '.').reverse with
  | [] :: label :: _ => isIpv4Number label
  | label :: _ => isIpv4Number label
  | [] => false

/-- Characters of texts of IP addresses. -/
def isIpAddrChar (c : Char) : Bool := isHexDigit c || c == ':' || c == '.'

/-- Characters of an opaque path that stay as they are. -/
def isOpaqueChar (c : Char) : Bool :=
  0x20 < c.toNat && c.toNat < 0x7f && c != '?' && c != '#'

/-- The documented behaviour. -/
structure UrlLibrary.IsStandard (urls : UrlLibrary) : Prop where
  parseHost_v4 (ip : Ipv4Addr) : urls.parseHost ip.display = some ip.display
  /-- Addresses may get another text. -/
  parseHost_v6 (ip : Ipv6Addr) : ∃ text, IpAddr.fromStr text = some (.v6 ip) ∧
    urls.parseHost ("[" ++ ip.display ++ "]") = some ("[" ++ text ++ "]")
  /-- Names get lower-case letters. -/
  parseHost_name {text host : String} (hchars : text.toList.all isHostNameChar = true)
    (hnumber : endsInNumber text.toList = false) (h : urls.parseHost text = some host) :
    host.toList.map Char.toLower = text.toList.map Char.toLower
  /-- Names that end in a number are IPv4 addresses. -/
  parseHost_number {text host : String} (hchars : text.toList.all isHostNameChar = true)
    (hnumber : endsInNumber text.toList = true) (h : urls.parseHost text = some host) :
    ∃ ip : Ipv4Addr, host = ip.display
  isUriHost_of_parseHost {host : HostName} {text : String}
    (h : urls.parseHost host.asUrlHost = some text) : isUriHost text.toList = true
  parse_http {host : HostName} {text : String} (port : UInt16)
    (h : urls.parseHost host.asUrlHost = some text) :
    ∃ url, urls.parse ("http://" ++ host.asUrlHost ++ portText (some port)) = some url ∧
      urls.Consists url "http" text (if port = 80 then none else some port) "/"
  parse_http_eq_none {host : HostName} (port : UInt16)
    (h : urls.parseHost host.asUrlHost = none) :
    urls.parse ("http://" ++ host.asUrlHost ++ portText (some port)) = none
  setScheme_https {url : urls.Url} {host : String} {port : Option UInt16} {path : String}
    (h : urls.Consists url "http" host port path) :
    ∃ url', urls.setScheme url "https" = some url' ∧
      urls.Consists url' "https" host (if port = some 443 then none else port) path
  consists_setPath {url : urls.Url} {scheme host : String} {port : Option UInt16} {path : String}
    (text : String) (h : urls.Consists url scheme host port path) :
    ∃ path', path'.toList.head? = some '/' ∧
      urls.Consists (urls.setPath url text) scheme host port path'
  asStr_of_consists {url : urls.Url} {scheme host : String} {port : Option UInt16} {path : String}
    (h : urls.Consists url scheme host port path) :
    urls.asStr url = scheme ++ "://" ++ host ++ portText port ++ path
  /-- Hosts behind other schemes stay as they are. -/
  parse_ldap {scheme host : String} (port : UInt16) (hscheme : scheme = "ldap" ∨ scheme = "ldaps")
    (hne : host ≠ "") (hhost : host.toList.all isHostNameChar = true) :
    ∃ url, urls.parse (scheme ++ "://" ++ host ++ portText (some port)) = some url ∧
      urls.asStr url = scheme ++ "://" ++ host ++ portText (some port)
  /-- What follows the first colon is not a port if there are others. -/
  parse_ldap_eq_none {scheme authority : String} (hscheme : scheme = "ldap" ∨ scheme = "ldaps")
    (hchars : authority.toList.all isIpAddrChar = true) (hcolons : 2 ≤ authority.toList.count ':') :
    urls.parse (scheme ++ "://" ++ authority) = none
  /-- A path that does not begin with a slash is opaque. -/
  parse_jdbc {front : String} (rest : String) (hne : front ≠ "")
    (hfront : front.toList.all isOpaqueChar = true) (hslash : front.toList.head? ≠ some '/') :
    ∃ url rest', urls.parse ("jdbc:" ++ front ++ rest) = some url ∧
      urls.asStr url = "jdbc:" ++ front ++ rest'

/-! ### URLs of the web -/

inductive WebUrlError : Type
  | parse
  | setScheme
  deriving DecidableEq

/-- The URL of a host and a port, whose scheme depends on TLS. -/
def webUrl (urls : UrlLibrary) (host : HostName) (port : UInt16) (usesTls : Bool) :
    Except WebUrlError urls.Url :=
  match urls.parse ("http://" ++ host.asUrlHost ++ portText (some port)) with
  | none => .error .parse
  | some url =>
    if usesTls then
      match urls.setScheme url "https" with
      | none => .error .setScheme
      | some url => .ok url
    else .ok url

end StackableOperator
