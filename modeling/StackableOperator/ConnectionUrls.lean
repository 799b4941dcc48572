import Mathlib
import StackableOperator.Commons.PlainUrls
import StackableOperator.Crd.Authentication.Ldap
import StackableOperator.Crd.Authentication.Oidc
import StackableOperator.Crd.S3.Connection
import StackableOperator.DatabaseConnections.Databases

/-!
# Hosts and ports of connection URLs

The builders of connection URLs write the host and the port of a connection. Those for databases and
LDAP write it without brackets, so that they do not support IPv6 addresses. The builders of URLs of
the web support them, but not a port that is the default one of HTTP together with TLS.
-/

namespace StackableOperator

/-! ### Templates -/

def isEnvNameChar (c : Char) : Bool := c.isUpper || c == '_'

/-- What a name has to consist of, as the documentation of the connections says. -/
def IsUniqueDatabaseName (name : String) : Prop := name.toList.all isEnvNameChar = true

theorem isUniqueDatabaseName_metadata : IsUniqueDatabaseName "METADATA" := by
  unfold IsUniqueDatabaseName
  decide

theorem all_isEnvNameChar_envNames {name : String} (h : IsUniqueDatabaseName name) :
    (usernameAndPasswordEnvNames name).1.toList.all isEnvNameChar = true ∧
      (usernameAndPasswordEnvNames name).2.toList.all isEnvNameChar = true := by
  have hupper : name.toUpper.toList.all isEnvNameChar = true := by
    rw [String.toUpper, String.toList_map, List.all_map, List.all_eq_true]
    intro c hc
    have hchar := List.all_eq_true.mp h c hc
    rw [isEnvNameChar, Bool.or_eq_true, beq_iff_eq] at hchar
    obtain hchar | rfl := hchar
    · rw [Function.comp_apply, isEnvNameChar, Char.isUpper_toUpper_eq_isAlpha, Char.isAlpha, hchar]
      rfl
    · rfl
  constructor <;>
  · simp only [usernameAndPasswordEnvNames, String.toList_append, List.all_append, hupper]
    decide

theorem all_isUserinfoChar_of_all_isEnvNameChar {cs : List Char}
    (h : cs.all isEnvNameChar = true) : cs.all isUserinfoChar = true := by
  refine List.all_eq_true.mpr fun c hc => ?_
  have hchar := List.all_eq_true.mp h c hc
  rw [isEnvNameChar, Bool.or_eq_true, beq_iff_eq] at hchar
  obtain hchar | rfl := hchar
  · rw [isUserinfoChar, isUriNameChar, Char.isAlphanum, Char.isAlpha, hchar]
    rfl
  · rfl

/-- Credentials are user information. -/
theorem isUserinfo_credentials {username password : String}
    (husername : username.toList.all isEnvNameChar = true)
    (hpassword : password.toList.all isEnvNameChar = true) (mechanism : TemplatingMechanism) :
    isUserinfo (mechanism.credentials username password).toList = true := by
  have hchars : (mechanism.credentials username password).toList.all isUserinfoChar = true := by
    have h1 := all_isUserinfoChar_of_all_isEnvNameChar husername
    have h2 := all_isUserinfoChar_of_all_isEnvNameChar hpassword
    cases mechanism <;>
    · simp only [TemplatingMechanism.credentials, String.toList_append, List.all_append, h1, h2]
      decide
  refine isUriComponent_of_all (List.all_eq_true.mp hchars) fun hpercent => ?_
  exact absurd (List.all_eq_true.mp hchars '%' hpercent) (by decide)

/-- **Templates keep all hosts but the IPv6 addresses.** -/
theorem hasHostAndPort_template_iff {scheme uniqueDatabaseName : String}
    (hscheme : ':' ∉ scheme.toList) (hname : IsUniqueDatabaseName uniqueDatabaseName)
    (mechanism : TemplatingMechanism) (secretName path : String) (host : HostName)
    (port : UInt16) :
    HasHostAndPort
        (templateConnectionDetails scheme mechanism uniqueDatabaseName secretName
          (host.display ++ portText (some port) ++ ("/" ++ path))).urlTemplate.toList
        host port ↔
      ¬ host.IsIpv6 := by
  obtain ⟨husername, hpassword⟩ := all_isEnvNameChar_envNames hname
  have hinfo := isUserinfo_credentials husername hpassword mechanism
  have htext : (templateConnectionDetails scheme mechanism uniqueDatabaseName secretName
      (host.display ++ portText (some port) ++ ("/" ++ path))).urlTemplate.toList =
      scheme.toList ++ ':' :: '/' :: '/' ::
        ((displayAuthority (some (mechanism.credentials
          (usernameAndPasswordEnvNames uniqueDatabaseName).1
          (usernameAndPasswordEnvNames uniqueDatabaseName).2).toList) host port).text ++
          ("/" ++ path).toList) := by
    rw [text_displayAuthority_append, templateConnectionDetails]
    simp only [String.toList_append, Option.elim_some, List.append_assoc]
    rfl
  rw [htext]
  refine hasHostAndPort_displayAuthority_iff hscheme ?_ ?_
  · rintro info ⟨⟩
    exact hinfo
  · intro c hc
    rw [String.toList_append] at hc
    obtain rfl := Option.some.inj hc
    exact Or.inl rfl

/-! ### URLs of another library -/

theorem isOpaqueChar_of_or {c : Char} (h : isHostNameChar c = true ∨ isIpAddrChar c = true) :
    isOpaqueChar c = true := by
  have hrange {a b : Char} (hab : 0x20 < a.toNat ∧ b.toNat < 0x7f)
      (hc : a.val.toNat ≤ c.val.toNat ∧ c.val.toNat ≤ b.val.toNat) :
      0x20 < c.toNat ∧ c.toNat < 0x7f :=
    ⟨lt_of_lt_of_le hab.1 hc.1, lt_of_le_of_lt hc.2 hab.2⟩
  have hbounds : 0x20 < c.toNat ∧ c.toNat < 0x7f := by
    simp only [isHostNameChar, isIpAddrChar, isHexDigit, Char.isAlphanum, Char.isAlpha,
      Char.isUpper, Char.isLower, Char.isDigit, Bool.or_eq_true, Bool.and_eq_true,
      decide_eq_true_eq, beq_iff_eq, Char.le_def, UInt32.le_iff_toNat_le] at h
    obtain ((((h | h) | h) | rfl) | rfl) | (((h | h) | h) | rfl) | rfl := h
    · exact hrange (by decide) h
    · exact hrange (by decide) h
    · exact hrange (by decide) h
    · decide
    · decide
    · exact hrange (by decide) h
    · exact hrange (by decide) h
    · exact hrange (by decide) h
    · decide
    · decide
  rw [isOpaqueChar, decide_eq_true hbounds.1, decide_eq_true hbounds.2, Bool.true_and,
    Bool.true_and, Bool.and_eq_true, bne_iff_ne, bne_iff_ne]
  constructor <;>
  · rintro rfl
    revert h
    decide

theorem all_isOpaqueChar_display (host : HostName) :
    host.display.toList.all isOpaqueChar = true := by
  refine List.all_eq_true.mpr fun c hc => isOpaqueChar_of_or ?_
  by_cases hv6 : host.IsIpv6
  · exact Or.inr (List.all_eq_true.mp hv6.display_spec.1 c hc)
  · exact Or.inl (List.all_eq_true.mp (HostName.display_spec hv6).2 c hc)

variable {urls : UrlLibrary}

/-- **URLs of JDBC keep all hosts but the IPv6 addresses.** -/
theorem hasHostAndPort_jdbc_iff (hurls : urls.IsStandard) {scheme : String}
    (hscheme : ':' ∉ scheme.toList) (hchars : scheme.toList.all isOpaqueChar = true)
    (hslash : scheme.toList.head? ≠ some '/') (host : HostName) (port : UInt16) (path : String) :
    ∃ url, urls.parse
        ("jdbc:" ++ (scheme ++ "://" ++ host.display ++ portText (some port) ++ "/") ++ path) =
          some url ∧
      (HasHostAndPort ((urls.asStr url).toList.drop "jdbc:".length) host port ↔
        ¬ host.IsIpv6) := by
  -- behind the first colon the URL is opaque, so nothing of it is rewritten
  have hport : (portText (some port)).toList.all isOpaqueChar = true := by
    have hnil : ([] : List Char).all isIpAddrChar = true := rfl
    have hhost := all_isIpAddrChar_hostPort hnil port
    rw [toList_portText]
    exact List.all_eq_true.mpr fun c hc =>
      isOpaqueChar_of_or (Or.inr (List.all_eq_true.mp hhost c hc))
  have hfront : (scheme ++ "://" ++ host.display ++ portText (some port) ++ "/").toList.all
      isOpaqueChar = true := by
    simp only [String.toList_append, List.all_append, hchars, hport, all_isOpaqueChar_display host]
    decide
  have hhead : (scheme ++ "://" ++ host.display ++ portText (some port) ++ "/").toList.head? ≠
      some '/' := by
    simp only [String.toList_append, List.append_assoc]
    cases hcs : scheme.toList with
    | nil => exact fun heq => absurd (Option.some.inj heq : ':' = '/') (by decide)
    | cons c cs =>
      rw [hcs] at hslash
      exact hslash
  have hne : scheme ++ "://" ++ host.display ++ portText (some port) ++ "/" ≠ "" := by
    intro heq
    have hlast := congrArg (fun s : String => s.toList.getLast?) heq
    simp [String.toList_append] at hlast
  obtain ⟨url, rest, hparse, hstr⟩ := hurls.parse_jdbc path hne hfront hhead
  refine ⟨url, hparse, ?_⟩
  -- the authority follows the scheme of the database
  have htext : (urls.asStr url).toList.drop "jdbc:".length =
      scheme.toList ++ ':' :: '/' :: '/' ::
        ((displayAuthority none host port).text ++ ("/" ++ rest).toList) := by
    rw [text_displayAuthority_append, hstr]
    simp only [String.toList_append, List.append_assoc]
    rfl
  rw [htext]
  refine hasHostAndPort_displayAuthority_iff hscheme (by simp) fun c hc => ?_
  rw [String.toList_append] at hc
  obtain rfl := Option.some.inj hc
  exact Or.inl rfl

section

variable {provider : Ldap.AuthenticationProvider}

theorem exists_protocol (provider : Ldap.AuthenticationProvider) :
    ∃ scheme, (scheme = "ldap" ∨ scheme = "ldaps") ∧
      (if provider.tls.tls = none then "ldap://" else "ldaps://") = scheme ++ "://" := by
  by_cases htls : provider.tls.tls = none
  · exact ⟨"ldap", Or.inl rfl, if_pos htls⟩
  · exact ⟨"ldaps", Or.inr rfl, if_neg htls⟩

/-- **A URL of LDAP has the host and the port.** -/
theorem endpointUrl_of_not_isIpv6 (hurls : urls.IsStandard) (h : ¬ provider.hostname.IsIpv6) :
    ∃ url, provider.endpointUrl urls = .ok url ∧
      HasHostAndPort (urls.asStr url).toList provider.hostname provider.portOrDefault := by
  obtain ⟨scheme, hscheme, hprotocol⟩ := exists_protocol provider
  obtain ⟨hne, hchars⟩ := HostName.display_spec h
  obtain ⟨url, hparse, hstr⟩ := hurls.parse_ldap provider.portOrDefault hscheme hne hchars
  refine ⟨url, ?_, ?_⟩
  · rw [Ldap.AuthenticationProvider.endpointUrl]
    simp only [hprotocol, hparse]
  · have htext : (urls.asStr url).toList = scheme.toList ++ ':' :: '/' :: '/' ::
        ((displayAuthority none provider.hostname provider.portOrDefault).text ++ "".toList) := by
      rw [text_displayAuthority_append, hstr, String.append_empty]
      simp only [String.toList_append, List.append_assoc]
      rfl
    rw [htext]
    refine (hasHostAndPort_displayAuthority_iff ?_ (by simp) (by simp)).mpr h
    obtain rfl | rfl := hscheme <;> decide

/-- No URL of LDAP has an IPv6 address. -/
theorem endpointUrl_of_isIpv6 (hurls : urls.IsStandard) (h : provider.hostname.IsIpv6) :
    provider.endpointUrl urls = .error .parseLdapEndpointUrl := by
  obtain ⟨scheme, hscheme, hprotocol⟩ := exists_protocol provider
  obtain ⟨hchars, hcolon⟩ := h.display_spec
  have htext : (provider.hostname.display ++ portText (some provider.portOrDefault)).toList =
      provider.hostname.display.toList ++ ':' :: portDigits provider.portOrDefault := by
    rw [String.toList_append, toList_portText]
    rfl
  have hcolons : 2 ≤ (provider.hostname.display.toList ++
      ':' :: portDigits provider.portOrDefault).count ':' := by
    rw [List.count_append]
    exact Nat.add_le_add (List.count_pos_iff.mpr hcolon)
      (List.count_pos_iff.mpr List.mem_cons_self)
  have hparse := hurls.parse_ldap_eq_none hscheme
    (htext ▸ all_isIpAddrChar_hostPort hchars provider.portOrDefault) (htext ▸ hcolons)
  rw [Ldap.AuthenticationProvider.endpointUrl]
  simp only [hprotocol, String.append_assoc] at hparse ⊢
  rw [hparse]

end

/-! ### URLs of the web -/

/-- A name that ends in a number, but is not four decimal numbers. -/
def HostName.IsNumeric (self : HostName) : Prop :=
  ∃ name, self = .domainName name ∧ endsInNumber name.1.toList = true ∧ ¬ IsIpv4Text name.1

theorem isAlpha_eq_false_of_isDigit {c : Char} (h : c.isDigit = true) : c.isAlpha = false := by
  simp only [Char.isDigit, Bool.and_eq_true, decide_eq_true_eq] at h
  have hupper : c.isUpper = false := by
    refine Bool.eq_false_iff.mpr fun hle => ?_
    simp only [Char.isUpper, decide_eq_true_eq] at hle
    exact absurd (UInt32.le_trans hle.1 h.2) (by decide)
  have hlower : c.isLower = false := by
    refine Bool.eq_false_iff.mpr fun hle => ?_
    simp only [Char.isLower, Bool.and_eq_true, decide_eq_true_eq] at hle
    exact absurd (UInt32.le_trans hle.1 h.2) (by decide)
  rw [Char.isAlpha, hupper, hlower, Bool.or_false]

theorem map_toLower_of_isAlpha_eq_false {cs : List Char} (h : ∀ c ∈ cs, c.isAlpha = false) :
    cs.map Char.toLower = cs := by
  refine List.map_congr_left (g := id) (fun c hc => ?_) |>.trans (List.map_id cs)
  refine Char.toLower_eq_of_not_isUpper fun hupper => ?_
  have halpha := h c hc
  rw [Char.isAlpha, hupper, Bool.true_or] at halpha
  cases halpha

/-- The texts of IPv4 addresses have no letters. -/
theorem eq_display_of_map_toLower {ip : Ipv4Addr} {name : String}
    (h : ip.display.toList.map Char.toLower = name.toList.map Char.toLower) :
    name = ip.display := by
  have halpha : ∀ c ∈ ip.display.toList, c.isAlpha = false := by
    intro c hc
    rw [Ipv4Addr.display, String.toList_ofList] at hc
    obtain hdigit | rfl := mem_displayOctets hc
    · exact isAlpha_eq_false_of_isDigit hdigit
    · rfl
  have hname : ∀ c ∈ name.toList, c.isAlpha = false := by
    intro c hc
    have hmem : c.toLower ∈ ip.display.toList.map Char.toLower :=
      h ▸ List.mem_map_of_mem hc
    obtain ⟨d, hd, heq⟩ := List.mem_map.mp hmem
    rw [← Char.isAlpha_toLower_eq_isAlpha, ← heq, Char.isAlpha_toLower_eq_isAlpha, halpha d hd]
  rw [map_toLower_of_isAlpha_eq_false halpha, map_toLower_of_isAlpha_eq_false hname] at h
  exact String.toList_inj.mp h.symm

theorem isDenotedBy_parseHost_iff (hurls : urls.IsStandard) {host : HostName} {text : String}
    (h : urls.parseHost host.asUrlHost = some text) :
    host.IsDenotedBy text.toList ↔ ¬ host.IsNumeric := by
  cases host with
  | ipAddress ip =>
    have hnot : ¬ (HostName.ipAddress ip).IsNumeric := by
      rintro ⟨name, hname, -⟩
      cases hname
    refine iff_of_true ?_ hnot
    cases ip with
    | v4 ip =>
      obtain rfl := Option.some.inj ((hurls.parseHost_v4 ip).symm.trans h)
      exact rfl
    | v6 ip =>
      obtain ⟨literal, hread, hparse⟩ := hurls.parseHost_v6 ip
      obtain rfl := Option.some.inj (hparse.symm.trans h)
      refine ⟨literal.toList, ?_, ?_⟩
      · simp only [String.toList_append]
        rfl
      · rw [String.ofList_toList]
        exact hread
  | domainName name =>
    have hchars := (all_isHostNameChar_of_isDomain name.2).2
    -- a domain name that ends in a number is parsed as an IPv4 address
    cases hnumber : endsInNumber name.1.toList with
    | false =>
      refine iff_of_true (hurls.parseHost_name hchars hnumber h) ?_
      rintro ⟨name', hname, htrue, -⟩
      obtain rfl := HostName.domainName.inj hname
      exact absurd (hnumber.symm.trans htrue) Bool.false_ne_true
    | true =>
      obtain ⟨ip, rfl⟩ := hurls.parseHost_number hchars hnumber h
      constructor
      -- which denotes the name only if it is the usual text of the address
      · rintro hdenoted ⟨name', hname, -, hnot⟩
        obtain rfl := HostName.domainName.inj hname
        exact hnot ⟨ip, eq_display_of_map_toLower hdenoted⟩
      · intro hnumeric
        have htext : IsIpv4Text name.1 := by
          by_contra hnot
          exact hnumeric ⟨name, rfl, hnumber, hnot⟩
        obtain ⟨ip', hname⟩ := htext
        have hparse := hurls.parseHost_v4 ip'
        rw [← hname] at hparse
        obtain heq := Option.some.inj (h.symm.trans hparse)
        rw [heq]
        exact rfl

/-- The port in a URL of the web: HTTP leaves out its default port, and HTTPS then its own. -/
def webPort (usesTls : Bool) (port : UInt16) : Option UInt16 :=
  if port = 80 ∨ usesTls ∧ port = 443 then none else some port

def webScheme (usesTls : Bool) : String := if usesTls then "https" else "http"

theorem consists_webUrl (hurls : urls.IsStandard) {host : HostName} {text : String}
    (h : urls.parseHost host.asUrlHost = some text) (port : UInt16) (usesTls : Bool) :
    ∃ url, webUrl urls host port usesTls = .ok url ∧
      urls.Consists url (webScheme usesTls) text (webPort usesTls port) "/" := by
  obtain ⟨url, hparse, hconsists⟩ := hurls.parse_http port h
  rw [webUrl, hparse]
  cases usesTls with
  | false =>
    refine ⟨url, rfl, ?_⟩
    have hport : webPort false port = if port = 80 then none else some port := by simp [webPort]
    rw [hport]
    exact hconsists
  | true =>
    obtain ⟨url', hscheme, hconsists'⟩ := hurls.setScheme_https hconsists
    refine ⟨url', ?_, ?_⟩
    · simp only [hscheme, if_true]
    · have hport : webPort true port =
          if (if port = 80 then none else some port) = some 443 then none
          else if port = 80 then none else some port := by
        by_cases h80 : port = 80
        · simp [webPort, h80]
        · simp [webPort, h80]
      rw [hport]
      exact hconsists'

theorem readUri_asStr (hurls : urls.IsStandard) {url : urls.Url} {usesTls : Bool}
    {text path : String} {port : UInt16}
    (h : urls.Consists url (webScheme usesTls) text (webPort usesTls port) path)
    (htext : isUriHost text.toList = true) (hpath : path.toList.head? = some '/') :
    readUri (urls.asStr url).toList = some ((webScheme usesTls).toList,
      { userinfo := none, host := text.toList
        port := (webPort usesTls port).map portDigits }) := by
  have htext' : (urls.asStr url).toList = (webScheme usesTls).toList ++ ':' :: '/' :: '/' ::
      (UriAuthority.text ⟨none, text.toList, (webPort usesTls port).map portDigits⟩ ++
        path.toList) := by
    rw [hurls.asStr_of_consists h, UriAuthority.text, UriAuthority.hostPortText]
    simp only [String.toList_append, toList_portText, Option.elim_none, List.nil_append,
      List.append_assoc]
    rfl
  rw [htext']
  refine readUri_text ⟨by simp, htext, ?_⟩ ?_ ?_
  · rintro digits hdigits
    obtain ⟨port, -, rfl⟩ := Option.map_eq_some_iff.mp hdigits
    exact all_isDigit_portDigits port
  · cases usesTls <;> decide
  · intro c hc
    obtain rfl := Option.some.inj (hpath.symm.trans hc)
    exact Or.inl rfl

/-- The default ports are the effective ones again, but port 80 becomes port 443 with TLS. -/
theorem effectivePort_webPort_iff (host : List Char) (usesTls : Bool) (port : UInt16) :
    UriAuthority.effectivePort ⟨none, host, (webPort usesTls port).map portDigits⟩
        (webScheme usesTls).toList = some port.toNat ↔
      ¬ (usesTls ∧ port = 80) := by
  by_cases hdefault : port = 80 ∨ usesTls ∧ port = 443
  · have hnone : (webPort usesTls port).map portDigits = none := by
      rw [webPort, if_pos hdefault]
      rfl
    have heffective (scheme : List Char) :
        UriAuthority.effectivePort ⟨none, host, none⟩ scheme = defaultPort scheme := rfl
    rw [hnone, heffective]
    obtain rfl | ⟨rfl, rfl⟩ := hdefault
    · cases usesTls <;> decide
    · decide
  · have hsome : (webPort usesTls port).map portDigits = some (portDigits port) := by
      rw [webPort, if_neg hdefault]
      rfl
    rw [hsome]
    refine iff_of_true (effectivePort_of_some rfl _) ?_
    rintro ⟨-, h80⟩
    exact hdefault (Or.inl h80)

/-- **URLs of the web keep the host and the port, but not port 80 with TLS.** -/
theorem hasHostAndPort_asStr_iff (hurls : urls.IsStandard) {url : urls.Url} {usesTls : Bool}
    {host : HostName} {text path : String} {port : UInt16}
    (hhost : urls.parseHost host.asUrlHost = some text)
    (h : urls.Consists url (webScheme usesTls) text (webPort usesTls port) path)
    (hpath : path.toList.head? = some '/') :
    HasHostAndPort (urls.asStr url).toList host port ↔
      ¬ (usesTls ∧ port = 80) ∧ ¬ host.IsNumeric := by
  rw [hasHostAndPort_iff (readUri_asStr hurls h (hurls.isUriHost_of_parseHost hhost) hpath),
    isDenotedBy_parseHost_iff hurls hhost, and_comm]
  exact and_congr_left fun _ => effectivePort_webPort_iff text.toList usesTls port

/-! ### All connections -/

/-- The builders of connection URLs. -/
inductive ConnectionUrl : Type
  | postgresqlJdbc (connection : PostgresqlConnection)
  | postgresqlSqlalchemy (connection : PostgresqlConnection)
  | postgresqlCelery (connection : PostgresqlConnection)
  | mysqlJdbc (connection : MysqlConnection)
  | redisCelery (connection : RedisConnection)
  | ldap (provider : Ldap.AuthenticationProvider)
  | oidc (provider : Oidc.AuthenticationProvider)
  | oidcWellKnownConfig (provider : Oidc.AuthenticationProvider)
  | s3 (connection : S3.ConnectionSpec)

namespace ConnectionUrl

variable (uniqueDatabaseName : String) (mechanism : TemplatingMechanism)

def host : ConnectionUrl → HostName
  | postgresqlJdbc connection | postgresqlSqlalchemy connection | postgresqlCelery connection =>
    connection.host
  | mysqlJdbc connection => connection.host
  | redisCelery connection => connection.host
  | ldap provider => provider.hostname
  | oidc provider | oidcWellKnownConfig provider => provider.hostname
  | s3 connection => connection.host

def port : ConnectionUrl → UInt16
  | postgresqlJdbc connection | postgresqlSqlalchemy connection | postgresqlCelery connection =>
    connection.port
  | mysqlJdbc connection => connection.port
  | redisCelery connection => connection.port
  | ldap provider => provider.portOrDefault
  | oidc provider | oidcWellKnownConfig provider => provider.portOrDefault
  | s3 connection => connection.portOrDefault

/-- The URL without the prefix of JDBC, if one is built. -/
def text (urls : UrlLibrary) : ConnectionUrl → Option (List Char)
  | postgresqlJdbc connection =>
    (connection.jdbcConnectionDetailsWithTemplating urls uniqueDatabaseName
      mechanism).toOption.map fun details =>
        (urls.asStr details.connectionUrl).toList.drop "jdbc:".length
  | postgresqlSqlalchemy connection =>
    some (connection.sqlalchemyConnectionDetailsWithTemplating uniqueDatabaseName
      mechanism).urlTemplate.toList
  | postgresqlCelery connection =>
    some (connection.celeryConnectionDetailsWithTemplating uniqueDatabaseName
      mechanism).urlTemplate.toList
  | mysqlJdbc connection =>
    (connection.jdbcConnectionDetailsWithTemplating urls uniqueDatabaseName
      mechanism).toOption.map fun details =>
        (urls.asStr details.connectionUrl).toList.drop "jdbc:".length
  | redisCelery connection =>
    some (connection.celeryConnectionDetailsWithTemplating uniqueDatabaseName
      mechanism).urlTemplate.toList
  | ldap provider =>
    (provider.endpointUrl urls).toOption.map fun url => (urls.asStr url).toList
  | oidc provider =>
    (provider.endpointUrl urls).toOption.map fun url => (urls.asStr url).toList
  | oidcWellKnownConfig provider =>
    (provider.wellKnownConfigUrl urls).toOption.map fun url => (urls.asStr url).toList
  | s3 connection =>
    (connection.endpoint urls).toOption.map fun url => (urls.asStr url).toList

/-- The URL is built, with the host and the port. -/
def IsKept (urls : UrlLibrary) (self : ConnectionUrl) : Prop :=
  ∃ url ∈ self.text uniqueDatabaseName mechanism urls, HasHostAndPort url self.host self.port

/-- A host and a port behind HTTP or HTTPS that the library of URLs keeps. -/
def IsWebAddress (urls : UrlLibrary) (host : HostName) (port : UInt16) (usesTls : Bool) : Prop :=
  (urls.parseHost host.asUrlHost).isSome ∧ ¬ (usesTls ∧ port = 80) ∧ ¬ host.IsNumeric

/-- What the builder can write. -/
def IsSupported (urls : UrlLibrary) : ConnectionUrl → Prop
  | postgresqlJdbc connection | postgresqlSqlalchemy connection | postgresqlCelery connection =>
    ¬ connection.host.IsIpv6
  | mysqlJdbc connection => ¬ connection.host.IsIpv6
  | redisCelery connection => ¬ connection.host.IsIpv6
  | ldap provider => ¬ provider.hostname.IsIpv6
  | oidc provider | oidcWellKnownConfig provider =>
    IsWebAddress urls provider.hostname provider.portOrDefault provider.tls.usesTls
  | s3 connection =>
    IsWebAddress urls connection.host connection.portOrDefault connection.tls.usesTls

variable {uniqueDatabaseName mechanism} {urls : UrlLibrary}

theorem isKept_iff_of_text {self : ConnectionUrl} {url : List Char}
    (h : self.text uniqueDatabaseName mechanism urls = some url) :
    self.IsKept uniqueDatabaseName mechanism urls ↔ HasHostAndPort url self.host self.port := by
  rw [IsKept, h]
  simp

theorem isKept_postgresqlJdbc_iff (hurls : urls.IsStandard) (connection : PostgresqlConnection) :
    (postgresqlJdbc connection).IsKept uniqueDatabaseName mechanism urls ↔
      ¬ connection.host.IsIpv6 := by
  have hscheme : ':' ∉ "postgresql".toList := by decide
  obtain ⟨url, hparse, hkept⟩ := hasHostAndPort_jdbc_iff hurls hscheme (by decide) (by decide)
    connection.host connection.port (connection.database ++
      (connectionParametersAsUrlQueryParameters connection.parameters).getD "")
  have hlocation : "jdbc:" ++ ("postgresql" ++ "://" ++ connection.host.display ++
      portText (some connection.port) ++ "/") ++ (connection.database ++
        (connectionParametersAsUrlQueryParameters connection.parameters).getD "") =
      "jdbc:postgresql://" ++ connection.location := by
    refine String.toList_inj.mp ?_
    simp only [PostgresqlConnection.location, String.toList_append, List.append_assoc]
    rfl
  rw [hlocation] at hparse
  refine (isKept_iff_of_text ?_).trans hkept
  simp only [text, PostgresqlConnection.jdbcConnectionDetailsWithTemplating, hparse]
  rfl

theorem isKept_mysqlJdbc_iff (hurls : urls.IsStandard) (connection : MysqlConnection) :
    (mysqlJdbc connection).IsKept uniqueDatabaseName mechanism urls ↔
      ¬ connection.host.IsIpv6 := by
  have hscheme : ':' ∉ "mysql".toList := by decide
  obtain ⟨url, hparse, hkept⟩ := hasHostAndPort_jdbc_iff hurls hscheme (by decide) (by decide)
    connection.host connection.port (connection.database ++
      (connectionParametersAsUrlQueryParameters connection.parameters).getD "")
  have hlocation : "jdbc:" ++ ("mysql" ++ "://" ++ connection.host.display ++
      portText (some connection.port) ++ "/") ++ (connection.database ++
        (connectionParametersAsUrlQueryParameters connection.parameters).getD "") =
      "jdbc:mysql://" ++ connection.host.display ++ portText (some connection.port) ++ "/" ++
        connection.database ++
        (connectionParametersAsUrlQueryParameters connection.parameters).getD "" := by
    refine String.toList_inj.mp ?_
    simp only [String.toList_append, List.append_assoc]
    rfl
  rw [hlocation] at hparse
  refine (isKept_iff_of_text ?_).trans hkept
  simp only [text, MysqlConnection.jdbcConnectionDetailsWithTemplating, hparse]
  rfl

theorem isKept_ldap_iff (hurls : urls.IsStandard) (provider : Ldap.AuthenticationProvider) :
    (ldap provider).IsKept uniqueDatabaseName mechanism urls ↔ ¬ provider.hostname.IsIpv6 := by
  constructor
  · rintro ⟨url, hurl, -⟩ hv6
    rw [text, endpointUrl_of_isIpv6 hurls hv6] at hurl
    cases hurl
  · intro hv6
    obtain ⟨url, hurl, hkept⟩ := endpointUrl_of_not_isIpv6 hurls hv6
    refine (isKept_iff_of_text ?_).mpr hkept
    rw [text, hurl]
    rfl

/-- What the builders of templates share. -/
theorem isKept_template_iff (hname : IsUniqueDatabaseName uniqueDatabaseName)
    {self : ConnectionUrl} {scheme secretName rest path : String} (hscheme : ':' ∉ scheme.toList)
    (hrest : rest = self.host.display ++ portText (some self.port) ++ ("/" ++ path))
    (htext : self.text uniqueDatabaseName mechanism urls =
      some (templateConnectionDetails scheme mechanism uniqueDatabaseName secretName
        rest).urlTemplate.toList) :
    self.IsKept uniqueDatabaseName mechanism urls ↔ ¬ self.host.IsIpv6 := by
  rw [isKept_iff_of_text htext, hrest]
  exact hasHostAndPort_template_iff hscheme hname mechanism secretName path self.host self.port

theorem location_eq (connection : PostgresqlConnection) :
    connection.location = connection.host.display ++ portText (some connection.port) ++
      ("/" ++ (connection.database ++
        (connectionParametersAsUrlQueryParameters connection.parameters).getD "")) := by
  rw [PostgresqlConnection.location]
  simp only [String.append_assoc]

theorem isKept_postgresqlSqlalchemy_iff (hname : IsUniqueDatabaseName uniqueDatabaseName)
    (connection : PostgresqlConnection) :
    (postgresqlSqlalchemy connection).IsKept uniqueDatabaseName mechanism urls ↔
      ¬ connection.host.IsIpv6 := by
  have hscheme : ':' ∉ "postgresql+psycopg2".toList := by decide
  exact isKept_template_iff hname hscheme (location_eq connection) rfl

theorem isKept_postgresqlCelery_iff (hname : IsUniqueDatabaseName uniqueDatabaseName)
    (connection : PostgresqlConnection) :
    (postgresqlCelery connection).IsKept uniqueDatabaseName mechanism urls ↔
      ¬ connection.host.IsIpv6 := by
  have hscheme : ':' ∉ "db+postgresql".toList := by decide
  exact isKept_template_iff hname hscheme (location_eq connection) rfl

theorem isKept_redisCelery_iff (hname : IsUniqueDatabaseName uniqueDatabaseName)
    (connection : RedisConnection) :
    (redisCelery connection).IsKept uniqueDatabaseName mechanism urls ↔
      ¬ connection.host.IsIpv6 := by
  have hscheme : ':' ∉ "redis".toList := by decide
  exact isKept_template_iff hname hscheme String.append_assoc rfl

theorem toOption_mapError {ε ε' A : Type} (f : ε → ε') (result : Except ε A) :
    (result.mapError f).toOption = result.toOption := by
  cases result <;> rfl

theorem toOption_map {ε A B : Type} (f : A → B) (result : Except ε A) :
    (result.map f).toOption = result.toOption.map f := by
  cases result <;> rfl

/-- What the three builders of URLs of the web share. -/
theorem isKept_web_iff (hurls : urls.IsStandard) {self : ConnectionUrl} {usesTls : Bool}
    {change : urls.Url → urls.Url}
    (htext : self.text uniqueDatabaseName mechanism urls =
      ((webUrl urls self.host self.port usesTls).toOption.map fun url =>
        (urls.asStr (change url)).toList))
    (hchange : ∀ {url scheme host port}, urls.Consists url scheme host port "/" →
      ∃ path, path.toList.head? = some '/' ∧ urls.Consists (change url) scheme host port path) :
    self.IsKept uniqueDatabaseName mechanism urls ↔
      IsWebAddress urls self.host self.port usesTls := by
  cases hhost : urls.parseHost self.host.asUrlHost with
  | none =>
    refine iff_of_false ?_ ?_
    · rintro ⟨url, hurl, -⟩
      rw [htext, webUrl, hurls.parse_http_eq_none self.port hhost] at hurl
      cases hurl
    · rintro ⟨hsome, -⟩
      rw [hhost] at hsome
      cases hsome
  | some text =>
    obtain ⟨url, hurl, hconsists⟩ := consists_webUrl hurls hhost self.port usesTls
    obtain ⟨path, hpath, hchanged⟩ := hchange hconsists
    rw [hurl] at htext
    rw [isKept_iff_of_text htext, hasHostAndPort_asStr_iff hurls hhost hchanged hpath,
      IsWebAddress, hhost]
    simp

theorem isKept_oidc_iff (hurls : urls.IsStandard) (provider : Oidc.AuthenticationProvider) :
    (oidc provider).IsKept uniqueDatabaseName mechanism urls ↔
      IsWebAddress urls provider.hostname provider.portOrDefault provider.tls.usesTls := by
  refine isKept_web_iff hurls ?_ (hurls.consists_setPath (Oidc.trimEndSlashes provider.rootPath))
  rw [text, Oidc.AuthenticationProvider.endpointUrl, Oidc.AuthenticationProvider.baseUrl,
    toOption_map, toOption_mapError, Option.map_map]
  rfl

theorem isKept_oidcWellKnownConfig_iff (hurls : urls.IsStandard)
    (provider : Oidc.AuthenticationProvider) :
    (oidcWellKnownConfig provider).IsKept uniqueDatabaseName mechanism urls ↔
      IsWebAddress urls provider.hostname provider.portOrDefault provider.tls.usesTls := by
  refine isKept_web_iff hurls ?_ (hurls.consists_setPath
    (Oidc.trimEndSlashes provider.rootPath ++ "/.well-known/openid-configuration"))
  rw [text, Oidc.AuthenticationProvider.wellKnownConfigUrl, Oidc.AuthenticationProvider.baseUrl,
    toOption_map, toOption_mapError, Option.map_map]
  rfl

theorem isKept_s3_iff (hurls : urls.IsStandard) (connection : S3.ConnectionSpec) :
    (s3 connection).IsKept uniqueDatabaseName mechanism urls ↔
      IsWebAddress urls connection.host connection.portOrDefault connection.tls.usesTls := by
  refine isKept_web_iff hurls ?_ fun hconsists => ⟨"/", rfl, hconsists⟩
  rw [text, S3.ConnectionSpec.endpoint, toOption_mapError]
  rfl

/-- **A builder writes a URL with the host and the port iff it supports the address.** -/
theorem isKept_iff_isSupported (hurls : urls.IsStandard)
    (hname : IsUniqueDatabaseName uniqueDatabaseName) (self : ConnectionUrl) :
    self.IsKept uniqueDatabaseName mechanism urls ↔ self.IsSupported urls := by
  cases self with
  | postgresqlJdbc connection => exact isKept_postgresqlJdbc_iff hurls connection
  | postgresqlSqlalchemy connection => exact isKept_postgresqlSqlalchemy_iff hname connection
  | postgresqlCelery connection => exact isKept_postgresqlCelery_iff hname connection
  | mysqlJdbc connection => exact isKept_mysqlJdbc_iff hurls connection
  | redisCelery connection => exact isKept_redisCelery_iff hname connection
  | ldap provider => exact isKept_ldap_iff hurls provider
  | oidc provider => exact isKept_oidc_iff hurls provider
  | oidcWellKnownConfig provider => exact isKept_oidcWellKnownConfig_iff hurls provider
  | s3 connection => exact isKept_s3_iff hurls connection

/-- Redis on a loopback address, and S3 with TLS on the port of HTTP. -/
theorem not_isKept_loopback :
    ¬ (redisCelery
        { host := .ipAddress (.v6 ⟨[0, 0, 0, 0, 0, 0, 0, 1], rfl⟩)
          credentialsSecretName := "redis-credentials" }).IsKept "METADATA" .configUtils
        plainUrls ∧
      ¬ (s3
        { host := .ipAddress (.v4 ⟨[127, 0, 0, 1], rfl⟩)
          port := some 80
          tls := ⟨some ⟨.none⟩⟩ }).IsKept "METADATA" .configUtils plainUrls := by
  constructor
  · rw [isKept_iff_isSupported isStandard_plainUrls isUniqueDatabaseName_metadata]
    exact not_not_intro ⟨_, rfl⟩
  · rw [isKept_iff_isSupported isStandard_plainUrls isUniqueDatabaseName_metadata]
    rintro ⟨-, hport, -⟩
    exact hport ⟨rfl, rfl⟩

/-! ### All builders at once -/

/-- Whatever else a connection consists of, each builder keeps the host and the port. -/
def KeepsHostAndPort (urls : UrlLibrary) (host : HostName) (port : UInt16) : Prop :=
  ∀ (self : ConnectionUrl) (uniqueDatabaseName : String) (mechanism : TemplatingMechanism),
    self.host = host → self.port = port → IsUniqueDatabaseName uniqueDatabaseName →
      self.IsKept uniqueDatabaseName mechanism urls

/-- **All connection URLs have the host and the port** iff the host is no IPv6 address, libraries of
URLs read it as itself, and the port is not the one of HTTP. -/
theorem keepsHostAndPort_iff (hurls : urls.IsStandard) (host : HostName) (port : UInt16) :
    KeepsHostAndPort urls host port ↔
      ¬ host.IsIpv6 ∧ (urls.parseHost host.asUrlHost).isSome ∧ ¬ host.IsNumeric ∧ port ≠ 80 := by
  constructor
  · intro h
    have hredis := (isKept_redisCelery_iff isUniqueDatabaseName_metadata _).mp
      (h (redisCelery { host := host, port := port, credentialsSecretName := "redis-credentials" })
        "METADATA" .configUtils rfl rfl isUniqueDatabaseName_metadata)
    -- with TLS, so that the port matters
    obtain ⟨hsome, hport, hnumeric⟩ := (isKept_s3_iff hurls _).mp
      (h (s3 { host := host, port := some port, tls := ⟨some ⟨.none⟩⟩ }) "METADATA" .configUtils
        rfl rfl isUniqueDatabaseName_metadata)
    exact ⟨hredis, hsome, hnumeric, fun h80 => hport ⟨rfl, h80⟩⟩
  · rintro ⟨hv6, hsome, hnumeric, hport⟩ self uniqueDatabaseName mechanism rfl rfl hname
    have hweb (usesTls : Bool) : IsWebAddress urls self.host self.port usesTls :=
      ⟨hsome, fun h => hport h.2, hnumeric⟩
    cases self with
    | postgresqlJdbc connection => exact (isKept_postgresqlJdbc_iff hurls connection).mpr hv6
    | postgresqlSqlalchemy connection =>
      exact (isKept_postgresqlSqlalchemy_iff hname connection).mpr hv6
    | postgresqlCelery connection => exact (isKept_postgresqlCelery_iff hname connection).mpr hv6
    | mysqlJdbc connection => exact (isKept_mysqlJdbc_iff hurls connection).mpr hv6
    | redisCelery connection => exact (isKept_redisCelery_iff hname connection).mpr hv6
    | ldap provider => exact (isKept_ldap_iff hurls provider).mpr hv6
    | oidc provider => exact (isKept_oidc_iff hurls provider).mpr (hweb _)
    | oidcWellKnownConfig provider =>
      exact (isKept_oidcWellKnownConfig_iff hurls provider).mpr (hweb _)
    | s3 connection => exact (isKept_s3_iff hurls connection).mpr (hweb _)

/-- The usual port of PostgreSQL on `127.0.0.1`. -/
theorem keepsHostAndPort_loopback :
    KeepsHostAndPort plainUrls (.ipAddress (.v4 ⟨[127, 0, 0, 1], rfl⟩)) 5432 := by
  refine (keepsHostAndPort_iff isStandard_plainUrls _ _).mpr ⟨?_, ?_, ?_, by decide⟩
  · rintro ⟨ip, hip⟩
    cases hip
  · rw [HostName.asUrlHost, isStandard_plainUrls.parseHost_v4]
    rfl
  · rintro ⟨name, hname, -⟩
    cases hname

/-- A template for PostgreSQL on the host `::1`, which is written without brackets. -/
theorem not_keepsHostAndPort_loopback :
    ¬ ∀ urls : UrlLibrary, urls.IsStandard → ∀ (host : HostName) (port : UInt16),
      KeepsHostAndPort urls host port := by
  intro h
  have hkept := h plainUrls isStandard_plainUrls
    (.ipAddress (.v6 ⟨[0, 0, 0, 0, 0, 0, 0, 1], rfl⟩)) 5432
    (postgresqlSqlalchemy
      { host := .ipAddress (.v6 ⟨[0, 0, 0, 0, 0, 0, 0, 1], rfl⟩)
        port := 5432
        database := "airflow"
        credentialsSecretName := "credentials"
        parameters := IterMap.empty }) "METADATA" .configUtils rfl rfl
    isUniqueDatabaseName_metadata
  exact (isKept_postgresqlSqlalchemy_iff isUniqueDatabaseName_metadata _).mp hkept ⟨_, rfl⟩

end ConnectionUrl

end StackableOperator
