import Mathlib
import StackableOperator.Commons.TlsVerification
import StackableOperator.Commons.Url

/-!
# OIDC authentication

An `AuthenticationProvider` has the host and the port of an OIDC provider, the path of its root and
TLS settings.
-/

namespace StackableOperator

namespace Oidc

structure AuthenticationProvider where
  hostname : HostName
  port : Option UInt16 := none
  rootPath : String := "/"
  tls : TlsClientDetails

inductive Error : Type
  | parseOidcEndpointUrl
  | setOidcEndpointScheme (scheme : String)
  deriving DecidableEq

/-- `trim_end_matches` for slashes -/
def trimEndSlashes (path : String) : String :=
  String.ofList (path.toList.rdropWhile (· == '/'))

namespace AuthenticationProvider

variable (self : AuthenticationProvider) (urls : UrlLibrary)

/-- The configured port, or the default of the protocol. -/
def portOrDefault : UInt16 := self.port.getD (if self.tls.usesTls then 443 else 80)

/-- The URL without any path segments. -/
def baseUrl : Except Error urls.Url :=
  (webUrl urls self.hostname self.portOrDefault self.tls.usesTls).mapError fun
    | .parse => .parseOidcEndpointUrl
    | .setScheme => .setOidcEndpointScheme "https"

/-- The endpoint without a trailing slash. -/
def endpointUrl : Except Error urls.Url :=
  (self.baseUrl urls).map fun url => urls.setPath url (trimEndSlashes self.rootPath)

def wellKnownConfigUrl : Except Error urls.Url :=
  (self.baseUrl urls).map fun url =>
    urls.setPath url (trimEndSlashes self.rootPath ++ "/.well-known/openid-configuration")

end AuthenticationProvider

end Oidc

end StackableOperator
