import Mathlib
import StackableOperator.Commons.Networking
import StackableOperator.Commons.TlsVerification
import StackableOperator.Commons.Url

/-!
# LDAP authentication

An `AuthenticationProvider` has the host and the port of an LDAP server, credentials to bind with
and TLS settings.
-/

namespace StackableOperator

namespace Ldap

structure FieldNames where
  uid : String := "uid"
  group : String := "memberof"
  givenName : String := "givenName"
  surname : String := "sn"
  email : String := "mail"
  deriving DecidableEq

structure AuthenticationProvider where
  hostname : HostName
  port : Option UInt16 := none
  searchBase : String := ""
  searchFilter : String := ""
  ldapFieldNames : FieldNames := {}
  bindCredentials : Option SecretClassVolume := none
  tls : TlsClientDetails
  deriving DecidableEq

inductive Error : Type
  | bindCredentials (source : SecretClassVolume.Error)
  | addLdapTlsClientDetailsVolumes (source : TlsClientDetails.Error)
  | addVolumes (source : PodBuilder.Error)
  | addVolumeMounts (source : ContainerBuilder.Error)

inductive EndpointError : Type
  | parseLdapEndpointUrl
  deriving DecidableEq

namespace AuthenticationProvider

variable (self : AuthenticationProvider)

/-- The configured port, or the default of the protocol. -/
def portOrDefault : UInt16 := self.port.getD (if self.tls.usesTls then 636 else 389)

def endpointUrl (urls : UrlLibrary) : Except EndpointError urls.Url :=
  let protocol := if self.tls.tls = none then "ldap://" else "ldaps://"
  match urls.parse (protocol ++ self.hostname.display ++ portText (some self.portOrDefault)) with
  | none => .error .parseLdapEndpointUrl
  | some url => .ok url

def volumesAndMounts : Except Error (List Volume × List VolumeMount) :=
  match credentialsVolumesAndMounts self.bindCredentials "-bind-credentials" with
  | .error source => .error (.bindCredentials source)
  | .ok (volumes, mounts) =>
    match self.tls.volumesAndMounts with
    | .error source => .error (.addLdapTlsClientDetailsVolumes source)
    | .ok (tlsVolumes, tlsMounts) => .ok (volumes ++ tlsVolumes, mounts ++ tlsMounts)

def addVolumesAndMounts (podBuilder : PodBuilder) (containerBuilders : List ContainerBuilder) :
    Except Error (PodBuilder × List ContainerBuilder) :=
  match self.volumesAndMounts with
  | .error e => .error e
  | .ok (volumes, mounts) =>
    match StackableOperator.addVolumesAndMounts volumes mounts podBuilder containerBuilders with
    | .error (.addVolumes source) => .error (.addVolumes source)
    | .error (.addVolumeMounts source) => .error (.addVolumeMounts source)
    | .ok result => .ok result

end AuthenticationProvider

end Ldap

end StackableOperator
