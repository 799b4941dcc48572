import Mathlib
import StackableOperator.Commons.Networking
import StackableOperator.Commons.TlsVerification
import StackableOperator.Commons.Url

/-!
# Connections to S3

A `ConnectionSpec` has the host and the port of an S3 server, credentials and TLS settings.
-/

namespace StackableOperator

namespace S3

inductive S3AccessStyle : Type
  | path
  | virtualHosted
  deriving DecidableEq

structure Region where
  name : String := "us-east-1"
  deriving DecidableEq

structure ConnectionSpec where
  host : HostName
  port : Option UInt16 := none
  region : Region := {}
  accessStyle : S3AccessStyle := .virtualHosted
  credentials : Option SecretClassVolume := none
  tls : TlsClientDetails
  deriving DecidableEq

inductive ConnectionError : Type
  | addS3CredentialVolumes (source : SecretClassVolume.Error)
  | addS3TlsClientDetailsVolumes (source : TlsClientDetails.Error)
  | addVolumes (source : PodBuilder.Error)
  | addVolumeMounts (source : ContainerBuilder.Error)

inductive EndpointError : Type
  | parseS3Endpoint (endpoint : String)
  | setS3EndpointScheme (scheme : String)
  deriving DecidableEq

namespace ConnectionSpec

variable (self : ConnectionSpec)

/-- The configured port, or the default of the protocol. -/
def portOrDefault : UInt16 := self.port.getD (if self.tls.usesTls then 443 else 80)

/-- The endpoint URL of the connection. -/
def endpoint (urls : UrlLibrary) : Except EndpointError urls.Url :=
  let endpoint := "http://" ++ self.host.asUrlHost ++ portText (some self.portOrDefault)
  (webUrl urls self.host self.portOrDefault self.tls.usesTls).mapError fun
    | .parse => .parseS3Endpoint endpoint
    | .setScheme => .setS3EndpointScheme "https"

def volumesAndMounts : Except ConnectionError (List Volume × List VolumeMount) :=
  match credentialsVolumesAndMounts self.credentials "-s3-credentials" with
  | .error source => .error (.addS3CredentialVolumes source)
  | .ok (volumes, mounts) =>
    match self.tls.volumesAndMounts with
    | .error source => .error (.addS3TlsClientDetailsVolumes source)
    | .ok (tlsVolumes, tlsMounts) => .ok (volumes ++ tlsVolumes, mounts ++ tlsMounts)

def addVolumesAndMounts (podBuilder : PodBuilder) (containerBuilders : List ContainerBuilder) :
    Except ConnectionError (PodBuilder × List ContainerBuilder) :=
  match self.volumesAndMounts with
  | .error e => .error e
  | .ok (volumes, mounts) =>
    match StackableOperator.addVolumesAndMounts volumes mounts podBuilder containerBuilders with
    | .error (.addVolumes source) => .error (.addVolumes source)
    | .error (.addVolumeMounts source) => .error (.addVolumeMounts source)
    | .ok result => .ok result

end ConnectionSpec

end S3

end StackableOperator
