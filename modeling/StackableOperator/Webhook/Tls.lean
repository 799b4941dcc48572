import Mathlib

/-!
# The TLS server of webhooks

The task that serves TLS connections and rotates the certificate, in steps between which other
tasks may run. A generation passes several stages, sends its certificate to a channel, and only
then the key and its expiry are stored, one after the other.

`TlsServer.Inv` says at which points which certificate the stored key and expiry belong to.
-/

namespace StackableOperator

namespace WebhookServer

/-- Wall-clock time, in seconds since the epoch. -/
abbrev SystemTime : Type := ℕ

/-- Certificates and keys, as other libraries implement them. -/
structure CertificateLibrary where
  Certificate : Type
  CertifiedKey : Type
  notAfter : Certificate → SystemTime
  /-- The PEM envelope of a certificate, unless encoding fails. -/
  toPem : Certificate → Option (List UInt8)

/-! ### The model of the source -/

inductive CertificateResolverError : Type
  | sendCertificateToChannel
  | generateEcdsaSigningKey
  | createCertificateAuthority
  | generateLeafCertificate
  | encodeCertificateDer
  | encodePrivateKeyDer
  | decodeCertifiedKeyFromDer
  | tokioSpawnBlocking
  | noDefaultCryptoProviderInstalled
  deriving DecidableEq

inductive TlsServerError : Type
  | bindTcpListener
  | rotateCertificate (source : CertificateResolverError)
  deriving DecidableEq

/-- The stages of a generation before its certificate is sent, each by the error with which it
fails. -/
def generationStages : List CertificateResolverError :=
  [.noDefaultCryptoProviderInstalled, .generateEcdsaSigningKey, .createCertificateAuthority,
    .generateLeafCertificate, .encodeCertificateDer, .encodePrivateKeyDer,
    .decodeCertifiedKeyFromDer]

/-- The channel from the TLS server to the update loop holds one certificate. -/
def channelCapacity : ℕ := 1

structure CertificateResolver (L : CertificateLibrary) where
  currentCertifiedKey : L.CertifiedKey
  currentNotAfter : SystemTime

/-- The certificate is expired, or will be within the buffer. -/
def CertificateResolver.needsRotation {L : CertificateLibrary} (self : CertificateResolver L)
    (buffer now : SystemTime) : Bool :=
  decide (self.currentNotAfter - buffer ≤ now)

/-- Where the task of the TLS server is. -/
inductive TlsPhase (L : CertificateLibrary) : Type
  | binding
  /-- In the loop that waits for the shutdown signal, the interval and connections. -/
  | accepting
  /-- In a generation, with the stages that are left. -/
  | generating (stages : List CertificateResolverError)
  | sending (certificate : L.Certificate) (certifiedKey : L.CertifiedKey)
  | storingKey (certificate : L.Certificate) (certifiedKey : L.CertifiedKey)
  | storingNotAfter (certificate : L.Certificate) (certifiedKey : L.CertifiedKey)
  | finished (result : Except TlsServerError Unit)
  | dropped

structure TlsServer (L : CertificateLibrary) where
  certResolver : CertificateResolver L
  phase : TlsPhase L
  /-- All certificates that were put on the channel. -/
  sent : List L.Certificate
  /-- All generations whose key was stored. -/
  completed : List (L.Certificate × L.CertifiedKey)

namespace TlsServer

variable {L : CertificateLibrary}

/-- The server after the first generation. -/
def new (certificate : L.Certificate) (certifiedKey : L.CertifiedKey) : TlsServer L where
  certResolver := ⟨certifiedKey, L.notAfter certificate⟩
  phase := .binding
  sent := [certificate]
  completed := [(certificate, certifiedKey)]

/-- The steps of the server and of the channel. -/
inductive Step :
    TlsServer L × List L.Certificate → TlsServer L × List L.Certificate → Prop
  | bind {t q} : t.phase = .binding → Step (t, q) ({ t with phase := .accepting }, q)
  | bindFailed {t q} : t.phase = .binding →
    Step (t, q) ({ t with phase := .finished (.error .bindTcpListener) }, q)
  | shutdown {t q} : t.phase = .accepting →
    Step (t, q) ({ t with phase := .finished (.ok ()) }, q)
  | tick {t q} (buffer now : SystemTime) : t.phase = .accepting →
    t.certResolver.needsRotation buffer now = true →
      Step (t, q) ({ t with phase := .generating generationStages }, q)
  | stage {t q e stages} : t.phase = .generating (e :: stages) →
    Step (t, q) ({ t with phase := .generating stages }, q)
  | stageFailed {t q e stages} : t.phase = .generating (e :: stages) →
    Step (t, q) ({ t with phase := .finished (.error (.rotateCertificate e)) }, q)
  /-- The blocking task of the generation panicked. -/
  | joinFailed {t q stages} : t.phase = .generating stages →
    Step (t, q) ({ t with phase := .finished (.error (.rotateCertificate .tokioSpawnBlocking)) }, q)
  | generated {t q} (certificate : L.Certificate) (certifiedKey : L.CertifiedKey) :
    t.phase = .generating [] →
      Step (t, q) ({ t with phase := .sending certificate certifiedKey }, q)
  | send {t q certificate certifiedKey} : t.phase = .sending certificate certifiedKey →
    q.length < channelCapacity →
      Step (t, q) ({ t with
        phase := .storingKey certificate certifiedKey
        sent := t.sent ++ [certificate] }, q ++ [certificate])
  /-- The receiver is gone. -/
  | sendFailed {t q certificate certifiedKey} : t.phase = .sending certificate certifiedKey →
    Step (t, q) ({ t with
      phase := .finished (.error (.rotateCertificate .sendCertificateToChannel)) }, q)
  | storeKey {t q certificate certifiedKey} : t.phase = .storingKey certificate certifiedKey →
    Step (t, q) ({ t with
      certResolver := { t.certResolver with currentCertifiedKey := certifiedKey }
      phase := .storingNotAfter certificate certifiedKey
      completed := t.completed ++ [(certificate, certifiedKey)] }, q)
  | storeNotAfter {t q certificate certifiedKey} :
    t.phase = .storingNotAfter certificate certifiedKey →
      Step (t, q) ({ t with
        certResolver := { t.certResolver with currentNotAfter := L.notAfter certificate }
        phase := .accepting }, q)

/-- The points at which the task waits, and can be dropped. -/
def IsAwaiting (t : TlsServer L) : Prop :=
  match t.phase with
  | .binding | .accepting | .generating _ | .sending _ _ => True
  | .storingKey _ _ | .storingNotAfter _ _ | .finished _ | .dropped => False

def drop (t : TlsServer L) : TlsServer L := { t with phase := .dropped }

/-! ### The stored key and expiry -/

/-- The key is the one of the last completed generation. So is the expiry, and all certificates
that were sent are those of completed generations, except while the two are stored. -/
def Inv (t : TlsServer L) : Prop :=
  ∃ generation, t.completed.getLast? = some generation ∧
    t.certResolver.currentCertifiedKey = generation.2 ∧
    match t.phase with
    | .storingKey certificate _ => t.certResolver.currentNotAfter = L.notAfter generation.1 ∧
      t.sent = t.completed.map Prod.fst ++ [certificate]
    | .storingNotAfter certificate certifiedKey => generation = (certificate, certifiedKey) ∧
      t.sent = t.completed.map Prod.fst
    | _ => t.certResolver.currentNotAfter = L.notAfter generation.1 ∧
      t.sent = t.completed.map Prod.fst

variable {t t' : TlsServer L} {q q' : List L.Certificate}

theorem inv_new (certificate : L.Certificate) (certifiedKey : L.CertifiedKey) :
    (new certificate certifiedKey).Inv :=
  ⟨(certificate, certifiedKey), rfl, rfl, rfl, rfl⟩

theorem Inv.step (h : t.Inv) (hstep : Step (t, q) (t', q')) : t'.Inv := by
  obtain ⟨generation, hlast, hkey, hphase⟩ := h
  rcases hstep with hp | hp | hp | ⟨-, -, hp, -⟩ | hp | hp | hp | ⟨-, -, hp⟩ | ⟨hp, -⟩ | hp | hp |
    hp
  all_goals rw [hp] at hphase
  case storeKey certificate certifiedKey =>
    refine ⟨(certificate, certifiedKey), List.getLast?_concat, rfl, rfl, ?_⟩
    rw [hphase.2, List.map_append]
    rfl
  case storeNotAfter certificate certifiedKey =>
    obtain ⟨rfl, hsent⟩ := hphase
    exact ⟨(certificate, certifiedKey), hlast, hkey, rfl, hsent⟩
  case send certificate certifiedKey =>
    exact ⟨generation, hlast, hkey, hphase.1, by rw [hphase.2]⟩
  all_goals exact ⟨generation, hlast, hkey, hphase⟩

theorem Inv.drop (h : t.Inv) (hawaiting : t.IsAwaiting) : t.drop.Inv := by
  obtain ⟨generation, hlast, hkey, hphase⟩ := h
  rw [IsAwaiting] at hawaiting
  refine ⟨generation, hlast, hkey, ?_⟩
  rcases hp : t.phase with _ | _ | _ | _ | _ | _ | _ | _ <;> rw [hp] at hphase hawaiting
  all_goals first | exact hphase | exact absurd hawaiting id

theorem Inv.sent_eq (h : t.Inv) (hphase : ∀ c k, t.phase ≠ .storingKey c k) :
    t.sent = t.completed.map Prod.fst := by
  obtain ⟨generation, -, -, hsent⟩ := h
  rcases hp : t.phase with _ | _ | _ | _ | ⟨c, k⟩ | _ | _ | _ <;> rw [hp] at hsent
  case storingKey => exact absurd hp (hphase c k)
  all_goals exact hsent.2

/-- Only the two stores change what is stored. -/
theorem certResolver_eq_of_step (hstep : Step (t, q) (t', q'))
    (hkey : ∀ c k, t.phase ≠ .storingKey c k) (hnotAfter : ∀ c k, t.phase ≠ .storingNotAfter c k) :
    t'.certResolver = t.certResolver := by
  rcases hstep with _ | _ | _ | _ | _ | _ | _ | _ | _ | _ | hp | hp
  case storeKey => exact absurd hp (hkey _ _)
  case storeNotAfter => exact absurd hp (hnotAfter _ _)
  all_goals rfl

/-- After the key the expiry is stored. -/
theorem step_of_storingKey {certificate : L.Certificate} {certifiedKey : L.CertifiedKey}
    (hstep : Step (t, q) (t', q')) (hphase : t.phase = .storingKey certificate certifiedKey) :
    t'.phase = .storingNotAfter certificate certifiedKey ∧
      t'.certResolver.currentCertifiedKey = certifiedKey ∧
      t'.completed = t.completed ++ [(certificate, certifiedKey)] := by
  rcases hstep with hp | hp | hp | ⟨-, -, hp, -⟩ | hp | hp | hp | ⟨-, -, hp⟩ | ⟨hp, -⟩ | hp | hp |
    hp
  all_goals rw [hphase] at hp
  case storeKey =>
    obtain ⟨rfl, rfl⟩ := TlsPhase.storingKey.inj hp
    exact ⟨rfl, rfl, rfl⟩
  all_goals exact absurd hp (by simp)

/-- With the expiry a rotation is over. -/
theorem step_of_storingNotAfter {certificate : L.Certificate} {certifiedKey : L.CertifiedKey}
    (hstep : Step (t, q) (t', q')) (hphase : t.phase = .storingNotAfter certificate certifiedKey) :
    t'.phase = .accepting ∧
      t'.certResolver.currentCertifiedKey = t.certResolver.currentCertifiedKey := by
  rcases hstep with hp | hp | hp | ⟨-, -, hp, -⟩ | hp | hp | hp | ⟨-, -, hp⟩ | ⟨hp, -⟩ | hp | hp |
    hp
  all_goals rw [hphase] at hp
  case storeNotAfter => exact ⟨rfl, rfl⟩
  all_goals exact absurd hp (by simp)

/-- **The certificates of completed generations** were sent, in order. -/
theorem Inv.isPrefix (h : t.Inv) : t.completed.map Prod.fst <+: t.sent := by
  obtain ⟨generation, -, -, hphase⟩ := h
  rcases hp : t.phase with _ | _ | _ | _ | _ | _ | _ | _ <;> rw [hp] at hphase
  all_goals
    first | exact hphase.2 ▸ List.prefix_rfl | exact hphase.2 ▸ List.prefix_append _ _

end TlsServer

end WebhookServer

end StackableOperator
