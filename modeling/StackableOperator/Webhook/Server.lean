import Mathlib
import StackableOperator.Webhook.CertUpdateLoop

/-!
# The webhook server

The TLS server and the update loop, joined in one future and connected by a channel. Their steps
interleave in any order; an error of the one drops the other.

`handOver_of_reachable` says what holds after every run: webhooks handle all certificates in
order, the served key belongs to a certificate that was sent before, and the expiry that decides
about rotations belongs to the served key.
-/

namespace StackableOperator

namespace WebhookServer

open Relation

/-! ### The model of the source -/

structure State (L : CertificateLibrary) where
  tlsServer : TlsServer L
  /-- The certificates in the channel. -/
  channel : List L.Certificate
  certUpdateLoop : UpdatePhase L
  /-- The certificates that the update loop received. -/
  received : List L.Certificate

namespace State

variable {L : CertificateLibrary}

/-- The server after `new`, which generates the first certificate. Without webhooks it is not run.
-/
def new (webhooks : List WebhookOptions) (certificate : L.Certificate)
    (certifiedKey : L.CertifiedKey) : State L where
  tlsServer :=
    if webhooks.isEmpty then
      { TlsServer.new certificate certifiedKey with phase := .finished (.ok ()) }
    else TlsServer.new certificate certifiedKey
  channel := [certificate]
  certUpdateLoop :=
    if webhooks.isEmpty then .finished (.ok ()) []
    else .receiving (webhooks.map WebhookOptions.new)
  received := []

/-- The TLS server is gone, and with it the sender of the channel. -/
def IsClosed (s : State L) : Prop :=
  match s.tlsServer.phase with
  | .finished _ | .dropped => True
  | _ => False

/-- What the update loop works on. -/
def updateLocal (s : State L) : UpdatePhase.Local L := ⟨s.certUpdateLoop, s.channel, s.received⟩

/-- The steps of the joined futures. -/
inductive Step : State L → State L → Prop
  | tlsServer {s tlsServer channel} :
    TlsServer.Step (s.tlsServer, s.channel) (tlsServer, channel) →
      Step s { s with tlsServer := tlsServer, channel := channel }
  | certUpdateLoop {s phase channel received} :
    UpdatePhase.Step s.IsClosed s.updateLocal ⟨phase, channel, received⟩ →
      Step s { s with certUpdateLoop := phase, channel := channel, received := received }
  | dropTlsServer {s e webhooks} : s.certUpdateLoop = .finished (.error e) webhooks →
    s.tlsServer.IsAwaiting → Step s { s with tlsServer := s.tlsServer.drop }
  | dropCertUpdateLoop {s e} : s.tlsServer.phase = .finished (.error e) →
    Step s { s with certUpdateLoop := s.certUpdateLoop.drop }

def webhooks (s : State L) : List Webhook := s.certUpdateLoop.webhooks

/-! ### The hand-over -/

/-- In a rotation that has started and is not over. -/
def IsRotating (s : State L) : Prop :=
  match s.tlsServer.phase with
  | .generating _ | .sending _ _ | .storingKey _ _ | .storingNotAfter _ _ => True
  | _ => False

/-- The states of a rotation, and the state in which it ends. -/
inductive Rotating (s₀ : State L) : State L → Prop
  | start {s} : s₀.tlsServer.phase = .accepting → Step s₀ s →
    s.tlsServer.phase = .generating generationStages → Rotating s₀ s
  | step {s s'} : Rotating s₀ s → s.IsRotating → Step s s' → Rotating s₀ s'

/-- What holds of the hand-over of certificates to webhooks. -/
structure HandOver (s : State L) : Prop where
  /-- Webhooks handle the certificates that were sent, in order. -/
  handled_isPrefix : ∀ webhook ∈ s.webhooks, webhook.ignoreCertificateRotation = false →
    webhook.handled.map some <+: s.tlsServer.sent.map L.toPem
  /-- Two webhooks differ by at most one bundle. -/
  length_handled_le : ∀ webhook ∈ s.webhooks, ∀ webhook' ∈ s.webhooks,
    webhook.ignoreCertificateRotation = false → webhook'.ignoreCertificateRotation = false →
      webhook.handled.length ≤ webhook'.handled.length + 1
  /-- The served key belongs to the last completed generation, and completed generations were
  sent. -/
  served : (∃ generation, s.tlsServer.completed.getLast? = some generation ∧
      s.tlsServer.certResolver.currentCertifiedKey = generation.2) ∧
    s.tlsServer.completed.map Prod.fst <+: s.tlsServer.sent
  /-- Every certificate that was sent is that of a completed generation, unless its key is about to
  be stored. -/
  sent_eq : (∀ c k, s.tlsServer.phase ≠ .storingKey c k) →
    s.tlsServer.sent = s.tlsServer.completed.map Prod.fst
  /-- Before a key is served for the first time its certificate was put on the channel. -/
  first_served : ∀ s', Step s s' → s'.tlsServer.certResolver.currentCertifiedKey ≠
      s.tlsServer.certResolver.currentCertifiedKey →
    ∃ generation, s'.tlsServer.completed = s.tlsServer.completed ++ [generation] ∧
      s'.tlsServer.certResolver.currentCertifiedKey = generation.2 ∧
      s.tlsServer.sent.getLast? = some generation.1
  /-- Where the expiry is checked, it belongs to the served key. -/
  needsRotation : s.tlsServer.phase = .accepting → ∃ generation,
    s.tlsServer.completed.getLast? = some generation ∧
      s.tlsServer.certResolver = ⟨generation.2, L.notAfter generation.1⟩
  /-- A failed rotation changes neither the key nor the expiry. -/
  failed_rotation : ∀ s', Rotating s s' →
    (∃ e, s'.tlsServer.phase = .finished (.error (.rotateCertificate e))) →
      s'.tlsServer.certResolver = s.tlsServer.certResolver
  /-- The initial reconcile signal is sent at most once, after all patches with a handled bundle. -/
  signalsOnce : ∀ webhook ∈ s.webhooks, webhook.SignalsOnce

/-- The invariant of the joined futures. -/
structure Inv (s : State L) : Prop where
  tlsServer : s.tlsServer.Inv
  length_channel_le : s.channel.length ≤ channelCapacity
  sent_eq : s.tlsServer.sent = s.received ++ s.channel
  certUpdateLoop : UpdatePhase.Inv s.received s.certUpdateLoop
  signalsOnce : ∀ webhook ∈ s.webhooks, webhook.SignalsOnce

variable {s s' s₀ : State L}

theorem inv_new (webhooks : List WebhookOptions) (certificate : L.Certificate)
    (certifiedKey : L.CertifiedKey) : (new webhooks certificate certifiedKey).Inv := by
  rcases webhooks with _ | ⟨options, webhooks⟩
  · exact ⟨TlsServer.inv_new certificate certifiedKey, le_rfl, rfl,
      fun webhook h => absurd h List.not_mem_nil, fun webhook h => absurd h List.not_mem_nil⟩
  · have hnew : ∀ webhook ∈ (options :: webhooks).map WebhookOptions.new,
        ∃ options, webhook = WebhookOptions.new options := by
      intro webhook h
      obtain ⟨options, -, rfl⟩ := List.mem_map.mp h
      exact ⟨options, rfl⟩
    refine ⟨TlsServer.inv_new certificate certifiedKey, le_rfl, rfl, ?_, ?_⟩
    · intro webhook h _
      obtain ⟨options, rfl⟩ := hnew webhook h
      rcases options <;> rfl
    · intro webhook h
      obtain ⟨options, rfl⟩ := hnew webhook h
      exact Webhook.signalsOnce_new options

/-- A step of the TLS server sends at most one certificate, and only into a free channel. -/
theorem sent_eq_of_step {t t' : TlsServer L} {q q' received : List L.Certificate}
    (hstep : TlsServer.Step (t, q) (t', q')) (hlength : q.length ≤ channelCapacity)
    (hsent : t.sent = received ++ q) :
    q'.length ≤ channelCapacity ∧ t'.sent = received ++ q' := by
  rcases hstep
  case send certificate certifiedKey hlt _ =>
    refine ⟨?_, ?_⟩
    · rw [List.length_append, List.length_singleton]
      omega
    · rw [hsent, List.append_assoc]
  all_goals exact ⟨hlength, hsent⟩

/-- A step of the update loop receives at most one certificate, the first one of the channel. -/
theorem received_append_channel {l l' : UpdatePhase.Local L} {closed : Prop}
    (hstep : UpdatePhase.Step closed l l') :
    l'.received ++ l'.channel = l.received ++ l.channel ∧
      l'.channel.length ≤ l.channel.length := by
  rcases hstep
  case recv webhooks certificate q r =>
    exact ⟨List.append_assoc _ _ _, Nat.le_succ _⟩
  all_goals exact ⟨rfl, le_rfl⟩

theorem Inv.step (h : s.Inv) (hstep : Step s s') : s'.Inv := by
  rcases hstep with hstep | hstep | ⟨-, hawaiting⟩ | -
  · obtain ⟨hlength, hsent⟩ := sent_eq_of_step hstep h.length_channel_le h.sent_eq
    exact ⟨h.tlsServer.step hstep, hlength, hsent, h.certUpdateLoop, h.signalsOnce⟩
  · obtain ⟨happend, hlength⟩ := received_append_channel hstep
    exact ⟨h.tlsServer, hlength.trans h.length_channel_le, h.sent_eq.trans happend.symm,
      UpdatePhase.Inv.step h.certUpdateLoop hstep,
      UpdatePhase.signalsOnce_step h.certUpdateLoop hstep h.signalsOnce⟩
  · exact ⟨h.tlsServer.drop hawaiting, h.length_channel_le, h.sent_eq, h.certUpdateLoop,
      h.signalsOnce⟩
  · exact ⟨h.tlsServer, h.length_channel_le, h.sent_eq, h.certUpdateLoop.drop, h.signalsOnce⟩

theorem Inv.run (h : s₀.Inv) (hrun : ReflTransGen Step s₀ s) : s.Inv := by
  induction hrun with
  | refl => exact h
  | tail _ hstep ih => exact ih.step hstep

/-- The bundles of a webhook, in terms of all received certificates. -/
theorem Inv.handled_eq (h : s.Inv) {webhook : Webhook} (hwebhook : webhook ∈ s.webhooks)
    (hignore : webhook.ignoreCertificateRotation = false) :
    ∃ n, (n = s.received.length ∨ n = s.received.length - 1) ∧
      webhook.handled.map some = (s.received.map L.toPem).take n := by
  rcases h.certUpdateLoop.hasHandled webhook hwebhook with hhandled | hhandled
  · exact ⟨_, Or.inl (List.length_map _), hhandled hignore⟩
  · exact ⟨_, Or.inr (by rw [List.length_map]), hhandled hignore⟩

/-- What a step does to the TLS server. -/
theorem step_cases (hstep : Step s s') : s'.tlsServer = s.tlsServer ∨
    (∃ channel, TlsServer.Step (s.tlsServer, s.channel) (s'.tlsServer, channel)) ∨
      s.tlsServer.IsAwaiting ∧ s'.tlsServer = s.tlsServer.drop := by
  rcases hstep with hstep | _ | ⟨-, hawaiting⟩ | _
  · exact Or.inr (Or.inl ⟨_, hstep⟩)
  · exact Or.inl rfl
  · exact Or.inr (Or.inr ⟨hawaiting, rfl⟩)
  · exact Or.inl rfl

theorem certResolver_eq_of_step (hstep : Step s s')
    (hkey : ∀ c k, s.tlsServer.phase ≠ .storingKey c k)
    (hnotAfter : ∀ c k, s.tlsServer.phase ≠ .storingNotAfter c k) :
    s'.tlsServer.certResolver = s.tlsServer.certResolver := by
  rcases step_cases hstep with heq | ⟨channel, htls⟩ | ⟨-, hdrop⟩
  · rw [heq]
  · exact TlsServer.certResolver_eq_of_step htls hkey hnotAfter
  · rw [hdrop, TlsServer.drop]

/-- A rotation leaves the stored key and expiry alone until it stores the new ones, and then it
does not fail. -/
theorem Rotating.certResolver_eq (h : Rotating s₀ s)
    (haccepting : s.tlsServer.phase ≠ .accepting)
    (hstoring : ∀ c k, s.tlsServer.phase ≠ .storingNotAfter c k) :
    s.tlsServer.certResolver = s₀.tlsServer.certResolver := by
  induction h with
  | start hphase hstep _ =>
    exact certResolver_eq_of_step hstep (by simp [hphase]) (by simp [hphase])
  | @step s s' hrotating hIsRotating hstep ih =>
    rw [IsRotating] at hIsRotating
    rcases hphase : s.tlsServer.phase with _ | _ | _ | _ | ⟨c, k⟩ | ⟨c, k⟩ | _ | _
    case generating =>
      rw [certResolver_eq_of_step hstep (by simp [hphase]) (by simp [hphase])]
      exact ih (by simp [hphase]) (by simp [hphase])
    case sending =>
      rw [certResolver_eq_of_step hstep (by simp [hphase]) (by simp [hphase])]
      exact ih (by simp [hphase]) (by simp [hphase])
    case storingKey =>
      rcases step_cases hstep with heq | ⟨channel, htls⟩ | ⟨hawaiting, -⟩
      · rw [heq]
        exact ih (by simp [hphase]) (by simp [hphase])
      · exact absurd (TlsServer.step_of_storingKey htls hphase).1 (hstoring c k)
      · rw [TlsServer.IsAwaiting, hphase] at hawaiting
        exact absurd hawaiting id
    case storingNotAfter =>
      rcases step_cases hstep with heq | ⟨channel, htls⟩ | ⟨hawaiting, -⟩
      · exact absurd (heq ▸ hphase) (hstoring c k)
      · exact absurd (TlsServer.step_of_storingNotAfter htls hphase).1 haccepting
      · rw [TlsServer.IsAwaiting, hphase] at hawaiting
        exact absurd hawaiting id
    all_goals
      rw [hphase] at hIsRotating
      exact absurd hIsRotating id

/-- A key is served once its generation has sent its certificate. -/
theorem Inv.first_served (h : s.Inv) (hstep : Step s s')
    (hne : s'.tlsServer.certResolver.currentCertifiedKey ≠
      s.tlsServer.certResolver.currentCertifiedKey) :
    ∃ generation, s'.tlsServer.completed = s.tlsServer.completed ++ [generation] ∧
      s'.tlsServer.certResolver.currentCertifiedKey = generation.2 ∧
      s.tlsServer.sent.getLast? = some generation.1 := by
  by_cases hstoring : ∃ c k, s.tlsServer.phase = .storingKey c k
  · obtain ⟨certificate, certifiedKey, hphase⟩ := hstoring
    rcases step_cases hstep with heq | ⟨channel, htls⟩ | ⟨-, hdrop⟩
    · exact absurd (by rw [heq]) hne
    · obtain ⟨-, hkey, hcompleted⟩ := TlsServer.step_of_storingKey htls hphase
      refine ⟨(certificate, certifiedKey), hcompleted, hkey, ?_⟩
      obtain ⟨_, -, -, hsent⟩ := h.tlsServer
      rw [hphase] at hsent
      rw [hsent.2, List.getLast?_concat]
    · exact absurd (by rw [hdrop, TlsServer.drop]) hne
  · by_cases hnotAfter : ∃ c k, s.tlsServer.phase = .storingNotAfter c k
    · obtain ⟨certificate, certifiedKey, hphase⟩ := hnotAfter
      rcases step_cases hstep with heq | ⟨channel, htls⟩ | ⟨-, hdrop⟩
      · exact absurd (by rw [heq]) hne
      · exact absurd (TlsServer.step_of_storingNotAfter htls hphase).2 hne
      · exact absurd (by rw [hdrop, TlsServer.drop]) hne
    · push Not at hstoring hnotAfter
      exact absurd (by rw [certResolver_eq_of_step hstep hstoring hnotAfter]) hne

theorem Inv.handOver (h : s.Inv) : s.HandOver where
  handled_isPrefix := by
    intro webhook hwebhook hignore
    obtain ⟨n, -, hhandled⟩ := h.handled_eq hwebhook hignore
    rw [hhandled, h.sent_eq, List.map_append]
    exact (List.take_prefix n _).trans (List.prefix_append _ _)
  length_handled_le := by
    intro webhook hwebhook webhook' hwebhook' hignore hignore'
    obtain ⟨n, hn, hhandled⟩ := h.handled_eq hwebhook hignore
    obtain ⟨n', hn', hhandled'⟩ := h.handled_eq hwebhook' hignore'
    have hlength := congrArg List.length hhandled
    have hlength' := congrArg List.length hhandled'
    rw [List.length_map, List.length_take, List.length_map] at hlength hlength'
    omega
  served := by
    refine ⟨?_, h.tlsServer.isPrefix⟩
    obtain ⟨generation, hlast, hkey, -⟩ := h.tlsServer
    exact ⟨generation, hlast, hkey⟩
  sent_eq := h.tlsServer.sent_eq
  first_served := fun _ hstep hne => h.first_served hstep hne
  needsRotation := by
    intro hphase
    obtain ⟨generation, hlast, hkey, hnotAfter⟩ := h.tlsServer
    rw [hphase] at hnotAfter
    refine ⟨generation, hlast, ?_⟩
    rw [← hkey, ← hnotAfter.1]
  failed_rotation := by
    rintro s' hrotating ⟨e, hphase⟩
    exact hrotating.certResolver_eq (by simp [hphase]) (by simp [hphase])
  signalsOnce := h.signalsOnce

/-- **The hand-over of certificates**, after every run. -/
theorem handOver_of_reachable {options : List WebhookOptions} {certificate : L.Certificate}
    {certifiedKey : L.CertifiedKey}
    (hrun : ReflTransGen Step (new options certificate certifiedKey) s) : s.HandOver :=
  ((inv_new options certificate certifiedKey).run hrun).handOver

/-- Certificates and keys that are numbers. -/
def numberLibrary : CertificateLibrary where
  Certificate := ℕ
  CertifiedKey := ℕ
  notAfter := id
  toPem := fun certificate => some [UInt8.ofNat certificate]

/-- A conversion webhook that has patched its CRD with the first certificate. -/
def patchedState : State numberLibrary where
  tlsServer := { TlsServer.new (1 : ℕ) (1 : ℕ) with phase := .accepting }
  channel := []
  certUpdateLoop := .handling [1] []
    ((WebhookOptions.conversion false ["foos"]).new.patch "foos" [1]) [] []
  received := [(1 : ℕ)]

theorem handOver_patchedState : patchedState.HandOver := by
  have hbind : ReflTransGen Step
      (new (L := numberLibrary) [.conversion false ["foos"]] (1 : ℕ) (1 : ℕ)) _ :=
    .single (.tlsServer (.bind rfl))
  have hrecv := hbind.tail (.certUpdateLoop .recv)
  have hpem := hrecv.tail (.certUpdateLoop (.toPem rfl))
  have hhandle := hpem.tail (.certUpdateLoop (.handle rfl))
  have hpatch := hhandle.tail (.certUpdateLoop .patch)
  exact handOver_of_reachable (s := patchedState) hpatch

end State

end WebhookServer

end StackableOperator
