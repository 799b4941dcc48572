import Mathlib
import StackableOperator.Webhook.Tls

/-!
# The certificate update loop of webhooks

The task that receives new certificates and passes them to the webhooks, in steps between which
other tasks may run. A webhook patches its resources with the CA bundle of the certificate; a
conversion webhook then signals once that its CRDs are there.

`UpdatePhase.Inv` says which certificates a webhook has handled at which points.
-/

namespace StackableOperator

namespace WebhookServer

/-- The bytes of a PEM envelope. -/
abbrev CaBundle : Type := List UInt8

/-! ### The model of the source -/

/-- A webhook, as far as certificate rotations are concerned. -/
structure Webhook where
  ignoreCertificateRotation : Bool
  /-- The names of the resources that have the CA bundle, in the order of their patches. -/
  resources : List String
  /-- The sender of the initial reconcile signal has not been used. -/
  initialReconcileTx : Bool
  /-- The bundles that were handled. -/
  handled : List CaBundle
  /-- The patches that succeeded. -/
  patched : List (String × CaBundle)
  /-- The bundles after which the initial reconcile signal was sent. -/
  signals : List CaBundle

/-- The webhooks of the operators. -/
inductive WebhookOptions : Type
  | conversion (disableCrdMaintenance : Bool) (crds : List String)
  | mutating (disableMwcMaintenance : Bool) (mutatingWebhookConfiguration : String)

def WebhookOptions.new : WebhookOptions → Webhook
  | conversion disableCrdMaintenance crds => ⟨disableCrdMaintenance, crds, true, [], [], []⟩
  | mutating disableMwcMaintenance mutatingWebhookConfiguration =>
    ⟨disableMwcMaintenance, [mutatingWebhookConfiguration], false, [], [], []⟩

namespace Webhook

/-- A resource is patched. -/
def patch (self : Webhook) (resource : String) (caBundle : CaBundle) : Webhook :=
  { self with patched := self.patched ++ [(resource, caBundle)] }

/-- All resources are patched. The sender is taken, and its signal sent. -/
def finish (self : Webhook) (caBundle : CaBundle) : Webhook :=
  { self with
    initialReconcileTx := false
    handled := self.handled ++ [caBundle]
    signals := if self.initialReconcileTx then self.signals ++ [caBundle] else self.signals }

end Webhook

inductive UpdateError : Type
  | encodeCertificateAuthorityAsPem
  | updateCertificate
  deriving DecidableEq

/-- Where the update loop is. -/
inductive UpdatePhase (L : CertificateLibrary) : Type
  | receiving (webhooks : List Webhook)
  | encoding (certificate : L.Certificate) (webhooks : List Webhook)
  /-- Between two webhooks. -/
  | iterating (caBundle : CaBundle) (done todo : List Webhook)
  /-- In `handle_certificate_rotation`, with the resources that are left. -/
  | handling (caBundle : CaBundle) (done : List Webhook) (webhook : Webhook)
    (todo : List Webhook) (resources : List String)
  | finished (result : Except UpdateError Unit) (webhooks : List Webhook)
  | dropped (webhooks : List Webhook)

namespace UpdatePhase

variable {L : CertificateLibrary}

def webhooks : UpdatePhase L → List Webhook
  | receiving webhooks => webhooks
  | encoding _ webhooks => webhooks
  | iterating _ done todo => done ++ todo
  | handling _ done webhook todo _ => done ++ webhook :: todo
  | finished _ webhooks => webhooks
  | dropped webhooks => webhooks

def drop (self : UpdatePhase L) : UpdatePhase L := .dropped self.webhooks

/-- What the update loop works on: where it is, the channel, and all certificates that it
received. -/
structure Local (L : CertificateLibrary) where
  phase : UpdatePhase L
  channel : List L.Certificate
  received : List L.Certificate

/-- The steps of the update loop. The channel may be closed. -/
inductive Step (closed : Prop) : Local L → Local L → Prop
  | recv {webhooks certificate q r} : Step closed
    ⟨.receiving webhooks, certificate :: q, r⟩
    ⟨.encoding certificate webhooks, q, r ++ [certificate]⟩
  | recvNone {webhooks r} : closed → Step closed
    ⟨.receiving webhooks, [], r⟩ ⟨.finished (.ok ()) webhooks, [], r⟩
  | toPem {webhooks certificate caBundle q r} : L.toPem certificate = some caBundle → Step closed
    ⟨.encoding certificate webhooks, q, r⟩ ⟨.iterating caBundle [] webhooks, q, r⟩
  | toPemFailed {webhooks certificate q r} : L.toPem certificate = none → Step closed
    ⟨.encoding certificate webhooks, q, r⟩
    ⟨.finished (.error .encodeCertificateAuthorityAsPem) webhooks, q, r⟩
  | skip {caBundle done webhook todo q r} : webhook.ignoreCertificateRotation = true → Step closed
    ⟨.iterating caBundle done (webhook :: todo), q, r⟩
    ⟨.iterating caBundle (done ++ [webhook]) todo, q, r⟩
  | handle {caBundle done webhook todo q r} : webhook.ignoreCertificateRotation = false →
    Step closed
      ⟨.iterating caBundle done (webhook :: todo), q, r⟩
      ⟨.handling caBundle done webhook todo webhook.resources, q, r⟩
  | patch {caBundle done webhook todo resource resources q r} : Step closed
    ⟨.handling caBundle done webhook todo (resource :: resources), q, r⟩
    ⟨.handling caBundle done (webhook.patch resource caBundle) todo resources, q, r⟩
  | patchFailed {caBundle done webhook todo resource resources q r} : Step closed
    ⟨.handling caBundle done webhook todo (resource :: resources), q, r⟩
    ⟨.finished (.error .updateCertificate) (done ++ webhook :: todo), q, r⟩
  | finish {caBundle done webhook todo q r} : Step closed
    ⟨.handling caBundle done webhook todo [], q, r⟩
    ⟨.iterating caBundle (done ++ [webhook.finish caBundle]) todo, q, r⟩
  | next {caBundle done q r} : Step closed
    ⟨.iterating caBundle done [], q, r⟩ ⟨.receiving done, q, r⟩

end UpdatePhase

/-! ### What webhooks have handled -/

/-- The webhook has handled the first `n` bundles, unless it ignores rotations. -/
def Webhook.HasHandled (webhook : Webhook) (pems : List (Option CaBundle)) (n : ℕ) : Prop :=
  webhook.ignoreCertificateRotation = false → webhook.handled.map some = pems.take n

/-- The initial reconcile signal is sent at most once, and after all resources were patched with a
handled bundle. -/
structure Webhook.SignalsOnce (webhook : Webhook) : Prop where
  eq_nil : webhook.initialReconcileTx = true → webhook.signals = []
  length_le : webhook.signals.length ≤ 1
  patched : ∀ caBundle ∈ webhook.signals, caBundle ∈ webhook.handled ∧
    ∀ resource ∈ webhook.resources, (resource, caBundle) ∈ webhook.patched

namespace UpdatePhase

variable {L : CertificateLibrary}

/-- All webhooks have handled all bundles, except those that are still to handle the last one. -/
def Inv (received : List L.Certificate) (phase : UpdatePhase L) : Prop :=
  let pems := received.map L.toPem
  match phase with
  | receiving webhooks => ∀ webhook ∈ webhooks, webhook.HasHandled pems pems.length
  | encoding certificate webhooks => pems.getLast? = some (L.toPem certificate) ∧
    ∀ webhook ∈ webhooks, webhook.HasHandled pems (pems.length - 1)
  | iterating caBundle done todo => pems.getLast? = some (some caBundle) ∧
    (∀ webhook ∈ done, webhook.HasHandled pems pems.length) ∧
      ∀ webhook ∈ todo, webhook.HasHandled pems (pems.length - 1)
  | handling caBundle done webhook todo resources => pems.getLast? = some (some caBundle) ∧
    (∀ webhook ∈ done, webhook.HasHandled pems pems.length) ∧
      (∀ w ∈ webhook :: todo, w.HasHandled pems (pems.length - 1)) ∧
        ∀ resource ∈ webhook.resources,
          resource ∈ resources ∨ (resource, caBundle) ∈ webhook.patched
  | finished _ webhooks | dropped webhooks => ∀ webhook ∈ webhooks,
    webhook.HasHandled pems pems.length ∨ webhook.HasHandled pems (pems.length - 1)

end UpdatePhase

namespace Webhook

variable {webhook : Webhook} {pems : List (Option CaBundle)} {caBundle : CaBundle}

/-- A webhook that has handled all bundles lacks a new one. -/
theorem HasHandled.concat (h : webhook.HasHandled pems pems.length) (pem : Option CaBundle) :
    webhook.HasHandled (pems ++ [pem]) ((pems ++ [pem]).length - 1) := by
  intro hignore
  rw [h hignore, List.take_length, List.length_append, List.length_singleton,
    Nat.add_sub_cancel, List.take_left']
  rfl

/-- A webhook that has handled all bundles but the last one handles the last one. -/
theorem HasHandled.finish (h : webhook.HasHandled pems (pems.length - 1))
    (hlast : pems.getLast? = some (some caBundle)) :
    (webhook.finish caBundle).HasHandled pems pems.length := by
  intro hignore
  have hhandled : (webhook.finish caBundle).handled.map some =
      webhook.handled.map some ++ [some caBundle] := by
    rw [Webhook.finish, List.map_append]
    rfl
  rw [hhandled, h hignore, List.take_length, ← List.dropLast_eq_take]
  exact List.dropLast_append_getLast? _ hlast

theorem hasHandled_of_ignore (h : webhook.ignoreCertificateRotation = true) (n : ℕ) :
    webhook.HasHandled pems n := by
  intro hignore
  exact absurd (h.symm.trans hignore) (by simp)

theorem signalsOnce_new (options : WebhookOptions) : options.new.SignalsOnce := by
  rcases options with _ | _ <;>
    exact ⟨fun _ => rfl, Nat.zero_le 1, fun _ h => absurd h List.not_mem_nil⟩

theorem SignalsOnce.patch (h : webhook.SignalsOnce) (resource : String) :
    (webhook.patch resource caBundle).SignalsOnce := by
  refine ⟨h.eq_nil, h.length_le, ?_⟩
  intro b hb
  obtain ⟨hhandled, hpatched⟩ := h.patched b hb
  exact ⟨hhandled, fun r hr => List.mem_append_left _ (hpatched r hr)⟩

theorem SignalsOnce.finish (h : webhook.SignalsOnce)
    (hpatched : ∀ resource ∈ webhook.resources, (resource, caBundle) ∈ webhook.patched) :
    (webhook.finish caBundle).SignalsOnce := by
  have hold : ∀ b ∈ webhook.signals, b ∈ (webhook.finish caBundle).handled ∧
      ∀ resource ∈ webhook.resources, (resource, b) ∈ webhook.patched := by
    intro b hb
    obtain ⟨hhandled, hpatched⟩ := h.patched b hb
    exact ⟨List.mem_append_left _ hhandled, hpatched⟩
  rcases htx : webhook.initialReconcileTx with _ | _
  · have hsignals : (webhook.finish caBundle).signals = webhook.signals := by
      simp [Webhook.finish, htx]
    refine ⟨fun hfalse => absurd hfalse (by simp [Webhook.finish]), ?_, ?_⟩
    · rw [hsignals]
      exact h.length_le
    · rw [hsignals]
      exact hold
  · have hsignals : (webhook.finish caBundle).signals = [caBundle] := by
      simp [Webhook.finish, htx, h.eq_nil htx]
    refine ⟨fun hfalse => absurd hfalse (by simp [Webhook.finish]), ?_, ?_⟩
    · rw [hsignals]
      rfl
    · rw [hsignals]
      intro b hb
      rw [List.mem_singleton.mp hb]
      exact ⟨List.mem_append_right _ List.mem_cons_self, hpatched⟩

end Webhook

namespace UpdatePhase

variable {L : CertificateLibrary} {s s' : Local L} {closed : Prop}

theorem Inv.step (h : Inv s.received s.phase) (hstep : Step closed s s') :
    Inv s'.received s'.phase := by
  rcases hstep with _ | _ | hpem | _ | hignore | hignore | _ | _ | _ | _
  case recv webhooks certificate q r =>
    refine ⟨by simp, ?_⟩
    intro webhook hwebhook
    have hconcat := (h webhook hwebhook).concat (L.toPem certificate)
    simpa using hconcat
  case recvNone webhooks r _ => exact fun webhook hwebhook => Or.inl (h webhook hwebhook)
  case toPem webhooks certificate caBundle q r =>
    obtain ⟨hlast, hwebhooks⟩ := h
    rw [hpem] at hlast
    exact ⟨hlast, by simp, hwebhooks⟩
  case toPemFailed => exact fun webhook hwebhook => Or.inr (h.2 webhook hwebhook)
  case skip caBundle done webhook todo q r =>
    obtain ⟨hlast, hdone, htodo⟩ := h
    refine ⟨hlast, ?_, fun w hw => htodo w (List.mem_cons_of_mem _ hw)⟩
    rw [List.forall_mem_append, List.forall_mem_singleton]
    exact ⟨hdone, Webhook.hasHandled_of_ignore hignore _⟩
  case handle caBundle done webhook todo q r =>
    obtain ⟨hlast, hdone, htodo⟩ := h
    exact ⟨hlast, hdone, htodo, fun resource hresource => Or.inl hresource⟩
  case patch caBundle done webhook todo resource resources q r =>
    obtain ⟨hlast, hdone, htodo, hpatched⟩ := h
    refine ⟨hlast, hdone, ?_, ?_⟩
    · rw [List.forall_mem_cons] at htodo ⊢
      exact htodo
    · intro r hr
      rcases hpatched r hr with hmem | hmem
      · rcases List.mem_cons.mp hmem with rfl | hmem
        · exact Or.inr (List.mem_append_right _ List.mem_cons_self)
        · exact Or.inl hmem
      · exact Or.inr (List.mem_append_left _ hmem)
  case patchFailed =>
    obtain ⟨-, hdone, htodo, -⟩ := h
    intro w hw
    rcases List.mem_append.mp hw with hw | hw
    · exact Or.inl (hdone w hw)
    · exact Or.inr (htodo w hw)
  case finish caBundle done webhook todo q r =>
    obtain ⟨hlast, hdone, htodo, -⟩ := h
    rw [List.forall_mem_cons] at htodo
    refine ⟨hlast, ?_, htodo.2⟩
    rw [List.forall_mem_append, List.forall_mem_singleton]
    exact ⟨hdone, htodo.1.finish hlast⟩
  case next => exact h.2.1

/-- In all phases, a webhook lacks at most the last bundle. -/
theorem Inv.hasHandled {received : List L.Certificate} {phase : UpdatePhase L}
    (h : Inv received phase) : ∀ webhook ∈ phase.webhooks,
      webhook.HasHandled (received.map L.toPem) (received.map L.toPem).length ∨
        webhook.HasHandled (received.map L.toPem) ((received.map L.toPem).length - 1) := by
  rcases phase with webhooks | ⟨certificate, webhooks⟩ | ⟨caBundle, done, todo⟩ |
    ⟨caBundle, done, webhook, todo, resources⟩ | ⟨result, webhooks⟩ | webhooks
  · exact fun w hw => Or.inl (h w hw)
  · exact fun w hw => Or.inr (h.2 w hw)
  · intro w hw
    rcases List.mem_append.mp hw with hw | hw
    · exact Or.inl (h.2.1 w hw)
    · exact Or.inr (h.2.2 w hw)
  · intro w hw
    rcases List.mem_append.mp hw with hw | hw
    · exact Or.inl (h.2.1 w hw)
    · exact Or.inr (h.2.2.1 w hw)
  · exact h
  · exact h

theorem Inv.drop {received : List L.Certificate} {phase : UpdatePhase L}
    (h : Inv received phase) : Inv received phase.drop := h.hasHandled

/-- The signals of all webhooks are right. -/
theorem signalsOnce_step (hinv : Inv s.received s.phase) (hstep : Step closed s s')
    (h : ∀ webhook ∈ s.phase.webhooks, webhook.SignalsOnce) :
    ∀ webhook ∈ s'.phase.webhooks, webhook.SignalsOnce := by
  rcases hstep with _ | _ | _ | _ | _ | _ | _ | _ | _ | _
  case patch caBundle done webhook todo resource resources q r =>
    simp only [webhooks, List.forall_mem_append, List.forall_mem_cons] at h ⊢
    exact ⟨h.1, h.2.1.patch resource, h.2.2⟩
  case finish caBundle done webhook todo q r =>
    obtain ⟨-, -, -, hpatched⟩ := hinv
    simp only [webhooks, List.forall_mem_append, List.forall_mem_cons] at h ⊢
    refine ⟨⟨h.1, h.2.1.finish ?_, by simp⟩, h.2.2⟩
    intro resource hresource
    exact (hpatched resource hresource).resolve_left List.not_mem_nil
  all_goals simpa [webhooks] using h

end UpdatePhase

end WebhookServer

end StackableOperator
