import Mathlib
import StackableOperator.ForMathlib.Traverse
import StackableOperator.Shared.Duration

/-!
# Probes

`ProbeBuilder` builds a probe from durations. Its type parameters say whether the action and the
period have been given; only with both of them a probe can be built. The threshold for a requested
duration is the number of periods that it takes, rounded up, and `build` rounds the period itself
down to whole seconds, as all durations of a probe.

* `build_eq_ok` and `withThresholdDuration_eq_ok` say what is built: the period in seconds, the
  thresholds, and the threshold for a duration.
* `HonoursDuration` is what a caller expects of the built probe: it lasts as long as requested, and
  with one period less it would not.
* `ProbeBuilder.thresholds_honour_iff` says when this is so: the duration is longer than `n` periods
  and not longer than `n + 1` truncated ones, for some `n`. Every positive duration meets this when
  the period is a positive number of whole seconds (`lastsTruncatedPeriods_of_whole_seconds`).

Both roundings are to blame when it fails. A period with a fraction of a second counts in full when
the periods are counted, but it passes without its fraction.
-/

namespace StackableOperator

/-! ### Probes and their actions -/

inductive IntOrString : Type
  | int (value : ℤ)
  | string (value : String)
  deriving DecidableEq, Repr

structure ExecAction where
  command : Option (List String) := none
  deriving DecidableEq, Repr

structure GRPCAction where
  port : ℤ
  service : Option String := none
  deriving DecidableEq, Repr

structure HTTPHeader where
  name : String
  value : String
  deriving DecidableEq, Repr

structure HTTPGetAction where
  host : Option String := none
  httpHeaders : Option (List HTTPHeader) := none
  path : Option String := none
  port : IntOrString
  scheme : Option String := none
  deriving DecidableEq, Repr

structure TCPSocketAction where
  host : Option String := none
  port : IntOrString
  deriving DecidableEq, Repr

/-- What a probe does. Only one of these can be configured at a time. -/
inductive ProbeAction : Type
  | exec (execAction : ExecAction)
  | grpc (grpcAction : GRPCAction)
  | httpGet (httpGetAction : HTTPGetAction)
  | tcpSocket (tcpSocketAction : TCPSocketAction)
  deriving DecidableEq, Repr

/-- The probe of a container, as Kubernetes has it: the four actions are four optional fields. -/
structure Probe where
  exec : Option ExecAction
  failureThreshold : Option ℤ
  grpc : Option GRPCAction
  httpGet : Option HTTPGetAction
  initialDelaySeconds : Option ℤ
  periodSeconds : Option ℤ
  successThreshold : Option ℤ
  tcpSocket : Option TCPSocketAction
  terminationGracePeriodSeconds : Option ℤ
  timeoutSeconds : Option ℤ
  deriving DecidableEq, Repr

/-! ### The builder -/

def i32Max : ℕ := 2 ^ 31 - 1

def i64Max : ℕ := 2 ^ 63 - 1

/-- Why a probe is not built: the seconds of a duration do not fit into the type of the field, or a
threshold would be a division by zero. -/
inductive ProbeError : Type
  | durationTooLong (field : String) (duration : Duration)
  | periodIsZero
  deriving DecidableEq, Repr

/-- A probe that is being built. Its durations are still exact; `build` turns them into seconds. -/
structure ProbeBuilder (Action Period : Type) where
  action : Action
  period : Period
  successThreshold : ℤ
  failureThreshold : ℤ
  timeout : Duration
  initialDelay : Duration
  terminationGracePeriod : Option Duration

namespace ProbeBuilder

/-- A builder with this action and the values that Kubernetes has for the other fields. -/
def ofAction (action : ProbeAction) : ProbeBuilder ProbeAction Unit where
  action := action
  period := ()
  successThreshold := 1
  failureThreshold := 1
  timeout := .fromSecs 1
  initialDelay := .fromSecs 0
  terminationGracePeriod := none

/-- The probe executes a command in the container. -/
def exec (execAction : ExecAction) : ProbeBuilder ProbeAction Unit := ofAction (.exec execAction)

def execCommand (command : List String) : ProbeBuilder ProbeAction Unit :=
  exec { command := some command }

def grpc (grpcAction : GRPCAction) : ProbeBuilder ProbeAction Unit := ofAction (.grpc grpcAction)

def httpGet (httpGetAction : HTTPGetAction) : ProbeBuilder ProbeAction Unit :=
  ofAction (.httpGet httpGetAction)

/-- The probe is a request to a port. Without a scheme or a path it has those of Kubernetes. -/
def httpGetPortSchemePath (port : UInt16) (scheme path : Option String) :
    ProbeBuilder ProbeAction Unit :=
  httpGet { path := path, scheme := scheme, port := .int port.toNat }

def tcpSocket (tcpSocketAction : TCPSocketAction) : ProbeBuilder ProbeAction Unit :=
  ofAction (.tcpSocket tcpSocketAction)

/-- The interval in which the probe is executed. From here on the builder can build a probe. -/
def withPeriod (self : ProbeBuilder ProbeAction Unit) (period : Duration) :
    ProbeBuilder ProbeAction Duration :=
  { self with period := period }

/-- The `f32` of a threshold is rounded up, clamped to `0.0` and `i32::MAX as f32`, which is `2^31`,
and saturates when it becomes an `i32`. -/
def thresholdOfQuotient (quotient : ℚ) : ℤ := min (min (max ⌈quotient⌉ 0) (2 ^ 31)) i32Max

variable (self : ProbeBuilder ProbeAction Duration)

/-- How often the probe must succeed in a row. -/
def withSuccessThreshold (successThreshold : ℤ) : ProbeBuilder ProbeAction Duration :=
  { self with successThreshold := successThreshold }

/-- Set a threshold to the number of periods in a duration. -/
def withThresholdDuration (withThreshold : ℤ → ProbeBuilder ProbeAction Duration)
    (thresholdDuration : Duration) : Except ProbeError (ProbeBuilder ProbeAction Duration) :=
  if self.period.asNanos = 0 then .error .periodIsZero
  else
    let threshold := thresholdDuration.divDuration self.period
    .ok (withThreshold (thresholdOfQuotient threshold))

/-- How long the probe must succeed. -/
def withSuccessThresholdDuration (successThresholdDuration : Duration) :
    Except ProbeError (ProbeBuilder ProbeAction Duration) :=
  self.withThresholdDuration self.withSuccessThreshold successThresholdDuration

/-- How often the probe must fail in a row. -/
def withFailureThreshold (failureThreshold : ℤ) : ProbeBuilder ProbeAction Duration :=
  { self with failureThreshold := failureThreshold }

/-- How long the probe must fail. -/
def withFailureThresholdDuration (failureThresholdDuration : Duration) :
    Except ProbeError (ProbeBuilder ProbeAction Duration) :=
  self.withThresholdDuration self.withFailureThreshold failureThresholdDuration

/-- The time after which the probe fails. -/
def withTimeout (timeout : Duration) : ProbeBuilder ProbeAction Duration :=
  { self with timeout := timeout }

/-- The time before the first probe. -/
def withInitialDelay (initialDelay : Duration) : ProbeBuilder ProbeAction Duration :=
  { self with initialDelay := initialDelay }

/-- The time between the shut down that a failed probe triggers and its enforcement. Without it the
grace period of the pod applies. -/
def withTerminationGracePeriod (terminationGracePeriod : Duration) :
    ProbeBuilder ProbeAction Duration :=
  { self with terminationGracePeriod := some terminationGracePeriod }

/-- The seconds of a duration, in an integer type with this largest value. -/
def tryIntoSecs (max : ℕ) (field : String) (duration : Duration) : Except ProbeError ℤ :=
  if duration.asSecs ≤ max then .ok duration.asSecs else .error (.durationTooLong field duration)

/-- The probe, with all durations in whole seconds. A duration of more seconds than its field can
hold is an error; a fraction of a second is dropped without one. -/
def build : Except ProbeError Probe := do
  let initialDelaySeconds ← tryIntoSecs i32Max "initialDelay" self.initialDelay
  let periodSeconds ← tryIntoSecs i32Max "period" self.period
  let terminationGracePeriodSeconds ←
    self.terminationGracePeriod.mapM (tryIntoSecs i64Max "terminationGracePeriod")
  let timeoutSeconds ← tryIntoSecs i32Max "timeout" self.timeout
  let probe : Probe :=
    { exec := none
      failureThreshold := some self.failureThreshold
      grpc := none
      httpGet := none
      initialDelaySeconds := some initialDelaySeconds
      periodSeconds := some periodSeconds
      successThreshold := some self.successThreshold
      tcpSocket := none
      terminationGracePeriodSeconds := terminationGracePeriodSeconds
      timeoutSeconds := some timeoutSeconds }
  .ok <| match self.action with
    | .exec execAction => { probe with exec := some execAction }
    | .grpc grpcAction => { probe with grpc := some grpcAction }
    | .httpGet httpGetAction => { probe with httpGet := some httpGetAction }
    | .tcpSocket tcpSocketAction => { probe with tcpSocket := some tcpSocketAction }

/-! ### What is built -/

variable {self}

/-- Only the fraction of a second is lost. -/
theorem eq_of_tryIntoSecs_eq_ok {max : ℕ} {field : String} {duration : Duration} {seconds : ℤ}
    (h : tryIntoSecs max field duration = .ok seconds) : seconds = duration.asSecs := by
  unfold tryIntoSecs at h
  split at h
  · exact (Except.ok.inj h).symm
  · exact absurd h (by simp)

/-- The period and the thresholds of a built probe: the period has lost its fraction of a second,
and the thresholds are those of the builder. -/
theorem build_eq_ok {probe : Probe} (h : self.build = .ok probe) :
    probe.periodSeconds = some (self.period.asSecs : ℤ) ∧
      probe.successThreshold = some self.successThreshold ∧
      probe.failureThreshold = some self.failureThreshold := by
  unfold build at h
  obtain ⟨initialDelaySeconds, -, h⟩ := bind_eq_ok.mp h
  obtain ⟨periodSeconds, hperiod, h⟩ := bind_eq_ok.mp h
  obtain ⟨terminationGracePeriodSeconds, -, h⟩ := bind_eq_ok.mp h
  obtain ⟨timeoutSeconds, -, h⟩ := bind_eq_ok.mp h
  rw [← Except.ok.inj h, ← eq_of_tryIntoSecs_eq_ok hperiod]
  -- the action decides which of the other fields is set
  match self.action with
  | .exec _ | .grpc _ | .httpGet _ | .tcpSocket _ => exact ⟨rfl, rfl, rfl⟩

/-- The threshold for a duration is the rounded-up number of its periods. -/
theorem withThresholdDuration_eq_ok {withThreshold : ℤ → ProbeBuilder ProbeAction Duration}
    {requested : Duration} {builder : ProbeBuilder ProbeAction Duration}
    (h : self.withThresholdDuration withThreshold requested = .ok builder) :
    0 < self.period.asNanos ∧
      builder = withThreshold (thresholdOfQuotient (requested.divDuration self.period)) := by
  rw [withThresholdDuration] at h
  split at h
  · cases h
  · next hne => exact ⟨Nat.pos_of_ne_zero hne, (Except.ok.inj h).symm⟩

/-- A quotient that fits is only rounded up. -/
theorem thresholdOfQuotient_eq_ceil {quotient : ℚ} (hnonneg : 0 ≤ quotient)
    (hfits : ⌈quotient⌉ ≤ i32Max) : thresholdOfQuotient quotient = ⌈quotient⌉ := by
  have hceil : 0 ≤ ⌈quotient⌉ := Int.ceil_nonneg hnonneg
  have hmax : (i32Max : ℤ) = 2 ^ 31 - 1 := rfl
  rw [thresholdOfQuotient]
  omega

end ProbeBuilder

/-! ### Thresholds and the requested duration -/

/-- With this period and threshold the probe lasts as long as requested, and with one period less
it does not. -/
def HonoursDuration (periodSeconds threshold : Option ℤ) (requested : Duration) : Prop :=
  ∃ period count, periodSeconds = some period ∧ threshold = some count ∧ 1 ≤ period ∧ 1 ≤ count ∧
    (requested.asNanos : ℤ) ≤ count * (10 ^ 9 * period) ∧
    (1 < count → (count - 1) * (10 ^ 9 * period) < (requested.asNanos : ℤ))

/-- For some `n`, the duration is longer than `n` periods, but not longer than `n + 1` periods
without their fraction of a second. -/
def LastsTruncatedPeriods (period requested : Duration) : Prop :=
  ∃ n : ℕ, n * period.asNanos < requested.asNanos ∧
    requested.asNanos ≤ (n + 1) * (10 ^ 9 * period.asSecs)

/-- The quotient is rounded up to `n + 1` if the duration is longer than `n` periods and not longer
than `n + 1` of them. -/
theorem ceil_divDuration_eq {period requested : Duration} {n : ℕ} (hpos : 0 < period.asNanos)
    (hlower : n * period.asNanos < requested.asNanos)
    (hupper : requested.asNanos ≤ (n + 1) * period.asNanos) :
    ⌈requested.divDuration period⌉ = n + 1 := by
  have hpos' : (0 : ℚ) < period.asNanos := by exact_mod_cast hpos
  rw [Duration.divDuration, Int.ceil_eq_iff, lt_div_iff₀ hpos', div_le_iff₀ hpos']
  constructor
  · push_cast
    rw [add_sub_cancel_right]
    exact_mod_cast hlower
  · exact_mod_cast hupper

/-- Every positive duration is longer than some number of periods, and not longer than one more. -/
theorem ceil_divDuration_bounds {period : Duration} (requested : Duration)
    (hpos : 0 < period.asNanos) :
    (requested.asNanos : ℤ) ≤ ⌈requested.divDuration period⌉ * period.asNanos ∧
      (⌈requested.divDuration period⌉ - 1) * period.asNanos < requested.asNanos := by
  have hpos' : (0 : ℚ) < period.asNanos := by exact_mod_cast hpos
  generalize hcount : ⌈requested.divDuration period⌉ = count
  have hle := Int.le_ceil (requested.divDuration period)
  have hlt := Int.ceil_lt_add_one (requested.divDuration period)
  rw [hcount, Duration.divDuration, div_le_iff₀ hpos'] at hle
  rw [hcount, ← sub_lt_iff_lt_add, Duration.divDuration, lt_div_iff₀ hpos'] at hlt
  exact ⟨by exact_mod_cast hle, by exact_mod_cast hlt⟩

/-- The rounded-up quotient honours the duration iff truncating the period does not matter. -/
theorem honoursDuration_ceil_iff {period requested : Duration} (hpos : 0 < period.asNanos) :
    HonoursDuration (some period.asSecs) (some ⌈requested.divDuration period⌉) requested ↔
      LastsTruncatedPeriods period requested := by
  have htruncated := period.mul_asSecs_le_asNanos
  constructor
  · rintro ⟨seconds, count, hseconds, hcount, -, hone, hlasts, -⟩
    rw [← Option.some.inj hseconds, ← Option.some.inj hcount] at hlasts
    rw [← Option.some.inj hcount] at hone
    obtain ⟨-, hlower⟩ := ceil_divDuration_bounds requested hpos
    obtain ⟨n, hn⟩ := Int.eq_ofNat_of_zero_le (Int.sub_nonneg_of_le hone)
    have hcount' : ⌈requested.divDuration period⌉ = n + 1 := by omega
    rw [hcount'] at hlasts
    rw [hn] at hlower
    exact ⟨n, by exact_mod_cast hlower, by exact_mod_cast hlasts⟩
  · rintro ⟨n, hlower, hupper⟩
    have hupper' : requested.asNanos ≤ (n + 1) * period.asNanos :=
      hupper.trans (Nat.mul_le_mul_left (n + 1) htruncated)
    have hceil := ceil_divDuration_eq hpos hlower hupper'
    have hsecs : 1 ≤ period.asSecs := by
      by_contra hzero
      have hsecs : period.asSecs = 0 := by omega
      rw [hsecs, mul_zero, mul_zero] at hupper
      omega
    have hprevious : n * (10 ^ 9 * period.asSecs) < requested.asNanos :=
      lt_of_le_of_lt (Nat.mul_le_mul_left n htruncated) hlower
    refine ⟨_, _, rfl, rfl, by exact_mod_cast hsecs, by omega, ?_, fun _ => ?_⟩
    · rw [hceil]
      exact_mod_cast hupper
    · rw [hceil, add_sub_cancel_right]
      exact_mod_cast hprevious

namespace ProbeBuilder

/-- Whole seconds are not truncated. -/
theorem lastsTruncatedPeriods_of_whole_seconds {period requested : Duration}
    (hwhole : period.nanos = 0) (hperiod : 0 < period.secs) (hrequested : 0 < requested.asNanos) :
    LastsTruncatedPeriods period requested := by
  have hnanos : 10 ^ 9 * period.asSecs = period.asNanos := by
    rw [Duration.asNanos, hwhole, add_zero, Duration.asSecs]
  have hpos : 0 < period.asNanos := by
    rw [← hnanos]
    exact Nat.mul_pos (by decide) hperiod
  refine ⟨(requested.asNanos - 1) / period.asNanos, ?_, ?_⟩
  · have hle := Nat.div_mul_le_self (requested.asNanos - 1) period.asNanos
    omega
  · rw [hnanos]
    have hlt := Nat.lt_div_mul_add hpos (a := requested.asNanos - 1)
    rw [add_mul, one_mul]
    omega

/-- A threshold that fits its field honours the duration iff the period may be truncated. -/
theorem threshold_honours_iff {period requested : Duration} (hpos : 0 < period.asNanos)
    (hfits : ⌈requested.divDuration period⌉ ≤ i32Max) :
    HonoursDuration (some period.asSecs) (some (thresholdOfQuotient (requested.divDuration period)))
      requested ↔ LastsTruncatedPeriods period requested := by
  have hnonneg : 0 ≤ requested.divDuration period := by
    rw [Duration.divDuration]
    positivity
  rw [thresholdOfQuotient_eq_ceil hnonneg hfits]
  exact honoursDuration_ceil_iff hpos

/-- **Thresholds for a duration.** When the rounded-up quotient fits, the built probe honours the
requested duration iff the duration lasts some number of periods, the last of them truncated. -/
theorem thresholds_honour_iff (self : ProbeBuilder ProbeAction Duration) (requested : Duration)
    (hfits : ⌈requested.divDuration self.period⌉ ≤ i32Max) :
    (∀ builder probe, self.withSuccessThresholdDuration requested = .ok builder →
      builder.build = .ok probe →
        (HonoursDuration probe.periodSeconds probe.successThreshold requested ↔
          LastsTruncatedPeriods self.period requested)) ∧
    ∀ builder probe, self.withFailureThresholdDuration requested = .ok builder →
      builder.build = .ok probe →
        (HonoursDuration probe.periodSeconds probe.failureThreshold requested ↔
          LastsTruncatedPeriods self.period requested) := by
  constructor
  · intro builder probe hbuilder hprobe
    obtain ⟨hpos, rfl⟩ := withThresholdDuration_eq_ok hbuilder
    obtain ⟨hseconds, hcount, -⟩ := build_eq_ok hprobe
    rw [hseconds, hcount]
    exact threshold_honours_iff hpos hfits
  · intro builder probe hbuilder hprobe
    obtain ⟨hpos, rfl⟩ := withThresholdDuration_eq_ok hbuilder
    obtain ⟨hseconds, -, hcount⟩ := build_eq_ok hprobe
    rw [hseconds, hcount]
    exact threshold_honours_iff hpos hfits

/-- Four periods of ten seconds are enough for 33 seconds. -/
theorem thresholds_honour_ten_seconds :
    ∃ builder probe, ((httpGetPortSchemePath 8080 none none).withPeriod
        (.fromSecs 10)).withFailureThresholdDuration (.fromSecs 33) = .ok builder ∧
      builder.build = .ok probe ∧
        HonoursDuration probe.periodSeconds probe.failureThreshold (.fromSecs 33) := by
  have hceil : ⌈(Duration.fromSecs 33).divDuration (.fromSecs 10)⌉ = (3 : ℕ) + 1 :=
    ceil_divDuration_eq (by decide) (by decide) (by decide)
  have hfits : ⌈(Duration.fromSecs 33).divDuration (.fromSecs 10)⌉ ≤ i32Max := by
    rw [hceil]
    decide
  have hlasts : LastsTruncatedPeriods (.fromSecs 10) (.fromSecs 33) :=
    lastsTruncatedPeriods_of_whole_seconds rfl (by decide) (by decide)
  have hiff := (thresholds_honour_iff
    ((httpGetPortSchemePath 8080 none none).withPeriod (.fromSecs 10)) (.fromSecs 33) hfits).2
  exact ⟨_, _, rfl, rfl, (hiff _ _ rfl rfl).mpr hlasts⟩

/-- A period with a fraction, which `build` drops. -/
def oneAndAHalfSeconds : Duration := { secs := 1, nanos := 500000000 }

/-- With a period of 1.5 seconds, two periods are built for 3 seconds, of one second each. -/
theorem thresholds_dishonour_fraction : ¬∀ (self : ProbeBuilder ProbeAction Duration)
    (requested : Duration), ⌈requested.divDuration self.period⌉ ≤ i32Max →
      (∀ builder probe, self.withSuccessThresholdDuration requested = .ok builder →
        builder.build = .ok probe →
          HonoursDuration probe.periodSeconds probe.successThreshold requested) ∧
      ∀ builder probe, self.withFailureThresholdDuration requested = .ok builder →
        builder.build = .ok probe →
          HonoursDuration probe.periodSeconds probe.failureThreshold requested := by
  intro h
  have hceil : ⌈(Duration.fromSecs 3).divDuration oneAndAHalfSeconds⌉ = (1 : ℕ) + 1 :=
    ceil_divDuration_eq (by decide) (by decide) (by decide)
  have hfits : ⌈(Duration.fromSecs 3).divDuration oneAndAHalfSeconds⌉ ≤ i32Max := by
    rw [hceil]
    decide
  obtain ⟨-, hfailure⟩ :=
    h ((httpGetPortSchemePath 8080 none none).withPeriod oneAndAHalfSeconds) (.fromSecs 3) hfits
  obtain ⟨builder, hbuilder⟩ : ∃ builder, ((httpGetPortSchemePath 8080 none none).withPeriod
      oneAndAHalfSeconds).withFailureThresholdDuration (.fromSecs 3) = .ok builder := ⟨_, rfl⟩
  obtain ⟨probe, hprobe⟩ : ∃ probe, builder.build = .ok probe := by
    rw [← Except.ok.inj hbuilder]
    exact ⟨_, rfl⟩
  obtain ⟨hpos, rfl⟩ := withThresholdDuration_eq_ok hbuilder
  have hhonours := hfailure _ probe hbuilder hprobe
  obtain ⟨hseconds, -, hcount⟩ := build_eq_ok hprobe
  rw [hseconds, hcount] at hhonours
  have hlasts : LastsTruncatedPeriods oneAndAHalfSeconds (.fromSecs 3) :=
    (threshold_honours_iff hpos hfits).mp hhonours
  obtain ⟨n, hlower, hupper⟩ := hlasts
  have hnanos : oneAndAHalfSeconds.asNanos = 1500000000 := rfl
  have hrequested : (Duration.fromSecs 3).asNanos = 3000000000 := rfl
  have htruncated : 10 ^ 9 * oneAndAHalfSeconds.asSecs = 1000000000 := rfl
  rw [hnanos, hrequested] at hlower
  rw [hrequested, htruncated] at hupper
  omega

end ProbeBuilder

end StackableOperator
