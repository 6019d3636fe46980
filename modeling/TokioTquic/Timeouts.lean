import TokioTquic.Config

/-!
# Timeouts in milliseconds

`build_tquic_config` passes `max_idle_timeout`, `max_handshake_timeout` and
`initial_rtt` to the engine as `as_millis() as u64`: less than a millisecond
becomes 0, and from 2^64 milliseconds on the count starts again.
-/

namespace TokioTquic
open Numeric
set_option autoImplicit false

/-! ## Durations -/

namespace StdDuration

theorem le_iff (d e : StdDuration) : d ≤ e ↔ d.asNanos ≤ e.asNanos := by
  have hd := d.nanos_lt
  have he := e.nanos_lt
  change d.secs < e.secs ∨ d.secs = e.secs ∧ d.nanos ≤ e.nanos ↔ _
  unfold asNanos
  omega

theorem eq_zero_iff (d : StdDuration) : d = zero ↔ d.asNanos = 0 := by
  constructor
  · rintro rfl
    rfl
  · intro h
    obtain ⟨⟨secs, nanos⟩, hsecs, hnanos⟩ := d
    change secs * 1000000000 + nanos = 0 at h
    obtain ⟨rfl, rfl⟩ : secs = 0 ∧ nanos = 0 := by omega
    rfl

theorem exists_asNanos (d : StdDuration) : ∀ n ≤ d.asNanos, ∃ e : StdDuration, e.asNanos = n := by
  intro n hn
  have hsecs := d.secs_lt
  have hnanos := d.nanos_lt
  unfold asNanos at hn
  refine ⟨⟨⟨n / 1000000000, n % 1000000000⟩, ?_, ?_⟩, ?_⟩
  · change n / 1000000000 < 2 ^ 64
    omega
  · exact Nat.mod_lt n (by decide)
  · exact Nat.div_add_mod' n 1000000000

theorem millis_eq_narrow (d : StdDuration) : d.millis = narrow 1000000 (2 ^ 64) d.asNanos := by
  have hmillis : d.asMillis = d.asNanos / 1000000 := by
    unfold asMillis asNanos
    omega
  rw [millis, hmillis, narrow]

/-- Zero, or at least a millisecond and below 2^64 of them. Above that only a duration within
the last millisecond before a multiple of 2^64 keeps its place: it gets the largest value. -/
def InMillis (d : StdDuration) : Prop :=
  d = zero ∨ 1000000 ≤ d.asNanos ∧
    (d.asNanos < 1000000 * 2 ^ 64 ∨
      1000000 * (2 ^ 64 - 1) ≤ d.asNanos % (1000000 * 2 ^ 64))

theorem millis_zero_iff (d : StdDuration) :
    d.millis = 0 ↔ d.asNanos % (1000000 * 2 ^ 64) < 1000000 := by
  rw [millis_eq_narrow]
  exact narrow_eq_zero_iff (by decide)

theorem millis_peak_iff (d : StdDuration) :
    (∀ e ≤ d, e.millis ≤ d.millis) ↔
      d.asNanos < 1000000 * 2 ^ 64 ∨
        1000000 * (2 ^ 64 - 1) ≤ d.asNanos % (1000000 * 2 ^ 64) := by
  simp only [millis_eq_narrow]
  exact narrow_peak_measure_iff (by decide) (by decide) le_iff exists_asNanos d

theorem inMillis_iff (d : StdDuration) :
    d.InMillis ↔ (d ≠ zero → d.millis ≠ 0) ∧ ∀ e ≤ d, e.millis ≤ d.millis := by
  rw [millis_peak_iff, Ne, Ne, millis_zero_iff]
  unfold InMillis
  by_cases hzero : d = zero
  · have hnanos := (eq_zero_iff d).mp hzero
    refine ⟨fun _ => ⟨fun hne => absurd hzero hne, Or.inl ?_⟩, fun _ => Or.inl hzero⟩
    rw [hnanos]
    decide
  · have hpos : d.asNanos ≠ 0 := fun h => hzero ((eq_zero_iff d).mpr h)
    simp only [hzero, false_or, not_false_iff, forall_const, not_lt]
    constructor
    · rintro ⟨hunit, hplace⟩
      refine ⟨?_, hplace⟩
      rcases hplace with hfirst | hlast
      · rwa [Nat.mod_eq_of_lt hfirst]
      · omega
    · rintro ⟨hunit, hplace⟩
      exact ⟨hunit.trans (Nat.mod_le _ _), hplace⟩

/-- 2^64 milliseconds are passed as 0. -/
example : millis ⟨⟨18446744073709551, 616000000⟩, by decide, by decide⟩ = 0 := by decide

end StdDuration

/-! ## What the engine is passed -/

variable {X : TquicTypes}

/-- The three settings that are durations. -/
inductive Timeout where
  | maxIdle
  | maxHandshake
  | initialRtt
  deriving DecidableEq

namespace Timeout

def configured (transport : TransportConfig X) : Timeout → Option StdDuration
  | .maxIdle => transport.maxIdleTimeout
  | .maxHandshake => transport.maxHandshakeTimeout
  | .initialRtt => transport.initialRtt

def configure (transport : TransportConfig X) (d : StdDuration) : Timeout → TransportConfig X
  | .maxIdle => transport.setMaxIdleTimeout (some d)
  | .maxHandshake => transport.setMaxHandshakeTimeout (some d)
  | .initialRtt => transport.setInitialRtt d

def value : Timeout → ConfigCall X → Option Nat
  | .maxIdle, .setMaxIdleTimeout ms => some ms
  | .maxHandshake, .setMaxHandshakeTimeout ms => some ms
  | .initialRtt, .setInitialRtt ms => some ms
  | _, _ => none

/-- The milliseconds that the engine is passed for a timeout, once for each call. -/
def passed (timeout : Timeout) (config : TquicConfig X) : List Nat :=
  config.filterMap timeout.value

@[simp] theorem configured_configure (timeout : Timeout) (transport : TransportConfig X)
    (d : StdDuration) : timeout.configured (timeout.configure transport d) = some d := by
  cases timeout <;> rfl

@[simp] theorem passed_nil (timeout : Timeout) : timeout.passed ([] : TquicConfig X) = [] := rfl

@[simp] theorem passed_cons (timeout : Timeout) (call : ConfigCall X) (config : TquicConfig X) :
    timeout.passed (call :: config) = (timeout.value call).toList ++ timeout.passed config := by
  cases h : timeout.value call <;> simp [passed, h]

@[simp] theorem passed_append (timeout : Timeout) (config config' : TquicConfig X) :
    timeout.passed (config ++ config') = timeout.passed config ++ timeout.passed config' :=
  List.filterMap_append

@[simp] theorem passed_optCall {α : Type} (timeout : Timeout) (v : Option α)
    (call : α → ConfigCall X) :
    timeout.passed (optCall v call) = (v.bind fun a => timeout.value (call a)).toList := by
  cases v with
  | none => rfl
  | some a => simp [optCall]

theorem passed_endpointCalls (timeout : Timeout) (endpoint : EndpointConfig) :
    timeout.passed (endpointCalls (X := X) endpoint) = [] := by
  cases timeout <;> simp [endpointCalls, value]

theorem passed_flowCalls (timeout : Timeout) (transport : TransportConfig X) :
    timeout.passed (flowCalls transport) = [] := by
  cases timeout <;> simp [flowCalls, value]

theorem passed_extCalls (timeout : Timeout) (ext : TransportExt X) :
    timeout.passed (extCalls ext) = [] := by
  cases timeout <;> simp [extCalls, value]

end Timeout

/-- A call of `build_tquic_config` that succeeded. -/
structure Build (api : ConfigApi X) where
  endpoint : EndpointConfig
  transport : TransportConfig X
  tlsConfig : X.TlsConfig
  serverConfig : Option (ServerConfig X)
  config : TquicConfig X
  built : buildTquicConfig api endpoint transport tlsConfig serverConfig = .ok config

namespace Build

variable {api : ConfigApi X} {timeout : Timeout} {d : StdDuration}

theorem config_eq (b : Build api) :
    api.configNew = .ok () ∧ b.config = endpointCalls b.endpoint ++ transportCalls b.transport ++
      optCall b.serverConfig (fun sc => .enableRetry sc.enableRetry) ++
      [.setTlsConfig b.tlsConfig] := by
  have h := b.built
  unfold buildTquicConfig at h
  split at h
  · cases h
  · rename_i hnew
    exact ⟨hnew, (Except.ok.inj h).symm⟩

theorem passed_config (b : Build api) (timeout : Timeout) :
    timeout.passed b.config =
      match timeout with
      | .maxIdle => [(b.transport.maxIdleTimeout.map StdDuration.millis).getD 0]
      | timeout => ((timeout.configured b.transport).map StdDuration.millis).toList := by
  have hext : timeout.passed (b.transport.ext.elim [] extCalls) = [] := by
    cases b.transport.ext with
    | none => rfl
    | some ext => exact timeout.passed_extCalls ext
  rw [b.config_eq.2]
  simp only [transportCalls, Timeout.passed_append, Timeout.passed_endpointCalls,
    Timeout.passed_flowCalls, hext]
  cases timeout with
  | maxIdle => simp [Timeout.value]
  | maxHandshake =>
    cases h : b.transport.maxHandshakeTimeout <;> simp [Timeout.value, Timeout.configured, h]
  | initialRtt => cases h : b.transport.initialRtt <;> simp [Timeout.value, Timeout.configured, h]

theorem passed_configured (b : Build api) (h : timeout.configured b.transport = some d) :
    timeout.passed b.config = [d.millis] := by
  rw [passed_config]
  cases timeout with
  | maxIdle =>
    change b.transport.maxIdleTimeout = some d at h
    simp [h]
  | maxHandshake => simp [h]
  | initialRtt => simp [h]

/-- The idle timeout is disabled by passing 0. -/
theorem passed_disabled (b : Build api) (h : b.transport.maxIdleTimeout = none) :
    Timeout.maxIdle.passed b.config = [0] := by
  rw [passed_config]
  simp [h]

theorem exists_configured (b : Build api) (timeout : Timeout) (d : StdDuration) :
    ∃ a : Build api, timeout.configured a.transport = some d := by
  obtain ⟨config, hbuilt⟩ : ∃ config, buildTquicConfig api b.endpoint
      (timeout.configure b.transport d) b.tlsConfig b.serverConfig = .ok config := by
    rw [buildTquicConfig, b.config_eq.1]
    exact ⟨_, rfl⟩
  exact ⟨⟨b.endpoint, _, b.tlsConfig, b.serverConfig, config, hbuilt⟩,
    timeout.configured_configure b.transport d⟩

end Build

/-! ## Faithful timeouts -/

/-- What a build owes to a configured duration: the engine is passed one value, a nonzero
duration is not passed as 0, which for the idle timeout is what `None` is passed as, and no
build passes more for a duration that is not longer. -/
structure Timeout.Faithful {api : ConfigApi X} (timeout : Timeout) (b : Build api)
    (d : StdDuration) : Prop where
  once : ∃ ms, timeout.passed b.config = [ms]
  nonzero : d ≠ .zero → 0 ∉ timeout.passed b.config
  enabled : timeout = .maxIdle → d ≠ .zero → ∀ a : Build api,
    a.transport.maxIdleTimeout = none → timeout.passed a.config ≠ timeout.passed b.config
  monotone : ∀ (a : Build api) (e : StdDuration), timeout.configured a.transport = some e →
    e ≤ d → ∀ m ∈ timeout.passed a.config, ∀ n ∈ timeout.passed b.config, m ≤ n

/-- `build_tquic_config` is faithful to a timeout if and only if it is zero or at least a
millisecond, and below 2^64 milliseconds or at the end of a later cycle of them. -/
theorem timeouts_faithful_iff {api : ConfigApi X} (timeout : Timeout) (b : Build api)
    {d : StdDuration} (h : timeout.configured b.transport = some d) :
    timeout.Faithful b d ↔ d.InMillis := by
  have hpassed := b.passed_configured h
  rw [d.inMillis_iff]
  constructor
  · intro hfaithful
    refine ⟨fun hne hzero => ?_, fun e he => ?_⟩
    · apply hfaithful.nonzero hne
      rw [hpassed, hzero]
      exact List.mem_singleton_self 0
    · obtain ⟨a, ha⟩ := b.exists_configured timeout e
      apply hfaithful.monotone a e ha he
      · rw [a.passed_configured ha]
        exact List.mem_singleton_self _
      · rw [hpassed]
        exact List.mem_singleton_self _
  · rintro ⟨hnonzero, hpeak⟩
    refine ⟨⟨d.millis, hpassed⟩, fun hne hmem => ?_, fun htimeout hne a ha heq => ?_,
      fun a e ha he m hm n hn => ?_⟩
    · rw [hpassed] at hmem
      exact hnonzero hne (List.mem_singleton.mp hmem).symm
    · subst htimeout
      rw [hpassed, a.passed_disabled ha] at heq
      exact hnonzero hne (List.cons.inj heq).1.symm
    · rw [a.passed_configured ha] at hm
      rw [hpassed] at hn
      rw [List.mem_singleton.mp hm, List.mem_singleton.mp hn]
      exact hpeak e he

theorem default_inMillis (timeout : Timeout) {d : StdDuration}
    (h : timeout.configured ({} : TransportConfig X) = some d) : d.InMillis := by
  cases timeout with
  | maxIdle =>
    cases h
    exact Or.inr ⟨by decide, Or.inl (by decide)⟩
  | maxHandshake => cases h
  | initialRtt => cases h

abbrev TquicTypes.units : TquicTypes := ⟨Unit, Unit, Unit, Unit⟩

/-- An engine without TLS that accepts everything, for concrete builds. -/
def ConfigApi.accepting : ConfigApi .units where
  configNew := .ok ()
  newServerConfig _ _ _ _ := .ok ()
  newClientConfig _ _ := .ok ()
  setVerify _ _ := ()
  setCaCerts _ _ := .ok ()

def Build.accepted (transport : TransportConfig .units) : Build ConfigApi.accepting :=
  ⟨{}, transport, (), none, _, rfl⟩

theorem timeouts_faithful_default :
    Timeout.maxIdle.Faithful (Build.accepted {}) (StdDuration.fromSecs 30) :=
  (timeouts_faithful_iff .maxIdle (Build.accepted {}) rfl).mpr
    (default_inMillis (X := .units) .maxIdle rfl)

/-- An idle timeout of half a millisecond disables the idle timeout. -/
theorem short_timeout_disables :
    ¬ ∀ (timeout : Timeout) (b : Build ConfigApi.accepting) (d : StdDuration),
      timeout.configured b.transport = some d → timeout.Faithful b d := by
  intro hall
  have hfaithful := hall .maxIdle
    (Build.accepted (TransportConfig.setMaxIdleTimeout {} (some ⟨⟨0, 500000⟩, by decide, by decide⟩)))
    _ rfl
  exact hfaithful.enabled rfl (by decide) (Build.accepted (TransportConfig.setMaxIdleTimeout {} none))
    rfl rfl

end TokioTquic
