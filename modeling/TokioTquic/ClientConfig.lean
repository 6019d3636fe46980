import TokioTquic.HandleCases
import TokioTquic.References
import TokioTquic.UserMove

/-!
# The configuration of outgoing connections

`Connect` uses the configuration it carries, else the default one, else the
configuration the endpoint was built with, which is the server's on a server.
Next to the handles this layer keeps which configuration each `Connect` was
enqueued under and which one it was executed with.
-/

namespace TokioTquic
open Async
set_option autoImplicit false

universe u
variable {κ : Type u} {χ ψ : Type}

/-- What a `tquic::Config` takes its TLS settings from; `minimal` is the client
configuration without protocols that `run_bridge` makes up. -/
inductive TlsConfig (χ ψ : Type) where
  | server (config : ψ)
  | client (config : χ)
  | minimal
  deriving DecidableEq

/-- The configuration `run_bridge` builds the endpoint with. -/
def endpointTls (serverConfig : Option ψ) (defaultClientConfig : Option χ) : TlsConfig χ ψ :=
  match serverConfig, defaultClientConfig with
  | some sc, _ => .server sc
  | none, some cc => .client cc
  | none, none => .minimal

/-- What `Connect` calls `endpoint.connect` with, where `own` is the endpoint's configuration,
or the error it stops with. -/
def connectTls (configError : χ → Option ConnectError) (own : TlsConfig χ ψ) (config : Option χ) :
    Except ConnectError (TlsConfig χ ψ) :=
  match config with
  | some cc =>
    match configError cc with
    | some e => .error e
    | none => .ok (.client cc)
  | none => .ok own

theorem connectOutcome_tls (configError : χ → Option ConnectError) (own : TlsConfig χ ψ)
    (current clientConfig : Option χ) (answer : Except TquicError (NewConn κ)) :
    connectOutcome configError current clientConfig answer =
      match connectTls configError own (clientConfig.or current) with
      | .error e => .error e
      | .ok _ =>
        match answer with
        | .ok new => .ok new
        | .error e => .error (connectError e) := by
  unfold connectOutcome connectTls
  cases clientConfig.or current with
  | none => cases answer <;> rfl
  | some cc =>
    simp only [Option.bind_some]
    cases configError cc with
    | some e => rfl
    | none => cases answer <;> rfl

/-- A `Connect` that was executed. `config` is the explicit configuration, or else that of the
last `SetDefaultClientConfig` enqueued before it; `tls` is what `endpoint.connect` was called
with, if it was. -/
structure Attempt (χ ψ : Type) where
  config : Option χ
  tls : Option (TlsConfig χ ψ)
  reply : Except ConnectError Nat

/-- The connection is made with the configuration and nothing else; without one it fails. -/
def Attempt.Right (configError : χ → Option ConnectError) (x : Attempt χ ψ) : Prop :=
  match x.config with
  | some cc =>
    match configError cc with
    | some e => x.tls = none ∧ x.reply = .error e
    | none => x.tls = some (.client cc)
  | none => x.tls = none ∧ x.reply = .error .noDefaultClientConfig

/-- `lastSet` is the last default that was enqueued, `pending` the configuration of each
queued `Connect`. -/
structure Dialer (κ : Type u) (χ ψ : Type) where
  sys : Handles κ χ ψ
  lastSet : Option χ
  pending : List (Option χ)
  attempts : List (Attempt χ ψ)

namespace Dialer

def init (serverConfig : Option ψ) : Dialer κ χ ψ := ⟨.init serverConfig.isSome, none, [], []⟩

/-- The books of the calls that set a default or connect. -/
def call (s : Dialer κ χ ψ) : HandlesEvent κ χ ψ → Dialer κ χ ψ
  | .connect _ _ clientConfig =>
    if s.sys.handle.endpointClosed then s
    else { s with pending := s.pending ++ [clientConfig.or s.lastSet] }
  | .setDefaultClientConfig config => { s with lastSet := some config }
  | _ => s

/-- The books of a command; `Connect` takes the next pending entry. -/
def execute (configError : χ → Option ConnectError) (own : TlsConfig χ ψ) (s : Dialer κ χ ψ)
    (answer : Except TquicError (NewConn κ)) : BridgeCommand χ ψ Respond → Dialer κ χ ψ
  | .connect _ _ clientConfig _ =>
    let current := s.sys.currentClientConfig
    { s with
      pending := s.pending.tail
      attempts := s.attempts ++ [{
        config := s.pending.head?.join
        tls := (connectTls configError own (clientConfig.or current)).toOption
        reply := (connectOutcome configError current clientConfig answer).map NewConn.index }] }
  | _ => s

/-- `Endpoint::new` passes no default client configuration on. -/
def step (T : Tquic κ) (configError : χ → Option ConnectError) (serverConfig : Option ψ)
    (s : Dialer κ χ ψ) (e : HandlesEvent κ χ ψ) : Option (Dialer κ χ ψ) :=
  (s.sys.step T configError e).map fun sys =>
    match e with
    | .process answer =>
      match s.sys.queue with
      | [] => { s with sys := sys }
      | (_, cmd) :: _ =>
        { s.execute configError (endpointTls serverConfig none) answer cmd with sys := sys }
    | e => { s.call e with sys := sys }

end Dialer

/-! ## The queue -/

/-- The configurations that the queued commands connect with, and the default after them. -/
def plan (current : Option χ) :
    List (Option Nat × BridgeCommand χ ψ Respond) → List (Option χ) × Option χ
  | [] => ([], current)
  | (_, .connect _ _ clientConfig _) :: queue =>
    (clientConfig.or current :: (plan current queue).1, (plan current queue).2)
  | (_, .setDefaultClientConfig config) :: queue => plan (some config) queue
  | _ :: queue => plan current queue

theorem plan_append (queue more : List (Option Nat × BridgeCommand χ ψ Respond)) :
    ∀ current : Option χ, plan current (queue ++ more) =
      ((plan current queue).1 ++ (plan (plan current queue).2 more).1,
        (plan (plan current queue).2 more).2) := by
  induction queue with
  | nil => exact fun _ => rfl
  | cons x queue ih =>
    intro current
    obtain ⟨origin, cmd⟩ := x
    cases cmd with
    | connect addr serverName clientConfig respond =>
      simp only [List.cons_append, plan, ih current]
    | setDefaultClientConfig config => exact ih (some config)
    | setServerConfig config => exact ih current
    | closeEndpoint errorCode reason => exact ih current
    | acceptIncoming => exact ih current
    | onConn connId cmd => exact ih current

theorem plan_fromValue {more : List (Option Nat × BridgeCommand χ ψ Respond)}
    (hmore : ∀ x ∈ more, x.2.FromValue) (current : Option χ) : plan current more = ([], current) := by
  induction more with
  | nil => rfl
  | cons x more ih =>
    have hrest := ih fun y hy => hmore y (List.mem_cons_of_mem _ hy)
    have hfrom := hmore x List.mem_cons_self
    obtain ⟨origin, cmd⟩ := x
    cases cmd with
    | acceptIncoming => exact hrest
    | onConn connId cmd => exact hrest
    | _ => exact hfrom.elim

namespace Handles
variable {T : Tquic κ} {configError : χ → Option ConnectError} {s t : Handles κ χ ψ}

def plan (s : Handles κ χ ψ) : List (Option χ) × Option χ :=
  TokioTquic.plan s.currentClientConfig s.queue

theorem plan_congr (hconfig : t.currentClientConfig = s.currentClientConfig)
    (hqueue : t.queue = s.queue) : t.plan = s.plan := by
  simp only [Handles.plan, hconfig, hqueue]

theorem UserMove.plan (h : UserMove s t) : t.plan = s.plan := by
  obtain ⟨more, hmore, hfrom⟩ := h.queue
  simp only [Handles.plan, h.config, hmore, plan_append, plan_fromValue hfrom, List.append_nil]

theorem sendEndpoint_plan (s : Handles κ χ ψ) (cmd : BridgeCommand χ ψ Respond) :
    (s.sendEndpoint cmd).plan =
      (s.plan.1 ++ (TokioTquic.plan s.plan.2 [(none, cmd)]).1,
        (TokioTquic.plan s.plan.2 [(none, cmd)]).2) :=
  plan_append _ _ _

theorem deliver_config (s : Handles κ χ ψ) (uid : Option Nat) (x : Option (Respond × Reply)) :
    (s.deliver uid x).currentClientConfig = s.currentClientConfig := by
  unfold deliver
  split
  · split <;> rfl
  · rfl

theorem deliver_plan (s : Handles κ χ ψ) (uid : Option Nat) (x : Option (Respond × Reply)) :
    (s.deliver uid x).plan = s.plan :=
  plan_congr (s.deliver_config uid x) (s.deliver_frame uid x).2.2.2

theorem create_plan {new : NewConn κ} {isServer : Bool} (h : s.create new isServer = some t) :
    t.plan = s.plan := by
  unfold create at h
  split at h <;> cases h
  rfl

theorem processCommand_plan {answer : Except TquicError (NewConn κ)}
    {cmd : BridgeCommand χ ψ Respond} (hcmd : ∀ config, cmd ≠ .setDefaultClientConfig config)
    (h : s.processCommand T configError answer cmd = some t) : t.plan = s.plan := by
  cases cmd with
  | connect addr serverName clientConfig respond =>
    simp only [processCommand] at h
    split at h
    · obtain ⟨t', ht', rfl⟩ := Option.map_eq_some_iff.mp h
      rw [deliver_plan]
      exact create_plan ht'
    · cases h
      exact deliver_plan _ _ _
  | setDefaultClientConfig config => exact absurd rfl (hcmd config)
  | setServerConfig config =>
    cases h
    rfl
  | closeEndpoint code reason =>
    cases h
    rfl
  | acceptIncoming =>
    cases h
    rfl
  | onConn connId cmd =>
    cases h
    unfold processOnConn
    split
    · exact deliver_plan _ _ _
    · exact deliver_plan _ _ _

theorem quiet_plan {e : HandlesEvent κ χ ψ} (h : s.step T configError e = some t)
    (hprocess : ∀ answer, e ≠ .process answer)
    (hconnect : ∀ addr serverName clientConfig, e ≠ .connect addr serverName clientConfig)
    (hset : ∀ config, e ≠ .setDefaultClientConfig config) : t.plan = s.plan := by
  cases step_inv h with
  | connCreated hcreate => exact create_plan hcreate
  | process hqueue hcmd => exact absurd rfl (hprocess _)
  | refused hclosed => rfl
  | connect hopen => exact absurd rfl (hconnect _ _ _)
  | setDefaultClientConfig => exact absurd rfl (hset _)
  | setServerConfig | closeEndpoint =>
    rw [sendEndpoint_plan]
    simp [TokioTquic.plan]
  | use hh huse => exact (useValue_move huse).plan
  | callback | closed | engine | release | accept => rfl

end Handles

namespace Dialer
variable {T : Tquic κ} {configError : χ → Option ConnectError} {serverConfig : Option ψ}
  {s t : Dialer κ χ ψ}

/-- The books are those of the queue, and every attempt went by its entry. -/
structure Kept (configError : χ → Option ConnectError) (own : TlsConfig χ ψ)
    (s : Dialer κ χ ψ) : Prop where
  plan : s.sys.plan = (s.pending, s.lastSet)
  tls : ∀ x ∈ s.attempts, x.tls = (connectTls configError own x.config).toOption
  reply : ∀ x ∈ s.attempts, ∀ e, connectTls configError own x.config = .error e →
    x.reply = .error e

theorem kept_execute {own : TlsConfig χ ψ} (hs : s.Kept configError own) {origin : Option Nat}
    {cmd : BridgeCommand χ ψ Respond} {queue : List (Option Nat × BridgeCommand χ ψ Respond)}
    (hqueue : s.sys.queue = (origin, cmd) :: queue) {answer : Except TquicError (NewConn κ)}
    {sys : Handles κ χ ψ}
    (h : { s.sys with queue := queue }.processCommand T configError answer cmd = some sys) :
    { s.execute configError own answer cmd with sys := sys }.Kept configError own := by
  have hplan := hs.plan
  simp only [Handles.plan, hqueue] at hplan
  cases cmd with
  | connect addr serverName clientConfig respond =>
    have hsys := Handles.processCommand_plan (by simp) h
    simp only [plan, Prod.mk.injEq] at hplan
    obtain ⟨hpending, hlast⟩ := hplan
    have hconfig : s.pending.head?.join = clientConfig.or s.sys.currentClientConfig := by
      rw [← hpending]
      rfl
    constructor
    · rw [hsys]
      simp only [Handles.plan, execute, ← hpending, ← hlast]
      rfl
    · intro x hx
      rcases List.mem_append.mp hx with hx | hx
      · exact hs.tls x hx
      · rw [List.mem_singleton.mp hx, hconfig]
    · intro x hx e he
      rcases List.mem_append.mp hx with hx | hx
      · exact hs.reply x hx e he
      · rw [List.mem_singleton.mp hx] at he ⊢
        simp only [hconfig] at he
        simp only [connectOutcome_tls configError own, he]
        rfl
  | setDefaultClientConfig config =>
    cases h
    exact ⟨hplan, hs.tls, hs.reply⟩
  | setServerConfig config =>
    exact ⟨(Handles.processCommand_plan (by simp) h).trans hplan, hs.tls, hs.reply⟩
  | closeEndpoint errorCode reason =>
    exact ⟨(Handles.processCommand_plan (by simp) h).trans hplan, hs.tls, hs.reply⟩
  | acceptIncoming =>
    exact ⟨(Handles.processCommand_plan (by simp) h).trans hplan, hs.tls, hs.reply⟩
  | onConn connId cmd =>
    exact ⟨(Handles.processCommand_plan (by simp) h).trans hplan, hs.tls, hs.reply⟩

theorem kept_call {own : TlsConfig χ ψ} (hs : s.Kept configError own) {e : HandlesEvent κ χ ψ}
    (hprocess : ∀ answer, e ≠ .process answer) {sys : Handles κ χ ψ}
    (h : s.sys.step T configError e = some sys) :
    { s.call e with sys := sys }.Kept configError own := by
  by_cases hconnect : ∃ addr serverName clientConfig, e = .connect addr serverName clientConfig
  · obtain ⟨addr, serverName, clientConfig, rfl⟩ := hconnect
    simp only [Handles.step] at h
    split at h
    · rename_i hclosed
      cases h
      simp only [call, hclosed, if_true]
      exact ⟨hs.plan, hs.tls, hs.reply⟩
    · rename_i hopen
      cases h
      simp only [call, hopen]
      refine ⟨?_, hs.tls, hs.reply⟩
      have hsend := s.sys.sendEndpoint_plan
        (.connect addr serverName clientConfig (s.sys.next, s.sys.next))
      rw [hs.plan] at hsend
      exact hsend
  · by_cases hset : ∃ config, e = .setDefaultClientConfig config
    · obtain ⟨config, rfl⟩ := hset
      cases h
      refine ⟨?_, hs.tls, hs.reply⟩
      have hsend := s.sys.sendEndpoint_plan (.setDefaultClientConfig config)
      rw [hs.plan] at hsend
      simpa [call, plan] using hsend
    · have hsys := Handles.quiet_plan h hprocess
        (fun addr serverName clientConfig heq => hconnect ⟨addr, serverName, clientConfig, heq⟩)
        fun config heq => hset ⟨config, heq⟩
      have hcall : s.call e = s := by
        cases e with
        | connect addr serverName clientConfig => exact absurd ⟨_, _, _, rfl⟩ hconnect
        | setDefaultClientConfig config => exact absurd ⟨_, rfl⟩ hset
        | _ => rfl
      rw [hcall]
      exact ⟨hsys.trans hs.plan, hs.tls, hs.reply⟩

theorem kept_step {e : HandlesEvent κ χ ψ} (hs : s.Kept configError (endpointTls serverConfig none))
    (hstep : s.step T configError serverConfig e = some t) :
    t.Kept configError (endpointTls serverConfig none) := by
  obtain ⟨sys, hsys, rfl⟩ := Option.map_eq_some_iff.mp hstep
  cases e with
  | process answer =>
    cases Handles.step_inv hsys with
    | process hqueue hcmd =>
      rw [hqueue]
      exact kept_execute hs hqueue hcmd
  | _ => exact kept_call hs (by simp) hsys

theorem kept_init : (init serverConfig : Dialer κ χ ψ).Kept configError
    (endpointTls serverConfig none) :=
  ⟨rfl, fun _ hx => (by cases hx), fun _ hx => (by cases hx)⟩

theorem right_iff {own : TlsConfig χ ψ} (hs : s.Kept configError own) {x : Attempt χ ψ}
    (hx : x ∈ s.attempts) : x.Right configError ↔ x.config ≠ none := by
  have htls := hs.tls x hx
  have hreply := hs.reply x hx
  unfold Attempt.Right
  cases hconfig : x.config with
  | none =>
    rw [hconfig] at htls
    simp only [ne_eq, not_true_eq_false, iff_false, not_and]
    intro hnone
    rw [htls] at hnone
    cases hnone
  | some cc =>
    rw [hconfig] at htls hreply
    simp only [ne_eq, reduceCtorEq, not_false_eq_true, iff_true]
    cases herror : configError cc with
    | some e =>
      simp only [connectTls, herror] at htls hreply
      exact ⟨htls, hreply e rfl⟩
    | none =>
      simp only [connectTls, herror] at htls
      exact htls

/-- In every run, a `Connect` is executed as documented if and only if it carries a
configuration or a default was set before it. -/
theorem client_config_iff (T : Tquic κ) (configError : χ → Option ConnectError)
    (serverConfig : Option ψ) (s : Dialer κ χ ψ)
    (hs : Reach (step T configError serverConfig) Any (init serverConfig) s) :
    ∀ x ∈ s.attempts, x.Right configError ↔ x.config ≠ none := by
  have hkept : s.Kept configError (endpointTls serverConfig none) := by
    apply hs.invariant
    · exact fun s e t h _ hstep => kept_step h hstep
    · exact kept_init
  exact fun x hx => right_iff hkept hx

/-- On a client, a default is set after a `connect` with a configuration of its own and before
one without. -/
theorem client_config_iff_set :
    ∃ s : Dialer Script String String,
      Reach (step Tquic.scripted (fun _ => none) none) Any (init none) s ∧
      s.attempts = [⟨some "own", some (.client "own"), .ok 0⟩,
        ⟨some "default", some (.client "default"), .ok 1⟩] ∧
      ∀ x ∈ s.attempts, x.Right fun _ => none := by
  have hrun : ∃ s : Dialer Script String String,
      run (step Tquic.scripted (fun _ => none) none) (init none)
        [.connect .unspecified "peer" (some "own"), .setDefaultClientConfig "default",
          .connect .unspecified "peer" none, .process (.ok ⟨0, {}, none⟩),
          .process (.error .done), .process (.ok ⟨1, {}, none⟩)] = some s ∧
      s.attempts = [⟨some "own", some (.client "own"), .ok 0⟩,
        ⟨some "default", some (.client "default"), .ok 1⟩] := ⟨_, rfl, rfl⟩
  obtain ⟨s, hs, hattempts⟩ := hrun
  have hreach := reach_any_of_run hs
  refine ⟨s, hreach, hattempts, fun x hx => ?_⟩
  apply (client_config_iff Tquic.scripted (fun _ => none) none s hreach x hx).mpr
  rw [hattempts] at hx
  simp only [List.mem_cons, List.not_mem_nil, or_false] at hx
  rcases hx with rfl | rfl
  · exact Option.some_ne_none _
  · exact Option.some_ne_none _

/-- On a server without a default, `endpoint.connect` is called all the same, and the caller is
told that the endpoint stops. -/
theorem server_config_dials :
    ¬ ∀ s : Dialer Script String String,
      Reach (step Tquic.scripted (fun _ => none) (some "server")) Any (init (some "server")) s →
      ∀ x ∈ s.attempts, x.Right fun _ => none := by
  intro hall
  have hrun : ∃ s : Dialer Script String String,
      run (step Tquic.scripted (fun _ => none) (some "server")) (init (some "server"))
        [.connect .unspecified "peer" none, .process (.error (.other "not a client"))] = some s ∧
      s.attempts = [⟨none, some (.server "server"), .error .endpointStopping⟩] := ⟨_, rfl, rfl⟩
  obtain ⟨s, hs, hattempts⟩ := hrun
  have hright := hall s (reach_any_of_run hs)
    ⟨none, some (.server "server"), .error .endpointStopping⟩
    (hattempts ▸ List.mem_singleton_self _)
  cases hright.2

end Dialer

end TokioTquic
