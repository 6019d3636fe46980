import TokioTquic.ClientConfig
import TokioTquic.Timeouts

/-!
# Where the engine gets its configuration from

`run_bridge` builds the endpoint's configuration and `Connect` that of a
connection. `Connect` as the handles know it stands for the code with the
builders in it, and each configuration the engine is given is a `Build` whose
timeouts are those of the API configuration it was built from.
-/

namespace TokioTquic
set_option autoImplicit false

universe u
variable {κ : Type u} {X : TquicTypes}

/-- `build_client_tls_config` followed by `build_tquic_config`. -/
def clientTquicConfig (api : ConfigApi X) (endpointConfig : EndpointConfig) (cc : ClientConfig X) :
    Except ConnectError (TquicConfig X) :=
  match buildClientTlsConfig api cc with
  | .error e => .error e
  | .ok tls => buildTquicConfig api endpointConfig cc.transport tls none

def clientConfigError (api : ConfigApi X) (endpointConfig : EndpointConfig)
    (cc : ClientConfig X) : Option ConnectError :=
  match clientTquicConfig api endpointConfig cc with
  | .error e => some e
  | .ok _ => none

/-- The `Connect` arm of `process_command`; `connect` is `endpoint.connect` as a function of
the configuration it is given. -/
def processConnect (api : ConfigApi X) (endpointConfig : EndpointConfig)
    (connect : Option (TquicConfig X) → Except TquicError (NewConn κ))
    (current clientConfig : Option (ClientConfig X)) : Except ConnectError (NewConn κ) :=
  match clientConfig.or current with
  | some cc =>
    match buildClientTlsConfig api cc with
    | .error e => .error e
    | .ok tls =>
      match buildTquicConfig api endpointConfig cc.transport tls none with
      | .error e => .error e
      | .ok config => (connect (some config)).mapError connectError
  | none => (connect none).mapError connectError

def connectConfig (api : ConfigApi X) (endpointConfig : EndpointConfig)
    (current clientConfig : Option (ClientConfig X)) : Option (TquicConfig X) :=
  (clientConfig.or current).bind fun cc => (clientTquicConfig api endpointConfig cc).toOption

theorem processConnect_outcome (api : ConfigApi X) (endpointConfig : EndpointConfig)
    (connect : Option (TquicConfig X) → Except TquicError (NewConn κ))
    (current clientConfig : Option (ClientConfig X)) :
    processConnect api endpointConfig connect current clientConfig =
      connectOutcome (clientConfigError api endpointConfig) current clientConfig
        (connect (connectConfig api endpointConfig current clientConfig)) := by
  unfold processConnect connectOutcome connectConfig
  cases clientConfig.or current with
  | none =>
    simp only [Option.bind_none]
    cases connect none <;> rfl
  | some cc =>
    simp only [Option.bind_some, clientConfigError, clientTquicConfig]
    cases buildClientTlsConfig api cc with
    | error e => rfl
    | ok tls =>
      simp only
      cases buildTquicConfig api endpointConfig cc.transport tls none with
      | error e => rfl
      | ok config =>
        simp only [Except.toOption]
        cases connect (some config) <;> rfl

theorem clientTquicConfig_build {api : ConfigApi X} {endpointConfig : EndpointConfig}
    {cc : ClientConfig X} {config : TquicConfig X}
    (h : clientTquicConfig api endpointConfig cc = .ok config) :
    ∃ b : Build api, b.endpoint = endpointConfig ∧ b.transport = cc.transport ∧
      b.serverConfig = none ∧ b.config = config := by
  unfold clientTquicConfig at h
  split at h
  · cases h
  · exact ⟨⟨endpointConfig, cc.transport, _, none, config, h⟩, rfl, rfl, rfl, rfl⟩

/-- A connection gets the timeouts of the configuration that `Connect` carries, or else of the
default one. -/
theorem connect_timeouts {api : ConfigApi X} {endpointConfig : EndpointConfig}
    {current clientConfig : Option (ClientConfig X)} {config : TquicConfig X}
    (h : connectConfig api endpointConfig current clientConfig = some config) :
    ∃ cc, clientConfig.or current = some cc ∧ ∀ timeout d,
      Timeout.configured cc.transport timeout = some d → timeout.passed config = [d.millis] := by
  obtain ⟨cc, hcc, hconfig⟩ := Option.bind_eq_some_iff.mp h
  refine ⟨cc, hcc, fun timeout d hd => ?_⟩
  cases hbuild : clientTquicConfig api endpointConfig cc with
  | error e => simp [hbuild, Except.toOption] at hconfig
  | ok config' =>
    obtain rfl : config' = config := by simpa [hbuild, Except.toOption] using hconfig
    obtain ⟨b, -, htransport, -, rfl⟩ := clientTquicConfig_build hbuild
    rw [← htransport] at hd
    exact b.passed_configured hd

/-! ## The endpoint -/

def ConnectError.text (display : SocketAddr → String) : ConnectError → String
  | .endpointStopping => "endpoint stopping"
  | .cidsExhausted => "CIDs exhausted"
  | .invalidDnsName name => "invalid DNS name: " ++ name
  | .invalidRemoteAddress addr => "invalid remote address: " ++ display addr
  | .noDefaultClientConfig => "no default client config"

def endpointTransport (serverConfig : Option (ServerConfig X))
    (defaultClientConfig : Option (ClientConfig X)) : TransportConfig X :=
  ((serverConfig.map ServerConfig.transport).or
    (defaultClientConfig.map ClientConfig.transport)).getD {}

def TlsConfig.transport : TlsConfig (ClientConfig X) (ServerConfig X) → TransportConfig X
  | .server sc => sc.transport
  | .client cc => cc.transport
  | .minimal => {}

theorem endpointTransport_eq (serverConfig : Option (ServerConfig X))
    (defaultClientConfig : Option (ClientConfig X)) :
    endpointTransport serverConfig defaultClientConfig =
      (endpointTls serverConfig defaultClientConfig).transport := by
  cases serverConfig <;> cases defaultClientConfig <;> rfl

def TlsConfig.build (api : ConfigApi X) (display : SocketAddr → String) :
    TlsConfig (ClientConfig X) (ServerConfig X) → Except String X.TlsConfig
  | .server sc => (buildServerTlsConfig api sc).mapError (ConnectError.text display)
  | .client cc => (buildClientTlsConfig api cc).mapError (ConnectError.text display)
  | .minimal => api.newClientConfig [] false

/-- `tquic_config` in `run_bridge`; with an error the thread ends. -/
def endpointTquicConfig (api : ConfigApi X) (display : SocketAddr → String)
    (endpointConfig : EndpointConfig) (serverConfig : Option (ServerConfig X))
    (defaultClientConfig : Option (ClientConfig X)) : Except String (TquicConfig X) :=
  match (endpointTls serverConfig defaultClientConfig).build api display with
  | .error e => .error e
  | .ok tls =>
    (buildTquicConfig api endpointConfig (endpointTransport serverConfig defaultClientConfig) tls
      serverConfig).mapError (ConnectError.text display)

/-- The endpoint gets the timeouts of the same configuration as its TLS settings. -/
theorem endpoint_timeouts {api : ConfigApi X} {display : SocketAddr → String}
    {endpointConfig : EndpointConfig} {serverConfig : Option (ServerConfig X)}
    {defaultClientConfig : Option (ClientConfig X)} {config : TquicConfig X}
    (h : endpointTquicConfig api display endpointConfig serverConfig defaultClientConfig =
      .ok config) (timeout : Timeout) {d : StdDuration}
    (hd : timeout.configured (endpointTls serverConfig defaultClientConfig).transport = some d) :
    timeout.passed config = [d.millis] := by
  rw [← endpointTransport_eq] at hd
  unfold endpointTquicConfig at h
  split at h
  · cases h
  · rename_i tls _
    cases hbuild : buildTquicConfig api endpointConfig
        (endpointTransport serverConfig defaultClientConfig) tls serverConfig with
    | error e => simp [hbuild, Except.mapError] at h
    | ok config' =>
      obtain rfl : config' = config := by simpa [hbuild, Except.mapError] using h
      exact Build.passed_configured ⟨endpointConfig, _, tls, serverConfig, _, hbuild⟩ hd

end TokioTquic
