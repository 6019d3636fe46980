import TokioTquic.Error
import TokioTquic.Numeric.Narrow

/-!
# Configuration

The configuration types of the API and `build_tquic_config`, which turns them
into a `tquic::Config`. A `tquic::Config` is taken for the calls made on it, in
their order.
-/

namespace TokioTquic
set_option autoImplicit false

structure StdDuration extends Duration where
  secs_lt : secs < 2 ^ 64
  nanos_lt : nanos < 1000000000
  deriving DecidableEq

namespace StdDuration

def zero : StdDuration := ⟨⟨0, 0⟩, by decide, by decide⟩

def fromSecs (secs : Nat) (h : secs < 2 ^ 64 := by decide) : StdDuration :=
  ⟨⟨secs, 0⟩, h, Nat.zero_lt_succ _⟩

/-- The derived order: seconds first. -/
instance : LE StdDuration where
  le d e := d.secs < e.secs ∨ d.secs = e.secs ∧ d.nanos ≤ e.nanos

def asNanos (d : StdDuration) : Nat := d.secs * 1000000000 + d.nanos

/-- A `u128`, which no duration exceeds. -/
def asMillis (d : StdDuration) : Nat := d.secs * 1000 + d.nanos / 1000000

def millis (d : StdDuration) : Nat := d.asMillis % 2 ^ 64

end StdDuration

/-! ## The types of the API -/

structure EndpointConfig where
  cidLen : Nat := 8
  statelessReset : Bool := true
  resetTokenKey : Option Bytes := none
  addressTokenLifetime : Nat := 86400
  sendBatchSize : Nat := 64

/-- Types of the engine that the configuration only hands on, and `f64`. -/
structure TquicTypes where
  TlsConfig : Type
  CongestionControlAlgorithm : Type
  MultipathAlgorithm : Type
  F64 : Type

variable (X : TquicTypes)

/-- The settings behind the feature `tquic-ext`. -/
structure TransportExt where
  congestionControlAlgorithm : Option X.CongestionControlAlgorithm := none
  initialCongestionWindow : Option Nat := none
  minCongestionWindow : Option Nat := none
  enablePacing : Option Bool := none
  enableMultipath : Option Bool := none
  multipathAlgorithm : Option X.MultipathAlgorithm := none
  bbrProbeRttDuration : Option Nat := none
  bbrProbeRttBasedOnBdp : Option Bool := none
  bbrProbeRttCwndGain : Option X.F64 := none
  bbrRtpropFilterLen : Option Nat := none
  bbrProbeBwCwndGain : Option X.F64 := none
  copaSlowStartDelta : Option X.F64 := none
  copaSteadyDelta : Option X.F64 := none
  copaUseStandingRtt : Option Bool := none

/-- The defaults are those of `Default`; `ext` is there when the feature is on. -/
structure TransportConfig where
  maxIdleTimeout : Option StdDuration := some (.fromSecs 30)
  maxHandshakeTimeout : Option StdDuration := none
  initialMaxData : Nat := 10485760
  initialMaxStreamDataBidiLocal : Nat := 5242880
  initialMaxStreamDataBidiRemote : Nat := 2097152
  initialMaxStreamDataUni : Nat := 1048576
  maxConnectionWindow : Nat := 15 * 1024 * 1024
  maxStreamWindow : Nat := 6 * 1024 * 1024
  initialMaxStreamsBidi : Nat := 200
  initialMaxStreamsUni : Nat := 100
  enableDplpmtud : Bool := true
  sendUdpPayloadSize : Option Nat := none
  ackDelayExponent : Option Nat := none
  maxAckDelay : Option Nat := none
  ackElicitingThreshold : Option Nat := none
  maxConcurrentConns : Nat := 1000000
  initialRtt : Option StdDuration := none
  ext : Option (TransportExt X) := none

structure ServerConfig where
  transport : TransportConfig X := {}
  certFile : String
  keyFile : String
  alpnProtocols : List Bytes
  enableEarlyData : Bool := false
  enableRetry : Bool := false

structure ClientConfig where
  transport : TransportConfig X := {}
  alpnProtocols : List Bytes
  enableEarlyData : Bool := false
  verify : Bool := true
  caCerts : Option String := none

variable {X}

namespace TransportConfig

def setMaxIdleTimeout (config : TransportConfig X) (timeout : Option StdDuration) :
    TransportConfig X :=
  { config with maxIdleTimeout := timeout }

def setMaxHandshakeTimeout (config : TransportConfig X) (timeout : Option StdDuration) :
    TransportConfig X :=
  { config with maxHandshakeTimeout := timeout }

def setInitialRtt (config : TransportConfig X) (rtt : StdDuration) : TransportConfig X :=
  { config with initialRtt := some rtt }

end TransportConfig

/-! ## The engine's configuration -/

variable (X) in
/-- The methods of `tquic::Config` that `build_tquic_config` calls. -/
inductive ConfigCall where
  | setCidLen (len : Nat)
  | enableStatelessReset (enabled : Bool)
  | setAddressTokenLifetime (seconds : Nat)
  | setSendBatchSize (size : Nat)
  | setResetTokenKey (key : Bytes)
  | setMaxIdleTimeout (ms : Nat)
  | setMaxHandshakeTimeout (ms : Nat)
  | setInitialMaxData (v : Nat)
  | setInitialMaxStreamDataBidiLocal (v : Nat)
  | setInitialMaxStreamDataBidiRemote (v : Nat)
  | setInitialMaxStreamDataUni (v : Nat)
  | setMaxConnectionWindow (v : Nat)
  | setMaxStreamWindow (v : Nat)
  | setInitialMaxStreamsBidi (v : Nat)
  | setInitialMaxStreamsUni (v : Nat)
  | enableDplpmtud (v : Bool)
  | setSendUdpPayloadSize (v : Nat)
  | setAckDelayExponent (v : Nat)
  | setMaxAckDelay (v : Nat)
  | setAckElicitingThreshold (v : Nat)
  | setMaxConcurrentConns (v : Nat)
  | setInitialRtt (ms : Nat)
  | setCongestionControlAlgorithm (algo : X.CongestionControlAlgorithm)
  | setInitialCongestionWindow (v : Nat)
  | setMinCongestionWindow (v : Nat)
  | enablePacing (v : Bool)
  | enableMultipath (v : Bool)
  | setMultipathAlgorithm (algo : X.MultipathAlgorithm)
  | setBbrProbeRttDuration (v : Nat)
  | enableBbrProbeRttBasedOnBdp (v : Bool)
  | setBbrProbeRttCwndGain (v : X.F64)
  | setBbrRtpropFilterLen (v : Nat)
  | setBbrProbeBwCwndGain (v : X.F64)
  | setCopaSlowStartDelta (v : X.F64)
  | setCopaSteadyDelta (v : X.F64)
  | enableCopaUseStandingRtt (v : Bool)
  | enableRetry (v : Bool)
  | setTlsConfig (tls : X.TlsConfig)

variable (X) in
abbrev TquicConfig := List (ConfigCall X)

variable (X) in
/-- `tquic::Config::new` and the constructors and setters of `tquic::TlsConfig`; an error
is its text. -/
structure ConfigApi where
  configNew : Except String Unit
  newServerConfig : String → String → List Bytes → Bool → Except String X.TlsConfig
  newClientConfig : List Bytes → Bool → Except String X.TlsConfig
  setVerify : X.TlsConfig → Bool → X.TlsConfig
  setCaCerts : X.TlsConfig → String → Except String X.TlsConfig

/-- `if let Some(v) = value { config.call(v) }`. -/
def optCall {α : Type} (value : Option α) (call : α → ConfigCall X) : TquicConfig X :=
  (value.map call).toList

def endpointCalls (endpoint : EndpointConfig) : TquicConfig X :=
  [.setCidLen endpoint.cidLen,
    .enableStatelessReset endpoint.statelessReset,
    .setAddressTokenLifetime endpoint.addressTokenLifetime,
    .setSendBatchSize endpoint.sendBatchSize] ++
  optCall endpoint.resetTokenKey .setResetTokenKey

def flowCalls (transport : TransportConfig X) : TquicConfig X :=
  [.setInitialMaxData transport.initialMaxData,
    .setInitialMaxStreamDataBidiLocal transport.initialMaxStreamDataBidiLocal,
    .setInitialMaxStreamDataBidiRemote transport.initialMaxStreamDataBidiRemote,
    .setInitialMaxStreamDataUni transport.initialMaxStreamDataUni,
    .setMaxConnectionWindow transport.maxConnectionWindow,
    .setMaxStreamWindow transport.maxStreamWindow,
    .setInitialMaxStreamsBidi transport.initialMaxStreamsBidi,
    .setInitialMaxStreamsUni transport.initialMaxStreamsUni,
    .enableDplpmtud transport.enableDplpmtud] ++
  optCall transport.sendUdpPayloadSize .setSendUdpPayloadSize ++
  optCall transport.ackDelayExponent .setAckDelayExponent ++
  optCall transport.maxAckDelay .setMaxAckDelay ++
  optCall transport.ackElicitingThreshold .setAckElicitingThreshold ++
  [.setMaxConcurrentConns transport.maxConcurrentConns]

def extCalls (ext : TransportExt X) : TquicConfig X :=
  optCall ext.congestionControlAlgorithm .setCongestionControlAlgorithm ++
  optCall ext.initialCongestionWindow .setInitialCongestionWindow ++
  optCall ext.minCongestionWindow .setMinCongestionWindow ++
  optCall ext.enablePacing .enablePacing ++
  optCall ext.enableMultipath .enableMultipath ++
  optCall ext.multipathAlgorithm .setMultipathAlgorithm ++
  optCall ext.bbrProbeRttDuration .setBbrProbeRttDuration ++
  optCall ext.bbrProbeRttBasedOnBdp .enableBbrProbeRttBasedOnBdp ++
  optCall ext.bbrProbeRttCwndGain .setBbrProbeRttCwndGain ++
  optCall ext.bbrRtpropFilterLen .setBbrRtpropFilterLen ++
  optCall ext.bbrProbeBwCwndGain .setBbrProbeBwCwndGain ++
  optCall ext.copaSlowStartDelta .setCopaSlowStartDelta ++
  optCall ext.copaSteadyDelta .setCopaSteadyDelta ++
  optCall ext.copaUseStandingRtt .enableCopaUseStandingRtt

/-- Without an idle timeout the engine is passed 0; the other two timers it is passed
only when they are configured. -/
def transportCalls (transport : TransportConfig X) : TquicConfig X :=
  [.setMaxIdleTimeout ((transport.maxIdleTimeout.map StdDuration.millis).getD 0)] ++
  optCall transport.maxHandshakeTimeout (fun handshake => .setMaxHandshakeTimeout handshake.millis) ++
  flowCalls transport ++
  optCall transport.initialRtt (fun rtt => .setInitialRtt rtt.millis) ++
  transport.ext.elim [] extCalls

def buildTquicConfig (api : ConfigApi X) (endpoint : EndpointConfig)
    (transport : TransportConfig X) (tlsConfig : X.TlsConfig)
    (serverConfig : Option (ServerConfig X)) : Except ConnectError (TquicConfig X) :=
  match api.configNew with
  | .error e => .error (.invalidDnsName ("config error: " ++ e))
  | .ok () =>
    .ok (endpointCalls endpoint ++ transportCalls transport ++
      optCall serverConfig (fun sc => .enableRetry sc.enableRetry) ++ [.setTlsConfig tlsConfig])

/-! ## TLS -/

def buildServerTlsConfig (api : ConfigApi X) (config : ServerConfig X) :
    Except ConnectError X.TlsConfig :=
  match api.newServerConfig config.certFile config.keyFile config.alpnProtocols
      config.enableEarlyData with
  | .error e => .error (.invalidDnsName ("TLS config error: " ++ e))
  | .ok tls => .ok tls

def buildClientTlsConfig (api : ConfigApi X) (config : ClientConfig X) :
    Except ConnectError X.TlsConfig :=
  match api.newClientConfig config.alpnProtocols config.enableEarlyData with
  | .error e => .error (.invalidDnsName ("TLS config error: " ++ e))
  | .ok tls =>
    match config.caCerts with
    | none => .ok (api.setVerify tls config.verify)
    | some caPath =>
      match api.setCaCerts (api.setVerify tls config.verify) caPath with
      | .error e => .error (.invalidDnsName ("CA cert error: " ++ e))
      | .ok tls => .ok tls

end TokioTquic
