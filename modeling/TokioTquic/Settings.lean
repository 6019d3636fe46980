import TokioTquic.EngineConfig
import TokioTquic.Async.LastWrite

/-!
# What the engine learns of the settings

The setters of the four configuration types, in any order and any number, and
the calls on `tquic::Config` that come of them: each method is called at most
once, with the value of the last setter that is about it.
-/

namespace TokioTquic
open Async
set_option autoImplicit false

variable {X : TquicTypes}

/-! ## The setters -/

inductive EndpointSetting where
  | cidLen (len : Nat)
  | statelessReset (enabled : Bool)
  | resetTokenKey (key : Bytes)
  | addressTokenLifetime (seconds : Nat)
  | sendBatchSize (size : Nat)

def EndpointConfig.set (config : EndpointConfig) : EndpointSetting → EndpointConfig
  | .cidLen len => { config with cidLen := len }
  | .statelessReset enabled => { config with statelessReset := enabled }
  | .resetTokenKey key => { config with resetTokenKey := some key }
  | .addressTokenLifetime seconds => { config with addressTokenLifetime := seconds }
  | .sendBatchSize size => { config with sendBatchSize := size }

variable (X) in
/-- `TransportConfigExt`. -/
inductive ExtSetting where
  | setCongestionControlAlgorithm (algo : X.CongestionControlAlgorithm)
  | setInitialCongestionWindow (packets : Nat)
  | setMinCongestionWindow (packets : Nat)
  | enablePacing (enabled : Bool)
  | enableMultipath (enabled : Bool)
  | setMultipathAlgorithm (algo : X.MultipathAlgorithm)
  | setBbrProbeRttDuration (millis : Nat)
  | enableBbrProbeRttBasedOnBdp (enabled : Bool)
  | setBbrProbeRttCwndGain (gain : X.F64)
  | setBbrRtpropFilterLen (millis : Nat)
  | setBbrProbeBwCwndGain (gain : X.F64)
  | setCopaSlowStartDelta (delta : X.F64)
  | setCopaSteadyDelta (delta : X.F64)
  | enableCopaUseStandingRtt (enabled : Bool)

def TransportExt.set (config : TransportExt X) : ExtSetting X → TransportExt X
  | .setCongestionControlAlgorithm algo => { config with congestionControlAlgorithm := some algo }
  | .setInitialCongestionWindow packets => { config with initialCongestionWindow := some packets }
  | .setMinCongestionWindow packets => { config with minCongestionWindow := some packets }
  | .enablePacing enabled => { config with enablePacing := some enabled }
  | .enableMultipath enabled => { config with enableMultipath := some enabled }
  | .setMultipathAlgorithm algo => { config with multipathAlgorithm := some algo }
  | .setBbrProbeRttDuration millis => { config with bbrProbeRttDuration := some millis }
  | .enableBbrProbeRttBasedOnBdp enabled => { config with bbrProbeRttBasedOnBdp := some enabled }
  | .setBbrProbeRttCwndGain gain => { config with bbrProbeRttCwndGain := some gain }
  | .setBbrRtpropFilterLen millis => { config with bbrRtpropFilterLen := some millis }
  | .setBbrProbeBwCwndGain gain => { config with bbrProbeBwCwndGain := some gain }
  | .setCopaSlowStartDelta delta => { config with copaSlowStartDelta := some delta }
  | .setCopaSteadyDelta delta => { config with copaSteadyDelta := some delta }
  | .enableCopaUseStandingRtt enabled => { config with copaUseStandingRtt := some enabled }

variable (X) in
inductive TransportSetting where
  | maxIdleTimeout (timeout : Option StdDuration)
  | maxHandshakeTimeout (timeout : Option StdDuration)
  | receiveWindow (bytes : Nat)
  | streamReceiveWindowBidiLocal (bytes : Nat)
  | streamReceiveWindowBidiRemote (bytes : Nat)
  | streamReceiveWindowUni (bytes : Nat)
  | maxConnectionWindow (bytes : Nat)
  | maxStreamWindow (bytes : Nat)
  | maxConcurrentBidiStreams (count : Nat)
  | maxConcurrentUniStreams (count : Nat)
  | enableMtuDiscovery (enabled : Bool)
  | initialRtt (rtt : StdDuration)
  | maxConcurrentConnections (count : Nat)
  | ext (setting : ExtSetting X)

/-- The trait `TransportConfigExt` is there with the feature `tquic-ext` only. -/
def TransportSetting.Exposed (feature : Bool) : TransportSetting X → Prop
  | .ext _ => feature = true
  | _ => True

namespace TransportConfig

theorem defaultIdle_lt : 30 < 2 ^ 64 := by decide

/-- `TransportConfig::new`, compiled with or without the feature `tquic-ext`. -/
def new (feature : Bool) : TransportConfig X :=
  { maxIdleTimeout := some (.fromSecs 30 defaultIdle_lt)
    ext := if feature then some {} else none }

def set (config : TransportConfig X) : TransportSetting X → TransportConfig X
  | .maxIdleTimeout timeout => config.setMaxIdleTimeout timeout
  | .maxHandshakeTimeout timeout => config.setMaxHandshakeTimeout timeout
  | .receiveWindow bytes => { config with initialMaxData := bytes }
  | .streamReceiveWindowBidiLocal bytes => { config with initialMaxStreamDataBidiLocal := bytes }
  | .streamReceiveWindowBidiRemote bytes => { config with initialMaxStreamDataBidiRemote := bytes }
  | .streamReceiveWindowUni bytes => { config with initialMaxStreamDataUni := bytes }
  | .maxConnectionWindow bytes => { config with maxConnectionWindow := bytes }
  | .maxStreamWindow bytes => { config with maxStreamWindow := bytes }
  | .maxConcurrentBidiStreams count => { config with initialMaxStreamsBidi := count }
  | .maxConcurrentUniStreams count => { config with initialMaxStreamsUni := count }
  | .enableMtuDiscovery enabled => { config with enableDplpmtud := enabled }
  | .initialRtt rtt => config.setInitialRtt rtt
  | .maxConcurrentConnections count => { config with maxConcurrentConns := count }
  | .ext setting => { config with ext := config.ext.map (fun ext => ext.set setting) }

end TransportConfig

variable (X) in
inductive ServerSetting where
  | transportConfig (config : TransportConfig X)
  | enableEarlyData (enabled : Bool)
  | enableRetry (enabled : Bool)

namespace ServerConfig

def new (feature : Bool) (certFile keyFile : String) (alpnProtocols : List Bytes) :
    ServerConfig X :=
  { transport := .new feature, certFile, keyFile, alpnProtocols }

def set (config : ServerConfig X) : ServerSetting X → ServerConfig X
  | .transportConfig transport => { config with transport }
  | .enableEarlyData enabled => { config with enableEarlyData := enabled }
  | .enableRetry enabled => { config with enableRetry := enabled }

end ServerConfig

variable (X) in
inductive ClientSetting where
  | transportConfig (config : TransportConfig X)
  | enableEarlyData (enabled : Bool)
  | verify (verify : Bool)
  | caCerts (path : String)

namespace ClientConfig

def new (feature : Bool) (alpnProtocols : List Bytes) : ClientConfig X :=
  { transport := .new feature, alpnProtocols }

def set (config : ClientConfig X) : ClientSetting X → ClientConfig X
  | .transportConfig transport => { config with transport }
  | .enableEarlyData enabled => { config with enableEarlyData := enabled }
  | .verify verify => { config with verify }
  | .caCerts path => { config with caCerts := some path }

end ClientConfig

/-! ## The methods of the engine -/

/-- Which method of `tquic::Config` a call is of. -/
inductive Method where
  | setCidLen | enableStatelessReset | setAddressTokenLifetime | setSendBatchSize
  | setResetTokenKey | setMaxIdleTimeout | setMaxHandshakeTimeout | setInitialMaxData
  | setInitialMaxStreamDataBidiLocal | setInitialMaxStreamDataBidiRemote
  | setInitialMaxStreamDataUni | setMaxConnectionWindow | setMaxStreamWindow
  | setInitialMaxStreamsBidi | setInitialMaxStreamsUni | enableDplpmtud
  | setSendUdpPayloadSize | setAckDelayExponent | setMaxAckDelay | setAckElicitingThreshold
  | setMaxConcurrentConns | setInitialRtt | setCongestionControlAlgorithm
  | setInitialCongestionWindow | setMinCongestionWindow | enablePacing | enableMultipath
  | setMultipathAlgorithm | setBbrProbeRttDuration | enableBbrProbeRttBasedOnBdp
  | setBbrProbeRttCwndGain | setBbrRtpropFilterLen | setBbrProbeBwCwndGain
  | setCopaSlowStartDelta | setCopaSteadyDelta | enableCopaUseStandingRtt | enableRetry
  | setTlsConfig
  deriving DecidableEq

def ConfigCall.method : ConfigCall X → Method
  | .setCidLen _ => .setCidLen
  | .enableStatelessReset _ => .enableStatelessReset
  | .setAddressTokenLifetime _ => .setAddressTokenLifetime
  | .setSendBatchSize _ => .setSendBatchSize
  | .setResetTokenKey _ => .setResetTokenKey
  | .setMaxIdleTimeout _ => .setMaxIdleTimeout
  | .setMaxHandshakeTimeout _ => .setMaxHandshakeTimeout
  | .setInitialMaxData _ => .setInitialMaxData
  | .setInitialMaxStreamDataBidiLocal _ => .setInitialMaxStreamDataBidiLocal
  | .setInitialMaxStreamDataBidiRemote _ => .setInitialMaxStreamDataBidiRemote
  | .setInitialMaxStreamDataUni _ => .setInitialMaxStreamDataUni
  | .setMaxConnectionWindow _ => .setMaxConnectionWindow
  | .setMaxStreamWindow _ => .setMaxStreamWindow
  | .setInitialMaxStreamsBidi _ => .setInitialMaxStreamsBidi
  | .setInitialMaxStreamsUni _ => .setInitialMaxStreamsUni
  | .enableDplpmtud _ => .enableDplpmtud
  | .setSendUdpPayloadSize _ => .setSendUdpPayloadSize
  | .setAckDelayExponent _ => .setAckDelayExponent
  | .setMaxAckDelay _ => .setMaxAckDelay
  | .setAckElicitingThreshold _ => .setAckElicitingThreshold
  | .setMaxConcurrentConns _ => .setMaxConcurrentConns
  | .setInitialRtt _ => .setInitialRtt
  | .setCongestionControlAlgorithm _ => .setCongestionControlAlgorithm
  | .setInitialCongestionWindow _ => .setInitialCongestionWindow
  | .setMinCongestionWindow _ => .setMinCongestionWindow
  | .enablePacing _ => .enablePacing
  | .enableMultipath _ => .enableMultipath
  | .setMultipathAlgorithm _ => .setMultipathAlgorithm
  | .setBbrProbeRttDuration _ => .setBbrProbeRttDuration
  | .enableBbrProbeRttBasedOnBdp _ => .enableBbrProbeRttBasedOnBdp
  | .setBbrProbeRttCwndGain _ => .setBbrProbeRttCwndGain
  | .setBbrRtpropFilterLen _ => .setBbrRtpropFilterLen
  | .setBbrProbeBwCwndGain _ => .setBbrProbeBwCwndGain
  | .setCopaSlowStartDelta _ => .setCopaSlowStartDelta
  | .setCopaSteadyDelta _ => .setCopaSteadyDelta
  | .enableCopaUseStandingRtt _ => .enableCopaUseStandingRtt
  | .enableRetry _ => .enableRetry
  | .setTlsConfig _ => .setTlsConfig

/-- The calls of one method, in their order. -/
def TquicConfig.callsOf (method : Method) (config : TquicConfig X) : TquicConfig X :=
  config.filter (fun call => call.method = method)

namespace TquicConfig

theorem callsOf_nil (m : Method) : callsOf m ([] : TquicConfig X) = [] := List.filter_nil

theorem callsOf_append (m : Method) (a b : TquicConfig X) :
    callsOf m (a ++ b) = callsOf m a ++ callsOf m b := List.filter_append _ _

theorem callsOf_cons (m : Method) (call : ConfigCall X) (config : TquicConfig X) :
    callsOf m (call :: config) =
      (if call.method = m then [call] else []) ++ callsOf m config := by
  by_cases hm : call.method = m <;> simp [callsOf, hm]

theorem callsOf_optCall {α : Type} (m : Method) (value : Option α) (call : α → ConfigCall X) :
    callsOf m (optCall value call) =
      (value.toList.filter (fun v => (call v).method = m)).map call := by
  cases value with
  | none => rfl
  | some v => by_cases hm : (call v).method = m <;> simp [callsOf, optCall, hm]

end TquicConfig

/-! ## What a setter writes -/

def EndpointSetting.call : EndpointSetting → ConfigCall X
  | .cidLen len => .setCidLen len
  | .statelessReset enabled => .enableStatelessReset enabled
  | .resetTokenKey key => .setResetTokenKey key
  | .addressTokenLifetime seconds => .setAddressTokenLifetime seconds
  | .sendBatchSize size => .setSendBatchSize size

def ExtSetting.call : ExtSetting X → ConfigCall X
  | .setCongestionControlAlgorithm algo => .setCongestionControlAlgorithm algo
  | .setInitialCongestionWindow packets => .setInitialCongestionWindow packets
  | .setMinCongestionWindow packets => .setMinCongestionWindow packets
  | .enablePacing enabled => .enablePacing enabled
  | .enableMultipath enabled => .enableMultipath enabled
  | .setMultipathAlgorithm algo => .setMultipathAlgorithm algo
  | .setBbrProbeRttDuration millis => .setBbrProbeRttDuration millis
  | .enableBbrProbeRttBasedOnBdp enabled => .enableBbrProbeRttBasedOnBdp enabled
  | .setBbrProbeRttCwndGain gain => .setBbrProbeRttCwndGain gain
  | .setBbrRtpropFilterLen millis => .setBbrRtpropFilterLen millis
  | .setBbrProbeBwCwndGain gain => .setBbrProbeBwCwndGain gain
  | .setCopaSlowStartDelta delta => .setCopaSlowStartDelta delta
  | .setCopaSteadyDelta delta => .setCopaSteadyDelta delta
  | .enableCopaUseStandingRtt enabled => .enableCopaUseStandingRtt enabled

def TransportSetting.method : TransportSetting X → Method
  | .maxIdleTimeout _ => .setMaxIdleTimeout
  | .maxHandshakeTimeout _ => .setMaxHandshakeTimeout
  | .receiveWindow _ => .setInitialMaxData
  | .streamReceiveWindowBidiLocal _ => .setInitialMaxStreamDataBidiLocal
  | .streamReceiveWindowBidiRemote _ => .setInitialMaxStreamDataBidiRemote
  | .streamReceiveWindowUni _ => .setInitialMaxStreamDataUni
  | .maxConnectionWindow _ => .setMaxConnectionWindow
  | .maxStreamWindow _ => .setMaxStreamWindow
  | .maxConcurrentBidiStreams _ => .setInitialMaxStreamsBidi
  | .maxConcurrentUniStreams _ => .setInitialMaxStreamsUni
  | .enableMtuDiscovery _ => .enableDplpmtud
  | .initialRtt _ => .setInitialRtt
  | .maxConcurrentConnections _ => .setMaxConcurrentConns
  | .ext setting => setting.call.method

/-- Without a handshake timeout the engine keeps its own. -/
def TransportSetting.calls : TransportSetting X → TquicConfig X
  | .maxIdleTimeout timeout => [.setMaxIdleTimeout ((timeout.map StdDuration.millis).getD 0)]
  | .maxHandshakeTimeout timeout => timeout.toList.map fun d => .setMaxHandshakeTimeout d.millis
  | .receiveWindow bytes => [.setInitialMaxData bytes]
  | .streamReceiveWindowBidiLocal bytes => [.setInitialMaxStreamDataBidiLocal bytes]
  | .streamReceiveWindowBidiRemote bytes => [.setInitialMaxStreamDataBidiRemote bytes]
  | .streamReceiveWindowUni bytes => [.setInitialMaxStreamDataUni bytes]
  | .maxConnectionWindow bytes => [.setMaxConnectionWindow bytes]
  | .maxStreamWindow bytes => [.setMaxStreamWindow bytes]
  | .maxConcurrentBidiStreams count => [.setInitialMaxStreamsBidi count]
  | .maxConcurrentUniStreams count => [.setInitialMaxStreamsUni count]
  | .enableMtuDiscovery enabled => [.enableDplpmtud enabled]
  | .initialRtt rtt => [.setInitialRtt rtt.millis]
  | .maxConcurrentConnections count => [.setMaxConcurrentConns count]
  | .ext setting => [setting.call]

open TquicConfig

/-- What the setter writes of the calls of a method. -/
def EndpointSetting.written (m : Method) (s : EndpointSetting) : Option (TquicConfig X) :=
  if (s.call : ConfigCall X).method = m then some [s.call] else none

def ExtSetting.written (m : Method) (s : ExtSetting X) : Option (TquicConfig X) :=
  if s.call.method = m then some [s.call] else none

def TransportSetting.written (m : Method) (s : TransportSetting X) : Option (TquicConfig X) :=
  if s.method = m then some s.calls else none

theorem endpoint_writes (m : Method) :
    Writes EndpointConfig.set (fun c => callsOf m (endpointCalls c : TquicConfig X))
      (EndpointSetting.written m) (fun _ _ => True) where
  read := by
    intro c s _
    unfold EndpointSetting.written
    by_cases hm : (s.call : ConfigCall X).method = m
    · subst hm
      cases s <;>
        simp [endpointCalls, callsOf_cons, callsOf_optCall, EndpointConfig.set,
          EndpointSetting.call, ConfigCall.method]
    · rw [if_neg hm]
      cases s <;>
        simp_all [endpointCalls, callsOf_cons, callsOf_optCall, EndpointConfig.set,
          EndpointSetting.call, ConfigCall.method]
  place := fun _ _ _ h => h

theorem ext_read (m : Method) (c : TransportExt X) (s : ExtSetting X) :
    callsOf m (extCalls (c.set s)) = (s.written m).getD (callsOf m (extCalls c)) := by
  unfold ExtSetting.written
  by_cases hm : s.call.method = m
  · subst hm
    cases s <;>
      simp [extCalls, callsOf_append, callsOf_optCall, TransportExt.set, ExtSetting.call,
        ConfigCall.method]
  · rw [if_neg hm]
    cases s <;>
      simp_all [extCalls, callsOf_append, callsOf_optCall, TransportExt.set, ExtSetting.call,
        ConfigCall.method]

/-- The calls of `build_tquic_config` for the transport that are there without the feature. -/
def plainCalls (transport : TransportConfig X) : TquicConfig X :=
  [.setMaxIdleTimeout ((transport.maxIdleTimeout.map StdDuration.millis).getD 0)] ++
  optCall transport.maxHandshakeTimeout
    (fun handshake => .setMaxHandshakeTimeout handshake.millis) ++
  flowCalls transport ++
  optCall transport.initialRtt (fun rtt => .setInitialRtt rtt.millis)

theorem transportCalls_eq (transport : TransportConfig X) :
    transportCalls transport = plainCalls transport ++ transport.ext.elim [] extCalls := rfl

theorem plain_ext (c : TransportConfig X) (s : ExtSetting X) :
    callsOf s.call.method (plainCalls c) = [] := by
  cases s <;>
    simp [plainCalls, flowCalls, callsOf_append, callsOf_cons, callsOf_optCall,
      ExtSetting.call, ConfigCall.method]

theorem ext_plain {c : TransportExt X} {s : TransportSetting X} (h : s.Exposed false) :
    callsOf s.method (extCalls c) = [] := by
  cases s <;>
    simp_all [TransportSetting.Exposed, TransportSetting.method, extCalls, callsOf_append,
      callsOf_optCall, ConfigCall.method]

theorem TransportSetting.ext_or_plain (s : TransportSetting X) :
    (∃ e, s = .ext e) ∨ s.Exposed false := by
  cases s with
  | ext e => exact Or.inl ⟨e, rfl⟩
  | _ => exact Or.inr trivial

theorem set_ext {c : TransportConfig X} {s : TransportSetting X} (h : s.Exposed false) :
    (c.set s).ext = c.ext := by
  cases s with
  | ext s => cases h
  | _ => rfl

theorem set_ext_isSome (c : TransportConfig X) (s : TransportSetting X) :
    (c.set s).ext.isSome = c.ext.isSome := by
  rcases s.ext_or_plain with ⟨e, rfl⟩ | h
  · exact Option.isSome_map
  · rw [set_ext h]

theorem plain_read (m : Method) (c : TransportConfig X) {s : TransportSetting X}
    (h : s.Exposed false) :
    callsOf m (plainCalls (c.set s)) = (s.written m).getD (callsOf m (plainCalls c)) := by
  unfold TransportSetting.written
  by_cases hm : s.method = m
  · subst hm
    cases s <;>
      simp_all [TransportSetting.Exposed, TransportSetting.method, TransportSetting.calls,
        TransportConfig.set, TransportConfig.setMaxIdleTimeout,
        TransportConfig.setMaxHandshakeTimeout, TransportConfig.setInitialRtt, plainCalls,
        flowCalls, callsOf_append, callsOf_cons, callsOf_optCall, ConfigCall.method]
  · rw [if_neg hm]
    cases s <;>
      simp_all [TransportSetting.Exposed, TransportSetting.method,
        TransportConfig.set, TransportConfig.setMaxIdleTimeout,
        TransportConfig.setMaxHandshakeTimeout, TransportConfig.setInitialRtt, plainCalls,
        flowCalls, callsOf_append, callsOf_cons, callsOf_optCall, ConfigCall.method]

theorem ext_setting_read (m : Method) {c : TransportConfig X} {e : TransportExt X}
    (s : ExtSetting X) (he : c.ext = some e) :
    callsOf m (transportCalls (c.set (.ext s))) =
      ((TransportSetting.ext s).written m).getD (callsOf m (transportCalls c)) := by
  have hext : (c.set (.ext s)).ext = some (e.set s) := by
    simp [TransportConfig.set, he]
  have hplain : plainCalls (c.set (.ext s)) = plainCalls c := rfl
  rw [transportCalls_eq, transportCalls_eq, callsOf_append, callsOf_append, hplain, hext, he,
    Option.elim_some, Option.elim_some, ext_read]
  by_cases hm : s.call.method = m
  · subst hm
    rw [plain_ext]
    simp [ExtSetting.written, TransportSetting.written, TransportSetting.method,
      TransportSetting.calls]
  · simp [ExtSetting.written, TransportSetting.written, TransportSetting.method, hm]

theorem plain_setting_read (m : Method) (c : TransportConfig X) {s : TransportSetting X}
    (h : s.Exposed false) :
    callsOf m (transportCalls (c.set s)) = (s.written m).getD (callsOf m (transportCalls c)) := by
  rw [transportCalls_eq, transportCalls_eq, callsOf_append, callsOf_append, plain_read m c h,
    set_ext h]
  by_cases hm : s.method = m
  · subst hm
    have hext : callsOf s.method (c.ext.elim [] extCalls) = [] := by
      cases c.ext with
      | none => exact callsOf_nil _
      | some e => exact ext_plain h
    rw [hext]
    simp [TransportSetting.written]
  · simp [TransportSetting.written, hm]

theorem transport_writes (m : Method) :
    Writes TransportConfig.set (fun (c : TransportConfig X) => callsOf m (transportCalls c))
      (TransportSetting.written m) (fun c s => s.Exposed c.ext.isSome) where
  read := by
    intro c s hplace
    rcases s.ext_or_plain with ⟨e, rfl⟩ | h
    · obtain ⟨ext, hext⟩ := Option.isSome_iff_exists.mp hplace
      exact ext_setting_read m e hext
    · exact plain_setting_read m c h
  place := by
    intro c s s' h
    rw [set_ext_isSome]
    exact h

/-! ## The order of the calls -/

namespace Method

def endpoint : List Method :=
  [.setCidLen, .enableStatelessReset, .setAddressTokenLifetime, .setSendBatchSize,
    .setResetTokenKey]

def transport : List Method :=
  [.setMaxIdleTimeout, .setMaxHandshakeTimeout, .setInitialMaxData,
    .setInitialMaxStreamDataBidiLocal, .setInitialMaxStreamDataBidiRemote,
    .setInitialMaxStreamDataUni, .setMaxConnectionWindow, .setMaxStreamWindow,
    .setInitialMaxStreamsBidi, .setInitialMaxStreamsUni, .enableDplpmtud,
    .setSendUdpPayloadSize, .setAckDelayExponent, .setMaxAckDelay, .setAckElicitingThreshold,
    .setMaxConcurrentConns, .setInitialRtt]

def ext : List Method :=
  [.setCongestionControlAlgorithm, .setInitialCongestionWindow, .setMinCongestionWindow,
    .enablePacing, .enableMultipath, .setMultipathAlgorithm, .setBbrProbeRttDuration,
    .enableBbrProbeRttBasedOnBdp, .setBbrProbeRttCwndGain, .setBbrRtpropFilterLen,
    .setBbrProbeBwCwndGain, .setCopaSlowStartDelta, .setCopaSteadyDelta,
    .enableCopaUseStandingRtt]

/-- All methods, as `build_tquic_config` comes to them. -/
def order : List Method := endpoint ++ (transport ++ ext) ++ [.enableRetry] ++ [.setTlsConfig]

theorem order_nodup : order.Nodup := by decide

end Method

section
variable {α : Type} {value : Option α} {call : α → ConfigCall X} {m : Method}

theorem optCall_order (h : ∀ v, (call v).method = m) :
    ((optCall value call).map ConfigCall.method).Sublist [m] := by
  cases value with
  | none => exact List.nil_sublist _
  | some v =>
    unfold optCall
    rw [Option.map_some, Option.toList_some, List.map_singleton, h v]

theorem optCall_append_order (h : ∀ v, (call v).method = m) {rest : TquicConfig X}
    {ms : List Method} (hrest : (rest.map ConfigCall.method).Sublist ms) :
    ((optCall value call ++ rest).map ConfigCall.method).Sublist (m :: ms) := by
  rw [List.map_append]
  exact (optCall_order h).append hrest

end

theorem endpoint_order (c : EndpointConfig) :
    ((endpointCalls c : TquicConfig X).map ConfigCall.method).Sublist Method.endpoint := by
  unfold endpointCalls
  simp only [List.cons_append, List.nil_append, List.map_cons]
  iterate 4 apply List.Sublist.cons_cons
  exact optCall_order fun _ => rfl

theorem plain_order (c : TransportConfig X) :
    ((plainCalls c).map ConfigCall.method).Sublist Method.transport := by
  unfold plainCalls flowCalls
  simp only [List.append_assoc, List.cons_append, List.nil_append, List.map_cons]
  apply List.Sublist.cons_cons
  apply optCall_append_order
  · exact fun _ => rfl
  simp only [List.map_cons]
  iterate 9 apply List.Sublist.cons_cons
  iterate 4
    apply optCall_append_order
    · exact fun _ => rfl
  apply List.Sublist.cons_cons
  exact optCall_order fun _ => rfl

theorem ext_order (c : TransportExt X) :
    ((extCalls c).map ConfigCall.method).Sublist Method.ext := by
  unfold extCalls
  simp only [List.append_assoc]
  iterate 13
    apply optCall_append_order
    · exact fun _ => rfl
  exact optCall_order fun _ => rfl

theorem transport_order (c : TransportConfig X) :
    ((transportCalls c).map ConfigCall.method).Sublist (Method.transport ++ Method.ext) := by
  rw [transportCalls_eq, List.map_append]
  apply (plain_order c).append
  cases c.ext with
  | none => exact List.nil_sublist _
  | some e => exact ext_order e

theorem callsOf_length (m : Method) (config : TquicConfig X) :
    (callsOf m config).length = (config.map ConfigCall.method).count m := by
  induction config with
  | nil => rfl
  | cons call config ih =>
    rw [callsOf_cons, List.length_append, List.map_cons, List.count_cons, ih]
    by_cases hm : call.method = m <;> simp [hm, Nat.add_comm]

theorem once_of_order {config : TquicConfig X}
    (h : (config.map ConfigCall.method).Sublist Method.order) (m : Method) :
    (callsOf m config).length ≤ 1 := by
  rw [callsOf_length]
  have hle := h.count_le m
  have hone := List.nodup_iff_count.mp Method.order_nodup m
  omega

/-! ## What a configuration is made of -/

/-- The engine was told the endpoint settings, this transport configuration and these two
values, in the one order and nothing twice. -/
structure Learns (config : TquicConfig X) (es : List EndpointSetting)
    (transport : TransportConfig X) (retry : Option Bool) (tls : X.TlsConfig) : Prop where
  order : (config.map ConfigCall.method).Sublist Method.order
  once : ∀ m, (callsOf m config).length ≤ 1
  calls : ∀ m, callsOf m config =
    (lastWritten (EndpointSetting.written m) es).getD (callsOf m (endpointCalls {})) ++
      callsOf m (transportCalls transport) ++ callsOf m (optCall retry .enableRetry) ++
      callsOf m [.setTlsConfig tls]

theorem build_learns {api : ConfigApi X} {es : List EndpointSetting}
    {transport : TransportConfig X} {tls : X.TlsConfig} {serverConfig : Option (ServerConfig X)}
    {config : TquicConfig X}
    (h : buildTquicConfig api (es.foldl EndpointConfig.set {}) transport tls serverConfig =
      .ok config) :
    Learns config es transport (serverConfig.map ServerConfig.enableRetry) tls := by
  have hretry : optCall serverConfig (fun sc => ConfigCall.enableRetry (X := X) sc.enableRetry) =
      optCall (serverConfig.map ServerConfig.enableRetry) .enableRetry := by
    cases serverConfig <;> rfl
  unfold buildTquicConfig at h
  split at h
  · cases h
  · obtain rfl := Except.ok.inj h
    rw [hretry]
    have horder : ((endpointCalls (es.foldl EndpointConfig.set {}) ++ transportCalls transport ++
        optCall (serverConfig.map ServerConfig.enableRetry) .enableRetry ++
        [ConfigCall.setTlsConfig tls]).map ConfigCall.method).Sublist Method.order := by
      simp only [List.map_append]
      apply List.Sublist.append
      · apply List.Sublist.append
        · exact (endpoint_order _).append (transport_order transport)
        · exact optCall_order fun _ => rfl
      · exact List.Sublist.refl _
    refine ⟨horder, once_of_order horder, fun m => ?_⟩
    rw [callsOf_append, callsOf_append, callsOf_append,
      (endpoint_writes m).run {} es fun _ _ => trivial]

namespace ServerSetting

def transport : ServerSetting X → Option (TransportConfig X)
  | .transportConfig config => some config
  | _ => none

def earlyData : ServerSetting X → Option Bool
  | .enableEarlyData enabled => some enabled
  | _ => none

def retry : ServerSetting X → Option Bool
  | .enableRetry enabled => some enabled
  | _ => none

end ServerSetting

namespace ClientSetting

def transport : ClientSetting X → Option (TransportConfig X)
  | .transportConfig config => some config
  | _ => none

def earlyData : ClientSetting X → Option Bool
  | .enableEarlyData enabled => some enabled
  | _ => none

def verification : ClientSetting X → Option Bool
  | .verify value => some value
  | _ => none

def caPath : ClientSetting X → Option (Option String)
  | .caCerts path => some (some path)
  | _ => none

end ClientSetting

theorem server_set (feature : Bool) (certFile keyFile : String) (alpnProtocols : List Bytes)
    (ss : List (ServerSetting X)) :
    ss.foldl ServerConfig.set (.new feature certFile keyFile alpnProtocols) =
      { transport := (lastWritten ServerSetting.transport ss).getD (.new feature)
        certFile, keyFile, alpnProtocols
        enableEarlyData := (lastWritten ServerSetting.earlyData ss).getD false
        enableRetry := (lastWritten ServerSetting.retry ss).getD false } := by
  induction ss using List.reverseRecOn with
  | nil => rfl
  | append_singleton ss s ih =>
    rw [List.foldl_append, ih, lastWritten_snoc, lastWritten_snoc, lastWritten_snoc]
    cases s <;> rfl

theorem client_set (feature : Bool) (alpnProtocols : List Bytes) (cs : List (ClientSetting X)) :
    cs.foldl ClientConfig.set (.new feature alpnProtocols) =
      { transport := (lastWritten ClientSetting.transport cs).getD (.new feature)
        alpnProtocols
        enableEarlyData := (lastWritten ClientSetting.earlyData cs).getD false
        verify := (lastWritten ClientSetting.verification cs).getD true
        caCerts := (lastWritten ClientSetting.caPath cs).getD none } := by
  induction cs using List.reverseRecOn with
  | nil => rfl
  | append_singleton cs s ih =>
    rw [List.foldl_append, ih, lastWritten_snoc, lastWritten_snoc, lastWritten_snoc,
      lastWritten_snoc]
    cases s <;> rfl

theorem serverTls_ok {api : ConfigApi X} {display : SocketAddr → String} {sc : ServerConfig X}
    {dflt : Option (ClientConfig X)} {tls : X.TlsConfig}
    (h : (endpointTls (some sc) dflt).build api display = .ok tls) :
    api.newServerConfig sc.certFile sc.keyFile sc.alpnProtocols sc.enableEarlyData = .ok tls := by
  have hserver : (buildServerTlsConfig api sc).mapError (ConnectError.text display) = .ok tls := h
  unfold buildServerTlsConfig at hserver
  split at hserver
  · cases hserver
  · rename_i tls' htls
    rw [htls]
    exact hserver

theorem endpoint_build {api : ConfigApi X} {display : SocketAddr → String}
    {endpoint : EndpointConfig} {sc : ServerConfig X} {dflt : Option (ClientConfig X)}
    {config : TquicConfig X}
    (h : endpointTquicConfig api display endpoint (some sc) dflt = .ok config) :
    ∃ tls,
      api.newServerConfig sc.certFile sc.keyFile sc.alpnProtocols sc.enableEarlyData = .ok tls ∧
      buildTquicConfig api endpoint sc.transport tls (some sc) = .ok config := by
  unfold endpointTquicConfig at h
  split at h
  · cases h
  · rename_i tls htls
    have hbuilt : (buildTquicConfig api endpoint sc.transport tls (some sc)).mapError
        (ConnectError.text display) = .ok config := h
    refine ⟨tls, serverTls_ok htls, ?_⟩
    cases hb : buildTquicConfig api endpoint sc.transport tls (some sc) with
    | error e => simp [hb, Except.mapError] at hbuilt
    | ok config' => simpa [hb, Except.mapError] using hbuilt

theorem exposed_new {feature : Bool} {s : TransportSetting X} (h : s.Exposed feature) :
    s.Exposed (TransportConfig.new (X := X) feature).ext.isSome := by
  cases feature <;> exact h

/-- A server endpoint and an outgoing connection of any API configurations: every method of
the engine's configuration is called at most once and with what the last setter about it was
given, or its default; the TLS configuration is made of the last values as well. -/
theorem settings_reach_engine (api : ConfigApi X) (display : SocketAddr → String) (feature : Bool)
    (es : List EndpointSetting) :
    (∀ ts : List (TransportSetting X), (∀ s ∈ ts, s.Exposed feature) → ∀ m,
      callsOf m (transportCalls (ts.foldl TransportConfig.set (.new feature))) =
        (lastWritten (TransportSetting.written m) ts).getD
          (callsOf m (transportCalls (.new feature)))) ∧
    (∀ ss certFile keyFile alpnProtocols defaultClientConfig config,
      endpointTquicConfig api display (es.foldl EndpointConfig.set {})
        (some (ss.foldl ServerConfig.set (.new feature certFile keyFile alpnProtocols)))
        defaultClientConfig = .ok config →
      ∃ tls, api.newServerConfig certFile keyFile alpnProtocols
          ((lastWritten ServerSetting.earlyData ss).getD false) = .ok tls ∧
        Learns config es ((lastWritten ServerSetting.transport ss).getD (.new feature))
          (some ((lastWritten ServerSetting.retry ss).getD false)) tls) ∧
    ∀ cs alpnProtocols config,
      clientTquicConfig api (es.foldl EndpointConfig.set {})
        (cs.foldl ClientConfig.set (.new feature alpnProtocols)) = .ok config →
      ∃ tls, buildClientTlsConfig api
          { transport := (lastWritten ClientSetting.transport cs).getD (.new feature)
            alpnProtocols
            enableEarlyData := (lastWritten ClientSetting.earlyData cs).getD false
            verify := (lastWritten ClientSetting.verification cs).getD true
            caCerts := (lastWritten ClientSetting.caPath cs).getD none } = .ok tls ∧
        Learns config es ((lastWritten ClientSetting.transport cs).getD (.new feature)) none
          tls := by
  refine ⟨?transport, ?server, ?client⟩
  case transport =>
    intro ts hts m
    exact (transport_writes m).run (.new feature) ts fun s hs => exposed_new (hts s hs)
  case server =>
    intro ss certFile keyFile alpnProtocols defaultClientConfig config h
    rw [server_set] at h
    obtain ⟨tls, htls, hbuilt⟩ := endpoint_build h
    exact ⟨tls, htls, build_learns hbuilt⟩
  case client =>
    intro cs alpnProtocols config h
    rw [client_set] at h
    unfold clientTquicConfig at h
    split at h
    · cases h
    · rename_i tls htls
      exact ⟨tls, htls, build_learns h⟩

/-- The second window replaces the first, and verification once off is on again. -/
theorem settings_reach_engine_again :
    callsOf .setInitialMaxData (transportCalls
      ([TransportSetting.receiveWindow 7, .enableMtuDiscovery false, .receiveWindow 9].foldl
        TransportConfig.set (.new false : TransportConfig .units))) = [.setInitialMaxData 9] ∧
    ∃ tls, buildClientTlsConfig ConfigApi.accepting
      { transport := .new false, alpnProtocols := [], enableEarlyData := false, verify := true
        caCerts := none } = .ok tls := by
  obtain ⟨htransport, -, hclient⟩ :=
    settings_reach_engine (X := .units) ConfigApi.accepting (fun _ => "") false []
  constructor
  · rw [htransport _ (by simp [TransportSetting.Exposed])]
    rfl
  · obtain ⟨tls, htls, -⟩ := hclient [.verify false, .verify true] [] _ rfl
    exact ⟨tls, htls⟩

end TokioTquic
