import TokioTquic.Handles

/-!
# The events of the handles, case by case

What an event requires of the state it happens in and what state it leads to.
-/

namespace TokioTquic
open Async
set_option autoImplicit false

universe u
variable {κ : Type u} {χ ψ : Type}

namespace Handles

inductive Steps (T : Tquic κ) (configError : χ → Option ConnectError) (s : Handles κ χ ψ) :
    HandlesEvent κ χ ψ → Handles κ χ ψ → Prop where
  | connCreated {new : NewConn κ} {isServer : Bool} {t : Handles κ χ ψ}
      (hcreate : s.create new isServer = some t) : Steps T configError s (.connCreated new isServer) t
  | callback {index : Nat} {cb : Callback} {slot : Slot κ} (hslot : s.slab index = some slot)
      (hcb : ∀ info, cb ≠ .onConnClosed info) :
      Steps T configError s (.callback index cb)
        { s with handle := s.handle.callback (some index) cb }
  | closed {index : Nat} {info : CloseInfo} {slot : Slot κ} (hslot : s.slab index = some slot)
      (hopen : slot.reported = false) :
      Steps T configError s (.callback index (.onConnClosed info)) { s with
        handle := s.handle.callback (some index) (.onConnClosed info)
        slab := Function.update s.slab index (some { slot with reported := true }) }
  | engine {index : Nat} {conn : κ} {slot : Slot κ} (hslot : s.slab index = some slot) :
      Steps T configError s (.engine index conn)
        { s with slab := Function.update s.slab index (some { slot with conn := conn }) }
  | release {index : Nat} {slot : Slot κ} (hslot : s.slab index = some slot)
      (hreported : slot.reported = true) :
      Steps T configError s (.release index) { s with slab := Function.update s.slab index none }
  | process {answer : Except TquicError (NewConn κ)} {origin : Option Nat}
      {cmd : BridgeCommand χ ψ Respond} {queue : List (Option Nat × BridgeCommand χ ψ Respond)}
      {t : Handles κ χ ψ} (hqueue : s.queue = (origin, cmd) :: queue)
      (hcmd : { s with queue := queue }.processCommand T configError answer cmd = some t) :
      Steps T configError s (.process answer) t
  | refused {addr : SocketAddr} {serverName : String} {clientConfig : Option χ}
      (hclosed : s.handle.endpointClosed = true) :
      Steps T configError s (.connect addr serverName clientConfig) s
  | connect {addr : SocketAddr} {serverName : String} {clientConfig : Option χ}
      (hopen : s.handle.endpointClosed = false) :
      Steps T configError s (.connect addr serverName clientConfig)
        ((s.sendEndpoint (.connect addr serverName clientConfig (s.next, s.next))).add
          ⟨none, .connecting ⟨some none, none, addr⟩⟩)
  | setDefaultClientConfig {config : χ} :
      Steps T configError s (.setDefaultClientConfig config)
        (s.sendEndpoint (.setDefaultClientConfig config))
  | setServerConfig {config : Option ψ} :
      Steps T configError s (.setServerConfig config) (s.sendEndpoint (.setServerConfig config))
  | closeEndpoint {errorCode : VarInt} {reason : Bytes} :
      Steps T configError s (.closeEndpoint errorCode reason)
        (s.sendEndpoint (.closeEndpoint errorCode.intoInner reason))
  | accept {uid : Nat} {data : IncomingData} {incoming : List (Nat × IncomingData)}
      (hopen : s.handle.endpointClosed = false) (hincoming : s.handle.incoming = (uid, data) :: incoming) :
      Steps T configError s .accept
        ({ s with handle := { s.handle with incoming := incoming } }.add
          ⟨some uid, .incoming data.connId data.remoteAddr⟩)
  | use {id : Nat} {h : Handle} {op : Op} {t : Handles κ χ ψ} (hh : s.values id = some h)
      (huse : s.useValue id h op = some t) : Steps T configError s (.use id op) t

theorem step_inv {T : Tquic κ} {configError : χ → Option ConnectError} {s t : Handles κ χ ψ}
    {e : HandlesEvent κ χ ψ} (hstep : s.step T configError e = some t) :
    Steps T configError s e t := by
  cases e with
  | connCreated new isServer => exact .connCreated hstep
  | callback index cb =>
    simp only [step, runCallback] at hstep
    split at hstep
    · cases hstep
    · rename_i slot hslot
      cases cb with
      | onConnClosed info =>
        simp only at hstep
        split at hstep <;> cases hstep
        rename_i hopen
        exact .closed hslot (Bool.eq_false_iff.mpr hopen)
      | _ =>
        cases hstep
        exact .callback hslot (by simp)
  | engine index conn =>
    obtain ⟨slot, hslot, rfl⟩ := Option.map_eq_some_iff.mp hstep
    exact .engine hslot
  | release index =>
    simp only [step] at hstep
    split at hstep
    · rename_i slot hslot
      split at hstep <;> cases hstep
      rename_i hreported
      exact .release hslot hreported
    · cases hstep
  | process answer =>
    simp only [step, Handles.process] at hstep
    split at hstep
    · cases hstep
    · rename_i hqueue
      exact .process hqueue hstep
  | connect addr serverName clientConfig =>
    simp only [step] at hstep
    split at hstep <;> cases hstep
    · rename_i hclosed
      exact .refused hclosed
    · rename_i hopen
      exact .connect (Bool.eq_false_iff.mpr hopen)
  | setDefaultClientConfig config =>
    cases hstep
    exact .setDefaultClientConfig
  | setServerConfig config =>
    cases hstep
    exact .setServerConfig
  | closeEndpoint errorCode reason =>
    cases hstep
    exact .closeEndpoint
  | accept =>
    simp only [step, Handles.accept] at hstep
    split at hstep
    · cases hstep
    · rename_i hopen
      split at hstep <;> cases hstep
      rename_i hincoming
      exact .accept (Bool.eq_false_iff.mpr hopen) hincoming
  | use id op =>
    simp only [step] at hstep
    split at hstep
    · rename_i hh
      exact .use hh hstep
    · cases hstep

end Handles

end TokioTquic
