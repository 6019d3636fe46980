import TokioTquic.Async.Transition
import TokioTquic.EngineConfig

/-!
# The thread of the bridge

`Bridge::spawn` on the thread of the caller, and the thread `tquic-io` it
starts: first the steps up to the endpoint, which may fail, then the loop of
`run_bridge`. The two share a channel for the outcome of the start, the handle
and, after the start, the queue of commands.
-/

namespace TokioTquic
open Async
set_option autoImplicit false

universe u

/-- What `Bridge::spawn` is called with, and what the system answers on the way. -/
structure Start (X : TquicTypes) where
  api : ConfigApi X
  display : SocketAddr → String
  endpointConfig : EndpointConfig
  serverConfig : Option (ServerConfig X)
  defaultClientConfig : Option (ClientConfig X)
  bind : Except String Unit
  setNonblocking : Except String Unit
  localAddr : Except String SocketAddr
  spawnThread : Except String Unit
  buildRuntime : Except String Unit
  fromStd : Except String Unit

inductive StartError where
  | system (error : String)
  | other (message : String)
  deriving DecidableEq

inductive SpawnPoint where
  | bind
  | setNonblocking
  | localAddr
  | spawnThread (localAddr : SocketAddr)
  | recv (localAddr : SocketAddr)
  | returned (result : Except StartError SocketAddr)
  deriving DecidableEq

/-- Where the thread is. In `unwinding` it has left its code and drops what it owns. -/
inductive IoThread where
  | unborn
  | buildRuntime
  | fromStd
  | buildConfig
  | signalReady
  | select
  | processConnections
  | close
  | unwinding
  | ended
  deriving DecidableEq

inductive EndpointCall (X : TquicTypes) (ρ : Type u) where
  | new (config : TquicConfig X) (isServer : Bool)
  | recv (data : Bytes) (src dst : SocketAddr)
  | command (cmd : BridgeCommand (ClientConfig X) (ServerConfig X) ρ)
  | onTimeout
  | processConnections
  | close (force : Bool)

/-- `ready` is the message in the channel `ready_tx`, `arcs` the number of references to
the `BridgeHandle`, of which `users` belong to the program. -/
structure EventLoop (X : TquicTypes) (ρ : Type u) where
  caller : SpawnPoint
  thread : IoThread
  ready : Option (Except String Unit)
  readyTx : Bool
  socket : Bool
  arcs : Nat
  users : Nat
  queue : List (BridgeCommand (ClientConfig X) (ServerConfig X) ρ)
  sent : List (BridgeCommand (ClientConfig X) (ServerConfig X) ρ)
  calls : List (EndpointCall X ρ)

/-- `caller` and `thread` are the next statement of the two threads, outside of `select!`.
Then come its branches and what the program does with the handle. -/
inductive LoopEvent (X : TquicTypes) (ρ : Type u) where
  | caller
  | thread
  | packet (result : Except String (Bytes × SocketAddr))
  | command
  | timeout
  | send (cmd : BridgeCommand (ClientConfig X) (ServerConfig X) ρ)
  | cloneHandle
  | dropHandle

variable {X : TquicTypes} {ρ : Type u}

def Start.isServer (env : Start X) : Bool := env.serverConfig.isSome

def Start.tquicConfig (env : Start X) : Except String (TquicConfig X) :=
  endpointTquicConfig env.api env.display env.endpointConfig env.serverConfig
    env.defaultClientConfig

/-- The address the thread was given as its own; the caller asked for it before it spawned the
thread. -/
def Start.ownAddr (env : Start X) : SocketAddr :=
  match env.localAddr with
  | .ok addr => addr
  | .error _ => .unspecified

namespace EventLoop

def init : EventLoop X ρ where
  caller := .bind
  thread := .unborn
  ready := none
  readyTx := true
  socket := false
  arcs := 0
  users := 0
  queue := []
  sent := []
  calls := []

def giveUp (s : EventLoop X ρ) (error : StartError) : EventLoop X ρ :=
  { s with caller := .returned (.error error), readyTx := false, socket := false, arcs := 0 }

/-- `Bridge::spawn`. The closure takes the socket, `ready_tx` and a reference to the
handle along; when the thread cannot be spawned they go with it. -/
def stepCaller (env : Start X) (s : EventLoop X ρ) : Option (EventLoop X ρ) :=
  match s.caller with
  | .bind =>
    match env.bind with
    | .error e => some (s.giveUp (.system e))
    | .ok () => some { s with caller := .setNonblocking, socket := true }
  | .setNonblocking =>
    match env.setNonblocking with
    | .error e => some (s.giveUp (.system e))
    | .ok () => some { s with caller := .localAddr }
  | .localAddr =>
    match env.localAddr with
    | .error e => some (s.giveUp (.system e))
    | .ok localAddr => some { s with caller := .spawnThread localAddr, arcs := 1 }
  | .spawnThread localAddr =>
    match env.spawnThread with
    | .error e => some (s.giveUp (.other e))
    | .ok () =>
      some { s with caller := .recv localAddr, thread := .buildRuntime, arcs := s.arcs + 1 }
  | .recv localAddr =>
    match s.ready with
    | some (.ok ()) =>
      some { s with caller := .returned (.ok localAddr), ready := none, users := 1 }
    | some (.error e) =>
      some { s with caller := .returned (.error (.other e)), ready := none, arcs := s.arcs - 1 }
    | none =>
      if s.readyTx then none
      else some { s with
        caller := .returned (.error (.other "bridge thread died during startup"))
        arcs := s.arcs - 1 }
  | .returned _ => none

/-- The thread up to the loop, the end of a round and the end of the thread. An error of
`run_bridge` is only logged; its socket is gone before `ready_tx`. -/
def stepThread (env : Start X) (s : EventLoop X ρ) : Option (EventLoop X ρ) :=
  match s.thread with
  | .buildRuntime =>
    match env.buildRuntime with
    | .error e => some { s with thread := .unwinding, ready := some (.error e) }
    | .ok () => some { s with thread := .fromStd }
  | .fromStd =>
    match env.fromStd with
    | .error _ => some { s with thread := .unwinding, socket := false }
    | .ok () => some { s with thread := .buildConfig }
  | .buildConfig =>
    match env.tquicConfig with
    | .error _ => some { s with thread := .unwinding, socket := false }
    | .ok config =>
      some { s with
        thread := .signalReady
        arcs := s.arcs + 1
        calls := s.calls ++ [.new config env.isServer] }
  | .signalReady => some { s with thread := .select, ready := some (.ok ()) }
  | .processConnections =>
    some { s with thread := .select, calls := s.calls ++ [.processConnections] }
  | .close =>
    some { s with
      thread := .ended
      readyTx := false
      socket := false
      arcs := s.arcs - 2
      calls := s.calls ++ [.close true, .processConnections] }
  | .unwinding =>
    some { s with thread := .ended, readyTx := false, socket := false, arcs := s.arcs - 1 }
  | _ => none

def branch (s : EventLoop X ρ) (calls : List (EndpointCall X ρ)) : EventLoop X ρ :=
  { s with thread := .processConnections, calls := s.calls ++ calls }

def recvBufLen : Nat := 65536

def step (env : Start X) (s : EventLoop X ρ) : LoopEvent X ρ → Option (EventLoop X ρ)
  | .caller => s.stepCaller env
  | .thread => s.stepThread env
  | .packet result =>
    if s.thread = .select then
      match result with
      | .ok (data, peer) => some (s.branch [.recv (data.take recvBufLen) peer env.ownAddr])
      | .error _ => some (s.branch [])
    else none
  | .command =>
    if s.thread = .select then
      match s.queue with
      | cmd :: queue => some ({ s with queue := queue }.branch [.command cmd])
      | [] => if s.arcs = 0 then some { s with thread := .close } else none
    else none
  | .timeout => if s.thread = .select then some (s.branch [.onTimeout]) else none
  | .send cmd =>
    if s.users = 0 then none
    else if s.thread = .ended then some s
    else some { s with queue := s.queue ++ [cmd], sent := s.sent ++ [cmd] }
  | .cloneHandle =>
    if s.users = 0 then none else some { s with users := s.users + 1, arcs := s.arcs + 1 }
  | .dropHandle =>
    if s.users = 0 then none else some { s with users := s.users - 1, arcs := s.arcs - 1 }

end EventLoop

end TokioTquic
