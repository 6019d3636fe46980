import TokioTquic.HandleOps
import TokioTquic.Handles

/-!
# `Connecting`

One `Connecting`, made by `connect` or by `Incoming::accept`, next to the bridge
thread with the callbacks of its connection. A poll looks at the flag and at the
close reason, registers its waker, and looks again; the thread stores the flag
or the reason first and takes the waker after it.
-/

namespace TokioTquic
open Async
set_option autoImplicit false

/-- Where a poll stands. `connId` is the resolved index, `uid` the `ConnNotify`
found under it. -/
inductive ConnectPoint where
  | resolve
  | lookup (connId : Nat)
  | load (connId uid : Nat)
  | borrow (connId uid : Nat)
  | register (connId uid : Nat)
  | reload (connId uid : Nat)
  | reborrow (connId uid : Nat)
  deriving DecidableEq

/-- The connection has the name 0 and gets the slot `index`. `created`,
`established` and `ended` say which callbacks the engine has called. Each poll
has a waker of its own, `waker` is that of the last one, and `woken` are those
that were woken. `sure` says that the last poll started with the index known
and the flag stored. -/
structure Handshake where
  thread : BridgeThread
  index : Nat
  created : Bool
  established : Bool
  ended : Option CloseInfo
  self : Option Connecting
  senderGone : Bool
  point : Option ConnectPoint
  last : Option (Poll (Except ConnectionError Nat))
  waker : Nat
  woken : List Nat
  sure : Bool

inductive HandshakeEvent where
  | created (activePath : Option SocketAddr) (isServer : Bool)
  | callback (cb : Callback)
  | exec
  | connect (remoteAddr : SocketAddr)
  | accept
  | reply (r : Except ConnectError Nat)
  | dropSender
  | poll
  | advance

namespace Handshake

def init (index : Nat) : Handshake :=
  ⟨.new, index, false, false, none, none, false, none, none, 0, [], false⟩

def cn (s : Handshake) : ConnNotify := s.thread.handle.notifies 0

def connId (s : Handshake) : Option Nat := s.self.bind (·.connId)

/-- The engine reports a connection after its creation, established once, and
closed once and last. -/
def allows (s : Handshake) : Callback → Bool
  | .onConnEstablished => s.created && s.ended.isNone && !s.established
  | _ => s.created && s.ended.isNone

def note (s : Handshake) : Callback → Handshake
  | .onConnEstablished => { s with established := true }
  | .onConnClosed info => { s with ended := some info }
  | _ => s

/-- A good reply follows the call of the engine that creates the connection. -/
def replies (s : Handshake) : Except ConnectError Nat → Bool
  | .ok connId => !s.senderGone && s.created && s.thread.todo.isEmpty && connId == s.index
  | .error _ => !s.senderGone

def goto (s : Handshake) (p : ConnectPoint) : Handshake := { s with point := some p }

def ret (s : Handshake) (r : Poll (Except ConnectionError Nat)) : Handshake :=
  { s with point := none, last := some r }

def advance (display : SocketAddr → String) (s : Handshake) (self : Connecting) :
    ConnectPoint → Handshake
  | .resolve =>
    match self.idRx with
    | some (some (.ok connId)) =>
      { s with self := some ⟨none, some connId, self.remoteAddr⟩ }.goto (.lookup connId)
    | some (some (.error e)) => s.ret (.ready (.error (.fromConnectError display e)))
    | some none => if s.senderGone then s.ret (.ready (.error .locallyClosed)) else s.ret .pending
    | none => s.ret (.ready (.error .locallyClosed))
  | .lookup connId =>
    match s.thread.handle.connStates connId with
    | some uid => s.goto (.load connId uid)
    | none => s.ret (.ready (.error .locallyClosed))
  | .load connId uid =>
    if (s.thread.handle.notifies uid).isEstablished then s.ret (.ready (.ok connId))
    else s.goto (.borrow connId uid)
  | .borrow connId uid =>
    match (s.thread.handle.notifies uid).closed with
    | some err => s.ret (.ready (.error err))
    | none => s.goto (.register connId uid)
  | .register connId uid =>
    { s with thread := { s.thread with
      handle := s.thread.handle.modifyNotify uid fun cn =>
        { cn with establishWaker := some s.waker } } }.goto (.reload connId uid)
  | .reload connId uid =>
    if (s.thread.handle.notifies uid).isEstablished then s.ret (.ready (.ok connId))
    else s.goto (.reborrow connId uid)
  | .reborrow _ uid =>
    match (s.thread.handle.notifies uid).closed with
    | some err => s.ret (.ready (.error err))
    | none => s.ret .pending

def taken (handle : BridgeHandle) : HandleOp → Option Nat
  | .shared uid .wakeEstablish => (handle.notifies uid).establishWaker
  | _ => none

/-- A poll may start between polls; after an error without an index the future is done. -/
def startPoll (s : Handshake) : Option Handshake :=
  match s.self, s.point, s.last with
  | some ⟨_, none, _⟩, none, some (.ready _) => none
  | some ⟨_, none, _⟩, none, _ =>
    some { s with point := some .resolve, last := none, waker := s.waker + 1, sure := false }
  | some ⟨_, some connId, _⟩, none, _ =>
    some { s with
      point := some (.lookup connId)
      last := none
      waker := s.waker + 1
      sure := s.cn.isEstablished }
  | _, _, _ => none

def step (display : SocketAddr → String) (endpointIsServer : Bool) (s : Handshake) :
    HandshakeEvent → Option Handshake
  | .created activePath isServer =>
    if s.created then none
    else (s.thread.step endpointIsServer (.created 0 (some s.index) activePath isServer)).map
      fun thread => { s with thread := thread, created := true }
  | .callback cb =>
    if s.allows cb then
      (s.thread.step endpointIsServer (.callback (some s.index) cb)).map
        fun thread => { s with thread := thread }.note cb
    else none
  | .exec =>
    match s.thread.todo with
    | [] => none
    | op :: _ =>
      (s.thread.step endpointIsServer .exec).map fun thread =>
        { s with thread := thread, woken := s.woken ++ (taken s.thread.handle op).toList }
  | .connect remoteAddr =>
    match s.self with
    | none => some { s with self := some ⟨some none, none, remoteAddr⟩ }
    | some _ => none
  | .accept =>
    match s.self, s.thread.handle.incoming with
    | none, (_, data) :: incoming =>
      some { s with
        self := some ⟨none, some data.connId, data.remoteAddr⟩
        thread := { s.thread with handle := { s.thread.handle with incoming := incoming } } }
    | _, _ => none
  | .reply r =>
    match s.self with
    | some ⟨some none, none, remoteAddr⟩ =>
      if s.replies r then some { s with self := some ⟨some (some r), none, remoteAddr⟩ } else none
    | _ => none
  | .dropSender =>
    match s.self with
    | some ⟨some none, none, _⟩ => some { s with senderGone := true }
    | _ => none
  | .poll => s.startPoll
  | .advance =>
    match s.self, s.point with
    | some self, some p => some (s.advance display self p)
    | _, _ => none

end Handshake

end TokioTquic
