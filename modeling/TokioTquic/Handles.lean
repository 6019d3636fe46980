import TokioTquic.Async.Transition
import TokioTquic.BridgeHandle
import TokioTquic.RecvStream
import TokioTquic.SendStream
import TokioTquic.Streams

/-!
# The handles of an endpoint

The user-side values of all connections of one endpoint, next to the bridge
thread and the engine. The engine's promises are built into the steps: a new
connection gets an index of the slab that is free, `on_conn_closed` comes once
for a connection, and only after it the connection leaves the slab.
-/

namespace TokioTquic
open Async
set_option autoImplicit false

universe u
variable {κ : Type u} {χ ψ : Type}

/-- `idRx` is the receiver of the connection's index with the message in it. -/
structure Connecting where
  idRx : Option (Option (Except ConnectError Nat))
  connId : Option Nat
  remoteAddr : SocketAddr

/-- `OpenBi` and `OpenUni`; `rx` is there once the command was sent. -/
structure OpenStream where
  dir : Dir
  connId : Nat
  rx : Option (Option (Except ConnectionError Nat))

/-- `AcceptBi` and `AcceptUni`; `cn` is the `ConnNotify` looked up by the first poll. -/
structure AcceptStream where
  dir : Dir
  connId : Nat
  cn : Option Nat

/-- A user-side value. Next to a `RecvStream` stands the receiver of a `read` in
progress, with the number of the request and the reply to it. -/
inductive Value where
  | incoming (incomingId : Nat) (remoteAddr : SocketAddr)
  | connecting (self : Connecting)
  | connection (connId : Nat)
  | openStream (self : OpenStream)
  | acceptStream (self : AcceptStream)
  | sendStream (self : SendStream)
  | recvStream (self : RecvStream) (rx : Option (Nat × Option (Except ReadError (Bytes × Bool))))

/-- `origin` is the connection the value was obtained for, once there is one. -/
structure Handle where
  origin : Option Nat
  value : Value

inductive Query where
  | rtt
  | addPath (localAddr remoteAddr : SocketAddr)
  | abandonPath (localAddr remoteAddr : SocketAddr)
  | migratePath (localAddr remoteAddr : SocketAddr)
  | getPathStats (localAddr remoteAddr : SocketAddr)
  | getPaths

/-- What a value is used for; `poll` of an accept future says which branch of its
`select!` goes on. -/
inductive Op where
  | accept
  | refuse
  | clone
  | close (errorCode : VarInt) (reason : Bytes)
  | query (q : Query)
  | openStream (dir : Dir)
  | acceptStream (dir : Dir)
  | poll (branch : Branch)
  | write (data : Bytes)
  | finish
  | reset (errorCode : VarInt)
  | setPriority (priority : Int)
  | read (maxLen : Nat)
  | pollRead (maxLen : Nat)
  | onReply
  | stop (errorCode : VarInt)
  | drop

/-- A oneshot sender: the name of the value that waits and the request's number. -/
abbrev Respond := Nat × Nat

/-- `next` names values and requests, `nextConn` connections. A queued command
carries the connection whose handle sent it. -/
structure Handles (κ : Type u) (χ ψ : Type) where
  slab : Nat → Option (Slot κ)
  nextConn : Nat
  handle : BridgeHandle
  isServer : Bool
  currentClientConfig : Option χ
  queue : List (Option Nat × BridgeCommand χ ψ Respond)
  values : Nat → Option Handle
  next : Nat

inductive HandlesEvent (κ : Type u) (χ ψ : Type) where
  | connCreated (new : NewConn κ) (isServer : Bool)
  | callback (index : Nat) (cb : Callback)
  | engine (index : Nat) (conn : κ)
  | release (index : Nat)
  | process (answer : Except TquicError (NewConn κ))
  | connect (addr : SocketAddr) (serverName : String) (clientConfig : Option χ)
  | setDefaultClientConfig (config : χ)
  | setServerConfig (config : Option ψ)
  | closeEndpoint (errorCode : VarInt) (reason : Bytes)
  | accept
  | use (id : Nat) (op : Op)

def Query.command (q : Query) (respond : Respond) : ConnCommand Respond :=
  match q with
  | .rtt => .getRtt respond
  | .addPath l r => .addPath l r respond
  | .abandonPath l r => .abandonPath l r respond
  | .migratePath l r => .migratePath l r respond
  | .getPathStats l r => .getPathStats l r respond
  | .getPaths => .getPaths respond

/-- The index under which a value can still act on a connection. Finished stream
halves send nothing more. -/
def Value.connId : Value → Option Nat
  | .incoming incomingId _ => some incomingId
  | .connecting self =>
    match self.connId, self.idRx with
    | some connId, _ => some connId
    | none, some (some (.ok connId)) => some connId
    | none, _ => none
  | .connection connId => some connId
  | .openStream self => some self.connId
  | .acceptStream self => some self.connId
  | .sendStream self => if self.finished then none else some self.connId
  | .recvStream self _ => if self.allDataRead then none else some self.connId

/-- A reply reaches the value if it waits for this request. `uid` is the
connection that a successful `Connect` is about. -/
def Handle.deliver (uid : Option Nat) (n : Nat) (reply : Reply) (h : Handle) : Handle :=
  match h.value, reply with
  | .connecting ⟨some none, none, remoteAddr⟩, .connected r =>
    ⟨uid, .connecting ⟨some (some r), none, remoteAddr⟩⟩
  | .openStream ⟨dir, connId, some none⟩, .opened r =>
    ⟨h.origin, .openStream ⟨dir, connId, some (some r)⟩⟩
  | .recvStream self (some (m, none)), .read r =>
    if m = n then ⟨h.origin, .recvStream self (some (m, some r))⟩ else h
  | _, _ => h

namespace Handles

def init (isServer : Bool) : Handles κ χ ψ where
  slab := fun _ => none
  nextConn := 0
  handle := .new
  isServer := isServer
  currentClientConfig := none
  queue := []
  values := fun _ => none
  next := 0

def setValue (s : Handles κ χ ψ) (id : Nat) (h : Option Handle) : Handles κ χ ψ :=
  { s with values := Function.update s.values id h }

def add (s : Handles κ χ ψ) (h : Handle) : Handles κ χ ψ :=
  { s.setValue s.next (some h) with next := s.next + 1 }

/-- Send a command for connection `connId` through a handle of `origin`; the
request gets the next number. -/
def send (s : Handles κ χ ψ) (origin : Option Nat) (connId : Nat) (cmd : ConnCommand Respond) :
    Handles κ χ ψ :=
  { s with queue := s.queue ++ [(origin, .onConn connId cmd)], next := s.next + 1 }

def modifyNotify (s : Handles κ χ ψ) (uid : Nat) (f : ConnNotify → ConnNotify) : Handles κ χ ψ :=
  { s with handle := s.handle.modifyNotify uid f }

/-! ## The user -/

/-- The stream halves an open or accept future returns. -/
def addHalves (s : Handles κ χ ψ) (origin : Option Nat) (connId streamId : Nat)
    (send recv : Bool) : Handles κ χ ψ :=
  let s := if send then s.add ⟨origin, .sendStream ⟨connId, streamId, false⟩⟩ else s
  if recv then s.add ⟨origin, .recvStream ⟨connId, streamId, false⟩ none⟩ else s

/-- `Connecting::poll` once the index is known. -/
def pollEstablished (s : Handles κ χ ψ) (id : Nat) (origin : Option Nat) (connId : Nat) :
    Handles κ χ ψ :=
  match s.handle.connStates connId with
  | none => s
  | some uid =>
    let cn := s.handle.notifies uid
    if cn.isEstablished then s.add ⟨origin, .connection connId⟩
    else if cn.closed.isSome then s
    else s.modifyNotify uid fun cn => { cn with establishWaker := some id }

def pollConnecting (s : Handles κ χ ψ) (id : Nat) (origin : Option Nat) (self : Connecting) :
    Handles κ χ ψ :=
  match self.connId with
  | some connId => s.pollEstablished id origin connId
  | none =>
    match self.idRx with
    | some (some (.ok connId)) =>
      (s.setValue id (some ⟨origin, .connecting ⟨none, some connId, self.remoteAddr⟩⟩)
        ).pollEstablished id origin connId
    | _ => s

/-- `OpenBi::poll` and `OpenUni::poll`. -/
def pollOpen (s : Handles κ χ ψ) (id : Nat) (origin : Option Nat) (self : OpenStream) :
    Handles κ χ ψ :=
  match self.rx with
  | none =>
    match s.handle.closeReason self.connId with
    | some _ => s.setValue id none
    | none =>
      let cmd := match self.dir with
        | .bi => .openBiStream (id, s.next)
        | .uni => .openUniStream (id, s.next)
      (s.setValue id (some ⟨origin, .openStream { self with rx := some none }⟩)).send
        origin self.connId cmd
  | some none => s
  | some (some (.ok streamId)) =>
    (s.setValue id none).addHalves origin self.connId streamId true (self.dir == Dir.bi)
  | some (some (.error _)) => s.setValue id none

/-- The futures of `accept_bi` and `accept_uni` without the lock, which only
makes them wait. -/
def pollAccept (s : Handles κ χ ψ) (id : Nat) (origin : Option Nat) (self : AcceptStream)
    (branch : Branch) : Handles κ χ ψ :=
  match self.cn with
  | none =>
    match s.handle.connStates self.connId with
    | none => s.setValue id none
    | some uid => s.setValue id (some ⟨origin, .acceptStream { self with cn := some uid }⟩)
  | some uid =>
    let cn := s.handle.notifies uid
    match branch with
    | .closed => if cn.closed.isSome then s.setValue id none else s
    | .recv =>
      match cn.acceptQueue self.dir with
      | [] => s
      | streamId :: queue =>
        ((s.setValue id none).modifyNotify uid fun cn => cn.setAcceptQueue queue self.dir).addHalves
          origin self.connId streamId (self.dir == Dir.bi) true

/-- `finish`, also from `drop`. -/
def finish (s : Handles κ χ ψ) (id : Nat) (origin : Option Nat) (self : SendStream) :
    Handles κ χ ψ :=
  match self.finish with
  | .error _ => s
  | .ok self' =>
    (s.setValue id (some ⟨origin, .sendStream self'⟩)).send origin self.connId
      (.streamWrite self.streamId [] true (id, s.next))

/-- `stop`, also from `drop`. -/
def stop (s : Handles κ χ ψ) (id : Nat) (origin : Option Nat) (self : RecvStream)
    (errorCode : VarInt) : Handles κ χ ψ :=
  match self.stop errorCode with
  | .error _ => s
  | .ok (self', code) =>
    (s.setValue id (some ⟨origin, .recvStream self' none⟩)).send origin self.connId
      (.streamShutdownRead self.streamId code)

/-- The end of a value; stream halves send their last command. -/
def dropValue (s : Handles κ χ ψ) (id : Nat) (origin : Option Nat) : Value → Handles κ χ ψ
  | .sendStream self => (s.finish id origin self).setValue id none
  | .recvStream self _ => (s.stop id origin self (.fromU32 0)).setValue id none
  | _ => s.setValue id none

def useSend (s : Handles κ χ ψ) (id : Nat) (origin : Option Nat) (self : SendStream) :
    Op → Option (Handles κ χ ψ)
  | .write data =>
    if self.finished then some s
    else some (s.send origin self.connId (.streamWrite self.streamId data false (id, s.next)))
  | .finish => some (s.finish id origin self)
  | .reset errorCode =>
    match self.reset errorCode with
    | .error _ => some s
    | .ok (self', code) =>
      some ((s.setValue id (some ⟨origin, .sendStream self'⟩)).send origin self.connId
        (.streamShutdownWrite self.streamId code))
  | .setPriority priority =>
    match self.setPriority priority with
    | .error _ => some s
    | .ok urgency =>
      some (s.send origin self.connId (.streamSetPriority self.streamId urgency))
  | _ => none

def useRecv (s : Handles κ χ ψ) (id : Nat) (origin : Option Nat) (self : RecvStream)
    (rx : Option (Nat × Option (Except ReadError (Bytes × Bool)))) : Op → Option (Handles κ χ ψ)
  | .read maxLen =>
    if self.allDataRead then some s
    else some ((s.setValue id (some ⟨origin, .recvStream self (some (s.next, none))⟩)).send
      origin self.connId (.streamRead self.streamId maxLen (id, s.next)))
  | .pollRead maxLen =>
    if self.allDataRead then some s
    else some ((s.setValue id (some ⟨origin, .recvStream self none⟩)).send
      origin self.connId (.streamRead self.streamId maxLen (id, s.next)))
  | .onReply =>
    match rx with
    | some (_, some reply) =>
      some (s.setValue id (some ⟨origin, .recvStream (self.onReply [] (some reply)).1 none⟩))
    | _ => none
  | .stop errorCode => some (s.stop id origin self errorCode)
  | _ => none

def useConnection (s : Handles κ χ ψ) (id : Nat) (origin : Option Nat) (connId : Nat) :
    Op → Option (Handles κ χ ψ)
  | .clone => some (s.add ⟨origin, .connection connId⟩)
  | .close errorCode reason =>
    some (s.send origin connId (.closeConnection errorCode.intoInner reason))
  | .query q => some (s.send origin connId (q.command (id, s.next)))
  | .openStream dir => some (s.add ⟨origin, .openStream ⟨dir, connId, none⟩⟩)
  | .acceptStream dir => some (s.add ⟨origin, .acceptStream ⟨dir, connId, none⟩⟩)
  | _ => none

/-- `accept` makes a `Connecting`; `refuse` and `ignore` send the same command. -/
def useIncoming (s : Handles κ χ ψ) (id : Nat) (origin : Option Nat) (incomingId : Nat)
    (remoteAddr : SocketAddr) : Op → Option (Handles κ χ ψ)
  | .accept =>
    let s := s.setValue id (some ⟨origin, .connecting ⟨none, some incomingId, remoteAddr⟩⟩)
    some { s with queue := s.queue ++ [(none, .acceptIncoming)] }
  | .refuse => some ((s.setValue id none).send origin incomingId .refuseIncoming)
  | _ => none

def useValue (s : Handles κ χ ψ) (id : Nat) (h : Handle) (op : Op) : Option (Handles κ χ ψ) :=
  match op with
  | .drop => some (s.dropValue id h.origin h.value)
  | .poll branch =>
    match h.value with
    | .connecting self => some (s.pollConnecting id h.origin self)
    | .openStream self => some (s.pollOpen id h.origin self)
    | .acceptStream self => some (s.pollAccept id h.origin self branch)
    | _ => none
  | op =>
    match h.value with
    | .incoming incomingId remoteAddr => s.useIncoming id h.origin incomingId remoteAddr op
    | .connection connId => s.useConnection id h.origin connId op
    | .sendStream self => s.useSend id h.origin self op
    | .recvStream self rx => s.useRecv id h.origin self rx op
    | _ => none

/-! ## The bridge thread -/

/-- The slab takes a connection in, and `on_conn_created` runs. -/
def create (s : Handles κ χ ψ) (new : NewConn κ) (isServer : Bool) : Option (Handles κ χ ψ) :=
  match s.slab new.index with
  | some _ => none
  | none =>
    some { s with
      slab := Function.update s.slab new.index (some ⟨s.nextConn, new.conn, false⟩)
      nextConn := s.nextConn + 1
      handle := s.handle.onConnCreated s.isServer s.nextConn (some new.index) new.activePath
        isServer }

def deliver (s : Handles κ χ ψ) (uid : Option Nat) : Option (Respond × Reply) → Handles κ χ ψ
  | some ((id, n), reply) =>
    match s.values id with
    | some h => s.setValue id (some (h.deliver uid n reply))
    | none => s
  | none => s

/-- `process_command` on a command for one connection. -/
def processOnConn (T : Tquic κ) (s : Handles κ χ ψ) (connId : Nat) (cmd : ConnCommand Respond) :
    Handles κ χ ψ :=
  match s.slab connId with
  | some slot =>
    let (conn, reply) := processConnCommand T (some slot.conn) cmd
    { s with slab := Function.update s.slab connId (conn.map fun c => { slot with conn := c })
      }.deliver none reply
  | none => s.deliver none (processConnCommand T none cmd).2

/-- `process_command`; `answer` is what `endpoint.connect` returns if it is called. -/
def processCommand (T : Tquic κ) (configError : χ → Option ConnectError) (s : Handles κ χ ψ)
    (answer : Except TquicError (NewConn κ)) :
    BridgeCommand χ ψ Respond → Option (Handles κ χ ψ)
  | .connect _ _ clientConfig respond =>
    match connectOutcome configError s.currentClientConfig clientConfig answer with
    | .ok new =>
      (s.create new false).map fun t =>
        t.deliver (some s.nextConn) (some (respond, .connected (.ok new.index)))
    | .error e => some (s.deliver none (some (respond, .connected (.error e))))
  | .setServerConfig _ => some s
  | .setDefaultClientConfig config => some { s with currentClientConfig := some config }
  | .closeEndpoint code reason =>
    -- `endpoint.close(false)` closes no connection; it decides what `connect` answers from here on
    some { s with
      handle := { s.handle with endpointClosed := true }
      slab := closeKnown T s.handle.connStates s.slab code reason }
  | .acceptIncoming => some s
  | .onConn connId cmd => some (s.processOnConn T connId cmd)

def process (T : Tquic κ) (configError : χ → Option ConnectError) (s : Handles κ χ ψ)
    (answer : Except TquicError (NewConn κ)) : Option (Handles κ χ ψ) :=
  match s.queue with
  | [] => none
  | (_, cmd) :: queue => { s with queue := queue }.processCommand T configError answer cmd

/-- A callback for the connection at `index`; `on_conn_closed` comes once. -/
def runCallback (s : Handles κ χ ψ) (index : Nat) (cb : Callback) : Option (Handles κ χ ψ) :=
  match s.slab index with
  | none => none
  | some slot =>
    let t := { s with handle := s.handle.callback (some index) cb }
    match cb with
    | .onConnClosed _ =>
      if slot.reported then none
      else some { t with slab := Function.update s.slab index (some { slot with reported := true }) }
    | _ => some t

def accept (s : Handles κ χ ψ) : Option (Handles κ χ ψ) :=
  if s.handle.endpointClosed then none
  else
    match s.handle.incoming with
    | [] => none
    | (uid, data) :: incoming =>
      some ({ s with handle := { s.handle with incoming := incoming } }.add
        ⟨some uid, .incoming data.connId data.remoteAddr⟩)

def sendEndpoint (s : Handles κ χ ψ) (cmd : BridgeCommand χ ψ Respond) : Handles κ χ ψ :=
  { s with queue := s.queue ++ [(none, cmd)] }

def step (T : Tquic κ) (configError : χ → Option ConnectError) (s : Handles κ χ ψ) :
    HandlesEvent κ χ ψ → Option (Handles κ χ ψ)
  | .connCreated new isServer => s.create new isServer
  | .callback index cb => s.runCallback index cb
  | .engine index conn =>
    (s.slab index).map fun slot =>
      { s with slab := Function.update s.slab index (some { slot with conn := conn }) }
  | .release index =>
    match s.slab index with
    | some slot =>
      if slot.reported then some { s with slab := Function.update s.slab index none } else none
    | none => none
  | .process answer => s.process T configError answer
  | .connect addr serverName clientConfig =>
    if s.handle.endpointClosed then some s
    else some ((s.sendEndpoint (.connect addr serverName clientConfig (s.next, s.next))).add
      ⟨none, .connecting ⟨some none, none, addr⟩⟩)
  | .setDefaultClientConfig config => some (s.sendEndpoint (.setDefaultClientConfig config))
  | .setServerConfig config => some (s.sendEndpoint (.setServerConfig config))
  | .closeEndpoint errorCode reason =>
    some (s.sendEndpoint (.closeEndpoint errorCode.intoInner reason))
  | .accept => s.accept
  | .use id op =>
    match s.values id with
    | some h => s.useValue id h op
    | none => none

end Handles

end TokioTquic
