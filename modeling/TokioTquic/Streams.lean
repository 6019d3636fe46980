import TokioTquic.Bridge

/-!
# Opening and accepting streams

Any number of `open_bi`, `open_uni`, `accept_bi` and `accept_uni` futures of one
connection, next to the bridge thread. A future is dropped before its first poll
or at an await point; `accept` holds the receiver's lock while it waits.
-/

namespace TokioTquic
open Async
set_option autoImplicit false

universe u
variable {κ : Type u}

namespace ConnNotify

def acceptQueue (cn : ConnNotify) : Dir → List Nat
  | .bi => cn.acceptBi
  | .uni => cn.acceptUni

def acceptLock (cn : ConnNotify) : Dir → Mutex Nat
  | .bi => cn.acceptBiLock
  | .uni => cn.acceptUniLock

def setAcceptQueue (cn : ConnNotify) (queue : List Nat) : Dir → ConnNotify
  | .bi => { cn with acceptBi := queue }
  | .uni => { cn with acceptUni := queue }

def setAcceptLock (cn : ConnNotify) (lock : Mutex Nat) : Dir → ConnNotify
  | .bi => { cn with acceptBiLock := lock }
  | .uni => { cn with acceptUniLock := lock }

@[simp] theorem setAcceptQueue_queue (cn : ConnNotify) (queue : List Nat) (dir d : Dir) :
    (cn.setAcceptQueue queue dir).acceptQueue d = if d = dir then queue else cn.acceptQueue d := by
  cases dir <;> cases d <;> rfl

@[simp] theorem setAcceptQueue_lock (cn : ConnNotify) (queue : List Nat) (dir d : Dir) :
    (cn.setAcceptQueue queue dir).acceptLock d = cn.acceptLock d := by
  cases dir <;> cases d <;> rfl

@[simp] theorem setAcceptQueue_isServer (cn : ConnNotify) (queue : List Nat) (dir : Dir) :
    (cn.setAcceptQueue queue dir).isServer = cn.isServer := by
  cases dir <;> rfl

@[simp] theorem setAcceptLock_lock (cn : ConnNotify) (lock : Mutex Nat) (dir d : Dir) :
    (cn.setAcceptLock lock dir).acceptLock d = if d = dir then lock else cn.acceptLock d := by
  cases dir <;> cases d <;> rfl

@[simp] theorem setAcceptLock_queue (cn : ConnNotify) (lock : Mutex Nat) (dir d : Dir) :
    (cn.setAcceptLock lock dir).acceptQueue d = cn.acceptQueue d := by
  cases dir <;> cases d <;> rfl

@[simp] theorem setAcceptLock_isServer (cn : ConnNotify) (lock : Mutex Nat) (dir : Dir) :
    (cn.setAcceptLock lock dir).isServer = cn.isServer := by
  cases dir <;> rfl

@[simp] theorem setNotify_accept (cn : ConnNotify) (n : Notify Nat) (h : Half) (dir : Dir) :
    (cn.setNotify n h).acceptQueue dir = cn.acceptQueue dir ∧
      (cn.setNotify n h).acceptLock dir = cn.acceptLock dir := by
  cases h <;> cases dir <;> exact ⟨rfl, rfl⟩

@[simp] theorem setNotify_isServer (cn : ConnNotify) (n : Notify Nat) (h : Half) :
    (cn.setNotify n h).isServer = cn.isServer := by
  cases h <;> rfl

end ConnNotify

def pendingAccepts (todo : List SharedOp) (dir : Dir) : List Nat :=
  todo.filterMap fun op =>
    match op with
    | .queueAccept d streamId => if d = dir then some streamId else none
    | _ => none

theorem exec_accept (cn : ConnNotify) (op : SharedOp) (todo : List SharedOp) (dir : Dir) :
    (op.exec cn).1.acceptQueue dir ++ pendingAccepts ((op.exec cn).2 ++ todo) dir =
        cn.acceptQueue dir ++ pendingAccepts (op :: todo) dir ∧
      (op.exec cn).1.acceptLock dir = cn.acceptLock dir ∧
      (op.exec cn).1.isServer = cn.isServer := by
  cases op with
  | queueAccept d streamId =>
    cases d <;> cases dir <;>
      simp [SharedOp.exec, ConnNotify.acceptQueue, ConnNotify.acceptLock, pendingAccepts]
  | getOrCreate h =>
    simp only [SharedOp.exec, ConnNotify.getOrCreate]
    split <;> simp [pendingAccepts]
  | notifyOne h =>
    simp only [SharedOp.exec, ConnNotify.modifyNotify]
    split <;> simp [pendingAccepts]
  | get h =>
    simp only [SharedOp.exec]
    split <;> simp [pendingAccepts]
  | storeEstablished => cases dir <;> exact ⟨rfl, rfl, rfl⟩
  | wakeEstablish => cases dir <;> exact ⟨rfl, rfl, rfl⟩
  | sendClosed error => cases dir <;> exact ⟨rfl, rfl, rfl⟩

/-- `on_stream_created` queues the peer's streams, each in its direction. -/
theorem pendingAccepts_ops (cb : Callback) (isServer : Bool) (dir : Dir) :
    pendingAccepts (cb.ops isServer) dir =
      match cb with
      | .onStreamCreated streamId =>
        if peerInitiated isServer streamId ∧ streamDir streamId = dir then [streamId] else []
      | _ => [] := by
  cases cb with
  | onStreamCreated streamId =>
    by_cases hp : peerInitiated isServer streamId <;> by_cases hd : streamDir streamId = dir <;>
      simp [Callback.ops, pendingAccepts, hp, hd]
  | onConnEstablished => rfl
  | onConnClosed info => rfl
  | onStreamReadable streamId => rfl
  | onStreamWritable streamId => rfl
  | onStreamClosed streamId => rfl

/-- Where an accept future stands. From `selecting` on it holds the lock; `taken`
is the branch of `select!` that received an id, `changed` the other one. -/
inductive AcceptPoint where
  | begin
  | check
  | lock
  | waiting
  | selecting
  | taken (streamId : Nat)
  | changed
  deriving DecidableEq

structure AcceptFuture where
  dir : Dir
  point : AcceptPoint
  deriving DecidableEq

/-- Where an open future stands; `awaiting` holds the reply once it is there. -/
inductive OpenPoint where
  | unsent
  | send
  | awaiting (msg : Option Reply)

structure OpenFuture where
  dir : Dir
  point : OpenPoint

/-- The branch of `select!` that is polled. -/
inductive Branch where
  | recv
  | closed
  deriving DecidableEq

/-- `created` lists the ids of the `on_stream_created` calls, `opened` those the
engine answered to open commands. `delivered` lists the ids of completed accept
futures, `claimed` those of completed open futures. `next` names the next open future. -/
structure Streams (κ : Type u) where
  bridge : Bridge κ Nat
  accepts : Nat → Option AcceptFuture
  opens : Nat → Option OpenFuture
  next : Nat
  created : List Nat
  opened : List Nat
  delivered : Dir → List Nat
  claimed : List Nat
  sends : List Nat
  recvs : List Nat

inductive StreamsEvent (κ : Type u) where
  | process
  | bridge (e : BridgeEvent κ)
  | accept (id : Nat) (dir : Dir)
  | pollAccept (id : Nat) (branch : Branch)
  | dropAccept (id : Nat)
  | openStream (dir : Dir)
  | pollOpen (id : Nat)
  | dropOpen (id : Nat)

namespace Streams

def init (conn : κ) (remoteAddr : SocketAddr) (isServer : Bool) : Streams κ where
  bridge := ⟨some conn, [], .created remoteAddr isServer, []⟩
  accepts := fun _ => none
  opens := fun _ => none
  next := 0
  created := []
  opened := []
  delivered := fun _ => []
  claimed := []
  sends := []
  recvs := []

def setCn (s : Streams κ) (cn : ConnNotify) : Streams κ :=
  { s with bridge := { s.bridge with cn := cn } }

def setAccept (s : Streams κ) (id : Nat) (f : Option AcceptFuture) : Streams κ :=
  { s with accepts := Function.update s.accepts id f }

def setOpen (s : Streams κ) (id : Nat) (f : Option OpenFuture) : Streams κ :=
  { s with opens := Function.update s.opens id f }

def release (s : Streams κ) (dir : Dir) : Streams κ :=
  s.setCn (s.bridge.cn.setAcceptLock (s.bridge.cn.acceptLock dir).release dir)

@[simp] theorem setCn_cn (s : Streams κ) (cn : ConnNotify) : (s.setCn cn).bridge.cn = cn := rfl

@[simp] theorem setAccept_bridge (s : Streams κ) (id : Nat) (f : Option AcceptFuture) :
    (s.setAccept id f).bridge = s.bridge := rfl

@[simp] theorem release_cn (s : Streams κ) (dir : Dir) :
    (s.release dir).bridge.cn =
      s.bridge.cn.setAcceptLock (s.bridge.cn.acceptLock dir).release dir := rfl

/-- Construct the halves of a stream that are asked for. -/
def construct (s : Streams κ) (streamId : Nat) (send recv : Bool) : Streams κ :=
  { s with
    sends := if send then s.sends ++ [streamId] else s.sends
    recvs := if recv then s.recvs ++ [streamId] else s.recvs }

def completeAccept (s : Streams κ) (id : Nat) (dir : Dir) (streamId : Nat) : Streams κ :=
  ({ (s.setAccept id none).release dir with
    delivered := Function.update s.delivered dir (s.delivered dir ++ [streamId]) }).construct
      streamId (dir == Dir.bi) true

/-- One step of an accept future, up to its next access to shared state. -/
def pollAccept (s : Streams κ) (id : Nat) (dir : Dir) (branch : Branch) :
    AcceptPoint → Option (Streams κ)
  | .begin => some (s.setAccept id (some ⟨dir, .check⟩))
  | .check =>
    match s.bridge.cn.closed with
    | some _ => some (s.setAccept id none)
    | none => some (s.setAccept id (some ⟨dir, .lock⟩))
  | .lock =>
    let t := s.setCn (s.bridge.cn.setAcceptLock ((s.bridge.cn.acceptLock dir).lock id) dir)
    match (s.bridge.cn.acceptLock dir).holder with
    | none => some (t.setAccept id (some ⟨dir, .selecting⟩))
    | some _ => some (t.setAccept id (some ⟨dir, .waiting⟩))
  | .waiting =>
    if (s.bridge.cn.acceptLock dir).holder = some id then
      some (s.setAccept id (some ⟨dir, .selecting⟩))
    else none
  | .selecting =>
    match branch with
    | .recv =>
      match s.bridge.cn.acceptQueue dir with
      | [] => none
      | streamId :: queue =>
        some ((s.setCn (s.bridge.cn.setAcceptQueue queue dir)).setAccept id
          (some ⟨dir, .taken streamId⟩))
    | .closed =>
      if s.bridge.cn.closed.isSome then some (s.setAccept id (some ⟨dir, .changed⟩)) else none
  | .taken streamId => some (s.completeAccept id dir streamId)
  | .changed =>
    match s.bridge.cn.closed with
    | some _ => some ((s.setAccept id none).release dir)
    | none => some ((s.setAccept id (some ⟨dir, .check⟩)).release dir)

def dropAccept (s : Streams κ) (id : Nat) (dir : Dir) : AcceptPoint → Option (Streams κ)
  | .begin => some (s.setAccept id none)
  | .waiting =>
    some ((s.setCn (s.bridge.cn.setAcceptLock
      ((s.bridge.cn.acceptLock dir).abandon id) dir)).setAccept id none)
  | .selecting => some ((s.setAccept id none).release dir)
  | _ => none

def openCommand (dir : Dir) (id : Nat) : ConnCommand Nat :=
  match dir with
  | .bi => .openBiStream id
  | .uni => .openUniStream id

def completeOpen (s : Streams κ) (id : Nat) (dir : Dir) (streamId : Nat) : Streams κ :=
  ({ s.setOpen id none with claimed := s.claimed ++ [streamId] }).construct
    streamId true (dir == Dir.bi)

def pollOpen (s : Streams κ) (id : Nat) (dir : Dir) : OpenPoint → Option (Streams κ)
  | .unsent =>
    match s.bridge.cn.closed with
    | some _ => some (s.setOpen id none)
    | none => some (s.setOpen id (some ⟨dir, .send⟩))
  | .send =>
    some ({ s with bridge := s.bridge.sendCmd (openCommand dir id) }.setOpen id
      (some ⟨dir, .awaiting none⟩))
  | .awaiting (some (.opened (.ok streamId))) => some (s.completeOpen id dir streamId)
  | .awaiting (some (.opened (.error _))) => some (s.setOpen id none)
  | .awaiting _ => none

def dropOpen (s : Streams κ) (id : Nat) : OpenPoint → Option (Streams κ)
  | .send => none
  | _ => some (s.setOpen id none)

def deliver (s : Streams κ) : Option (Nat × Reply) → Streams κ
  | some (id, r) =>
    match s.opens id with
    | some ⟨dir, .awaiting none⟩ => s.setOpen id (some ⟨dir, .awaiting (some r)⟩)
    | _ => s
  | none => s

def recordOpened (s : Streams κ) : Option (Nat × Reply) → Streams κ
  | some (_, .opened (.ok streamId)) => { s with opened := s.opened ++ [streamId] }
  | _ => s

def recordCreated (s : Streams κ) : BridgeEvent κ → Streams κ
  | .callback (.onStreamCreated streamId) => { s with created := s.created ++ [streamId] }
  | _ => s

def step (T : Tquic κ) (s : Streams κ) : StreamsEvent κ → Option (Streams κ)
  | .process =>
    match s.bridge.process T with
    | some (_, bridge, reply) => some (({ s with bridge := bridge }.recordOpened reply).deliver reply)
    | none => none
  | .bridge e =>
    match s.bridge.step e with
    | some bridge => some ({ s with bridge := bridge }.recordCreated e)
    | none => none
  | .accept id dir =>
    match s.accepts id with
    | none => some (s.setAccept id (some ⟨dir, .begin⟩))
    | some _ => none
  | .pollAccept id branch =>
    match s.accepts id with
    | some f => s.pollAccept id f.dir branch f.point
    | none => none
  | .dropAccept id =>
    match s.accepts id with
    | some f => s.dropAccept id f.dir f.point
    | none => none
  | .openStream dir => some { s.setOpen s.next (some ⟨dir, .unsent⟩) with next := s.next + 1 }
  | .pollOpen id =>
    match s.opens id with
    | some f => s.pollOpen id f.dir f.point
    | none => none
  | .dropOpen id =>
    match s.opens id with
    | some f => s.dropOpen id f.point
    | none => none

end Streams

end TokioTquic
