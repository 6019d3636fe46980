import TokioTquic.HandleOps
import TokioTquic.Async.Watch
import TokioTquic.Async.Work

/-!
# `Connection::read_datagram`

The engine has no datagrams, so that a `ReadDatagram` can only wait for the end
of its connection. A poll looks for the close reason; without one it starts a
task that awaits a change of the watch channel and wakes the poll's task. Any
number of such futures next to the bridge thread, one access to shared state at
a time.
-/

namespace TokioTquic
open Async
set_option autoImplicit false

/-- Where a `ReadDatagram` stands. `since` is the number of wakes before the poll that
returned `Pending`. -/
inductive DatagramPoint where
  | idle
  | check (waker : Nat)
  | borrow (waker uid : Nat)
  | lookup (waker : Nat)
  | watch (waker uid : Nat)
  | pending (waker uid since : Nat)
  | ready (err : ConnectionError)
  | dropped
  deriving DecidableEq

/-- The `ConnNotify` a poll in progress has a reference to. -/
def DatagramPoint.held : DatagramPoint → Option Nat
  | .borrow _ uid | .watch _ uid => some uid
  | _ => none

structure ReadDatagram where
  connId : Nat
  point : DatagramPoint
  deriving DecidableEq

structure CloseTask where
  uid : Nat
  seen : Nat
  waker : Nat
  deriving DecidableEq

/-- `watches` are the channels of the `ConnNotify`s, `inserted` the entries that
`conn_states` has had and `reported` the reasons that were sent. -/
structure Datagrams where
  thread : BridgeThread
  nextConn : Nat
  watches : Nat → Watch (Option ConnectionError)
  futures : List ReadDatagram
  tasks : List CloseTask
  woken : List Nat
  inserted : List (Nat × Nat)
  reported : List (Nat × ConnectionError)
  pendings : Nat

inductive DatagramEvent where
  | created (index : Nat) (activePath : Option SocketAddr) (isServer : Bool)
  | callback (index : Nat) (cb : Callback)
  | exec
  | dropNotify (connId uid : Nat)
  | readDatagram (connId : Nat)
  | poll (id waker : Nat)
  | advance (id : Nat)
  | wake (k : Nat)
  | drop (id : Nat)

namespace Datagrams

def init : Datagrams := ⟨.new, 0, fun _ => .new none, [], [], [], [], [], 0⟩

def track (watches : Nat → Watch (Option ConnectionError)) :
    HandleOp → Nat → Watch (Option ConnectionError)
  | .insert _ uid cn => Function.update watches uid (.new cn.closed)
  | .shared uid (.sendClosed error) =>
    Function.update watches uid ((watches uid).send (some error))
  | _ => watches

def note (s : Datagrams) : HandleOp → Datagrams
  | .insert connId uid _ => { s with inserted := (connId, uid) :: s.inserted }
  | .shared uid (.sendClosed error) => { s with reported := (uid, error) :: s.reported }
  | _ => s

def goto (s : Datagrams) (id : Nat) (f : ReadDatagram) (p : DatagramPoint) : Datagrams :=
  { s with futures := s.futures.set id { f with point := p } }

/-- A poll may start where none is in progress, until the future is done. -/
def startPoll (s : Datagrams) (id waker : Nat) (f : ReadDatagram) : Option Datagrams :=
  match f.point with
  | .idle | .pending _ _ _ => some (s.goto id f (.check waker))
  | _ => none

def advance (s : Datagrams) (id : Nat) (f : ReadDatagram) : Option Datagrams :=
  match f.point with
  | .check waker =>
    match s.thread.handle.connStates f.connId with
    | some uid => some (s.goto id f (.borrow waker uid))
    | none => some (s.goto id f (.lookup waker))
  | .borrow waker uid =>
    match (s.thread.handle.notifies uid).closed with
    | some err => some (s.goto id f (.ready err))
    | none => some (s.goto id f (.lookup waker))
  | .lookup waker =>
    match s.thread.handle.connStates f.connId with
    | some uid => some (s.goto id f (.watch waker uid))
    | none => some (s.goto id f (.ready .locallyClosed))
  | .watch waker uid =>
    -- the receiver in the `ConnNotify` itself is never asked for a change
    some { s.goto id f (.pending waker uid s.woken.length) with
      tasks := s.tasks ++ [⟨uid, 0, waker⟩], pendings := s.pendings + 1 }
  | _ => none

/-- A task whose `changed` has come to its end wakes its waker. -/
def wake (s : Datagrams) (k : Nat) : Option Datagrams :=
  match s.tasks[k]? with
  | some task =>
    match (s.watches task.uid).changed task.seen with
    | some _ => some { s with tasks := s.tasks.eraseIdx k, woken := s.woken ++ [task.waker] }
    | none => none
  | none => none

/-- A `Connection` is had only for an index that is in `conn_states`. An entry that was
replaced goes when nobody has a reference to it any more. -/
def step (endpointIsServer : Bool) (s : Datagrams) : DatagramEvent → Option Datagrams
  | .created index activePath isServer =>
    (s.thread.step endpointIsServer (.created s.nextConn (some index) activePath isServer)).map
      fun thread => { s with thread := thread, nextConn := s.nextConn + 1 }
  | .callback index cb =>
    (s.thread.step endpointIsServer (.callback (some index) cb)).map
      fun thread => { s with thread := thread }
  | .exec =>
    match s.thread.todo with
    | [] => none
    | op :: _ =>
      (s.thread.step endpointIsServer .exec).map fun thread =>
        { s with thread := thread, watches := track s.watches op }.note op
  | .dropNotify connId uid =>
    if (connId, uid) ∈ s.inserted ∧ s.thread.handle.connStates connId ≠ some uid ∧
        ∀ f ∈ s.futures, f.point.held ≠ some uid then
      some { s with watches := Function.update s.watches uid (s.watches uid).dropSender }
    else none
  | .readDatagram connId =>
    match s.thread.handle.connStates connId with
    | some _ => some { s with futures := s.futures ++ [⟨connId, .idle⟩] }
    | none => none
  | .poll id waker => s.futures[id]?.bind (s.startPoll id waker)
  | .advance id => s.futures[id]?.bind (s.advance id)
  | .wake k => s.wake k
  | .drop id =>
    match s.futures[id]? with
    | some f =>
      match f.point with
      | .idle | .pending _ _ _ | .ready _ => some (s.goto id f .dropped)
      | _ => none
    | none => none

end Datagrams

end TokioTquic
