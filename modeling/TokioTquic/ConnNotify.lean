import TokioTquic.Async.Notify
import TokioTquic.Async.Mutex
import TokioTquic.Error
import Mathlib.Data.Nat.Bitwise
import Mathlib.Logic.Function.Basic

/-!
# `ConnNotify` and the transport callbacks

A callback of the engine is the list of atomic operations it performs on the
shared `ConnNotify`, in program order; the user's futures may run between any
two of them. The callbacks look the entry up in `conn_states` first and do
nothing without one.
-/

namespace TokioTquic
open Async
set_option autoImplicit false

/-- One half of a stream, named by its stream id. -/
inductive Half where
  | recv (streamId : Nat)
  | send (streamId : Nat)
  deriving DecidableEq, Repr

/-- The shared state of one connection. `closed` is the value of the watch
channel, `acceptBi` and `acceptUni` are the queued messages, and the locks are
those around the two receivers. -/
structure ConnNotify where
  isEstablished : Bool
  establishWaker : Option Nat
  closed : Option ConnectionError
  acceptBi : List Nat
  acceptBiLock : Mutex Nat
  acceptUni : List Nat
  acceptUniLock : Mutex Nat
  streamReadable : Nat → Option (Notify Nat)
  streamWritable : Nat → Option (Notify Nat)
  isServer : Bool
  remoteAddr : SocketAddr

namespace ConnNotify

def new (remoteAddr : SocketAddr) : ConnNotify where
  isEstablished := false
  establishWaker := none
  closed := none
  acceptBi := []
  acceptBiLock := .new
  acceptUni := []
  acceptUniLock := .new
  streamReadable := fun _ => none
  streamWritable := fun _ => none
  isServer := false
  remoteAddr := remoteAddr

def created (remoteAddr : SocketAddr) (isServer : Bool) : ConnNotify :=
  { new remoteAddr with isServer := isServer }

/-- The `Notify` a reader or a writer of this half waits on. -/
def notify (cn : ConnNotify) : Half → Option (Notify Nat)
  | .recv streamId => cn.streamReadable streamId
  | .send streamId => cn.streamWritable streamId

def setNotify (cn : ConnNotify) (n : Notify Nat) : Half → ConnNotify
  | .recv streamId => { cn with streamReadable := Function.update cn.streamReadable streamId (some n) }
  | .send streamId => { cn with streamWritable := Function.update cn.streamWritable streamId (some n) }

/-- `get_or_create_readable` and `get_or_create_writable`. -/
def getOrCreate (cn : ConnNotify) (h : Half) : ConnNotify :=
  match cn.notify h with
  | some _ => cn
  | none => cn.setNotify .new h

def getOrCreateReadable (cn : ConnNotify) (streamId : Nat) : ConnNotify :=
  cn.getOrCreate (.recv streamId)

def getOrCreateWritable (cn : ConnNotify) (streamId : Nat) : ConnNotify :=
  cn.getOrCreate (.send streamId)

def modifyNotify (cn : ConnNotify) (h : Half) (f : Notify Nat → Notify Nat) : ConnNotify :=
  match cn.notify h with
  | some n => cn.setNotify (f n) h
  | none => cn

@[simp] theorem created_notify (remoteAddr : SocketAddr) (isServer : Bool) (h : Half) :
    (created remoteAddr isServer).notify h = none := by
  cases h <;> rfl

@[simp] theorem setNotify_notify (cn : ConnNotify) (n : Notify Nat) (h : Half) :
    (cn.setNotify n h).notify h = some n := by
  cases h <;> simp [setNotify, notify]

theorem setNotify_notify_ne (cn : ConnNotify) (n : Notify Nat) {h g : Half} (hne : g ≠ h) :
    (cn.setNotify n h).notify g = cn.notify g := by
  cases h <;> cases g <;> simp_all [setNotify, notify]

@[simp] theorem setNotify_closed (cn : ConnNotify) (n : Notify Nat) (h : Half) :
    (cn.setNotify n h).closed = cn.closed := by
  cases h <;> rfl

@[simp] theorem getOrCreate_closed (cn : ConnNotify) (h : Half) :
    (cn.getOrCreate h).closed = cn.closed := by
  unfold getOrCreate
  split <;> simp

theorem getOrCreate_notify (cn : ConnNotify) (h : Half) :
    (cn.getOrCreate h).notify h = some ((cn.notify h).getD .new) := by
  unfold getOrCreate
  split <;> simp_all

theorem getOrCreate_notify_ne (cn : ConnNotify) {h g : Half} (hne : g ≠ h) :
    (cn.getOrCreate h).notify g = cn.notify g := by
  unfold getOrCreate
  split
  · rfl
  · exact setNotify_notify_ne cn _ hne

theorem modifyNotify_notify (cn : ConnNotify) (h : Half) (f : Notify Nat → Notify Nat) :
    (cn.modifyNotify h f).notify h = (cn.notify h).map f := by
  unfold modifyNotify
  split <;> simp_all

theorem modifyNotify_notify_ne (cn : ConnNotify) {h g : Half} (f : Notify Nat → Notify Nat)
    (hne : g ≠ h) : (cn.modifyNotify h f).notify g = cn.notify g := by
  unfold modifyNotify
  split
  · exact setNotify_notify_ne cn _ hne
  · rfl

@[simp] theorem modifyNotify_closed (cn : ConnNotify) (h : Half) (f : Notify Nat → Notify Nat) :
    (cn.modifyNotify h f).closed = cn.closed := by
  unfold modifyNotify
  split <;> simp

theorem getOrCreate_isServer (cn : ConnNotify) (h : Half) :
    (cn.getOrCreate h).isServer = cn.isServer := by
  unfold getOrCreate
  split
  · rfl
  · cases h <;> rfl

theorem modifyNotify_isServer (cn : ConnNotify) (h : Half) (f : Notify Nat → Notify Nat) :
    (cn.modifyNotify h f).isServer = cn.isServer := by
  unfold modifyNotify
  split
  · cases h <;> rfl
  · rfl

theorem getOrCreate_remoteAddr (cn : ConnNotify) (h : Half) :
    (cn.getOrCreate h).remoteAddr = cn.remoteAddr := by
  unfold getOrCreate
  split
  · rfl
  · cases h <;> rfl

theorem modifyNotify_remoteAddr (cn : ConnNotify) (h : Half) (f : Notify Nat → Notify Nat) :
    (cn.modifyNotify h f).remoteAddr = cn.remoteAddr := by
  unfold modifyNotify
  split
  · cases h <;> rfl
  · rfl

end ConnNotify

/-! ## The callbacks -/

inductive SharedOp where
  | storeEstablished
  | wakeEstablish
  | sendClosed (error : ConnectionError)
  | getOrCreate (h : Half)
  | notifyOne (h : Half)
  /-- `stream_readable.get(&id)`, and `notify_one` next if there is an entry. -/
  | get (h : Half)
  | queueAccept (dir : Dir) (streamId : Nat)
  deriving DecidableEq

/-- What `on_conn_closed` asks the engine about the connection. -/
structure CloseInfo where
  peerError : Option TquicConnError
  localError : Option TquicConnError
  isIdleTimeout : Bool
  isHandshakeTimeout : Bool
  isReset : Bool
  deriving DecidableEq

def CloseInfo.error (info : CloseInfo) : ConnectionError :=
  match info.peerError, info.localError with
  | some err, _ => .fromTquicConnError err
  | none, some err => .fromTquicConnError err
  | none, none =>
    if info.isIdleTimeout || info.isHandshakeTimeout then .timedOut
    else if info.isReset then .reset
    else .locallyClosed

inductive Callback where
  | onConnEstablished
  | onConnClosed (info : CloseInfo)
  | onStreamCreated (streamId : Nat)
  | onStreamReadable (streamId : Nat)
  | onStreamWritable (streamId : Nat)
  | onStreamClosed (streamId : Nat)

/-- `on_stream_created`'s test: bit 0 of the id names the initiator. -/
def peerInitiated (isServer : Bool) (streamId : Nat) : Bool :=
  if isServer then streamId &&& 1 == 0 else streamId &&& 1 == 1

/-- Bit 1 of the id names the direction. -/
def streamDir (streamId : Nat) : Dir :=
  if streamId &&& 2 == 0 then .bi else .uni

/-- The ids that a client and a server give to their streams of a direction, modulo 4. -/
def streamKind : (byServer : Bool) → Dir → Nat
  | false, .bi => 0
  | true, .bi => 1
  | false, .uni => 2
  | true, .uni => 3

theorem peerInitiated_iff (isServer : Bool) (streamId : Nat) :
    peerInitiated isServer streamId = true ↔ streamId % 2 = if isServer then 0 else 1 := by
  have hbit : streamId &&& 1 = streamId % 2 := Nat.and_one_is_mod streamId
  cases isServer <;> simp [peerInitiated, hbit]

theorem streamDir_iff (streamId : Nat) (dir : Dir) :
    streamDir streamId = dir ↔ (streamId % 4 < 2 ↔ dir = .bi) := by
  have hand : streamId &&& 2 = (streamId.testBit 1).toNat * 2 := Nat.and_two_pow streamId 1
  have hbit : streamId &&& 2 = 0 ↔ streamId % 4 < 2 := by
    rw [hand, Nat.testBit_eq_decide_div_mod_eq]
    simp
    omega
  by_cases hlow : streamId % 4 < 2
  · cases dir <;> simp [streamDir, hbit, hlow]
  · cases dir <;> simp [streamDir, hbit, hlow]

theorem peer_streamKind (isServer : Bool) (streamId : Nat) (dir : Dir) :
    peerInitiated isServer streamId = true ∧ streamDir streamId = dir ↔
      streamId % 4 = streamKind (!isServer) dir := by
  rw [peerInitiated_iff, streamDir_iff]
  cases isServer <;> cases dir <;> simp [streamKind] <;> omega

theorem local_streamKind (isServer : Bool) (streamId : Nat) (dir : Dir) :
    peerInitiated isServer streamId = false ∧ streamDir streamId = dir ↔
      streamId % 4 = streamKind isServer dir := by
  rw [← Bool.not_eq_true, peerInitiated_iff, streamDir_iff]
  cases isServer <;> cases dir <;> simp [streamKind] <;> omega
def Callback.ops (isServer : Bool) : Callback → List SharedOp
  | .onConnEstablished => [.storeEstablished, .wakeEstablish]
  | .onConnClosed info => [.sendClosed info.error, .wakeEstablish]
  | .onStreamCreated streamId =>
    [.getOrCreate (.recv streamId), .getOrCreate (.send streamId)] ++
      if peerInitiated isServer streamId then [.queueAccept (streamDir streamId) streamId] else []
  | .onStreamReadable streamId => [.getOrCreate (.recv streamId), .notifyOne (.recv streamId)]
  | .onStreamWritable streamId => [.getOrCreate (.send streamId), .notifyOne (.send streamId)]
  | .onStreamClosed streamId => [.get (.recv streamId), .get (.send streamId)]

/-- Perform one operation; the list holds the operations it adds before the rest. -/
def SharedOp.exec (cn : ConnNotify) : SharedOp → ConnNotify × List SharedOp
  | .storeEstablished => ({ cn with isEstablished := true }, [])
  | .wakeEstablish => ({ cn with establishWaker := none }, [])
  | .sendClosed error => ({ cn with closed := some error }, [])
  | .getOrCreate h => (cn.getOrCreate h, [])
  | .notifyOne h => (cn.modifyNotify h Notify.notifyOne, [])
  | .get h => (cn, if (cn.notify h).isSome then [.notifyOne h] else [])
  | .queueAccept .bi streamId => ({ cn with acceptBi := cn.acceptBi ++ [streamId] }, [])
  | .queueAccept .uni streamId => ({ cn with acceptUni := cn.acceptUni ++ [streamId] }, [])

end TokioTquic
