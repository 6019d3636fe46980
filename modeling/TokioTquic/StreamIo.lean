import TokioTquic.Bridge
import TokioTquic.RecvStream
import TokioTquic.SendStream

/-!
# Interleaved `read` and `write` futures

Any number of stream halves of one connection, each with at most one `read` or
`write` future at a time, next to the bridge thread. A future is dropped at an
await point or before its first poll. `engineBytes` and `callerBytes` record
what the engine moved for a half and what completed calls reported.
-/

namespace TokioTquic
open Async
set_option autoImplicit false

universe u v
variable {κ : Type u} {ρ : Type v}

/-- What a future does next. From `check` on it is in `wait_readable` or
`wait_writable`: the first look at `closed_rx`, the lookup of the `Notify`, the
first poll of `notified()`, asleep in it, and the second look. -/
inductive Point where
  | begin
  | send
  | reply (msg : Option Reply)
  | check
  | entry
  | notified
  | parked
  | recheck

/-- `serial` names the future among all futures of the run. -/
structure IoFuture where
  serial : Nat
  buf : Bytes
  point : Point

inductive Completion where
  | read (result : Except ReadError (Option Nat)) (buf : Bytes)
  | write (result : Except WriteError Nat) (buf : Bytes)

def Completion.bytes : Completion → Bytes
  | .read (.ok (some n)) buf => buf.take n
  | .write (.ok n) buf => buf.take n
  | _ => []

namespace Half

def request (h : Half) (buf : Bytes) (respond : ρ) : ConnCommand ρ :=
  match h with
  | .recv streamId => .streamRead streamId buf.length respond
  | .send streamId => .streamWrite streamId buf false respond

def connectionLost (h : Half) (buf : Bytes) (error : ConnectionError) : Completion :=
  match h with
  | .recv _ => .read (.error (.connectionLost error)) buf
  | .send _ => .write (.error (.connectionLost error)) buf

end Half

/-- The half a read or write command works on. -/
def ConnCommand.half : ConnCommand ρ → Option Half
  | .streamRead streamId _ _ => some (.recv streamId)
  | .streamWrite streamId _ _ _ => some (.send streamId)
  | _ => none

def ConnCommand.moved (T : Tquic κ) (conn : Option κ) : ConnCommand ρ → Bytes
  | .streamRead streamId maxLen _ =>
    match conn.map fun c => (T.streamRead c streamId maxLen).1 with
    | some (.ok (data, _)) => data.take maxLen
    | _ => []
  | .streamWrite streamId data fin _ =>
    match conn.map fun c => (T.streamWrite c streamId data fin).1 with
    | some (.ok n) => data.take n
    | _ => []
  | _ => []

/-- A command carries the address of its future: the half and the serial. -/
structure StreamIo (κ : Type u) where
  bridge : Bridge κ (Half × Nat)
  recv : Nat → RecvStream
  send : Nat → SendStream
  futures : Half → Option IoFuture
  next : Nat
  engineBytes : Half → Bytes
  callerBytes : Half → Bytes

inductive IoEvent (κ : Type u) where
  | process
  | bridge (e : BridgeEvent κ)
  | call (h : Half) (buf : Bytes)
  | poll (h : Half)
  | drop (h : Half)

namespace StreamIo

def init (connId : Nat) (conn : κ) (remoteAddr : SocketAddr) (isServer : Bool) : StreamIo κ where
  bridge := ⟨some conn, [], .created remoteAddr isServer, []⟩
  recv := fun streamId => ⟨connId, streamId, false⟩
  send := fun streamId => ⟨connId, streamId, false⟩
  futures := fun _ => none
  next := 0
  engineBytes := fun _ => []
  callerBytes := fun _ => []

def goto (s : StreamIo κ) (h : Half) (f : IoFuture) (point : Point) : StreamIo κ :=
  { s with futures := Function.update s.futures h (some { f with point := point }) }

def complete (s : StreamIo κ) (h : Half) (c : Completion) : StreamIo κ :=
  { s with
    futures := Function.update s.futures h none
    callerBytes := Function.update s.callerBytes h (s.callerBytes h ++ c.bytes) }

def setCn (s : StreamIo κ) (cn : ConnNotify) : StreamIo κ :=
  { s with bridge := { s.bridge with cn := cn } }

def deliver (s : StreamIo κ) : Option ((Half × Nat) × Reply) → StreamIo κ
  | some ((h, serial), r) =>
    match s.futures h with
    | some ⟨serial', buf, .reply none⟩ =>
      if serial' = serial then s.goto h ⟨serial', buf, .reply none⟩ (.reply (some r)) else s
    | _ => s
  | none => s

def recordMoved (s : StreamIo κ) (T : Tquic κ) (conn : Option κ)
    (cmd : ConnCommand (Half × Nat)) : StreamIo κ :=
  match cmd.half with
  | some h =>
    { s with engineBytes :=
        Function.update s.engineBytes h (s.engineBytes h ++ cmd.moved T conn) }
  | none => s

/-- The check at the top of `read` and `write`. -/
def alreadyClosed (s : StreamIo κ) (h : Half) (buf : Bytes) : Option Completion :=
  match h with
  | .recv streamId => if (s.recv streamId).allDataRead then some (.read (.ok none) buf) else none
  | .send streamId => if (s.send streamId).finished then some (.write (.error .closedStream) buf) else none

/-- A oneshot channel carries the reply of its own request only. -/
def onReply (s : StreamIo κ) (h : Half) (buf : Bytes) (r : Reply) :
    Option (StreamIo κ × Pass Completion) :=
  match h, r with
  | .recv streamId, .read r =>
    let (self, buf, pass) := (s.recv streamId).onReply buf (some r)
    some ({ s with recv := Function.update s.recv streamId self }, pass.map (.read · buf))
  | .send _, .written r => some (s, (SendStream.onReply (some r)).map (.write · buf))
  | _, _ => none

/-- One step of the future of `h`, up to its next access to shared state. -/
def poll (s : StreamIo κ) (h : Half) (f : IoFuture) : Option (StreamIo κ) :=
  match f.point with
  | .begin =>
    match s.alreadyClosed h f.buf with
    | some c => some (s.complete h c)
    | none => some (s.goto h f .send)
  | .send =>
    some ({ s with bridge := s.bridge.sendCmd (h.request f.buf (h, f.serial)) }.goto h f
      (.reply none))
  | .reply none => none
  | .reply (some r) =>
    match s.onReply h f.buf r with
    | some (s', .ret c) => some (s'.complete h c)
    | some (s', .wait) => some (s'.goto h f .check)
    | none => none
  | .check =>
    match s.bridge.cn.closed with
    | some err => some (s.complete h (h.connectionLost f.buf err))
    | none => some (s.goto h f .entry)
  | .entry => some ((s.setCn (s.bridge.cn.getOrCreate h)).goto h f .notified)
  | .notified | .parked =>
    match s.bridge.cn.notify h with
    | some n =>
      some ((s.setCn (s.bridge.cn.setNotify (n.poll f.serial).2 h)).goto h f
        (if (n.poll f.serial).1 then .recheck else .parked))
    | none => none
  | .recheck =>
    match s.bridge.cn.closed with
    | some err => some (s.complete h (h.connectionLost f.buf err))
    | none => some (s.goto h f .send)

def drop (s : StreamIo κ) (h : Half) (f : IoFuture) : Option (StreamIo κ) :=
  match f.point with
  | .begin | .reply _ => some { s with futures := Function.update s.futures h none }
  | .parked =>
    some { s.setCn (s.bridge.cn.modifyNotify h (·.cancel f.serial)) with
      futures := Function.update s.futures h none }
  | _ => none

def step (T : Tquic κ) (s : StreamIo κ) : IoEvent κ → Option (StreamIo κ)
  | .process =>
    match s.bridge.process T with
    | some (cmd, bridge, reply) =>
      some (({ s with bridge := bridge }.recordMoved T s.bridge.conn cmd).deliver reply)
    | none => none
  | .bridge e =>
    match s.bridge.step e with
    | some bridge => some { s with bridge := bridge }
    | none => none
  | .call h buf =>
    match s.futures h with
    | none =>
      some { s with
        futures := Function.update s.futures h (some ⟨s.next, buf, .begin⟩)
        next := s.next + 1 }
    | some _ => none
  | .poll h =>
    match s.futures h with
    | some f => s.poll h f
    | none => none
  | .drop h =>
    match s.futures h with
    | some f => s.drop h f
    | none => none

end StreamIo

end TokioTquic
