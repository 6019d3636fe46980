import TokioTquic.StreamIo

/-!
# `AsyncWrite` and `AsyncRead`

A poll of a stream half sends a request and hands the reply to a spawned task,
which wakes the caller. The system has one half, its caller, the spawned tasks
and the bridge thread; `answers` and `polls` are the histories of what the
engine answered and of what the polls returned.
-/

namespace TokioTquic
open Async
set_option autoImplicit false

universe u v
variable {κ : Type u} {ρ : Type v}

/-! ## Answers of the engine -/

inductive Answer where
  | write (data : Bytes) (result : Except TquicError Nat)
  | read (maxLen : Nat) (result : Except TquicError (Bytes × Bool))

def ConnCommand.answer (T : Tquic κ) (c : κ) : ConnCommand ρ → Option Answer
  | .streamWrite streamId data fin _ => some (.write data (T.streamWrite c streamId data fin).1)
  | .streamRead streamId maxLen _ => some (.read maxLen (T.streamRead c streamId maxLen).1)
  | _ => none

namespace Answer

def moved : Answer → Bytes
  | .write data (.ok n) => data.take n
  | .read _ (.ok (data, _)) => data
  | _ => []

def Failed : Answer → Prop
  | .write _ (.error e) => e ≠ .done
  | .read _ (.error e) => e ≠ .done
  | _ => False

def Fin : Answer → Prop
  | .read _ (.ok (_, fin)) => fin = true
  | _ => False

/-- `Done`, an accepted or read part of what was asked for, FIN, or an error. -/
def Legal : Answer → Prop
  | .write data (.ok n) => 0 < n ∧ n ≤ data.length
  | .read maxLen (.ok (data, fin)) => (data ≠ [] ∨ fin = true) ∧ data.length ≤ maxLen
  | _ => True

end Answer

/-! ## The system -/

inductive TaskPoint where
  | reply (msg : Option Reply)
  | entry
  | notified
  | parked

/-- `pending` is the buffer of the caller's last poll when that was pending. -/
structure PollIo (κ : Type u) where
  bridge : Bridge κ Nat
  recv : RecvStream
  send : SendStream
  tasks : Nat → Option TaskPoint
  next : Nat
  pending : Option Bytes
  woken : Bool
  answers : List Answer
  polls : List (Bytes × Poll (Except IoError Bytes))

inductive PollEvent (κ : Type u) where
  | process
  | bridge (e : BridgeEvent κ)
  | poll (buf : Bytes)
  | task (id : Nat)

namespace PollIo

/-- `ended` is `all_data_read` or `finished` at the start. -/
def init (connId streamId : Nat) (conn : κ) (remoteAddr : SocketAddr) (isServer ended : Bool) :
    PollIo κ where
  bridge := ⟨some conn, [], .created remoteAddr isServer, []⟩
  recv := ⟨connId, streamId, ended⟩
  send := ⟨connId, streamId, ended⟩
  tasks := fun _ => none
  next := 0
  pending := none
  woken := false
  answers := []
  polls := []

/-- `poll_read` or `poll_write`, with the bytes a ready poll tells the caller of:
nothing is appended to the `ReadBuf` of a ready `poll_read`. -/
def pollHalf (s : PollIo κ) (buf : Bytes) : Half → Poll (Except IoError Bytes)
  | .recv _ =>
    match s.recv.pollRead with
    | .pending => .pending
    | .ready r => .ready (r.map fun _ => [])
  | .send _ =>
    match s.send.pollWrite with
    | .pending => .pending
    | .ready r => .ready (r.map fun n => buf.take n)

/-- The replies on which a task waits before it wakes the caller. -/
def waitsOn : Reply → Bool
  | .written (.ok n) => n == 0
  | .read (.ok (data, _)) => data.isEmpty
  | _ => false

def setTask (s : PollIo κ) (id : Nat) (task : Option TaskPoint) : PollIo κ :=
  { s with tasks := Function.update s.tasks id task }

def wake (s : PollIo κ) (id : Nat) : PollIo κ := { s.setTask id none with woken := true }

def deliver (s : PollIo κ) : Option (Nat × Reply) → PollIo κ
  | some (id, r) =>
    match s.tasks id with
    | some (.reply none) => s.setTask id (some (.reply (some r)))
    | _ => s
  | none => s

def recordAnswer (s : PollIo κ) (T : Tquic κ) (conn : Option κ) (cmd : ConnCommand Nat) :
    PollIo κ :=
  match conn.bind fun c => cmd.answer T c with
  | some a => { s with answers := s.answers ++ [a] }
  | none => s

/-- One step of a spawned task of a half, up to its next access to shared state. -/
def stepTask (s : PollIo κ) (h : Half) (id : Nat) : TaskPoint → Option (PollIo κ)
  | .reply none => none
  | .reply (some r) => some (if waitsOn r then s.setTask id (some .entry) else s.wake id)
  | .entry =>
    some { s.setTask id (some .notified) with
      bridge := { s.bridge with cn := s.bridge.cn.getOrCreate h } }
  | .notified | .parked =>
    match s.bridge.cn.notify h with
    | some n =>
      let s := { s with bridge := { s.bridge with cn := s.bridge.cn.setNotify (n.poll id).2 h } }
      some (if (n.poll id).1 then s.wake id else s.setTask id (some .parked))
    | none => none

def step (T : Tquic κ) (h : Half) (s : PollIo κ) : PollEvent κ → Option (PollIo κ)
  | .process =>
    match s.bridge.process T with
    | some (cmd, bridge, reply) =>
      some (({ s with bridge := bridge }.recordAnswer T s.bridge.conn cmd).deliver reply)
    | none => none
  | .bridge e =>
    match s.bridge.step e with
    | some bridge => some { s with bridge := bridge }
    | none => none
  | .poll buf =>
    let s := { s with polls := s.polls ++ [(buf, s.pollHalf buf h)] }
    match s.pollHalf buf h with
    | .ready _ => some { s with pending := none }
    | .pending =>
      some { s with
        bridge := s.bridge.sendCmd (h.request buf s.next)
        tasks := Function.update s.tasks s.next (some (.reply none))
        next := s.next + 1
        pending := some buf
        woken := false }
  | .task id =>
    match s.tasks id with
    | some task => s.stepTask h id task
    | none => none

/-- After a pending poll the caller polls the same buffer again once woken; a
reader's buffers are not empty. The connection is there and the engine's answers
are legal. -/
def Contract (T : Tquic κ) (h : Half) (s : PollIo κ) : PollEvent κ → Prop
  | .poll buf => (∀ b ∈ s.pending, buf = b ∧ s.woken = true) ∧
      ∀ streamId, h = .recv streamId → buf ≠ []
  | .process => ∃ c, s.bridge.conn = some c ∧
      ∀ cmd ∈ s.bridge.queue.head?, ∀ a ∈ cmd.answer T c, a.Legal
  | _ => True

/-! ## Histories -/

def moved (s : PollIo κ) : Bytes := s.answers.flatMap Answer.moved

def reported (s : PollIo κ) : Bytes :=
  s.polls.flatMap fun p =>
    match p.2 with
    | .ready (.ok bytes) => bytes
    | _ => []

/-- The bytes agree, and an error of the engine has been reported. -/
structure Agrees (s : PollIo κ) : Prop where
  bytes : s.reported = s.moved
  errors : (∃ a ∈ s.answers, a.Failed) → ∃ p ∈ s.polls, ∃ e, p.2 = .ready (.error e)

/-- The end of the stream is reported only after FIN, which may have come before
the polls (`ended`). -/
def EndsAtFin (s : PollIo κ) (ended : Bool) : Prop :=
  ∀ p ∈ s.polls, p.2 = .ready (.ok []) → ended = true ∨ ∃ a ∈ s.answers, a.Fin

end PollIo

end TokioTquic
