import TokioTquic.Handshake

/-!
# The bridge thread and a `Connecting`

What the polls of a `Connecting` rely on, and that the callbacks keep it. The
thread sets the flag or the close reason before it takes the waker.
-/

namespace TokioTquic
open Async
set_option autoImplicit false

/-! ## Flags and the wakes behind them -/

namespace HandleOp

def isInsert : HandleOp → Bool
  | .insert _ _ _ => true
  | _ => false

/-- The operations a waiting poll has to be woken for. -/
def signals : HandleOp → Bool
  | .shared _ .storeEstablished | .shared _ (.sendClosed _) => true
  | _ => false

/-- Each of them is followed by the wake. -/
def Paired : List HandleOp → Prop
  | [] => True
  | op :: ops => (op.signals = true → .shared 0 .wakeEstablish ∈ ops) ∧ Paired ops

end HandleOp

namespace Handshake

/-! ## The invariants -/

structure Inserted (s : Handshake) : Prop where
  created : s.created = true
  entry : s.thread.handle.connStates s.index = some 0
  kept : ∀ op ∈ s.thread.todo, op.isInsert = false

/-- Whoever knows an index knows that of the connection, after its insertion. -/
structure Table (s : Handshake) : Prop where
  idle : s.created = false → s.thread.todo = [] ∧ s.thread.handle.incoming = []
  phase : s.created = true → s.Inserted ∨
    (∃ cn ops, s.thread.todo = .insert s.index 0 cn :: ops ∧ ∀ op ∈ ops, op.isInsert = false)
  queued : ∀ uid data, .sendIncoming uid data ∈ s.thread.todo → data.connId = s.index
  incoming : ∀ x ∈ s.thread.handle.incoming, x.2.connId = s.index ∧ s.Inserted
  known : ∀ connId, s.connId = some connId → connId = s.index ∧ s.Inserted
  replied : ∀ self connId, s.self = some self → self.idRx = some (some (.ok connId)) →
    connId = s.index ∧ s.Inserted

/-- The flag and the reason are those of the callbacks, also of the one in progress. -/
structure Recorded (s : Handshake) : Prop where
  inserting : ∀ connId uid cn, .insert connId uid cn ∈ s.thread.todo →
    cn.isEstablished = false ∧ cn.closed = none
  uids : ∀ uid op, .shared uid op ∈ s.thread.todo → uid = 0
  storing : .shared 0 .storeEstablished ∈ s.thread.todo → s.established = true
  closing : ∀ error, .shared 0 (.sendClosed error) ∈ s.thread.todo →
    ∃ info, s.ended = some info ∧ info.error = error
  paired : HandleOp.Paired s.thread.todo
  flag : s.cn.isEstablished = true → s.established = true
  reason : ∀ error, s.cn.closed = some error → ∃ info, s.ended = some info ∧ info.error = error

def Registered (s : Handshake) : Prop :=
  s.waker ∈ s.woken ∨ s.cn.establishWaker = some s.waker

/-- The last poll's waker was woken, or the callback in progress takes the waker. -/
def Alerted (s : Handshake) : Prop :=
  s.waker ∈ s.woken ∨ .shared 0 .wakeEstablish ∈ s.thread.todo

def At (s : Handshake) : ConnectPoint → Prop
  | .resolve => s.connId = none ∧ s.sure = false
  | .lookup connId => s.connId = some connId
  | .load connId uid => s.connId = some connId ∧ uid = 0
  | .borrow connId uid => s.connId = some connId ∧ uid = 0 ∧ s.sure = false
  | .register connId uid => s.connId = some connId ∧ uid = 0 ∧ s.sure = false
  | .reload connId uid => s.connId = some connId ∧ uid = 0 ∧ s.sure = false ∧ s.Registered
  | .reborrow connId uid =>
    s.connId = some connId ∧ uid = 0 ∧ s.sure = false ∧ s.Registered ∧
      (s.cn.isEstablished = true → s.Alerted)

def Returned (s : Handshake) : Poll (Except ConnectionError Nat) → Prop
  | .ready (.ok connId) => s.connId = some connId ∧ s.cn.isEstablished = true
  | .ready (.error error) => s.sure = false ∧ (s.connId.isSome → s.cn.closed = some error)
  | .pending =>
    s.sure = false ∧ (s.connId.isSome → s.Registered ∧
      (s.cn.isEstablished = true ∨ s.cn.closed.isSome → s.Alerted))

structure Polls (s : Handshake) : Prop where
  unborn : s.self = none → s.point = none ∧ s.last = none
  busy : ∀ p, s.point = some p → s.last = none
  point : ∀ p, s.point = some p → s.At p
  last : ∀ r, s.last = some r → s.Returned r
  sure : s.sure = true → s.connId.isSome ∧ s.cn.isEstablished = true

/-! ## The bridge thread -/

/-- What the thread does: it keeps what it has told, and tells nothing new to a
registered poll without waking it. -/
structure Moves (s t : Handshake) : Prop where
  unborn : t.self = none → s.self = none
  connId : t.connId = s.connId
  point : t.point = s.point
  last : t.last = s.last
  sure : t.sure = s.sure
  inserted : s.Inserted → t.Inserted
  flag : s.Inserted → s.cn.isEstablished = true → t.cn.isEstablished = true
  reason : s.Inserted → ∀ error, s.cn.closed = some error → t.cn.closed = some error
  registered : s.Inserted → s.Registered → t.Registered
  alerted : s.Inserted → s.Registered → s.Alerted → t.Alerted
  newFlag : s.Inserted → t.cn.isEstablished = true → s.cn.isEstablished = true ∨ t.Alerted
  newReason : s.Inserted → t.cn.closed.isSome → s.cn.closed.isSome ∨ t.Alerted

theorem step_exec {display : SocketAddr → String} {endpointIsServer : Bool} {s t : Handshake}
    (h : s.step display endpointIsServer .exec = some t) :
    ∃ op ops, s.thread.todo = op :: ops ∧
      t = { s with
        thread := ⟨(op.exec s.thread.handle).1, (op.exec s.thread.handle).2 ++ ops⟩
        woken := s.woken ++ (taken s.thread.handle op).toList } := by
  simp only [step] at h
  split at h
  · cases h
  · rename_i op ops htodo
    obtain ⟨thread, hthread, rfl⟩ := Option.map_eq_some_iff.mp h
    obtain ⟨op', ops', htodo', rfl⟩ := BridgeThread.step_exec hthread
    rw [htodo] at htodo'
    cases htodo'
    exact ⟨op, ops, htodo, rfl⟩

def begin (s : Handshake) (cb : Callback) (established : Bool) (ended : Option CloseInfo) :
    Handshake :=
  { s with
    thread := { s.thread with todo := s.thread.handle.callbackOps (some s.index) cb }
    established := established
    ended := ended }

end Handshake

end TokioTquic
