import TokioTquic.AcceptLine
import TokioTquic.Requests

/-!
# All operations on one connection

The reads and writes of its streams with the loops around them, the open and
accept futures and `closed()`, next to one bridge thread. The reads and writes
and the open futures share the command queue; `order` says whose command is next.
-/

namespace TokioTquic
open Async
set_option autoImplicit false

universe u v w
variable {κ : Type u} {ρ : Type v} {σ : Type w}

/-! ## The loops around `read` and `write` -/

inductive Call where
  | read (buf : Bytes)
  | readExact (buf : Bytes)
  | readToEnd (sizeLimit : Nat)
  | write (buf : Bytes)
  | writeAll (buf : Bytes)

/-- Who awaits the `read` or `write` in progress: the caller, or a loop with what it
has so far. -/
inductive Caller where
  | read
  | readExact (filled : Bytes)
  | readToEnd (data : Bytes) (sizeLimit : Nat)
  | write
  | writeAll

/-- The loop goes on with the next buffer, or the call returns. -/
inductive Outcome where
  | again (caller : Caller) (buf : Bytes)
  | read (result : Except ReadError (Option Nat))
  | readExact (result : Except ReadExactError Unit)
  | readToEnd (result : Except ReadToEndError Bytes)
  | write (result : Except WriteError Nat)
  | writeAll (result : Except WriteError Unit)

/-- The first `read` or `write` of a call, if it makes one. -/
def Call.start : Call → Option (Caller × Bytes)
  | .read buf => some (.read, buf)
  | .readExact buf => if buf = [] then none else some (.readExact [], buf)
  | .readToEnd sizeLimit => some (.readToEnd [] sizeLimit, List.replicate 8192 0)
  | .write buf => some (.write, buf)
  | .writeAll buf => if buf = [] then none else some (.writeAll, buf)

def Call.on : Call → Half → Bool
  | .read _, .recv _ | .readExact _, .recv _ | .readToEnd _, .recv _ => true
  | .write _, .send _ | .writeAll _, .send _ => true
  | _, _ => false

def Caller.onCompletion : Caller → Completion → Option Outcome
  | .read, .read result _ => some (.read result)
  | .readExact filled, .read result buf =>
    match result with
    | .ok (some n) =>
      if n < buf.length then some (.again (.readExact (filled ++ buf.take n)) (buf.drop n))
      else some (.readExact (.ok ()))
    | .ok none => some (.readExact (.error (.finishedEarly filled.length)))
    | .error e => some (.readExact (.error (.readError e)))
  | .readToEnd data sizeLimit, .read result buf =>
    match result with
    | .ok (some n) =>
      if sizeLimit < (data ++ buf.take n).length then some (.readToEnd (.error .tooLong))
      else some (.again (.readToEnd (data ++ buf.take n) sizeLimit) buf)
    | .ok none => some (.readToEnd (.ok data))
    | .error e => some (.readToEnd (.error (.read e)))
  | .write, .write result _ => some (.write result)
  | .writeAll, .write result buf =>
    match result with
    | .ok n =>
      if n < buf.length then some (.again .writeAll (buf.drop n)) else some (.writeAll (.ok ()))
    | .error e => some (.writeAll (.error e))
  | _, _ => none

/-- What a call makes of a `read` or `write`: it passes the error on, reports the end of
the data, or has what it needs for now. -/
inductive Completion.Yields : Completion → Outcome → Prop where
  | readError (e : ReadError) (buf : Bytes) : Yields (.read (.error e) buf) (.read (.error e))
  | exactError (e : ReadError) (buf : Bytes) :
      Yields (.read (.error e) buf) (.readExact (.error (.readError e)))
  | toEndError (e : ReadError) (buf : Bytes) :
      Yields (.read (.error e) buf) (.readToEnd (.error (.read e)))
  | writeError (e : WriteError) (buf : Bytes) : Yields (.write (.error e) buf) (.write (.error e))
  | allError (e : WriteError) (buf : Bytes) : Yields (.write (.error e) buf) (.writeAll (.error e))
  | readEnd (buf : Bytes) : Yields (.read (.ok none) buf) (.read (.ok none))
  | exactEnd (buf : Bytes) (n : Nat) :
      Yields (.read (.ok none) buf) (.readExact (.error (.finishedEarly n)))
  | toEndEnd (buf data : Bytes) : Yields (.read (.ok none) buf) (.readToEnd (.ok data))
  | readSome (n : Nat) (buf : Bytes) : Yields (.read (.ok (some n)) buf) (.read (.ok (some n)))
  | exactDone (n : Nat) (buf : Bytes) : Yields (.read (.ok (some n)) buf) (.readExact (.ok ()))
  | tooLong (n : Nat) (buf : Bytes) :
      Yields (.read (.ok (some n)) buf) (.readToEnd (.error .tooLong))
  | written (n : Nat) (buf : Bytes) : Yields (.write (.ok n) buf) (.write (.ok n))
  | allDone (n : Nat) (buf : Bytes) : Yields (.write (.ok n) buf) (.writeAll (.ok ()))
  | again (c : Completion) (caller : Caller) (buf : Bytes) : Yields c (.again caller buf)

theorem Caller.onCompletion_yields {caller : Caller} {c : Completion} {o : Outcome}
    (h : caller.onCompletion c = some o) : c.Yields o := by
  unfold onCompletion at h
  split at h
  case h_1 result buf =>
    cases h
    rcases result with e | _ | n
    · exact .readError e buf
    · exact .readEnd buf
    · exact .readSome n buf
  case h_2 result buf =>
    rcases result with e | _ | n
    · cases h
      exact .exactError e buf
    · cases h
      exact .exactEnd buf _
    · simp only at h
      split at h <;> cases h
      · exact .again _ _ _
      · exact .exactDone n buf
  case h_3 result buf =>
    rcases result with e | _ | n
    · cases h
      exact .toEndError e buf
    · cases h
      exact .toEndEnd buf _
    · simp only at h
      split at h <;> cases h
      · exact .tooLong n buf
      · exact .again _ _ _
  case h_4 result buf =>
    cases h
    rcases result with e | n
    · exact .writeError e buf
    · exact .written n buf
  case h_5 result buf =>
    rcases result with e | n
    · cases h
      exact .allError e buf
    · simp only at h
      split at h <;> cases h
      · exact .again _ _ _
      · exact .allDone n buf
  case h_6 => cases h

/-! ## Connection-loss results -/

def ReadError.loss : ReadError → Option ConnectionError
  | .connectionLost error => some error
  | _ => none

def WriteError.loss : WriteError → Option ConnectionError
  | .connectionLost error => some error
  | _ => none

def Completion.loss : Completion → Option ConnectionError
  | .read (.error e) _ => e.loss
  | .write (.error e) _ => e.loss
  | _ => none

def Outcome.loss : Outcome → Option ConnectionError
  | .read (.error e) => e.loss
  | .readExact (.error (.readError e)) => e.loss
  | .readToEnd (.error (.read e)) => e.loss
  | .write (.error e) => e.loss
  | .writeAll (.error e) => e.loss
  | _ => none

/-- The connection loss a reply of the bridge thread tells of. -/
def Reply.loss : Reply → Option ConnectionError
  | .opened (.error error) => some error
  | .written (.error e) => e.loss
  | .read (.error e) => e.loss
  | _ => none

/-! ## What a poll returns -/

/-- What the future of `h` returns if it is polled now. -/
def StreamIo.result (s : StreamIo κ) (h : Half) (f : IoFuture) : Option Completion :=
  match f.point with
  | .begin => s.alreadyClosed h f.buf
  | .reply (some r) =>
    match s.onReply h f.buf r with
    | some (_, .ret c) => some c
    | _ => none
  | .check | .recheck => s.bridge.cn.closed.map (h.connectionLost f.buf)
  | _ => none

/-- What an accept future returns if its branch is polled now. -/
def Streams.acceptResult (s : Streams κ) : AcceptPoint → Option (Except ConnectionError Nat)
  | .check | .changed => s.bridge.cn.closed.map .error
  | .taken streamId => some (.ok streamId)
  | _ => none

def Streams.openResult (s : Streams κ) : OpenPoint → Option (Except ConnectionError Nat)
  | .unsent => s.bridge.cn.closed.map .error
  | .awaiting (some (.opened r)) => some r
  | _ => none

theorem StreamIo.poll_result {s s' : StreamIo κ} {h : Half} {f : IoFuture}
    (hstep : s.poll h f = some s') :
    (∃ c recv, s.result h f = some c ∧ s' = { s with recv := recv }.complete h c) ∨
      (s.result h f = none ∧ ∃ f', s'.futures h = some f') := by
  unfold poll at hstep
  unfold result
  split at hstep <;> rename_i hpoint <;> rw [hpoint]
  case h_1 =>
    split at hstep <;> rename_i hclosed <;> cases hstep
    · exact Or.inl ⟨_, s.recv, hclosed, rfl⟩
    · exact Or.inr ⟨hclosed, _, goto_self ..⟩
  case h_2 =>
    cases hstep
    exact Or.inr ⟨rfl, _, goto_self ..⟩
  case h_3 => cases hstep
  case h_4 =>
    split at hstep <;> rename_i hreply <;> cases hstep
    · obtain ⟨recv, rfl⟩ := onReply_frame hreply
      exact Or.inl ⟨_, recv, by simp [hreply], rfl⟩
    · exact Or.inr ⟨by simp [hreply], _, goto_self ..⟩
  case h_6 =>
    cases hstep
    exact Or.inr ⟨rfl, _, goto_self ..⟩
  case h_5 | h_9 =>
    split at hstep <;> rename_i hclosed <;> cases hstep
    · exact Or.inl ⟨_, s.recv, by simp [hclosed], rfl⟩
    · exact Or.inr ⟨by simp [hclosed], _, goto_self ..⟩
  case h_7 | h_8 =>
    split at hstep <;> cases hstep
    exact Or.inr ⟨rfl, _, goto_self ..⟩

theorem Streams.pollAccept_result {s s' : Streams κ} {id : Nat} {dir : Dir} {branch : Branch}
    {point : AcceptPoint} (hstep : s.pollAccept id dir branch point = some s') :
    match s.acceptResult point with
    | some (.ok streamId) => s' = s.completeAccept id dir streamId
    | some (.error _) => s'.accepts id = none ∧ s'.delivered = s.delivered
    | none => ∃ f, s'.accepts id = some f := by
  cases point with
  | begin =>
    cases hstep
    exact ⟨_, Function.update_self ..⟩
  | check =>
    simp only [pollAccept] at hstep
    split at hstep <;> rename_i hclosed <;> cases hstep <;> simp only [acceptResult, hclosed]
    · exact ⟨Function.update_self .., rfl⟩
    · exact ⟨_, Function.update_self ..⟩
  | lock =>
    simp only [pollAccept] at hstep
    split at hstep <;> cases hstep <;> exact ⟨_, Function.update_self ..⟩
  | waiting =>
    simp only [pollAccept] at hstep
    split at hstep <;> cases hstep
    exact ⟨_, Function.update_self ..⟩
  | selecting =>
    cases branch <;> simp only [pollAccept] at hstep <;> split at hstep <;> cases hstep <;>
      exact ⟨_, Function.update_self ..⟩
  | taken streamId => exact (Option.some.inj hstep).symm
  | changed =>
    simp only [pollAccept] at hstep
    split at hstep <;> rename_i hclosed <;> cases hstep <;> simp only [acceptResult, hclosed]
    · exact ⟨Function.update_self .., rfl⟩
    · exact ⟨_, Function.update_self ..⟩

theorem Streams.pollOpen_result {s s' : Streams κ} {id : Nat} {dir : Dir} {point : OpenPoint}
    (hstep : s.pollOpen id dir point = some s') :
    match s.openResult point with
    | some (.ok streamId) => s' = s.completeOpen id dir streamId
    | some (.error _) => s'.opens id = none ∧ s'.claimed = s.claimed
    | none => ∃ f, s'.opens id = some f := by
  unfold pollOpen at hstep
  split at hstep
  · split at hstep <;> rename_i hclosed <;> cases hstep <;> simp only [openResult, hclosed]
    · exact ⟨Function.update_self .., rfl⟩
    · exact ⟨_, Function.update_self ..⟩
  · cases hstep
    exact ⟨_, Function.update_self ..⟩
  · exact (Option.some.inj hstep).symm
  · cases hstep
    exact ⟨Function.update_self .., rfl⟩
  · cases hstep

/-! ## Replies on their way -/

/-- The future that sent the next command is waiting for the reply. -/
def StreamIo.NextAwaited (s : StreamIo κ) : Prop :=
  ∃ cmd queue h f, s.bridge.queue = cmd :: queue ∧ cmd.respond = some (h, f.serial) ∧
    s.futures h = some f ∧ f.point = .reply none

def Streams.NextAwaited (s : Streams κ) : Prop :=
  ∃ cmd queue id f, s.bridge.queue = cmd :: queue ∧ cmd.respond = some id ∧
    s.opens id = some f ∧ f.point = .awaiting none

/-- Some future has this reply and has not looked at it. -/
def StreamIo.Holds (s : StreamIo κ) (r : Reply) : Prop :=
  ∃ h f, s.futures h = some f ∧ f.point = .reply (some r)

def Streams.Holds (s : Streams κ) (r : Reply) : Prop :=
  ∃ id f, s.opens id = some f ∧ f.point = .awaiting (some r)

/-! ## The system -/

/-- The two halves of the model share the engine's connection, the `ConnNotify` and
the running callback; each has its own commands. -/
def Bridge.share (b : Bridge κ ρ) (b' : Bridge κ σ) : Bridge κ ρ :=
  { b with conn := b'.conn, cn := b'.cn, todo := b'.todo }

inductive Lane where
  | io
  | streams
  deriving DecidableEq

/-- Where a `closed()` future stands: at the value of the watch, or waiting for a change. -/
inductive ClosedPoint where
  | begin
  | look
  | changed

structure Operations (κ : Type u) where
  io : StreamIo κ
  streams : Streams κ
  order : List Lane
  callers : Half → Option Caller
  closings : Nat → Option ClosedPoint
  shared : streams.bridge = streams.bridge.share io.bridge

inductive OperationsEvent (κ : Type u) where
  | process
  | bridge (e : BridgeEvent κ)
  | call (h : Half) (c : Call)
  | poll (h : Half)
  | drop (h : Half)
  | streams (e : StreamsEvent κ)
  | closed (id : Nat)
  | pollClosed (id : Nat)
  | dropClosed (id : Nat)

inductive Operation where
  | io (h : Half)
  | accept (id : Nat)
  | openStream (id : Nat)
  | closed (id : Nat)
  | closeReason

namespace Operations

def init (connId : Nat) (conn : κ) (remoteAddr : SocketAddr) (isServer : Bool) : Operations κ where
  io := .init connId conn remoteAddr isServer
  streams := .init conn remoteAddr isServer
  order := []
  callers := fun _ => none
  closings := fun _ => none
  shared := rfl

def closeReason (s : Operations κ) : Option ConnectionError := s.io.bridge.cn.closed

def moveIo (s : Operations κ) (io : StreamIo κ) (streams : Streams κ) : Operations κ :=
  { s with
    io := io
    streams := { streams with bridge := streams.bridge.share io.bridge }
    order := s.order ++
      List.replicate (io.bridge.queue.length - s.io.bridge.queue.length) Lane.io
    shared := rfl }

def moveStreams (s : Operations κ) (streams : Streams κ) : Operations κ :=
  { s with
    io := { s.io with bridge := s.io.bridge.share streams.bridge }
    streams := streams
    order := s.order ++
      List.replicate (streams.bridge.queue.length - s.streams.bridge.queue.length) Lane.streams
    shared := rfl }

def setCaller (s : Operations κ) (h : Half) (caller : Option Caller) : Operations κ :=
  { s with callers := Function.update s.callers h caller }

def setClosing (s : Operations κ) (id : Nat) (point : Option ClosedPoint) : Operations κ :=
  { s with closings := Function.update s.closings id point }

/-- The `read` or `write` of `h` returned `c`; a loop starts the next one at once. -/
def finish (T : Tquic κ) (s : Operations κ) (h : Half) (c : Completion) : Option (Operations κ) :=
  match (s.callers h).bind fun caller => caller.onCompletion c with
  | some (.again caller buf) =>
    (s.io.step T (.call h buf)).map fun io => (s.moveIo io s.streams).setCaller h (some caller)
  | some _ => some (s.setCaller h none)
  | none => none

def step (T : Tquic κ) (s : Operations κ) : OperationsEvent κ → Option (Operations κ)
  | .process =>
    match s.order with
    | [] => none
    | .io :: order =>
      (s.io.step T .process).map fun io => { s with order := order }.moveIo io s.streams
    | .streams :: order =>
      (s.streams.step T .process).map fun streams => { s with order := order }.moveStreams streams
  | .bridge e =>
    match s.io.step T (.bridge e), s.streams.step T (.bridge e) with
    | some io, some streams => some (s.moveIo io streams)
    | _, _ => none
  | .call h c =>
    if c.on h then
      match c.start with
      | some (caller, buf) =>
        (s.io.step T (.call h buf)).map fun io => (s.moveIo io s.streams).setCaller h (some caller)
      | none => some s
    else none
  | .poll h =>
    match s.io.futures h, s.io.step T (.poll h) with
    | some f, some io =>
      match s.io.result h f with
      | some c => (s.moveIo io s.streams).finish T h c
      | none => some (s.moveIo io s.streams)
    | _, _ => none
  | .drop h =>
    (s.io.step T (.drop h)).map fun io => (s.moveIo io s.streams).setCaller h none
  | .streams e =>
    match e with
    | .process | .bridge _ => none
    | e => (s.streams.step T e).map s.moveStreams
  | .closed id =>
    match s.closings id with
    | none => some (s.setClosing id (some .begin))
    | some _ => none
  | .pollClosed id =>
    match s.closings id with
    | some .begin => some (s.setClosing id (some .look))
    | some .look =>
      match s.closeReason with
      | some _ => some (s.setClosing id none)
      | none => some (s.setClosing id (some .changed))
    | some .changed => if s.closeReason.isSome then some (s.setClosing id (some .look)) else none
    | none => none
  | .dropClosed id =>
    match s.closings id with
    | some .begin | some .changed => some (s.setClosing id none)
    | _ => none

/-- The connection loss the operation returns if it is polled now. -/
def reports (s : Operations κ) : Operation → Option ConnectionError
  | .io h =>
    match s.io.futures h, s.callers h with
    | some f, some caller =>
      ((s.io.result h f).bind fun c => caller.onCompletion c).bind Outcome.loss
    | _, _ => none
  | .accept id =>
    match (s.streams.accepts id).bind fun f => s.streams.acceptResult f.point with
    | some (.error error) => some error
    | _ => none
  | .openStream id =>
    match (s.streams.opens id).bind fun f => s.streams.openResult f.point with
    | some (.error error) => some error
    | _ => none
  | .closed id =>
    match s.closings id with
    | some .look => s.closeReason
    | _ => none
  | .closeReason => s.closeReason

/-- `on_conn_closed` is called once, and from then on the engine has no connection. -/
def ClosesOnce (s : Operations κ) : OperationsEvent κ → Prop
  | .bridge (.callback (.onConnClosed _)) => s.closeReason = none
  | .process => s.closeReason.isSome → s.io.bridge.conn = none
  | _ => True

/-- The future that sent the next command is waiting for the reply. -/
def NextAwaited (s : Operations κ) : Prop :=
  match s.order with
  | .io :: _ => s.io.NextAwaited
  | .streams :: _ => s.streams.NextAwaited
  | [] => False

def Holds (s : Operations κ) (r : Reply) : Prop := s.io.Holds r ∨ s.streams.Holds r

/-- Unless the error is `LocallyClosed`, no command that is awaited is processed after
the close, and no future holds a refusal when the close is recorded. -/
def Asked (s : Operations κ) : OperationsEvent κ → Prop
  | .process => ∀ e, s.closeReason = some e → e ≠ .locallyClosed → ¬ s.NextAwaited
  | .bridge .exec => ∀ e todo, s.io.bridge.todo = .sendClosed e :: todo → e ≠ .locallyClosed →
      ∀ r, s.Holds r → r.loss = none
  | _ => True

end Operations

end TokioTquic
