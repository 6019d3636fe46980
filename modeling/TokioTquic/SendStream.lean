import TokioTquic.Process

/-!
# `SendStream`

`write` is a loop: send `StreamWrite`, await the reply, and on `Ok(0)` wait
until the stream is writable and send the same data again.
-/

namespace TokioTquic
set_option autoImplicit false

universe u

structure SendStream where
  connId : Nat
  streamId : Nat
  finished : Bool
  deriving DecidableEq, Repr

/-- The sources of a reply to `StreamWrite`. -/
inductive WriteAnswer where
  | engine (result : Except TquicError Nat)
  | noConnection
  | bridgeGone

def WriteAnswer.reply : WriteAnswer → Option (Except WriteError Nat)
  | .engine result => some (writeReply (some result))
  | .noConnection => some (writeReply none)
  | .bridgeGone => none

def WriteAnswer.accepted : WriteAnswer → Nat
  | .engine (.ok n) => n
  | _ => 0

/-- What the environment contributes to one pass of `write`: the answer to its
request, and the error `wait_writable` ends with if the pass waits. -/
structure WritePass where
  answer : WriteAnswer
  waitError : Option WriteError := none

/-- A completed call: its result, the requests it made (data and answer) and
the passes left over. -/
structure WriteRun (α : Type u) where
  result : Except WriteError α
  requests : List (Bytes × WriteAnswer)
  rest : List WritePass

namespace SendStream

/-- The reply of one pass; `none` is a dropped sender. -/
def onReply : Option (Except WriteError Nat) → Pass (Except WriteError Nat)
  | some (.ok 0) => .wait
  | some (.ok n) => .ret (.ok n)
  | some (.error e) => .ret (.error e)
  | none => .ret (.error (.connectionLost .locallyClosed))

/-- `finish` sends an empty `StreamWrite` with `fin`. -/
def finish (self : SendStream) : Except ClosedStream SendStream :=
  if self.finished then .error .closedStream else .ok { self with finished := true }

/-- `reset`: the handle afterwards and the error code sent. -/
def reset (self : SendStream) (errorCode : VarInt) : Except ClosedStream (SendStream × Nat) :=
  if self.finished then .error .closedStream
  else .ok ({ self with finished := true }, errorCode.intoInner)

/-- `set_priority`: the urgency sent. -/
def setPriority (self : SendStream) (priority : Int) : Except ClosedStream Nat :=
  if self.finished then .error .closedStream else .ok (max 0 (min priority 255)).toNat

/-- What `poll_write` returns; it sends a `StreamWrite` whenever it is pending. -/
def pollWrite (self : SendStream) : Poll (Except IoError Nat) :=
  if self.finished then .ready (.error ⟨.brokenPipe, "stream finished"⟩) else .pending

/-- The loop of `write`; `none` when the passes given do not complete it. -/
def writeLoop (buf : Bytes) : List WritePass → Option (WriteRun Nat)
  | [] => none
  | pass :: rest =>
    let request := (buf, pass.answer)
    match onReply pass.answer.reply with
    | .ret result => some ⟨result, [request], rest⟩
    | .wait =>
      match pass.waitError with
      | some e => some ⟨.error e, [request], rest⟩
      | none => (writeLoop buf rest).map fun r => { r with requests := request :: r.requests }

def write (self : SendStream) (buf : Bytes) (passes : List WritePass) : Option (WriteRun Nat) :=
  if self.finished then some ⟨.error .closedStream, [], passes⟩
  else writeLoop buf passes

theorem writeLoop_rest_lt {buf : Bytes} {passes : List WritePass} {r : WriteRun Nat}
    (h : writeLoop buf passes = some r) : r.rest.length < passes.length := by
  induction passes generalizing r with
  | nil => simp [writeLoop] at h
  | cons pass rest ih =>
    unfold writeLoop at h
    split at h
    · cases h
      simp
    · split at h
      · cases h
        simp
      · obtain ⟨r', hr', rfl⟩ := Option.map_eq_some_iff.mp h
        have hlt := ih hr'
        simp only [List.length_cons]
        omega

theorem write_rest_lt {self : SendStream} {buf : Bytes} {passes : List WritePass}
    {r : WriteRun Nat} {n : Nat} (h : self.write buf passes = some r) (hn : r.result = .ok n) :
    r.rest.length < passes.length := by
  unfold write at h
  split at h
  · cases h
    simp at hn
  · exact writeLoop_rest_lt h

/-- The loop of `write_all` after the first `offset` bytes went out. -/
def writeAllLoop (self : SendStream) (buf : Bytes) (offset : Nat) (passes : List WritePass) :
    Option (WriteRun Unit) :=
  if offset < buf.length then
    match _ : self.write (buf.drop offset) passes with
    | none => none
    | some run =>
      match _ : run.result with
      | .ok n =>
        (writeAllLoop self buf (offset + n) run.rest).map
          fun r => { r with requests := run.requests ++ r.requests }
      | .error e => some ⟨.error e, run.requests, run.rest⟩
  else some ⟨.ok (), [], passes⟩
termination_by passes.length
decreasing_by exact write_rest_lt ‹_› ‹_›

def writeAll (self : SendStream) (buf : Bytes) (passes : List WritePass) :
    Option (WriteRun Unit) :=
  self.writeAllLoop buf 0 passes

end SendStream

end TokioTquic
