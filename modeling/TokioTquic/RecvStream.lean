import TokioTquic.Process

/-!
# `RecvStream`

`read` is a loop: send `StreamRead`, await the reply, and on an empty reply
without FIN wait until the stream is readable and start over. `onReply` is what
one pass does with the reply; the sequential `read`, `readExact` below and the
interleaved futures use the same `onReply`.
-/

namespace TokioTquic
set_option autoImplicit false

universe u

structure RecvStream where
  connId : Nat
  streamId : Nat
  allDataRead : Bool
  deriving DecidableEq, Repr

namespace RecvStream

/-- The reply of one pass; `none` is a dropped sender. The new contents of the
caller's buffer are returned with it. -/
def onReply (self : RecvStream) (buf : Bytes) :
    Option (Except ReadError (Bytes × Bool)) →
      RecvStream × Bytes × Pass (Except ReadError (Option Nat))
  | none => (self, buf, .ret (.error (.connectionLost .locallyClosed)))
  | some (.error e) => (self, buf, .ret (.error e))
  | some (.ok (data, fin)) =>
    if data.isEmpty && !fin then (self, buf, .wait)
    else
      let n := data.length
      let buf := data ++ buf.drop n
      if fin then
        let self := { self with allDataRead := true }
        (self, buf, .ret (.ok (if n = 0 then none else some n)))
      else (self, buf, .ret (.ok (some n)))

/-- `stop`: the handle afterwards and the command sent, or `Err(ClosedStream)`. -/
def stop (self : RecvStream) (errorCode : VarInt) :
    Except ClosedStream (RecvStream × Nat) :=
  if self.allDataRead then .error .closedStream
  else .ok ({ self with allDataRead := true }, errorCode.intoInner)

/-- What `poll_read` returns; it sends a `StreamRead` whenever it is pending. -/
def pollRead (self : RecvStream) : Poll (Except IoError Unit) :=
  if self.allDataRead then .ready (.ok ()) else .pending

end RecvStream

/-! ## Calls run to completion -/

/-- The sources of a reply to `StreamRead`. -/
inductive ReadAnswer where
  | engine (result : Except TquicError (Bytes × Bool))
  | noConnection
  | bridgeGone

def ReadAnswer.reply (maxLen : Nat) : ReadAnswer → Option (Except ReadError (Bytes × Bool))
  | .engine result => some (readReply maxLen (some result))
  | .noConnection => some (readReply maxLen none)
  | .bridgeGone => none

/-- What the environment contributes to one pass of `read`: the answer to its
request, and the error `wait_readable` ends with if the pass waits. -/
structure ReadPass where
  answer : ReadAnswer
  waitError : Option ReadError := none

/-- A completed call: its result, the handle and the buffer afterwards, the
requests it made (`maxLen` and answer) and the passes left over. -/
structure ReadRun (α : Type u) where
  result : α
  self : RecvStream
  buf : Bytes
  requests : List (Nat × ReadAnswer)
  rest : List ReadPass

namespace RecvStream

/-- The loop of `read`; `none` when the passes given do not complete it. -/
def readLoop (self : RecvStream) (buf : Bytes) :
    List ReadPass → Option (ReadRun (Except ReadError (Option Nat)))
  | [] => none
  | pass :: rest =>
    let request := (buf.length, pass.answer)
    match self.onReply buf (pass.answer.reply buf.length) with
    | (self, buf, .ret result) => some ⟨result, self, buf, [request], rest⟩
    | (self, buf, .wait) =>
      match pass.waitError with
      | some e => some ⟨.error e, self, buf, [request], rest⟩
      | none => (readLoop self buf rest).map fun r => { r with requests := request :: r.requests }

def read (self : RecvStream) (buf : Bytes) (passes : List ReadPass) :
    Option (ReadRun (Except ReadError (Option Nat))) :=
  if self.allDataRead then some ⟨.ok none, self, buf, [], passes⟩
  else self.readLoop buf passes

/-- Every pass of the loop is used up before the call returns. -/
theorem readLoop_rest_lt {self : RecvStream} {buf : Bytes} {passes : List ReadPass}
    {r : ReadRun (Except ReadError (Option Nat))} (h : self.readLoop buf passes = some r) :
    r.rest.length < passes.length := by
  induction passes generalizing self buf r with
  | nil => simp [readLoop] at h
  | cons pass rest ih =>
    unfold readLoop at h
    split at h
    · cases h
      simp
    · split at h
      · cases h
        simp
      · obtain ⟨r', hr', rfl⟩ := Option.map_eq_some_iff.mp h
        have hlt := ih hr'
        simp only [List.length_cons]
        omega

theorem read_rest_lt {self : RecvStream} {buf : Bytes} {passes : List ReadPass}
    {r : ReadRun (Except ReadError (Option Nat))} {n : Nat}
    (h : self.read buf passes = some r) (hn : r.result = .ok (some n)) :
    r.rest.length < passes.length := by
  unfold read at h
  split at h
  · cases h
    simp at hn
  · exact readLoop_rest_lt h

/-- The loop of `read_exact` with the first `offset` bytes of `buf` filled. -/
def readExactLoop (self : RecvStream) (buf : Bytes) (offset : Nat) (passes : List ReadPass) :
    Option (ReadRun (Except ReadExactError Unit)) :=
  if offset < buf.length then
    match _ : self.read (buf.drop offset) passes with
    | none => none
    | some run =>
      match _ : run.result with
      | .ok (some n) =>
        (readExactLoop run.self (buf.take offset ++ run.buf) (offset + n) run.rest).map
          fun r => { r with requests := run.requests ++ r.requests }
      | .ok none =>
        some ⟨.error (.finishedEarly offset), run.self, buf.take offset ++ run.buf,
          run.requests, run.rest⟩
      | .error e =>
        some ⟨.error (.readError e), run.self, buf.take offset ++ run.buf, run.requests, run.rest⟩
  else some ⟨.ok (), self, buf, [], passes⟩
termination_by passes.length
decreasing_by exact read_rest_lt ‹_› ‹_›

def readExact (self : RecvStream) (buf : Bytes) (passes : List ReadPass) :
    Option (ReadRun (Except ReadExactError Unit)) :=
  self.readExactLoop buf 0 passes

end RecvStream

end TokioTquic
