import TokioTquic.Operations

/-!
# The life of a stream handle

One `SendStream` or `RecvStream` from its creation to its drop. A `read` or
`write` future borrows the handle, so one of them runs at a time, and every
other operation comes before its first poll or after its end. What the bridge
thread answers is up to the environment.
-/

namespace TokioTquic
open Async
set_option autoImplicit false

variable {β α ω : Type}

/-- Where the future in progress stands: before its first poll, or the next one of its
loop; waiting for the reply to a request; in `wait_readable` or `wait_writable`. -/
inductive LifePoint where
  | begin
  | reply (request : Nat)
  | wait

structure LifeFuture where
  caller : Caller
  buf : Bytes
  point : LifePoint

/-- What happened to a handle. `unread` is an answer to a request nobody waits for. -/
inductive Entry (α : Type) where
  | sent (cmd : ConnCommand Nat)
  | answered (answer : α)
  | unread (answer : α)
  | returned (outcome : Outcome)

/-- What a call returns when it makes no `read` and no `write`. -/
def Call.idle : Call → Option Outcome
  | .readExact [] => some (.readExact (.ok ()))
  | .writeAll [] => some (.writeAll (.ok ()))
  | _ => none

/-- The answer carries the peer's FIN. -/
def ReadAnswer.fin : ReadAnswer → Bool
  | .engine (.ok (_, fin)) => fin
  | _ => false

theorem RecvStream.onReply_fin (self : RecvStream) (buf : Bytes) (a : ReadAnswer) :
    (self.onReply buf (a.reply buf.length)).1 =
        { self with allDataRead := self.allDataRead || a.fin } ∧
      ((self.onReply buf (a.reply buf.length)).2.2 = .wait → a.fin = false) := by
  rcases a with (e | ⟨data, fin⟩) | _ | _
  · cases e <;> simp [ReadAnswer.reply, ReadAnswer.fin, readReply, onReply]
  · cases fin with
    | false =>
      simp only [ReadAnswer.reply, ReadAnswer.fin, readReply, onReply, Bool.not_false,
        Bool.and_true, Bool.or_false]
      split <;> exact ⟨rfl, fun _ => trivial⟩
    | true => simp [ReadAnswer.reply, ReadAnswer.fin, readReply, onReply]
  · simp [ReadAnswer.reply, ReadAnswer.fin, readReply, onReply]
  · simp [ReadAnswer.reply, ReadAnswer.fin, onReply]

theorem Pass.map_wait {α β : Type} {f : α → β} {p : Pass α} (h : p.map f = .wait) : p = .wait := by
  cases p with
  | wait => rfl
  | ret result => cases h

/-- What `read` and `write` have in common: the flag they look at first, what they
return when it is set, and what they do with an answer to their request. -/
class StreamHandle (β : Type) (α : outParam Type) where
  half : β → Half
  ended : β → Bool
  atEnd : Bytes → Completion
  fin : α → Bool
  onAnswer : β → Bytes → α → β × Pass Completion
  onAnswer_half : ∀ self buf a, half (onAnswer self buf a).1 = half self
  onAnswer_ended : ∀ self buf a, ended (onAnswer self buf a).1 = (ended self || fin a)
  onAnswer_wait : ∀ self buf a, (onAnswer self buf a).2 = .wait → fin a = false

instance : StreamHandle SendStream WriteAnswer where
  half self := .send self.streamId
  ended self := self.finished
  atEnd buf := .write (.error .closedStream) buf
  fin _ := false
  onAnswer self buf a := (self, (SendStream.onReply a.reply).map (.write · buf))
  onAnswer_half _ _ _ := rfl
  onAnswer_ended _ _ _ := (Bool.or_false _).symm
  onAnswer_wait _ _ _ _ := rfl

instance : StreamHandle RecvStream ReadAnswer where
  half self := .recv self.streamId
  ended self := self.allDataRead
  atEnd buf := .read (.ok none) buf
  fin := ReadAnswer.fin
  onAnswer self buf a :=
    let (self, buf, pass) := self.onReply buf (a.reply buf.length)
    (self, pass.map (.read · buf))
  onAnswer_half self buf a := by
    simp only [(self.onReply_fin buf a).1]
  onAnswer_ended self buf a := by
    simp only [(self.onReply_fin buf a).1]
  onAnswer_wait self buf a h := (self.onReply_fin buf a).2 (Pass.map_wait h)

/-- `next` is the number of the next command, `history` what happened so far. -/
structure StreamLife (β α : Type) where
  self : β
  future : Option LifeFuture
  next : Nat
  dropped : Bool
  history : List (Entry α)

/-- `ω` are the operations of the handle besides the polls of its futures. -/
inductive LifeEvent (ω α : Type) where
  | use (op : ω)
  | poll
  | answer (a : α)
  | waited (error : Option ConnectionError)
  | cancel
  | unread (a : α)

namespace StreamLife
open StreamHandle

def init (self : β) : StreamLife β α where
  self := self
  future := none
  next := 0
  dropped := false
  history := []

def log (s : StreamLife β α) (e : Entry α) : StreamLife β α :=
  { s with history := s.history ++ [e] }

def send (s : StreamLife β α) (cmd : ConnCommand Nat) : StreamLife β α :=
  { s.log (.sent cmd) with next := s.next + 1 }

def goto (s : StreamLife β α) (future : Option LifeFuture) : StreamLife β α :=
  { s with future := future }

def become (s : StreamLife β α) (self : β) : StreamLife β α := { s with self := self }

variable [StreamHandle β α]

def request (s : StreamLife β α) (f : LifeFuture) : StreamLife β α :=
  (s.send ((half s.self).request f.buf s.next)).goto (some { f with point := .reply s.next })

/-- The `read` or `write` of `f` returned to its caller. -/
def complete (s : StreamLife β α) (f : LifeFuture) (c : Completion) : Option (StreamLife β α) :=
  match f.caller.onCompletion c with
  | some (.again caller buf) => some (s.goto (some ⟨caller, buf, .begin⟩))
  | some o => some ((s.goto none).log (.returned o))
  | none => none

def call (s : StreamLife β α) (c : Call) : Option (StreamLife β α) :=
  if c.on (half s.self) then
    match c.start with
    | some (caller, buf) => some (s.goto (some ⟨caller, buf, .begin⟩))
    | none => c.idle.map fun o => s.log (.returned o)
  else none

def answer (s : StreamLife β α) (f : LifeFuture) (a : α) : Option (StreamLife β α) :=
  match onAnswer s.self f.buf a with
  | (self, .wait) =>
    some (((s.log (.answered a)).become self).goto (some { f with point := .wait }))
  | (self, .ret c) => ((s.log (.answered a)).become self).complete f c

def step (use : StreamLife β α → ω → Option (StreamLife β α)) (s : StreamLife β α) :
    LifeEvent ω α → Option (StreamLife β α)
  | .use op => if s.future.isNone && !s.dropped then use s op else none
  | .poll =>
    match s.future with
    | some ⟨caller, buf, .begin⟩ =>
      if ended s.self then s.complete ⟨caller, buf, .begin⟩ (atEnd β buf)
      else some (s.request ⟨caller, buf, .begin⟩)
    | _ => none
  | .answer a =>
    match s.future with
    | some ⟨caller, buf, .reply n⟩ => s.answer ⟨caller, buf, .reply n⟩ a
    | _ => none
  | .waited error =>
    match s.future with
    | some ⟨caller, buf, .wait⟩ =>
      match error with
      | some e => s.complete ⟨caller, buf, .wait⟩ ((half s.self).connectionLost buf e)
      | none => some (s.request ⟨caller, buf, .wait⟩)
    | _ => none
  | .cancel =>
    match s.future with
    | some _ => some (s.goto none)
    | none => none
  | .unread a => some (s.log (.unread a))

/-! ### What a step adds to the history -/

/-- The loop goes on after `c`, or its call returns. -/
def Reported (c : Completion) (l : List (Entry α)) : Prop :=
  l = [] ∨ ∃ (caller : Caller) (o : Outcome), caller.onCompletion c = some o ∧ l = [.returned o]

inductive Adds (s : StreamLife β α) : LifeEvent ω α → List (Entry α) → Prop where
  | nothing (e : LifeEvent ω α) : Adds s e []
  | sent (e : LifeEvent ω α) (cmd : ConnCommand Nat) : Adds s e [.sent cmd]
  | idle (op : ω) {c : Call} {o : Outcome} : c.idle = some o → Adds s (.use op) [.returned o]
  | atEnd {buf : Bytes} {l : List (Entry α)} :
      ended s.self = true → Reported (atEnd β buf) l → Adds s .poll l
  | lost {h : Half} {buf : Bytes} {error : ConnectionError} {l : List (Entry α)} :
      Reported (h.connectionLost buf error) l → Adds s (.waited (some error)) l
  | waits (a : α) : Adds s (.answer a) [.answered a]
  | returns {buf : Bytes} {a : α} {c : Completion} {l : List (Entry α)} :
      (onAnswer s.self buf a).2 = .ret c → Reported c l → Adds s (.answer a) (.answered a :: l)
  | unread (a : α) : Adds s (.unread a) [.unread a]

omit [StreamHandle β α] in
theorem complete_history {s t : StreamLife β α} {f : LifeFuture} {c : Completion}
    (h : s.complete f c = some t) : ∃ l, t.history = s.history ++ l ∧ Reported c l := by
  unfold complete at h
  split at h <;> cases h
  · exact ⟨[], (List.append_nil _).symm, Or.inl rfl⟩
  · exact ⟨_, rfl, Or.inr ⟨_, _, ‹_›, rfl⟩⟩

theorem call_history {s t : StreamLife β α} {c : Call} (h : s.call c = some t) (op : ω) :
    ∃ l, t.history = s.history ++ l ∧ Adds s (.use op) l := by
  unfold call at h
  split at h
  · split at h
    · cases h
      exact ⟨[], (List.append_nil _).symm, .nothing _⟩
    · obtain ⟨o, ho, rfl⟩ := Option.map_eq_some_iff.mp h
      exact ⟨_, rfl, .idle op ho⟩
  · cases h

theorem step_history {use : StreamLife β α → ω → Option (StreamLife β α)} {s t : StreamLife β α}
    {e : LifeEvent ω α}
    (huse : ∀ op, use s op = some t → ∃ l, t.history = s.history ++ l ∧ Adds s (.use op) l)
    (hstep : step use s e = some t) : ∃ l, t.history = s.history ++ l ∧ Adds s e l := by
  cases e with
  | use op =>
    simp only [step] at hstep
    split at hstep
    · exact huse op hstep
    · cases hstep
  | poll =>
    simp only [step] at hstep
    split at hstep
    · split at hstep
      · obtain ⟨l, hl, hreported⟩ := complete_history hstep
        exact ⟨l, hl, .atEnd ‹_› hreported⟩
      · cases hstep
        exact ⟨_, rfl, .sent _ _⟩
    · cases hstep
  | answer a =>
    simp only [step] at hstep
    split at hstep
    · unfold answer at hstep
      split at hstep
      · cases hstep
        exact ⟨_, rfl, .waits a⟩
      · rename_i heq
        obtain ⟨l, hl, hreported⟩ := complete_history hstep
        refine ⟨.answered a :: l, ?_, .returns (congrArg Prod.snd heq) hreported⟩
        rw [hl]
        exact List.append_assoc _ [_] l
    · cases hstep
  | waited error =>
    simp only [step] at hstep
    split at hstep
    · cases error with
      | some e =>
        obtain ⟨l, hl, hreported⟩ := complete_history hstep
        exact ⟨l, hl, .lost hreported⟩
      | none =>
        cases hstep
        exact ⟨_, rfl, .sent _ _⟩
    · cases hstep
  | cancel =>
    simp only [step] at hstep
    split at hstep <;> cases hstep
    exact ⟨[], (List.append_nil _).symm, .nothing _⟩
  | unread a =>
    cases hstep
    exact ⟨_, rfl, .unread a⟩

end StreamLife

/-! ## `SendStream` -/

abbrev SendLife := StreamLife SendStream WriteAnswer

inductive SendOp where
  | call (c : Call)
  | finish
  | reset (errorCode : VarInt)
  | setPriority (priority : Int)
  | pollWrite (buf : Bytes)
  | pollShutdown
  | drop

namespace SendLife

/-- `finish`, also from `poll_shutdown` and `drop`. -/
def finish (s : SendLife) : SendLife :=
  match s.self.finish with
  | .error _ => s
  | .ok self => (s.send (.streamWrite s.self.streamId [] true s.next)).become self

def use (s : SendLife) : SendOp → Option SendLife
  | .call c => s.call c
  | .finish | .pollShutdown => some (finish s)
  | .reset errorCode =>
    match s.self.reset errorCode with
    | .error _ => some s
    | .ok (self, code) =>
      some ((s.send (.streamShutdownWrite s.self.streamId code)).become self)
  | .setPriority priority =>
    match s.self.setPriority priority with
    | .error _ => some s
    | .ok urgency => some (s.send (.streamSetPriority s.self.streamId urgency))
  | .pollWrite buf =>
    match s.self.pollWrite with
    | .ready _ => some s
    | .pending => some (s.send (.streamWrite s.self.streamId buf false s.next))
  | .drop => some { finish s with dropped := true }

def step : SendLife → LifeEvent SendOp WriteAnswer → Option SendLife := StreamLife.step use

theorem finish_history (s : SendLife) :
    ∃ l, (finish s).history = s.history ++ l ∧ (l = [] ∨ ∃ cmd, l = [.sent cmd]) := by
  unfold finish
  split
  · exact ⟨[], (List.append_nil _).symm, Or.inl rfl⟩
  · exact ⟨_, rfl, Or.inr ⟨_, rfl⟩⟩

theorem use_history {s t : SendLife} (op : SendOp) (h : use s op = some t) :
    ∃ l, t.history = s.history ++ l ∧ s.Adds (.use op) l := by
  have hfinish : ∃ l, (finish s).history = s.history ++ l ∧ s.Adds (.use op) l := by
    obtain ⟨l, hl, rfl | ⟨cmd, rfl⟩⟩ := finish_history s
    · exact ⟨[], hl, .nothing _⟩
    · exact ⟨_, hl, .sent _ cmd⟩
  cases op with
  | call c => exact StreamLife.call_history h _
  | finish | pollShutdown | drop =>
    cases h
    exact hfinish
  | reset _ | setPriority _ | pollWrite _ =>
    simp only [use] at h
    split at h <;> cases h
    · exact ⟨[], (List.append_nil _).symm, .nothing _⟩
    · exact ⟨_, rfl, .sent _ _⟩

end SendLife

/-! ## `RecvStream` -/

abbrev RecvLife := StreamLife RecvStream ReadAnswer

inductive RecvOp where
  | call (c : Call)
  | stop (errorCode : VarInt)
  | pollRead (maxLen : Nat)
  | drop

namespace RecvLife

/-- `stop`, also from `drop`. -/
def stop (s : RecvLife) (errorCode : VarInt) : RecvLife :=
  match s.self.stop errorCode with
  | .error _ => s
  | .ok (self, code) => (s.send (.streamShutdownRead s.self.streamId code)).become self

def use (s : RecvLife) : RecvOp → Option RecvLife
  | .call c => s.call c
  | .stop errorCode => some (stop s errorCode)
  | .pollRead maxLen =>
    match s.self.pollRead with
    | .ready _ => some s
    | .pending => some (s.send (.streamRead s.self.streamId maxLen s.next))
  | .drop => some { stop s (.fromU32 0) with dropped := true }

def step : RecvLife → LifeEvent RecvOp ReadAnswer → Option RecvLife := StreamLife.step use

theorem stop_history (s : RecvLife) (errorCode : VarInt) :
    ∃ l, (stop s errorCode).history = s.history ++ l ∧ (l = [] ∨ ∃ cmd, l = [.sent cmd]) := by
  unfold stop
  split
  · exact ⟨[], (List.append_nil _).symm, Or.inl rfl⟩
  · exact ⟨_, rfl, Or.inr ⟨_, rfl⟩⟩

theorem use_history {s t : RecvLife} (op : RecvOp) (h : use s op = some t) :
    ∃ l, t.history = s.history ++ l ∧ s.Adds (.use op) l := by
  have hstop : ∀ errorCode,
      ∃ l, (stop s errorCode).history = s.history ++ l ∧ s.Adds (.use op) l := by
    intro errorCode
    obtain ⟨l, hl, rfl | ⟨cmd, rfl⟩⟩ := stop_history s errorCode
    · exact ⟨[], hl, .nothing _⟩
    · exact ⟨_, hl, .sent _ cmd⟩
  cases op with
  | call c => exact StreamLife.call_history h _
  | stop | drop =>
    cases h
    exact hstop _
  | pollRead maxLen =>
    simp only [use] at h
    split at h <;> cases h
    · exact ⟨[], (List.append_nil _).symm, .nothing _⟩
    · exact ⟨_, rfl, .sent _ _⟩

end RecvLife

end TokioTquic
