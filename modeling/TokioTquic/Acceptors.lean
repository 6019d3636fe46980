import TokioTquic.Async.Transition
import TokioTquic.HandleOps

/-!
# `Endpoint::accept`

Any number of `Accept` futures on clones of one endpoint, polled by any tasks and
dropped between polls, next to the bridge thread. The receiver of the incoming
connections is behind a lock that `poll` only tries, and the channel keeps the
waker of the last task that found it empty.
-/

namespace TokioTquic
open Async
set_option autoImplicit false

/-- Where an `Accept` future stands: before its first poll, at a step of a poll, or
between two polls. -/
inductive AcceptorPoint where
  | unpolled
  | load
  | tryLock
  | recv
  | pending
  deriving DecidableEq

/-- `task` polled the future last, and `woken` says that it has been woken since. -/
structure Acceptor where
  task : Nat
  woken : Bool
  point : AcceptorPoint
  deriving DecidableEq

/-- `rxLock` is the future whose poll holds `incoming_rx`, `rxWaker` the task whose
waker the channel has. -/
structure Acceptors where
  thread : BridgeThread
  nextConn : Nat
  rxLock : Option Nat
  rxWaker : Option Nat
  futures : Nat → Option Acceptor

inductive AcceptorsEvent where
  | created (index : Nat) (activePath : Option SocketAddr) (isServer : Bool)
  | callback (index : Nat) (cb : Callback)
  | closeEndpoint
  | exec
  | accept (id : Nat)
  | poll (id task : Nat)
  | advance (id : Nat)
  | drop (id : Nat)

namespace Acceptors

def init : Acceptors := ⟨.new, 0, none, none, fun _ => none⟩

def setFuture (s : Acceptors) (id : Nat) (f : Option Acceptor) : Acceptors :=
  { s with futures := Function.update s.futures id f }

/-- Wake a task, and with it the futures it holds. -/
def wake (s : Acceptors) (task : Nat) : Acceptors :=
  { s with futures := fun id =>
      (s.futures id).map fun f => if f.task = task then { f with woken := true } else f }

def wakeReceiver (s : Acceptors) : Acceptors :=
  match s.rxWaker with
  | some task => { s.wake task with rxWaker := none }
  | none => s

def advance (s : Acceptors) (id : Nat) (f : Acceptor) : Option Acceptors :=
  match f.point with
  | .load =>
    if s.thread.handle.endpointClosed then some (s.setFuture id none)
    else some (s.setFuture id (some { f with point := .tryLock }))
  | .tryLock =>
    match s.rxLock with
    | none => some ({ s with rxLock := some id }.setFuture id (some { f with point := .recv }))
    | some _ => some ((s.setFuture id (some { f with point := .pending })).wake f.task)
  | .recv =>
    match s.thread.handle.incoming with
    | [] => some ({ s with rxLock := none, rxWaker := some f.task }.setFuture id
        (some { f with point := .pending }))
    | _ :: incoming =>
      some ({ s with
        rxLock := none
        thread := { s.thread with handle := { s.thread.handle with incoming := incoming } }
        }.setFuture id none)
  | .unpolled | .pending => none

def step (endpointIsServer : Bool) (s : Acceptors) : AcceptorsEvent → Option Acceptors
  | .created index activePath isServer =>
    (s.thread.step endpointIsServer (.created s.nextConn (some index) activePath isServer)).map
      fun thread => { s with thread := thread, nextConn := s.nextConn + 1 }
  | .callback index cb =>
    (s.thread.step endpointIsServer (.callback (some index) cb)).map
      fun thread => { s with thread := thread }
  | .closeEndpoint =>
    (s.thread.step endpointIsServer .closeEndpoint).map fun thread => { s with thread := thread }
  | .exec =>
    (s.thread.step endpointIsServer .exec).map fun thread =>
      match s.thread.todo with
      | .sendIncoming _ _ :: _ => { s with thread := thread }.wakeReceiver
      | _ => { s with thread := thread }
  | .accept id =>
    match s.futures id with
    | none => some (s.setFuture id (some ⟨0, false, .unpolled⟩))
    | some _ => none
  | .poll id task =>
    match s.futures id with
    | some ⟨_, _, .unpolled⟩ | some ⟨_, _, .pending⟩ =>
      some (s.setFuture id (some ⟨task, false, .load⟩))
    | _ => none
  | .advance id =>
    match s.futures id with
    | some f => s.advance id f
    | none => none
  | .drop id =>
    match s.futures id with
    | some ⟨_, _, .unpolled⟩ | some ⟨_, _, .pending⟩ => some (s.setFuture id none)
    | _ => none

/-! ## What an event does -/

/-- A pending future whose task has no wake outstanding. -/
def Asleep (s : Acceptors) (task : Nat) : Prop :=
  ∃ id, s.futures id = some ⟨task, false, .pending⟩

@[simp] theorem wake_thread (s : Acceptors) (task : Nat) : (s.wake task).thread = s.thread := rfl

@[simp] theorem wake_rxWaker (s : Acceptors) (task : Nat) : (s.wake task).rxWaker = s.rxWaker := rfl

@[simp] theorem setFuture_thread (s : Acceptors) (id : Nat) (f : Option Acceptor) :
    (s.setFuture id f).thread = s.thread := rfl

@[simp] theorem setFuture_rxWaker (s : Acceptors) (id : Nat) (f : Option Acceptor) :
    (s.setFuture id f).rxWaker = s.rxWaker := rfl

theorem asleep_wake {s : Acceptors} {task task' : Nat} (h : (s.wake task).Asleep task') :
    task' ≠ task ∧ s.Asleep task' := by
  obtain ⟨id, hid⟩ := h
  obtain ⟨f, hf, hwoken⟩ := Option.map_eq_some_iff.mp hid
  split at hwoken
  · rename_i htask
    simp only [Acceptor.mk.injEq, Bool.true_eq_false, false_and, and_false] at hwoken
  · rename_i htask
    subst hwoken
    exact ⟨htask, id, hf⟩

theorem asleep_setFuture {s : Acceptors} {id task : Nat} {f : Option Acceptor}
    (hf : f ≠ some ⟨task, false, .pending⟩) (h : (s.setFuture id f).Asleep task) :
    s.Asleep task := by
  obtain ⟨id', hid'⟩ := h
  by_cases hid : id' = id
  · subst hid
    exact absurd (by simpa [setFuture] using hid') hf
  · exact ⟨id', by simpa [setFuture, hid] using hid'⟩

/-- What an event does to the closed flag, the queue, the waker and the sleepers. -/
inductive Moved (s : Acceptors) (e : AcceptorsEvent) (s' : Acceptors) : Prop where
  /-- Nothing of this kind, but for futures that stop sleeping and messages taken. -/
  | quiet :
      s'.thread.handle.endpointClosed = s.thread.handle.endpointClosed →
      (s.thread.handle.incoming = [] → s'.thread.handle.incoming = []) →
      s'.rxWaker = s.rxWaker → (∀ task, s'.Asleep task → s.Asleep task) → Moved s e s'
  | pushed :
      s'.thread.handle.endpointClosed = s.thread.handle.endpointClosed →
      s'.rxWaker = none →
      (∀ task, s'.Asleep task → s.Asleep task ∧ s.rxWaker ≠ some task) → Moved s e s'
  | registered {id task : Nat} {woken : Bool} :
      e = .advance id → s.futures id = some ⟨task, woken, .recv⟩ →
      s.thread.handle.incoming = [] → s'.thread.handle.incoming = [] →
      s'.thread.handle.endpointClosed = s.thread.handle.endpointClosed →
      s'.rxWaker = some task →
      (∀ task', s'.Asleep task' → s.Asleep task' ∨ (task' = task ∧ woken = false)) → Moved s e s'
  | closed {todo : List HandleOp} :
      e = .exec → s.thread.todo = .storeClosed :: todo →
      s'.thread.handle.incoming = s.thread.handle.incoming →
      s'.rxWaker = s.rxWaker → (∀ task, s'.Asleep task ↔ s.Asleep task) → Moved s e s'

theorem moved_start {s : Acceptors} {endpointIsServer : Bool} {e : ThreadEvent}
    {thread : BridgeThread} (he : e ≠ .exec)
    (hstep : s.thread.step endpointIsServer e = some thread) {nextConn : Nat}
    {event : AcceptorsEvent} : Moved s event { s with thread := thread, nextConn := nextConn } := by
  obtain ⟨ops, _, _, rfl⟩ := BridgeThread.step_start he hstep
  exact .quiet rfl (fun h => h) rfl (fun _ h => h)

theorem moved_exec {s s' : Acceptors} {endpointIsServer : Bool}
    (hstep : s.step endpointIsServer .exec = some s') : Moved s .exec s' := by
  obtain ⟨thread, hthread, rfl⟩ := Option.map_eq_some_iff.mp hstep
  obtain ⟨op, todo, htodo, rfl⟩ := BridgeThread.step_exec hthread
  rw [htodo]
  cases op with
  | sendIncoming uid data =>
    simp only [wakeReceiver]
    split
    · rename_i task hwaker
      refine .pushed rfl rfl fun task' h => ?_
      obtain ⟨hne, hasleep⟩ := asleep_wake h
      refine ⟨hasleep, fun heq => hne ?_⟩
      exact Option.some.inj (heq.symm.trans hwaker)
    · rename_i hnone
      exact .pushed rfl hnone fun task' h =>
        ⟨h, fun heq => Option.some_ne_none _ (heq.symm.trans hnone)⟩
  | storeClosed => exact .closed rfl htodo rfl rfl fun _ => Iff.rfl
  | _ => exact .quiet rfl (fun h => h) rfl (fun _ h => h)

theorem moved_advance {s s' : Acceptors} {id : Nat} {f : Acceptor} (hf : s.futures id = some f)
    (hstep : s.advance id f = some s') : Moved s (.advance id) s' := by
  rcases f with ⟨task, woken, point⟩
  have hquiet : ∀ (t : Acceptors) (g : Option Acceptor),
      (∀ task', g ≠ some ⟨task', false, .pending⟩) → t.futures = s.futures →
      t.thread.handle.endpointClosed = s.thread.handle.endpointClosed →
      (s.thread.handle.incoming = [] → t.thread.handle.incoming = []) → t.rxWaker = s.rxWaker →
      Moved s (.advance id) (t.setFuture id g) := by
    intro t g hg hfutures hclosed hincoming hwaker
    refine .quiet hclosed hincoming hwaker fun task' h => ?_
    obtain ⟨id', hid'⟩ := asleep_setFuture (hg task') h
    exact ⟨id', hfutures ▸ hid'⟩
  cases point with
  | load =>
    simp only [advance] at hstep
    split at hstep
    · cases hstep
      exact hquiet s none (by simp) rfl rfl (fun h => h) rfl
    · cases hstep
      exact hquiet s _ (by simp) rfl rfl (fun h => h) rfl
  | tryLock =>
    simp only [advance] at hstep
    split at hstep
    · cases hstep
      exact hquiet { s with rxLock := some id } _ (by simp) rfl rfl (fun h => h) rfl
    · cases hstep
      refine .quiet rfl (fun h => h) rfl fun task' h => ?_
      obtain ⟨hne, hasleep⟩ := asleep_wake h
      exact asleep_setFuture (by simp [Ne.symm hne]) hasleep
  | recv =>
    simp only [advance] at hstep
    split at hstep
    · rename_i hempty
      cases hstep
      refine .registered rfl hf hempty hempty rfl rfl fun task' h => ?_
      by_cases hself : task' = task ∧ woken = false
      · exact Or.inr hself
      · have hother : some (Acceptor.mk task woken .pending) ≠ some ⟨task', false, .pending⟩ := by
          simpa [eq_comm] using hself
        exact Or.inl (asleep_setFuture hother h)
    · rename_i hqueue
      cases hstep
      exact hquiet { s with rxLock := none, thread := _ } none (by simp) rfl rfl
        (fun h => by simp [hqueue] at h) rfl
  | unpolled => simp [advance] at hstep
  | pending => simp [advance] at hstep

theorem step_cases {s s' : Acceptors} {endpointIsServer : Bool} {e : AcceptorsEvent}
    (hstep : s.step endpointIsServer e = some s') : Moved s e s' := by
  have hquiet : ∀ id f, (∀ task, f ≠ some ⟨task, false, .pending⟩) →
      Moved s e (s.setFuture id f) :=
    fun id f hf => .quiet rfl (fun h => h) rfl fun task h => asleep_setFuture (hf task) h
  cases e with
  | created index activePath isServer =>
    obtain ⟨thread, hthread, rfl⟩ := Option.map_eq_some_iff.mp hstep
    exact moved_start (by simp) hthread
  | callback index cb =>
    obtain ⟨thread, hthread, rfl⟩ := Option.map_eq_some_iff.mp hstep
    exact moved_start (by simp) hthread
  | closeEndpoint =>
    obtain ⟨thread, hthread, rfl⟩ := Option.map_eq_some_iff.mp hstep
    exact moved_start (by simp) hthread
  | exec => exact moved_exec hstep
  | accept id =>
    simp only [step] at hstep
    split at hstep
    · cases hstep
      exact hquiet id _ (by simp)
    · simp at hstep
  | poll id task =>
    simp only [step] at hstep
    split at hstep
    · cases hstep
      exact hquiet id _ (by simp)
    · cases hstep
      exact hquiet id _ (by simp)
    · simp at hstep
  | advance id =>
    simp only [step] at hstep
    split at hstep
    · rename_i hf
      exact moved_advance hf hstep
    · simp at hstep
  | drop id =>
    simp only [step] at hstep
    split at hstep
    · cases hstep
      exact hquiet id _ (by simp)
    · cases hstep
      exact hquiet id _ (by simp)
    · simp at hstep

end Acceptors

end TokioTquic
