import TokioTquic.Acceptors

/-!
# Wakes of `Endpoint::accept`

A pending `Accept` future sleeps until its task is woken. A push wakes the one
task the channel knows, and storing `endpoint_closed` wakes nobody.
-/

namespace TokioTquic
open Async
set_option autoImplicit false

namespace Acceptors

/-! ## Incoming connections -/

/-- When some future is pending and no task of a pending future has a wake
outstanding, the queue is empty. -/
def Attended (s : Acceptors) : Prop :=
  (∃ id f, s.futures id = some f ∧ f.point = .pending) →
    (∀ id f, s.futures id = some f → f.point = .pending → f.woken = false) →
    s.thread.handle.incoming = []

/-- A poll that finds the queue empty does not replace the waker of another task
that sleeps with a pending future. -/
def KeepsWaker (s : Acceptors) : AcceptorsEvent → Prop
  | .advance id => ∀ f, s.futures id = some f → f.point = .recv →
      s.thread.handle.incoming = [] →
      ∀ task, s.rxWaker = some task → task ≠ f.task → ¬ s.Asleep task
  | _ => True

/-- Who sleeps is registered, and a waker is registered with an empty queue. -/
structure Registered (s : Acceptors) : Prop where
  asleep : ∀ task, s.Asleep task → s.rxWaker = some task
  empty : s.rxWaker.isSome → s.thread.handle.incoming = []

theorem registered_step {s s' : Acceptors} {endpointIsServer : Bool} {e : AcceptorsEvent}
    (hs : s.Registered) (hguard : s.KeepsWaker e) (hstep : s.step endpointIsServer e = some s') :
    s'.Registered := by
  cases step_cases hstep with
  | quiet hclosed hincoming hwaker hasleep =>
    constructor
    · intro task h
      rw [hwaker]
      exact hs.asleep task (hasleep task h)
    · intro h
      rw [hwaker] at h
      exact hincoming (hs.empty h)
  | pushed hclosed hwaker hasleep =>
    constructor
    · intro task h
      obtain ⟨hslept, hother⟩ := hasleep task h
      exact absurd (hs.asleep task hslept) hother
    · simp [hwaker]
  | @registered id task woken he hf hempty hempty' hclosed hwaker hasleep =>
    subst he
    refine ⟨fun task' h => ?_, fun _ => hempty'⟩
    rw [hwaker]
    rcases hasleep task' h with hslept | ⟨rfl, _⟩
    · by_contra hne
      have hother : task' ≠ task := fun heq => hne (by rw [heq])
      exact hguard _ hf rfl hempty task' (hs.asleep task' hslept) hother hslept
    · rfl
  | closed he htodo hincoming hwaker hasleep =>
    constructor
    · intro task h
      rw [hwaker]
      exact hs.asleep task ((hasleep task).mp h)
    · intro h
      rw [hwaker] at h
      rw [hincoming]
      exact hs.empty h

/-- While no poll replaces the waker of a sleeping acceptor's task, an incoming
connection never waits for acceptors that all sleep. -/
theorem accept_attended (endpointIsServer : Bool) (s : Acceptors)
    (hs : Reach (step endpointIsServer) KeepsWaker init s) : s.Attended := by
  have hregistered : s.Registered :=
    hs.invariant (fun _ _ _ hI hg hstep => registered_step hI hg hstep)
      ⟨fun task ⟨id, hid⟩ => by simp [init] at hid, fun h => by simp [init] at h⟩
  rintro ⟨id, ⟨task, woken, point⟩, hf, rfl⟩ hwoken
  obtain rfl : woken = false := hwoken id _ hf rfl
  apply hregistered.empty
  simp [hregistered.asleep task ⟨id, hf⟩]

/-- The first acceptor sleeps and is dropped; the second waits in its place, and a connection
wakes it. -/
def acceptorsTurns : List AcceptorsEvent :=
  [.accept 0, .poll 0 0, .advance 0, .advance 0, .advance 0, .drop 0,
    .accept 1, .poll 1 1, .advance 1, .advance 1, .advance 1,
    .created 0 none true, .exec, .exec, .exec]

theorem accept_attended_turns :
    ∃ s, run (step true) init acceptorsTurns = some s ∧ s.futures 1 = some ⟨1, true, .pending⟩ ∧
      s.thread.handle.incoming = [(0, ⟨0, .unspecified⟩)] ∧ s.Attended := by
  obtain ⟨s, hrun, hf, hqueue, hkeeps⟩ : ∃ s, run (step true) init acceptorsTurns = some s ∧
      s.futures 1 = some ⟨1, true, .pending⟩ ∧
      s.thread.handle.incoming = [(0, ⟨0, .unspecified⟩)] ∧
      Along (step true) KeepsWaker init acceptorsTurns := by
    refine ⟨_, rfl, rfl, rfl, trivial, trivial, ?_, ?_, ?_, trivial, trivial, trivial, ?_, ?_, ?_,
      trivial, trivial, trivial, trivial, trivial⟩
    · intro f hf hp
      cases hf
      cases hp
    · intro f hf hp
      cases hf
      cases hp
    · rintro f hf hp - task hwaker
      cases hwaker
    · intro f hf hp
      cases hf
      cases hp
    · intro f hf hp
      cases hf
      cases hp
    · -- the waker of the first acceptor is replaced, but its future is gone
      rintro f hf hp - task hwaker - ⟨id, hid⟩
      cases hwaker
      match id with
      | 0 => cases hid
      | 1 => cases hid
      | _ + 2 => cases hid
  exact ⟨s, hrun, hf, hqueue, accept_attended true s (reach_of_along hrun hkeeps)⟩

/-- Two acceptors sleep, two connections arrive, and the acceptor that was woken
takes the first one. -/
def twoAcceptorsRun : List AcceptorsEvent :=
  [.accept 0, .poll 0 0, .advance 0, .advance 0, .advance 0,
    .accept 1, .poll 1 1, .advance 1, .advance 1, .advance 1,
    .created 0 none true, .exec, .exec, .exec, .created 1 none true, .exec, .exec, .exec,
    .poll 1 1, .advance 1, .advance 1, .advance 1]

theorem accept_unattended : ¬ ∀ s, Reach (step true) Any init s → s.Attended := by
  intro hall
  obtain ⟨s, hrun, hf, hother, hqueue⟩ :
      ∃ s, run (step true) init twoAcceptorsRun = some s ∧
        s.futures 0 = some ⟨0, false, .pending⟩ ∧ (∀ id, id ≠ 0 → s.futures id = none) ∧
        s.thread.handle.incoming = [(1, ⟨1, .unspecified⟩)] := by
    refine ⟨_, rfl, rfl, fun id hid => ?_, rfl⟩
    match id, hid with
    | 0, hid => exact absurd rfl hid
    | 1, _ => rfl
    | _ + 2, _ => rfl
  have hempty := hall s (reach_any_of_run hrun) ⟨0, _, hf, rfl⟩ fun id f hid _ => by
    by_cases hzero : id = 0
    · subst hzero
      rw [hf] at hid
      cases hid
      rfl
    · simp [hother id hzero] at hid
  simp [hqueue] at hempty

/-! ## Closing the endpoint -/

def Released (s : Acceptors) : Prop :=
  s.thread.handle.endpointClosed = true → ∀ task, ¬ s.Asleep task

/-- Nobody sleeps when `endpoint_closed` is stored, and no poll that passed the check
before the store finds the queue empty after it, unless it was woken meanwhile. -/
def AllAwake (s : Acceptors) : AcceptorsEvent → Prop
  | .exec => (∃ todo, s.thread.todo = .storeClosed :: todo) → ∀ task, ¬ s.Asleep task
  | .advance id => s.thread.handle.endpointClosed = true → ∀ f, s.futures id = some f →
      f.point = .recv → s.thread.handle.incoming = [] → f.woken = true
  | _ => True

theorem released_step {s s' : Acceptors} {endpointIsServer : Bool} {e : AcceptorsEvent}
    (hs : s.Released) (hguard : s.AllAwake e) (hstep : s.step endpointIsServer e = some s') :
    s'.Released := by
  intro hclosed' task h
  cases step_cases hstep with
  | quiet hclosed hincoming hwaker hasleep =>
    rw [hclosed] at hclosed'
    exact hs hclosed' task (hasleep task h)
  | pushed hclosed hwaker hasleep =>
    rw [hclosed] at hclosed'
    exact hs hclosed' task (hasleep task h).1
  | registered he hf hempty hempty' hclosed hwaker hasleep =>
    subst he
    rw [hclosed] at hclosed'
    rcases hasleep task h with hslept | ⟨_, hwoken⟩
    · exact hs hclosed' task hslept
    · have hawake := hguard hclosed' _ hf rfl hempty
      simp [hwoken] at hawake
  | closed he htodo hincoming hwaker hasleep =>
    subst he
    exact hguard ⟨_, htodo⟩ task ((hasleep task).mp h)

theorem not_released {s s' : Acceptors} {endpointIsServer : Bool} {e : AcceptorsEvent}
    (hguard : ¬ s.AllAwake e) (hstep : s.step endpointIsServer e = some s') : ¬ s'.Released := by
  cases e with
  | exec =>
    simp only [AllAwake, Classical.not_imp, not_forall, not_not] at hguard
    obtain ⟨⟨todo, htodo⟩, task, id, hid⟩ := hguard
    obtain ⟨thread, hthread, rfl⟩ := Option.map_eq_some_iff.mp hstep
    obtain ⟨op, todo', htodo', rfl⟩ := BridgeThread.step_exec hthread
    rw [htodo] at htodo' ⊢
    cases htodo'
    exact fun hreleased => hreleased rfl task ⟨id, hid⟩
  | advance id =>
    simp only [AllAwake, Classical.not_imp, not_forall, Bool.not_eq_true] at hguard
    obtain ⟨hclosed, ⟨task, woken, point⟩, hf, rfl, hempty, rfl⟩ := hguard
    simp only [step, hf, advance, hempty, Option.some.injEq] at hstep
    subst hstep
    exact fun hreleased => hreleased hclosed task ⟨id, by simp [setFuture]⟩
  | _ => exact absurd trivial hguard

/-- While every event meets the condition, no acceptor sleeps after the close; an
event that does not meet it leaves one asleep. -/
theorem close_releases_acceptors (endpointIsServer : Bool) (s : Acceptors)
    (hs : Reach (step endpointIsServer) AllAwake init s) :
    s.Released ∧
      ∀ e s', s.step endpointIsServer e = some s' → ¬ s.AllAwake e → ¬ s'.Released :=
  ⟨hs.invariant (fun _ _ _ hI hg hstep => released_step hI hg hstep) (fun h => by cases h),
    fun _ _ hstep hguard => not_released hguard hstep⟩

/-- A connection wakes the acceptor before the endpoint closes. -/
def wokenRun : List AcceptorsEvent :=
  [.accept 0, .poll 0 0, .advance 0, .advance 0, .advance 0, .created 0 none true, .exec, .exec,
    .exec, .closeEndpoint, .exec]

theorem close_releases_woken :
    ∃ s, run (step true) init wokenRun = some s ∧ s.futures 0 = some ⟨0, true, .pending⟩ ∧
      s.thread.handle.endpointClosed = true ∧ s.Released := by
  obtain ⟨s, hrun, hf, hclosed, hawake⟩ : ∃ s, run (step true) init wokenRun = some s ∧
      s.futures 0 = some ⟨0, true, .pending⟩ ∧ s.thread.handle.endpointClosed = true ∧
      Along (step true) AllAwake init wokenRun := by
    refine ⟨_, rfl, rfl, rfl, trivial, trivial, ?_, ?_, ?_, trivial, ?_, ?_, ?_, trivial, ?_,
      trivial⟩
    · intro hopen
      cases hopen
    · intro hopen
      cases hopen
    · intro hopen
      cases hopen
    · rintro ⟨todo, htodo⟩
      cases htodo
    · rintro ⟨todo, htodo⟩
      cases htodo
    · rintro ⟨todo, htodo⟩
      cases htodo
    · rintro - task ⟨id, hid⟩
      match id, hid with
      | 0, hid => cases hid
      | _ + 1, hid => cases hid
  exact ⟨s, hrun, hf, hclosed,
    (close_releases_acceptors true s (reach_of_along hrun hawake)).1⟩

theorem close_strands_acceptor : ¬ ∀ s, Reach (step true) Any init s → s.Released := by
  intro hall
  obtain ⟨s, hrun, hf, hclosed⟩ :
      ∃ s, run (step true) init [.accept 0, .poll 0 0, .advance 0, .advance 0, .advance 0,
          .closeEndpoint, .exec] = some s ∧
        s.futures 0 = some ⟨0, false, .pending⟩ ∧ s.thread.handle.endpointClosed = true :=
    ⟨_, rfl, rfl, rfl⟩
  exact hall s (reach_any_of_run hrun) hclosed 0 ⟨0, hf⟩

end Acceptors

end TokioTquic
