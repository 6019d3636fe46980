import Mathlib.Data.List.Basic

/-!
# `Notify`: one stored permit and a queue of waiters

`notifyOne` hands its notification to the waiter registered first and stores a
permit when there is none; a waiter dropped after it was notified passes the
notification on. Storing a permit and having registered waiters exclude each
other, so the structure carries that fact.
-/

namespace Async
set_option autoImplicit false

universe u

/-- `waiters` are registered and asleep, `notified` were chosen by a
`notifyOne` and have not been polled since. -/
structure Notify (ω : Type u) where
  permit : Bool
  waiters : List ω
  notified : List ω
  exclusive : permit = true → waiters = []

namespace Notify
variable {ω : Type u}

def new : Notify ω := ⟨false, [], [], fun _ => rfl⟩

def notifyOne (n : Notify ω) : Notify ω :=
  match n.waiters with
  | [] => ⟨true, [], n.notified, fun _ => rfl⟩
  | w :: ws => ⟨false, ws, n.notified ++ [w], nofun⟩

variable [DecidableEq ω]

/-- One poll of the `Notified` future of `w`; the first poll registers it. -/
def poll (n : Notify ω) (w : ω) : Bool × Notify ω :=
  if w ∈ n.notified then (true, { n with notified := n.notified.erase w })
  else if w ∈ n.waiters then (false, n)
  else if n.permit then (true, ⟨false, n.waiters, n.notified, nofun⟩)
  else (false, ⟨false, n.waiters ++ [w], n.notified, nofun⟩)

/-- The `Notified` future of `w` is dropped. -/
def cancel (n : Notify ω) (w : ω) : Notify ω :=
  if w ∈ n.notified then notifyOne { n with notified := n.notified.erase w }
  else ⟨n.permit, n.waiters.erase w, n.notified, fun h => by simp [n.exclusive h]⟩

omit [DecidableEq ω] in
theorem notifyOne_permit {n : Notify ω} (h : n.permit = true) : n.notifyOne.permit = true := by
  simp [notifyOne, n.exclusive h]

omit [DecidableEq ω] in
theorem mem_notifyOne {n : Notify ω} {w : ω} (h : w ∈ n.notified) :
    w ∈ n.notifyOne.notified := by
  unfold notifyOne
  split
  · exact h
  · exact List.mem_append_left _ h

/-! ## A single user at a time -/

def Idle (n : Notify ω) : Prop := n.waiters = [] ∧ n.notified = []

/-- `w` sleeps, and nobody else waits. -/
def Asleep (n : Notify ω) (w : ω) : Prop := n.waiters = [w] ∧ n.notified = []

/-- `w` has been notified, and nobody else waits. -/
def Awake (n : Notify ω) (w : ω) : Prop := n.waiters = [] ∧ n.notified = [w]

omit [DecidableEq ω] in
@[simp] theorem idle_new : (new : Notify ω).Idle := ⟨rfl, rfl⟩

omit [DecidableEq ω] in
theorem Asleep.permit {n : Notify ω} {w : ω} (h : n.Asleep w) : n.permit = false := by
  cases hp : n.permit with
  | false => rfl
  | true =>
    have hnil := n.exclusive hp
    rw [h.1] at hnil
    simp at hnil

omit [DecidableEq ω] in
theorem Idle.notifyOne {n : Notify ω} (h : n.Idle) :
    n.notifyOne.Idle ∧ n.notifyOne.permit = true := by
  simp [Notify.notifyOne, h.1, Idle, h.2]

omit [DecidableEq ω] in
theorem Asleep.notifyOne {n : Notify ω} {w : ω} (h : n.Asleep w) : n.notifyOne.Awake w := by
  simp [Notify.notifyOne, h.1, Awake, h.2]

omit [DecidableEq ω] in
theorem Awake.notifyOne {n : Notify ω} {w : ω} (h : n.Awake w) : n.notifyOne.Awake w := by
  simp [Notify.notifyOne, h.1, Awake, h.2]

theorem Idle.poll_permit {n : Notify ω} (h : n.Idle) (hp : n.permit = true) (w : ω) :
    (n.poll w).1 = true ∧ (n.poll w).2.Idle := by
  simp [Notify.poll, h.1, h.2, hp, Idle]

theorem Idle.poll_asleep {n : Notify ω} (h : n.Idle) (hp : n.permit = false) (w : ω) :
    (n.poll w).1 = false ∧ (n.poll w).2.Asleep w := by
  simp [Notify.poll, h.1, h.2, hp, Asleep]

theorem Asleep.poll {n : Notify ω} {w : ω} (h : n.Asleep w) : n.poll w = (false, n) := by
  simp [Notify.poll, h.1, h.2]

theorem Awake.poll {n : Notify ω} {w : ω} (h : n.Awake w) :
    (n.poll w).1 = true ∧ (n.poll w).2.Idle := by
  simp [Notify.poll, h.1, h.2, Idle]

theorem Asleep.cancel {n : Notify ω} {w : ω} (h : n.Asleep w) : (n.cancel w).Idle := by
  simp [Notify.cancel, h.1, h.2, Idle]

theorem Awake.cancel {n : Notify ω} {w : ω} (h : n.Awake w) :
    (n.cancel w).Idle ∧ (n.cancel w).permit = true := by
  simp [Notify.cancel, h.1, h.2, Idle, Notify.notifyOne]

end Notify

end Async
