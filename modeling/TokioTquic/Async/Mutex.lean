import Mathlib.Data.List.Basic

/-!
# A fair asynchronous mutex

The lock is handed to its waiters in the order they asked for it, by the holder
that releases it. A waiter may already own the lock before it is polled again.
-/

namespace Async
set_option autoImplicit false

universe u

structure Mutex (ω : Type u) where
  holder : Option ω
  waiters : List ω
  free : holder = none → waiters = []

namespace Mutex
variable {ω : Type u}

def new : Mutex ω := ⟨none, [], fun _ => rfl⟩

/-- The holder, and behind it the waiters in the order they are served. -/
def line (m : Mutex ω) : List ω := m.holder.toList ++ m.waiters

/-- First poll of `lock()`: take a free lock, or queue up. -/
def lock (m : Mutex ω) (w : ω) : Mutex ω :=
  match m.holder with
  | none => ⟨some w, [], nofun⟩
  | some v => ⟨some v, m.waiters ++ [w], nofun⟩

/-- The holder's guard is dropped. -/
def release (m : Mutex ω) : Mutex ω :=
  match m.waiters with
  | [] => new
  | w :: ws => ⟨some w, ws, nofun⟩

variable [DecidableEq ω]

/-- A `lock()` future of `w` is dropped before it yielded the guard. -/
def abandon (m : Mutex ω) (w : ω) : Mutex ω :=
  if m.holder = some w then m.release
  else ⟨m.holder, m.waiters.erase w, fun h => by simp [m.free h]⟩

omit [DecidableEq ω] in
/-- Asking for the lock never takes it from its holder. -/
theorem lock_holder {m : Mutex ω} {v : ω} (h : m.holder = some v) (w : ω) :
    (m.lock w).holder = some v := by
  simp [lock, h]

theorem abandon_holder {m : Mutex ω} {v w : ω} (h : m.holder = some v) (hne : v ≠ w) :
    (m.abandon w).holder = some v := by
  simp [abandon, h, hne]

omit [DecidableEq ω] in
theorem line_of_holder {m : Mutex ω} {v : ω} (h : m.holder = some v) :
    m.line = v :: m.waiters := by
  simp [line, h]

omit [DecidableEq ω] in
theorem holder_of_mem_line {m : Mutex ω} {v : ω} (h : v ∈ m.line) : ∃ w, m.holder = some w := by
  cases hm : m.holder with
  | none => simp [line, hm, m.free hm] at h
  | some w => exact ⟨w, rfl⟩

omit [DecidableEq ω] in
theorem line_lock (m : Mutex ω) (w : ω) : (m.lock w).line = m.line ++ [w] := by
  cases hm : m.holder with
  | none => simp [lock, line, hm, m.free hm]
  | some v => simp [lock, line, hm]

theorem line_release {m : Mutex ω} {v : ω} (h : m.holder = some v) :
    m.release.line = m.line.erase v := by
  rw [line_of_holder h, List.erase_cons_head, release]
  split
  · rename_i hnil
    simp [line, new, hnil]
  · rename_i hcons
    simp [line, hcons]

theorem line_abandon (m : Mutex ω) (w : ω) : (m.abandon w).line = m.line.erase w := by
  by_cases hw : m.holder = some w
  · simp only [abandon, hw, if_pos, line_release hw]
  · cases hm : m.holder with
    | none => simp [abandon, line, hm, m.free hm]
    | some v =>
      have hne : v ≠ w := fun heq => hw (by rw [hm, heq])
      simp [abandon, line, hm, hne, List.erase_cons_tail]

end Mutex

end Async
