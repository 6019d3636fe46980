import TokioTquic.Async.Transition
import TokioTquic.ConnNotify
import TokioTquic.Process

/-!
# The bridge thread of one connection

The thread takes the commands from the queue in order, lets the engine work, and
runs the engine's callbacks. A callback occupies the thread until its last
operation is done.
-/

namespace TokioTquic
open Async
set_option autoImplicit false

universe u v
variable {κ : Type u} {ρ : Type v}

/-- `conn` is what `conn_get_mut` yields for the connection's index, `todo` the
rest of the callback that is running. -/
structure Bridge (κ : Type u) (ρ : Type v) where
  conn : Option κ
  queue : List (ConnCommand ρ)
  cn : ConnNotify
  todo : List SharedOp

inductive BridgeEvent (κ : Type u) where
  | engine (conn : Option κ)
  | callback (cb : Callback)
  | exec

namespace Bridge

/-- `process_command` on the next command: the command, the bridge afterwards
and the reply sent. -/
def process (T : Tquic κ) (b : Bridge κ ρ) :
    Option (ConnCommand ρ × Bridge κ ρ × Option (ρ × Reply)) :=
  match b.todo, b.queue with
  | [], cmd :: queue =>
    let (conn, reply) := processConnCommand T b.conn cmd
    some (cmd, { b with conn := conn, queue := queue }, reply)
  | _, _ => none

/-- The engine may change or drop the connection; it never brings one back. -/
def step (b : Bridge κ ρ) : BridgeEvent κ → Option (Bridge κ ρ)
  | .engine conn =>
    match b.todo, b.conn with
    | [], some _ => some { b with conn := conn }
    | _, _ => none
  | .callback cb =>
    match b.todo with
    | [] => some { b with todo := cb.ops b.cn.isServer }
    | _ :: _ => none
  | .exec =>
    match b.todo with
    | [] => none
    | op :: todo =>
      let (cn, more) := op.exec b.cn
      some { b with cn := cn, todo := more ++ todo }

def sendCmd (b : Bridge κ ρ) (cmd : ConnCommand ρ) : Bridge κ ρ :=
  { b with queue := b.queue ++ [cmd] }

theorem process_some {T : Tquic κ} {b b' : Bridge κ ρ} {cmd : ConnCommand ρ}
    {reply : Option (ρ × Reply)} (h : b.process T = some (cmd, b', reply)) :
    b.todo = [] ∧ b.queue = cmd :: b'.queue ∧ b'.cn = b.cn ∧ b'.todo = [] ∧
      processConnCommand T b.conn cmd = (b'.conn, reply) := by
  unfold process at h
  split at h
  · rename_i cmd' queue htodo hqueue
    simp only [Option.some.injEq, Prod.mk.injEq] at h
    obtain ⟨rfl, rfl, rfl⟩ := h
    exact ⟨htodo, hqueue, rfl, htodo, rfl⟩
  · simp at h

theorem step_engine {b b' : Bridge κ ρ} {conn : Option κ} (h : b.step (.engine conn) = some b') :
    b.todo = [] ∧ b.conn.isSome ∧ b' = { b with conn := conn } := by
  simp only [step] at h
  split at h
  · rename_i c htodo hconn
    exact ⟨htodo, by simp [hconn], (Option.some.inj h).symm⟩
  · simp at h

theorem step_callback {b b' : Bridge κ ρ} {cb : Callback} (h : b.step (.callback cb) = some b') :
    b.todo = [] ∧ b' = { b with todo := cb.ops b.cn.isServer } := by
  simp only [step] at h
  split at h
  · rename_i htodo
    exact ⟨htodo, (Option.some.inj h).symm⟩
  · simp at h

theorem step_exec {b b' : Bridge κ ρ} (h : b.step .exec = some b') :
    ∃ op todo, b.todo = op :: todo ∧
      b' = { b with cn := (op.exec b.cn).1, todo := (op.exec b.cn).2 ++ todo } := by
  simp only [step] at h
  split at h
  · simp at h
  · rename_i op todo htodo
    exact ⟨op, todo, htodo, (Option.some.inj h).symm⟩

theorem step_cn {b b' : Bridge κ ρ} {e : BridgeEvent κ} (h : b.step e = some b') :
    b'.queue = b.queue ∧ (b'.cn = b.cn ∨ ∃ op ∈ b.todo, b'.cn = (op.exec b.cn).1) := by
  cases e with
  | engine conn =>
    obtain ⟨_, _, rfl⟩ := step_engine h
    exact ⟨rfl, Or.inl rfl⟩
  | callback cb =>
    obtain ⟨_, rfl⟩ := step_callback h
    exact ⟨rfl, Or.inl rfl⟩
  | exec =>
    obtain ⟨op, todo, htodo, rfl⟩ := step_exec h
    exact ⟨rfl, Or.inr ⟨op, by simp [htodo], rfl⟩⟩

end Bridge

/-! ## What an operation does to the waiting -/

namespace SharedOp

theorem exec_notify (cn : ConnNotify) (op : SharedOp) (h : Half) :
    (op.exec cn).1.notify h =
      if op = .getOrCreate h then some ((cn.notify h).getD .new)
      else if op = .notifyOne h then (cn.notify h).map Notify.notifyOne
      else cn.notify h := by
  cases op with
  | getOrCreate g =>
    by_cases hg : h = g
    · subst hg
      simp [exec, ConnNotify.getOrCreate_notify]
    · have hne : g ≠ h := fun heq => hg heq.symm
      simp [exec, hne, ConnNotify.getOrCreate_notify_ne cn hg]
  | notifyOne g =>
    by_cases hg : h = g
    · subst hg
      simp [exec, ConnNotify.modifyNotify_notify]
    · have hne : g ≠ h := fun heq => hg heq.symm
      simp [exec, hne, ConnNotify.modifyNotify_notify_ne cn Notify.notifyOne hg]
  | queueAccept dir streamId => cases dir <;> cases h <;> simp [exec, ConnNotify.notify]
  | storeEstablished => cases h <;> simp [exec, ConnNotify.notify]
  | wakeEstablish => cases h <;> simp [exec, ConnNotify.notify]
  | sendClosed error => cases h <;> simp [exec, ConnNotify.notify]
  | get g => simp [exec]

theorem mem_exec {cn : ConnNotify} {op next : SharedOp} (h : next ∈ (op.exec cn).2) :
    ∃ g, op = .get g ∧ next = .notifyOne g ∧ (cn.notify g).isSome := by
  cases op with
  | get g =>
    simp only [exec] at h
    split at h
    · rename_i hsome
      exact ⟨g, rfl, List.mem_singleton.mp h, hsome⟩
    · simp at h
  | queueAccept dir streamId => cases dir <;> simp [exec] at h
  | storeEstablished => simp [exec] at h
  | wakeEstablish => simp [exec] at h
  | sendClosed error => simp [exec] at h
  | getOrCreate g => simp [exec] at h
  | notifyOne g => simp [exec] at h

theorem exec_cells (cn : ConnNotify) (op : SharedOp) :
    (op.exec cn).1.isEstablished = (decide (op = .storeEstablished) || cn.isEstablished) ∧
    (op.exec cn).1.establishWaker = (if op = .wakeEstablish then none else cn.establishWaker) ∧
    (op.exec cn).1.closed =
      match op with
      | .sendClosed error => some error
      | _ => cn.closed := by
  cases op with
  | getOrCreate h =>
    refine ⟨?_, ?_, ConnNotify.getOrCreate_closed cn h⟩ <;>
      simp only [exec, ConnNotify.getOrCreate] <;> split <;> cases h <;> rfl
  | notifyOne h =>
    refine ⟨?_, ?_, ConnNotify.modifyNotify_closed cn h _⟩ <;>
      simp only [exec, ConnNotify.modifyNotify] <;> split <;> cases h <;> rfl
  | queueAccept dir streamId => cases dir <;> exact ⟨rfl, rfl, rfl⟩
  | storeEstablished => exact ⟨rfl, rfl, rfl⟩
  | wakeEstablish => exact ⟨rfl, rfl, rfl⟩
  | sendClosed error => exact ⟨rfl, rfl, rfl⟩
  | get h => exact ⟨rfl, rfl, rfl⟩

theorem exec_watch {cn : ConnNotify} {op : SharedOp} (hop : ∀ error, op ≠ .sendClosed error) :
    (op.exec cn).1.closed = cn.closed := by
  rw [(exec_cells cn op).2.2]
  split
  · exact absurd rfl (hop _)
  · rfl

theorem exec_closed (cn : ConnNotify) (op : SharedOp) (h : cn.closed.isSome) :
    (op.exec cn).1.closed.isSome := by
  rw [(exec_cells cn op).2.2]
  split
  · rfl
  · exact h

end SharedOp

end TokioTquic
