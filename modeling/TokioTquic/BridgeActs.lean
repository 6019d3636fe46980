import TokioTquic.Bridge
import TokioTquic.BridgeHandle
import TokioTquic.Streams

/-!
# What happens to a bridge, act by act

Next to the steps of its thread a bridge sees the commands that handles send and the
futures that leave a waker in its `ConnNotify` or take a stream from an accept queue.
-/

namespace TokioTquic
open Async
set_option autoImplicit false

universe u v
variable {κ : Type u} {ρ : Type v}

inductive BridgeAct (κ : Type u) (ρ : Type v) where
  | process
  | event (e : BridgeEvent κ)
  | send (cmd : ConnCommand ρ)
  | register (waker : Nat)
  | take (dir : Dir)

namespace Bridge

def act (T : Tquic κ) (b : Bridge κ ρ) : BridgeAct κ ρ → Option (Bridge κ ρ)
  | .process => (b.process T).map fun x => x.2.1
  | .event e => b.step e
  | .send cmd => some (b.sendCmd cmd)
  | .register waker =>
    if b.cn.isEstablished || b.cn.closed.isSome then none
    else some { b with cn := { b.cn with establishWaker := some waker } }
  | .take dir =>
    match b.cn.acceptQueue dir with
    | [] => none
    | _ :: queue => some { b with cn := b.cn.setAcceptQueue queue dir }

/-- How many operations a callback takes; `get` is followed by its `notify_one`. -/
def execs : ConnNotify → List SharedOp → Nat
  | _, [] => 0
  | cn, op :: ops => 1 + (op.exec cn).2.length + execs (op.run cn) ops

/-- A callback from its begin to its end. -/
def callbackActs (cn : ConnNotify) (cb : Callback) : List (BridgeAct κ ρ) :=
  .event (.callback cb) :: List.replicate (execs cn (cb.ops cn.isServer)) (.event .exec)

variable {T : Tquic κ}

theorem exec_quiet (added : List SharedOp) (rest : List SharedOp)
    (hadded : ∀ op ∈ added, ∃ h, op = .notifyOne h) :
    ∀ b : Bridge κ ρ, b.todo = added ++ rest →
      run (act T) b (List.replicate added.length (.event .exec)) =
        some { b with cn := added.foldl (fun cn op => (op.exec cn).1) b.cn, todo := rest } := by
  induction added with
  | nil =>
    intro b htodo
    obtain ⟨conn, queue, cn, todo⟩ := b
    obtain rfl : todo = rest := htodo
    rfl
  | cons op added ih =>
    intro b htodo
    obtain ⟨h, rfl⟩ := hadded op List.mem_cons_self
    have hexec : b.act T (.event .exec) =
        some { b with cn := (SharedOp.exec b.cn (.notifyOne h)).1, todo := added ++ rest } := by
      simp only [act, step, htodo, List.cons_append]
      rfl
    have hrest := ih (fun o ho => hadded o (List.mem_cons_of_mem _ ho))
      { b with cn := (SharedOp.exec b.cn (.notifyOne h)).1, todo := added ++ rest } rfl
    simp only [List.length_cons, List.replicate_succ, run, hexec, Option.bind_some]
    exact hrest

theorem exec_run (ops : List SharedOp) :
    ∀ b : Bridge κ ρ, b.todo = ops →
      run (act T) b (List.replicate (execs b.cn ops) (.event .exec)) =
        some { b with cn := ops.foldl SharedOp.run b.cn, todo := [] } := by
  induction ops with
  | nil =>
    intro b htodo
    obtain ⟨conn, queue, cn, todo⟩ := b
    obtain rfl : todo = [] := htodo
    rfl
  | cons op ops ih =>
    intro b htodo
    have hexec : b.act T (.event .exec) =
        some { b with cn := (op.exec b.cn).1, todo := (op.exec b.cn).2 ++ ops } := by
      simp only [act, step, htodo]
    have hadded : ∀ next ∈ (op.exec b.cn).2, ∃ h, next = .notifyOne h := by
      intro next hnext
      obtain ⟨g, -, hg, -⟩ := SharedOp.mem_exec hnext
      exact ⟨g, hg⟩
    have hquiet := exec_quiet (T := T) (op.exec b.cn).2 ops hadded
      { b with cn := (op.exec b.cn).1, todo := (op.exec b.cn).2 ++ ops } rfl
    rw [execs, Nat.add_assoc, List.replicate_add, List.replicate_add]
    simp only [run_append, List.replicate_one, run, hexec, Option.bind_some, hquiet]
    exact ih _ rfl

theorem callback_run {b : Bridge κ ρ} (htodo : b.todo = []) (cb : Callback) :
    run (act T) b (callbackActs b.cn cb) = some { b with cn := cb.run b.cn } := by
  have hbegin : b.act T (.event (.callback cb)) =
      some { b with todo := cb.ops b.cn.isServer } := by
    simp only [act, step, htodo]
  have hrun := exec_run (T := T) (cb.ops b.cn.isServer)
    { b with todo := cb.ops b.cn.isServer } rfl
  obtain ⟨conn, queue, cn, todo⟩ := b
  obtain rfl : todo = [] := htodo
  simp only [callbackActs, run, hbegin, Option.bind_some]
  exact hrun

end Bridge

end TokioTquic
