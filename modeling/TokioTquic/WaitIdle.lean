import TokioTquic.Async.Transition
import TokioTquic.HandleOps

/-!
# `Endpoint::wait_idle`

Any number of `wait_idle` futures next to the bridge thread, every atomic
operation a step. `notify_waiters` wakes the `Notified` futures created before
the call and stores nothing, so a future compares the number of calls with the
number it saw when it made its `Notified`. The engine closes a connection at
most once, and fewer than 2^64 of them are open at a time.
-/

namespace TokioTquic
open Async
set_option autoImplicit false

/-- Where a `wait_idle` future stands. `seen` is the number of `notify_waiters`
calls before its `Notified` was created; `asleep` is the suspended future. -/
inductive IdlePoint where
  | load
  | create
  | first (seen : Nat)
  | asleep (seen : Nat)
  | recheck
  deriving DecidableEq

/-- `live` lists the indices of the created connections that are not closed yet. -/
structure Idle where
  thread : BridgeThread
  nextConn : Nat
  live : List Nat
  waiters : Nat → Option IdlePoint

inductive IdleEvent where
  | created (index : Nat) (activePath : Option SocketAddr) (isServer : Bool)
  | closed (index : Nat) (info : CloseInfo)
  | callback (index : Nat) (cb : Callback)
  | closeEndpoint
  | exec
  | waitIdle (id : Nat)
  | poll (id : Nat)
  | drop (id : Nat)

namespace Idle

def init : Idle := ⟨.new, 0, [], fun _ => none⟩

def setWaiter (s : Idle) (id : Nat) (p : Option IdlePoint) : Idle :=
  { s with waiters := Function.update s.waiters id p }

/-- One step of a `wait_idle` future, up to its next access to shared state. -/
def poll (s : Idle) (id : Nat) : IdlePoint → Idle
  | .load =>
    if s.thread.handle.openConnections = 0 then s.setWaiter id none
    else s.setWaiter id (some .create)
  | .create => s.setWaiter id (some (.first s.thread.handle.idleWakes))
  | .first seen | .asleep seen =>
    if s.thread.handle.idleWakes = seen then s.setWaiter id (some (.asleep seen))
    else s.setWaiter id (some .recheck)
  | .recheck =>
    if s.thread.handle.openConnections = 0 then s.setWaiter id none
    else s.setWaiter id (some .load)

def step (endpointIsServer : Bool) (s : Idle) : IdleEvent → Option Idle
  | .created index activePath isServer =>
    if index ∈ s.live ∨ 2 ^ 64 ≤ s.live.length + 1 then none
    else
      (s.thread.step endpointIsServer (.created s.nextConn (some index) activePath isServer)).map
        fun thread => { s with
          thread := thread, nextConn := s.nextConn + 1, live := index :: s.live }
  | .closed index info =>
    if index ∈ s.live then
      (s.thread.step endpointIsServer (.callback (some index) (.onConnClosed info))).map
        fun thread => { s with thread := thread, live := s.live.erase index }
    else none
  | .callback index cb =>
    match cb with
    | .onConnClosed _ => none
    | cb =>
      (s.thread.step endpointIsServer (.callback (some index) cb)).map
        fun thread => { s with thread := thread }
  | .closeEndpoint =>
    (s.thread.step endpointIsServer .closeEndpoint).map fun thread => { s with thread := thread }
  | .exec => (s.thread.step endpointIsServer .exec).map fun thread => { s with thread := thread }
  | .waitIdle id =>
    match s.waiters id with
    | none => some (s.setWaiter id (some .load))
    | some _ => none
  | .poll id => (s.waiters id).map (s.poll id)
  | .drop id =>
    match s.waiters id with
    | some .load | some (.asleep _) => some (s.setWaiter id none)
    | _ => none

def NotifyDue (s : Idle) : Prop :=
  .notifyWaiters ∈ s.thread.todo ∨
    (.loadIdle ∈ s.thread.todo ∧ s.thread.handle.openConnections = 0)

/-- A suspended future without a wake means that connections are open. -/
def Awaits (s : Idle) : Prop :=
  ∀ id seen, s.waiters id = some (.asleep seen) → s.thread.handle.idleWakes = seen →
    ¬ s.NotifyDue → 0 < s.thread.handle.openConnections

/-- No `Notified` is created for an endpoint that is idle and has said so. -/
def InTime (s : Idle) : IdleEvent → Prop
  | .poll id => s.waiters id = some .create →
      s.thread.handle.openConnections ≠ 0 ∨ s.NotifyDue
  | _ => True

/-! ## The counter -/

/-- Every `fetch_sub` is followed by the load that may wake the waiters. -/
def SubLoads : List HandleOp → Prop
  | [] => True
  | op :: todo => (op.isSub = true → .loadIdle ∈ todo) ∧ SubLoads todo

structure Counts (s : Idle) : Prop where
  fits : s.live.length < 2 ^ 64
  total : s.thread.handle.openConnections + s.thread.todo.countP HandleOp.isAdd =
    s.live.length + s.thread.todo.countP HandleOp.isSub
  single : s.thread.todo.countP HandleOp.isAdd = 0 ∨ s.thread.todo.countP HandleOp.isSub = 0
  loads : SubLoads s.thread.todo

theorem subLoads_append {more todo : List HandleOp} (hmore : ∀ op ∈ more, op.isSub = false)
    (h : SubLoads todo) : SubLoads (more ++ todo) := by
  induction more with
  | nil => exact h
  | cons op more ih =>
    refine ⟨fun hsub => ?_, ih fun o ho => hmore o (List.mem_cons_of_mem _ ho)⟩
    simp [hmore op List.mem_cons_self] at hsub

theorem countP_added (self : BridgeHandle) (op : HandleOp) :
    (op.exec self).2.countP HandleOp.isAdd = 0 ∧ (op.exec self).2.countP HandleOp.isSub = 0 := by
  have hadded := op.exec_added self
  constructor <;> rw [List.countP_eq_zero] <;> intro next h
  · simp [(hadded next h).1]
  · simp [(hadded next h).2]

theorem counts_shared (self : BridgeHandle) (index : Option Nat) (cb : Callback) :
    (∀ op ∈ self.sharedOps index cb, op.isSub = false) ∧
      (self.sharedOps index cb).countP HandleOp.isAdd = 0 ∧
      (self.sharedOps index cb).countP HandleOp.isSub = 0 := by
  have hshared : ∀ op ∈ self.sharedOps index cb, op.isAdd = false ∧ op.isSub = false := by
    intro op hop
    obtain ⟨_, _, rfl⟩ := BridgeHandle.mem_sharedOps hop
    exact ⟨rfl, rfl⟩
  refine ⟨fun op hop => (hshared op hop).2, ?_, ?_⟩ <;> rw [List.countP_eq_zero] <;> intro op hop
  · simp [(hshared op hop).1]
  · simp [(hshared op hop).2]

theorem counts_closed (self : BridgeHandle) (index : Option Nat) (info : CloseInfo) :
    (self.callbackOps index (.onConnClosed info)).countP HandleOp.isAdd = 0 ∧
      (self.callbackOps index (.onConnClosed info)).countP HandleOp.isSub = 1 ∧
      SubLoads (self.callbackOps index (.onConnClosed info)) := by
  obtain ⟨hnone, hadd, hsub⟩ := counts_shared self index (.onConnClosed info)
  rw [self.callbackOps_closed, List.countP_append, List.countP_append, hadd, hsub]
  exact ⟨rfl, rfl, subLoads_append hnone (by simp [SubLoads, HandleOp.isSub])⟩

theorem counts_other (self : BridgeHandle) (index : Option Nat) {cb : Callback}
    (hcb : ∀ info, cb ≠ .onConnClosed info) :
    (self.callbackOps index cb).countP HandleOp.isAdd = 0 ∧
      (self.callbackOps index cb).countP HandleOp.isSub = 0 ∧
      SubLoads (self.callbackOps index cb) := by
  obtain ⟨hnone, hadd, hsub⟩ := counts_shared self index cb
  rw [self.callbackOps_other index hcb, hadd, hsub]
  exact ⟨rfl, rfl, List.append_nil (self.sharedOps index cb) ▸ subLoads_append hnone trivial⟩

theorem Counts.lt_of_add {s : Idle} {todo : List HandleOp} (hs : s.Counts)
    (htodo : s.thread.todo = .fetchAdd :: todo) : s.thread.handle.openConnections + 1 < 2 ^ 64 := by
  have htotal := hs.total
  have hsingle := hs.single
  have hfits := hs.fits
  simp only [htodo, List.countP_cons, HandleOp.isAdd, HandleOp.isSub, if_true, Bool.false_eq_true,
    if_false] at htotal hsingle
  omega

theorem Counts.pos_of_sub {s : Idle} {todo : List HandleOp} (hs : s.Counts)
    (htodo : s.thread.todo = .fetchSub :: todo) : s.thread.handle.openConnections ≠ 0 := by
  have htotal := hs.total
  have hsingle := hs.single
  simp only [htodo, List.countP_cons, HandleOp.isAdd, HandleOp.isSub, if_true, Bool.false_eq_true,
    if_false] at htotal hsingle
  omega

theorem counts_exec {s : Idle} {thread : BridgeThread} {endpointIsServer : Bool}
    (hs : s.Counts) (hstep : s.thread.step endpointIsServer .exec = some thread) :
    Counts { s with thread := thread } := by
  obtain ⟨op, todo, htodo, rfl⟩ := BridgeThread.step_exec hstep
  have htotal := hs.total
  have hsingle := hs.single
  have hloads := hs.loads
  obtain ⟨hadd, hsub⟩ := countP_added s.thread.handle op
  rw [htodo, List.countP_cons, List.countP_cons] at htotal hsingle
  rw [htodo] at hloads
  refine ⟨hs.fits, ?_, ?_, ?_⟩
  · simp only [List.countP_append, hadd, hsub, Nat.zero_add, HandleOp.exec_openConnections]
    cases op with
    | fetchAdd =>
      simp only [HandleOp.isAdd, HandleOp.isSub, if_true, Bool.false_eq_true, if_false] at htotal
      simp only [fetchAdd, Nat.mod_eq_of_lt (hs.lt_of_add htodo)]
      omega
    | fetchSub =>
      simp only [HandleOp.isAdd, HandleOp.isSub, if_true, Bool.false_eq_true, if_false] at htotal
      obtain ⟨n, hn⟩ := Nat.exists_eq_succ_of_ne_zero (hs.pos_of_sub htodo)
      simp only [hn, fetchSub] at htotal ⊢
      omega
    | _ => simpa [HandleOp.isAdd, HandleOp.isSub] using htotal
  · simp only [List.countP_append, hadd, hsub, Nat.zero_add]
    omega
  · exact subLoads_append (fun next h => (op.exec_added _ next h).2) hloads.2

theorem counts_start {s : Idle} (hs : s.Counts) {ops : List HandleOp} {live : List Nat}
    {nextConn : Nat} (htodo : s.thread.todo = []) (hfits : live.length < 2 ^ 64)
    (htotal : s.live.length + ops.countP HandleOp.isAdd = live.length + ops.countP HandleOp.isSub)
    (hsingle : ops.countP HandleOp.isAdd = 0 ∨ ops.countP HandleOp.isSub = 0)
    (hloads : SubLoads ops) :
    Counts { s with thread := { s.thread with todo := ops }, live := live, nextConn := nextConn } := by
  have hopen := hs.total
  rw [htodo] at hopen
  refine ⟨hfits, ?_, hsingle, hloads⟩
  simp only [List.countP_nil, Nat.add_zero] at hopen
  rw [hopen]
  exact htotal

theorem counts_created {endpointIsServer : Bool} {uid : Nat} {index : Option Nat}
    {activePath : Option SocketAddr} {isServer : Bool} :
    let ops := BridgeHandle.onConnCreatedOps endpointIsServer uid index activePath isServer
    ops.countP HandleOp.isAdd = 1 ∧ ops.countP HandleOp.isSub = 0 ∧ SubLoads ops := by
  cases endpointIsServer <;>
    simp [BridgeHandle.onConnCreatedOps, List.countP_cons, HandleOp.isAdd, HandleOp.isSub, SubLoads]

/-- What an event does: a callback of the bridge thread starts and may change which
connections are open, the thread performs an operation, or a `wait_idle` future moves. -/
inductive Steps (endpointIsServer : Bool) (s : Idle) (e : IdleEvent) : Idle → Prop
  | started {ops : List HandleOp} {live : List Nat} {nextConn : Nat} (htodo : s.thread.todo = [])
      (hfits : s.live.length < 2 ^ 64 → live.length < 2 ^ 64)
      (htotal : s.live.length + ops.countP HandleOp.isAdd =
        live.length + ops.countP HandleOp.isSub)
      (hsingle : ops.countP HandleOp.isAdd = 0 ∨ ops.countP HandleOp.isSub = 0)
      (hloads : SubLoads ops) :
      Steps endpointIsServer s e
        { s with thread := { s.thread with todo := ops }, live := live, nextConn := nextConn }
  | performed {thread : BridgeThread}
      (hthread : s.thread.step endpointIsServer .exec = some thread) :
      Steps endpointIsServer s e { s with thread := thread }
  | moved {id : Nat} {p : Option IdlePoint}
      (hp : ∀ seen, p = some (.first seen) ∨ p = some (.asleep seen) →
        (e = .poll id ∧ s.waiters id = some .create ∧ seen = s.thread.handle.idleWakes) ∨
          s.waiters id = some (.first seen) ∨ s.waiters id = some (.asleep seen)) :
      Steps endpointIsServer s e (s.setWaiter id p)

theorem poll_steps {s : Idle} {endpointIsServer : Bool} {id : Nat} {p : IdlePoint}
    (hp : s.waiters id = some p) : Steps endpointIsServer s (.poll id) (s.poll id p) := by
  cases p with
  | load | recheck =>
    simp only [poll]
    split <;> exact .moved (by simp)
  | create =>
    refine .moved fun seen hseen => Or.inl ⟨rfl, hp, ?_⟩
    obtain rfl : s.thread.handle.idleWakes = seen := by simpa using hseen
    rfl
  | first seen | asleep seen =>
    simp only [poll]
    split
    · refine .moved fun seen' hseen' => Or.inr ?_
      obtain rfl : seen = seen' := by simpa using hseen'
      simp [hp]
    · exact .moved (by simp)

theorem step_inv {s s' : Idle} {endpointIsServer : Bool} {e : IdleEvent}
    (hstep : s.step endpointIsServer e = some s') : Steps endpointIsServer s e s' := by
  cases e with
  | created index activePath isServer =>
    simp only [step] at hstep
    split at hstep
    · simp at hstep
    · rename_i hfree
      obtain ⟨thread, hthread, rfl⟩ := Option.map_eq_some_iff.mp hstep
      obtain ⟨ops, htodo, hops, rfl⟩ := BridgeThread.step_start (by simp) hthread
      obtain ⟨hadd, hsub, hloads⟩ := @counts_created endpointIsServer s.nextConn (some index)
        activePath isServer
      cases hops
      refine .started htodo (fun _ => ?_) ?_ (Or.inr hsub) hloads
      · simp only [List.length_cons]
        omega
      · rw [hadd, hsub, List.length_cons]
  | closed index info =>
    simp only [step] at hstep
    split at hstep
    · rename_i hlive
      obtain ⟨thread, hthread, rfl⟩ := Option.map_eq_some_iff.mp hstep
      obtain ⟨ops, htodo, hops, rfl⟩ := BridgeThread.step_start (by simp) hthread
      obtain ⟨hadd, hone, hloads⟩ := counts_closed s.thread.handle (some index) info
      have hlen := List.length_erase_of_mem hlive
      have hpos := List.length_pos_of_mem hlive
      cases hops
      refine .started htodo (fun hfits => by omega) ?_ (Or.inl hadd) hloads
      rw [hadd, hone, hlen]
      omega
    · simp at hstep
  | callback index cb =>
    simp only [step] at hstep
    split at hstep
    · simp at hstep
    · rename_i hcb
      obtain ⟨thread, hthread, rfl⟩ := Option.map_eq_some_iff.mp hstep
      obtain ⟨ops, htodo, hops, rfl⟩ := BridgeThread.step_start (by simp) hthread
      obtain ⟨hadd, hnone, hloads⟩ := counts_other s.thread.handle (some index) hcb
      cases hops
      exact .started htodo id (by rw [hadd, hnone]) (Or.inl hadd) hloads
  | closeEndpoint =>
    obtain ⟨thread, hthread, rfl⟩ := Option.map_eq_some_iff.mp hstep
    obtain ⟨ops, htodo, hops, rfl⟩ := BridgeThread.step_start (by simp) hthread
    cases hops
    exact .started htodo id rfl (Or.inl rfl) (by simp [SubLoads, HandleOp.isSub])
  | exec =>
    obtain ⟨thread, hthread, rfl⟩ := Option.map_eq_some_iff.mp hstep
    exact .performed hthread
  | waitIdle id =>
    simp only [step] at hstep
    split at hstep
    · cases hstep
      exact .moved (by simp)
    · simp at hstep
  | poll id =>
    obtain ⟨p, hp, rfl⟩ := Option.map_eq_some_iff.mp hstep
    exact poll_steps hp
  | drop id =>
    simp only [step] at hstep
    split at hstep
    · cases hstep
      exact .moved (by simp)
    · cases hstep
      exact .moved (by simp)
    · simp at hstep

theorem counts_step {s s' : Idle} {endpointIsServer : Bool} {e : IdleEvent} (hs : s.Counts)
    (hstep : s.step endpointIsServer e = some s') : s'.Counts := by
  cases step_inv hstep with
  | started htodo hfits htotal hsingle hloads =>
    exact counts_start hs htodo (hfits hs.fits) htotal hsingle hloads
  | performed hthread => exact counts_exec hs hthread
  | moved => exact ⟨hs.fits, hs.total, hs.single, hs.loads⟩

/-! ## The wake of a suspended future -/

def Woken (s : Idle) (p : Option IdlePoint) : Prop :=
  ∀ seen, p = some (.first seen) ∨ p = some (.asleep seen) →
    seen ≤ s.thread.handle.idleWakes ∧ (s.thread.handle.idleWakes = seen →
      s.thread.handle.openConnections ≠ 0 ∨ s.NotifyDue)

theorem woken_exec {s : Idle} {thread : BridgeThread} {endpointIsServer : Bool}
    (hs : s.Counts) (hstep : s.thread.step endpointIsServer .exec = some thread)
    {p : Option IdlePoint} (hp : s.Woken p) : Woken { s with thread := thread } p := by
  obtain ⟨op, todo, htodo, rfl⟩ := BridgeThread.step_exec hstep
  intro seen hseen
  obtain ⟨hle, hdue⟩ := hp seen hseen
  have hloads := hs.loads
  rw [htodo] at hloads
  simp only [NotifyDue, htodo, List.mem_cons] at hdue
  simp only [NotifyDue, HandleOp.exec_idleWakes, HandleOp.exec_openConnections]
  cases op with
  | notifyWaiters =>
    change seen ≤ s.thread.handle.idleWakes + 1 ∧ (s.thread.handle.idleWakes + 1 = seen → _)
    exact ⟨by omega, fun h => by omega⟩
  | fetchSub =>
    refine ⟨hle, fun _ => ?_⟩
    -- a `fetch_sub` that reaches zero is followed by its load
    by_cases hzero : fetchSub s.thread.handle.openConnections = 0
    · exact Or.inr (Or.inr ⟨List.mem_append_right _ (hloads.1 rfl), hzero⟩)
    · exact Or.inl hzero
  | loadIdle =>
    refine ⟨hle, fun _ => ?_⟩
    by_cases hzero : s.thread.handle.openConnections = 0
    · exact Or.inr (Or.inl (by simp [HandleOp.exec, hzero]))
    · exact Or.inl hzero
  | fetchAdd =>
    have hlt := hs.lt_of_add htodo
    refine ⟨hle, fun _ => Or.inl ?_⟩
    change fetchAdd s.thread.handle.openConnections ≠ 0
    rw [fetchAdd, Nat.mod_eq_of_lt hlt]
    exact Nat.succ_ne_zero _
  | _ =>
    refine ⟨hle, fun h => ?_⟩
    rcases hdue h with hopen | hwake | ⟨hload, hzero⟩
    · exact Or.inl hopen
    · exact Or.inr (Or.inl (by simpa using Or.inr hwake))
    · exact Or.inr (Or.inr ⟨by simpa using Or.inr hload, hzero⟩)

theorem woken_start {s : Idle} {ops : List HandleOp} {live : List Nat} {nextConn : Nat}
    {p : Option IdlePoint} (htodo : s.thread.todo = []) (hp : s.Woken p) :
    Woken { s with thread := { s.thread with todo := ops }, live := live, nextConn := nextConn } p := by
  intro seen hseen
  obtain ⟨hle, hdue⟩ := hp seen hseen
  simp only [NotifyDue, htodo, List.not_mem_nil, false_and, or_false] at hdue
  exact ⟨hle, fun h => Or.inl (hdue h)⟩

theorem woken_step {s s' : Idle} {endpointIsServer : Bool} {e : IdleEvent} (hs : s.Counts)
    (hwoken : ∀ id, s.Woken (s.waiters id)) (hguard : s.InTime e)
    (hstep : s.step endpointIsServer e = some s') : ∀ id, s'.Woken (s'.waiters id) := by
  cases step_inv hstep with
  | started htodo => exact fun id => woken_start htodo (hwoken id)
  | performed hthread => exact fun id => woken_exec hs hthread (hwoken id)
  | @moved id p hp =>
    have hmoved : s.Woken p := by
      intro seen hseen
      rcases hp seen hseen with ⟨rfl, hcreate, rfl⟩ | hold
      · exact ⟨le_rfl, fun _ => hguard hcreate⟩
      · exact hwoken id seen hold
    intro id'
    by_cases hid : id' = id
    · subst hid
      simpa [setWaiter, Woken, NotifyDue] using hmoved
    · simpa [setWaiter, Woken, NotifyDue, hid] using hwoken id'

structure Safe (s : Idle) : Prop where
  counts : s.Counts
  woken : ∀ id, s.Woken (s.waiters id)

theorem safe_step {s s' : Idle} {endpointIsServer : Bool} {e : IdleEvent} (hs : s.Safe)
    (hguard : s.InTime e) (hstep : s.step endpointIsServer e = some s') : s'.Safe :=
  ⟨counts_step hs.counts hstep, woken_step hs.counts hs.woken hguard hstep⟩

theorem safe_init : init.Safe :=
  ⟨⟨by decide, rfl, Or.inl rfl, trivial⟩, fun id => by simp [init, Woken]⟩

/-- A `Notified` created too late: polled next, its future sleeps although the
endpoint is idle and nothing is left to wake it. -/
theorem late_sleeps {s : Idle} {endpointIsServer : Bool} {id : Nat}
    (hp : s.waiters id = some .create) (hzero : s.thread.handle.openConnections = 0)
    (hdue : ¬ s.NotifyDue) :
    ∃ t, Reach (step endpointIsServer) Any s t ∧ ¬ t.Awaits := by
  have hcreate : s.step endpointIsServer (.poll id) =
      some (s.setWaiter id (some (.first s.thread.handle.idleWakes))) := by
    simp [step, hp, poll]
  refine ⟨s.setWaiter id (some (.asleep s.thread.handle.idleWakes)),
    (Reach.single trivial hcreate).event (.poll id) trivial ?_, fun hawaits => ?_⟩
  · simp [step, setWaiter, poll]
  · have hpos := hawaits id s.thread.handle.idleWakes (by simp [setWaiter]) rfl hdue
    change 0 < s.thread.handle.openConnections at hpos
    omega

/-- While every `Notified` is created in time, a suspended `wait_idle` future that
nothing is about to wake waits for open connections; one created too late may
sleep on an idle endpoint. -/
theorem wait_idle_awaits (endpointIsServer : Bool) (s : Idle)
    (hs : Reach (step endpointIsServer) InTime init s) :
    s.Awaits ∧ ∀ e, ¬ s.InTime e → ∃ t, Reach (step endpointIsServer) Any s t ∧ ¬ t.Awaits := by
  have hsafe : s.Safe := hs.invariant (fun _ _ _ hI hg hstep => safe_step hI hg hstep) safe_init
  constructor
  · intro id seen hp hseen hdue
    have hopen := (hsafe.woken id seen (Or.inr hp)).2 hseen
    exact Nat.pos_of_ne_zero (hopen.resolve_right hdue)
  · intro e he
    cases e with
    | poll id =>
      simp only [InTime, Classical.not_imp, not_or, ne_eq, not_not] at he
      exact late_sleeps he.1 he.2.1 he.2.2
    | _ => exact absurd trivial he

/-- A future falls asleep while two connections are open, and one of them closes. -/
def oneClosedRun : List IdleEvent :=
  [.created 0 none false, .exec, .exec, .created 1 none false, .exec, .exec, .waitIdle 0, .poll 0,
    .poll 0, .poll 0, .closed 0 ⟨none, none, true, false, false⟩, .exec, .exec, .exec, .exec]

/-- The other one closes; the future is woken and returns. -/
def otherClosedRun : List IdleEvent :=
  [.closed 1 ⟨none, none, true, false, false⟩, .exec, .exec, .exec, .exec, .exec, .poll 0, .poll 0]

theorem wait_idle_awaits_close :
    ∃ s t, run (step false) init oneClosedRun = some s ∧ s.waiters 0 = some (.asleep 0) ∧
      s.thread.handle.openConnections = 1 ∧ s.thread.todo = [] ∧ s.Awaits ∧
      run (step false) s otherClosedRun = some t ∧ t.waiters 0 = none := by
  obtain ⟨s, t, hs, hp, hopen, htodo, ht, hdone, hintime⟩ : ∃ s t,
      run (step false) init oneClosedRun = some s ∧ s.waiters 0 = some (.asleep 0) ∧
      s.thread.handle.openConnections = 1 ∧ s.thread.todo = [] ∧
      run (step false) s otherClosedRun = some t ∧ t.waiters 0 = none ∧
      Along (step false) InTime init oneClosedRun :=
    ⟨_, _, rfl, rfl, rfl, rfl, rfl, rfl, trivial, trivial, trivial, trivial, trivial, trivial,
      trivial, nofun, fun _ => Or.inl (by decide), nofun, trivial, trivial, trivial, trivial,
      trivial, trivial⟩
  exact ⟨s, t, hs, hp, hopen, htodo, (wait_idle_awaits false s (reach_of_along hs hintime)).1, ht,
    hdone⟩

/-- The last connection closes between the load of the counter and the creation of
the `Notified`. -/
def lateRun : List IdleEvent :=
  [.created 0 none false, .exec, .exec, .waitIdle 0, .poll 0,
    .closed 0 ⟨none, none, true, false, false⟩, .exec, .exec, .exec, .exec, .exec, .poll 0, .poll 0]

theorem wait_idle_sleeps_idle : ¬ ∀ s, Reach (step false) Any init s → s.Awaits := by
  intro hall
  obtain ⟨s, hrun, hp, hseen, htodo, hzero⟩ :
      ∃ s, run (step false) init lateRun = some s ∧ s.waiters 0 = some (.asleep 1) ∧
        s.thread.handle.idleWakes = 1 ∧ s.thread.todo = [] ∧
        s.thread.handle.openConnections = 0 := ⟨_, rfl, rfl, rfl, rfl, rfl⟩
  have hpos := hall s (reach_any_of_run hrun) 0 1 hp hseen (by simp [NotifyDue, htodo])
  omega

end Idle

end TokioTquic
