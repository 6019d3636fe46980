import TokioTquic.BridgeHandle

/-!
# The callbacks on the shared handle, operation by operation

The atomic operations that `on_conn_created`, the other callbacks and the
processing of `CloseEndpoint` perform on the `BridgeHandle`, in program order.
The user's futures may run between any two of them. Run to its end, such a list
is the callback of `BridgeHandle`.
-/

namespace TokioTquic
set_option autoImplicit false

inductive HandleOp where
  | insert (connId uid : Nat) (cn : ConnNotify)
  | fetchAdd
  | sendIncoming (uid : Nat) (data : IncomingData)
  | shared (uid : Nat) (op : SharedOp)
  | fetchSub
  /-- `open_connections.load`, and `notify_waiters` next at zero. -/
  | loadIdle
  | notifyWaiters
  | storeClosed

/-- Perform one operation; the list holds the operations it adds before the rest. -/
def HandleOp.exec (self : BridgeHandle) : HandleOp → BridgeHandle × List HandleOp
  | .insert connId uid cn =>
    ({ self with
      connStates := Function.update self.connStates connId (some uid)
      notifies := Function.update self.notifies uid cn }, [])
  | .fetchAdd => ({ self with openConnections := TokioTquic.fetchAdd self.openConnections }, [])
  | .sendIncoming uid data => ({ self with incoming := self.incoming ++ [(uid, data)] }, [])
  | .shared uid op =>
    (self.modifyNotify uid fun cn => (op.exec cn).1,
      ((op.exec (self.notifies uid)).2).map (.shared uid))
  | .fetchSub => ({ self with openConnections := TokioTquic.fetchSub self.openConnections }, [])
  | .loadIdle => (self, if self.openConnections = 0 then [.notifyWaiters] else [])
  | .notifyWaiters => ({ self with idleWakes := self.idleWakes + 1 }, [])
  | .storeClosed => ({ self with endpointClosed := true }, [])

namespace BridgeHandle

def onConnCreatedOps (endpointIsServer : Bool) (uid : Nat) (index : Option Nat)
    (activePath : Option SocketAddr) (isServer : Bool) : List HandleOp :=
  let connId := index.getD 0
  let remote := activePath.getD .unspecified
  [.insert connId uid (.created remote isServer), .fetchAdd] ++
    if endpointIsServer then [.sendIncoming uid ⟨connId, remote⟩] else []

def callbackOps (self : BridgeHandle) (index : Option Nat) (cb : Callback) : List HandleOp :=
  (match self.connStates (index.getD 0) with
    | some uid => (cb.ops (self.notifies uid).isServer).map (.shared uid)
    | none => []) ++
  match cb with
  | .onConnClosed _ => [.fetchSub, .loadIdle]
  | _ => []

/-- The operations of a callback on the shared state of its connection. -/
def sharedOps (self : BridgeHandle) (index : Option Nat) (cb : Callback) : List HandleOp :=
  match self.connStates (index.getD 0) with
  | some uid => (cb.ops (self.notifies uid).isServer).map (.shared uid)
  | none => []

theorem mem_sharedOps {self : BridgeHandle} {index : Option Nat} {cb : Callback} {op : HandleOp}
    (h : op ∈ self.sharedOps index cb) : ∃ uid op', op = .shared uid op' := by
  unfold sharedOps at h
  split at h
  · obtain ⟨op', _, rfl⟩ := List.mem_map.mp h
    exact ⟨_, op', rfl⟩
  · cases h

theorem callbackOps_closed (self : BridgeHandle) (index : Option Nat) (info : CloseInfo) :
    self.callbackOps index (.onConnClosed info) =
      self.sharedOps index (.onConnClosed info) ++ [.fetchSub, .loadIdle] := rfl

theorem callbackOps_other (self : BridgeHandle) (index : Option Nat) {cb : Callback}
    (hcb : ∀ info, cb ≠ .onConnClosed info) :
    self.callbackOps index cb = self.sharedOps index cb := by
  cases cb with
  | onConnClosed info => exact absurd rfl (hcb info)
  | _ => exact List.append_nil _

end BridgeHandle

/-! ## A callback run to its end -/

def HandleOp.run (self : BridgeHandle) (op : HandleOp) : BridgeHandle :=
  (op.exec self).2.foldl (fun self next => (next.exec self).1) (op.exec self).1

namespace BridgeHandle

@[simp] theorem modifyNotify_modifyNotify (self : BridgeHandle) (uid : Nat)
    (f g : ConnNotify → ConnNotify) :
    (self.modifyNotify uid f).modifyNotify uid g = self.modifyNotify uid (g ∘ f) := by
  simp [modifyNotify]

theorem modifyNotify_self (self : BridgeHandle) (uid : Nat) {f : ConnNotify → ConnNotify}
    (hf : f (self.notifies uid) = self.notifies uid) : self.modifyNotify uid f = self := by
  simp [modifyNotify, hf]

theorem run_shared (self : BridgeHandle) (uid : Nat) (op : SharedOp) :
    HandleOp.run self (.shared uid op) = self.modifyNotify uid fun cn => op.run cn := by
  cases op with
  | get h =>
    simp only [HandleOp.run, HandleOp.exec, SharedOp.run, SharedOp.exec]
    split <;> simp_all [modifyNotify]
  | queueAccept dir streamId => cases dir <;> rfl
  | storeEstablished => rfl
  | wakeEstablish => rfl
  | sendClosed error => rfl
  | getOrCreate h => rfl
  | notifyOne h => rfl

theorem foldl_shared (uid : Nat) (ops : List SharedOp) :
    ∀ self : BridgeHandle, (ops.map (HandleOp.shared uid)).foldl HandleOp.run self =
      self.modifyNotify uid fun cn => ops.foldl SharedOp.run cn := by
  induction ops with
  | nil =>
    intro self
    exact (self.modifyNotify_self uid rfl).symm
  | cons op ops ih =>
    intro self
    rw [List.map_cons, List.foldl_cons, run_shared, ih, modifyNotify_modifyNotify]
    rfl

theorem onConnCreated_ops (self : BridgeHandle) (endpointIsServer : Bool) (uid : Nat)
    (index : Option Nat) (activePath : Option SocketAddr) (isServer : Bool) :
    (onConnCreatedOps endpointIsServer uid index activePath isServer).foldl HandleOp.run self =
      self.onConnCreated endpointIsServer uid index activePath isServer := by
  cases endpointIsServer <;> rfl

theorem callback_ops (self : BridgeHandle) (index : Option Nat) (cb : Callback) :
    (self.callbackOps index cb).foldl HandleOp.run self = self.callback index cb := by
  have hgone : ∀ t : BridgeHandle,
      [HandleOp.fetchSub, .loadIdle].foldl HandleOp.run t = t.connGone := by
    intro t
    simp only [List.foldl_cons, List.foldl_nil, HandleOp.run, HandleOp.exec, connGone]
    split <;> simp_all
  have hrun : ∀ uid, (self.modifyNotify uid fun cn =>
      (cb.ops (self.notifies uid).isServer).foldl SharedOp.run cn) =
      self.modifyNotify uid cb.run := fun uid => rfl
  simp only [callbackOps, callback, List.foldl_append]
  cases self.connStates (index.getD 0) with
  | none =>
    cases cb with
    | onConnClosed info => exact hgone self
    | _ => rfl
  | some uid =>
    simp only [foldl_shared, hrun]
    cases cb with
    | onConnClosed info => exact hgone _
    | _ => rfl

end BridgeHandle

/-! ## What an operation does to the counters -/

namespace HandleOp

def isAdd : HandleOp → Bool
  | .fetchAdd => true
  | _ => false

def isSub : HandleOp → Bool
  | .fetchSub => true
  | _ => false

theorem exec_openConnections (self : BridgeHandle) (op : HandleOp) :
    (op.exec self).1.openConnections =
      match op with
      | .fetchAdd => TokioTquic.fetchAdd self.openConnections
      | .fetchSub => TokioTquic.fetchSub self.openConnections
      | _ => self.openConnections := by
  cases op <;> rfl

theorem exec_idleWakes (self : BridgeHandle) (op : HandleOp) :
    (op.exec self).1.idleWakes =
      match op with
      | .notifyWaiters => self.idleWakes + 1
      | _ => self.idleWakes := by
  cases op <;> rfl

theorem exec_connStates (self : BridgeHandle) (op : HandleOp) :
    (op.exec self).1.connStates =
      match op with
      | .insert connId uid _ => Function.update self.connStates connId (some uid)
      | _ => self.connStates := by
  cases op <;> rfl

theorem exec_notifies (self : BridgeHandle) (op : HandleOp) :
    (op.exec self).1.notifies =
      match op with
      | .insert _ uid cn => Function.update self.notifies uid cn
      | .shared uid op => Function.update self.notifies uid (op.exec (self.notifies uid)).1
      | _ => self.notifies := by
  cases op <;> rfl

theorem mem_exec {self : BridgeHandle} {op next : HandleOp} (h : next ∈ (op.exec self).2) :
    next = .notifyWaiters ∨ ∃ uid op', next = .shared uid op' := by
  cases op with
  | shared uid op =>
    obtain ⟨op', _, rfl⟩ := List.mem_map.mp h
    exact Or.inr ⟨uid, op', rfl⟩
  | loadIdle =>
    simp only [exec] at h
    split at h
    · exact Or.inl (List.mem_singleton.mp h)
    · simp at h
  | _ => simp [exec] at h

theorem exec_added (self : BridgeHandle) (op : HandleOp) :
    ∀ next ∈ (op.exec self).2, next.isAdd = false ∧ next.isSub = false := by
  intro next h
  rcases mem_exec h with rfl | ⟨uid, op', rfl⟩ <;> exact ⟨rfl, rfl⟩

end HandleOp

/-! ## The bridge thread -/

/-- The handle and the rest of what the bridge thread is doing with it. -/
structure BridgeThread where
  handle : BridgeHandle
  todo : List HandleOp

inductive ThreadEvent where
  | created (uid : Nat) (index : Option Nat) (activePath : Option SocketAddr) (isServer : Bool)
  | callback (index : Option Nat) (cb : Callback)
  | closeEndpoint
  | exec

namespace BridgeThread

def new : BridgeThread := ⟨.new, []⟩

def start (t : BridgeThread) (endpointIsServer : Bool) : ThreadEvent → Option (List HandleOp)
  | .created uid index activePath isServer =>
    some (BridgeHandle.onConnCreatedOps endpointIsServer uid index activePath isServer)
  | .callback index cb => some (t.handle.callbackOps index cb)
  | .closeEndpoint => some [.storeClosed]
  | .exec => none

def step (endpointIsServer : Bool) (t : BridgeThread) (e : ThreadEvent) : Option BridgeThread :=
  match t.todo with
  | [] => (t.start endpointIsServer e).map fun ops => { t with todo := ops }
  | op :: todo =>
    match e with
    | .exec => some ⟨(op.exec t.handle).1, (op.exec t.handle).2 ++ todo⟩
    | _ => none

theorem step_exec {endpointIsServer : Bool} {t t' : BridgeThread}
    (h : t.step endpointIsServer .exec = some t') :
    ∃ op todo, t.todo = op :: todo ∧
      t' = ⟨(op.exec t.handle).1, (op.exec t.handle).2 ++ todo⟩ := by
  unfold step at h
  split at h
  · simp [start] at h
  · rename_i op todo htodo
    exact ⟨op, todo, htodo, (Option.some.inj h).symm⟩

theorem step_start {endpointIsServer : Bool} {t t' : BridgeThread} {e : ThreadEvent}
    (he : e ≠ .exec) (h : t.step endpointIsServer e = some t') :
    ∃ ops, t.todo = [] ∧ t.start endpointIsServer e = some ops ∧ t' = { t with todo := ops } := by
  unfold step at h
  split at h
  · rename_i htodo
    obtain ⟨ops, hops, rfl⟩ := Option.map_eq_some_iff.mp h
    exact ⟨ops, htodo, hops, rfl⟩
  · cases e <;> simp_all

end BridgeThread

end TokioTquic
