import TokioTquic.ConnNotify
import TokioTquic.Process

/-!
# `BridgeHandle` and the engine's connections

The state all handles of an endpoint share. `conn_states` holds `Arc`s: an index
leads to the name of a `ConnNotify`, and futures keep the name they looked up.
Every created connection makes a new one, so the name also serves as the serial
number of the connection. A callback is one step here.
-/

namespace TokioTquic
set_option autoImplicit false

universe u v
variable {κ : Type u} {ρ : Type v}

structure IncomingData where
  connId : Nat
  remoteAddr : SocketAddr
  deriving DecidableEq

/-- `incoming` is what the channel behind `incoming_rx` holds, each message with
the connection it is about. `idleWakes` counts the calls of `notify_waiters`. -/
structure BridgeHandle where
  incoming : List (Nat × IncomingData)
  connStates : Nat → Option Nat
  notifies : Nat → ConnNotify
  openConnections : Nat
  endpointClosed : Bool
  idleWakes : Nat

def fetchAdd (n : Nat) : Nat := (n + 1) % 2 ^ 64

/-- `fetch_sub(1)` on an `AtomicU64`; zero wraps. -/
def fetchSub : Nat → Nat
  | 0 => 2 ^ 64 - 1
  | n + 1 => n

def SharedOp.run (cn : ConnNotify) (op : SharedOp) : ConnNotify :=
  (op.exec cn).2.foldl (fun cn next => (next.exec cn).1) (op.exec cn).1

def Callback.run (cb : Callback) (cn : ConnNotify) : ConnNotify :=
  (cb.ops cn.isServer).foldl SharedOp.run cn

namespace BridgeHandle

def new : BridgeHandle where
  incoming := []
  connStates := fun _ => none
  notifies := fun _ => .new .unspecified
  openConnections := 0
  endpointClosed := false
  idleWakes := 0

def modifyNotify (self : BridgeHandle) (uid : Nat) (f : ConnNotify → ConnNotify) : BridgeHandle :=
  { self with notifies := Function.update self.notifies uid (f (self.notifies uid)) }

def closeReason (self : BridgeHandle) (connId : Nat) : Option ConnectionError :=
  (self.connStates connId).bind fun uid => (self.notifies uid).closed

/-- `on_conn_created`; `endpointIsServer` is the handler's own flag, `index` and
`activePath` what the connection answers. -/
def onConnCreated (self : BridgeHandle) (endpointIsServer : Bool) (uid : Nat) (index : Option Nat)
    (activePath : Option SocketAddr) (isServer : Bool) : BridgeHandle :=
  let connId := index.getD 0
  let remote := activePath.getD .unspecified
  { self with
    connStates := Function.update self.connStates connId (some uid)
    notifies := Function.update self.notifies uid (.created remote isServer)
    openConnections := fetchAdd self.openConnections
    incoming :=
      if endpointIsServer then self.incoming ++ [(uid, ⟨connId, remote⟩)] else self.incoming }

/-- What `on_conn_closed` does besides the connection's own `ConnNotify`. -/
def connGone (self : BridgeHandle) : BridgeHandle :=
  let n := fetchSub self.openConnections
  { self with
    openConnections := n
    idleWakes := if n = 0 then self.idleWakes + 1 else self.idleWakes }

/-- The other callbacks. Without an entry in `conn_states` the connection's part
is skipped. -/
def callback (self : BridgeHandle) (index : Option Nat) (cb : Callback) : BridgeHandle :=
  let self := match self.connStates (index.getD 0) with
    | some uid => self.modifyNotify uid cb.run
    | none => self
  match cb with
  | .onConnClosed _ => self.connGone
  | _ => self

end BridgeHandle

/-! ## The engine's side -/

/-- A connection in the slab; `reported` once `on_conn_closed` was called for it. -/
structure Slot (κ : Type u) where
  uid : Nat
  conn : κ
  reported : Bool

structure NewConn (κ : Type u) where
  index : Nat
  conn : κ
  activePath : Option SocketAddr

def connectError : TquicError → ConnectError
  | .invalidConfig text => .invalidDnsName text
  | _ => .endpointStopping

/-- `Connect` up to its reply. `configError` stands for `build_client_tls_config`
followed by `build_tquic_config`: the error they end with, if they do. -/
def connectOutcome {χ : Type} (configError : χ → Option ConnectError) (current : Option χ)
    (clientConfig : Option χ) (answer : Except TquicError (NewConn κ)) :
    Except ConnectError (NewConn κ) :=
  match (clientConfig.or current).bind configError with
  | some e => .error e
  | none =>
    match answer with
    | .ok new => .ok new
    | .error e => .error (connectError e)

/-- `CloseEndpoint` closes the connections that `conn_states` knows. -/
def closeKnown (T : Tquic κ) (connStates : Nat → Option Nat) (slab : Nat → Option (Slot κ))
    (code : Nat) (reason : Bytes) : Nat → Option (Slot κ) :=
  fun index =>
    match connStates index with
    | some _ => (slab index).map fun slot => { slot with conn := T.close slot.conn true code reason }
    | none => slab index

/-! ## The close reason -/

theorem SharedOp.run_closed (cn : ConnNotify) {op : SharedOp}
    (hop : ∀ error, op ≠ .sendClosed error) : (op.run cn).closed = cn.closed := by
  cases op with
  | sendClosed error => exact absurd rfl (hop error)
  | storeEstablished => rfl
  | wakeEstablish => rfl
  | getOrCreate h => exact ConnNotify.getOrCreate_closed cn h
  | notifyOne h => exact ConnNotify.modifyNotify_closed cn h _
  | get h =>
    simp only [run, exec]
    split
    · exact ConnNotify.modifyNotify_closed cn h _
    · rfl
  | queueAccept dir streamId => cases dir <;> rfl

theorem foldl_closed (ops : List SharedOp) (hops : ∀ op ∈ ops, ∀ error, op ≠ .sendClosed error) :
    ∀ cn : ConnNotify, (ops.foldl SharedOp.run cn).closed = cn.closed := by
  induction ops with
  | nil => exact fun _ => rfl
  | cons op ops ih =>
    intro cn
    rw [List.foldl_cons, ih fun o ho => hops o (List.mem_cons_of_mem _ ho)]
    exact SharedOp.run_closed cn (hops op List.mem_cons_self)

theorem Callback.run_closed {cb : Callback} (hcb : ∀ info, cb ≠ .onConnClosed info)
    (cn : ConnNotify) : (cb.run cn).closed = cn.closed := by
  apply foldl_closed
  intro op hop error heq
  subst heq
  cases cb with
  | onConnClosed info => exact hcb info rfl
  | onConnEstablished => simp [ops] at hop
  | onStreamReadable streamId => simp [ops] at hop
  | onStreamWritable streamId => simp [ops] at hop
  | onStreamClosed streamId => simp [ops] at hop
  | onStreamCreated streamId =>
    simp only [ops] at hop
    split at hop <;> simp at hop

/-! ## What no callback changes -/

theorem SharedOp.exec_isServer (cn : ConnNotify) (op : SharedOp) :
    (op.exec cn).1.isServer = cn.isServer := by
  cases op with
  | getOrCreate h => exact ConnNotify.getOrCreate_isServer cn h
  | notifyOne h => exact ConnNotify.modifyNotify_isServer cn h _
  | queueAccept dir streamId => cases dir <;> rfl
  | _ => rfl

theorem SharedOp.exec_remoteAddr (cn : ConnNotify) (op : SharedOp) :
    (op.exec cn).1.remoteAddr = cn.remoteAddr := by
  cases op with
  | getOrCreate h => exact ConnNotify.getOrCreate_remoteAddr cn h
  | notifyOne h => exact ConnNotify.modifyNotify_remoteAddr cn h _
  | queueAccept dir streamId => cases dir <;> rfl
  | _ => rfl

/-- What no single operation changes, no callback changes. -/
theorem Callback.run_keeps {α : Type} {f : ConnNotify → α}
    (hf : ∀ cn (op : SharedOp), f (op.exec cn).1 = f cn) (cb : Callback) (cn : ConnNotify) :
    f (cb.run cn) = f cn := by
  have hfold : ∀ (ops : List SharedOp) (cn : ConnNotify),
      f (ops.foldl (fun cn next => (next.exec cn).1) cn) = f cn := by
    intro ops
    induction ops with
    | nil => exact fun _ => rfl
    | cons op ops ih => exact fun cn => (ih _).trans (hf cn op)
  have hrun : ∀ (ops : List SharedOp) (cn : ConnNotify), f (ops.foldl SharedOp.run cn) = f cn := by
    intro ops
    induction ops with
    | nil => exact fun _ => rfl
    | cons op ops ih => exact fun cn => (ih _).trans ((hfold _ _).trans (hf cn op))
  exact hrun _ cn

namespace BridgeHandle

@[simp] theorem connGone_connStates (self : BridgeHandle) :
    self.connGone.connStates = self.connStates := rfl

@[simp] theorem connGone_incoming (self : BridgeHandle) :
    self.connGone.incoming = self.incoming := rfl

@[simp] theorem connGone_notifies (self : BridgeHandle) :
    self.connGone.notifies = self.notifies := rfl

theorem onConnCreated_notifies {α : Type} (f : ConnNotify → α) (self : BridgeHandle)
    (endpointIsServer : Bool) (uid : Nat) (index : Option Nat) (activePath : Option SocketAddr)
    (isServer : Bool) :
    (fun u => f ((self.onConnCreated endpointIsServer uid index activePath isServer).notifies u)) =
      Function.update (fun u => f (self.notifies u)) uid
        (f (.created (activePath.getD .unspecified) isServer)) := by
  funext u
  by_cases hu : u = uid
  · subst hu
    simp [onConnCreated]
  · simp [onConnCreated, hu]

theorem callback_frame (self : BridgeHandle) (index : Option Nat) (cb : Callback) :
    (self.callback index cb).connStates = self.connStates ∧
      (self.callback index cb).incoming = self.incoming ∧
      (self.callback index cb).notifies =
        match self.connStates (index.getD 0) with
        | some uid => (self.modifyNotify uid cb.run).notifies
        | none => self.notifies := by
  cases hindex : self.connStates (index.getD 0) with
  | none => cases cb <;> simp [callback, hindex]
  | some uid => cases cb <;> simp [callback, hindex, modifyNotify]

theorem callback_rest (self : BridgeHandle) (index : Option Nat) (cb : Callback) :
    (self.callback index cb).openConnections =
      (match cb with
        | .onConnClosed _ => fetchSub self.openConnections
        | _ => self.openConnections) ∧
    (self.callback index cb).endpointClosed = self.endpointClosed := by
  cases hindex : self.connStates (index.getD 0) <;> cases cb <;>
    simp [callback, hindex, connGone, modifyNotify]

theorem callback_notifies (self : BridgeHandle) (index : Option Nat) (cb : Callback) {uid : Nat}
    (huid : self.connStates (index.getD 0) ≠ some uid) :
    (self.callback index cb).notifies uid = self.notifies uid := by
  rw [(self.callback_frame index cb).2.2]
  split
  · rename_i u hu
    have hne : uid ≠ u := fun heq => huid (heq ▸ hu)
    simp [modifyNotify, hne]
  · rfl

theorem callback_closed (self : BridgeHandle) (index : Option Nat) {cb : Callback}
    (hcb : ∀ info, cb ≠ .onConnClosed info) (uid : Nat) :
    ((self.callback index cb).notifies uid).closed = (self.notifies uid).closed := by
  by_cases huid : self.connStates (index.getD 0) = some uid
  · rw [(self.callback_frame index cb).2.2, huid]
    simp only [modifyNotify, Function.update_self]
    exact Callback.run_closed hcb _
  · rw [callback_notifies self index cb huid]

theorem callback_keeps {α : Type} {f : ConnNotify → α}
    (hf : ∀ cn (op : SharedOp), f (op.exec cn).1 = f cn) (self : BridgeHandle)
    (index : Option Nat) (cb : Callback) (uid : Nat) :
    f ((self.callback index cb).notifies uid) = f (self.notifies uid) := by
  by_cases huid : self.connStates (index.getD 0) = some uid
  · rw [(self.callback_frame index cb).2.2, huid]
    simp only [modifyNotify, Function.update_self]
    exact Callback.run_keeps hf cb _
  · rw [callback_notifies self index cb huid]

end BridgeHandle

end TokioTquic
