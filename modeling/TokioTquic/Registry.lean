import TokioTquic.HandleSteps
import TokioTquic.UserMove

/-!
# The connections of an endpoint

What an endpoint keeps about its connections, without their contents: which are
live, which indices `conn_states` knows, the counter and the queue of `accept`.
Every event of the handles is one of four events here, or none.
-/

namespace TokioTquic
open Async
set_option autoImplicit false

universe u
variable {κ : Type u} {χ ψ : Type}

/-- `live` has a connection from `on_conn_created` to `on_conn_closed`. `next`
counts the connections, and `inbound` lists those of the server role. -/
structure Registry where
  isServer : Bool
  live : Nat → Option Nat
  known : Nat → Option Nat
  next : Nat
  inbound : List Nat
  openConnections : Nat
  incoming : List (Nat × IncomingData)
  closed : Bool

inductive RegistryEvent where
  | created (index : Nat) (remoteAddr : SocketAddr) (isServer : Bool)
  | closed (index : Nat)
  | accepted
  | stopped

namespace Registry

def init (isServer : Bool) : Registry where
  isServer := isServer
  live := fun _ => none
  known := fun _ => none
  next := 0
  inbound := []
  openConnections := 0
  incoming := []
  closed := false

def step (r : Registry) : RegistryEvent → Option Registry
  | .created index remoteAddr isServer =>
    match r.live index with
    | some _ => none
    | none =>
      some { r with
        live := Function.update r.live index (some r.next)
        known := Function.update r.known index (some r.next)
        next := r.next + 1
        inbound := if isServer then r.inbound ++ [r.next] else r.inbound
        openConnections := fetchAdd r.openConnections
        incoming :=
          if r.isServer then r.incoming ++ [(r.next, ⟨index, remoteAddr⟩)] else r.incoming }
  | .closed index =>
    match r.live index with
    | some _ =>
      some { r with
        live := Function.update r.live index none
        openConnections := fetchSub r.openConnections }
    | none => none
  | .accepted =>
    match r.closed, r.incoming with
    | false, _ :: incoming => some { r with incoming := incoming }
    | _, _ => none
  | .stopped => some { r with closed := true }

end Registry

namespace Handles

/-! ## The registry of the handles -/

def registry (s : Handles κ χ ψ) : Registry where
  isServer := s.isServer
  live := fun index =>
    (s.slab index).bind fun slot => if slot.reported then none else some slot.uid
  known := s.handle.connStates
  next := s.nextConn
  inbound := (List.range s.nextConn).filter fun uid => (s.handle.notifies uid).isServer
  openConnections := s.handle.openConnections
  incoming := s.handle.incoming
  closed := s.handle.endpointClosed

def commandEvent (configError : χ → Option ConnectError) (s : Handles κ χ ψ)
    (answer : Except TquicError (NewConn κ)) : BridgeCommand χ ψ Respond → Option RegistryEvent
  | .connect _ _ clientConfig _ =>
    match connectOutcome configError s.currentClientConfig clientConfig answer with
    | .ok new => some (.created new.index (new.activePath.getD .unspecified) false)
    | .error _ => none
  | .closeEndpoint _ _ => some .stopped
  | _ => none

/-- What an event is for the registry. -/
def registryEvent (configError : χ → Option ConnectError) (s : Handles κ χ ψ) :
    HandlesEvent κ χ ψ → Option RegistryEvent
  | .connCreated new isServer =>
    some (.created new.index (new.activePath.getD .unspecified) isServer)
  | .callback index (.onConnClosed _) => some (.closed index)
  | .process answer =>
    match s.queue with
    | [] => none
    | (_, cmd) :: _ => s.commandEvent configError answer cmd
  | .accept => some .accepted
  | _ => none

theorem live_registry {s : Handles κ χ ψ} {index uid : Nat} :
    s.registry.live index = some uid ↔
      ∃ slot, s.slab index = some slot ∧ slot.reported = false ∧ slot.uid = uid := by
  cases h : s.slab index with
  | none => simp [registry, h]
  | some slot => cases hr : slot.reported <;> simp [registry, h, hr]

/-! ## The user leaves it alone -/

theorem registry_congr {s t : Handles κ χ ψ} (hslab : t.slab = s.slab)
    (hnext : t.nextConn = s.nextConn) (hserver : t.isServer = s.isServer)
    (hhandle : t.handle = { s.handle with notifies := t.handle.notifies })
    (hrole : ∀ uid, (t.handle.notifies uid).isServer = (s.handle.notifies uid).isServer) :
    t.registry = s.registry := by
  simp only [registry, hslab, hnext, hserver, hrole]
  rw [hhandle]

theorem UserMove.registry {s t : Handles κ χ ψ} (h : UserMove s t) : t.registry = s.registry := by
  apply registry_congr h.slab h.nextConn h.isServer h.handle
  intro uid
  obtain ⟨waker, bi, uni, heq⟩ := h.notifies uid
  rw [heq]

/-! ## The bridge thread -/

theorem slab_registry (s : Handles κ χ ψ) {slab : Nat → Option (Slot κ)}
    (hslab : ∀ index, (slab index).map (fun slot => (slot.uid, slot.reported)) =
      (s.slab index).map fun slot => (slot.uid, slot.reported)) :
    ({ s with slab := slab } : Handles κ χ ψ).registry = s.registry := by
  have hlive : ∀ index, ({ s with slab := slab } : Handles κ χ ψ).registry.live index =
      s.registry.live index := by
    intro index
    have heq := hslab index
    cases hold : s.slab index <;> cases hnew : slab index <;> simp_all [registry]
  have hfun := funext hlive
  simp only [registry] at hfun ⊢
  rw [hfun]

theorem deliver_registry (s : Handles κ χ ψ) (uid : Option Nat) (x : Option (Respond × Reply)) :
    (s.deliver uid x).registry = s.registry := by
  unfold deliver
  split
  · split <;> rfl
  · rfl

theorem process_onConn_registry (T : Tquic κ) (s : Handles κ χ ψ) (connId : Nat)
    (cmd : ConnCommand Respond) : (s.processOnConn T connId cmd).registry = s.registry := by
  unfold processOnConn
  split
  · rename_i slot hslot
    obtain ⟨c, hc⟩ := processConnCommand_some T slot.conn cmd
    simp only [hc, deliver_registry]
    apply slab_registry
    intro index
    by_cases hi : index = connId
    · subst hi
      simp [hslot]
    · simp [hi]
  · exact deliver_registry _ _ _

theorem close_registry (T : Tquic κ) (s : Handles κ χ ψ) (code : Nat) (reason : Bytes) :
    ({ s with
      handle := { s.handle with endpointClosed := true }
      slab := closeKnown T s.handle.connStates s.slab code reason } : Handles κ χ ψ).registry =
      { s.registry with closed := true } := by
  have hslab := @slab_registry κ χ ψ s (closeKnown T s.handle.connStates s.slab code reason) (by
    intro index
    unfold closeKnown
    split
    · cases s.slab index <;> rfl
    · rfl)
  rw [← hslab]
  rfl

theorem create_registry {s t : Handles κ χ ψ} {new : NewConn κ} {isServer : Bool}
    (h : s.create new isServer = some t) :
    s.registry.step (.created new.index (new.activePath.getD .unspecified) isServer) =
      some t.registry := by
  unfold create at h
  split at h
  · cases h
  · rename_i hfree
    cases h
    have hnone : s.registry.live new.index = none := by simp [registry, hfree]
    have hlive : (fun index => (Function.update s.slab new.index
        (some ⟨s.nextConn, new.conn, false⟩) index).bind fun slot =>
          if slot.reported then none else some slot.uid) =
        Function.update s.registry.live new.index (some s.nextConn) := by
      funext index
      by_cases hi : index = new.index
      · subst hi
        simp
      · simp [hi, registry]
    have hinbound : ((List.range (s.nextConn + 1)).filter fun uid =>
        ((s.handle.onConnCreated s.isServer s.nextConn (some new.index) new.activePath
          isServer).notifies uid).isServer) =
        if isServer then s.registry.inbound ++ [s.nextConn] else s.registry.inbound := by
      have hold : ∀ uid ∈ List.range s.nextConn,
          ((s.handle.onConnCreated s.isServer s.nextConn (some new.index) new.activePath
            isServer).notifies uid).isServer = (s.handle.notifies uid).isServer := by
        intro uid huid
        have hne : uid ≠ s.nextConn := Nat.ne_of_lt (List.mem_range.mp huid)
        simp [BridgeHandle.onConnCreated, hne]
      rw [List.range_succ, List.filter_append, List.filter_congr hold]
      cases isServer <;> simp [BridgeHandle.onConnCreated, ConnNotify.created, registry]
    simp only [Registry.step, hnone, Option.some.injEq]
    simp only [registry, hlive, hinbound]
    rfl

theorem callback_role (self : BridgeHandle) (index : Option Nat) (cb : Callback) (uid : Nat) :
    ((self.callback index cb).notifies uid).isServer = (self.notifies uid).isServer :=
  self.callback_keeps SharedOp.exec_isServer index cb uid

theorem runCallback_registry {s t : Handles κ χ ψ} {index : Nat} {cb : Callback}
    (hcb : ∀ info, cb ≠ .onConnClosed info) (h : s.runCallback index cb = some t) :
    t.registry = s.registry := by
  unfold runCallback at h
  split at h
  · cases h
  · obtain ⟨hstates, hincoming, _⟩ := s.handle.callback_frame (some index) cb
    have hrole := callback_role s.handle (some index) cb
    have hcount : (s.handle.callback (some index) cb).openConnections =
        s.handle.openConnections ∧
        (s.handle.callback (some index) cb).endpointClosed = s.handle.endpointClosed := by
      cases cb with
      | onConnClosed info => exact absurd rfl (hcb info)
      | _ => exact s.handle.callback_rest (some index) _
    cases cb with
    | onConnClosed info => exact absurd rfl (hcb info)
    | _ =>
      cases h
      simp only [registry, hstates, hincoming, hrole, hcount]

theorem closed_registry {s t : Handles κ χ ψ} {index : Nat} {info : CloseInfo}
    (h : s.runCallback index (.onConnClosed info) = some t) :
    s.registry.step (.closed index) = some t.registry := by
  obtain ⟨slot, hslot, hopen, rfl⟩ := runCallback_closed h
  obtain ⟨hstates, hincoming, _⟩ := s.handle.callback_frame (some index) (.onConnClosed info)
  have hrole := callback_role s.handle (some index) (.onConnClosed info)
  obtain ⟨hcount, hclosed⟩ := s.handle.callback_rest (some index) (.onConnClosed info)
  have hsome : s.registry.live index = some slot.uid := live_registry.mpr ⟨slot, hslot, hopen, rfl⟩
  have hlive : (fun i => (Function.update s.slab index
      (some { slot with reported := true }) i).bind fun slot =>
        if slot.reported then none else some slot.uid) =
      Function.update s.registry.live index none := by
    funext i
    by_cases hi : i = index
    · subst hi
      simp
    · simp [hi, registry]
  simp only [Registry.step, hsome]
  simp only [registry, hlive, hstates, hincoming, hrole, hcount, hclosed]

theorem release_registry {s : Handles κ χ ψ} {index : Nat} {slot : Slot κ}
    (hslot : s.slab index = some slot) (hreported : slot.reported = true) :
    ({ s with slab := Function.update s.slab index none } : Handles κ χ ψ).registry =
      s.registry := by
  have hlive : (fun i => (Function.update s.slab index none i).bind fun slot =>
      if slot.reported then none else some slot.uid) = s.registry.live := by
    funext i
    by_cases hi : i = index
    · subst hi
      simp [registry, hslot, hreported]
    · simp [hi, registry]
  simp only [registry] at hlive ⊢
  rw [hlive]

theorem processCommand_registry {T : Tquic κ} {configError : χ → Option ConnectError}
    {s t : Handles κ χ ψ} {answer : Except TquicError (NewConn κ)}
    {cmd : BridgeCommand χ ψ Respond}
    (h : s.processCommand T configError answer cmd = some t) :
    match s.commandEvent configError answer cmd with
    | some a => s.registry.step a = some t.registry
    | none => t.registry = s.registry := by
  cases cmd with
  | connect addr serverName clientConfig respond =>
    simp only [processCommand] at h
    simp only [commandEvent]
    generalize connectOutcome configError s.currentClientConfig clientConfig answer = outcome at h ⊢
    cases outcome with
    | ok new =>
      obtain ⟨t', ht', rfl⟩ := Option.map_eq_some_iff.mp h
      exact (create_registry ht').trans (congrArg some (deliver_registry _ _ _).symm)
    | error e =>
      cases h
      exact deliver_registry _ _ _
  | setServerConfig config =>
    cases h
    rfl
  | setDefaultClientConfig config =>
    cases h
    rfl
  | closeEndpoint code reason =>
    cases h
    exact congrArg some (close_registry T s code reason).symm
  | acceptIncoming =>
    cases h
    rfl
  | onConn connId cmd =>
    cases h
    exact process_onConn_registry T s connId cmd

theorem registry_step {T : Tquic κ} {configError : χ → Option ConnectError} {s t : Handles κ χ ψ}
    {e : HandlesEvent κ χ ψ} (h : s.step T configError e = some t) :
    match s.registryEvent configError e with
    | some a => s.registry.step a = some t.registry
    | none => t.registry = s.registry := by
  cases step_inv h with
  | connCreated hcreate => exact create_registry hcreate
  | callback hslot hcb =>
    rename_i index cb slot
    cases cb with
    | onConnClosed info => exact absurd rfl (hcb info)
    | _ => exact runCallback_registry hcb h
  | closed hslot hopen => exact closed_registry h
  | engine hslot =>
    rename_i index conn slot
    apply slab_registry
    intro i
    by_cases hi : i = index
    · subst hi
      simp [hslot]
    · simp [hi]
  | release hslot hreported => exact release_registry hslot hreported
  | process hqueue hcmd =>
    simp only [registryEvent, hqueue]
    have hregistry := processCommand_registry hcmd
    exact hregistry
  | accept hopen hincoming =>
    simp [registryEvent, Registry.step, registry, add, setValue, hopen, hincoming]
  | use hh huse => exact (useValue_move huse).registry
  | refused | connect | setDefaultClientConfig | setServerConfig | closeEndpoint => rfl

theorem registry_reach {T : Tquic κ} {configError : χ → Option ConnectError}
    {guard : Handles κ χ ψ → HandlesEvent κ χ ψ → Prop} {s t : Handles κ χ ψ}
    (h : Reach (step T configError) guard s t) :
    Reach Registry.step Any s.registry t.registry := by
  induction h with
  | refl => exact .refl _
  | tail _ _ hstep ih =>
    have hevent := registry_step hstep
    split at hevent
    · exact ih.event _ trivial hevent
    · rw [hevent]
      exact ih

@[simp] theorem registry_init (isServer : Bool) :
    (init isServer : Handles κ χ ψ).registry = .init isServer := rfl

end Handles

end TokioTquic
