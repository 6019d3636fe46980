import TokioTquic.HandleSteps
import TokioTquic.UserMove

/-!
# The engine's connections and what the handle keeps of them

The slab of the engine with the contents of its connections, and of each
`ConnNotify` the close reason and the address. Every event of the handles is one
of six events here, or none.
-/

namespace TokioTquic
open Async
set_option autoImplicit false

universe u
variable {κ : Type u} {χ ψ : Type}

/-- `closed` and `remoteAddr` are those of the `ConnNotify` of each connection. -/
structure Connections (κ : Type u) where
  slab : Nat → Option (Slot κ)
  connStates : Nat → Option Nat
  nextConn : Nat
  closed : Nat → Option ConnectionError
  remoteAddr : Nat → SocketAddr

inductive ConnectionsEvent (κ : Type u) where
  | created (new : NewConn κ)
  | engine (index : Nat) (conn : κ)
  | command (index : Nat) (cmd : ConnCommand Respond)
  | closeKnown (code : Nat) (reason : Bytes)
  | closed (index : Nat) (info : CloseInfo)
  | release (index : Nat)

namespace Connections

/-- What an event makes of the connection at an index. -/
def next (T : Tquic κ) (s : Connections κ) (index : Nat) (conn : κ) : ConnectionsEvent κ → κ
  | .engine i conn' => if index = i then conn' else conn
  | .command i cmd => if index = i then (processConnCommand T (some conn) cmd).1.getD conn else conn
  | .closeKnown code reason =>
    if (s.connStates index).isSome then T.close conn true code reason else conn
  | _ => conn

def step (T : Tquic κ) (s : Connections κ) (a : ConnectionsEvent κ) : Option (Connections κ) :=
  match a with
  | .created new =>
    match s.slab new.index with
    | some _ => none
    | none =>
      some {
        slab := Function.update s.slab new.index (some ⟨s.nextConn, new.conn, false⟩)
        connStates := Function.update s.connStates new.index (some s.nextConn)
        nextConn := s.nextConn + 1
        closed := Function.update s.closed s.nextConn none
        remoteAddr := Function.update s.remoteAddr s.nextConn
          (new.activePath.getD .unspecified) }
  | .closed index info =>
    match s.slab index with
    | some ⟨uid, conn, false⟩ =>
      some { s with
        slab := Function.update s.slab index (some ⟨uid, conn, true⟩)
        closed :=
          match s.connStates index with
          | some uid => Function.update s.closed uid (some info.error)
          | none => s.closed }
    | _ => none
  | .release index =>
    match s.slab index with
    | some ⟨_, _, true⟩ => some { s with slab := Function.update s.slab index none }
    | _ => none
  | a =>
    some { s with
      slab := fun index =>
        (s.slab index).map fun slot => { slot with conn := s.next T index slot.conn a } }

end Connections

namespace Handles

def connections (s : Handles κ χ ψ) : Connections κ where
  slab := s.slab
  connStates := s.handle.connStates
  nextConn := s.nextConn
  closed := fun uid => (s.handle.notifies uid).closed
  remoteAddr := fun uid => (s.handle.notifies uid).remoteAddr

def commandTask (configError : χ → Option ConnectError) (s : Handles κ χ ψ)
    (answer : Except TquicError (NewConn κ)) :
    BridgeCommand χ ψ Respond → Option (ConnectionsEvent κ)
  | .connect _ _ clientConfig _ =>
    match connectOutcome configError s.currentClientConfig clientConfig answer with
    | .ok new => some (.created new)
    | .error _ => none
  | .closeEndpoint code reason => some (.closeKnown code reason)
  | .onConn connId cmd => some (.command connId cmd)
  | _ => none

def task (configError : χ → Option ConnectError) (s : Handles κ χ ψ) :
    HandlesEvent κ χ ψ → Option (ConnectionsEvent κ)
  | .connCreated new _ => some (.created new)
  | .callback index (.onConnClosed info) => some (.closed index info)
  | .engine index conn => some (.engine index conn)
  | .release index => some (.release index)
  | .process answer =>
    match s.queue with
    | [] => none
    | (_, cmd) :: _ => s.commandTask configError answer cmd
  | _ => none

theorem UserMove.connections {s t : Handles κ χ ψ} (h : UserMove s t) :
    t.connections = s.connections := by
  have hclosed : ∀ uid, (t.handle.notifies uid).closed = (s.handle.notifies uid).closed := by
    intro uid
    obtain ⟨waker, bi, uni, heq⟩ := h.notifies uid
    rw [heq]
  have haddr : ∀ uid, (t.handle.notifies uid).remoteAddr = (s.handle.notifies uid).remoteAddr := by
    intro uid
    obtain ⟨waker, bi, uni, heq⟩ := h.notifies uid
    rw [heq]
  simp only [Handles.connections, h.slab, h.nextConn, hclosed, haddr]
  rw [h.handle]

theorem deliver_connections (s : Handles κ χ ψ) (uid : Option Nat) (x : Option (Respond × Reply)) :
    (s.deliver uid x).connections = s.connections := by
  obtain ⟨hslab, hnext, hhandle, _⟩ := s.deliver_frame uid x
  simp only [connections, hslab, hnext, hhandle]

theorem create_connections {T : Tquic κ} {s t : Handles κ χ ψ} {new : NewConn κ} {isServer : Bool}
    (h : s.create new isServer = some t) :
    s.connections.step T (.created new) = some t.connections := by
  unfold create at h
  split at h
  · cases h
  · rename_i hfree
    cases h
    have hclosed := s.handle.onConnCreated_notifies ConnNotify.closed s.isServer s.nextConn
      (some new.index) new.activePath isServer
    have haddr := s.handle.onConnCreated_notifies ConnNotify.remoteAddr s.isServer s.nextConn
      (some new.index) new.activePath isServer
    simp only [Connections.step, connections, hfree, hclosed, haddr]
    rfl

theorem callback_connections (s : Handles κ χ ψ) (index : Nat) {cb : Callback}
    (hcb : ∀ info, cb ≠ .onConnClosed info) :
    { s with handle := s.handle.callback (some index) cb }.connections = s.connections := by
  have hclosed := s.handle.callback_closed (some index) hcb
  have haddr := s.handle.callback_keeps SharedOp.exec_remoteAddr (some index) cb
  simp only [connections, hclosed, haddr, (s.handle.callback_frame (some index) cb).1]

theorem closed_connections {T : Tquic κ} {s t : Handles κ χ ψ} {index : Nat} {info : CloseInfo}
    (h : s.runCallback index (.onConnClosed info) = some t) :
    s.connections.step T (.closed index info) = some t.connections := by
  obtain ⟨⟨uid, conn, reported⟩, hslot, rfl, rfl⟩ := runCallback_closed h
  have haddr := s.handle.callback_keeps SharedOp.exec_remoteAddr (some index) (.onConnClosed info)
  obtain ⟨hstates, _, hnotifies⟩ := s.handle.callback_frame (some index) (.onConnClosed info)
  have hclosed : (fun u => ((s.handle.callback (some index) (.onConnClosed info)).notifies u).closed)
      = match s.handle.connStates index with
        | some uid =>
          Function.update (fun u => (s.handle.notifies u).closed) uid (some info.error)
        | none => fun u => (s.handle.notifies u).closed := by
    rw [hnotifies]
    cases hv : s.handle.connStates index with
    | none => simp only [Option.getD_some, hv]
    | some v =>
      funext u
      simp only [Option.getD_some, hv, BridgeHandle.modifyNotify]
      by_cases hu : u = v
      · subst hu
        simp [Callback.run, Callback.ops, SharedOp.run, SharedOp.exec]
      · simp [hu]
  simp only [Connections.step, connections, hslot, hclosed, haddr, hstates]

theorem onConn_connections (T : Tquic κ) (s : Handles κ χ ψ) (connId : Nat)
    (cmd : ConnCommand Respond) :
    s.connections.step T (.command connId cmd) = some (s.processOnConn T connId cmd).connections := by
  simp only [Connections.step, Option.some.injEq]
  unfold processOnConn
  split
  · rename_i slot hslot
    obtain ⟨c, hc⟩ := processConnCommand_some T slot.conn cmd
    rw [deliver_connections]
    simp only [connections, hc]
    congr 1
    funext index
    by_cases hi : index = connId
    · subst hi
      simp [hslot, Connections.next, hc]
    · simp [Connections.next, hi]
  · rename_i hnone
    rw [deliver_connections]
    simp only [connections]
    congr 1
    funext index
    by_cases hi : index = connId
    · subst hi
      simp [hnone]
    · simp [Connections.next, hi]

theorem closeKnown_connections (T : Tquic κ) (s : Handles κ χ ψ) (code : Nat) (reason : Bytes) :
    s.connections.step T (.closeKnown code reason) =
      some { s with
        handle := { s.handle with endpointClosed := true }
        slab := closeKnown T s.handle.connStates s.slab code reason }.connections := by
  simp only [Connections.step, connections, Option.some.injEq]
  congr 1
  funext index
  cases hindex : s.handle.connStates index with
  | none => simp [closeKnown, Connections.next, hindex]
  | some uid => simp [closeKnown, Connections.next, hindex]

theorem processCommand_connections {T : Tquic κ} {configError : χ → Option ConnectError}
    {s t : Handles κ χ ψ} {answer : Except TquicError (NewConn κ)}
    {cmd : BridgeCommand χ ψ Respond}
    (h : s.processCommand T configError answer cmd = some t) :
    match s.commandTask configError answer cmd with
    | some a => s.connections.step T a = some t.connections
    | none => t.connections = s.connections := by
  cases cmd with
  | connect addr serverName clientConfig respond =>
    simp only [processCommand] at h
    simp only [commandTask]
    generalize connectOutcome configError s.currentClientConfig clientConfig answer = outcome at h ⊢
    cases outcome with
    | ok new =>
      obtain ⟨t', ht', rfl⟩ := Option.map_eq_some_iff.mp h
      exact (create_connections ht').trans (congrArg some (deliver_connections _ _ _).symm)
    | error e =>
      cases h
      exact deliver_connections _ _ _
  | setServerConfig config =>
    cases h
    rfl
  | setDefaultClientConfig config =>
    cases h
    rfl
  | closeEndpoint code reason =>
    cases h
    exact closeKnown_connections T s code reason
  | acceptIncoming =>
    cases h
    rfl
  | onConn connId cmd =>
    cases h
    exact onConn_connections T s connId cmd

theorem connections_step {T : Tquic κ} {configError : χ → Option ConnectError}
    {s t : Handles κ χ ψ} {e : HandlesEvent κ χ ψ} (h : s.step T configError e = some t) :
    match s.task configError e with
    | some a => s.connections.step T a = some t.connections
    | none => t.connections = s.connections := by
  cases step_inv h with
  | connCreated hcreate => exact create_connections hcreate
  | callback hslot hcb =>
    rename_i index cb slot
    cases cb with
    | onConnClosed info => exact absurd rfl (hcb info)
    | _ => exact s.callback_connections index hcb
  | closed hslot hopen => exact closed_connections h
  | engine hslot =>
    rename_i index conn slot
    simp only [task, Connections.step, connections, Option.some.injEq]
    congr 1
    funext i
    by_cases hi : i = index
    · subst hi
      simp [hslot, Connections.next]
    · simp [hi, Connections.next]
  | release hslot hreported =>
    rename_i index slot
    obtain ⟨uid, conn, reported⟩ := slot
    obtain rfl : reported = true := hreported
    simp only [task, Connections.step, connections, hslot]
  | process hqueue hcmd =>
    simp only [task, hqueue]
    have hconns := processCommand_connections hcmd
    exact hconns
  | use hh huse => exact (useValue_move huse).connections
  | refused | connect | setDefaultClientConfig | setServerConfig | closeEndpoint | accept => rfl

end Handles

/-! ## The operations of the engine -/

/-- Every operation but `migrate_path` leads to a connection that `R` relates to the old one. -/
structure Tquic.Steps (T : Tquic κ) (R : κ → κ → Prop) : Prop where
  close : ∀ c app code reason, R c (T.close c app code reason)
  streamBidiNew : ∀ c, R c (T.streamBidiNew c).2
  streamUniNew : ∀ c, R c (T.streamUniNew c).2
  streamWrite : ∀ c streamId data fin, R c (T.streamWrite c streamId data fin).2
  streamRead : ∀ c streamId maxLen, R c (T.streamRead c streamId maxLen).2
  streamShutdown : ∀ c streamId direction code, R c (T.streamShutdown c streamId direction code)
  streamSetPriority : ∀ c streamId urgency incremental,
    R c (T.streamSetPriority c streamId urgency incremental)
  addPath : ∀ c l r, R c (T.addPath c l r).2
  abandonPath : ∀ c l r, R c (T.abandonPath c l r).2

theorem Tquic.Steps.command {T : Tquic κ} {R : κ → κ → Prop} (hT : T.Steps R)
    (hrefl : ∀ c, R c c) (c : κ) (cmd : ConnCommand Respond)
    (hmigrate : ∀ l r respond, cmd = .migratePath l r respond → R c (T.migratePath c l r).2) :
    R c ((processConnCommand T (some c) cmd).1.getD c) := by
  cases cmd with
  | refuseIncoming => exact hT.close c _ _ _
  | closeConnection code reason => exact hT.close c _ _ _
  | openBiStream respond => exact hT.streamBidiNew c
  | openUniStream respond => exact hT.streamUniNew c
  | streamWrite streamId data fin respond => exact hT.streamWrite c _ _ _
  | streamRead streamId maxLen respond => exact hT.streamRead c _ _
  | streamShutdownRead streamId code => exact hT.streamShutdown c _ _ _
  | streamShutdownWrite streamId code => exact hT.streamShutdown c _ _ _
  | streamSetPriority streamId urgency => exact hT.streamSetPriority c _ _ _
  | getRtt respond => exact hrefl c
  | addPath l r respond => exact hT.addPath c l r
  | abandonPath l r respond => exact hT.abandonPath c l r
  | migratePath l r respond => exact hmigrate l r respond rfl
  | getPathStats l r respond => exact hrefl c
  | getPaths respond => exact hrefl c

namespace Connections

/-- `conn_states` leads from an index to the connection there, until it is reported. -/
def Placed (s : Connections κ) : Prop :=
  ∀ index slot, s.slab index = some slot → slot.reported = false →
    s.connStates index = some slot.uid ∧ slot.uid < s.nextConn

theorem step_created {T : Tquic κ} {s t : Connections κ} {new : NewConn κ}
    (h : s.step T (.created new) = some t) :
    s.slab new.index = none ∧ t = {
      slab := Function.update s.slab new.index (some ⟨s.nextConn, new.conn, false⟩)
      connStates := Function.update s.connStates new.index (some s.nextConn)
      nextConn := s.nextConn + 1
      closed := Function.update s.closed s.nextConn none
      remoteAddr := Function.update s.remoteAddr s.nextConn
        (new.activePath.getD .unspecified) } := by
  simp only [step] at h
  split at h
  · cases h
  · rename_i hfree
    exact ⟨hfree, (Option.some.inj h).symm⟩

theorem step_closed {T : Tquic κ} {s t : Connections κ} {index : Nat} {info : CloseInfo}
    (h : s.step T (.closed index info) = some t) :
    ∃ slot, s.slab index = some slot ∧ slot.reported = false ∧ t = { s with
      slab := Function.update s.slab index (some { slot with reported := true })
      closed :=
        match s.connStates index with
        | some uid => Function.update s.closed uid (some info.error)
        | none => s.closed } := by
  simp only [step] at h
  split at h
  · rename_i uid conn hslot
    exact ⟨_, hslot, rfl, (Option.some.inj h).symm⟩
  · cases h

theorem step_other {T : Tquic κ} {s t : Connections κ} {a : ConnectionsEvent κ}
    (hcreated : ∀ new, a ≠ .created new) (hclosed : ∀ index info, a ≠ .closed index info)
    (h : s.step T a = some t) : ∃ slab, t = { s with slab := slab } := by
  cases a with
  | created new => exact absurd rfl (hcreated new)
  | closed index info => exact absurd rfl (hclosed index info)
  | release index =>
    simp only [step] at h
    split at h <;> cases h
    exact ⟨_, rfl⟩
  | engine index conn =>
    cases h
    exact ⟨_, rfl⟩
  | command index cmd =>
    cases h
    exact ⟨_, rfl⟩
  | closeKnown code reason =>
    cases h
    exact ⟨_, rfl⟩

theorem step_slot {T : Tquic κ} {s t : Connections κ} {a : ConnectionsEvent κ}
    (hstep : s.step T a = some t) {index : Nat} {slot' : Slot κ} (hslot' : t.slab index = some slot')
    (hopen : slot'.reported = false) :
    (∃ slot, s.slab index = some slot ∧ slot.reported = false ∧ slot'.uid = slot.uid ∧
      slot'.conn = s.next T index slot.conn a) ∨
    ∃ new, a = .created new ∧ index = new.index ∧ slot' = ⟨s.nextConn, new.conn, false⟩ := by
  have hmap : ∀ {f : Slot κ → κ}, (s.slab index).map (fun slot => { slot with conn := f slot }) =
      some slot' → ∃ slot, s.slab index = some slot ∧ slot.reported = false ∧
        slot'.uid = slot.uid ∧ slot'.conn = f slot := by
    intro f h
    obtain ⟨slot, hslot, rfl⟩ := Option.map_eq_some_iff.mp h
    exact ⟨slot, hslot, hopen, rfl, rfl⟩
  cases a with
  | created new =>
    obtain ⟨_, rfl⟩ := step_created hstep
    by_cases hi : index = new.index
    · subst hi
      simp only [Function.update_self, Option.some.injEq] at hslot'
      exact Or.inr ⟨new, rfl, rfl, hslot'.symm⟩
    · simp only [Function.update_of_ne hi] at hslot'
      exact Or.inl ⟨slot', hslot', hopen, rfl, rfl⟩
  | closed i info =>
    obtain ⟨_, _, _, rfl⟩ := step_closed hstep
    by_cases hi : index = i
    · subst hi
      simp only [Function.update_self, Option.some.injEq] at hslot'
      subst hslot'
      cases hopen
    · simp only [Function.update_of_ne hi] at hslot'
      exact Or.inl ⟨slot', hslot', hopen, rfl, rfl⟩
  | release i =>
    simp only [step] at hstep
    split at hstep <;> cases hstep
    by_cases hi : index = i
    · subst hi
      simp at hslot'
    · simp only [Function.update_of_ne hi] at hslot'
      exact Or.inl ⟨slot', hslot', hopen, rfl, rfl⟩
  | engine i conn =>
    cases hstep
    exact Or.inl (hmap hslot')
  | command i cmd =>
    cases hstep
    exact Or.inl (hmap hslot')
  | closeKnown code reason =>
    cases hstep
    exact Or.inl (hmap hslot')

theorem placed_step {T : Tquic κ} {s t : Connections κ} {a : ConnectionsEvent κ} (hs : s.Placed)
    (hstep : s.step T a = some t) : t.Placed := by
  intro index slot' hslot' hopen'
  rcases step_slot hstep hslot' hopen' with ⟨slot, hslot, hopen, huid, _⟩ | ⟨new, rfl, rfl, rfl⟩
  · obtain ⟨hstates, hlt⟩ := hs index slot hslot hopen
    rw [huid]
    by_cases hcreated : ∃ new, a = .created new
    · obtain ⟨new, rfl⟩ := hcreated
      obtain ⟨hfree, rfl⟩ := step_created hstep
      have hne : index ≠ new.index := by
        rintro rfl
        rw [hfree] at hslot
        cases hslot
      exact ⟨by simpa only [Function.update_of_ne hne] using hstates, Nat.lt_succ_of_lt hlt⟩
    · have hrest : t.connStates = s.connStates ∧ t.nextConn = s.nextConn := by
        by_cases hclosed : ∃ i info, a = .closed i info
        · obtain ⟨i, info, rfl⟩ := hclosed
          obtain ⟨_, _, _, rfl⟩ := step_closed hstep
          exact ⟨rfl, rfl⟩
        · obtain ⟨slab, rfl⟩ := step_other (fun new heq => hcreated ⟨new, heq⟩)
            (fun i info heq => hclosed ⟨i, info, heq⟩) hstep
          exact ⟨rfl, rfl⟩
      rw [hrest.1, hrest.2]
      exact ⟨hstates, hlt⟩
  · obtain ⟨_, rfl⟩ := step_created hstep
    exact ⟨Function.update_self .., Nat.lt_succ_self _⟩

end Connections

end TokioTquic
