import TokioTquic.BridgeActs
import TokioTquic.Connections
import TokioTquic.Async.Simulation
import TokioTquic.Async.Slots

/-!
# One connection of an endpoint

What the handles of an endpoint show of one connection is the bridge thread of
that connection. Each event of the endpoint is a list of acts of the bridge that can be
read off the event: the commands the event sends to this connection and no others, its
own callbacks from begin to end, its commands in their order. An event about another
connection is no act at all.
-/

namespace TokioTquic
open Async
set_option autoImplicit false

universe u
variable {κ : Type u} {χ ψ : Type}

/-! ## Where a connection is -/

namespace Connections

/-- Each connection has one index, and all are older than the next one. -/
structure Housed (s : Connections κ) : Prop where
  old : ∀ index uid, s.connStates index = some uid → uid < s.nextConn
  one : OneSlot s.connStates

theorem Housed.fresh {s : Connections κ} (hs : s.Housed) (index : Nat) :
    s.connStates index ≠ some s.nextConn := by
  intro hindex
  have hlt := hs.old index s.nextConn hindex
  omega

theorem step_states {T : Tquic κ} {s t : Connections κ} {a : ConnectionsEvent κ}
    (hstep : s.step T a = some t) :
    (∃ new, a = .created new ∧ t.nextConn = s.nextConn + 1 ∧
      t.connStates = Function.update s.connStates new.index (some s.nextConn)) ∨
    (t.nextConn = s.nextConn ∧ t.connStates = s.connStates) := by
  by_cases hcreated : ∃ new, a = .created new
  · obtain ⟨new, rfl⟩ := hcreated
    obtain ⟨-, rfl⟩ := step_created hstep
    exact .inl ⟨new, rfl, rfl, rfl⟩
  · right
    by_cases hclosed : ∃ index info, a = .closed index info
    · obtain ⟨index, info, rfl⟩ := hclosed
      obtain ⟨_, _, _, rfl⟩ := step_closed hstep
      exact ⟨rfl, rfl⟩
    · obtain ⟨slab, rfl⟩ := step_other (fun new heq => hcreated ⟨new, heq⟩)
        (fun index info heq => hclosed ⟨index, info, heq⟩) hstep
      exact ⟨rfl, rfl⟩

theorem housed_step {T : Tquic κ} {s t : Connections κ} {a : ConnectionsEvent κ} (hs : s.Housed)
    (hstep : s.step T a = some t) : t.Housed := by
  rcases step_states hstep with ⟨new, -, hnext, hstates⟩ | ⟨hnext, hstates⟩
  · constructor
    · intro index uid huid
      rw [hstates] at huid
      by_cases hindex : index = new.index
      · subst hindex
        rw [Function.update_self] at huid
        cases huid
        omega
      · rw [Function.update_of_ne hindex] at huid
        have hlt := hs.old index uid huid
        omega
    · rw [hstates]
      exact hs.one.assign new.index hs.fresh
  · constructor
    · rw [hstates, hnext]
      exact hs.old
    · rw [hstates]
      exact hs.one

end Connections

namespace Handles

theorem housed_init (isServer : Bool) : (init isServer : Handles κ χ ψ).connections.Housed := by
  constructor
  · intro index uid huid
    cases huid
  · intro index index' uid huid
    cases huid

theorem housed_step {T : Tquic κ} {configError : χ → Option ConnectError} {s t : Handles κ χ ψ}
    {e : HandlesEvent κ χ ψ} (hs : s.connections.Housed) (hstep : s.step T configError e = some t) :
    t.connections.Housed := by
  have hconns := connections_step hstep
  split at hconns
  · exact Connections.housed_step hs hconns
  · rw [hconns]
    exact hs

theorem housed_reach {T : Tquic κ} {configError : χ → Option ConnectError} {isServer : Bool}
    {s : Handles κ χ ψ} (hs : Reach (step T configError) Any (init isServer) s) :
    s.connections.Housed := by
  apply hs.invariant _ (housed_init isServer)
  intro t e u ht _ hstep
  exact housed_step ht hstep

theorem housed_ne {s : Handles κ χ ψ} {index uid : Nat} (hs : s.connections.Housed)
    (hhome : s.handle.connStates index = some uid) : uid ≠ s.nextConn := by
  rintro rfl
  exact hs.fresh index hhome

/-! ## The view of a connection -/

def commandsFor (index : Nat) (queue : List (Option Nat × BridgeCommand χ ψ Respond)) :
    List (ConnCommand Respond) :=
  queue.filterMap fun x =>
    match x.2 with
    | .onConn connId cmd => if connId = index then some cmd else none
    | _ => none

/-- The bridge of the connection at `index`, whose `ConnNotify` is `uid`; between two events
of the handles no callback is running. -/
def bridge (s : Handles κ χ ψ) (index uid : Nat) : Bridge κ Respond where
  conn := (s.slab index).map (·.conn)
  queue := commandsFor index s.queue
  cn := s.handle.notifies uid
  todo := []

theorem bridge_deliver (s : Handles κ χ ψ) (index uid : Nat) (u : Option Nat)
    (x : Option (Respond × Reply)) : (s.deliver u x).bridge index uid = s.bridge index uid := by
  obtain ⟨hslab, _, hhandle, hqueue⟩ := s.deliver_frame u x
  simp only [bridge, hslab, hhandle, hqueue]

@[simp] theorem bridge_setValue (s : Handles κ χ ψ) (index uid id : Nat) (h : Option Handle) :
    (s.setValue id h).bridge index uid = s.bridge index uid := rfl

@[simp] theorem bridge_add (s : Handles κ χ ψ) (index uid : Nat) (h : Handle) :
    (s.add h).bridge index uid = s.bridge index uid := rfl

@[simp] theorem bridge_addHalves (s : Handles κ χ ψ) (index uid : Nat) (origin : Option Nat)
    (connId streamId : Nat) (send recv : Bool) :
    (s.addHalves origin connId streamId send recv).bridge index uid = s.bridge index uid := by
  cases send <;> cases recv <;> rfl

theorem bridge_send (s : Handles κ χ ψ) (index uid : Nat) (origin : Option Nat) (connId : Nat)
    (cmd : ConnCommand Respond) :
    (s.send origin connId cmd).bridge index uid =
      if connId = index then (s.bridge index uid).sendCmd cmd else s.bridge index uid := by
  by_cases hconn : connId = index
  · simp [send, bridge, commandsFor, Bridge.sendCmd, hconn]
  · simp [send, bridge, commandsFor, hconn]

theorem bridge_modifyNotify (s : Handles κ χ ψ) (index uid u : Nat) (f : ConnNotify → ConnNotify) :
    (s.modifyNotify u f).bridge index uid =
      if u = uid then { s.bridge index uid with cn := f (s.bridge index uid).cn }
      else s.bridge index uid := by
  by_cases hu : u = uid
  · subst hu
    simp [modifyNotify, BridgeHandle.modifyNotify, bridge]
  · have hne : uid ≠ u := fun heq => hu heq.symm
    simp [modifyNotify, BridgeHandle.modifyNotify, bridge, hu, hne]

theorem bridge_sendEndpoint (s : Handles κ χ ψ) (index uid : Nat)
    {cmd : BridgeCommand χ ψ Respond} (hcmd : ∀ connId c, cmd ≠ .onConn connId c) :
    (s.sendEndpoint cmd).bridge index uid = s.bridge index uid := by
  have hnone : commandsFor index [((none : Option Nat), cmd)] = [] := by
    cases cmd with
    | onConn connId c => exact absurd rfl (hcmd connId c)
    | _ => rfl
  have happend : commandsFor index (s.sendEndpoint cmd).queue =
      commandsFor index s.queue ++ commandsFor index [((none : Option Nat), cmd)] :=
    List.filterMap_append
  rw [hnone, List.append_nil] at happend
  simp only [bridge, happend]
  rfl

/-! ## What is seen of an event -/

end Handles

def SendStream.command (self : SendStream) (respond : Respond) : Op → Option (ConnCommand Respond)
  | .write data => some (.streamWrite self.streamId data false respond)
  | .finish | .drop => some (.streamWrite self.streamId [] true respond)
  | .reset errorCode => some (.streamShutdownWrite self.streamId errorCode.intoInner)
  | .setPriority priority =>
    some (.streamSetPriority self.streamId (max 0 (min priority 255)).toNat)
  | _ => none

def RecvStream.command (self : RecvStream) (respond : Respond) : Op → Option (ConnCommand Respond)
  | .read maxLen | .pollRead maxLen => some (.streamRead self.streamId maxLen respond)
  | .stop errorCode => some (.streamShutdownRead self.streamId errorCode.intoInner)
  | .drop => some (.streamShutdownRead self.streamId (VarInt.fromU32 0).intoInner)
  | _ => none

def OpenStream.command (self : OpenStream) (respond : Respond) : ConnCommand Respond :=
  match self.dir with
  | .bi => .openBiStream respond
  | .uni => .openUniStream respond

namespace Handles

/-- The command that an operation on a value sends to a connection, and the index it is for. -/
def sends (s : Handles κ χ ψ) (id : Nat) (v : Value) (op : Op) :
    Option (Nat × ConnCommand Respond) :=
  match v with
  | .incoming incomingId _ =>
    match op with
    | .refuse => some (incomingId, .refuseIncoming)
    | _ => none
  | .connection connId =>
    match op with
    | .close errorCode reason => some (connId, .closeConnection errorCode.intoInner reason)
    | .query q => some (connId, q.command (id, s.next))
    | _ => none
  | .openStream self =>
    match op with
    | .poll _ =>
      if self.rx.isSome || (s.handle.closeReason self.connId).isSome then none
      else some (self.connId, self.command (id, s.next))
    | _ => none
  | .sendStream self =>
    if self.finished then none
    else (self.command (id, s.next) op).map fun cmd => (self.connId, cmd)
  | .recvStream self _ =>
    if self.allDataRead then none
    else (self.command (id, s.next) op).map fun cmd => (self.connId, cmd)
  | _ => none

/-- What a poll of a future does to a `ConnNotify`: a `Connecting` leaves its waker while
nothing is decided, an accept future takes a stream that is there. -/
def tends (s : Handles κ χ ψ) (id : Nat) (v : Value) (op : Op) :
    Option (Nat × BridgeAct κ Respond) :=
  match v, op with
  | .connecting self, .poll _ =>
    match (Value.connecting self).connId.bind s.handle.connStates with
    | some uid =>
      if (s.handle.notifies uid).isEstablished || (s.handle.notifies uid).closed.isSome then none
      else some (uid, .register id)
    | none => none
  | .acceptStream ⟨dir, _, some uid⟩, .poll .recv =>
    if (s.handle.notifies uid).acceptQueue dir = [] then none else some (uid, .take dir)
  | _, _ => none

def seenSend (index : Nat) : Option (Nat × ConnCommand Respond) → List (BridgeAct κ Respond)
  | some (connId, cmd) => if connId = index then [.send cmd] else []
  | none => []

def seenTend (uid : Nat) : Option (Nat × BridgeAct κ Respond) → List (BridgeAct κ Respond)
  | some (u, act) => if u = uid then [act] else []
  | none => []

/-- What an event is for the connection at `index`, whose `ConnNotify` is `uid`. -/
def acts (T : Tquic κ) (index uid : Nat) (s : Handles κ χ ψ) :
    HandlesEvent κ χ ψ → List (BridgeAct κ Respond)
  | .callback i cb => if i = index then Bridge.callbackActs (s.handle.notifies uid) cb else []
  | .engine i conn => if i = index then [.event (.engine (some conn))] else []
  | .release i => if i = index then [.event (.engine none)] else []
  | .process _ =>
    match s.queue.head? with
    | some (_, .onConn connId _) => if connId = index then [.process] else []
    | some (_, .closeEndpoint code reason) =>
      match s.slab index with
      | some slot => [.event (.engine (some (T.close slot.conn true code reason)))]
      | none => []
    | _ => []
  | .use id op =>
    match s.values id with
    | some h => seenSend index (s.sends id h.value op) ++ seenTend uid (s.tends id h.value op)
    | none => []
  | _ => []

variable {T : Tquic κ} {configError : χ → Option ConnectError} {s t : Handles κ χ ψ}

/-- From `s` to `t` the connection sees the command `x` and the act `y`, where they are its own. -/
def Sees (T : Tquic κ) (index uid : Nat) (s t : Handles κ χ ψ)
    (x : Option (Nat × ConnCommand Respond)) (y : Option (Nat × BridgeAct κ Respond)) : Prop :=
  run (Bridge.act T) (s.bridge index uid) (seenSend index x ++ seenTend uid y) =
    some (t.bridge index uid)

/-! ## What a value is used for -/

section
variable {index uid id : Nat}

theorem Sees.nothing (h : t.bridge index uid = s.bridge index uid) :
    Sees T index uid s t none none := by
  simp only [Sees, seenSend, seenTend, List.append_nil, run, h]

theorem Sees.send (origin : Option Nat) {connId : Nat} {cmd : ConnCommand Respond}
    (h : t.bridge index uid = (s.send origin connId cmd).bridge index uid) :
    Sees T index uid s t (some (connId, cmd)) none := by
  rw [Sees, h, bridge_send]
  by_cases hconn : connId = index
  · simp [seenSend, seenTend, hconn, run, Bridge.act]
  · simp [seenSend, seenTend, hconn, run]

theorem Sees.tend {u : Nat} {act : BridgeAct κ Respond} {f : ConnNotify → ConnNotify}
    (hact : (s.bridge index u).act T act =
      some { s.bridge index u with cn := f (s.bridge index u).cn })
    (h : t.bridge index uid = (s.modifyNotify u f).bridge index uid) :
    Sees T index uid s t none (some (u, act)) := by
  rw [Sees, h, bridge_modifyNotify]
  by_cases hu : u = uid
  · subst hu
    simp [seenSend, seenTend, run, hact]
  · simp [seenSend, seenTend, hu, run]

theorem pollEstablished_sees (origin : Option Nat) {connId : Nat}
    {y : Option (Nat × BridgeAct κ Respond)}
    (hy : y = match s.handle.connStates connId with
      | some u =>
        if (s.handle.notifies u).isEstablished || (s.handle.notifies u).closed.isSome then none
        else some (u, .register id)
      | none => none) :
    Sees T index uid s (s.pollEstablished id origin connId) none y := by
  subst hy
  unfold pollEstablished
  cases hstates : s.handle.connStates connId with
  | none => exact .nothing rfl
  | some u =>
    simp only
    cases hestablished : (s.handle.notifies u).isEstablished with
    | true => exact .nothing rfl
    | false =>
      cases hclosed : (s.handle.notifies u).closed with
      | some error => exact .nothing rfl
      | none =>
        apply Sees.tend _ rfl
        simp [Bridge.act, bridge, hestablished, hclosed]

theorem pollConnecting_sees (origin : Option Nat) (self : Connecting) (branch : Branch) :
    Sees T index uid s (s.pollConnecting id origin self) none
      (s.tends id (.connecting self) (.poll branch)) := by
  obtain ⟨idRx, connId, remoteAddr⟩ := self
  cases connId with
  | some connId => exact pollEstablished_sees origin rfl
  | none =>
    rcases idRx with _ | _ | (e | connId)
    · exact .nothing rfl
    · exact .nothing rfl
    · exact .nothing rfl
    · exact pollEstablished_sees
        (s := s.setValue id (some ⟨origin, .connecting ⟨none, some connId, remoteAddr⟩⟩)) origin rfl

theorem pollOpen_sees (origin : Option Nat) (self : OpenStream) (branch : Branch) :
    Sees T index uid s (s.pollOpen id origin self)
      (s.sends id (.openStream self) (.poll branch)) none := by
  obtain ⟨dir, connId, rx⟩ := self
  rcases rx with _ | _ | (e | streamId)
  · cases hclosed : s.handle.closeReason connId with
    | some error =>
      simp only [pollOpen, sends, hclosed, Option.isSome_some, Bool.or_true, if_true]
      exact .nothing rfl
    | none =>
      simp only [pollOpen, sends, hclosed, Option.isSome_none, Bool.or_false]
      cases dir with
      | bi => exact .send origin rfl
      | uni => exact .send origin rfl
  · exact .nothing rfl
  · exact .nothing rfl
  · exact .nothing (bridge_addHalves _ _ _ _ _ _ _ _)

theorem pollAccept_sees (origin : Option Nat) (self : AcceptStream) (branch : Branch) :
    Sees T index uid s (s.pollAccept id origin self branch) none
      (s.tends id (.acceptStream self) (.poll branch)) := by
  obtain ⟨dir, connId, cn⟩ := self
  cases cn with
  | none =>
    apply Sees.nothing
    unfold pollAccept
    cases s.handle.connStates connId with
    | none => rfl
    | some u => rfl
  | some u =>
    cases branch with
    | closed =>
      apply Sees.nothing
      simp only [pollAccept]
      split
      · rfl
      · rfl
    | recv =>
      cases hqueue : (s.handle.notifies u).acceptQueue dir with
      | nil =>
        simp only [pollAccept, tends, hqueue, if_true]
        exact .nothing rfl
      | cons streamId queue =>
        simp only [pollAccept, tends, hqueue, reduceCtorEq, if_false]
        refine Sees.tend (f := fun cn => cn.setAcceptQueue queue dir) ?_ ?_
        · simp only [Bridge.act, bridge, hqueue]
        · rw [bridge_addHalves]
          rfl

theorem finish_sees (origin : Option Nat) {self : SendStream} {op : Op}
    (hop : self.command (id, s.next) op = some (.streamWrite self.streamId [] true (id, s.next)))
    (h : t.bridge index uid = (s.finish id origin self).bridge index uid) :
    Sees T index uid s t (s.sends id (.sendStream self) op) none := by
  simp only [sends, hop]
  cases hfinished : self.finished with
  | true =>
    apply Sees.nothing
    rw [h]
    simp [Handles.finish, SendStream.finish, hfinished]
  | false =>
    apply Sees.send origin
    rw [h]
    simp only [Handles.finish, SendStream.finish, hfinished]
    rfl

theorem stop_sees (origin : Option Nat) (errorCode : VarInt) {self : RecvStream}
    {rx : Option (Nat × Option (Except ReadError (Bytes × Bool)))} {op : Op}
    (hop : self.command (id, s.next) op =
      some (.streamShutdownRead self.streamId errorCode.intoInner))
    (h : t.bridge index uid = (s.stop id origin self errorCode).bridge index uid) :
    Sees T index uid s t (s.sends id (.recvStream self rx) op) none := by
  simp only [sends, hop]
  cases hread : self.allDataRead with
  | true =>
    apply Sees.nothing
    rw [h]
    simp [Handles.stop, RecvStream.stop, hread]
  | false =>
    apply Sees.send origin
    rw [h]
    simp only [Handles.stop, RecvStream.stop, hread]
    rfl

theorem dropValue_sees (origin : Option Nat) (v : Value) :
    Sees T index uid s (s.dropValue id origin v) (s.sends id v .drop) (s.tends id v .drop) := by
  cases v with
  | sendStream self => exact finish_sees origin rfl rfl
  | recvStream self rx => exact stop_sees origin (.fromU32 0) rfl rfl
  | acceptStream self =>
    obtain ⟨dir, connId, cn⟩ := self
    cases cn with
    | none => exact .nothing rfl
    | some u => exact .nothing rfl
  | _ => exact .nothing rfl

theorem useSend_sees {origin : Option Nat} {self : SendStream} {op : Op}
    (h : s.useSend id origin self op = some t) :
    Sees T index uid s t (s.sends id (.sendStream self) op) none := by
  cases op <;> simp only [useSend, reduceCtorEq] at h
  case finish =>
    cases h
    exact finish_sees origin rfl rfl
  all_goals
    cases hfinished : self.finished
    · simp only [hfinished, SendStream.reset, SendStream.setPriority] at h
      cases h
      simp only [sends, hfinished]
      exact .send origin rfl
    · simp only [hfinished, SendStream.reset, SendStream.setPriority] at h
      cases h
      simp only [sends, hfinished, if_true]
      exact .nothing rfl

theorem useRecv_sees {origin : Option Nat} {self : RecvStream}
    {rx : Option (Nat × Option (Except ReadError (Bytes × Bool)))} {op : Op}
    (h : s.useRecv id origin self rx op = some t) :
    Sees T index uid s t (s.sends id (.recvStream self rx) op) none := by
  cases op <;> simp only [useRecv, reduceCtorEq] at h
  case stop errorCode =>
    cases h
    exact stop_sees origin _ rfl rfl
  case onReply =>
    split at h
    · cases h
      cases hread : self.allDataRead
      · simp only [sends, hread]
        exact .nothing rfl
      · simp only [sends, hread, if_true]
        exact .nothing rfl
    · cases h
  all_goals
    cases hread : self.allDataRead
    · simp only [hread] at h
      cases h
      simp only [sends, hread]
      exact .send origin rfl
    · simp only [hread, if_true] at h
      cases h
      simp only [sends, hread, if_true]
      exact .nothing rfl

theorem useConnection_sees {origin : Option Nat} {connId : Nat} {op : Op}
    (h : s.useConnection id origin connId op = some t) :
    Sees T index uid s t (s.sends id (.connection connId) op) none := by
  cases op <;> simp only [useConnection, reduceCtorEq] at h <;> cases h
  case close errorCode reason => exact .send origin rfl
  case query q => exact .send origin rfl
  case clone => exact .nothing rfl
  case openStream dir => exact .nothing rfl
  case acceptStream dir => exact .nothing rfl

theorem useIncoming_sees {origin : Option Nat} {incomingId : Nat} {remoteAddr : SocketAddr}
    {op : Op} (h : s.useIncoming id origin incomingId remoteAddr op = some t) :
    Sees T index uid s t (s.sends id (.incoming incomingId remoteAddr) op) none := by
  cases op <;> simp only [useIncoming, reduceCtorEq] at h <;> cases h
  case refuse => exact .send origin rfl
  case accept =>
    apply Sees.nothing
    simp [bridge, commandsFor, Handles.setValue]

/-- An operation on a value sends the command it is for and no other, to the value's
connection, and touches no other `ConnNotify` than that. -/
theorem useValue_sees {h : Handle} {op : Op} (huse : s.useValue id h op = some t) :
    Sees T index uid s t (s.sends id h.value op) (s.tends id h.value op) := by
  obtain ⟨origin, v⟩ := h
  cases op with
  | drop =>
    cases huse
    exact dropValue_sees origin v
  | poll branch =>
    cases v <;> simp only [useValue, reduceCtorEq] at huse
    case connecting self =>
      cases huse
      exact pollConnecting_sees origin self branch
    case openStream self =>
      cases huse
      exact pollOpen_sees origin self branch
    case acceptStream self =>
      cases huse
      exact pollAccept_sees origin self branch
  | _ =>
    cases v <;> simp only [useValue, reduceCtorEq] at huse
    case incoming => exact useIncoming_sees huse
    case connection => exact useConnection_sees huse
    case sendStream => exact useSend_sees huse
    case recvStream => exact useRecv_sees huse

end

/-! ## Every event is acts of the bridge -/

theorem create_bridge {new : NewConn κ} {isServer : Bool} {index uid : Nat}
    (huid : uid ≠ s.nextConn) (hindex : index ≠ new.index)
    (hcreate : s.create new isServer = some t) : t.bridge index uid = s.bridge index uid := by
  unfold create at hcreate
  split at hcreate
  · cases hcreate
  · cases hcreate
    simp [bridge, BridgeHandle.onConnCreated, hindex, huid]

theorem callback_bridge {index uid : Nat} (hs : s.connections.Housed)
    (hhome : s.handle.connStates index = some uid) (i : Nat) (cb : Callback)
    {slab : Nat → Option (Slot κ)}
    (hslab : (slab index).map (·.conn) = (s.slab index).map (·.conn)) :
    run (Bridge.act T) (s.bridge index uid) (s.acts T index uid (.callback i cb)) =
      some ({ s with handle := s.handle.callback (some i) cb, slab := slab }.bridge index uid) := by
  by_cases hi : i = index
  · subst hi
    have hcn : (s.handle.callback (some i) cb).notifies uid = cb.run (s.handle.notifies uid) := by
      rw [(s.handle.callback_frame (some i) cb).2.2]
      simp only [Option.getD_some, hhome, BridgeHandle.modifyNotify, Function.update_self]
    simp only [acts, if_true, bridge, hcn, hslab]
    exact Bridge.callback_run (T := T) (b := s.bridge i uid) rfl cb
  · have hother : s.handle.connStates ((some i).getD 0) ≠ some uid := by
      intro huid
      exact hi (hs.one i index uid huid hhome)
    simp only [acts, hi, if_false, run, bridge, s.handle.callback_notifies (some i) cb hother, hslab]

theorem engine_bridge {index uid i : Nat} {slot : Slot κ} (hslot : s.slab i = some slot)
    (slot' : Option (Slot κ)) :
    run (Bridge.act T) (s.bridge index uid)
        (if i = index then [.event (.engine (slot'.map (·.conn)))] else []) =
      some ({ s with slab := Function.update s.slab i slot' }.bridge index uid) := by
  by_cases hi : i = index
  · subst hi
    simp only [if_true, run, Bridge.act, Bridge.step, bridge, hslot, Option.map_some,
      Option.bind_some, Function.update_self]
  · have hne : index ≠ i := fun heq => hi heq.symm
    simp only [hi, if_false, run, bridge, Function.update_of_ne hne]

theorem closeKnown_bridge {index uid : Nat} (code : Nat) (reason : Bytes)
    (hhome : s.handle.connStates index = some uid) :
    run (Bridge.act T) (s.bridge index uid)
        (match s.slab index with
          | some slot => [.event (.engine (some (T.close slot.conn true code reason)))]
          | none => []) =
      some ({ s with
        handle := { s.handle with endpointClosed := true }
        slab := closeKnown T s.handle.connStates s.slab code reason }.bridge index uid) := by
  cases hslot : s.slab index with
  | none => simp only [run, bridge, closeKnown, hhome, hslot, Option.map_none]
  | some slot =>
    simp only [run, Bridge.act, Bridge.step, bridge, closeKnown, hhome, hslot, Option.map_some,
      Option.bind_some]

theorem deliver_values_congr {s t : Handles κ χ ψ} (h : s.values = t.values) (uid : Option Nat)
    (x : Option (Respond × Reply)) : (s.deliver uid x).values = (t.deliver uid x).values := by
  unfold deliver
  rw [h]
  split
  · split
    · simp only [setValue, h]
    · exact h
  · exact h

/-- A command for the connection is taken by the bridge as `Bridge.process` takes it. -/
theorem onConn_bridge {index : Nat} (uid : Nat) {origin : Option Nat} {cmd : ConnCommand Respond}
    {queue : List (Option Nat × BridgeCommand χ ψ Respond)}
    (hqueue : s.queue = (origin, .onConn index cmd) :: queue) :
    ∃ reply, (s.bridge index uid).process T =
        some (cmd, ({ s with queue := queue }.processOnConn T index cmd).bridge index uid, reply) ∧
      ({ s with queue := queue }.processOnConn T index cmd).values = (s.deliver none reply).values ∧
      ∀ i, i ≠ index → ({ s with queue := queue }.processOnConn T index cmd).slab i = s.slab i := by
  have hcommands : (s.bridge index uid).queue = cmd :: commandsFor index queue := by
    simp [bridge, commandsFor, hqueue]
  cases hslot : s.slab index with
  | none =>
    refine ⟨(processConnCommand T none cmd).2, ?_, ?_, ?_⟩
    · simp only [processOnConn, hslot, bridge_deliver]
      simp only [Bridge.process, hcommands]
      simp only [bridge, hslot, Option.map_none, processConnCommand_none]
    · simp only [processOnConn, hslot]
      apply deliver_values_congr
      rfl
    · intro i hi
      simp only [processOnConn, hslot, (deliver_frame _ _ _).1]
  | some slot =>
    obtain ⟨conn, hconn⟩ := processConnCommand_some T slot.conn cmd
    refine ⟨(processConnCommand T (some slot.conn) cmd).2, ?_, ?_, ?_⟩
    · simp only [processOnConn, hslot, bridge_deliver]
      simp only [Bridge.process, hcommands]
      simp only [bridge, hslot, Option.map_some, hconn, Function.update_self]
    · simp only [processOnConn, hslot]
      apply deliver_values_congr
      rfl
    · intro i hi
      simp only [processOnConn, hslot, (deliver_frame _ _ _).1, Function.update_of_ne hi]

theorem onConn_other {index uid connId : Nat} (hconn : connId ≠ index) (cmd : ConnCommand Respond) :
    (s.processOnConn T connId cmd).bridge index uid = s.bridge index uid := by
  unfold processOnConn
  split
  · rw [bridge_deliver]
    simp only [bridge, Function.update_of_ne hconn.symm]
  · rw [bridge_deliver]

theorem processCommand_bridge {index uid : Nat} {answer : Except TquicError (NewConn κ)}
    {origin : Option Nat} {cmd : BridgeCommand χ ψ Respond}
    {queue : List (Option Nat × BridgeCommand χ ψ Respond)} (hs : s.connections.Housed)
    (hhome : s.handle.connStates index = some uid)
    (hkeeps : ¬ s.Creates configError index (.process answer))
    (hqueue : s.queue = (origin, cmd) :: queue)
    (hcmd : { s with queue := queue }.processCommand T configError answer cmd = some t) :
    run (Bridge.act T) (s.bridge index uid) (s.acts T index uid (.process answer)) =
      some (t.bridge index uid) := by
  have hpopped : (∀ connId c, cmd ≠ .onConn connId c) →
      { s with queue := queue }.bridge index uid = s.bridge index uid := by
    intro hno
    cases cmd with
    | onConn connId c => exact absurd rfl (hno connId c)
    | _ => simp [bridge, commandsFor, hqueue]
  simp only [acts, hqueue, List.head?_cons]
  cases cmd with
  | connect addr serverName clientConfig respond =>
    simp only [run, Option.some.injEq]
    rw [← hpopped (by simp)]
    simp only [processCommand] at hcmd
    split at hcmd
    · rename_i new hnew
      obtain ⟨u, hu, rfl⟩ := Option.map_eq_some_iff.mp hcmd
      have hindex : index ≠ new.index := by
        intro heq
        apply hkeeps
        exact ⟨origin, addr, serverName, clientConfig, respond, new,
          by rw [hqueue, List.head?_cons], hnew, heq.symm⟩
      rw [bridge_deliver,
        create_bridge (s := { s with queue := queue }) (housed_ne hs hhome) hindex hu]
    · cases hcmd
      rw [bridge_deliver]
  | closeEndpoint code reason =>
    cases hcmd
    rw [← hpopped (by simp)]
    exact closeKnown_bridge (s := { s with queue := queue }) code reason hhome
  | onConn connId c =>
    cases hcmd
    by_cases hconn : connId = index
    · subst hconn
      obtain ⟨reply, hprocess, -⟩ := onConn_bridge (T := T) uid hqueue
      simp only [if_true, run, Bridge.act, hprocess, Option.map_some, Option.bind_some]
    · have hskip : { s with queue := queue }.bridge index uid = s.bridge index uid := by
        simp [bridge, commandsFor, hqueue, hconn]
      simp only [hconn, if_false, run, onConn_other hconn, hskip]
  | setServerConfig config =>
    cases hcmd
    rw [← hpopped (by simp)]
    rfl
  | setDefaultClientConfig config =>
    cases hcmd
    rw [← hpopped (by simp)]
    rfl
  | acceptIncoming =>
    cases hcmd
    rw [← hpopped (by simp)]
    rfl

/-- Unless it gives the index away, an event is its acts for the connection's bridge. -/
theorem step_bridge {index uid : Nat} {e : HandlesEvent κ χ ψ} (hs : s.connections.Housed)
    (hhome : s.handle.connStates index = some uid) (hkeeps : ¬ s.Creates configError index e)
    (hstep : s.step T configError e = some t) :
    run (Bridge.act T) (s.bridge index uid) (s.acts T index uid e) =
      some (t.bridge index uid) := by
  have hsame : t.bridge index uid = s.bridge index uid →
      run (Bridge.act T) (s.bridge index uid) [] = some (t.bridge index uid) :=
    fun heq => congrArg some heq.symm
  cases step_inv hstep with
  | connCreated hcreate =>
    exact hsame (create_bridge (housed_ne hs hhome) (fun heq => hkeeps heq.symm) hcreate)
  | callback hslot hcb => exact callback_bridge hs hhome _ _ rfl
  | closed hslot hopen =>
    rename_i i info slot
    apply callback_bridge hs hhome i (.onConnClosed info)
    by_cases hi : index = i
    · subst hi
      simp only [Function.update_self, hslot, Option.map_some]
    · simp only [Function.update_of_ne hi]
  | engine hslot =>
    rename_i i conn slot
    exact engine_bridge hslot (some { slot with conn := conn })
  | release hslot hreported => exact engine_bridge hslot none
  | process hqueue hcmd => exact processCommand_bridge hs hhome hkeeps hqueue hcmd
  | refused hclosed => exact hsame rfl
  | connect hopen =>
    apply hsame
    rw [bridge_add, bridge_sendEndpoint s index uid (by simp)]
  | setDefaultClientConfig => exact hsame (bridge_sendEndpoint s index uid (by simp))
  | setServerConfig => exact hsame (bridge_sendEndpoint s index uid (by simp))
  | closeEndpoint => exact hsame (bridge_sendEndpoint s index uid (by simp))
  | accept hopen hincoming => exact hsame rfl
  | use hh huse =>
    simp only [acts, hh]
    exact useValue_sees huse

theorem commandTask_created {answer : Except TquicError (NewConn κ)} {origin : Option Nat}
    {cmd : BridgeCommand χ ψ Respond} {queue : List (Option Nat × BridgeCommand χ ψ Respond)}
    {new : NewConn κ} (hqueue : s.queue = (origin, cmd) :: queue)
    (htask : s.commandTask configError answer cmd = some (.created new)) :
    s.Creates configError new.index (.process answer) := by
  cases cmd with
  | connect addr serverName clientConfig respond =>
    simp only [commandTask] at htask
    split at htask
    · rename_i hnew
      cases htask
      exact ⟨origin, addr, serverName, clientConfig, respond, new,
        by rw [hqueue, List.head?_cons], hnew, rfl⟩
    · cases htask
  | _ => cases htask

theorem task_created {e : HandlesEvent κ χ ψ} {new : NewConn κ}
    (htask : s.task configError e = some (.created new)) : s.Creates configError new.index e := by
  cases e with
  | connCreated new' isServer =>
    cases htask
    rfl
  | process answer =>
    simp only [task] at htask
    split at htask
    · cases htask
    · rename_i hqueue
      exact commandTask_created hqueue htask
  | callback index cb => cases cb <;> cases htask
  | _ => cases htask

theorem step_home {index uid : Nat} {e : HandlesEvent κ χ ψ}
    (hhome : s.handle.connStates index = some uid) (hkeeps : ¬ s.Creates configError index e)
    (hstep : s.step T configError e = some t) : t.handle.connStates index = some uid := by
  have hconns := connections_step hstep
  split at hconns
  · rename_i a htask
    rcases Connections.step_states hconns with ⟨new, rfl, -, hstates⟩ | ⟨-, hstates⟩
    · have hindex : index ≠ new.index := by
        rintro rfl
        exact hkeeps (task_created htask)
      have hkept := congrFun hstates index
      rw [Function.update_of_ne hindex] at hkept
      exact hkept.trans hhome
    · exact (congrFun hstates index).trans hhome
  · exact (congrArg (fun v => v.connStates index) hconns).trans hhome

/-- While its index is not given away, a connection of an endpoint behaves as its own bridge
thread does: every run of the endpoint is for it the run of a bridge over the acts that are
read off the events, and its commands are handled by `Bridge.process`, with the same replies. -/
theorem bridge_simulates (T : Tquic κ) (configError : χ → Option ConnectError) (isServer : Bool)
    {s t : Handles κ χ ψ} (hs : Reach (step T configError) Any (init isServer) s) {index uid : Nat}
    (hhome : s.handle.connStates index = some uid) (es : List (HandlesEvent κ χ ψ))
    (hkeeps : Along (step T configError) (fun s e => ¬ s.Creates configError index e) s es)
    (hrun : run (step T configError) s es = some t) :
    run (Bridge.act T) (s.bridge index uid)
        (seen (step T configError) (acts T index uid) s es) = some (t.bridge index uid) ∧
    ∀ origin cmd queue answer, t.queue = (origin, .onConn index cmd) :: queue →
      ∃ u reply, t.step T configError (.process answer) = some u ∧
        (t.bridge index uid).process T = some (cmd, u.bridge index uid, reply) ∧
        u.values = (t.deliver none reply).values ∧ ∀ i, i ≠ index → u.slab i = t.slab i := by
  have hsim := run_simulates
    (fun u : Handles κ χ ψ => u.connections.Housed ∧ u.handle.connStates index = some uid)
    (fun u => u.bridge index uid) (acts T index uid) (by
      rintro u e v ⟨hu, huhome⟩ hkeeps hstep
      exact ⟨⟨housed_step hu hstep, step_home huhome hkeeps hstep⟩,
        step_bridge hu huhome hkeeps hstep⟩)
    es ⟨housed_reach hs, hhome⟩ hkeeps hrun
  refine ⟨hsim.2, ?_⟩
  intro origin cmd queue answer hqueue
  obtain ⟨reply, hprocess, hvalues, hslab⟩ := onConn_bridge (T := T) uid hqueue
  refine ⟨_, reply, ?_, hprocess, hvalues, hslab⟩
  simp only [step, Handles.process, hqueue, processCommand]

/-- A server accepts one of its two connections, waits for it, asks for its round-trip time and
closes it; the other one is established meanwhile. -/
def acceptRun : List (HandlesEvent Script Unit Unit) :=
  [.use 0 .accept, .process (.error .done), .use 0 (.poll .recv), .callback 1 .onConnEstablished,
    .use 0 (.poll .recv), .callback 2 .onConnEstablished, .use 1 (.query .rtt),
    .process (.error .done), .use 1 (.close (.fromU32 7) [])]

theorem bridge_simulates_accepted :
    ∃ s t u : Handles Script Unit Unit, ∃ reply,
      run (step Tquic.scripted fun _ => none) (init true)
        [.connCreated ⟨1, {}, none⟩ true, .connCreated ⟨2, {}, none⟩ true, .accept] = some s ∧
      run (step Tquic.scripted fun _ => none) s acceptRun = some t ∧
      run (Bridge.act Tquic.scripted) (s.bridge 1 0)
        [.register 0, .event (.callback .onConnEstablished), .event .exec, .event .exec,
          .send (.getRtt (1, 2)), .process, .send (.closeConnection 7 [])] =
        some (t.bridge 1 0) ∧
      t.step Tquic.scripted (fun _ => none) (.process (.error .done)) = some u ∧
      (t.bridge 1 0).process Tquic.scripted =
        some (.closeConnection 7 [], u.bridge 1 0, reply) := by
  obtain ⟨s, t, hs, hrun, hhome, hqueue, hkeeps, hseen⟩ :
      ∃ s t : Handles Script Unit Unit, run (step Tquic.scripted fun _ => none) (init true)
        [.connCreated ⟨1, {}, none⟩ true, .connCreated ⟨2, {}, none⟩ true, .accept] = some s ∧
      run (step Tquic.scripted fun _ => none) s acceptRun = some t ∧
      s.handle.connStates 1 = some 0 ∧
      t.queue = [(some 0, .onConn 1 (.closeConnection 7 []))] ∧
      Along (step Tquic.scripted fun _ => none)
        (fun s e => ¬ s.Creates (fun _ => none) 1 e) s acceptRun ∧
      seen (step Tquic.scripted fun _ => none) (acts Tquic.scripted 1 0) s acceptRun =
        [.register 0, .event (.callback .onConnEstablished), .event .exec, .event .exec,
          .send (.getRtt (1, 2)), .process, .send (.closeConnection 7 [])] := by
    refine ⟨_, _, rfl, rfl, rfl, rfl, ?_, rfl⟩
    refine ⟨fun h => h, ?_, fun h => h, fun h => h, fun h => h, fun h => h, fun h => h, ?_,
      fun h => h, trivial⟩
    · rintro ⟨_, _, _, _, _, _, h, -⟩
      cases h
    · rintro ⟨_, _, _, _, _, _, h, -⟩
      cases h
  obtain ⟨hacts, hcommands⟩ := bridge_simulates Tquic.scripted (fun _ => none) true
    (reach_any_of_run hs) hhome _ hkeeps hrun
  rw [hseen] at hacts
  obtain ⟨u, reply, hu, hprocess, -⟩ :=
    hcommands (some 0) (.closeConnection 7 []) [] (.error .done) hqueue
  exact ⟨s, t, u, reply, hs, hrun, hacts, hu, hprocess⟩

end Handles

end TokioTquic
