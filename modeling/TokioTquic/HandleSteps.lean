import TokioTquic.HandleCases
import TokioTquic.References

/-!
# What one event can do

Every event creates a connection, reports one closed, or passes references on.
-/

namespace TokioTquic
open Async
set_option autoImplicit false

universe u
variable {κ : Type u} {χ ψ : Type}

namespace Handles

/-! ## The user -/

theorem pollEstablished_narrows {s t : Handles κ χ ψ} (h : Narrows s t) (id : Nat)
    {origin : Option Nat} {connId : Nat} (hlic : s.Licensed origin connId) :
    Narrows s (t.pollEstablished id origin connId) := by
  unfold pollEstablished
  split
  · exact h
  · simp only
    split
    · exact h.add (known_of_licensed hlic fun i hi => by simpa [Value.connId, eq_comm] using hi)
    · split
      · exact h
      · exact h.modifyNotify _ fun _ => rfl

theorem pollConnecting_narrows {s : Handles κ χ ψ} {id : Nat} {origin : Option Nat}
    {self : Connecting} (hh : s.values id = some ⟨origin, .connecting self⟩) :
    Narrows s (s.pollConnecting id origin self) := by
  rcases self with ⟨idRx, connId, remoteAddr⟩
  unfold pollConnecting
  split
  · rename_i i hi
    simp only at hi
    subst hi
    exact pollEstablished_narrows (.refl s) id (licensed_value hh i rfl)
  · split
    · rename_i hnone _ i hrx
      simp only at hnone hrx
      subst hnone hrx
      have hlic := licensed_value hh i rfl
      apply pollEstablished_narrows _ id hlic
      apply (Narrows.refl s).put
      exact known_of_licensed hlic fun j hj => by simpa [Value.connId, eq_comm] using hj
    · exact .refl s

theorem pollOpen_narrows {s : Handles κ χ ψ} {id : Nat} {origin : Option Nat} {self : OpenStream}
    (hh : s.values id = some ⟨origin, .openStream self⟩) : Narrows s (s.pollOpen id origin self) := by
  have hlic : s.Licensed origin self.connId := licensed_value hh self.connId rfl
  have hgone : Narrows s (s.setValue id none) := (Narrows.refl s).clear id
  unfold pollOpen
  split
  · split
    · exact hgone
    · apply ((Narrows.refl s).put id _).send hlic
      exact known_of_licensed hlic fun i hi => by simpa [Value.connId, eq_comm] using hi
  · exact .refl s
  · exact hgone.addHalves hlic _ _ _
  · exact hgone

theorem pollAccept_narrows {s : Handles κ χ ψ} {id : Nat} {origin : Option Nat}
    {self : AcceptStream} (hh : s.values id = some ⟨origin, .acceptStream self⟩) (branch : Branch) :
    Narrows s (s.pollAccept id origin self branch) := by
  have hlic : s.Licensed origin self.connId := licensed_value hh self.connId rfl
  have hgone : Narrows s (s.setValue id none) := (Narrows.refl s).clear id
  unfold pollAccept
  split
  · split
    · exact hgone
    · apply (Narrows.refl s).put
      exact known_of_licensed hlic fun i hi => by simpa [Value.connId, eq_comm] using hi
  · cases branch with
    | closed =>
      simp only
      split
      · exact hgone
      · exact .refl s
    | recv =>
      simp only
      split
      · exact .refl s
      · refine (hgone.modifyNotify _ fun cn => ?_).addHalves hlic _ _ _
        cases self.dir <;> rfl

theorem licensed_send {s : Handles κ χ ψ} {id : Nat} {origin : Option Nat} {self : SendStream}
    (hh : s.values id = some ⟨origin, .sendStream self⟩) (hopen : self.finished = false) :
    s.Licensed origin self.connId :=
  licensed_value hh self.connId (by simp [Value.connId, hopen])

theorem licensed_recv {s : Handles κ χ ψ} {id : Nat} {origin : Option Nat} {self : RecvStream}
    {rx : Option (Nat × Option (Except ReadError (Bytes × Bool)))}
    (hh : s.values id = some ⟨origin, .recvStream self rx⟩) (hopen : self.allDataRead = false) :
    s.Licensed origin self.connId :=
  licensed_value hh self.connId (by simp [Value.connId, hopen])

theorem finish_narrows {s : Handles κ χ ψ} {id : Nat} {origin : Option Nat} {self : SendStream}
    (hh : s.values id = some ⟨origin, .sendStream self⟩) : Narrows s (s.finish id origin self) := by
  by_cases hfin : self.finished = true
  · simp only [finish, SendStream.finish, hfin]
    exact .refl s
  · have hopen : self.finished = false := by simpa using hfin
    simp only [finish, SendStream.finish, hopen]
    apply ((Narrows.refl s).put id _).send (licensed_send hh hopen)
    exact known_of_mute (by simp [Value.connId])

theorem stop_narrows {s : Handles κ χ ψ} {id : Nat} {origin : Option Nat} {self : RecvStream}
    {rx : Option (Nat × Option (Except ReadError (Bytes × Bool)))}
    (hh : s.values id = some ⟨origin, .recvStream self rx⟩) (errorCode : VarInt) :
    Narrows s (s.stop id origin self errorCode) := by
  by_cases hfin : self.allDataRead = true
  · simp only [stop, RecvStream.stop, hfin]
    exact .refl s
  · have hopen : self.allDataRead = false := by simpa using hfin
    simp only [stop, RecvStream.stop, hopen]
    apply ((Narrows.refl s).put id _).send (licensed_recv hh hopen)
    exact known_of_mute (by simp [Value.connId])

theorem dropValue_narrows {s : Handles κ χ ψ} {id : Nat} {h : Handle}
    (hh : s.values id = some h) : Narrows s (s.dropValue id h.origin h.value) := by
  rcases h with ⟨origin, value⟩
  cases value with
  | sendStream self => exact (finish_narrows hh).clear id
  | recvStream self rx => exact (stop_narrows hh _).clear id
  | incoming incomingId remoteAddr => exact (Narrows.refl s).clear id
  | connecting self => exact (Narrows.refl s).clear id
  | connection connId => exact (Narrows.refl s).clear id
  | openStream self => exact (Narrows.refl s).clear id
  | acceptStream self => exact (Narrows.refl s).clear id

theorem useSend_narrows {s t : Handles κ χ ψ} {id : Nat} {origin : Option Nat} {self : SendStream}
    (hh : s.values id = some ⟨origin, .sendStream self⟩) {op : Op}
    (hstep : s.useSend id origin self op = some t) : Narrows s t := by
  cases op with
  | write data =>
    simp only [useSend] at hstep
    split at hstep
    · cases hstep
      exact .refl s
    · rename_i hopen
      cases hstep
      exact (Narrows.refl s).send (licensed_send hh (by simpa using hopen)) _
  | finish =>
    cases hstep
    exact finish_narrows hh
  | reset errorCode =>
    by_cases hfin : self.finished = true
    · simp only [useSend, SendStream.reset, hfin] at hstep
      cases hstep
      exact .refl s
    · have hopen : self.finished = false := by simpa using hfin
      simp only [useSend, SendStream.reset, hopen] at hstep
      cases hstep
      apply ((Narrows.refl s).put id _).send (licensed_send hh hopen)
      exact known_of_mute (by simp [Value.connId])
  | setPriority priority =>
    by_cases hfin : self.finished = true
    · simp only [useSend, SendStream.setPriority, hfin] at hstep
      cases hstep
      exact .refl s
    · have hopen : self.finished = false := by simpa using hfin
      simp only [useSend, SendStream.setPriority, hopen] at hstep
      cases hstep
      exact (Narrows.refl s).send (licensed_send hh hopen) _
  | _ => simp [useSend] at hstep

theorem onReply_keeps (self : RecvStream) (buf : Bytes)
    (reply : Option (Except ReadError (Bytes × Bool))) :
    (self.onReply buf reply).1.connId = self.connId ∧
      ((self.onReply buf reply).1.allDataRead = false → self.allDataRead = false) := by
  unfold RecvStream.onReply
  split
  · exact ⟨rfl, fun h => h⟩
  · exact ⟨rfl, fun h => h⟩
  · split
    · exact ⟨rfl, fun h => h⟩
    · simp only
      split
      · exact ⟨rfl, fun h => by simp at h⟩
      · exact ⟨rfl, fun h => h⟩

theorem useRecv_narrows {s t : Handles κ χ ψ} {id : Nat} {origin : Option Nat} {self : RecvStream}
    {rx : Option (Nat × Option (Except ReadError (Bytes × Bool)))}
    (hh : s.values id = some ⟨origin, .recvStream self rx⟩) {op : Op}
    (hstep : s.useRecv id origin self rx op = some t) : Narrows s t := by
  have hread : ∀ rx' cmd, self.allDataRead = false →
      Narrows s ((s.setValue id (some ⟨origin, .recvStream self rx'⟩)).send origin self.connId cmd) := by
    intro rx' cmd hopen
    have hlic := licensed_recv hh hopen
    apply ((Narrows.refl s).put id _).send hlic
    exact known_of_licensed hlic fun i hi => by simpa [Value.connId, hopen, eq_comm] using hi
  cases op with
  | read maxLen =>
    simp only [useRecv] at hstep
    split at hstep
    · cases hstep
      exact .refl s
    · rename_i hopen
      cases hstep
      exact hread _ _ (by simpa using hopen)
  | pollRead maxLen =>
    simp only [useRecv] at hstep
    split at hstep
    · cases hstep
      exact .refl s
    · rename_i hopen
      cases hstep
      exact hread _ _ (by simpa using hopen)
  | onReply =>
    simp only [useRecv] at hstep
    split at hstep
    · rename_i m reply
      cases hstep
      apply (Narrows.refl s).put
      obtain ⟨hconn, hopen⟩ := onReply_keeps self [] (some reply)
      intro i hi
      have hcases : (self.onReply [] (some reply)).1.allDataRead = false ∧
          (self.onReply [] (some reply)).1.connId = i := by simpa [Value.connId] using hi
      obtain rfl := hconn.symm.trans hcases.2
      exact licensed_recv hh (hopen hcases.1)
    · simp at hstep
  | stop errorCode =>
    cases hstep
    exact stop_narrows hh errorCode
  | _ => simp [useRecv] at hstep

theorem useConnection_narrows {s t : Handles κ χ ψ} {id connId : Nat} {origin : Option Nat}
    (hh : s.values id = some ⟨origin, .connection connId⟩) {op : Op}
    (hstep : s.useConnection id origin connId op = some t) : Narrows s t := by
  have hlic : s.Licensed origin connId := licensed_value hh connId rfl
  cases op with
  | clone =>
    cases hstep
    exact (Narrows.refl s).add (licensed_value hh)
  | close errorCode reason =>
    cases hstep
    exact (Narrows.refl s).send hlic _
  | query q =>
    cases hstep
    exact (Narrows.refl s).send hlic _
  | openStream dir =>
    cases hstep
    exact (Narrows.refl s).add
      (known_of_licensed hlic fun i hi => by simpa [Value.connId, eq_comm] using hi)
  | acceptStream dir =>
    cases hstep
    exact (Narrows.refl s).add
      (known_of_licensed hlic fun i hi => by simpa [Value.connId, eq_comm] using hi)
  | _ => simp [useConnection] at hstep

theorem useIncoming_narrows {s t : Handles κ χ ψ} {id incomingId : Nat} {origin : Option Nat}
    {remoteAddr : SocketAddr} (hh : s.values id = some ⟨origin, .incoming incomingId remoteAddr⟩)
    {op : Op} (hstep : s.useIncoming id origin incomingId remoteAddr op = some t) :
    Narrows s t := by
  have hlic : s.Licensed origin incomingId := licensed_value hh incomingId rfl
  cases op with
  | accept =>
    cases hstep
    refine Narrows.enqueue ((Narrows.refl s).put id ?_) rfl rfl rfl rfl rfl (Or.inl rfl)
    exact known_of_licensed hlic fun i hi => by simpa [Value.connId, eq_comm] using hi
  | refuse =>
    cases hstep
    exact ((Narrows.refl s).clear id).send hlic _
  | _ => simp [useIncoming] at hstep

theorem useValue_narrows {s t : Handles κ χ ψ} {id : Nat} {h : Handle}
    (hh : s.values id = some h) {op : Op} (hstep : s.useValue id h op = some t) :
    Narrows s t := by
  rcases h with ⟨origin, value⟩
  unfold useValue at hstep
  split at hstep
  case h_1 =>
    cases hstep
    exact dropValue_narrows hh
  case h_2 branch =>
    cases value with
    | connecting self =>
      cases hstep
      exact pollConnecting_narrows hh
    | openStream self =>
      cases hstep
      exact pollOpen_narrows hh
    | acceptStream self =>
      cases hstep
      exact pollAccept_narrows hh branch
    | _ => simp at hstep
  case h_3 =>
    cases value with
    | incoming incomingId remoteAddr => exact useIncoming_narrows hh hstep
    | connection connId => exact useConnection_narrows hh hstep
    | sendStream self => exact useSend_narrows hh hstep
    | recvStream self rx => exact useRecv_narrows hh hstep
    | _ => simp at hstep

/-! ## The engine and the bridge thread -/

theorem slab_narrows {s : Handles κ χ ψ} (slab : Nat → Option (Slot κ))
    (hslab : ∀ index slot', slab index = some slot' → ∃ slot, s.slab index = some slot ∧
      slot.uid = slot'.uid ∧ slot.reported = slot'.reported) :
    Narrows s { s with slab := slab } :=
  ⟨hslab, rfl, rfl, fun _ => rfl, fun _ _ h => h, fun _ _ h => Or.inl h⟩

theorem update_narrows {s : Handles κ χ ψ} {index : Nat} {slot : Slot κ}
    (hslot : s.slab index = some slot) (conn : Option κ) :
    Narrows s { s with
      slab := Function.update s.slab index (conn.map fun c => { slot with conn := c }) } := by
  apply slab_narrows
  intro i slot' h
  by_cases hi : i = index
  · subst hi
    rw [Function.update_self] at h
    obtain ⟨c, _, rfl⟩ := Option.map_eq_some_iff.mp h
    exact ⟨slot, hslot, rfl, rfl⟩
  · rw [Function.update_of_ne hi] at h
    exact ⟨slot', h, rfl, rfl⟩

theorem closeKnown_narrows {T : Tquic κ} (s : Handles κ χ ψ) (code : Nat) (reason : Bytes) :
    Narrows s { s with
      handle := { s.handle with endpointClosed := true }
      slab := closeKnown T s.handle.connStates s.slab code reason } := by
  have hslab := @slab_narrows κ χ ψ s (closeKnown T s.handle.connStates s.slab code reason) (by
    intro index slot' h
    unfold closeKnown at h
    split at h
    · obtain ⟨slot, hslot, rfl⟩ := Option.map_eq_some_iff.mp h
      exact ⟨slot, hslot, rfl, rfl⟩
    · exact ⟨slot', h, rfl, rfl⟩)
  exact ⟨hslab.slab, rfl, rfl, fun _ => rfl, hslab.refers, hslab.queue⟩

theorem processOnConn_narrows {T : Tquic κ} {s t : Handles κ χ ψ} (h : Narrows s t) (connId : Nat)
    (cmd : ConnCommand Respond) : Narrows s (t.processOnConn T connId cmd) := by
  unfold processOnConn
  split
  · rename_i slot hslot
    exact (h.trans (update_narrows hslot _)).deliver _
  · exact h.deliver _

theorem pop_narrows {s : Handles κ χ ψ} {origin : Option Nat}
    {cmd : BridgeCommand χ ψ Respond} {queue : List (Option Nat × BridgeCommand χ ψ Respond)}
    (hqueue : s.queue = (origin, cmd) :: queue) : Narrows s { s with queue := queue } := by
  refine ⟨fun _ slot' h => ⟨slot', h, rfl, rfl⟩, rfl, rfl, fun _ => rfl, ?_, ?_⟩
  · rintro uid connId (⟨c, hc⟩ | hincoming | hvalue)
    · exact Or.inl ⟨c, hqueue ▸ List.mem_cons_of_mem _ hc⟩
    · exact Or.inr (Or.inl hincoming)
    · exact Or.inr (Or.inr hvalue)
  · exact fun uid c hc => Or.inl (hqueue ▸ List.mem_cons_of_mem _ hc)

def Created (s t : Handles κ χ ψ) (new : NewConn κ) : Prop :=
  ∃ isServer t' x, s.create new isServer = some t' ∧ t = t'.deliver (some s.nextConn) x ∧
    ∀ respond connId, x = some (respond, .connected (.ok connId)) → connId = new.index

theorem process_cases {T : Tquic κ} {configError : χ → Option ConnectError} {s t : Handles κ χ ψ}
    {answer : Except TquicError (NewConn κ)} (hstep : s.process T configError answer = some t) :
    Narrows s t ∨ ∃ s' new, Narrows s s' ∧ Created s' t new ∧
      s.Creates configError new.index (.process answer) := by
  unfold process at hstep
  split at hstep
  · simp at hstep
  · rename_i origin cmd queue hqueue
    have hpop := pop_narrows hqueue
    cases cmd with
    | connect addr serverName clientConfig respond =>
      simp only [processCommand] at hstep
      split at hstep
      · rename_i new hnew
        obtain ⟨t', ht', rfl⟩ := Option.map_eq_some_iff.mp hstep
        refine Or.inr ⟨_, new, hpop, ⟨false, t', _, ht', rfl, ?_⟩, ?_⟩
        · intro respond' connId hx
          exact (by simpa using hx : respond = respond' ∧ new.index = connId).2.symm
        · exact ⟨origin, addr, serverName, clientConfig, respond, new, by simp [hqueue], hnew, rfl⟩
      · cases hstep
        exact Or.inl (hpop.deliver _)
    | setServerConfig config =>
      cases hstep
      exact Or.inl hpop
    | setDefaultClientConfig config =>
      cases hstep
      exact Or.inl ⟨hpop.slab, hpop.nextConn, hpop.connStates, hpop.closed, hpop.refers, hpop.queue⟩
    | closeEndpoint code reason =>
      cases hstep
      exact Or.inl (hpop.trans (closeKnown_narrows _ code reason))
    | acceptIncoming =>
      cases hstep
      exact Or.inl hpop
    | onConn connId cmd =>
      cases hstep
      exact Or.inl (processOnConn_narrows hpop connId cmd)

theorem callback_narrows {s : Handles κ χ ψ} (index : Nat) {cb : Callback}
    (hcb : ∀ info, cb ≠ .onConnClosed info) :
    Narrows s { s with handle := s.handle.callback (some index) cb } := by
  obtain ⟨hstates, hincoming, _⟩ := s.handle.callback_frame (some index) cb
  refine ⟨fun _ slot' h => ⟨slot', h, rfl, rfl⟩, rfl, hstates,
    s.handle.callback_closed (some index) hcb, ?_, fun _ _ h => Or.inl h⟩
  rintro uid connId (hqueue | hin | hvalue)
  · exact Or.inl hqueue
  · exact Or.inr (Or.inl (hincoming ▸ hin))
  · exact Or.inr (Or.inr hvalue)

theorem runCallback_closed {s t : Handles κ χ ψ} {index : Nat} {info : CloseInfo}
    (hstep : s.runCallback index (.onConnClosed info) = some t) :
    ∃ slot, s.slab index = some slot ∧ slot.reported = false ∧
      t = { s with
        handle := s.handle.callback (some index) (.onConnClosed info)
        slab := Function.update s.slab index (some { slot with reported := true }) } := by
  unfold runCallback at hstep
  split at hstep
  · simp at hstep
  · rename_i slot hslot
    simp only at hstep
    split at hstep
    · simp at hstep
    · rename_i hopen
      exact ⟨slot, hslot, by simpa using hopen, (Option.some.inj hstep).symm⟩

theorem accept_narrows {s : Handles κ χ ψ} {uid : Nat} {data : IncomingData}
    {incoming : List (Nat × IncomingData)} (hin : s.handle.incoming = (uid, data) :: incoming) :
    Narrows s ({ s with handle := { s.handle with incoming := incoming } }.add
      ⟨some uid, .incoming data.connId data.remoteAddr⟩) := by
  have hpop : Narrows s { s with handle := { s.handle with incoming := incoming } } := by
    refine ⟨fun _ slot' h => ⟨slot', h, rfl, rfl⟩, rfl, rfl, fun _ => rfl, ?_,
      fun _ _ h => Or.inl h⟩
    rintro u connId (hqueue | ⟨remoteAddr, hmem⟩ | hvalue)
    · exact Or.inl hqueue
    · exact Or.inr (Or.inl ⟨remoteAddr, hin ▸ List.mem_cons_of_mem _ hmem⟩)
    · exact Or.inr (Or.inr hvalue)
  apply hpop.add
  intro connId hconn u hu
  obtain rfl : data.connId = connId := by simpa [Value.connId] using hconn
  obtain rfl : uid = u := by simpa using hu
  exact Or.inr (Or.inl ⟨data.remoteAddr, by simp [hin]⟩)

theorem sendEndpoint_narrows {s t : Handles κ χ ψ} (h : Narrows s t)
    (cmd : BridgeCommand χ ψ Respond) : Narrows s (t.sendEndpoint cmd) :=
  h.enqueue rfl rfl rfl rfl rfl (Or.inl rfl)

/-- What one event can do. -/
theorem step_cases {T : Tquic κ} {configError : χ → Option ConnectError} {s t : Handles κ χ ψ}
    {e : HandlesEvent κ χ ψ} (hstep : s.step T configError e = some t) :
    Narrows s t ∨
      (∃ s' new, Narrows s s' ∧ Created s' t new ∧ s.Creates configError new.index e) ∨
      ∃ index info, s.runCallback index (.onConnClosed info) = some t := by
  cases step_inv hstep with
  | connCreated hcreate =>
    refine Or.inr (Or.inl ⟨s, _, .refl s, ⟨_, t, none, hcreate, rfl, ?_⟩, rfl⟩)
    intro respond connId hx
    simp at hx
  | process =>
    rcases process_cases hstep with h | h
    · exact Or.inl h
    · exact Or.inr (Or.inl h)
  | callback hslot hcb => exact Or.inl (callback_narrows _ hcb)
  | closed => exact Or.inr (Or.inr ⟨_, _, hstep⟩)
  | engine hslot => exact Or.inl (update_narrows hslot (some _))
  | release hslot => exact Or.inl (update_narrows hslot none)
  | refused => exact Or.inl (.refl s)
  | connect =>
    refine Or.inl ((sendEndpoint_narrows (.refl s) _).add ?_)
    intro connId hconn
    simp [Value.connId] at hconn
  | setDefaultClientConfig | setServerConfig | closeEndpoint =>
    exact Or.inl (sendEndpoint_narrows (.refl s) _)
  | accept _ hincoming => exact Or.inl (accept_narrows hincoming)
  | use hh huse => exact Or.inl (useValue_narrows hh huse)

end Handles

end TokioTquic
